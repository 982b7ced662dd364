import Cipher.DispatchHistory

/-!
# The vouchers a dispatcher issues

`issued cid evs` is what a trace has handed out for one contract, in the
order of issue. Each voucher is numbered by the dispatches up to it and
is worth what the passes up to it have earned (`Vouched`), so a later
voucher has a greater sequence number and is worth no less, whatever
failures lie between the two and whichever vouchers are skipped.

The signer is a parameter here. All that matters is that it adds a
signature to a voucher and changes nothing else (`OnlySigns`).
-/

namespace Cipher.Payment

open Evm Go Function List

/-! ## Vouchers of a history -/

/-- The vouchers of a history, newest first. -/
def vouchers (hist : Dispatches) : List PaymentState :=
  (hist.filter fun x => x.1.result = .pass).map (·.2.paymentState)

/-- The vouchers issued for a contract, oldest first. -/
def issued (cid : Str) (evs : List Event) : List PaymentState :=
  (vouchers (dispatched cid evs)).reverse

lemma vouchers_cons (x : AvailabilityResult × DispatchResult) (hist : Dispatches) :
    vouchers (x :: hist)
      = if x.1.result = .pass then x.2.paymentState :: vouchers hist else vouchers hist := by
  by_cases h : x.1.result = .pass <;> simp [vouchers, h]

/-- Every pass yields one voucher. -/
lemma length_vouchers (hist : Dispatches) : (vouchers hist).length = passes hist := by
  simp [vouchers, passes, countP_eq_length_filter]

/-- The vouchers of a history satisfy `Q` and are numbered and valued as
their place in it says. -/
def Vouched (Q : PaymentState → Prop) (max perPass : Nat) : Dispatches → Prop
  | [] => True
  | x :: hist =>
    (x.1.result = .pass → Q x.2.paymentState
      ∧ x.2.paymentState.sequence.toNat = hist.length + 1
      ∧ x.2.paymentState.cumulativePayment.toNat = min max (perPass * (passes hist + 1)))
    ∧ Vouched Q max perPass hist

/-- `v` was issued after `u` and supersedes it. -/
def Supersedes (v u : PaymentState) : Prop :=
  u.sequence.toNat < v.sequence.toNat
    ∧ u.cumulativePayment.toNat ≤ v.cumulativePayment.toNat

section Vouched

variable {Q : PaymentState → Prop} {max perPass : Nat} {hist : Dispatches}

lemma Vouched.bound (h : Vouched Q max perPass hist) :
    ∀ v ∈ vouchers hist, Q v ∧ 0 < v.sequence.toNat ∧ v.sequence.toNat ≤ hist.length
      ∧ v.cumulativePayment.toNat ≤ min max (perPass * passes hist) := by
  induction hist with
  | nil => intro v hv; cases hv
  | cons x hist ih =>
    intro v hv
    obtain ⟨hx, hrest⟩ := h
    rw [vouchers_cons] at hv
    rw [passes_cons, length_cons]
    split at hv
    · rename_i hpass
      rw [if_pos hpass, Nat.mul_add]
      rcases mem_cons.mp hv with rfl | hv
      · obtain ⟨hq, hseq, hcum⟩ := hx hpass
        rw [Nat.mul_add] at hcum
        exact ⟨hq, by omega, by omega, by omega⟩
      · obtain ⟨hq, hpos, hseq, hcum⟩ := ih hrest v hv
        exact ⟨hq, hpos, by omega, by omega⟩
    · rename_i hfail
      obtain ⟨hq, hpos, hseq, hcum⟩ := ih hrest v hv
      rw [if_neg hfail]
      exact ⟨hq, hpos, by omega, hcum⟩

lemma Vouched.ordered (h : Vouched Q max perPass hist) : (vouchers hist).Pairwise Supersedes := by
  induction hist with
  | nil => exact .nil
  | cons x hist ih =>
    obtain ⟨hx, hrest⟩ := h
    rw [vouchers_cons]
    split
    · rename_i hpass
      obtain ⟨-, hseq, hcum⟩ := hx hpass
      refine .cons (fun u hu => ?_) (ih hrest)
      obtain ⟨-, -, hseq', hcum'⟩ := hrest.bound u hu
      rw [Nat.mul_add] at hcum
      exact ⟨by omega, by omega⟩
    · exact ih hrest

/-- The `i`-th voucher is worth what the first `i + 1` passes earned. -/
lemma Vouched.amount (h : Vouched Q max perPass hist) :
    ∀ {i : Nat} {v : PaymentState}, (vouchers hist).reverse[i]? = some v →
      v.cumulativePayment.toNat = min max (perPass * (i + 1)) := by
  induction hist with
  | nil => intro i v hv; simp [vouchers] at hv
  | cons x hist ih =>
    intro i v hv
    obtain ⟨hx, hrest⟩ := h
    rw [vouchers_cons] at hv
    split at hv
    · rename_i hpass
      have hlen : (vouchers hist).reverse.length = passes hist := by
        rw [length_reverse, length_vouchers]
      rw [reverse_cons, getElem?_append] at hv
      split at hv
      · exact ih hrest hv
      · -- The new voucher stands at the end.
        obtain ⟨hi, rfl⟩ := List.getElem_of_getElem? hv
        simp only [length_singleton] at hi
        have hlast : i = passes hist := by omega
        subst hlast
        simpa [hlen] using (hx hpass).2.2
    · exact ih hrest hv

end Vouched

/-! ## Along a trace -/

section

variable (sign : PaymentState → Except Error PaymentState)

/-- The signer adds a signature and nothing else. -/
def OnlySigns : Prop :=
  ∀ state signed, sign state = .ok signed →
    ∃ signature, signed = { state with publisherSignature := signature }

/-- In this event, a result for `cid` is signed by `sign` and names a
provider that is bound to `provider`. -/
def Served (cid : Str) (provider : Address)
    (e : Event) : Prop :=
  ∀ env result, e.op = .dispatchAvailabilityResult env result → result.contractID = cid →
    env.sign = sign ∧ e.before.coordinator.bindings.providers result.providerID = some provider

/-- A voucher of `sign` for this agreement and this provider. -/
def SignedFor (escrow : Bytes32)
    (provider : Address) (v : PaymentState) : Prop :=
  (∃ state, sign state = .ok v) ∧ v.contractID = escrowString escrow
    ∧ v.provider = addressString provider

/-- The schedule of `cid` is bound to its agreement, and its vouchers are
in order. -/
def Issues (cid : Str) (provider : Address)
    (evs : List Event) (d : Dispatcher) : Prop :=
  ∀ s, d.schedules cid = some s →
    d.coordinator.bindings.contracts cid = some s.escrowContractID
      ∧ Vouched (SignedFor sign s.escrowContractID provider) s.maxPayment.toNat
          s.paymentPerPass.toNat (dispatched cid evs)

end

section Traces

/-- **Every voucher a new dispatcher issues is in order.** -/
theorem trace_vouched (honly : OnlySigns sign)
    (hnew : newAvailabilityPaymentDispatcher coordinator signerKey opts = .ok d₀)
    (ht : Trace cr d₀ evs d) (hserved : ∀ e ∈ evs, Served sign cid provider e)
    (hs : d.schedules cid = some s) :
    Vouched (SignedFor sign s.escrowContractID provider) s.maxPayment.toNat
      s.paymentPerPass.toNat (dispatched cid evs) := by
  obtain ⟨hbooked, hnone⟩ := booked_new hnew
  have hissues : Issues sign cid provider evs d := by
    refine fun s hs => ⟨trace_bound hnone ht hs, ?_⟩
    refine trace_histories (A := Served sign cid provider) (P := fun hist s =>
      Vouched (SignedFor sign s.escrowContractID provider) s.maxPayment.toNat
        s.paymentPerPass.toNat hist) hbooked hnone (fun _ _ _ _ => trivial) ?_ ht hserved hs
    intro evs d env result out s s' ht hcid hserved hs hadvance hold
    have hacc := (trace_booked hbooked ht).some cid s hs
    have hpass (hresult : result.result = .pass) := hacc.pass out hresult
    cases hadvance with
    | pass hnew hseq hresult hsign =>
      -- the voucher of a pass is the next one
      obtain ⟨hsigner, hbound⟩ := hserved env result rfl hcid
      have hcum := (hpass hresult hseq hnew).cumulative
      rw [passes_cons, if_pos hresult] at hcum
      have hout := createAndSign_outcome env result (nextCumulativePayment s) (s.sequence + 1)
        d.coordinator
      rw [hsign] at hout
      cases hout with
      | ok hescrow hprovider hok =>
        rw [hcid] at hescrow
        cases (trace_bound hnone ht hs).symm.trans hescrow
        cases hbound.symm.trans hprovider
        rw [hsigner] at hok
        obtain ⟨signature, rfl⟩ := honly _ _ hok
        refine ⟨fun _ => ⟨⟨⟨_, hok⟩, rfl, rfl⟩, ?_, hcum⟩, hold⟩
        rw [← hacc.sequence]
        exact toNat_succ hseq
    | fail hnew hseq hresult => exact ⟨fun hpass => by simp [hresult] at hpass, hold⟩
  exact (hissues s hs).2

end Traces

end Cipher.Payment
