import Cipher.VoucherStores

/-!
# When a passed challenge is paid

A dispatcher numbers the vouchers of each availability contract from one. The
coordinator accepts only vouchers that are newer than the last one it signed for
the same escrow agreement. A contract that has an agreement to itself is paid for
every pass, since no voucher is then ahead of its own counters. But two contracts
may be registered for one agreement, and then the one that is behind is not paid
(`pass_paid_iff`).
-/

namespace Cipher.Payment

open Evm Go List

/-- A signer that signs whatever it is given. -/
def Signing (sign : PaymentState → Except Error PaymentState) : Prop :=
  ∀ state, ∃ signature, signature ≠ []
    ∧ sign state = .ok { state with publisherSignature := signature }

lemma Signing.onlySigns (h : Signing sign) : OnlySigns sign := by
  intro state signed hsign
  obtain ⟨signature, -, hok⟩ := h state
  exact ⟨signature, Except.ok.inj (hsign.symm.trans hok)⟩

/-- A passed challenge that is there to be paid. -/
structure ValidPass (env : Env) (result : AvailabilityResult) (d : Dispatcher)
    (s : PaymentSchedule) : Prop where
  registered : d.schedules result.contractID = some s
  pass : result.result = .pass
  challenge : result.challengeID ≠ []
  new : s.processedChallenges result.challengeID = false
  bound : ∃ provider, d.coordinator.bindings.providers result.providerID = some provider
  room : s.sequence ≠ maxUint64
  signer : Signing env.sign

/-! ## What has to be the case -/

lemma createPaymentState_pass (result : AvailabilityResult)
    (cum seq : UInt64) (hcontract : result.contractID ≠ []) (hprovider : result.providerID ≠ [])
    (hchallenge : result.challengeID ≠ []) (hpublisher : publisherID ≠ [])
    (hpass : result.result = .pass) :
    createPaymentState result publisherID cum seq = .ok { PaymentState.zero with
      contractID := result.contractID, publisher := publisherID, provider := result.providerID,
      sequence := seq, period := result.period, cumulativePayment := cum,
      lastChallengeID := result.challengeID, status := .pass } := by
  unfold createPaymentState
  rw [if_neg, if_neg (not_not.mpr hpass), hpass]
  rintro (hnil | hnil | hnil | hnil)
  · exact hcontract hnil
  · exact hprovider hnil
  · exact hchallenge hnil
  · exact hpublisher hnil

/-- The state is newer than what the store has. -/
def Newer (state : PaymentState) (store : PaymentStateStore) : Prop :=
  store.hasState = true → state.contractID = store.latest.contractID
    ∧ store.latest.sequence < state.sequence
    ∧ store.latest.cumulativePayment ≤ state.cumulativePayment

lemma Newer.not_stale (h : Newer state store) :
    ¬(store.hasState = true ∧ (state.sequence ≤ store.latest.sequence
      ∨ state.cumulativePayment < store.latest.cumulativePayment)) := by
  rintro ⟨hstate, hseq | hcum⟩
  · exact absurd (h hstate).2.1 (UInt64.not_lt.mpr hseq)
  · exact absurd (h hstate).2.2 (UInt64.not_le.mpr hcum)

lemma Newer.stored (h : Newer state store)
    (hcontract : state.contractID ≠ []) (hsignature : state.publisherSignature ≠ []) :
    storePaymentState store state = .ok ⟨state, true⟩ := by
  unfold storePaymentState
  rw [if_neg, if_neg]
  · rintro ⟨hstate, hcid | hstale⟩
    · exact hcid (h hstate).1
    · exact h.not_stale ⟨hstate, hstale⟩
  · rintro (hnil | hnil)
    · exact hcontract hnil
    · exact hsignature (length_eq_zero_iff.mp hnil)

variable {env : Env} {result : AvailabilityResult} {evs : List Event}

/-- The coordinator signs what is newer than its latest voucher. -/
lemma createAndSign_ok (hstored : Stored evs c)
    (hescrow : c.bindings.contracts result.contractID = some escrow)
    (hprovider : c.bindings.providers result.providerID = some provider)
    (hpass : result.result = .pass) (hchallenge : result.challengeID ≠ [])
    (hsigner : Signing env.sign) (hfresh : ∀ v, c.latest (escrowString escrow) = some v →
      v.sequence < seq ∧ v.cumulativePayment ≤ cum) :
    ∃ signed, (createAndSignPaymentState env result cum seq c).1 = .ok signed := by
  obtain ⟨store, hstore⟩ := hstored.store _ _ hescrow
  obtain ⟨signature, hsignature, hsign⟩ :=
    hsigner (unsignedState ..)
  have hcontract : result.contractID ≠ [] := by
    intro hnil
    rw [hnil, hstored.named] at hescrow
    cases hescrow
  have hnewer (signature : List UInt8) : Newer { unsignedState env result cum seq c escrow provider
      with publisherSignature := signature } store := by
    intro hstate
    have hlatest : c.latest (escrowString escrow) = some store.latest := by
      rw [PublisherCoordinator.latest, hstore, Option.bind_some, if_pos hstate]
    refine ⟨?_, hfresh _ hlatest⟩
    rw [hstored.latest] at hlatest
    exact (of_decide_eq_true (mem_filter.mp (mem_of_head? hlatest)).2).symm
  have hput := (hnewer _).stored (cons_ne_nil _ _) hsignature
  have hcreate := createPaymentState_pass { result with providerID := addressString provider }
    cum seq hcontract (cons_ne_nil _ _) hchallenge hstored.publisher hpass
  have hstale : ¬(store.hasState = true ∧ (seq ≤ store.latest.sequence
      ∨ cum < store.latest.cumulativePayment)) := (hnewer []).not_stale
  unfold createAndSignPaymentState
  rw [if_neg (not_not.mpr hpass), if_neg (Int.not_le.mpr hstored.ttl), hescrow, hprovider]
  dsimp only
  rw [hstore]
  dsimp only
  rw [if_neg hstale, hcreate]
  dsimp only
  split
  · rename_i e herr
    cases hsign.symm.trans herr
  · rename_i signed hok
    cases hsign.symm.trans hok
    rw [hput]
    exact ⟨_, rfl⟩

variable {d : Dispatcher} {s : PaymentSchedule} {cr : Crypto}

lemma dispatch_of_sign (cr : Crypto) (hvalid : ValidPass env result d s)
    (hcontract : result.contractID ≠ [])
    (hsign : (createAndSignPaymentState env result (nextCumulativePayment s) (s.sequence + 1)
      d.coordinator).1 = .ok signed) :
    ∃ out, (dispatchAvailabilityResult cr env result d).1 = .ok out := by
  have hvalidate : validateResult result = .ok () := by
    rw [validateResult, if_neg hcontract, if_neg hvalid.challenge, hvalid.pass]
  unfold dispatchAvailabilityResult
  rw [hvalidate]
  rw [hvalid.registered]
  dsimp only
  rw [hvalid.new, if_neg Bool.false_ne_true, if_neg hvalid.room, hvalid.pass]
  dsimp only
  split
  · rename_i heq
    rw [heq] at hsign
    cases hsign
  · exact ⟨_, rfl⟩

/-- What the voucher of a dispatch says, and what had to be the case for it. -/
lemma dispatch_voucher (hs : d.schedules result.contractID = some s)
    (hpass : result.result = .pass) (honly : OnlySigns env.sign)
    (h : (dispatchAvailabilityResult cr env result d).1 = .ok out) :
    ∃ escrow, d.coordinator.bindings.contracts result.contractID = some escrow
      ∧ out.paymentState.contractID = escrowString escrow
      ∧ out.paymentState.sequence = s.sequence + 1
      ∧ out.paymentState.cumulativePayment = nextCumulativePayment s
      ∧ ∀ v, d.coordinator.latest (escrowString escrow) = some v →
        v.sequence < s.sequence + 1 ∧ v.cumulativePayment ≤ nextCumulativePayment s := by
  have hmoves := dispatch_moves cr env result d
  generalize dispatchAvailabilityResult cr env result d = r at h hmoves
  cases hmoves with
  | error e => cases h
  | advance hs' hadvance hcoordinator =>
    cases h
    cases hs.symm.trans hs'
    rcases hcoordinator with ⟨hfail, -⟩ | ⟨-, hsign⟩
    · rw [hpass] at hfail
      cases hfail
    · obtain ⟨escrow, provider, hsigned, -⟩ := createAndSign_signed hsign
      obtain ⟨signature, hout⟩ := honly _ _ hsigned.sign
      rw [hout]
      exact ⟨escrow, hsigned.contract, rfl, rfl, rfl, hsigned.fresh⟩

/-! ## A contract's own vouchers -/

/-- A contract's counters are not behind the vouchers that were dispatched
for it. -/
lemma trace_covered (hbooked : Booked [] d₀)
    (hnone : ∀ cid, d₀.schedules cid = none) (ht : Trace cr d₀ evs d)
    (hsigns : ∀ e ∈ evs, SignedOnly e) (hs : d.schedules cid = some s) :
    ∀ v ∈ vouchers (dispatched cid evs), v.sequence.toNat ≤ s.sequence.toNat
      ∧ v.cumulativePayment.toNat ≤ s.currentCumulativePayment.toNat := by
  refine trace_histories (A := SignedOnly) (P := fun hist s => ∀ v ∈ vouchers hist,
    v.sequence.toNat ≤ s.sequence.toNat
      ∧ v.cumulativePayment.toNat ≤ s.currentCumulativePayment.toNat)
    hbooked hnone nofun ?_ ht hsigns hs
  intro evs d env result out s s' ht _ hsigned hs hadvance h v hv
  rw [vouchers_cons] at hv
  cases hadvance with
  | pass hnew hseq hresult hsign =>
    have hcap := ((trace_booked hbooked ht).some _ s hs).capped
    have hnext := nextCumulativePayment_toNat hcap
    rw [if_pos hresult] at hv
    simp only [PaymentSchedule.passed, toNat_succ hseq, hnext]
    rcases mem_cons.mp hv with rfl | hv
    · obtain ⟨escrow, provider, hsigned', -⟩ := createAndSign_signed hsign
      obtain ⟨signature, rfl⟩ := hsigned _ _ rfl _ _ hsigned'.sign
      exact ⟨(toNat_succ hseq).le, hnext.le⟩
    · obtain ⟨hseq', hcum'⟩ := h v hv
      exact ⟨by omega, by omega⟩
  | fail hnew hseq hresult hprovider hrecord =>
    rw [if_neg (by simp [hresult])] at hv
    obtain ⟨hseq', hcum'⟩ := h v hv
    simp only [PaymentSchedule.failed, toNat_succ hseq]
    exact ⟨by omega, hcum'⟩

/-- The event is not a call of the coordinator's own method. -/
def Dispatching (e : Event) : Prop :=
  ∀ env result cum seq, e.op ≠ .createAndSignPaymentState env result cum seq

/-- Vouchers of an agreement that one contract has to itself are those that
were dispatched for it. -/
lemma vouchersFor_own (ht : Trace cr d₀ evs d)
    (hsigns : ∀ e ∈ evs, SignedOnly e) (hdispatching : ∀ e ∈ evs, Dispatching e)
    (hown : ∀ cid', d.coordinator.bindings.contracts cid' = some escrow → cid' = cid) :
    ∀ v ∈ vouchersFor (escrowString escrow) evs, v ∈ vouchers (dispatched cid evs) := by
  intro v hv
  obtain ⟨hv, hkey⟩ := mem_filter.mp hv
  have hkey : v.contractID = escrowString escrow := of_decide_eq_true hkey
  obtain ⟨e, he, hvoucher⟩ := mem_filterMap.mp hv
  obtain ⟨post, pre, rfl⟩ := append_of_mem he
  obtain ⟨hpre, hreply⟩ := ht.split
  unfold voucherIn at hvoucher
  split at hvoucher
  · rename_i env result out hop hout
    split at hvoucher
    · rename_i hpass
      cases hvoucher
      rw [hop] at hreply
      have hok : (dispatchAvailabilityResult cr env result e.before).1 = .ok out :=
        Reply.dispatched.inj (hreply.symm.trans hout)
      obtain ⟨s, hs⟩ : ∃ s, e.before.schedules result.contractID = some s := by
        have hmoves := dispatch_moves cr env result e.before
        generalize dispatchAvailabilityResult cr env result e.before = r at hok hmoves
        cases hmoves with
        | error e => cases hok
        | advance hs hadvance hcoordinator => exact ⟨_, hs⟩
      have honly : OnlySigns env.sign := hsigns e he env result (by rw [hop]; rfl)
      obtain ⟨escrow', hbound, hkey', -⟩ := dispatch_voucher hs hpass honly hok
      obtain rfl := escrowString_inj (hkey'.symm.trans hkey)
      have hlater := trace_keeps_binding ht.later (step_keeps_binding cr e.op e.before hbound)
      obtain rfl := hown _ hlater
      refine mem_map.mpr ⟨(result, out), mem_filter.mpr ⟨?_, ?_⟩, rfl⟩
      · exact mem_dispatched.mpr ⟨e, he, env, hop, hout, rfl⟩
      · exact decide_eq_true hpass
    · cases hvoucher
  · rename_i hop hout
    exact absurd hop (hdispatching e he _ _ _ _)
  · cases hvoucher

/-! ## Payment -/

section Paid

variable {cr : Crypto} {evs : List Event} {env : Env} {result : AvailabilityResult}
  {d : Dispatcher} {s : PaymentSchedule} (hstored : Stored evs d.coordinator)
  (hbound : d.coordinator.bindings.contracts result.contractID = some s.escrowContractID)
  (hvalid : ValidPass env result d s)

include hstored hbound hvalid

/-- A pass is only paid if no voucher is ahead of the contract's counters. -/
lemma behind_of_paid (hok : (dispatchAvailabilityResult cr env result d).1 = .ok out) :
    ∀ v ∈ vouchersFor (escrowString s.escrowContractID) evs, v.sequence ≤ s.sequence
      ∧ v.cumulativePayment ≤ nextCumulativePayment s := by
  intro v hv
  obtain ⟨escrow, hescrow, -, hseq, hcum, hfresh⟩ := dispatch_voucher hvalid.registered
    hvalid.pass hvalid.signer.onlySigns hok
  cases hbound.symm.trans hescrow
  rw [← hseq, ← hcum] at hfresh
  obtain ⟨hseq', hcum'⟩ := hstored.supersedes hfresh v hv
  rw [hseq, toNat_succ hvalid.room, Nat.lt_succ_iff] at hseq'
  rw [hcum] at hcum'
  exact ⟨UInt64.le_iff_toNat_le.mpr hseq', UInt64.le_iff_toNat_le.mpr hcum'⟩

/-- If none is, it is paid. -/
lemma paid_of_behind
    (hbehind : ∀ v ∈ vouchersFor (escrowString s.escrowContractID) evs, v.sequence ≤ s.sequence
      ∧ v.cumulativePayment ≤ nextCumulativePayment s) :
    ∃ out, (dispatchAvailabilityResult cr env result d).1 = .ok out
      ∧ out.paymentState.contractID = escrowString s.escrowContractID
      ∧ ∀ v ∈ vouchersFor (escrowString s.escrowContractID) evs,
        v.sequence < out.paymentState.sequence := by
  have hahead : ∀ n : UInt64, n ≤ s.sequence → n < s.sequence + 1 := by
    intro n hn
    rw [UInt64.lt_iff_toNat_lt, toNat_succ hvalid.room]
    exact Nat.lt_succ_of_le (UInt64.le_iff_toNat_le.mp hn)
  obtain ⟨provider, hprovider⟩ := hvalid.bound
  have hfresh : ∀ v, d.coordinator.latest (escrowString s.escrowContractID) = some v →
      v.sequence < s.sequence + 1 ∧ v.cumulativePayment ≤ nextCumulativePayment s := by
    intro v hv
    rw [hstored.latest] at hv
    obtain ⟨hseq, hcum⟩ := hbehind v (mem_of_head? hv)
    exact ⟨hahead _ hseq, hcum⟩
  obtain ⟨signed, hsign⟩ := createAndSign_ok hstored hbound hprovider hvalid.pass
    hvalid.challenge hvalid.signer hfresh
  have hcontract : result.contractID ≠ [] := by
    intro hnil
    rw [hnil, hstored.named] at hbound
    cases hbound
  obtain ⟨out, hok⟩ := dispatch_of_sign cr hvalid hcontract hsign
  obtain ⟨escrow, hescrow, hkey, hseq, -, -⟩ := dispatch_voucher hvalid.registered
    hvalid.pass hvalid.signer.onlySigns hok
  cases hbound.symm.trans hescrow
  refine ⟨out, hok, hkey, fun v hv => ?_⟩
  rw [hseq]
  exact hahead _ (hbehind v hv).1

end Paid

/-- **Passes that are paid.** A valid pass yields a voucher that is newer than
all vouchers for the agreement exactly if none of them is ahead of the counters
of its own contract. None is if no other contract is bound to the agreement and
nobody but the dispatcher has vouchers signed. -/
theorem pass_paid_iff (cr : Crypto) (publisherID : Str) (coordinator : PublisherCoordinator)
    (hcoordinator : newPublisherCoordinator publisherID = .ok coordinator)
    (signerKey : List UInt8) (opts : List UInt32) (d₀ d : Dispatcher) (evs : List Event)
    (hnew : newAvailabilityPaymentDispatcher coordinator signerKey opts = .ok d₀)
    (ht : Trace cr d₀ evs d) (hsigns : ∀ e ∈ evs, SignedOnly e) (env : Env)
    (result : AvailabilityResult) (s : PaymentSchedule) (hvalid : ValidPass env result d s) :
    let before := vouchersFor (escrowString s.escrowContractID) evs
    let paid := ∃ out, (dispatchAvailabilityResult cr env result d).1 = .ok out
      ∧ out.paymentState.contractID = escrowString s.escrowContractID
      ∧ ∀ v ∈ before, v.sequence < out.paymentState.sequence
    (paid ↔ ∀ v ∈ before, v.sequence ≤ s.sequence
        ∧ v.cumulativePayment ≤ nextCumulativePayment s)
    ∧ ((∀ e ∈ evs, Dispatching e) →
      (∀ cid, d.coordinator.bindings.contracts cid = some s.escrowContractID →
        cid = result.contractID) → paid) := by
  intro before paid
  obtain ⟨hbooked, hnone⟩ := booked_new hnew
  have hstored : Stored evs d.coordinator := by
    obtain ⟨-, k, -, rfl⟩ := new_eq hnew
    exact trace_stored (stored_new hcoordinator) ht hsigns
  have hbound := trace_bound hnone ht hvalid.registered
  have hiff : paid ↔ ∀ v ∈ before, v.sequence ≤ s.sequence
      ∧ v.cumulativePayment ≤ nextCumulativePayment s := by
    constructor
    · rintro ⟨out, hok, -, -⟩
      exact behind_of_paid hstored hbound hvalid hok
    · exact paid_of_behind hstored hbound hvalid
  refine ⟨hiff, fun hdispatching hown => hiff.mpr fun v hv => ?_⟩
  have hmem := vouchersFor_own ht hsigns hdispatching hown v hv
  obtain ⟨hseq, hcum⟩ := trace_covered hbooked hnone ht hsigns hvalid.registered v hmem
  have hcap := ((trace_booked hbooked ht).some _ s hvalid.registered).capped
  have hnext := nextCumulativePayment_toNat hcap
  rw [UInt64.le_iff_toNat_le, UInt64.le_iff_toNat_le]
  exact ⟨hseq, by omega⟩

/-! ## Sample runs -/

/-- The coordinator of publisher 1, as it is made. -/
def freshCoordinator : PublisherCoordinator :=
  ⟨[1], 24 * 3600 * 1000000000, newRegistry, fun _ => none⟩

def freshDispatcher : Dispatcher :=
  ⟨freshCoordinator, fun _ => none, List.replicate 64 0, defaultFailureThreshold⟩

/-- Contract 9 has agreement 7, and one challenge of it was passed by peer 5. -/
def oneContract : List Op :=
  [.registerContractSchedule [9] 7 4 10, .registerProvider [5] 3,
    .dispatchAvailabilityResult sampleEnv (sampleResult 1 .pass)]

/-- Contract 8 is registered for the same agreement. -/
def sharedAgreement : List Op := oneContract ++ [.registerContractSchedule [8] 7 4 10]

def paymentRun (ops : List Op) : List Event × Dispatcher :=
  Machine.run (step sampleCrypto) freshDispatcher ops

lemma sampleEnv_signing : Signing sampleEnv.sign := fun _ => ⟨[1], by decide, rfl⟩

/-- The first pass of contract 8. -/
def passOfEight : AvailabilityResult := ⟨[8], [5], 1, [1], .pass⟩

lemma oneContract_signs : ∀ e ∈ (paymentRun oneContract).1, SignedOnly e ∧ Dispatching e := by
  simp only [paymentRun, oneContract, Machine.run, foldl_cons, foldl_nil, forall_mem_cons]
  refine ⟨⟨fun env result hop => ?_, nofun⟩, ⟨nofun, nofun⟩, ⟨nofun, nofun⟩, by simp⟩
  cases hop
  exact sampleEnv_signing.onlySigns

set_option maxRecDepth 8192

/-- The second pass of a contract that has its agreement to itself is paid. -/
theorem pass_paid_second :
    ∃ out, (dispatchAvailabilityResult sampleCrypto sampleEnv (sampleResult 2 .pass)
        (paymentRun oneContract).2).1 = .ok out
      ∧ out.paymentState.contractID = escrowString 7
      ∧ ∀ v ∈ vouchersFor (escrowString 7) (paymentRun oneContract).1,
        v.sequence < out.paymentState.sequence := by
  have ht : Trace sampleCrypto freshDispatcher (paymentRun oneContract).1
      (paymentRun oneContract).2 := Machine.trace_run ..
  have hsigns := oneContract_signs
  obtain ⟨s, hs, hescrow, hnew, hroom⟩ : ∃ s, (paymentRun oneContract).2.schedules [9] = some s
      ∧ s.escrowContractID = 7 ∧ s.processedChallenges [2] = false ∧ s.sequence ≠ maxUint64 :=
    ⟨_, rfl, rfl, rfl, by decide⟩
  have hvalid : ValidPass sampleEnv (sampleResult 2 .pass) (paymentRun oneContract).2 s :=
    ⟨hs, rfl, by decide, hnew, ⟨3, rfl⟩, hroom, sampleEnv_signing⟩
  have hpaid := (pass_paid_iff _ [1] freshCoordinator rfl (List.replicate 64 0) []
    freshDispatcher _ _ rfl ht (fun e he => (hsigns e he).1) _ _ s
    hvalid).2 (fun e he => (hsigns e he).2)
  rw [hescrow] at hpaid
  refine hpaid fun cid hcid => ?_
  have hcontracts : (paymentRun oneContract).2.coordinator.bindings.contracts
      = Function.update (fun _ => none) [9] (some 7) := rfl
  rw [hcontracts, Function.update_apply] at hcid
  split at hcid
  · assumption
  · cases hcid

/-- The first pass of a contract that shares its agreement with one that is
ahead is not paid. -/
theorem pass_unpaid : newPublisherCoordinator [1] = .ok freshCoordinator
    ∧ newAvailabilityPaymentDispatcher freshCoordinator (List.replicate 64 0) []
      = .ok freshDispatcher
    ∧ Trace sampleCrypto freshDispatcher (paymentRun sharedAgreement).1
      (paymentRun sharedAgreement).2
    ∧ (∃ s, ValidPass sampleEnv passOfEight (paymentRun sharedAgreement).2 s)
    ∧ (dispatchAvailabilityResult sampleCrypto sampleEnv passOfEight
        (paymentRun sharedAgreement).2).1
      = .error (.wrap "sign payment state" (.staleState 1 4 1 4)) :=
  ⟨rfl, rfl, Machine.trace_run ..,
    ⟨_, rfl, rfl, by decide, rfl, ⟨3, rfl⟩, by decide, sampleEnv_signing⟩, rfl⟩

end Cipher.Payment
