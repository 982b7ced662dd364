import Cipher.ContractRecords
import Cipher.ProportionalSettlement

/-!
# Settlement

`SettleAvailabilityContract` admits an expired contract, but assigns the
settlement before it asks for the transition, and no transition leads out of
an expired state. So a contract that expired by a late challenge is not paid,
and its record is changed all the same; one that was settled when it expired
loses the time of its settlement. In all other cases the call either fails
and changes nothing, or settles the contract.
-/

namespace Cipher.Availability

open Bytes Binary Go Content Transition List

/-! ## What the call does -/

namespace ContractStore

variable {s : ContractStore} {contractId : Str} {p : Nat} {c : AvailabilityContract}
  {settlement : SettlementState}

section

variable (hfind : s.find contractId = some (p, c))

include hfind

/-- A contract that is not admitted. -/
lemma settle_rejected (h : (c.state ≠ .active ∧ c.state ≠ .expired) ∨ c.results = [])
    (now finalizedAt : Int) :
    ∃ e, s.settleAvailabilityContract contractId now finalizedAt = (.error e, s) := by
  unfold settleAvailabilityContract
  rw [hfind]
  dsimp only
  split
  · exact ⟨_, rfl⟩
  · rename_i hadmitted
    rw [if_pos (by rw [h.resolve_left hadmitted]; rfl)]
    exact ⟨_, rfl⟩

lemma settle_active (hstate : c.state = .active) (hresults : c.results ≠ [])
    (hcalculate : calculateSettlement c.fundedAmount c.results = .ok settlement)
    (now finalizedAt : Int) :
    ∃ nextState, nextState.isTerminal = true ∧
      s.settleAvailabilityContract contractId now finalizedAt = (.ok settlement.status,
        s.put p { ({ c with settlement }).setState nextState with
          settlement := { settlement with finalizedAt := some finalizedAt } }) := by
  have hlength : c.results.length ≠ 0 := fun h => hresults (eq_nil_of_length_eq_zero h)
  unfold settleAvailabilityContract
  rw [hfind]
  dsimp only
  rw [if_neg hlength, hcalculate, hstate]
  by_cases hends : c.endsAt ≤ now
  · refine ⟨.expired, rfl, ?_⟩
    simp only [hends, if_true]
    rfl
  · refine ⟨.completed, rfl, ?_⟩
    simp only [hends, if_false]
    rfl

lemma settle_expired (hstate : c.state = .expired) (hresults : c.results ≠ [])
    (hcalculate : calculateSettlement c.fundedAmount c.results = .ok settlement)
    (now finalizedAt : Int) :
    ∃ e, s.settleAvailabilityContract contractId now finalizedAt =
      (.error e, s.put p { c with settlement }) := by
  have hlength : c.results.length ≠ 0 := fun h => hresults (eq_nil_of_length_eq_zero h)
  unfold settleAvailabilityContract
  rw [hfind]
  dsimp only
  rw [if_neg (fun h => h.2 hstate), if_neg hlength, hcalculate]
  dsimp only
  rcases c.state.transition_cases (if c.endsAt ≤ now then .expired else .completed)
    with ⟨hcan, -⟩ | ⟨-, heq⟩
  · rw [hstate] at hcan
    split at hcan <;> cases hcan
  · rw [heq]
    exact ⟨_, rfl⟩

end

end ContractStore

/-! ## Contracts that were settled -/

/-- The settlement is the calculated one, apart from its time. -/
structure Settled (c : AvailabilityContract) : Prop where
  state : c.state = .completed ∨ c.state = .expired
  results : c.results ≠ []
  settlement : calculateSettlement c.fundedAmount c.results =
    .ok { c.settlement with finalizedAt := none }

/-- Nothing but another attempt to settle touches the record. -/
lemma Settled.touch (h : Settled c) (htouch : AvailabilityContract.Touch contractId c call c') :
    Settled c' := by
  have hstate := h.state
  cases htouch with
  | fund hproposed =>
    rw [hproposed] at hstate
    rcases hstate with heq | heq <;> cases heq
  | expire hchallengeable | challenge hchallengeable =>
    rcases hchallengeable.state with hs | hs <;> rw [hs] at hstate <;>
      rcases hstate with heq | heq <;> cases heq
  | record hactive | settle hactive =>
    rw [hactive] at hstate
    rcases hstate with heq | heq <;> cases heq
  | settleFailed hexpired hresults hcalculate =>
    refine ⟨h.state, hresults, ?_⟩
    rw [hcalculate, ← (calculateSettlement_eq_ok hcalculate).finalizedAt]
  | terminate hcan =>
    rcases hstate with heq | heq <;> rw [heq] at hcan <;> cases hcan

namespace ContractHistory

variable {sha256 : List UInt8 → Hash} {spare : Nat → Nat → Nat} {ed : Ed25519}
  {h : ContractHistory}

/-- The contracts whose settlement succeeded. -/
structure Paid (h : ContractHistory) : Prop where
  wf : Wf h
  pointers : ∀ p ∈ h.settled, p < h.store.objects.length
  settled : ∀ {p : Nat} {c : AvailabilityContract}, h.store.objects[p]? = some c →
    p ∈ h.settled → Settled c

/-- The pointers that are noted in a call. -/
lemma Change.settled (hchange : Change sha256 spare h call h') :
    h'.settled = h.settled ∨ ∃ p c, h'.settled = p :: h.settled ∧
      h'.store.objects[p]? = some c ∧ Settled c := by
  cases hchange with
  | @settle _ p c hfind hstate hresults settlement hcalculate nextState hnext =>
    refine .inr ⟨p, _, rfl, (ContractStore.objects_put hfind).mpr (.inl ⟨rfl, rfl⟩), ?_⟩
    refine ⟨hnext.symm, hresults, ?_⟩
    exact hcalculate.trans (by rw [← (calculateSettlement_eq_ok hcalculate).finalizedAt])
  | _ => exact .inl rfl

lemma Paid.change (hpaid : Paid h) (hchange : Change sha256 spare h call h') : Paid h' where
  wf := hpaid.wf.change hchange
  pointers := by
    intro p hp
    have hle := hchange.length_le
    rcases hchange.settled with heq | ⟨q, c, heq, hq, -⟩
    · rw [heq] at hp
      exact Nat.lt_of_lt_of_le (hpaid.pointers p hp) hle
    · rw [heq] at hp
      rcases mem_cons.mp hp with rfl | hp
      · exact (List.getElem_of_getElem? hq).1
      · exact Nat.lt_of_lt_of_le (hpaid.pointers p hp) hle
  settled := by
    intro p c' hp' hp
    have hold (hp : p ∈ h.settled) : Settled c' := by
      rcases hchange.objects hp' with ⟨c, hc, rfl | ⟨_, -, htouch⟩⟩ | ⟨rfl, -⟩
      · exact hpaid.settled hc hp
      · exact (hpaid.settled hc hp).touch htouch
      · exact absurd (hpaid.pointers _ hp) (Nat.lt_irrefl _)
    rcases hchange.settled with heq | ⟨q, c, heq, hq, hsettled⟩
    · exact hold (heq ▸ hp)
    · rw [heq] at hp
      rcases mem_cons.mp hp with rfl | hp
      · cases hp'.symm.trans hq
        exact hsettled
      · exact hold hp

lemma paid_of_run (hr : Run (step sha256 spare ed) (fun _ _ => True) init h) : Paid h :=
  Run.inv hr ⟨wf_init, nofun, nofun⟩ fun _ _ _ _ hstep hpaid =>
    hpaid.change (change_of_step hstep)

/-! ## The call -/

/-- The record after a settlement that succeeded. -/
structure Finalised (c c' : AvailabilityContract) (status : SettlementStatus) (finalizedAt : Int) :
    Prop where
  terminal : c'.state.isTerminal = true
  status : c'.settlement.status = status
  time : c'.settlement.finalizedAt = some finalizedAt
  settlement : calculateSettlement c.fundedAmount c.results =
    .ok { c'.settlement with finalizedAt := none }

/-- A call to settle a contract that can be found fails without a change or
settles it, and settles it if it has results and was not settled before,
unless the contract is expired. Then the call fails. That is what is asked
for only of a contract that was settled before and has lost the time of its
settlement already. -/
theorem settle_iff (hr : Run (step sha256 spare ed) (fun _ _ => True) init h) {contractId : Str}
    {p : Nat} {c : AvailabilityContract} (hfind : h.store.find contractId = some (p, c))
    (now finalizedAt : Int) :
    (∀ result store,
      h.store.settleAvailabilityContract contractId now finalizedAt = (result, store) →
      (∀ e, result = .error e → store.objects[p]? = some c) ∧
      (∀ status, result = .ok status → ∃ c', store.objects[p]? = some c' ∧
        Finalised c c' status finalizedAt) ∧
      ((c.state = .active ∨ c.state = .expired) → c.fundedAmount = c.paymentAmount →
        c.results ≠ [] → p ∉ h.settled → ∃ status, result = .ok status)) ↔
    ¬ (c.state = .expired ∧ c.results ≠ [] ∧
      (p ∉ h.settled ∨ c.settlement.finalizedAt ≠ none)) := by
  have hpaid := paid_of_run hr
  obtain ⟨-, hc⟩ := ContractStore.find_eq_some.mp hfind
  have hrecorded := hpaid.wf.recorded hc
  have hcalculate (hresults : c.results ≠ []) :=
    exists_calculateSettlement ((hrecorded.active hresults).2 ▸ hrecorded.payment) hresults
  constructor
  · rintro hall ⟨hstate, hresults, hcase⟩
    obtain ⟨settlement, hok⟩ := hcalculate hresults
    obtain ⟨e, heq⟩ := ContractStore.settle_expired hfind hstate hresults hok ..
    obtain ⟨hkept, -, havailable⟩ := hall _ _ heq
    rcases hcase with hunsettled | htime
    · obtain ⟨status, hstatus⟩ :=
        havailable (.inr hstate) (hrecorded.active hresults).2 hresults hunsettled
      cases hstatus
    · have hput : (h.store.put p { c with settlement }).objects[p]? = some _ :=
        (ContractStore.objects_put hfind).mpr (.inl ⟨rfl, rfl⟩)
      have hsame := Option.some.inj (hput.symm.trans (hkept e rfl))
      rw [← hsame] at htime
      exact htime ((calculateSettlement_eq_ok hok).finalizedAt)
  · intro hgood result store hsettle
    by_cases hadmitted : (c.state ≠ .active ∧ c.state ≠ .expired) ∨ c.results = []
    · obtain ⟨e, heq⟩ := ContractStore.settle_rejected hfind hadmitted ..
      cases hsettle.symm.trans heq
      refine ⟨fun _ _ => hc, nofun, fun hstate _ hresults _ => ?_⟩
      obtain ⟨hactive, hexpired⟩ := hadmitted.resolve_right hresults
      rcases hstate with hstate | hstate
      · exact absurd hstate hactive
      · exact absurd hstate hexpired
    obtain ⟨hstates, hresults⟩ := not_or.mp hadmitted
    obtain ⟨settlement, hok⟩ := hcalculate hresults
    have hput (c' : AvailabilityContract) : (h.store.put p c').objects[p]? = some c' :=
      (ContractStore.objects_put hfind).mpr (.inl ⟨rfl, rfl⟩)
    by_cases hactive : c.state = .active
    · obtain ⟨nextState, hterminal, heq⟩ :=
        ContractStore.settle_active hfind hactive hresults hok ..
      cases hsettle.symm.trans heq
      refine ⟨nofun, fun status hstatus => ?_, fun _ _ _ _ => ⟨_, rfl⟩⟩
      cases hstatus
      refine ⟨_, hput _, hterminal, rfl, rfl, ?_⟩
      rw [hok, ← (calculateSettlement_eq_ok hok).finalizedAt]
    · -- settled before, so that the same settlement is assigned again
      have hexpired : c.state = .expired := by
        by_contra hne
        exact hstates ⟨hactive, hne⟩
      have hkept : p ∈ h.settled ∧ c.settlement.finalizedAt = none := by
        by_contra hnot
        rcases not_and_or.mp hnot with hunsettled | htime
        · exact hgood ⟨hexpired, hresults, .inl hunsettled⟩
        · exact hgood ⟨hexpired, hresults, .inr htime⟩
      obtain ⟨e, heq⟩ := ContractStore.settle_expired hfind hexpired hresults hok ..
      cases hsettle.symm.trans heq
      have hsame : c.settlement = settlement := by
        have hcalculated := (hpaid.settled hc hkept.1).settlement
        rw [← hkept.2] at hcalculated
        exact Except.ok.inj (hcalculated.symm.trans hok)
      refine ⟨fun _ _ => ?_, nofun, fun _ _ _ hunsettled => absurd hkept.1 hunsettled⟩
      rw [hput, ← hsame]

/-- A contract with a passed challenge is settled in time. -/
theorem settle_iff_sample : ∃ (h : ContractHistory) (c : AvailabilityContract)
    (status : SettlementStatus) (store : ContractStore),
    Run sampleStep (fun _ _ => True) init h ∧ h.store.find (sampleId 0) = some (0, c) ∧
    h.store.settleAvailabilityContract (sampleId 0) 3 4 = (.ok status, store) ∧
    ∃ c', store.objects[0]? = some c' ∧ Finalised c c' status 4 := by
  have hr : Run sampleStep (fun _ _ => True) init _ := .of_execute samplePassed rfl
  -- the contract is still active
  have hgood := (@settle_iff _ _ _ _ hr (sampleId 0) 0 _ rfl 3 4).mpr fun hbad => nomatch hbad.1
  exact ⟨_, _, _, _, hr, rfl, rfl, (hgood _ _ rfl).2.1 _ rfl⟩

/-- The next challenge is asked for after the end: the contract is expired,
its record is changed by a call that fails, and it cannot be settled. -/
theorem expired_unpaid : ∃ (h : ContractHistory) (c c' : AvailabilityContract)
    (e : ContractError) (store : ContractStore),
    Run sampleStep (fun _ _ => True) init h ∧ h.store.find (sampleId 0) = some (0, c) ∧
    c.state = .expired ∧ c.fundedAmount = c.paymentAmount ∧ c.results ≠ [] ∧ h.settled = [] ∧
    h.store.settleAvailabilityContract (sampleId 0) 6 7 = (.error e, store) ∧
    store.objects[0]? = some c' ∧ c.settlement.status = .pending ∧
    c'.settlement.status = .completed ∧
    (store.settleAvailabilityContract (sampleId 0) 8 9).1 = .error e := by
  exact ⟨_, _, _, _, _, .of_execute (samplePassed ++ [sampleInitiate 0 1 1 5]) rfl, rfl, rfl, rfl,
    nofun, rfl, rfl, rfl, rfl, rfl, rfl⟩

end ContractHistory

end Cipher.Availability
