import Cipher.DispatcherAccounting

/-!
# How a contract's history grows

`trace_histories` is the induction for what relates the schedule of a contract
to the dispatches that led to it. It has one case, for a dispatch.
-/

namespace Cipher.Payment

open Evm Go Function

variable {cr : Crypto} {env : Env} {result : AvailabilityResult} {d : Dispatcher}

lemma Advance.escrow
    (h : Advance cr env result d s out s') : s'.escrowContractID = s.escrowContractID := by
  cases h <;> rfl

/-! ## Histories -/

/-- What relates a contract's schedule to its history does so along every
trace, if it is kept by the dispatches of the contract. `A` is what is known
about the events. -/
lemma trace_histories {A : Event → Prop} {P : Dispatches → PaymentSchedule → Prop}
    (hbooked : Booked [] d₀) (hnone : ∀ cid, d₀.schedules cid = none)
    (hnew : ∀ (escrow : Bytes32) (perPass max : UInt64), perPass ≤ max → P []
      { paymentPerPass := perPass, maxPayment := max, currentCumulativePayment := 0,
        sequence := 0, escrowContractID := escrow, processedChallenges := fun _ => false,
        consecutiveFailures := 0, failStreak := [] })
    (hdispatch : ∀ {evs : List Event} {d : Dispatcher} {env : Env} {result : AvailabilityResult}
      {out : DispatchResult} {s s' : PaymentSchedule}, Trace cr d₀ evs d →
      result.contractID = cid →
      A ⟨.dispatchAvailabilityResult env result, d, .dispatched (.ok out)⟩ →
      d.schedules cid = some s → Advance cr env result d s out s' → P (dispatched cid evs) s →
      P ((result, out) :: dispatched cid evs) s') (ht : Trace cr d₀ evs d)
    (hok : ∀ e ∈ evs, A e) (hs : d.schedules cid = some s) : P (dispatched cid evs) s := by
  induction ht generalizing s with
  | nil =>
    rw [hnone] at hs
    cases hs
  | @snoc evs d ht op ih =>
    rw [List.forall_mem_cons] at hok
    have ih {s : PaymentSchedule} (hs : d.schedules cid = some s) := ih hok.2 hs
    rcases step_schedules cr op d with ⟨env, result, rfl⟩ | ⟨cid', escrow, perPass, max, rfl⟩ |
      ⟨hsched, -, hreply⟩
    · have hok := hok.1
      rw [dispatched_cons]
      simp only [step] at hs hok ⊢
      have hmoves := dispatch_moves cr env result d
      generalize dispatchAvailabilityResult cr env result d = r at hmoves hs hok
      cases hmoves with
      | error e => exact ih hs
      | @advance s₁ s₂ out coordinator hs₁ hadvance hcoordinator =>
        by_cases hcid : result.contractID = cid
        · subst hcid
          simp only [Dispatcher.setSchedule, update_self, Option.some.injEq] at hs
          subst hs
          simp only [dispatchOf, if_true, Option.toList_some, List.singleton_append]
          exact hdispatch ht rfl hok hs₁ hadvance (ih hs₁)
        · simp only [Dispatcher.setSchedule, update_of_ne (Ne.symm hcid)] at hs
          simpa [dispatchOf, hcid] using ih hs
    · rw [dispatched_other _ (by simp [step])]
      rcases (registerContractSchedule_outcome ..).2 with hsched | ⟨hfree, hle, hsched, -⟩
      · exact ih (hsched ▸ hs)
      · have hs : update d.schedules cid' _ cid = some s := hsched ▸ hs
        by_cases hcid : cid = cid'
        · subst hcid
          rw [update_self, Option.some.injEq] at hs
          subst hs
          rw [(trace_booked hbooked ht).none cid hfree]
          exact hnew escrow perPass max hle
        · rw [update_of_ne hcid] at hs
          exact ih hs
    · rw [dispatched_other _ hreply]
      exact ih (hsched ▸ hs)

/-! ## Bindings -/

lemma registerContract_keeps (cid cid' : Str) (escrow id : Bytes32) (c : PublisherCoordinator)
    (h : c.bindings.contracts cid' = some id) :
    (registerContract cid escrow c).2.bindings.contracts cid' = some id := by
  unfold registerContract
  split
  · exact h
  · rename_i bindings hbind
    have hkeep := (bindContract_ok hbind).2.2 _ _ h
    dsimp only
    split <;> exact hkeep

lemma createAndSign_bindings (env : Env) (result : AvailabilityResult) (cum seq : UInt64)
    (c : PublisherCoordinator) :
    (createAndSignPaymentState env result cum seq c).2.bindings = c.bindings := by
  have hout := createAndSign_outcome env result cum seq c
  generalize createAndSignPaymentState env result cum seq c = r at hout
  cases hout <;> rfl

/-- No operation undoes a contract binding. -/
lemma step_keeps_binding (cr : Crypto) (op : Op) (d : Dispatcher) {cid : Str} {id : Bytes32}
    (h : d.coordinator.bindings.contracts cid = some id) :
    (step cr op d).2.coordinator.bindings.contracts cid = some id := by
  cases op with
  | registerContractSchedule cid' escrow perPass max =>
    show (registerContractSchedule cid' escrow perPass max d).2.coordinator.bindings.contracts
      cid = some id
    have hkeep := registerContract_keeps cid' cid escrow id _ h
    unfold registerContractSchedule
    split_ifs
    · exact h
    · exact h
    · exact h
    · split
      · exact h
      · split <;> rename_i hreg <;> rw [hreg] at hkeep <;> exact hkeep
  | dispatchAvailabilityResult env result =>
    show (dispatchAvailabilityResult cr env result d).2.coordinator.bindings.contracts cid = some id
    have hmoves := dispatch_moves cr env result d
    generalize dispatchAvailabilityResult cr env result d = r at hmoves
    cases hmoves with
    | error e => exact h
    | advance hs hadvance hcoordinator =>
      rcases hcoordinator with ⟨-, rfl⟩ | ⟨-, hsign⟩
      · exact h
      · have hsame := congrArg (·.2.bindings) hsign
        rw [← createAndSign_bindings env result _ _ d.coordinator, hsame] at h
        exact h
  | registerProvider peer address =>
    show (registerProvider peer address d.coordinator).2.bindings.contracts cid = some id
    unfold registerProvider
    split
    · exact h
    · rename_i bindings hbind
      rw [(bindProvider_ok hbind).1]
      exact h
  | registerContract cid' escrow => exact registerContract_keeps cid' cid escrow id _ h
  | setPaymentStateTTL ttl =>
    show (setPaymentStateTTL ttl d.coordinator).2.bindings.contracts cid = some id
    unfold setPaymentStateTTL
    split <;> exact h
  | createAndSignPaymentState env result cum seq =>
    show (createAndSignPaymentState env result cum seq d.coordinator).2.bindings.contracts
      cid = some id
    rw [createAndSign_bindings]
    exact h

/-- No run undoes a contract binding. -/
lemma trace_keeps_binding (ht : Trace cr d₀ evs d)
    (h : d₀.coordinator.bindings.contracts cid = some escrow) :
    d.coordinator.bindings.contracts cid = some escrow :=
  ht.inv (I := fun _ d => d.coordinator.bindings.contracts cid = some escrow) h
    fun _ d op h => step_keeps_binding cr op d h

/-- A contract with a schedule is bound to the agreement of the schedule. -/
lemma trace_bound (hnone : ∀ cid, d₀.schedules cid = none) (ht : Trace cr d₀ evs d)
    (hs : d.schedules cid = some s) :
    d.coordinator.bindings.contracts cid = some s.escrowContractID := by
  induction ht generalizing s with
  | nil =>
    rw [hnone] at hs
    cases hs
  | @snoc evs d ht op ih =>
    have hkept {s' : PaymentSchedule} (hs' : d.schedules cid = some s') :=
      step_keeps_binding cr op d (ih hs')
    rcases step_schedules cr op d with ⟨env, result, rfl⟩ | ⟨cid', escrow, perPass, max, rfl⟩ |
      ⟨hsched, -, -⟩
    · simp only [step] at hs hkept ⊢
      have hmoves := dispatch_moves cr env result d
      generalize dispatchAvailabilityResult cr env result d = r at hmoves hs hkept
      cases hmoves with
      | error e => exact hkept hs
      | advance hs₁ hadvance hcoordinator =>
        by_cases hcid : cid = result.contractID
        · subst hcid
          simp only [Dispatcher.setSchedule, update_self, Option.some.injEq] at hs
          subst hs
          rw [hadvance.escrow]
          exact hkept hs₁
        · simp only [Dispatcher.setSchedule, update_of_ne hcid] at hs
          exact hkept hs
    · rcases (registerContractSchedule_outcome ..).2 with hsched | ⟨-, -, hsched, hbound⟩
      · exact hkept (hsched ▸ hs)
      · have hs : update d.schedules cid' _ cid = some s := hsched ▸ hs
        by_cases hcid : cid = cid'
        · subst hcid
          rw [update_self, Option.some.injEq] at hs
          subst hs
          exact hbound
        · rw [update_of_ne hcid] at hs
          exact hkept hs
    · exact hkept (hsched ▸ hs)

end Cipher.Payment
