import Cipher.ContractLifecycle
import Cipher.ContractSettlement

/-!
# What becomes of the locked money

A contract that was funded and has come to its end should say of the whole
amount whether it was released or withheld. Only a settlement that succeeds
does that. Termination and a late challenge end the contract with nothing
released and nothing withheld; a settlement that fails afterwards enters the
amounts without a time, and takes the time away from one that succeeded. And
the amount released is computed in 64 bits, where the product can overflow.
-/

namespace Cipher.Availability

open Bytes Binary Go Content Transition List

/-- The whole amount is accounted for. -/
structure Accounted (c : AvailabilityContract) : Prop where
  released : 0 ≤ c.settlement.releasedAmount.toInt
  withheld : 0 ≤ c.settlement.withheldAmount.toInt
  total : c.settlement.releasedAmount.toInt + c.settlement.withheldAmount.toInt =
    c.fundedAmount.toInt
  finalized : c.settlement.finalizedAt ≠ none

/-- The terminal states that a call can lead to. -/
def Ended (c : AvailabilityContract) : Prop :=
  c.state = .completed ∨ c.state = .expired ∨ c.state = .terminated

namespace ContractHistory

variable {sha256 : List UInt8 → Hash} {spare : Nat → Nat → Nat} {ed : Ed25519}
  {h : ContractHistory}

/-! ## Calls that lose no money -/

/-- A call on the contract of the pointer is no challenge after its end, no
settlement of the expired contract or of one whose product overflows, and no
termination of the contract once it is funded. -/
def Keeps (p : Nat) : ContractCall → ContractHistory → Prop
  | .initiate contractId _ _ now _, h => ∀ c, h.store.find contractId = some (p, c) →
    c.Challengeable → now < c.endsAt
  | .settle contractId _ _, h => ∀ c, h.store.find contractId = some (p, c) →
    c.state ≠ .expired ∧ (c.state = .active → c.results.length < 2 ^ 63 ∧
      c.fundedAmount.toInt * c.results.countP (·.succeeded) < 2 ^ 63)
  | .terminate contractId _, h => ∀ c, h.store.find contractId = some (p, c) →
    c.fundedAmount = c.paymentAmount → c.state.isTerminal = true
  | _, _ => True

/-- What such a call leaves behind it. -/
lemma Change.accounted (hchange : Change sha256 spare h call h') (hok : Keeps p call h)
    (hkept : ∀ c, h.store.objects[p]? = some c → c.fundedAmount = c.paymentAmount → Ended c →
      Accounted c)
    (hp : h'.store.objects[p]? = some c) (hfunded : c.fundedAmount = c.paymentAmount)
    (hended : Ended c) : Accounted c := by
  have hopen {state : ContractState} (heq : c.state = state) (h : state.isTerminal = false) :
      Accounted c := by
    rcases hended with hs | hs | hs <;> rw [← heq, hs] at h <;> cases h
  rcases hchange.objects hp with ⟨c₀, hc₀, rfl | ⟨_, hfind, htouch⟩⟩ |
    ⟨-, _, _, _, _, _, _, _, _, -, rfl⟩
  · exact hkept _ hc₀ hfunded hended
  · cases htouch with
    | fund => exact hopen rfl rfl
    | challenge hchallengeable =>
      obtain ⟨written, heq, -⟩ := AvailabilityContract.activated_eq hchallengeable
      exact hopen (congrArg (·.state) heq) rfl
    | expire hchallengeable hends => exact absurd hends (not_le.mpr (hok _ hfind hchallengeable))
    | record hactive => exact hopen hactive rfl
    | settleFailed hexpired => exact absurd hexpired (hok _ hfind).1
    | settle hactive _ hcalculate =>
      obtain ⟨hlength, hfits⟩ := (hok _ hfind).2 hactive
      have hp := proportional_of_fits hlength hcalculate hfits
      have hwithheld := Int.sub_nonneg_of_le hp.bounded
      rw [← hp.total, add_sub_cancel_left] at hwithheld
      exact ⟨hp.nonneg, hwithheld, hp.total, nofun⟩
    | terminate hcan =>
      rw [ContractState.canTransition_of_terminal (hok _ hfind hfunded)] at hcan
      cases hcan
  · exact hopen rfl rfl

/-! ## Contracts that have come to their end -/

/-- Every call on the contract fails. -/
structure Closed (sha256 : List UInt8 → Hash) (spare : Nat → Nat → Nat) (ed : Ed25519)
    (s : ContractStore) (contractId : Str) : Prop where
  fund : ∀ amount, ∃ e, (s.fundAvailabilityContract contractId amount).1 = .error e
  challenge : ∀ randomId randomNonce now issuedAt, ∃ e, (s.initiateAvailabilityChallenge sha256
    spare contractId randomId randomNonce now issuedAt).1 = .error e
  record : ∀ challengeId result now, ∃ e,
    (s.recordAvailabilityResult contractId challengeId result now).1 = .error e
  verify : ∀ challenge response root key timeout now recordedAt, ∃ e,
    (s.verifyAndRecordChallengeResponse sha256 ed contractId challenge response root key timeout
      now recordedAt).1.1 = .error e
  settle : ∀ now finalizedAt, ∃ e,
    (s.settleAvailabilityContract contractId now finalizedAt).1 = .error e
  terminate : ∀ now, ∃ e, (s.terminateAvailabilityContract contractId now).1 = .error e

lemma closed_of_ended {s : ContractStore} (hfind : s.find contractId = some (p, c))
    (hended : Ended c) :
    Closed sha256 spare ed s contractId := by
  have hterminal : c.state.isTerminal = true := by
    rcases hended with hstate | hstate | hstate <;> rw [hstate] <;> rfl
  have hother {state : ContractState} (h : state.isTerminal = false) : c.state ≠ state := by
    rintro rfl
    exact absurd hterminal (by simp [h])
  have hproposed : c.state ≠ .proposed := hother rfl
  have hagreed : c.state ≠ .agreed := hother rfl
  have hactive : c.state ≠ .active := hother rfl
  have hrecord (challengeId : Str) (result : ChallengeResult) (now : Int) :
      s.recordAvailabilityResult contractId challengeId result now =
        (.error (.notActive contractId), s) := by
    unfold ContractStore.recordAvailabilityResult
    rw [hfind]
    exact if_pos hactive
  refine ⟨fun amount => ?_, fun randomId randomNonce now issuedAt => ?_,
    fun challengeId result now => ?_, fun challenge response root key timeout now recordedAt => ?_,
    fun now finalizedAt => ?_, fun now => ?_⟩
  · unfold ContractStore.fundAvailabilityContract
    rw [hfind]
    dsimp only
    rw [if_pos hproposed]
    exact ⟨_, rfl⟩
  · unfold ContractStore.initiateAvailabilityChallenge ContractStore.initiate
    rw [hfind]
    dsimp only
    rw [if_pos (.inl ⟨hagreed, hactive⟩)]
    exact ⟨_, rfl⟩
  · rw [hrecord]
    exact ⟨_, rfl⟩
  · unfold ContractStore.verifyAndRecordChallengeResponse
    dsimp only
    rw [hrecord]
    exact ⟨_, rfl⟩
  · unfold ContractStore.settleAvailabilityContract
    rw [hfind]
    dsimp only
    split
    · exact ⟨_, rfl⟩
    split
    · exact ⟨_, rfl⟩
    split
    · exact ⟨_, rfl⟩
    -- the table has no way out of a terminal state
    rcases c.state.transition_cases (if c.endsAt ≤ now then .expired else .completed)
      with ⟨hcan, -⟩ | ⟨-, heq⟩
    · rw [ContractState.canTransition_of_terminal hterminal] at hcan
      cases hcan
    · rw [heq]
      exact ⟨_, rfl⟩
  · unfold ContractStore.terminateAvailabilityContract
    rw [hfind]
    dsimp only
    rw [if_pos hterminal]
    exact ⟨_, rfl⟩

/-- **Locked money.** If every call on a contract keeps its money, then it is
closed and the whole amount is accounted for once it was funded and has come
to its end. -/
theorem locked_money {contractId : Str} {p : Nat} {c : AvailabilityContract}
    (hr : Run (step sha256 spare ed) (Keeps p) init h)
    (hfind : h.store.find contractId = some (p, c)) (hfunded : c.fundedAmount = c.paymentAmount)
    (hended : Ended c) : Closed sha256 spare ed h.store contractId ∧ Accounted c := by
  refine ⟨closed_of_ended hfind hended, ?_⟩
  have hinit : init.store.objects[p]? = none := getElem?_nil
  have hkept := hr.inv (I := fun h => ∀ c, h.store.objects[p]? = some c →
    c.fundedAmount = c.paymentAmount → Ended c → Accounted c)
    (fun _ hc => nomatch hinit.symm.trans hc)
    fun _ _ _ hok hstep hkept _ => (change_of_step hstep).accounted hok hkept
  exact hkept c (ContractStore.find_eq_some.mp hfind).2 hfunded hended

def sampleSecond (succeeded : Bool) : ContractCall :=
  .record (sampleId 0) (challengeID sampleHash (sampleId 0)
    (EpochStore.epochIdOf (.ofList 16 [1])) 0 (Block.ofList 32 [1]).val) ⟨[], succeeded, 3⟩ 3

/-- A contract with two challenges of which the first one is passed. -/
def sampleSettled (amount : Int64) (second : Bool) : List ContractCall :=
  [.create [1] [2] [3] amount 5 (some fun _ _ => some 2) (some (.ofList 16 [0])) 0,
    .fund (sampleId 0) amount, sampleInitiate 0 0 0 1,
    .record (sampleId 0) sampleChallengeId ⟨[], true, 2⟩ 2, sampleInitiate 0 1 1 3,
    sampleSecond second, .settle (sampleId 0) 4 4]

/-- One of two challenges is passed, and half of the amount is released. -/
theorem locked_money_half : ∃ (h : ContractHistory) (c : AvailabilityContract),
    execute sampleStep (sampleSettled 10 false) init = some h ∧ Run sampleStep (Keeps 0) init h ∧
    h.store.find (sampleId 0) = some (0, c) ∧ c.settlement.releasedAmount = 5 ∧
    c.settlement.withheldAmount = 5 ∧ Accounted c := by
  have hfunded : Run sampleStep (Keeps 0) init _ :=
    .tail (.tail .refl (a := sampleCreate 0) trivial rfl) (a := .fund (sampleId 0) 10) trivial rfl
  have hpassed : Run sampleStep (Keeps 0) init _ :=
    .tail (.tail hfunded (a := sampleInitiate 0 0 0 1) (fun _ hc _ => by cases hc; decide) rfl)
      (a := .record (sampleId 0) sampleChallengeId ⟨[], true, 2⟩ 2) trivial rfl
  have hfailed : Run sampleStep (Keeps 0) init _ :=
    .tail (.tail hpassed (a := sampleInitiate 0 1 1 3) (fun _ hc _ => by cases hc; decide) rfl)
      (a := sampleSecond false) trivial rfl
  have hr : Run sampleStep (Keeps 0) init _ :=
    .tail hfailed (a := .settle (sampleId 0) 4 4) (fun _ hc => by cases hc; decide) rfl
  obtain ⟨-, haccounted⟩ := @locked_money _ _ _ _ (sampleId 0) 0 _ hr rfl rfl (.inl rfl)
  exact ⟨_, _, rfl, hr, rfl, rfl, rfl, haccounted⟩

/-- Nothing is accounted for after a termination and after a late challenge,
and a settlement that overflows releases a negative amount. -/
theorem money_unaccounted :
    (∃ (h : ContractHistory) (c : AvailabilityContract), Run sampleStep (fun _ _ => True) init h ∧
      h.store.find (sampleId 0) = some (0, c) ∧ c.fundedAmount = c.paymentAmount ∧
      c.state = .terminated ∧ c.fundedAmount = 10 ∧ c.settlement.releasedAmount = 0 ∧
      c.settlement.withheldAmount = 0 ∧ ¬ Accounted c) ∧
    (∃ (h : ContractHistory) (c : AvailabilityContract), Run sampleStep (fun _ _ => True) init h ∧
      h.store.find (sampleId 0) = some (0, c) ∧ c.fundedAmount = c.paymentAmount ∧
      c.state = .expired ∧ c.settlement.finalizedAt = none ∧ ¬ Accounted c) ∧
    ∃ (h : ContractHistory) (c : AvailabilityContract), Run sampleStep (fun _ _ => True) init h ∧
      h.store.find (sampleId 0) = some (0, c) ∧ c.fundedAmount = c.paymentAmount ∧
      c.state = .completed ∧ c.settlement.releasedAmount < 0 ∧ ¬ Accounted c := by
  refine ⟨?_, ?_, ?_⟩
  · exact ⟨_, _, .of_execute (samplePassed ++ [.terminate (sampleId 0) 3]) rfl, rfl, rfl, rfl, rfl,
      rfl, rfl, fun ha => absurd ha.total (by decide)⟩
  · exact ⟨_, _, .of_execute (samplePassed ++ [sampleInitiate 0 1 1 5]) rfl, rfl, rfl, rfl, rfl,
      fun ha => ha.finalized rfl⟩
  · exact ⟨_, _, .of_execute (sampleSettled 4611686018427387904 true) rfl, rfl, rfl, rfl,
      by decide, fun ha => absurd ha.released (by decide)⟩

end ContractHistory

end Cipher.Availability
