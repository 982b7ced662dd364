import Cipher.ContractRuns
import Mathlib.Data.List.Chain

/-!
# The states of a contract

The table `CanTransition` against the states that are assigned. All calls ask
the table, or pass a state from which it would allow what they do, with one
exception: `InitiateAvailabilityChallenge` sets a contract that is past its
end to expired, also when it has been agreed and never was active.
-/

namespace Cipher.Availability

open Bytes Binary Go Content Transition List

/-- The states assigned in a call, from the state before it. -/
structure Assigned (c c' : AvailabilityContract) (written : List ContractState) : Prop where
  visited : c'.visited = c.visited ++ written
  state : (c.state :: written).getLast (List.cons_ne_nil _ _) = c'.state

/-- Each state follows from the one before by the table. -/
def Allowed (source : ContractState) (written : List ContractState) : Prop :=
  (source :: written).IsChain fun a b => a.canTransition b = true

lemma ContractState.canTransition_of_terminal {source target : ContractState}
    (h : source.isTerminal = true) : source.canTransition target = false :=
  if_pos (by rw [h, Bool.or_true])

lemma Allowed.not_terminal
    (h : Allowed source written) (hwritten : written ≠ []) : source.isTerminal = false := by
  cases written with
  | nil => exact absurd rfl hwritten
  | cons next rest =>
    have hfirst : source.canTransition next = true := (isChain_cons_cons.mp h).1
    cases hterminal : source.isTerminal with
    | false => rfl
    | true =>
      rw [ContractState.canTransition_of_terminal hterminal] at hfirst
      cases hfirst

/-- The states that the touch of a record assigns to it. -/
lemma AvailabilityContract.Touch.assigned (htouch : Touch contractId c call c') :
    ∃ written, Assigned c c' written ∧ (Allowed c.state written ∨
      c.state = .agreed ∧ written = [.expired] ∧ ∃ randomId randomNonce now issuedAt,
        call = .initiate contractId randomId randomNonce now issuedAt ∧ c.endsAt ≤ now) := by
  cases htouch with
  | fund hstate =>
    refine ⟨[.agreed], ⟨rfl, rfl⟩, .inl ?_⟩
    rw [hstate]
    exact .cons_cons rfl (.singleton _)
  | expire hchallengeable hends =>
    refine ⟨[.expired], ⟨rfl, rfl⟩, ?_⟩
    rcases hchallengeable.state with hstate | hstate
    · exact .inr ⟨hstate, rfl, _, _, _, _, rfl, hends⟩
    · rw [hstate]
      exact .inl (.cons_cons rfl (.singleton _))
  | challenge hchallengeable challengeId =>
    rcases hchallengeable.state with hstate | hstate
    · refine ⟨[.transferring, .ready, .active], ?_, .inl ?_⟩
      · rw [activated, if_pos hstate]
        exact ⟨rfl, rfl⟩
      · rw [hstate]
        exact .cons_cons rfl (.cons_cons rfl (.cons_cons rfl (.singleton _)))
    · refine ⟨[], ?_, .inl (.singleton _)⟩
      rw [activated, if_neg fun hagreed => by cases hstate.symm.trans hagreed]
      exact ⟨(append_nil _).symm, rfl⟩
  | record => exact ⟨[], ⟨(append_nil _).symm, rfl⟩, .inl (.singleton _)⟩
  | settleFailed => exact ⟨[], ⟨(append_nil _).symm, rfl⟩, .inl (.singleton _)⟩
  | settle hstate _ _ hnext _ =>
    refine ⟨[_], ⟨rfl, rfl⟩, .inl ?_⟩
    rw [hstate]
    rcases hnext with rfl | rfl
    · exact .cons_cons rfl (.singleton _)
    · exact .cons_cons rfl (.singleton _)
  | terminate hstate =>
    exact ⟨[.terminated], ⟨rfl, rfl⟩, .inl (.cons_cons hstate (.singleton _))⟩

/-- From an agreed contract to an expired one there is a way by the table, but
not the direct one. -/
lemma ContractState.allowed_agreed_expired :
    Allowed .agreed [.transferring, .ready, .active, .expired] :=
  .cons_cons rfl (.cons_cons rfl (.cons_cons rfl (.cons_cons rfl (.singleton _))))

namespace ContractHistory

variable {sha256 : List UInt8 → Hash} {spare : Nat → Nat → Nat} {ed : Ed25519}
  {h h' : ContractHistory} {call : ContractCall}

/-- No challenge is asked for when a contract that was agreed has come to its
end without one. -/
def InTime : ContractCall → ContractHistory → Prop
  | .initiate contractId _ _ now _, h => ∀ p c, h.store.find contractId = some (p, c) →
    c.state = .agreed → now < c.endsAt
  | _, _ => True

variable {p : Nat} {c : AvailabilityContract}

/-- The change of a contract's state by a call. -/
lemma Change.assigned (hchange : Change sha256 spare h call h')
    (hp : h.store.objects[p]? = some c) :
    ∃ c' written, h'.store.objects[p]? = some c' ∧ Assigned c c' written ∧
      (Allowed c.state written ∨ c.state = .agreed ∧ written = [.expired] ∧ ¬ InTime call h) := by
  obtain ⟨c', hp', rfl | ⟨contractId, hfind, htouch⟩⟩ := hchange.next_object hp
  · exact ⟨c', [], hp', ⟨(append_nil _).symm, rfl⟩, .inl (.singleton _)⟩
  obtain ⟨written, hassigned, hcase⟩ := htouch.assigned
  refine ⟨c', written, hp', hassigned, hcase.imp_right ?_⟩
  rintro ⟨hagreed, hwritten, randomId, randomNonce, now, issuedAt, rfl, hends⟩
  exact ⟨hagreed, hwritten, fun hin => Int.not_lt.mpr hends (hin p c hfind hagreed)⟩

/-- The states that a record has gone through. -/
structure Orderly (c : AvailabilityContract) : Prop where
  first : c.visited.head? = some .proposed
  last : c.visited.getLast? = some c.state
  chain : c.visited.IsChain fun a b => a.canTransition b = true

lemma Orderly.assigned (horderly : Orderly c) (hassigned : Assigned c c' written)
    (hallowed : Allowed c.state written) : Orderly c' := by
  obtain ⟨front, hfront⟩ : ∃ front, c.visited = front ++ [c.state] :=
    getLast?_eq_some_iff.mp horderly.last
  have hvisited : c'.visited = front ++ c.state :: written := by
    rw [hassigned.visited, hfront, append_assoc, singleton_append]
  refine ⟨?_, ?_, ?_⟩
  · rw [hassigned.visited, head?_append, horderly.first]
    rfl
  · rw [hvisited, getLast?_append_of_ne_nil _ (cons_ne_nil _ _),
      getLast?_eq_some_getLast (cons_ne_nil _ _), hassigned.state]
  · have hchain := horderly.chain
    rw [hfront] at hchain
    rw [hvisited]
    exact isChain_split.mpr ⟨hchain, hallowed⟩

lemma orderly_proposal (random : Block 16) (publisherId providerId fileId : Str)
    (totalChunks paymentAmount duration : Int64) (now : Int) :
    Orderly (proposal random publisherId providerId fileId totalChunks paymentAmount duration
      now) :=
  ⟨rfl, rfl, .singleton _⟩

/-- In a run in which no agreed contract comes to its end unchallenged. -/
lemma orderly_of_run (hr : Run (step sha256 spare ed) InTime init h)
    (hp : h.store.objects[p]? = some c) : Orderly c := by
  have hall : ∀ {p : Nat} {c : AvailabilityContract}, h.store.objects[p]? = some c → Orderly c := by
    refine Run.inv (I := fun h => ∀ {p : Nat} {c : AvailabilityContract},
      h.store.objects[p]? = some c → Orderly c) hr nofun ?_
    intro call h h' hin hstep ih p c' hp'
    have hchange := change_of_step hstep
    rcases hchange.objects hp' with ⟨c, hp, -⟩ | ⟨-, _, _, _, _, _, _, _, _, -, rfl⟩
    · obtain ⟨c₁, written, hp₁, hassigned, hallowed | ⟨-, -, hlate⟩⟩ := hchange.assigned hp
      · cases hp'.symm.trans hp₁
        exact (ih hp).assigned hassigned hallowed
      · exact absurd hin hlate
    · exact orderly_proposal ..
  exact hall hp

/-- A terminal state, in any run from there. -/
lemma terminal_kept (hr : Run (step sha256 spare ed) (fun _ _ => True) h h')
    (hp : h.store.objects[p]? = some c) (hterminal : c.state.isTerminal = true) :
    ∃ c', h'.store.objects[p]? = some c' ∧ c'.state = c.state ∧ c'.visited = c.visited := by
  refine Run.inv (I := fun h' => ∃ c', h'.store.objects[p]? = some c' ∧ c'.state = c.state ∧
    c'.visited = c.visited) hr ⟨c, hp, rfl, rfl⟩ ?_
  rintro call h₁ h₂ - hstep ⟨c₁, hp₁, hstate₁, hvisited₁⟩
  obtain ⟨c₂, written, hp₂, hassigned, hcase⟩ := (change_of_step hstep).assigned hp₁
  have hnil : written = [] := by
    rcases hcase with hallowed | ⟨hagreed, -⟩
    · by_contra hne
      have := hallowed.not_terminal hne
      rw [hstate₁, hterminal] at this
      cases this
    · rw [← hstate₁, hagreed] at hterminal
      cases hterminal
  subst hnil
  refine ⟨c₂, hp₂, ?_, ?_⟩
  · rw [← hassigned.state, ← hstate₁]
    rfl
  · rw [hassigned.visited, append_nil, hvisited₁]

/-- Any change of state can be made by steps that the table allows, though it
need not have been made by them. -/
lemma Change.transGen (hchange : Change sha256 spare h call h')
    (hp : h.store.objects[p]? = some c) (hp' : h'.store.objects[p]? = some c')
    (hne : c'.state ≠ c.state) :
    Relation.TransGen (fun a b => a.canTransition b = true) c.state c'.state := by
  obtain ⟨c₁, written, hp₁, hassigned, hcase⟩ := hchange.assigned hp
  cases hp'.symm.trans hp₁
  have hreach : Relation.ReflTransGen (fun a b => a.canTransition b = true) c.state c'.state := by
    rcases hcase with hallowed | ⟨hagreed, rfl, -⟩
    · exact relationReflTransGen_of_exists_isChain_cons written hallowed hassigned.state
    · rw [hagreed, ← hassigned.state]
      exact relationReflTransGen_of_exists_isChain_cons _ ContractState.allowed_agreed_expired rfl
  rcases Relation.reflTransGen_iff_eq_or_transGen.mp hreach with heq | htrans
  · exact absurd heq hne
  · exact htrans

/-- As long as no challenge is asked for after the end of a contract that is
agreed, every call assigns states one by one as the table allows, and a
contract has come to its state that way. In all runs, a terminal state stays
and a new state is one that the table leads to. -/
theorem lifecycle_respected : (∀ h, Run (step sha256 spare ed) InTime init h →
      ∀ (p : Nat) (c : AvailabilityContract), h.store.objects[p]? = some c → Orderly c ∧
        ∀ call h', InTime call h → step sha256 spare ed call h = some h' →
          ∃ (c' : AvailabilityContract) (written : List ContractState),
            h'.store.objects[p]? = some c' ∧ Assigned c c' written ∧ Allowed c.state written) ∧
    ∀ h, Run (step sha256 spare ed) (fun _ _ => True) init h →
      ∀ (p : Nat) (c : AvailabilityContract), h.store.objects[p]? = some c →
        (c.state.isTerminal = true → ∀ h', Run (step sha256 spare ed) (fun _ _ => True) h h' →
          ∃ c' : AvailabilityContract, h'.store.objects[p]? = some c' ∧ c'.state = c.state ∧
            c'.visited = c.visited) ∧
        ∀ call h' (c' : AvailabilityContract), step sha256 spare ed call h = some h' →
          h'.store.objects[p]? = some c' → c'.state ≠ c.state →
            Relation.TransGen (fun a b => a.canTransition b = true) c.state c'.state := by
  constructor
  · intro h hr p c hp
    refine ⟨orderly_of_run hr hp, fun call h' hin hstep => ?_⟩
    obtain ⟨c', written, hp', hassigned, hallowed | ⟨-, -, hlate⟩⟩ :=
      (change_of_step hstep).assigned hp
    · exact ⟨c', written, hp', hassigned, hallowed⟩
    · exact absurd hin hlate
  · intro h hr p c hp
    exact ⟨fun hterminal h' hr' => terminal_kept hr' hp hterminal,
      fun call h' c' hstep hp' hne => (change_of_step hstep).transGen hp hp' hne⟩

/-- A contract that is challenged and then terminated. -/
theorem lifecycle_respected_sample : ∃ (h : ContractHistory) (c : AvailabilityContract),
    Run sampleStep InTime init h ∧ h.store.objects[0]? = some c ∧
      c.visited = [.proposed, .agreed, .transferring, .ready, .active, .terminated] ∧
      Orderly c ∧ ∀ h', Run sampleStep (fun _ _ => True) h h' →
        ∃ c', h'.store.objects[0]? = some c' ∧ c'.state = c.state ∧ c'.visited = c.visited := by
  have hr : Run sampleStep InTime init _ :=
    .tail (.tail (.tail (.tail .refl (a := sampleCreate 0) trivial rfl)
      (a := .fund (sampleId 0) 10) trivial rfl)
      (a := sampleInitiate 0 0 0 1) (fun p c hfind _ => by cases hfind; decide) rfl)
      (a := .terminate (sampleId 0) 2) trivial rfl
  have hr' : Run sampleStep (fun _ _ => True) init _ := .of_execute [sampleCreate 0,
    .fund (sampleId 0) 10, sampleInitiate 0 0 0 1, .terminate (sampleId 0) 2] rfl
  exact ⟨_, _, hr, rfl, rfl, (lifecycle_respected.1 _ hr 0 _ rfl).1,
    (lifecycle_respected.2 _ hr' 0 _ rfl).1 rfl⟩

/-- A contract that is agreed and past its end is expired at once. -/
theorem agreed_expires : ∃ (h h' : ContractHistory) (c c' : AvailabilityContract),
    Run sampleStep (fun _ _ => True) init h ∧
    sampleStep (sampleInitiate 0 0 0 5) h = some h' ∧
    h.store.objects[0]? = some c ∧ h'.store.objects[0]? = some c' ∧
    c.visited = [.proposed, .agreed] ∧ c'.visited = [.proposed, .agreed, .expired] ∧
    ContractState.canTransition .agreed .expired = false := by
  exact ⟨_, _, _, _, .of_execute [sampleCreate 0, .fund (sampleId 0) 10] rfl, rfl, rfl, rfl, rfl,
    rfl, rfl⟩

end ContractHistory

end Cipher.Availability
