import Cipher.RoundLifecycle
import Cipher.Payouts

/-!
# Rounds under dispute

What an open dispute holds back, what ends a round, and what ends a
dispute. A disputed round is not settled, but `markRoundPartial` and
`claimFallbackTicket` never ask the resolver, so its tickets are paid in
fallback mode. Voiding is reserved for the dispute resolver only once
there is one. And an open dispute is answered with any chunk at all, for
the provider names the Merkle root as well.
-/

namespace Cipher.Settlement

open Bytes Evm Raffle Function

/-! ## Payouts under dispute -/

/-- No payout was made for a round while a dispute about it was open. -/
def Undisputed (d : Deployment) (S : Finset Slot) (payouts : List Payout) : Prop :=
  ∀ p ∈ payouts, ∀ x ∈ S, x.round = ticketRound p.ticket →
    (p.disputes (disputeKey d x)).status ≠ .opened

/-- While a round is disputed it is open or void. Before the resolver is
installed no round is open. -/
structure Guarded (d : Deployment) (S : Finset Slot) (owner : Address) (k : Core) : Prop where
  owner_eq : k.owner = owner
  resolver : k.disputeResolver = 0 ∨ k.disputeResolver = d.resolver
  early : k.disputeResolver ≠ d.resolver →
    ∀ key, (k.rounds key).status = .uncommitted ∨ (k.rounds key).status = .voided
  counted : Counted d S k
  disputed : ∀ x ∈ S, (k.disputes (disputeKey d x)).status = .opened →
    (k.rounds (roundKey d x.round)).status = .opened
      ∨ (k.rounds (roundKey d x.round)).status = .voided
  undisputed : Undisputed d S k.payouts

/-- A round is not marked as partial while it is disputed. -/
def MarksUndisputed (d : Deployment) (S : Finset Slot) (tx : Tx) (p : Point World Tx) : Prop :=
  ∀ id, tx.call.marked tx.msg.sender = some id → ∀ x ∈ S, roundKey d x.round = roundKey d id →
    getDisputeStatus d x p.state.resolver ≠ .opened

instance (d : Deployment) (S : Finset Slot) (tx : Tx) (p : Point World Tx) :
    Decidable (MarksUndisputed d S tx p) :=
  inferInstanceAs (Decidable (∀ id ∈ tx.call.marked tx.msg.sender, ∀ x ∈ S, _ → _))

section Guarded

variable {d : Deployment} {S : Finset Slot} {owner : Address} {k : Core}

/-- **Every act keeps disputed rounds guarded**, as long as none of them is
marked as partial. -/
theorem Act.guarded (hd : d.resolver ≠ 0) (hS : NoCollision d S)
    (hadm : Admitted d S owner tx p) (hmarks : MarksUndisputed d S tx p)
    (hact : Act d tx p.state.core k k') (h : Guarded d S owner k) : Guarded d S owner k' := by
  have hbefore : Wired d S owner (fun status => status = .uncommitted ∨ status = .voided)
      (fun status => status = .opened ∨ status = .voided) k :=
    ⟨h.owner_eq, h.resolver, h.early, h.counted, h.disputed⟩
  have hwired := hact.wired hd hS hadm (by simp) (.inl rfl) (.inr rfl)
    (fun id hcall x hx hkey hdisputed => absurd hdisputed (hmarks id hcall x hx hkey))
    (.inl (.inr rfl)) hbefore
  have hundisputed : Undisputed d S k'.payouts := by
    cases hact with
    | settle _ hopen hpending =>
      have hinstalled := hbefore.installed fun hs => by
        rcases hs with hs | hs <;> cases hopen.symm.trans hs
      exact List.forall_mem_cons.mpr
        ⟨fun x hx => hbefore.quiet hd hinstalled hpending hx, h.undisputed⟩
    | claim _ hfallback =>
      refine List.forall_mem_cons.mpr ⟨fun x hx hround hdisputed => ?_, h.undisputed⟩
      have hstatus := h.disputed x hx hdisputed
      rw [hround, hfallback] at hstatus
      rcases hstatus with hs | hs <;> cases hs
    | _ => exact h.undisputed
  exact ⟨hwired.owner_eq, hwired.resolver, hwired.early, hwired.counted, hwired.disputed,
    hundisputed⟩

end Guarded

/-- **No payout under dispute**, in every configuration of a run in which no
round is marked as partial while it is disputed. The resolver is installed
before the first commit and never replaced. -/
theorem no_payout_under_dispute (d : Deployment) (hd : d.resolver ≠ 0) (S : Finset Slot)
    (hS : NoCollision d S) (owner : Address) (c : Config World Error Tx)
    (hr : Run (exec d) (fun tx p => Admitted d S owner tx p ∧ MarksUndisputed d S tx p)
      (start owner) c) :
    Undisputed d S c.now.state.engine.payouts := by
  have hguarded : Guarded d S owner c.now.state.core := by
    refine Run.always (P := fun p => Guarded d S owner p.state.core) ?_ hr rfl ?_
    · rintro p tx ⟨hadm, hmarks⟩ h
      exact exec_keeps (fun hact => hact.guarded hd hS hadm hmarks) _ h
    · refine ⟨rfl, .inl rfl, fun _ _ => .inl rfl, init_counted d S owner, ?_, ?_⟩
      · intro x hx hopen
        cases hopen
      · intro p hp
        cases hp
  exact hguarded.undisputed

/-- The first chunk of round 3, and the one that the round draws. -/
def drawnSlots : Finset Slot := {⟨⟨1, 2, 3⟩, 0⟩, ⟨⟨1, 2, 3⟩, 3⟩}

/-- A dispute is answered before the round is settled. -/
def answeredDispute : List Tx :=
  [sampleTx 9 80 (.setDisputeResolver 0x4e5)] ++ funding ++
  [sampleTx 2 100 (.commitRoundSecret 1 3 10 5 77), sampleTx 1 110 (.raiseChunkDispute 2 3 0 88),
    sampleTx 2 111 (.respondToDispute 1 3 0 [7] [] 7),
    sampleTx 2 120 (.settleRound drawnTicket sampleSig 77)]

set_option maxRecDepth 8192

theorem no_payout_under_dispute_answered : ∃ c, Run (exec drawSample)
        (fun tx p => Admitted drawSample drawnSlots 9 tx p
          ∧ MarksUndisputed drawSample drawnSlots tx p) (start 9) c
      ∧ c.now.past.map (·.1.call) = (answeredDispute.map (·.call)).reverse
      ∧ c.now.state.engine.payouts.map (fun p => (p.mode, p.ticket)) = [(.normal, drawnTicket)]
      ∧ Undisputed drawSample drawnSlots c.now.state.engine.payouts := by
  have hrun : Run (exec drawSample) (fun tx p => Admitted drawSample drawnSlots 9 tx p ∧
      MarksUndisputed drawSample drawnSlots tx p) (start 9) _ :=
    .of_accepted answeredDispute rfl
  have hS : NoCollision drawSample drawnSlots := ⟨by decide, by decide⟩
  exact ⟨_, hrun, rfl, rfl, no_payout_under_dispute _ (by decide) _ hS 9 _ hrun⟩

/-- A dispute is raised, and then the client announces their leaving. -/
def unansweredDispute : List Tx :=
  [sampleTx 9 80 (.setDisputeResolver 0x4e5)] ++ funding ++
  [sampleTx 2 101 (.commitRoundSecret 1 4 10 5 77), sampleTx 1 110 (.raiseChunkDispute 2 4 0 88),
    sampleTx 1 121 (.channel (.initiateChannelUnlock 2)), sampleTx 2 122 (.markRoundPartial 1 4),
    sampleTx 2 123 (.claimFallbackTicket oddsTicket sampleSig 77)]

/-- The provider marks the disputed round as partial and is paid for the
very ticket that is disputed. -/
theorem payout_under_dispute :
    ∃ c, Run (exec drawSample) (Admitted drawSample {ticketSlot oddsTicket} 9) (start 9) c
      ∧ c.now.past.map (·.1.call) = (unansweredDispute.map (·.call)).reverse
      ∧ isDisputePending drawSample ⟨1, 2, 4⟩ c.now.state.resolver = true
      ∧ (c.now.state.channel.channels (getChannelKey drawSample 1 2)).settledAmount = 5
      ∧ ¬Undisputed drawSample {ticketSlot oddsTicket} c.now.state.engine.payouts := by
  refine ⟨_, .of_accepted unansweredDispute rfl, rfl, rfl, rfl, fun hquiet => ?_⟩
  exact hquiet _ (List.mem_cons_self ..) _ (Finset.mem_singleton_self _) rfl rfl

/-! ## Voiding -/

/-- The round that a call wants to void. -/
def Call.voided : Call → Option RoundId
  | .voidRound sender recipient roundId _ => some ⟨sender, recipient, roundId⟩
  | .resolveExpiredDispute sender recipient roundId _ => some ⟨sender, recipient, roundId⟩
  | _ => none

/-- Who calls the engine: the resolver does so for an expired dispute. -/
def caller (d : Deployment) (tx : Tx) : Address :=
  match tx.call with
  | .resolveExpiredDispute .. => d.resolver
  | _ => tx.msg.sender

/-- A round is voided only by the configured dispute resolver, and only
after its commit. -/
def VoidsByResolver (d : Deployment) (tx : Tx) (w w' : World) : Prop :=
  ∀ key, (w.engine.rounds key).status ≠ .voided → (w'.engine.rounds key).status = .voided →
    w.engine.disputeResolver ≠ 0 ∧ caller d tx = w.engine.disputeResolver
      ∧ (∃ id, tx.call.voided = some id ∧ roundKey d id = key)
      ∧ (w.engine.rounds key).status ≠ .uncommitted

/-- There is a resolver when a round is voided, and the round of a direct
call of `voidRound` by the resolver has been committed. -/
structure VoidsWired (d : Deployment) (tx : Tx) (p : Point World Tx) : Prop where
  wired : tx.call.voided ≠ none → p.state.engine.disputeResolver ≠ 0
  committed : ∀ sender recipient roundId reason,
    tx.call = .voidRound sender recipient roundId reason →
    caller d tx = p.state.engine.disputeResolver →
    (p.state.engine.rounds (roundKey d ⟨sender, recipient, roundId⟩)).status ≠ .uncommitted

/-- Disputed rounds have been committed. -/
def DisputedCommitted (d : Deployment) (S : Finset Slot) (k : Core) : Prop :=
  ∀ x ∈ S, (k.disputes (disputeKey d x)).status = .opened →
    (k.rounds (roundKey d x.round)).status ≠ .uncommitted

section Voiding

variable {d : Deployment} {S : Finset Slot} {tx : Tx} {k₀ : Core}

lemma Act.disputedCommitted (hS : ApartKeys d S)
    (hdisputed : ∀ slot, tx.call.disputed tx.msg.sender = some slot → slot ∈ S)
    (hact : Act d tx k₀ k k') (h : DisputedCommitted d S k) : DisputedCommitted d S k' := by
  -- Either the dispute was open before, or it has just been raised.
  have hopened : ∀ x ∈ S, (k'.disputes (disputeKey d x)).status = .opened →
      (k.rounds (roundKey d x.round)).status ≠ .uncommitted := by
    intro x hx hopen
    cases hact with
    | @raise slot dispute hcall hnone hround _ =>
      rcases opened_setDispute hS hx (hdisputed slot hcall) hopen with ⟨rfl, -⟩ | hopen
      · rw [hround]
        decide
      · exact h x hx hopen
    | @respond slot hcall _ =>
      rcases opened_setDispute hS hx (hdisputed slot hcall) hopen with ⟨-, hstatus⟩ | hopen
      · cases hstatus
      · exact h x hx hopen
    | @expire slot hcall _ _ =>
      have hslot : slot ∈ S := hdisputed slot (by rw [hcall]; rfl)
      rcases opened_setDispute hS hx hslot hopen with ⟨-, hstatus⟩ | hopen
      · cases hstatus
      · exact h x hx hopen
    | _ => exact h x hx hopen
  exact fun x hx hopen => (hact.committed (hopened x hx hopen)).1

lemma run_disputedCommitted (hS : ApartKeys d S)
    (hr : Run (exec d) (fun tx p => DisputesIn S tx p ∧ VoidsWired d tx p) (start owner) c) :
    DisputedCommitted d S c.now.state.core := by
  refine Run.always (P := fun p => DisputedCommitted d S p.state.core) ?_ hr rfl ?_
  · rintro p tx ⟨hin, -⟩ h
    exact exec_keeps (fun hact => hact.disputedCommitted hS hin) _ h
  · intro x hx hopen
    cases hopen

/-- A transaction that voids the round at `key`, made at `k₀`: a direct call,
or the end of an open dispute. -/
structure Voids (d : Deployment) (tx : Tx) (k₀ : Core) (key : Bytes32) : Prop where
  authorized : k₀.disputeResolver ≠ 0 → caller d tx = k₀.disputeResolver
  voided : ∃ id, tx.call.voided = some id ∧ roundKey d id = key
  cause : (∃ sender recipient roundId reason,
      tx.call = .voidRound sender recipient roundId reason
        ∧ roundKey d ⟨sender, recipient, roundId⟩ = key)
    ∨ ∃ slot : Slot, tx.call.disputed tx.msg.sender = some slot ∧ roundKey d slot.round = key
        ∧ (k₀.disputes (disputeKey d slot)).status = .opened

lemma Act.voids (hact : Act d tx k₀ k k')
    (h : (k.rounds key).status ≠ .voided) (h' : (k'.rounds key).status = .voided) :
    k = k₀ ∧ Voids d tx k₀ key := by
  have hkey : ∀ {key' : Bytes32} {round : Round},
      (update k.rounds key' round key).status = .voided →
      key' = key ∧ round.status = .voided := by
    intro key' round hvoided
    by_cases heq : key = key'
    · subst heq
      rw [update_self] at hvoided
      exact ⟨rfl, hvoided⟩
    · rw [update_of_ne heq] at hvoided
      exact absurd hvoided h
  cases hact with
  | @void id reason hcall hauth =>
    obtain ⟨heq, -⟩ := hkey h'
    refine ⟨rfl, ?_, ⟨id, by rw [hcall]; rfl, heq⟩, .inl ⟨_, _, _, reason, hcall, heq⟩⟩
    rw [caller, hcall]
    exact hauth
  | @expire slot hcall hopen hauth =>
    obtain ⟨heq, -⟩ := hkey h'
    refine ⟨rfl, ?_, ⟨slot.round, by rw [hcall]; rfl, heq⟩, .inr ⟨slot, ?_, heq, hopen⟩⟩
    · rw [caller, hcall]
      exact hauth
    · rw [hcall]
      rfl
  | commit | settle | mark =>
    obtain ⟨-, hstatus⟩ := hkey h'
    cases hstatus
  | install | claim | raise | respond | channel => exact absurd h' h

/-- A call that voids a round does nothing else, and at once. -/
lemma Act.starts (hact : Act d tx k₀ k k') {id : RoundId} (hvoided : tx.call.voided = some id) :
    k = k₀ := by
  cases hact with
  | settle hmem =>
    generalize tx.call = call at hmem hvoided
    cases call <;> cases hvoided <;> cases hmem
  | claim hcall =>
    generalize tx.call = call at hcall hvoided
    cases call <;> cases hvoided <;> cases hcall
  | channel hcall =>
    rw [hcall] at hvoided
    cases hvoided
  | _ => rfl

lemma Acts.voids (hacts : Relation.ReflTransGen (Act d tx k₀) k k')
    (h : (k.rounds key).status ≠ .voided) (h' : (k'.rounds key).status = .voided) :
    k = k₀ ∧ Voids d tx k₀ key := by
  induction hacts using Relation.ReflTransGen.head_induction_on with
  | refl => exact absurd h' h
  | @head k k₁ hact _ ih =>
    by_cases hmid : (k₁.rounds key).status = .voided
    · exact hact.voids h hmid
    · obtain ⟨-, hvoids⟩ := ih hmid
      obtain ⟨id, hvoided, -⟩ := hvoids.voided
      exact ⟨hact.starts hvoided, hvoids⟩

end Voiding

/-- **Only a lost dispute voids a round**, in every run in which nothing is
voided before a dispute resolver is set, and the resolver itself voids
committed rounds only: whatever a further such call does between two
hand-overs of control. -/
theorem voided_by_resolver (d : Deployment) (S : Finset Slot) (hS : ApartKeys d S)
    (owner : Address) (c : Config World Error Tx)
    (hr : Run (exec d) (fun tx p => DisputesIn S tx p ∧ VoidsWired d tx p) (start owner) c)
    (tx : Tx) (hin : DisputesIn S tx c.now) (hwired : VoidsWired d tx c.now) :
    (exec d tx c.now.state).Own (VoidsByResolver d tx) c.now.state := by
  have hcommitted := run_disputedCommitted hS hr
  refine (exec_own ..).mono fun w w' hacts key h h' => ?_
  obtain ⟨hcore, hvoids⟩ := Acts.voids hacts h h'
  obtain ⟨id, hvoided, hkey⟩ := hvoids.voided
  have hset := hwired.wired (by rw [hvoided]; exact Option.some_ne_none id)
  -- The call starts from the state it was made in.
  have hresolver : w.engine.disputeResolver = c.now.state.engine.disputeResolver :=
    congrArg Core.disputeResolver hcore
  have hrounds : w.engine.rounds = c.now.state.engine.rounds := congrArg Core.rounds hcore
  rw [hresolver, hrounds]
  refine ⟨hset, hvoids.authorized hset, ⟨id, hvoided, hkey⟩, ?_⟩
  rcases hvoids.cause with ⟨sender, recipient, roundId, reason, hcall, rfl⟩
    | ⟨slot, hslot, rfl, hopen⟩
  · exact hwired.committed sender _ roundId reason hcall (hvoids.authorized hset)
  · exact hcommitted slot (hin slot hslot) hopen

/-- The end of a dispute that the provider has not answered. -/
theorem voided_by_resolver_lost : ∃ c, Run (exec sample)
        (fun tx p => DisputesIn {sampleSlot} tx p ∧ VoidsWired sample tx p) (start 9) c
      ∧ c.now.past.map (·.1.call) = ((wiring ++ lostDispute.take 3).map (·.call)).reverse
      ∧ ∃ w', exec sample (sampleTx 5 3702 (.resolveExpiredDispute 1 2 3 0)) c.now.state = .done w'
        ∧ (w'.engine.rounds (roundKey sample ⟨1, 2, 3⟩)).status = .voided
        ∧ VoidsByResolver sample (sampleTx 5 3702 (.resolveExpiredDispute 1 2 3 0))
          c.now.state w' := by
  have hin : ∀ tx ∈ wiring ++ lostDispute.take 3, ∀ x ∈ tx.call.disputed tx.msg.sender,
      x ∈ ({sampleSlot} : Finset Slot) := by decide
  have hnone : ∀ tx ∈ wiring ++ lostDispute.take 3, tx.call.voided = none := by decide
  have hadm : ∀ tx ∈ wiring ++ lostDispute.take 3, ∀ p,
      DisputesIn {sampleSlot} tx p ∧ VoidsWired sample tx p := by
    intro tx htx p
    refine ⟨hin tx htx, fun h => absurd (hnone tx htx) h, ?_⟩
    intro sender recipient roundId reason hcall
    have hvoided := hnone tx htx
    rw [hcall] at hvoided
    cases hvoided
  have hcalls : Calls (exec sample) (fun _ _ => True) ⟨World.init 9, []⟩
      (wiring ++ lostDispute.take 3) _ :=
    calls_of_accepted rfl
  have hrun := (hcalls.restrict hadm).run []
  refine ⟨_, hrun, rfl, _, rfl, rfl, ?_⟩
  exact voided_by_resolver sample {sampleSlot} sample_noCollision.slots 9 _ hrun
    (sampleTx 5 3702 (.resolveExpiredDispute 1 2 3 0)) (by decide)
    ⟨fun _ => by decide, fun _ _ _ _ hcall => by cases hcall⟩

/-- No resolver is set, and account 5 voids a round that is open. -/
theorem voided_by_stranger : ∃ c, Run (exec sample) (fun _ _ => True) (start 9) c
      ∧ (c.now.state.engine.rounds (roundKey sample ⟨1, 2, 3⟩)).status = .opened
      ∧ c.now.state.engine.disputeResolver = 0
      ∧ ∃ w', exec sample (sampleTx 5 101 (.voidRound 1 2 3 0)) c.now.state = .done w'
        ∧ (w'.engine.rounds (roundKey sample ⟨1, 2, 3⟩)).status = .voided
        ∧ ¬VoidsByResolver sample (sampleTx 5 101 (.voidRound 1 2 3 0)) c.now.state w' := by
  refine ⟨_, .of_accepted [sampleTx 2 100 (.commitRoundSecret 1 3 10 5 77)] rfl, rfl, rfl, _, rfl,
    rfl, fun hby => ?_⟩
  obtain ⟨hset, -⟩ := hby (roundKey sample ⟨1, 2, 3⟩) (by decide) rfl
  exact hset rfl

/-! ## Answers -/

/-- The root that a chunk and a Merkle proof lead to. -/
def provenRoot (e : Entropy) (chunk : List UInt8) (localIndex : Nat) (proof : List Bytes32) :
    Bytes32 :=
  proof.foldl (RaffleMath.merkleStep e)
    (e.keccak256 (word (e.keccak256 (word localIndex ++ chunk)).toNat))

lemma verifyMerkleProof_eq_true : RaffleMath.verifyMerkleProof e chunk localIndex proof root = true
      ↔ provenRoot e chunk localIndex proof = root :=
  decide_eq_true_iff

/-- The call that answers the dispute at `slot`. -/
def answer (slot : Slot) (chunk : List UInt8) (proof : List Bytes32) (root : Bytes32) : Call :=
  .respondToDispute slot.round.sender slot.round.roundId slot.localIndex chunk proof root

/-- Any chunk with any proof is accepted together with the root they lead
to. -/
lemma answer_accepted {slot : Slot}
    (hrange : slot.round.roundId < 2 ^ 256 ∧ slot.localIndex < 2 ^ 256) {m : Msg}
    (hsender : m.sender = slot.round.recipient) (hvalue : m.value = 0) {w : World}
    (hopen : getDisputeStatus d slot w.resolver = .opened)
    (hintime : m.number ≤ (w.resolver.disputes (disputeKey d slot)).deadlineBlock)
    (answers : Answers) (chunk : List UInt8) (proof : List Bytes32) :
    ∃ w', exec d ⟨m, answer slot chunk proof (provenRoot d.entropy chunk slot.localIndex proof),
        answers⟩ w = .done w' ∧ getDisputeStatus d slot w'.resolver = .resolvedHonest := by
  obtain ⟨⟨sender, recipient, roundId⟩, localIndex⟩ := slot
  obtain rfl : m.sender = recipient := hsender
  have hverify := verifyMerkleProof_eq_true.mpr
    (rfl : provenRoot d.entropy chunk localIndex proof = _)
  have hin : (answer ⟨⟨sender, m.sender, roundId⟩, localIndex⟩ chunk proof
      (provenRoot d.entropy chunk localIndex proof)).inRange = true := by
    simpa [answer, Call.inRange] using hrange
  unfold getDisputeStatus at hopen
  unfold exec
  rw [if_neg (by simp [hin, hvalue])]
  simp only [answer, dispatch, respondToDispute]
  rw [if_neg (not_not.mpr hopen), if_neg (not_lt.mpr hintime), hverify]
  refine ⟨_, rfl, ?_⟩
  unfold Resolver.release
  split <;>
    simp [getDisputeStatus, Resolver.emit, Resolver.setPending, Resolver.setDispute]

/-- **An answer is bound to nothing.** As long as a dispute can be answered
at all, every chunk and every proof are accepted with the root they lead
to. Hence there is no root that all accepted answers verify against, if
only two chunks differ in their leaves. -/
theorem dispute_answer_unbound (d : Deployment) (slot : Slot)
    (hrange : slot.round.roundId < 2 ^ 256 ∧ slot.localIndex < 2 ^ 256)
    (hleaves : ∃ chunk₁ chunk₂, provenRoot d.entropy chunk₁ slot.localIndex []
      ≠ provenRoot d.entropy chunk₂ slot.localIndex [])
    (m : Msg) (hsender : m.sender = slot.round.recipient) (hvalue : m.value = 0) (w : World)
    (hopen : getDisputeStatus d slot w.resolver = .opened)
    (hintime : m.number ≤ (w.resolver.disputes (disputeKey d slot)).deadlineBlock)
    (answers : Answers) :
    (∀ chunk proof, ∃ root w', exec d ⟨m, answer slot chunk proof root, answers⟩ w = .done w'
      ∧ getDisputeStatus d slot w'.resolver = .resolvedHonest)
      ∧ ¬∃ fixedRoot, ∀ chunk proof root w',
        exec d ⟨m, answer slot chunk proof root, answers⟩ w = .done w' →
        RaffleMath.verifyMerkleProof d.entropy chunk slot.localIndex proof fixedRoot = true := by
  have haccepted := answer_accepted hrange hsender hvalue hopen hintime answers
  refine ⟨fun chunk proof => ⟨_, haccepted chunk proof⟩, ?_⟩
  rintro ⟨fixedRoot, hbound⟩
  obtain ⟨chunk₁, chunk₂, hne⟩ := hleaves
  have hroot : ∀ chunk, provenRoot d.entropy chunk slot.localIndex [] = fixedRoot := by
    intro chunk
    obtain ⟨w', hdone, -⟩ := haccepted chunk []
    exact verifyMerkleProof_eq_true.mp (hbound _ _ _ w' hdone)
  exact hne ((hroot chunk₁).trans (hroot chunk₂).symm)

/-- Round 3 is committed and its first chunk disputed. -/
def raisedDispute : List Tx := wiring ++ lostDispute.take 2

theorem dispute_answer_unbound_raised : ∃ c, Run (exec sample) (fun _ _ => True) (start 9) c
      ∧ c.now.past.map (·.1.call) = (raisedDispute.map (·.call)).reverse
      ∧ ¬∃ fixedRoot, ∀ chunk proof root w',
        exec sample (sampleTx 2 120 (answer sampleSlot chunk proof root)) c.now.state = .done w' →
        RaffleMath.verifyMerkleProof sample.entropy chunk 0 proof fixedRoot = true := by
  refine ⟨_, .of_accepted raisedDispute rfl, rfl,
    And.right (dispute_answer_unbound sample _ (by decide)
    ⟨[7], [8], by decide⟩ _ rfl rfl _ ?_ ?_ fun _ _ => none)⟩
  · rfl
  · decide

/-- The provider answers the same dispute with either of two chunks, which
verify against no common root. -/
theorem dispute_answered_twice : ∃ c, Run (exec sample) (fun _ _ => True) (start 9) c
      ∧ c.now.past.map (·.1.call) = (raisedDispute.map (·.call)).reverse
      ∧ (∃ w₇, exec sample (sampleTx 2 120 (answer sampleSlot [7] [] 7)) c.now.state = .done w₇
        ∧ getDisputeStatus sample sampleSlot w₇.resolver = .resolvedHonest)
      ∧ (∃ w₈, exec sample (sampleTx 2 120 (answer sampleSlot [8] [] 8)) c.now.state = .done w₈
        ∧ getDisputeStatus sample sampleSlot w₈.resolver = .resolvedHonest)
      ∧ ¬∃ root, RaffleMath.verifyMerkleProof sample.entropy [7] 0 [] root = true
        ∧ RaffleMath.verifyMerkleProof sample.entropy [8] 0 [] root = true := by
  refine ⟨_, .of_accepted raisedDispute rfl, rfl, ⟨_, rfl, rfl⟩, ⟨_, rfl, rfl⟩, ?_⟩
  rintro ⟨root, h₇, h₈⟩
  have hsame := (verifyMerkleProof_eq_true.mp h₇).trans (verifyMerkleProof_eq_true.mp h₈).symm
  exact absurd hsame (by decide)

end Cipher.Settlement
