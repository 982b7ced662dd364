import Cipher.RoundDraws
import Cipher.SettlementIdle

/-!
# One winner per round

The commit of a round fixes the block that its draw depends on, so a round
with its secret has one winner, whenever it is drawn, and the same one is
previewed and paid. What changes with time is only whether it can be drawn
at all: the hash of that block is known from the block after it on, and the
entropy contract stops 256 blocks after the commit, before the EVM forgets
the hash.
-/

namespace Cipher.Settlement

open Bytes Evm Raffle Function List

/-! ## Committed rounds -/

/-- Every commit had terms in range, which the round still has. -/
def Offered (k : Core) : Prop :=
  ∀ x ∈ k.writes, x.Commits → (0 < x.new.tau ∧ x.new.tau ≤ maxRoundSize ∧ x.new.faceValue ≠ 0)
    ∧ (k.rounds x.key).status ≠ .uncommitted ∧ (k.rounds x.key).terms = x.new.terms

/-- Only `commitRoundSecret` opens a round. -/
lemma Act.commits (hact : Act d tx k₀ k k') (hx : x ∈ k'.writes) (hcommits : x.Commits) :
    x ∈ k.writes ∨ ((0 < x.new.tau ∧ x.new.tau ≤ maxRoundSize ∧ x.new.faceValue ≠ 0)
      ∧ k'.rounds x.key = x.new) := by
  have hstatus : ∀ {k : Core} {key : Bytes32} {status : RoundStatus}, status ≠ .opened →
      x ∈ (k.setStatus key status).writes → x ∈ k.writes := by
    intro k key status hne hmem
    rcases mem_cons.mp hmem with rfl | hold
    · exact absurd hcommits.2 hne
    · exact hold
  cases hact with
  | commit hcall hparams hnew =>
    rcases mem_cons.mp hx with rfl | hold
    · exact .inr ⟨⟨Nat.pos_of_ne_zero hparams.1, hparams.2⟩, update_self ..⟩
    · exact .inl hold
  | settle => exact .inl (hstatus RoundStatus.noConfusion hx)
  | mark => exact .inl (hstatus RoundStatus.noConfusion hx)
  | void => exact .inl (hstatus RoundStatus.noConfusion hx)
  | @expire slot =>
    exact .inl (hstatus (k := k₀.close d slot .resolvedSlashed) RoundStatus.noConfusion hx)
  | install | claim | raise | respond | channel => exact .inl hx

lemma Act.offered (hact : Act d tx k₀ k k') (h : Offered k) : Offered k' := by
  intro x hx hcommits
  rcases hact.commits hx hcommits with hold | ⟨hparams, hround⟩
  · obtain ⟨hparams, hcommitted, hterms⟩ := h x hold hcommits
    obtain ⟨hcommitted', hterms'⟩ := hact.committed hcommitted
    exact ⟨hparams, hcommitted', hterms'.trans hterms⟩
  · rw [hround]
    refine ⟨hparams, ?_, rfl⟩
    rw [hcommits.2]
    exact RoundStatus.noConfusion

lemma run_offered (hr : Run (exec d) adm (start owner) c) : Offered c.now.state.core := by
  refine Run.always (P := fun p => Offered p.state.core) (fun p tx _ h => ?_) hr rfl ?_
  · exact exec_keeps (I := Offered) (fun hact => hact.offered) _ h
  · intro x hx
    cases hx

/-! ## The preview -/

/-- A round with the terms of a commit, in some state. -/
structure HasTerms (d : Deployment) (id : RoundId) (terms : Nat × Nat × Bytes32 × Nat)
    (w : World) : Prop where
  committed : (w.engine.rounds (roundKey d id)).status ≠ .uncommitted
  terms : (w.engine.rounds (roundKey d id)).terms = terms

section Winner

variable {d : Deployment} {id : RoundId} {tau faceValue commitBlock : Nat} {hash secret : Bytes32}
  {w : World}

lemma HasTerms.fields (h : HasTerms d id (tau, faceValue, hash, commitBlock) w) :
    (w.engine.rounds (roundKey d id)).tau = tau ∧
      (w.engine.rounds (roundKey d id)).faceValue = faceValue ∧
      (w.engine.rounds (roundKey d id)).recipientRandHash = hash ∧
      (w.engine.rounds (roundKey d id)).commitBlock = commitBlock := by
  obtain ⟨htau, hrest⟩ := Prod.mk.inj h.terms
  obtain ⟨hface, hrest⟩ := Prod.mk.inj hrest
  obtain ⟨hhash, hblock⟩ := Prod.mk.inj hrest
  exact ⟨htau, hface, hhash, hblock⟩

lemma previewWinnerIndex_eq (h : HasTerms d id (tau, faceValue, hash, commitBlock) w)
    (hsecret : verifySecretCommitment d.entropy secret hash = true) (m : Msg) :
    previewWinnerIndex d m id secret w =
      match computeWinnerIndex d.entropy m commitBlock secret id.roundId tau with
      | .error e => .error (.entropy e)
      | .ok i => .ok i := by
  obtain ⟨htau, -, hhash, hblock⟩ := h.fields
  rw [previewWinnerIndex, if_neg h.committed, hhash, hsecret, htau, hblock]
  rfl

/-! ## Settlements -/

/-- In some execution a ticket for the index is settled with the secret,
while its round has the terms. -/
def CanSettle (d : Deployment) (id : RoundId) (terms : Nat × Nat × Bytes32 × Nat)
    (secret : Bytes32) (i : Nat) : Prop :=
  ∃ owner c, Run (exec d) (fun _ _ => True) (start owner) c ∧ c.Idle ∧
    ∃ tx w ticket senderSig, (tx, w) ∈ c.now.past
      ∧ tx.call = .settleRound ticket senderSig secret ∧ ticketRound ticket = id
      ∧ ticket.localIndex = i ∧ (w.engine.rounds (roundKey d id)).terms = terms

/-- What a settlement needs apart from the right index at the right time. -/
structure Ready (d : Deployment) (tx : Tx) (ticket : RoundTicket) (senderSig : List UInt8)
    (secret : Bytes32) (w : World) : Prop where
  call : tx.call = .settleRound ticket senderSig secret
  value : tx.msg.value = 0
  inRange : ticketInRange ticket = true
  opened : (w.engine.rounds (roundKey d (ticketRound ticket))).status = .opened
  undisputed : disputePending d tx.answers (ticketRound ticket) w = some false
  price : ticket.faceValue = (w.engine.rounds (roundKey d (ticketRound ticket))).faceValue
  signed : recoverSigner d.entropy (roundTicketHash d.entropy ticket) senderSig
    = .ok ticket.sender
  unpaused : w.engine.paused = false ∧ w.channel.paused = false
  authorized : w.channel.authorizedPayoutEngine d.engine = true
  covered : ticket.faceValue ≤ PaymentChannel.held
    (w.channel.channels (getChannelKey d ticket.sender ticket.recipient))
  payee : ticket.recipient ≠ d.channel

/-- In an idle configuration the channel contract can pay what a channel
holds. -/
lemma Ready.payable (hr : Run (exec d) (Presents T) (start owner) c) (hidle : c.Idle)
    (hready : Ready d tx ticket senderSig secret c.now.state) :
    PaymentChannel.Payable d.channels { tx.msg with sender := d.engine, value := 0 }
      c.now.state.channel ticket.recipient ticket.faceValue
      (c.now.state.channel.channels (getChannelKey d ticket.sender ticket.recipient)) := by
  have hsolvent := run_solvent hr
  have hsound := hsolvent.sound (getChannelKey d ticket.sender ticket.recipient)
  have hbounded := hsolvent.bounded (getChannelKey d ticket.sender ticket.recipient)
  have hheld := PaymentChannel.held_le_total c.now.state.channel.channels
    (getChannelKey d ticket.sender ticket.recipient)
  have hfunded := hsolvent.funded
  have hcovered := hready.covered
  refine ⟨hready.authorized, (run_unlocked hr hidle).2, hready.unpaused.2, hsound, hcovered, ?_,
    hready.payee, by omega⟩
  unfold PaymentChannel.Sound PaymentChannel.held at *
  omega

lemma Ready.settles (hT : Set.InjOn (roundTicketHash d.entropy) T)
    (hr : Run (exec d) (Presents T) (start owner) c) (hidle : c.Idle)
    (hready : Ready d tx ticket senderSig secret c.now.state) (hticket : ticket ∈ T)
    (hterms : HasTerms d (ticketRound ticket) (tau, faceValue, hash, commitBlock) c.now.state)
    (hsecret : verifySecretCommitment d.entropy secret hash = true)
    (hindex : ticket.localIndex < tau)
    (hdrawn : computeWinnerIndex d.entropy tx.msg commitBlock secret ticket.roundId tau
      = .ok ticket.localIndex) :
    ∃ w', (exec d tx c.now.state).accepted = some w'
      ∧ (w'.engine.rounds (roundKey d (ticketRound ticket))).status = .settled := by
  obtain ⟨htau, -, hhash, hblock⟩ := hterms.fields
  have hunused := (run_spent hr).unused hT hticket hready.opened
  have hsettles : Settles d tx.msg tx.answers ticket senderSig secret c.now.state := by
    refine ⟨(run_unlocked hr hidle).1, hready.unpaused.1, ?_, hready.payable hr hidle⟩
    refine ⟨hready.opened, hready.undisputed, hready.price, htau ▸ hindex, hunused,
      hready.signed, hhash ▸ hsecret, ?_⟩
    rw [htau, hblock]
    exact hdrawn
  have hin : tx.call.inRange = true := by
    rw [hready.call]
    exact hready.inRange
  have hround : (c.now.state.afterRound d ticket).engine.rounds (roundKey d (ticketRound ticket))
      = { c.now.state.engine.rounds (roundKey d (ticketRound ticket)) with status := .settled } :=
    update_self ..
  refine ⟨c.now.state.afterRound .., ?_, congrArg Round.status hround⟩
  rw [exec_eq_dispatch hin fun _ => hready.value, hready.call]
  exact settleRound_accepted.mpr ⟨hsettles, rfl⟩

/-- Whatever is settled was drawn. -/
lemma CanSettle.drawn (h : CanSettle d id (tau, faceValue, hash, commitBlock) secret i) :
    ∃ m, computeWinnerIndex d.entropy m commitBlock secret id.roundId tau = .ok i := by
  obtain ⟨owner, c, hr, -, tx, w, ticket, senderSig, hmem, hcall, rfl, rfl, hterms⟩ := h
  obtain ⟨-, heffect⟩ := Run.inEffect (P := fun _ => True)
    (fun p tx _ _ => exec_keeps (I := fun _ => True) (fun _ h => h) _ trivial) hr rfl rfl trivial
  obtain ⟨-, -, hdone⟩ := heffect.of_mem hmem
  have hdispatch : ∀ e, dispatch d tx.msg tx.answers w tx.call ≠ .revert e :=
    dispatch_of_exec hdone
  rw [hcall] at hdispatch
  have hsettles := (settleRound_checks ..).of_ne_revert hdispatch
  have hdrawn := hsettles.settleable.drawn
  have hcommitted : (w.engine.rounds (roundKey d (ticketRound ticket))).status ≠ .uncommitted := by
    rw [hsettles.settleable.opened]
    exact RoundStatus.noConfusion
  obtain ⟨htau, -, -, hblock⟩ := HasTerms.fields ⟨hcommitted, hterms⟩
  rw [htau, hblock] at hdrawn
  exact ⟨tx.msg, hdrawn⟩

end Winner

/-- **One winner per round, in one window.** A round that was committed in a
run, with its secret, has exactly one index for which a ticket can be
settled at all. The preview shows it in every block of the window and fails
in every other one; and in the window a ticket for it is settled whenever
nothing else stands in the way. -/
theorem one_winner {d : Deployment} (hhash : ∀ n, d.entropy.blockHash n ≠ 0)
    {T : Set RoundTicket} (hT : Set.InjOn (roundTicketHash d.entropy) T) {owner : Address}
    {c : Config World Error Tx} (hr : Run (exec d) (Presents T) (start owner) c)
    {id : RoundId} {x : RoundWrite} (hx : x ∈ c.now.state.engine.writes) (hcommits : x.Commits)
    (hkey : x.key = roundKey d id) (hblocks : x.new.commitBlock + maxBlockhashWindow < 2 ^ 256)
    {secret : Bytes32}
    (hsecret : verifySecretCommitment d.entropy secret x.new.recipientRandHash = true)
    (hsigned : ∀ i < x.new.tau, ∃ ticket senderSig, ticketRound ticket = id
      ∧ ticket.localIndex = i ∧ ticket.faceValue = x.new.faceValue ∧ Signed d ticket senderSig) :
    HasTerms d id x.new.terms c.now.state ∧ ∃ i < x.new.tau,
      (∀ j, CanSettle d id x.new.terms secret j ↔ j = i) ∧
      (∀ w, HasTerms d id x.new.terms w → ∀ m,
        (Drawable x.new.commitBlock m.number → previewWinnerIndex d m id secret w = .ok i) ∧
        (¬ Drawable x.new.commitBlock m.number →
          ∃ e, previewWinnerIndex d m id secret w = .error e)) ∧
      (∀ c', Run (exec d) (Presents T) (start owner) c' → c'.Idle →
        HasTerms d id x.new.terms c'.now.state →
        ∀ tx ticket senderSig, Ready d tx ticket senderSig secret c'.now.state → ticket ∈ T →
          ticketRound ticket = id → ticket.localIndex = i →
          Drawable x.new.commitBlock tx.msg.number →
          ∃ w', (exec d tx c'.now.state).accepted = some w'
            ∧ (w'.engine.rounds (roundKey d id)).status = .settled) := by
  obtain ⟨⟨htau, hsize, hvalue⟩, hcommitted, hterms⟩ := run_offered hr x hx hcommits
  rw [hkey] at hcommitted hterms
  have hdraw : ∀ {m : Msg} {i : Nat}, computeWinnerIndex d.entropy m x.new.commitBlock secret
      id.roundId x.new.tau = .ok i ↔ Drawable x.new.commitBlock m.number ∧
        i = winner d.entropy x.new.commitBlock secret id.roundId x.new.tau :=
    computeWinnerIndex_eq_ok hblocks (hhash _) htau
  have hwinner : winner d.entropy x.new.commitBlock secret id.roundId x.new.tau < x.new.tau :=
    Nat.mod_lt _ htau
  refine ⟨⟨hcommitted, hterms⟩, _, hwinner, fun j => ⟨fun h => ?_, ?_⟩, fun w hw m => ?_, ?_⟩
  · obtain ⟨m, hdrawn⟩ := CanSettle.drawn h
    exact (hdraw.mp hdrawn).2
  · -- the provider commits a round with these terms in the same block, and settles the ticket
    rintro rfl
    obtain ⟨ticket, senderSig, rfl, hindex, hface, hsigned⟩ := hsigned _ hwinner
    have hdraws : Draws d ticket x.new.tau x.new.commitBlock secret :=
      ⟨hblocks, hhash _, hindex.symm⟩
    obtain ⟨w, past, hrun⟩ := hdraws.run hsigned (hindex ▸ hwinner) hsize
    refine ⟨0, _, hrun, fun x hx => absurd hx not_mem_nil, _, _, ticket, senderSig,
      mem_cons_self .., rfl, rfl, hindex, ?_⟩
    have hrand : d.entropy.keccak256 (word secret.toNat) = x.new.recipientRandHash := by
      simpa [verifySecretCommitment] using hsecret
    have hround : (committedWorld d ticket x.new.tau x.new.commitBlock secret).engine.rounds
        (roundKey d (ticketRound ticket)) = ⟨x.new.tau, ticket.faceValue,
          d.entropy.keccak256 (word secret.toNat), x.new.commitBlock, .opened⟩ :=
      update_self ..
    rw [hround, Round.terms, Round.terms, hface, hrand]
  · rw [previewWinnerIndex_eq hw hsecret m]
    refine ⟨fun hopen => ?_, fun hclosed => ?_⟩
    · rw [hdraw.mpr ⟨hopen, rfl⟩]
    · cases hresult : computeWinnerIndex d.entropy m x.new.commitBlock secret id.roundId
          x.new.tau with
      | error e => exact ⟨.entropy e, rfl⟩
      | ok i => exact absurd (hdraw.mp hresult).1 hclosed
  · rintro c' hr' hidle hterms' tx ticket senderSig hready hticket rfl hindex hopen
    exact hready.settles hT hr' hidle hticket hterms' hsecret (hindex ▸ hwinner)
      (hdraw.mpr ⟨hopen, hindex⟩)

set_option maxRecDepth 8192 in
/-- Round 3 of the sample has ten tickets. -/
theorem one_winner_sample : ∃ c, Run (exec drawSample) (Presents {drawnTicket}) (start 9) c ∧
      HasTerms drawSample ⟨1, 2, 3⟩ (10, 5, 77, 100) c.now.state ∧
      ∃ i < 10, ∀ j, CanSettle drawSample ⟨1, 2, 3⟩ (10, 5, 77, 100) 77 j ↔ j = i := by
  have hcalls : Calls (exec drawSample) (Presents {drawnTicket}) ⟨World.init 9, []⟩
      (funding ++ [sampleTx 2 100 (.commitRoundSecret 1 3 10 5 77)]) _ :=
    .cons (fun _ h => by cases h) rfl <| .cons (fun _ h => by cases h) rfl <|
      .cons (fun _ h => by cases h) rfl <| .nil _
  have hhash : ∀ n, drawSample.entropy.blockHash n ≠ 0 := fun _ => (by decide : (1 : Bytes32) ≠ 0)
  have hsecret : verifySecretCommitment drawSample.entropy 77 77 = true := rfl
  have hsigned : ∀ i < 10, Signed drawSample ⟨1, 2, 3, i, 5, 100, 0⟩ sampleSig := by
    intro i hi
    refine ⟨?_, rfl, (by decide : 5 ≠ 0), (by decide : (2 : Address) ≠ drawSample.channel)⟩
    simp only [ticketInRange, Bool.and_eq_true, decide_eq_true_eq]
    omega
  obtain ⟨hterms, i, hi, hcan, -, -⟩ := one_winner hhash (Set.injOn_singleton ..)
    (hcalls.run []) (mem_cons_self ..) ⟨rfl, rfl⟩ (rfl : _ = roundKey drawSample _)
    (by decide) hsecret fun i hi => ⟨_, sampleSig, rfl, rfl, rfl, hsigned i hi⟩
  exact ⟨_, hcalls.run [], hterms, i, hi, hcan⟩

end Cipher.Settlement
