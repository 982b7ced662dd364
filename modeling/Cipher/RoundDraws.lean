import Cipher.DisputedRounds

/-!
# Draws

A draw needs the hash of a block near the commit of the round, and the
EVM forgets block hashes after 256 blocks. A round that becomes stale
does so after 3600 blocks, so nothing can be drawn from it any more. And
what a ticket wins with depends on the number of tickets of its round,
which the provider states and nobody signs.
-/

namespace Cipher.Settlement

open Bytes Evm Raffle Function List

/-! ## The stale path -/

/-- Rounds that were committed still are, with the same terms. -/
def KeepsTerms (w w' : World) : Prop :=
  ∀ key, (w.engine.rounds key).status ≠ .uncommitted →
    (w'.engine.rounds key).status ≠ .uncommitted
      ∧ (w'.engine.rounds key).terms = (w.engine.rounds key).terms

lemma KeepsTerms.trans (a b c : World) (hab : KeepsTerms a b) (hbc : KeepsTerms b c) :
    KeepsTerms a c := by
  intro key hcommitted
  obtain ⟨hb, htermsb⟩ := hab key hcommitted
  obtain ⟨hc, htermsc⟩ := hbc key hb
  exact ⟨hc, htermsc.trans htermsb⟩

variable {d : Deployment} {tx : Tx} {w : World} {ticket : RoundTicket} {senderSig : List UInt8}

lemma Acts.keepsTerms (h : Acts d tx k₀ w w') : KeepsTerms w w' := by
  intro key hcommitted
  have hall : ∀ {k k' : Core}, Relation.ReflTransGen (Act d tx k₀) k k' →
      (k.rounds key).status ≠ .uncommitted →
      (k'.rounds key).status ≠ .uncommitted ∧ (k'.rounds key).terms = (k.rounds key).terms := by
    intro k k' hacts hk
    induction hacts with
    | refl => exact ⟨hk, rfl⟩
    | tail _ hact ih =>
      obtain ⟨hmid, hterms⟩ := ih
      obtain ⟨hend, hterms'⟩ := hact.committed hmid
      exact ⟨hend, hterms'.trans hterms⟩
  exact hall h hcommitted

/-- Claims made too late for the block hash revert. -/
lemma claimFallbackTicket_late {m : Msg}
    (hlate : (w.engine.rounds (roundKey d (ticketRound ticket))).commitBlock + confirmationDelay
      + 256 < m.number) (senderSig : List UInt8) (secret : Bytes32) :
    ∃ e, claimFallbackTicket d m ticket senderSig secret w = .revert e := by
  have hchecks : Prog.Checks False (.done w)
      (claimFallbackTicket d m ticket senderSig secret w) := by
    refine .guard False.elim fun _ => ?_
    refine .guard_bind False.elim fun _ => ?_
    refine .guard_bind False.elim fun _ => ?_
    refine .guard_bind False.elim fun _ => ?_
    cases recoverSigner d.entropy (roundTicketHash d.entropy ticket) senderSig with
    | error e => exact .fail id
    | ok signer =>
      refine .guard_bind False.elim fun _ => ?_
      refine .guard_bind False.elim fun _ => ?_
      cases hadd : add256 (w.engine.rounds (roundKey d (ticketRound ticket))).commitBlock
          confirmationDelay with
      | none => exact .fail id
      | some targetBlockNumber =>
        refine .guard_bind False.elim fun hknown => absurd ?_ hknown
        -- the block of the draw is too old for its hash to be known
        obtain ⟨-, rfl⟩ := add256_eq_some.mp hadd
        exact if_neg fun h => absurd h.2 (not_le.mpr hlate)
  exact hchecks.reverts id

lemma claim_late {claim : Tx} (hclaim : claim.call = .claimFallbackTicket ticket senderSig secret)
    (hlate : (w.engine.rounds (roundKey d (ticketRound ticket))).commitBlock + confirmationDelay
      + 256 < claim.msg.number) : ∃ e, exec d claim w = .revert e := by
  unfold exec
  split
  · exact ⟨_, rfl⟩
  · rw [hclaim]
    exact claimFallbackTicket_late hlate ..

/-- A round that was marked as partial was open. -/
lemma markRoundPartial_opened (hcall : tx.call = .markRoundPartial sender roundId)
    (h : ∀ e, exec d tx w ≠ .revert e) :
    (w.engine.rounds (roundKey d ⟨sender, tx.msg.sender, roundId⟩)).status = .opened := by
  by_contra hopen
  have hdispatch := dispatch_of_exec h
  rw [hcall] at hdispatch
  replace hdispatch : ∀ e, markRoundPartial d tx.msg sender roundId w ≠ .revert e := hdispatch
  unfold markRoundPartial whenNotPaused at hdispatch
  split at hdispatch
  · exact hdispatch _ rfl
  · exact hdispatch _ (if_pos hopen)

/-- **A stale round pays nobody.** Once a round has been marked as partial
for being stale, every claim of a ticket of it reverts, in whatever
configuration and at whatever later block it is made. -/
theorem stale_round_unclaimable (d : Deployment) (owner : Address) (c : Config World Error Tx)
    (hr : Run (exec d) (fun _ _ => True) (start owner) c)
    (mark : Tx) (w : World) (hmark : (mark, w) ∈ c.now.past) (sender : Address) (roundId : Nat)
    (hcall : mark.call = .markRoundPartial sender roundId)
    (hstale : (w.engine.rounds (roundKey d ⟨sender, mark.msg.sender, roundId⟩)).commitBlock
      + roundStaleTimeout < mark.msg.number)
    (claim : Tx) (ticket : RoundTicket) (senderSig : List UInt8) (secret : Bytes32)
    (hclaim : claim.call = .claimFallbackTicket ticket senderSig secret)
    (hround : ticketRound ticket = ⟨sender, mark.msg.sender, roundId⟩)
    (hlater : mark.msg.number ≤ claim.msg.number) :
    ∃ e, exec d claim c.now.state = .revert e := by
  have hown : ∀ tx w, (exec d tx w).Own KeepsTerms w := fun tx w =>
    (exec_own d tx w).mono fun _ _ => Acts.keepsTerms
  have hrefl : ∀ w, KeepsTerms w w := fun _ _ hcommitted => ⟨hcommitted, rfl⟩
  obtain ⟨hsince, heffect⟩ := Run.since hrefl KeepsTerms.trans hown hr rfl rfl
  obtain ⟨-, -, hdone⟩ := heffect.of_mem hmark
  have hopen := markRoundPartial_opened hcall hdone
  obtain ⟨-, hterms⟩ := hsince _ hmark _ (by rw [hopen]; decide)
  have hcommit : (c.now.state.engine.rounds (roundKey d (ticketRound ticket))).commitBlock
      = (w.engine.rounds (roundKey d ⟨sender, mark.msg.sender, roundId⟩)).commitBlock := by
    rw [hround]
    exact congrArg (fun t => t.2.2.2) hterms
  refine claim_late hclaim ?_
  simp only [roundStaleTimeout, confirmationDelay] at *
  omega

/-- Round 4 is committed in a funded channel, and marked when it is stale. -/
def staleRound : List Tx :=
  funding ++ [sampleTx 2 100 (.commitRoundSecret 1 4 10 5 77),
    sampleTx 2 3701 (.markRoundPartial 1 4)]

set_option maxRecDepth 8192

theorem stale_round_unclaimable_next : ∃ c, Run (exec drawSample) (fun _ _ => True) (start 9) c
      ∧ c.now.past.map (·.1.call) = (staleRound.map (·.call)).reverse
      ∧ ∃ e, exec drawSample (sampleTx 2 3702 (.claimFallbackTicket oddsTicket sampleSig 77))
        c.now.state = .revert e := by
  have hrun : Run (exec drawSample) (fun _ _ => True) (start 9) _ := .of_accepted staleRound rfl
  refine ⟨_, hrun, rfl, ?_⟩
  exact stale_round_unclaimable _ 9 _ hrun _ _ (mem_cons_self ..) 1 4 rfl (by decide) _
    _ _ 77 rfl rfl (by decide)

/-- The ticket wins on the hash of block 115, its signature and the secret
are right, and the channel holds 20; it is never paid. -/
theorem stale_ticket_lost : ∃ c, Run (exec drawSample) (fun _ _ => True) (start 9) c
      ∧ c.now.past.map (·.1.call) = (staleRound.map (·.call)).reverse
      ∧ getRoundStatus drawSample ⟨1, 2, 4⟩ c.now.state = .partialFallback
      ∧ RaffleMath.isFallbackWinner drawSample.entropy (drawSample.entropy.blockHash 115)
        oddsTicket.senderNonce 77 oddsTicket.winProb = true
      ∧ recoverSigner drawSample.entropy (roundTicketHash drawSample.entropy oddsTicket) sampleSig
        = .ok oddsTicket.sender
      ∧ verifySecretCommitment drawSample.entropy 77 77 = true
      ∧ PaymentChannel.channelBalance drawSample.channels 1 2 c.now.state.channel.toStorage
        = some 20
      ∧ ∀ number, 3701 ≤ number → ∃ e, exec drawSample
        (sampleTx 2 number (.claimFallbackTicket oddsTicket sampleSig 77)) c.now.state
          = .revert e := by
  refine ⟨_, .of_accepted staleRound rfl, rfl, rfl, rfl, rfl, rfl, rfl, fun number hlater => ?_⟩
  exact claim_late rfl (lt_of_lt_of_le (by decide) hlater)

/-! ## The odds of a ticket -/

/-- `tx` commits the round of `ticket` with the given terms. -/
def Commits (ticket : RoundTicket) (tau faceValue : Nat) (hash : Bytes32) (tx : Tx) : Prop :=
  tx.msg.sender = ticket.recipient
    ∧ tx.call = .commitRoundSecret ticket.sender ticket.roundId tau faceValue hash

section

variable (d : Deployment) (ticket : RoundTicket) (senderSig : List UInt8)

/-- There is an execution in which the provider commits the round of
`ticket` and then settles the ticket. -/
def Pays (tau faceValue : Nat) : Prop :=
  ∃ owner c, Run (exec d) (fun _ _ => True) (start owner) c
    ∧ ∃ later settle earlier commit hash secret,
      c.now.past = later ++ settle :: earlier ∧ commit ∈ earlier
        ∧ Commits ticket tau faceValue hash commit.1
        ∧ settle.1.call = .settleRound ticket senderSig secret

/-- The signature under a ticket fixes its odds and its value. -/
def FixesOdds : Prop :=
  ∀ tau₁ faceValue₁ tau₂ faceValue₂, Pays d ticket senderSig tau₁ faceValue₁ →
    Pays d ticket senderSig tau₂ faceValue₂ → tau₁ = tau₂ ∧ faceValue₁ = faceValue₂

end

/-- The round that `tx` commits, if it commits one, has the terms it was
given. -/
def CommittedBy (d : Deployment) (tx : Tx) (w : World) : Prop :=
  ∀ ticket tau faceValue hash, Commits ticket tau faceValue hash tx →
    let round := w.engine.rounds (roundKey d (ticketRound ticket))
    round.status ≠ .uncommitted ∧ round.terms = (tau, faceValue, hash, tx.msg.number)
      ∧ tau ≤ maxRoundSize

lemma CommittedBy.keep (h : CommittedBy d tx w) (hkeeps : KeepsTerms w w') :
    CommittedBy d tx w' := by
  intro ticket tau faceValue hash hcommits
  obtain ⟨hcommitted, hterms, hsize⟩ := h ticket tau _ hash hcommits
  obtain ⟨hcommitted', hterms'⟩ := hkeeps _ hcommitted
  exact ⟨hcommitted', hterms'.trans hterms, hsize⟩

lemma run_committedBy (hr : Run (exec d) (fun _ _ => True) (start owner) c) :
    InEffect (exec d) (fun p => ∀ r ∈ p.past, CommittedBy d r.1 p.state) c.now.past := by
  refine (Run.inEffect (P := fun p => ∀ r ∈ p.past, CommittedBy d r.1 p.state) ?_ hr rfl rfl
    fun r hr => by cases hr).2
  intro p tx _ h
  have hkeeps := (exec_own d tx p.state).mono fun _ _ => Acts.keepsTerms
  by_cases hcommit : tx.call.IsCommit
  · -- A commit goes through at once, or not at all.
    obtain ⟨sender, roundId, tau, faceValue, hash, hcall⟩ := hcommit
    unfold exec at hkeeps ⊢
    split
    · trivial
    rename_i hvalid
    rw [if_neg hvalid, hcall] at hkeeps
    rw [hcall]
    replace hkeeps : (commitRoundSecret d tx.msg sender roundId tau faceValue hash p.state).Own
      KeepsTerms p.state := hkeeps
    show Ensures _ _ _ (commitRoundSecret d tx.msg sender roundId tau faceValue hash p.state)
    rcases commitRoundSecret_checks .. with ⟨hchecks, heq⟩ | ⟨-, e, heq⟩
    · rw [heq] at hkeeps ⊢
      refine forall_mem_cons.mpr ⟨?_, fun r hr => (h r hr).keep hkeeps⟩
      rintro ticket tau' faceValue' hash' ⟨hsender, hcall'⟩
      rw [hcall] at hcall'
      cases hcall'
      simp only [ticketRound, ← hsender, Engine.emit, Engine.setRound, update_self]
      exact ⟨RoundStatus.noConfusion, rfl, hchecks.params.2.1⟩
    · rw [heq]
      trivial
  · refine hkeeps.ensures (fun s s' past hs hp r hr => (hp r hr).keep hs) ?_
    refine forall_mem_cons.mpr ⟨?_, h⟩
    rintro ticket tau faceValue hash ⟨-, hcall⟩
    exact absurd ⟨_, _, _, _, _, hcall⟩ hcommit

/-- What the terms of a settled ticket have to do with the ticket. -/
lemma Pays.bounds (h : Pays d ticket senderSig tau faceValue) :
    ticket.localIndex < tau ∧ tau ≤ maxRoundSize ∧ faceValue = ticket.faceValue := by
  obtain ⟨owner, c, hr, later, ⟨settle, w⟩, earlier, commit, hash, secret, hpast, hmem, hcommits,
    hcall⟩ := h
  have heffect := run_committedBy hr
  rw [hpast] at heffect
  obtain ⟨hcommitted, hdone⟩ := heffect.of_append
  obtain ⟨-, hterms, hsize⟩ := hcommitted commit hmem ticket tau _ hash hcommits
  have hdispatch : ∀ e, dispatch d settle.msg settle.answers w settle.call ≠ .revert e :=
    dispatch_of_exec hdone
  rw [hcall] at hdispatch
  have hsettles := (settleRound_checks ..).of_ne_revert hdispatch
  have htau : (w.engine.rounds (roundKey d (ticketRound ticket))).tau = tau :=
    congrArg Prod.fst hterms
  have hface : (w.engine.rounds (roundKey d (ticketRound ticket))).faceValue = faceValue :=
    congrArg (fun t => t.2.1) hterms
  exact ⟨hsettles.settleable.index.trans_eq htau, hsize,
    hface.symm.trans hsettles.settleable.price.symm⟩

/-- The index that the hash of the block after the confirmations and a secret
draw. -/
def winner (e : Entropy) (commitBlock : Nat) (secret : Bytes32) (roundId tau : Nat) : Nat :=
  (e.keccak256 (word (e.blockHash (commitBlock + confirmationDelay)).toNat
    ++ word secret.toNat ++ word roundId)).toNat % tau

/-- The blocks in which a round can be drawn. In the last block of the
confirmations its own hash is not known yet. -/
def Drawable (commitBlock number : Nat) : Prop :=
  commitBlock + confirmationDelay < number ∧ number ≤ commitBlock + maxBlockhashWindow

lemma computeWinnerIndex_eq_ok {e : Entropy} (hblock : commitBlock + maxBlockhashWindow < 2 ^ 256)
    (hhash : e.blockHash (commitBlock + confirmationDelay) ≠ 0) (htau : 0 < tau) :
    computeWinnerIndex e m commitBlock secret roundId tau = .ok i ↔
      Drawable commitBlock m.number ∧ i = winner e commitBlock secret roundId tau := by
  have hdelay : confirmationDelay ≤ maxBlockhashWindow := by decide
  have hwindow : maxBlockhashWindow = 256 := rfl
  unfold computeWinnerIndex Drawable
  rw [add256_of_lt (by omega), add256_of_lt hblock]
  dsimp only
  by_cases hearly : m.number < commitBlock + confirmationDelay
  · rw [if_pos hearly]
    exact iff_of_false nofun fun h => by omega
  rw [if_neg hearly]
  by_cases hlate : m.number > commitBlock + maxBlockhashWindow
  · rw [if_pos hlate]
    exact iff_of_false nofun fun h => by omega
  rw [if_neg hlate]
  by_cases hlast : m.number = commitBlock + confirmationDelay
  · have hunknown : blockhash e m (commitBlock + confirmationDelay) = 0 :=
      if_neg fun h => by omega
    rw [if_pos hunknown]
    exact iff_of_false nofun fun h => by omega
  · have hknown : blockhash e m (commitBlock + confirmationDelay)
        = e.blockHash (commitBlock + confirmationDelay) := if_pos ⟨by omega, by omega⟩
    rw [hknown, if_neg hhash, RaffleMath.computeWinnerIndex, if_neg (not_not.mpr htau),
      Except.ok.injEq, eq_comm, and_iff_right ⟨by omega, by omega⟩]
    rfl

/-- The secret of a provider who wants the ticket to win in a round of `tau`
tickets, and the block to commit it in. -/
structure Draws (d : Deployment) (ticket : RoundTicket) (tau block : Nat) (secret : Bytes32) :
    Prop where
  inRange : block + maxBlockhashWindow < 2 ^ 256
  hash : d.entropy.blockHash (block + confirmationDelay) ≠ 0
  winner : (d.entropy.keccak256 (word (d.entropy.blockHash (block + confirmationDelay)).toNat
    ++ word secret.toNat ++ word ticket.roundId)).toNat % tau = ticket.localIndex

/-- A ticket that can be settled at all: the client has signed it, and it
is worth something to an account that can be paid. -/
structure Signed (d : Deployment) (ticket : RoundTicket) (senderSig : List UInt8) : Prop where
  inRange : ticketInRange ticket = true
  signed : recoverSigner d.entropy (roundTicketHash d.entropy ticket) senderSig
    = .ok ticket.sender
  value : ticket.faceValue ≠ 0
  payee : ticket.recipient ≠ d.channel

lemma Signed.bounds (h : Signed d ticket senderSig) :
    ticket.roundId < 2 ^ 256 ∧ ticket.faceValue < 2 ^ 256 := by
  have hrange := h.inRange
  simp only [ticketInRange, Bool.and_eq_true, decide_eq_true_eq] at hrange
  obtain ⟨⟨⟨⟨hroundId, -⟩, hfaceValue⟩, -⟩, -⟩ := hrange
  exact ⟨hroundId, hfaceValue⟩

/-- The engine authorised, and a channel that holds the value of a ticket. -/
def fundedWorld (d : Deployment) (ticket : RoundTicket) : World :=
  let blank := World.init 0
  { blank with
    channel := (({ blank.channel with
        authorizedPayoutEngine := update (fun _ => false) d.engine true }.credit
      ticket.faceValue).deposited d.channels ⟨ticket.sender, ticket.faceValue, 0, 0⟩
      ticket.recipient).emit (.channelOpened ticket.sender ticket.recipient ticket.faceValue) }

def fundingOf (d : Deployment) (ticket : RoundTicket) : List Tx :=
  [{ msg := ⟨0, 0, 0, 0⟩, call := .channel (.setPayoutEngine d.engine true) },
    { msg := ⟨ticket.sender, ticket.faceValue, 0, 0⟩
      call := .channel (.openChannel ticket.recipient) }]

lemma fundingOf_calls (hvalue : ticket.faceValue ≠ 0) (hrange : ticket.faceValue < 2 ^ 256) :
    ∃ past, Calls (exec d) (fun _ _ => True) ⟨World.init 0, []⟩ (fundingOf d ticket)
      ⟨fundedWorld d ticket, past⟩ := by
  let wired : PaymentChannel.World := { PaymentChannel.World.init 0 with
    authorizedPayoutEngine := update (fun _ => false) d.engine true }
  have hdeposit := (PaymentChannel.deposit_checks d.channels
    ⟨ticket.sender, ticket.faceValue, 0, 0⟩ (wired.credit ticket.faceValue) ticket.recipient
    .channelOpened).eq ⟨rfl, hvalue, (Nat.zero_add _).trans_lt hrange⟩
  have hopen : PaymentChannel.exec d.channels
      ⟨⟨ticket.sender, ticket.faceValue, 0, 0⟩, .openChannel ticket.recipient⟩ wired = .done _ :=
    (if_neg (by rintro (hout | ⟨hpayable, -⟩) <;> contradiction)).trans hdeposit
  refine ⟨_, .cons trivial rfl (.cons trivial ?_ (.nil _))⟩
  exact congrArg (fun prog => (Prog.embed _ _ _ _ prog).accepted) hopen

section Draws

variable {d : Deployment} {ticket : RoundTicket} {senderSig : List UInt8} {tau block : Nat}
  {secret : Bytes32}

section

variable (d : Deployment) (ticket : RoundTicket) (tau block : Nat) (secret : Bytes32)

/-- The same after the commit of the ticket's round. -/
def committedWorld : World :=
  let w := fundedWorld d ticket
  { w with
    engine := (w.engine.setRound (roundKey d (ticketRound ticket))
      ⟨tau, ticket.faceValue, d.entropy.keccak256 (word secret.toNat), block, .opened⟩).emit
      (.roundCommitted (ticketRound ticket) tau ticket.faceValue block) }

def commitOf : Tx :=
  { msg := ⟨ticket.recipient, 0, 0, block⟩
    call := .commitRoundSecret ticket.sender ticket.roundId tau ticket.faceValue
      (d.entropy.keccak256 (word secret.toNat)) }

end

def settlementOf (ticket : RoundTicket) (senderSig : List UInt8) (block : Nat)
    (secret : Bytes32) : Tx :=
  { msg := ⟨ticket.recipient, 0, 0, block + confirmationDelay + 1⟩
    call := .settleRound ticket senderSig secret }

section

variable (hsigned : Signed d ticket senderSig)

include hsigned

lemma commit_funded (htau : tau ≠ 0) (hsize : tau ≤ maxRoundSize) :
    exec d (commitOf d ticket tau block secret) (fundedWorld d ticket)
      = .done (committedWorld d ticket tau block secret) := by
  obtain ⟨hroundId, hfaceValue⟩ := hsigned.bounds
  have hin : (commitOf d ticket tau block secret).call.inRange = true := by
    have htau : tau < 2 ^ 256 := lt_of_le_of_lt hsize (by decide)
    simp only [commitOf, Call.inRange, Bool.and_eq_true, decide_eq_true_eq]
    exact ⟨⟨hroundId, htau⟩, hfaceValue⟩
  rw [exec_eq_dispatch hin fun _ => rfl]
  exact (commitRoundSecret_checks ..).eq ⟨rfl, ⟨htau, hsize, hsigned.value⟩, rfl⟩

section

variable (h : Draws d ticket tau block secret) (hindex : ticket.localIndex < tau)

include h hindex

lemma settles_committed :
    Settles d ⟨ticket.recipient, 0, 0, block + confirmationDelay + 1⟩ (fun _ _ => none) ticket
      senderSig secret (committedWorld d ticket tau block secret) := by
  have hfaceValue := hsigned.bounds.2
  have hround : (committedWorld d ticket tau block secret).engine.rounds
      (roundKey d (ticketRound ticket)) = ⟨tau, ticket.faceValue, _, block, .opened⟩ :=
    update_self ..
  have hchannel : (committedWorld d ticket tau block secret).channel.channels
      (getChannelKey d ticket.sender ticket.recipient) = ⟨0 + ticket.faceValue, 0, 0, 0⟩ :=
    update_self ..
  have hauth : (committedWorld d ticket tau block secret).channel.authorizedPayoutEngine d.engine
      = true :=
    show update (fun _ => false) d.engine true d.engine = true from update_self ..
  refine ⟨rfl, rfl, ?_, ?_⟩
  · rw [hround]
    refine ⟨rfl, rfl, rfl, hindex, rfl, hsigned.signed, decide_eq_true rfl, ?_⟩
    refine (computeWinnerIndex_eq_ok h.inRange h.hash (Nat.zero_lt_of_lt hindex)).mpr
      ⟨⟨Nat.lt_succ_self _, ?_⟩, h.winner.symm⟩
    exact Nat.add_le_add_left (by decide : confirmationDelay + 1 ≤ maxBlockhashWindow) block
  · rw [hchannel]
    refine ⟨hauth, rfl, rfl, Nat.zero_le _, ?_, ?_, hsigned.payee, ?_⟩
    · simp [PaymentChannel.held]
    · exact (Nat.zero_add _).trans_lt hfaceValue
    · exact (Nat.zero_add _).ge

/-- The provider commits the round of a ticket and settles the ticket in the
first block in which it can be drawn. -/
lemma Draws.run (hsize : tau ≤ maxRoundSize) : ∃ w past, Run (exec d) (fun _ _ => True) (start 0)
      ⟨⟨w, (settlementOf ticket senderSig block secret, committedWorld d ticket tau block secret)
        :: (commitOf d ticket tau block secret, fundedWorld d ticket) :: past⟩, []⟩ := by
  have hfaceValue := hsigned.bounds.2
  obtain ⟨past, hfunding⟩ := fundingOf_calls (d := d) hsigned.value hfaceValue
  have hcommit : (exec d (commitOf d ticket tau block secret) (fundedWorld d ticket)).accepted
      = some (committedWorld d ticket tau block secret) := by
    rw [commit_funded hsigned (Nat.ne_zero_of_lt hindex) hsize]
    rfl
  obtain ⟨w, hsettle⟩ : ∃ w, (exec d (settlementOf ticket senderSig block secret)
      (committedWorld d ticket tau block secret)).accepted = some w := by
    have hin : (settlementOf ticket senderSig block secret).call.inRange = true := hsigned.inRange
    rw [exec_eq_dispatch hin fun _ => rfl]
    exact ⟨_, congrArg Prog.accepted
      ((settleRound_checks ..).eq (settles_committed hsigned h hindex))⟩
  exact ⟨w, past, (hfunding.run []).trans <| (run_of_accepted trivial hcommit).trans
    (run_of_accepted trivial hsettle)⟩

/-- The provider settles a ticket in a round of any size for which they have
a secret that draws it. -/
lemma Draws.pays (hsize : tau ≤ maxRoundSize) : Pays d ticket senderSig tau ticket.faceValue := by
  obtain ⟨w, past, hrun⟩ := h.run hsigned hindex hsize
  exact ⟨0, _, hrun, [], _, _, _, _, secret, rfl, mem_cons_self .., ⟨rfl, rfl⟩, rfl⟩

end

end

end Draws

/-- **What the client's signature fixes.** The value of a ticket is signed,
but the number of tickets of its round is not: if for every size of the
round there is a secret that draws the ticket, the signature fixes the
odds exactly if the ticket only fits into a round of maximal size. -/
theorem signature_fixes_odds_iff (d : Deployment) (ticket : RoundTicket) (senderSig : List UInt8)
    (hsigned : Signed d ticket senderSig)
    (hdraws : ∀ tau, ticket.localIndex < tau → tau ≤ maxRoundSize →
      ∃ block secret, Draws d ticket tau block secret) :
    FixesOdds d ticket senderSig ↔ maxRoundSize ≤ ticket.localIndex + 1 := by
  constructor
  · intro hfixes
    by_contra hsmall
    have hpays : ∀ tau, ticket.localIndex < tau → tau ≤ maxRoundSize →
        Pays d ticket senderSig tau ticket.faceValue := by
      intro tau hindex hsize
      obtain ⟨block, secret, hdraw⟩ := hdraws tau hindex hsize
      exact hdraw.pays hsigned hindex hsize
    have hfirst := hpays (ticket.localIndex + 1) (by omega) (by omega)
    have hsecond := hpays (ticket.localIndex + 2) (by omega) (by omega)
    obtain ⟨htau, -⟩ := hfixes _ _ _ _ hfirst hsecond
    omega
  · intro hlast tau₁ faceValue₁ tau₂ faceValue₂ hfirst hsecond
    obtain ⟨hindex₁, hsize₁, hface₁⟩ := hfirst.bounds
    obtain ⟨hindex₂, hsize₂, hface₂⟩ := hsecond.bounds
    exact ⟨by omega, hface₁.trans hface₂.symm⟩

lemma drawnTicket_signed : Signed drawSample drawnTicket sampleSig :=
  ⟨by decide, rfl, by decide, by decide⟩

/-- The sample's hash function draws index 3 in every round that has one. -/
theorem signature_fixes_odds_iff_drawn :
    FixesOdds drawSample drawnTicket sampleSig ↔ maxRoundSize ≤ 4 := by
  refine signature_fixes_odds_iff _ _ _ drawnTicket_signed ?_
  intro tau hindex hsize
  exact ⟨100, 77, by decide, by decide, Nat.mod_eq_of_lt hindex⟩

/-- The client has signed one ticket; the provider settles it in a round of
ten tickets or in one of four, as they like. -/
theorem odds_not_fixed :
    Pays drawSample drawnTicket sampleSig 10 5 ∧ Pays drawSample drawnTicket sampleSig 4 5
      ∧ ¬FixesOdds drawSample drawnTicket sampleSig := by
  have hten : Run (exec drawSample) (fun _ _ => True) (start 9) _ :=
    .of_accepted (funding ++ [sampleTx 2 100 (.commitRoundSecret 1 3 10 5 77),
        sampleTx 2 120 (.settleRound drawnTicket sampleSig 77)]) rfl
  have hfour : Run (exec drawSample) (fun _ _ => True) (start 9) _ :=
    .of_accepted (funding ++ [sampleTx 2 100 (.commitRoundSecret 1 3 4 5 77),
        sampleTx 2 120 (.settleRound drawnTicket sampleSig 77)]) rfl
  have hpaysTen : Pays drawSample drawnTicket sampleSig 10 5 :=
    ⟨9, _, hten, [], _, _, _, 77, 77, rfl, mem_cons_self .., ⟨rfl, rfl⟩, rfl⟩
  have hpaysFour : Pays drawSample drawnTicket sampleSig 4 5 :=
    ⟨9, _, hfour, [], _, _, _, 77, 77, rfl, mem_cons_self .., ⟨rfl, rfl⟩, rfl⟩
  refine ⟨hpaysTen, hpaysFour, fun hfixes => ?_⟩
  obtain ⟨htau, -⟩ := hfixes _ _ _ _ hpaysTen hpaysFour
  exact absurd htau (by decide)

end Cipher.Settlement
