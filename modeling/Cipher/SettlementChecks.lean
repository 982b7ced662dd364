import Cipher.ChannelChecks
import Cipher.Settlement

/-!
# What the settlement engine checks

When a round can be committed and when a ticket can be settled, and what
the engine does then (`Prog.Checks`). A settlement goes through three
contracts: the engine locks itself and writes the round, the channel
contract locks itself and books the payout, and then the provider gets
control.
-/

namespace Cipher.Settlement

open Evm Raffle

/-- The checks of the calldata. -/
lemma exec_eq_dispatch {tx : Tx} (hin : tx.call.inRange = true)
    (hvalue : tx.call.checksValue = true → tx.msg.value = 0) :
    exec d tx w = dispatch d tx.msg tx.answers w tx.call := by
  refine if_neg fun h => ?_
  rcases h with hout | ⟨hchecks, hne⟩
  · simp [hin] at hout
  · exact hne (hvalue hchecks)

lemma dispatch_of_exec (h : ∀ e, exec d tx w ≠ .revert e) :
    ∀ e, dispatch d tx.msg tx.answers w tx.call ≠ .revert e := by
  unfold exec at h
  split at h
  · exact absurd rfl (h _)
  · exact h

/-! ## Commits -/

/-- The checks of `commitRoundSecret`. -/
structure Committable (tau faceValue : Nat) (round : Round) (w : World) : Prop where
  unpaused : w.engine.paused = false
  params : tau ≠ 0 ∧ tau ≤ maxRoundSize ∧ faceValue ≠ 0
  fresh : round.status = .uncommitted

lemma commitRoundSecret_checks (d : Deployment) (m : Msg) (sender : Address)
    (roundId tau faceValue : Nat) (hash : Bytes32) (w : World) :
    let id : RoundId := ⟨sender, m.sender, roundId⟩
    Prog.Checks (Committable tau faceValue (w.engine.rounds (roundKey d id)) w) (.done { w with
        engine := (w.engine.setRound (roundKey d id)
          ⟨tau, faceValue, hash, m.number, .opened⟩).emit
          (.roundCommitted id tau faceValue m.number) })
      (commitRoundSecret d m sender roundId tau faceValue hash w) := by
  intro id
  refine .guard (fun h => by simp [h.unpaused]) fun hpaused => ?_
  refine .guard (fun h => ?_) fun hparams => ?_
  · obtain ⟨htau, hsize, hface⟩ := h.params
    exact not_or.mpr ⟨htau, not_or.mpr ⟨not_lt.mpr hsize, hface⟩⟩
  refine .guard (fun h => not_not.mpr h.fresh) fun hfresh => ?_
  obtain ⟨htau, hrest⟩ := not_or.mp hparams
  obtain ⟨hsize, hface⟩ := not_or.mp hrest
  exact .pass ⟨by simpa using hpaused, ⟨htau, not_lt.mp hsize, hface⟩, not_not.mp hfresh⟩

/-! ## Settlements -/

/-- The checks of `_settleRoundInternal`. -/
structure Settleable (d : Deployment) (m : Msg) (answers : Answers) (ticket : RoundTicket)
    (senderSig : List UInt8) (secret : Bytes32) (round : Round) (w : World) : Prop where
  opened : round.status = .opened
  quiet : disputePending d answers (ticketRound ticket) w = some false
  price : ticket.faceValue = round.faceValue
  index : ticket.localIndex < round.tau
  unused : w.engine.usedTickets (roundTicketHash d.entropy ticket) = false
  signed : recoverSigner d.entropy (roundTicketHash d.entropy ticket) senderSig
    = .ok ticket.sender
  revealed : verifySecretCommitment d.entropy secret round.recipientRandHash = true
  drawn : computeWinnerIndex d.entropy m round.commitBlock secret ticket.roundId round.tau
    = .ok ticket.localIndex

/-- The engine when it orders the payout of a settled round. -/
def Engine.settled (e : Engine) (key hash : Bytes32) : Engine :=
  { e.setRound key { e.rounds key with status := .settled } with
    usedTickets := Function.update e.usedTickets hash true }

lemma settleRoundInternal_checks (d : Deployment) (m : Msg) (answers : Answers)
    (ticket : RoundTicket) (senderSig : List UInt8) (secret : Bytes32) (w : World) :
    let key := roundKey d (ticketRound ticket)
    Prog.Checks (Settleable d m answers ticket senderSig secret (w.engine.rounds key) w)
      ((payoutProvider d m .normal ticket
        { w with engine := w.engine.settled key (roundTicketHash d.entropy ticket) }).bind
        fun w => .done { w with
          engine := w.engine.emit
            (.roundSettled (ticketRound ticket) ticket.localIndex ticket.faceValue) })
      (settleRoundInternal d m answers ticket senderSig secret w) := by
  intro key
  refine .guard (fun h => by rw [h.opened]; decide) fun _ => ?_
  refine .guard (fun h => by rw [h.opened]; decide) fun _ => ?_
  refine .guard (fun h => not_not.mpr h.opened) fun hopen => ?_
  split
  · rename_i hpending
    exact .fail fun h => by rw [h.quiet] at hpending; cases hpending
  · rename_i hpending
    exact .fail fun h => by rw [h.quiet] at hpending; cases hpending
  rename_i hquiet
  refine .guard (fun h => not_or.mpr ⟨not_not.mpr h.price, not_le.mpr h.index⟩) fun hparams => ?_
  obtain ⟨hprice, hindex⟩ := not_or.mp hparams
  refine .guard (fun h => by rw [h.unused]; decide) fun hunused => ?_
  split
  · rename_i herror
    exact .fail fun h => by rw [h.signed] at herror; cases herror
  rename_i signer hsigner
  refine .guard (fun h => ?_) fun hsigned => ?_
  · obtain rfl : signer = ticket.sender := Except.ok.inj (hsigner.symm.trans h.signed)
    exact not_not.mpr rfl
  refine .guard (fun h => by rw [h.revealed]; decide) fun hrevealed => ?_
  split
  · rename_i herror
    exact .fail fun h => by rw [h.drawn] at herror; cases herror
  rename_i winnerIndex hwinner
  refine .guard (fun h => ?_) fun hdrawn => ?_
  · obtain rfl : winnerIndex = ticket.localIndex := Except.ok.inj (hwinner.symm.trans h.drawn)
    exact not_not.mpr rfl
  obtain rfl := not_not.mp hsigned
  obtain rfl := not_not.mp hdrawn
  exact .pass ⟨not_not.mp hopen, hquiet, not_not.mp hprice, not_le.mp hindex,
    Bool.eq_false_of_not_eq_true hunused, hsigner, by simpa using hrevealed, hwinner⟩

/-- The checks of `settleRound`, in all three contracts. -/
structure Settles (d : Deployment) (m : Msg) (answers : Answers) (ticket : RoundTicket)
    (senderSig : List UInt8) (secret : Bytes32) (w : World) : Prop where
  unlocked : w.engine.locked = false
  unpaused : w.engine.paused = false
  settleable : Settleable d m answers ticket senderSig secret
    (w.engine.rounds (roundKey d (ticketRound ticket))) w
  payable : PaymentChannel.Payable d.channels { m with sender := d.engine, value := 0 } w.channel
    ticket.recipient ticket.faceValue
    (w.channel.channels (getChannelKey d ticket.sender ticket.recipient))

/-- The state in which the provider gets control. -/
def World.settling (d : Deployment) (ticket : RoundTicket) (w : World) : World :=
  let key := roundKey d (ticketRound ticket)
  { w with
    channel := w.channel.paid d.channels ticket.sender ticket.recipient ticket.faceValue
    engine := ({ w.engine with locked := true }.settled key
      (roundTicketHash d.entropy ticket)).record
      ⟨.normal, ticket, w.resolver.disputes⟩ }

/-- What is left of a settlement once the provider has returned. -/
def afterSettlement (ticket : RoundTicket) (callSuccess : Bool) (w : World) : Prog World Error :=
  if !callSuccess then .revert (.channel .transferFailed)
  else .done { w with
    channel := { w.channel.emit (.channelPayoutExecuted ticket.sender ticket.recipient
      ticket.faceValue) with locked := false }
    engine := { w.engine.emit (.roundSettled (ticketRound ticket) ticket.localIndex
      ticket.faceValue) with locked := false } }

lemma settleRound_checks (d : Deployment) (m : Msg) (answers : Answers)
    (ticket : RoundTicket) (senderSig : List UInt8) (secret : Bytes32) (w : World) :
    Prog.Checks (Settles d m answers ticket senderSig secret w) (.call { w.settling d ticket with
          channel := (w.settling d ticket).channel.debit ticket.faceValue }
        (w.settling d ticket) ticket.recipient (afterSettlement ticket))
      (settleRound d m answers ticket senderSig secret w) := by
  refine .guard (fun h => by simp [h.unlocked]) fun hlocked => ?_
  refine .guard_bind (fun h => by simp [h.unpaused]) fun hpaused => ?_
  rcases settleRoundInternal_checks d m answers ticket _ secret
    { w with engine := { w.engine with locked := true } } with ⟨hsettle, heq⟩ | ⟨hsettle, e, heq⟩
  · rw [heq, payoutProvider]
    rcases PaymentChannel.payoutProvider_checks _
      { m with sender := d.engine, value := 0 } w.channel ticket.sender ticket.recipient
      ticket.faceValue with ⟨hpay, hcall⟩ | ⟨hpay, e, hcall⟩
    · rw [hcall]
      refine .inl ⟨⟨by simpa using hlocked, by simpa using hpaused, ?_, hpay⟩, ?_⟩
      · exact { hsettle with }
      · simp only [Prog.embed, Prog.bind]
        congr 1
        funext sent w'
        cases sent <;> rfl
    · rw [hcall]
      exact .fail fun h => hpay h.payable
  · rw [heq]
    exact .fail fun h => hsettle { h.settleable with }

/-! ## Settlements that are not interrupted -/

/-- The state after a settlement whose provider accepts the payment and does
not call back. -/
def World.afterRound (d : Deployment) (ticket : RoundTicket) (w : World) : World :=
  { w with
    channel := { ((w.channel.paid d.channels ticket.sender ticket.recipient
        ticket.faceValue).debit ticket.faceValue).emit
        (.channelPayoutExecuted ticket.sender ticket.recipient ticket.faceValue) with
      locked := false }
    engine := ((w.engine.settled (roundKey d (ticketRound ticket))
        (roundTicketHash d.entropy ticket)).record
        ⟨.normal, ticket, w.resolver.disputes⟩).emit
        (.roundSettled (ticketRound ticket) ticket.localIndex ticket.faceValue) }

/-- A ticket with its signature and the secret of its round. -/
abbrev Claim := RoundTicket × List UInt8 × Bytes32

/-- The checks of one settlement within a batch. -/
structure Passes (d : Deployment) (m : Msg) (answers : Answers) (x : Claim) (w : World) :
    Prop where
  settleable : Settleable d m answers x.1 x.2.1 x.2.2
    (w.engine.rounds (roundKey d (ticketRound x.1))) w
  payable : PaymentChannel.Payable d.channels { m with sender := d.engine, value := 0 } w.channel
    x.1.recipient x.1.faceValue (w.channel.channels (getChannelKey d x.1.sender x.1.recipient))

lemma settleRoundInternal_accepted {x : Claim} : (settleRoundInternal d m answers x.1 x.2.1 x.2.2
    w).accepted = some w' ↔ Passes d m answers x w ∧ w' = w.afterRound d x.1 := by
  rcases settleRoundInternal_checks .. with ⟨hsettle, heq⟩ | ⟨hsettle, e, heq⟩
  · rw [heq, payoutProvider]
    rcases PaymentChannel.payoutProvider_checks _
      { m with sender := d.engine, value := 0 } w.channel x.1.sender x.1.recipient
      x.1.faceValue with ⟨hpay, hcall⟩ | ⟨hpay, e, hcall⟩
    · rw [hcall, and_iff_right ⟨hsettle, hpay⟩, eq_comm]
      exact Option.some_inj
    · rw [hcall]
      exact iff_of_false nofun fun h => hpay h.1.payable
  · rw [heq]
    exact iff_of_false nofun fun h => hsettle h.1.settleable

lemma settleRound_accepted :
    (settleRound d m answers ticket senderSig secret w).accepted = some w' ↔
      Settles d m answers ticket senderSig secret w ∧ w' = w.afterRound d ticket := by
  rcases settleRound_checks .. with ⟨hsettles, heq⟩ | ⟨hsettles, e, heq⟩
  · have hafter : (settleRound d m answers ticket senderSig secret w).accepted =
        some (w.afterRound d ticket) := by
      rw [heq]
      have hfree := hsettles.unlocked
      -- the engine has given its lock back, so it is as free as it was before
      obtain ⟨channel, registry, ⟨⟩, resolver⟩ := w
      obtain rfl := hfree
      rfl
    rw [hafter, and_iff_right hsettles, eq_comm]
    exact Option.some_inj
  · rw [heq]
    exact iff_of_false nofun fun h => hsettles h.1

end Cipher.Settlement
