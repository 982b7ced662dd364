import Cipher.BrokerChecks
import Cipher.Payouts

/-!
# The modular contracts refine the broker

`PaymentChannel`, `SettlementEngine` and `CommitRevealEntropy` on one
side, `CipherBroker` on the other, given the same calls by the same
accounts at the same blocks. Payees accept a payment or refuse it and do
not call back; no dispute resolver is set, and nobody pauses.

The two systems order their checks differently, hash and sign tickets
differently, and the engine has a nullifier the broker does not have.
`Matches` relates their states. Its field `used` is why the nullifier
makes no difference: a ticket is only marked as used when its round is
settled, and then both systems refuse it.
-/

namespace Cipher.Refinement

open Evm Raffle Function List
open Settlement (RoundId ticketRound ticketInRange)

/-! ## The calls both systems have -/

inductive Op where
  | openChannel (recipient : Address)
  | depositToChannel (recipient : Address)
  | initiateChannelUnlock (recipient : Address)
  | withdrawChannel (recipient : Address)
  | commitRoundSecret (sender : Address) (roundId tau faceValue : Nat)
      (recipientRandHash : Bytes32)
  | settleRound (ticket : RoundTicket) (senderSig : List UInt8) (secret : Bytes32)
deriving DecidableEq, Repr

/-- A call, and which accounts accept a payment while it is made. -/
structure Request where
  msg : Msg
  op : Op
  accepts : Address → Bool

def Op.modular : Op → Settlement.Call
  | .openChannel recipient => .channel (.openChannel recipient)
  | .depositToChannel recipient => .channel (.depositToChannel recipient)
  | .initiateChannelUnlock recipient => .channel (.initiateChannelUnlock recipient)
  | .withdrawChannel recipient => .channel (.withdrawChannel recipient)
  | .commitRoundSecret sender roundId tau faceValue hash =>
    .commitRoundSecret sender roundId tau faceValue hash
  | .settleRound ticket senderSig secret => .settleRound ticket senderSig secret

def Op.broker : Op → Broker.Call
  | .openChannel recipient => .openChannel recipient
  | .depositToChannel recipient => .depositToChannel recipient
  | .initiateChannelUnlock recipient => .initiateChannelUnlock recipient
  | .withdrawChannel recipient => .withdrawChannel recipient
  | .commitRoundSecret sender roundId tau faceValue hash =>
    .commitRoundSecret sender roundId tau faceValue hash
  | .settleRound ticket senderSig secret => .settleRound ticket senderSig secret

section

variable (d : Settlement.Deployment)

/-- A request to the modular contracts: the payments it makes. -/
def modularStep (r : Request) (w : Settlement.World) :
    Option (Settlement.World × List (Address × Nat)) :=
  (Settlement.exec d { msg := r.msg, call := r.op.modular } w).outcome r.accepts
    fun w => w.channel.balance

/-- A request to the broker. -/
def brokerStep (b : Broker.Deployment) (r : Request) (v : Broker.World) :
    Option (Broker.World × List (Address × Nat)) :=
  (Broker.exec b ⟨r.msg, r.op.broker⟩ v).outcome r.accepts Broker.World.balance

/-- The modular contracts after their deployment, the engine authorised to
order payouts. -/
def wired (owner : Address) : Settlement.World :=
  let w := Settlement.World.init owner
  { w with
    channel := { w.channel with
      authorizedPayoutEngine := update w.channel.authorizedPayoutEngine d.engine true } }

/-! ## What is assumed -/

/-- Both systems are on one chain and accept the same signatures under the
same tickets, although they hash a ticket differently. -/
structure Compatible (d : Settlement.Deployment) (b : Broker.Deployment) : Prop where
  keccak : b.keccak256 = d.entropy.keccak256
  blocks : b.blockHash = d.entropy.blockHash
  signers : ∀ (ticket : RoundTicket) (sig : List UInt8),
    recoverSigner d.entropy (roundTicketHash d.entropy ticket) sig = .ok ticket.sender
      ↔ Broker.recoverSigner b (Broker.roundTicketHash b ticket) sig = .ok ticket.sender

/-- The tickets presented for settlement. -/
def presented (requests : List Request) : Set RoundTicket :=
  {ticket | ticketInRange ticket = true
    ∧ ∃ r ∈ requests, ∃ senderSig secret, r.op = .settleRound ticket senderSig secret}

/-- The contracts that hold the money take no payments. -/
def Request.Refused (b : Broker.Deployment) (r : Request) : Prop :=
  r.accepts d.channel = false ∧ r.accepts b.self = false

end

/-! ## Matching states -/

/-- The states of the two systems between calls. `T` are the tickets that
are presented. -/
structure Matches (d : Settlement.Deployment) (T : Set RoundTicket) (w : Settlement.World)
    (v : Broker.World) : Prop where
  channels : w.channel.channels = v.channels
  rounds : w.engine.rounds = v.rounds
  balance : w.channel.balance = v.balance
  unlocked : w.channel.locked = false ∧ w.engine.locked = false ∧ v.locked = false
  unpaused : w.channel.paused = false ∧ w.engine.paused = false
  authorized : w.channel.authorizedPayoutEngine d.engine = true
  noResolver : w.engine.disputeResolver = 0
  used : ∀ ticket ∈ T, w.engine.usedTickets (roundTicketHash d.entropy ticket) = true →
    (w.engine.rounds (Settlement.roundKey d (ticketRound ticket))).status = .settled

variable {d : Settlement.Deployment} {b : Broker.Deployment}
  {w : Settlement.World} {v : Broker.World}

lemma matches_wired (d : Settlement.Deployment) (T : Set RoundTicket) (owner : Address) :
    Matches d T (wired d owner) .init where
  channels := rfl
  rounds := rfl
  balance := rfl
  unlocked := ⟨rfl, rfl, rfl⟩
  unpaused := ⟨rfl, rfl⟩
  authorized := update_self ..
  noResolver := rfl
  used := fun _ _ hused => by cases hused

lemma channelKey_eq (h : Compatible d b) (sender recipient : Address) :
    Broker.channelKey b sender recipient = Settlement.getChannelKey d sender recipient := by
  unfold Broker.channelKey Settlement.getChannelKey PaymentChannel.getChannelKey
  rw [h.keccak]
  rfl

lemma roundKey_eq (h : Compatible d b) (id : RoundId) :
    Broker.roundKey b id = Settlement.roundKey d id := by
  unfold Broker.roundKey Settlement.roundKey
  rw [channelKey_eq h, h.keccak]

lemma blockhash_eq (h : Compatible d b) (m : Msg) (n : Nat) :
    blockhash b m n = blockhash d.entropy m n := by
  unfold blockhash
  rw [h.blocks]

/-- The two draws differ only in how they fail for a round without tickets. -/
lemma draw_eq_ok_iff (h : Compatible d b) (m : Msg) (round : Settlement.Round)
    (secret : Bytes32) (roundId index : Nat) :
    Broker.draw b m round secret roundId = .ok index
      ↔ computeWinnerIndex d.entropy m round.commitBlock secret roundId round.tau
        = .ok index := by
  unfold Broker.draw computeWinnerIndex Broker.confirmationDelay confirmationDelay
    Broker.maxBlockhashWindow maxBlockhashWindow
  cases add256 round.commitBlock 15 with
  | none => simp
  | some targetBlock =>
    dsimp only
    rw [blockhash_eq h]
    split
    · simp
    cases add256 round.commitBlock 256 with
    | none => simp
    | some lastBlock =>
      dsimp only
      split
      · simp
      split
      · simp
      · unfold Broker.computeWinnerIndex RaffleMath.computeWinnerIndex
        rw [h.keccak]
        by_cases htau : round.tau = 0
        · simp [htau]
        · simp [htau, Nat.pos_of_ne_zero htau]

/-! ## Calldata -/

/-- The calldata is well formed, and value comes with deposits only. -/
def Request.Decodes (r : Request) : Prop :=
  r.op.broker.inRange = true ∧ (r.op.broker.payable = false → r.msg.value = 0)

section Calldata

variable {r : Request}

lemma broker_checks (h : Prog.Checks P result
      (Broker.dispatch b r.msg (v.credit r.msg.value) r.op.broker)) :
    Prog.Checks (r.Decodes ∧ P) result (Broker.exec b ⟨r.msg, r.op.broker⟩ v) := by
  refine h.and ?_
  unfold Request.Decodes
  simp

/-- A request that goes to the channel contract. -/
lemma channel_checks (hcall : r.op.modular = .channel c) (h : Prog.Checks P result
      (PaymentChannel.dispatch d.channels r.msg (w.channel.credit r.msg.value) c)) :
    Prog.Checks (r.Decodes ∧ P)
      (result.embed Settlement.World.channel (fun w channel => { w with channel })
        Settlement.Error.channel w)
      (Settlement.exec d { msg := r.msg, call := r.op.modular } w) := by
  have hexec : Settlement.exec d { msg := r.msg, call := r.op.modular } w
      = (PaymentChannel.exec d.channels ⟨r.msg, c⟩ w.channel).embed Settlement.World.channel
        (fun w channel => { w with channel }) Settlement.Error.channel w := by
    rw [hcall]
    rfl
  rw [hexec]
  refine Prog.Checks.embed (h.and ?_)
  obtain ⟨m, op, accepts⟩ := r
  unfold Request.Decodes
  cases op <;> cases hcall <;> simp [Op.broker, Broker.Call.inRange, Broker.Call.payable,
    PaymentChannel.Call.inRange, PaymentChannel.Call.payable]

/-- A request that goes to the engine. -/
lemma engine_checks (hcall : r.op.modular.checksValue = true) (h : Prog.Checks P result
      (Settlement.dispatch d r.msg (fun _ _ => none) w r.op.modular)) :
    Prog.Checks (r.Decodes ∧ P) result
      (Settlement.exec d { msg := r.msg, call := r.op.modular } w) := by
  refine h.and ?_
  obtain ⟨m, op, accepts⟩ := r
  unfold Request.Decodes
  cases op <;> cases hcall <;> simp [Op.broker, Op.modular, Broker.Call.inRange,
    Broker.Call.payable, Settlement.Call.inRange, Settlement.Call.checksValue]

end Calldata

/-! ## One call -/

section

variable (hcompat : Compatible d b) (h : Matches d T w v)

include hcompat h

lemma Matches.channel (sender recipient : Address) :
    w.channel.channels (Settlement.getChannelKey d sender recipient)
      = v.channels (Broker.channelKey b sender recipient) := by
  rw [channelKey_eq hcompat, h.channels]

lemma Matches.round (id : RoundId) :
    w.engine.rounds (Settlement.roundKey d id) = v.rounds (Broker.roundKey b id) := by
  rw [roundKey_eq hcompat, h.rounds]

/-- The same change of one channel on both sides. -/
lemma Matches.update_channel (sender recipient : Address)
    (f : PaymentChannel.Channel → PaymentChannel.Channel) :
    update w.channel.channels (Settlement.getChannelKey d sender recipient)
        (f (w.channel.channels (Settlement.getChannelKey d sender recipient)))
      = update v.channels (Broker.channelKey b sender recipient)
        (f (v.channels (Broker.channelKey b sender recipient))) := by
  rw [channelKey_eq hcompat, h.channels]

end

section Calls

variable {r : Request} {ticket : RoundTicket}

lemma deposit_agree (hcompat : Compatible d b) (h : Matches d T w v)
    (hcall : r.op.modular = .channel c)
    (hmodular : ∀ w, PaymentChannel.dispatch d.channels r.msg w c
      = PaymentChannel.deposit d.channels r.msg recipient event w)
    (hbroker : ∀ v, Broker.dispatch b r.msg v r.op.broker
      = Broker.deposit b r.msg recipient event' v) :
    Agree (Matches d T) (modularStep d r w) (brokerStep b r v) := by
  have hchannel := h.channel hcompat r.msg.sender recipient
  refine Prog.Checks.agree (channel_checks hcall (hmodular _ ▸ PaymentChannel.deposit_checks ..))
    (broker_checks (hbroker _ ▸ Broker.deposit_checks ..))
    (and_congr_right fun _ => ⟨fun hchecks => ?_, fun hchecks => ?_⟩) fun _ => .some ⟨?_, rfl⟩
  · exact ⟨hchecks.value, hchannel ▸ hchecks.inRange⟩
  · exact ⟨h.unpaused.1, hchecks.value, hchannel ▸ hchecks.inRange⟩
  · exact { h with
      channels := h.update_channel hcompat r.msg.sender recipient fun ch =>
        { ch with totalDeposited := ch.totalDeposited + r.msg.value }
      balance := congrArg (· + r.msg.value) h.balance }

lemma unlock_agree (hcompat : Compatible d b) (h : Matches d T w v) :
    Agree (Matches d T) (modularStep d ⟨m, .initiateChannelUnlock recipient, accepts⟩ w)
      (brokerStep b ⟨m, .initiateChannelUnlock recipient, accepts⟩ v) := by
  have hchannel := h.channel hcompat m.sender recipient
  refine Prog.Checks.agree (channel_checks (c := .initiateChannelUnlock _) rfl
      (PaymentChannel.initiateChannelUnlock_checks d.channels m (w.channel.credit m.value)
        recipient))
    (broker_checks (Broker.initiateChannelUnlock_checks b m (v.credit m.value) recipient))
    (and_congr_right fun _ => ⟨fun hchecks => ?_, fun hchecks => ?_⟩) fun _ => .some ⟨?_, rfl⟩
  · exact ⟨hchannel ▸ hchecks.fresh, hchecks.inRange⟩
  · exact ⟨h.unpaused.1, hchannel ▸ hchecks.fresh, hchecks.inRange⟩
  · exact { h with
      channels := h.update_channel hcompat m.sender recipient fun ch =>
        { ch with unlockBlock := m.number + PaymentChannel.channelUnlockPeriod }
      balance := congrArg (· + m.value) h.balance }

/-- A payee that accepts is neither of the two contracts. -/
lemma affordable_iff (h : Matches d T w v) (hrefused : r.Refused d b)
    (haccepts : r.accepts payee = true) (amount value : Nat) :
    Affordable d.channel payee amount (w.channel.credit value).balance
      ↔ Affordable b.self payee amount (v.credit value).balance := by
  have hfunded : (w.channel.credit value).balance = (v.credit value).balance :=
    congrArg (· + value) h.balance
  have houtside : payee ≠ d.channel ∧ payee ≠ b.self := by
    constructor
    · rintro rfl
      simp [hrefused.1] at haccepts
    · rintro rfl
      simp [hrefused.2] at haccepts
  exact ⟨fun ha => ⟨houtside.2, hfunded ▸ ha.funded⟩, fun ha => ⟨houtside.1, hfunded ▸ ha.funded⟩⟩

lemma withdraw_agree (hcompat : Compatible d b) (h : Matches d T w v)
    (hrefused : Request.Refused d b ⟨m, .withdrawChannel recipient, accepts⟩) :
    Agree (Matches d T) (modularStep d ⟨m, .withdrawChannel recipient, accepts⟩ w)
      (brokerStep b ⟨m, .withdrawChannel recipient, accepts⟩ v) := by
  have hchannel :
      (w.channel.credit m.value).channels (Settlement.getChannelKey d m.sender recipient)
      = (v.credit m.value).channels (Broker.channelKey b m.sender recipient) :=
    h.channel hcompat ..
  have hmodular := channel_checks (d := d) (w := w)
    (r := ⟨m, .withdrawChannel _, accepts⟩) (c := .withdrawChannel recipient) rfl
    (PaymentChannel.withdrawChannel_checks ..)
  have hbroker := broker_checks (b := b) (v := v) (r := ⟨m, .withdrawChannel recipient, accepts⟩)
    (Broker.withdrawChannel_checks ..)
  refine hmodular.agree_of_payment hbroker rfl rfl rfl rfl
    (fun haccepts => and_congr_right fun _ => ?_) (fun _ => ?_) (fun _ => ?_)
  · rw [← hchannel]
    have hafford := affordable_iff h hrefused haccepts
    exact ⟨fun hw => ⟨h.unlocked.2.2, hw.announced, hw.due, hw.sound, hw.some, hw.inRange,
        (hafford _ _).mp hw.affordable⟩,
      fun hw => ⟨h.unlocked.1, h.unpaused.1, hw.announced, hw.due, hw.sound, hw.some, hw.inRange,
        (hafford _ _).mpr hw.affordable⟩⟩
  · rw [← hchannel]
    show w.channel.balance + m.value - _ = v.balance + m.value - (v.balance + m.value - _)
    rw [← h.balance]
    rfl
  · exact { h with
      channels := h.update_channel hcompat m.sender recipient fun ch =>
        { ch with withdrawnAmount := ch.withdrawnAmount + PaymentChannel.held ch }
      balance := by
        show w.channel.balance + m.value - _ = v.balance + m.value - _
        rw [h.balance, ← hchannel]
        rfl
      unlocked := ⟨rfl, h.unlocked.2.1, rfl⟩ }

lemma commit_agree (hcompat : Compatible d b) (h : Matches d T w v) {sender : Address}
    {roundId tau faceValue : Nat} {hash : Bytes32} :
    Agree (Matches d T)
      (modularStep d ⟨m, .commitRoundSecret sender roundId tau faceValue hash, accepts⟩ w)
      (brokerStep b ⟨m, .commitRoundSecret sender roundId tau faceValue hash, accepts⟩ v) := by
  have hround := h.round hcompat ⟨sender, m.sender, roundId⟩
  refine Prog.Checks.agree (engine_checks rfl (Settlement.commitRoundSecret_checks ..))
    (broker_checks (Broker.commitRoundSecret_checks ..))
    (and_congr_right fun _ => ⟨fun hchecks => ?_, fun hchecks => ?_⟩) fun hpass => .some ⟨?_, rfl⟩
  · exact ⟨hchecks.params, hround ▸ hchecks.fresh⟩
  · exact ⟨h.unpaused.2, hchecks.params, hround ▸ hchecks.fresh⟩
  · obtain ⟨⟨-, hvalue⟩, hcommit⟩ := hpass
    have hvalue : m.value = 0 := hvalue rfl
    exact { h with
      rounds := by
        show update w.engine.rounds _ _ = update v.rounds _ _
        rw [roundKey_eq hcompat, h.rounds]
      balance := by
        show w.channel.balance = v.balance + m.value
        rw [hvalue, h.balance, Nat.add_zero]
      used := fun ticket hticket hused => by
        have hsettled := h.used ticket hticket hused
        show (update w.engine.rounds _ _ _).status = _
        rw [update_of_ne]
        · exact hsettled
        · intro hsame
          rw [hsame, hcommit.fresh] at hsettled
          cases hsettled }

lemma disputePending_of_noResolver (h : w.engine.disputeResolver = 0)
    (answers : Settlement.Answers) (id : RoundId) :
    Settlement.disputePending d answers id w = some false := if_pos h

/-- **The nullifier makes no difference.** A ticket of an open round is not
marked as used. -/
theorem Matches.unused (h : Matches d T w v) (hticket : ticket ∈ T)
    (hopened : (w.engine.rounds (Settlement.roundKey d (ticketRound ticket))).status = .opened) :
    w.engine.usedTickets (roundTicketHash d.entropy ticket) = false := by
  refine Bool.eq_false_of_not_eq_true fun hused => ?_
  have hsettled := h.used ticket hticket hused
  rw [hopened] at hsettled
  cases hsettled

lemma settles_iff (hcompat : Compatible d b) (h : Matches d T w v) (hticket : ticket ∈ T)
    (haffordable : Affordable d.channel ticket.recipient ticket.faceValue w.channel.balance
      ↔ Affordable b.self ticket.recipient ticket.faceValue v.balance) :
    Settlement.Settles d m (fun _ _ => none) ticket senderSig secret w
      ↔ Broker.Settles b m v ticket senderSig secret
        (v.rounds (Broker.roundKey b (ticketRound ticket))) := by
  have hdrawn := draw_eq_ok_iff hcompat m
    (w.engine.rounds (Settlement.roundKey d (ticketRound ticket))) secret ticket.roundId
    ticket.localIndex
  have hrevealed : verifySecretCommitment d.entropy secret
        (w.engine.rounds (Settlement.roundKey d (ticketRound ticket))).recipientRandHash = true
      ↔ b.keccak256 (word secret.toNat)
        = (w.engine.rounds (Settlement.roundKey d (ticketRound ticket))).recipientRandHash := by
    rw [hcompat.keccak, verifySecretCommitment, decide_eq_true_iff]
  have hchannel := h.channel hcompat ticket.sender ticket.recipient
  rw [← h.round hcompat]
  constructor
  · rintro ⟨-, -, hs, hp⟩
    exact
      { unlocked := h.unlocked.2.2
        opened := hs.opened
        price := hs.price
        index := hs.index
        signed := (hcompat.signers ticket senderSig).mp hs.signed
        revealed := hrevealed.mp hs.revealed
        drawn := hdrawn.mpr hs.drawn
        payable := hchannel ▸ ⟨hp.sound, hp.covered, hp.inRange, haffordable.mp hp.affordable⟩ }
  · intro hs
    have hp := hchannel ▸ hs.payable
    exact
      { unlocked := h.unlocked.2.1
        unpaused := h.unpaused.2
        settleable :=
          { opened := hs.opened
            quiet := disputePending_of_noResolver h.noResolver _ _
            price := hs.price
            index := hs.index
            unused := h.unused hticket hs.opened
            signed := (hcompat.signers ticket senderSig).mpr hs.signed
            revealed := hrevealed.mpr hs.revealed
            drawn := hdrawn.mp hs.drawn }
        payable := ⟨h.authorized, h.unlocked.1, h.unpaused.1, hp.sound, hp.covered, hp.inRange,
          haffordable.mpr hp.affordable⟩ }

/-- Settling marks a ticket and its round. -/
lemma Matches.used_settle (hT : Set.InjOn (roundTicketHash d.entropy) T) (h : Matches d T w v)
    (hticket : ticket ∈ T) :
    let key := Settlement.roundKey d (ticketRound ticket)
    ∀ t ∈ T, update w.engine.usedTickets (roundTicketHash d.entropy ticket) true
          (roundTicketHash d.entropy t) = true →
        (update w.engine.rounds key { w.engine.rounds key with status := .settled }
          (Settlement.roundKey d (ticketRound t))).status = .settled := by
  intro key t ht hused
  by_cases hkey : Settlement.roundKey d (ticketRound t) = key
  · rw [hkey, update_self]
  · have hhash : roundTicketHash d.entropy t ≠ roundTicketHash d.entropy ticket := fun heq =>
      hkey (by rw [hT ht hticket heq])
    rw [update_of_ne hhash] at hused
    rw [update_of_ne hkey]
    exact h.used t ht hused

section

variable (hcompat : Compatible d b) (hT : Set.InjOn (roundTicketHash d.entropy) T)
  (h : Matches d T w v)

include hcompat hT h

lemma settle_agree (hticket : ticketInRange ticket = true → ticket ∈ T)
    (hrefused : Request.Refused d b ⟨m, .settleRound ticket senderSig secret, accepts⟩) :
    Agree (Matches d T) (modularStep d ⟨m, .settleRound ticket senderSig secret, accepts⟩ w)
      (brokerStep b ⟨m, .settleRound ticket senderSig secret, accepts⟩ v) := by
  refine Prog.Checks.agree_of_payment (engine_checks rfl
      (Settlement.settleRound_checks d m (fun _ _ => none) ..))
    (broker_checks (Broker.settleRound_checks b m (v.credit m.value) ticket senderSig secret))
    rfl rfl rfl rfl (fun haccepts => and_congr_right fun hdecodes => ?_) (fun hpass => ?_)
    (fun hpass => ?_)
  · rw [show m.value = 0 from hdecodes.2 rfl]
    exact settles_iff hcompat h (hticket hdecodes.1) (affordable_iff h hrefused haccepts _ 0)
  · rw [show m.value = 0 from hpass.1.2 rfl]
    show w.channel.balance - _ = v.balance - (v.balance - _)
    rw [← h.balance]
    rfl
  · rw [show m.value = 0 from hpass.1.2 rfl]
    exact { h with
      channels := h.update_channel hcompat ticket.sender ticket.recipient fun ch =>
        { ch with settledAmount := ch.settledAmount + ticket.faceValue }
      rounds := by
        show update w.engine.rounds _ _ = update v.rounds _ _
        rw [roundKey_eq hcompat, h.rounds]
        rfl
      balance := congrArg (· - ticket.faceValue) h.balance
      unlocked := ⟨rfl, rfl, rfl⟩
      used := h.used_settle hT (hticket hpass.1.1) }

/-- **One call.** -/
theorem step_agree (hrefused : r.Refused d b)
    (hpresented : ∀ ticket senderSig secret, r.op = .settleRound ticket senderSig secret →
      ticketInRange ticket = true → ticket ∈ T) :
    Agree (Matches d T) (modularStep d r w) (brokerStep b r v) := by
  obtain ⟨m, op, accepts⟩ := r
  cases op with
  | openChannel recipient =>
    exact deposit_agree hcompat h rfl (fun _ => rfl) fun _ => rfl
  | depositToChannel recipient =>
    exact deposit_agree hcompat h rfl (fun _ => rfl) fun _ => rfl
  | initiateChannelUnlock recipient => exact unlock_agree hcompat h
  | withdrawChannel recipient => exact withdraw_agree hcompat h hrefused
  | commitRoundSecret sender roundId tau faceValue hash => exact commit_agree hcompat h
  | settleRound ticket senderSig secret =>
    exact settle_agree hcompat hT h (hpresented ticket _ secret rfl) hrefused

end

end Calls

/-! ## Every sequence of calls -/

/-- **Refinement.** Given the same requests, the modular contracts and the
broker succeed on the same ones, pay the same amounts to the same accounts,
and end with the same channels and rounds. In the state reached, a ticket
that is presented for an open round has not been marked as used. Hashes
of presented tickets do not collide. -/
theorem modular_refines_broker (d : Settlement.Deployment) (b : Broker.Deployment)
    (owner : Address) (requests : List Request) (hcompat : Compatible d b)
    (hrefused : ∀ r ∈ requests, r.Refused d b)
    (hhashes : Set.InjOn (roundTicketHash d.entropy) (presented requests)) :
    let modular := replay (modularStep d) requests (wired d owner)
    let broker := replay (brokerStep b) requests .init
    modular.1 = broker.1
      ∧ modular.2.channel.channels = broker.2.channels
      ∧ modular.2.engine.rounds = broker.2.rounds
      ∧ ∀ ticket ∈ presented requests,
        (modular.2.engine.rounds (Settlement.roundKey d (ticketRound ticket))).status = .opened →
          modular.2.engine.usedTickets (roundTicketHash d.entropy ticket) = false := by
  intro modular broker
  have hstep : ∀ r ∈ requests, ∀ w v, Matches d (presented requests) w v →
      Agree (Matches d (presented requests)) (modularStep d r w) (brokerStep b r v) := by
    intro r hr w v h
    refine step_agree hcompat hhashes h (hrefused r hr) fun ticket senderSig secret hop hin => ?_
    exact ⟨hin, r, hr, senderSig, secret, hop⟩
  obtain ⟨hyields, hmatches⟩ := replay_agree hstep (matches_wired ..)
  exact ⟨hyields, hmatches.channels, hmatches.rounds,
    fun ticket hticket hopened => hmatches.unused hticket hopened⟩

def sampleBroker : Broker.Deployment := { Settlement.drawSample.entropy with self := 0xb40 }

lemma sampleBroker_compatible : Compatible Settlement.drawSample sampleBroker where
  keccak := rfl
  blocks := rfl
  signers := by
    -- Every signature of 65 bytes is one of account 1, under any hash.
    intro ticket sig
    have hany : ∀ h h', recoverSigner Settlement.drawSample.entropy h sig
        = recoverSigner sampleBroker h' sig := fun _ _ => rfl
    rw [Broker.recoverSigner, hany]

/-- Accounts other than the two contracts accept payments. -/
def sampleRequest (sender : Address) (value number : Nat) (op : Op) : Request :=
  ⟨⟨sender, value, 0, number⟩, op, fun payee => payee ≠ 0xc4a ∧ payee ≠ 0xb40⟩

/-- A round is settled, settled again in vain, and the client leaves with
the rest. -/
def settledRound : List Request :=
  [sampleRequest 1 20 95 (.openChannel 2),
    sampleRequest 2 0 100 (.commitRoundSecret 1 3 10 5 77),
    sampleRequest 2 0 120 (.settleRound Settlement.drawnTicket Settlement.sampleSig 77),
    sampleRequest 2 0 120 (.settleRound Settlement.drawnTicket Settlement.sampleSig 77),
    sampleRequest 1 0 121 (.initiateChannelUnlock 2),
    sampleRequest 1 0 7321 (.withdrawChannel 2)]

set_option maxRecDepth 8192 in
theorem modular_refines_broker_settled :
    Settlement.exec Settlement.drawSample
      { msg := ⟨9, 0, 0, 0⟩
        call := .channel (.setPayoutEngine Settlement.drawSample.engine true) } (.init 9)
      = .done (wired Settlement.drawSample 9)
    ∧ (replay (modularStep Settlement.drawSample) settledRound (wired Settlement.drawSample 9)).1
      = [some [], some [], some [(2, 5)], none, some [], some [(1, 15)]]
    ∧ (replay (brokerStep sampleBroker) settledRound .init).1
      = [some [], some [], some [(2, 5)], none, some [], some [(1, 15)]] := by
  have hpresented : ∀ ticket ∈ presented settledRound, ticket = Settlement.drawnTicket := by
    rintro ticket ⟨-, r, hr, senderSig, secret, hop⟩
    simp only [settledRound, mem_cons, not_mem_nil, or_false] at hr
    rcases hr with rfl | rfl | rfl | rfl | rfl | rfl <;> cases hop
    · rfl
    · rfl
  have hrefused : ∀ r ∈ settledRound, r.Refused Settlement.drawSample sampleBroker := by
    intro r hr
    simp only [settledRound, mem_cons, not_mem_nil, or_false] at hr
    rcases hr with rfl | rfl | rfl | rfl | rfl | rfl <;> exact ⟨rfl, rfl⟩
  have hbroker : (replay (brokerStep sampleBroker) settledRound .init).1
      = [some [], some [], some [(2, 5)], none, some [], some [(1, 15)]] := rfl
  obtain ⟨hyields, -⟩ := modular_refines_broker Settlement.drawSample sampleBroker 9 settledRound
    sampleBroker_compatible hrefused
    fun t ht u hu _ => (hpresented t ht).trans (hpresented u hu).symm
  exact ⟨rfl, hyields.trans hbroker, hbroker⟩

end Cipher.Refinement
