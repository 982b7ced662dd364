import Cipher.Broker
import Cipher.ChannelChecks

/-!
# What the broker checks

The functions of `CipherBroker` that the modular contracts took over make
their checks and then go on in one way (`Prog.Checks`), as the functions
of the modular contracts do.
-/

namespace Cipher.Broker

open Bytes Evm Raffle
open PaymentChannel (Channel Sound held remaining_eq_some)
open Settlement (Round RoundId ticketRound)

variable (d : Deployment) (m : Msg) (w : World)

/-- What is left of a call once its payee has returned. -/
def afterTransfer (event : Event) : Bool → World → Prog World Error :=
  Prog.afterCall .transferFailed fun w => .done { w.emit event with locked := false }

/-! ## Deposits and announcements -/

/-- The checks of `openChannel` and `depositToChannel`. -/
structure Depositable (recipient : Address) : Prop where
  value : m.value ≠ 0
  inRange : (w.channels (channelKey d m.sender recipient)).totalDeposited + m.value < 2 ^ 256

section

variable (recipient : Address)

def World.deposited : World :=
  let key := channelKey d m.sender recipient
  w.setChannel key
    { w.channels key with totalDeposited := (w.channels key).totalDeposited + m.value }

lemma deposit_checks (event : Address → Address → Nat → Event) :
    Prog.Checks (Depositable d m w recipient)
      (.done ((w.deposited d m recipient).emit (event m.sender recipient m.value)))
      (deposit d m recipient event w) := by
  refine .guard (fun h => h.value) fun hvalue => ?_
  refine .checked add256_eq_some (fun h => h.inRange) fun hrange => ?_
  exact .pass ⟨hvalue, hrange⟩

/-- The checks of `initiateChannelUnlock`. -/
structure Unlockable (recipient : Address) : Prop where
  fresh : (w.channels (channelKey d m.sender recipient)).unlockBlock = 0
  inRange : m.number + channelUnlockPeriod < 2 ^ 256

def World.unlocking : World :=
  let key := channelKey d m.sender recipient
  w.setChannel key { w.channels key with unlockBlock := m.number + channelUnlockPeriod }

lemma initiateChannelUnlock_checks :
    Prog.Checks (Unlockable d m w recipient) (.done ((w.unlocking d m recipient).emit
        (.channelUnlockInitiated m.sender recipient (m.number + channelUnlockPeriod))))
      (initiateChannelUnlock d m recipient w) := by
  unfold initiateChannelUnlock
  refine .guard (fun h => not_not.mpr h.fresh) fun hfresh => ?_
  split
  · rename_i hnone
    exact .fail fun h => by rw [add256_of_lt h.inRange] at hnone; cases hnone
  rename_i unlockBlock hadd
  obtain ⟨hrange, rfl⟩ := add256_eq_some.mp hadd
  exact .pass ⟨not_not.mp hfresh, hrange⟩

/-! ## Payments -/

/-- The checks of `withdrawChannel`. -/
structure Withdrawable (ch : Channel) : Prop where
  unlocked : w.locked = false
  announced : ch.unlockBlock ≠ 0
  due : ch.unlockBlock ≤ m.number
  sound : Sound ch
  some : held ch ≠ 0
  inRange : ch.withdrawnAmount + held ch < 2 ^ 256
  affordable : Affordable d.self m.sender (held ch) w.balance

/-- The state in which the client gets control. -/
def World.withdrawn : World :=
  let key := channelKey d m.sender recipient
  { w with locked := true }.setChannel key
    { w.channels key with
      withdrawnAmount := (w.channels key).withdrawnAmount + held (w.channels key) }

end

lemma withdrawChannel_checks (recipient : Address) :
    let ch := w.channels (channelKey d m.sender recipient)
    Prog.Checks (Withdrawable d m w ch)
      (.call ((w.withdrawn d m recipient).debit (held ch)) (w.withdrawn d m recipient) m.sender
        (afterTransfer (.channelWithdrawn m.sender recipient (held ch))))
      (withdrawChannel d m recipient w) := by
  intro ch
  refine .guard (fun h => by simp [h.unlocked]) fun hlocked => ?_
  refine .guard_bind (fun h => h.announced) fun hannounced => ?_
  refine .guard_bind (fun h => not_lt.mpr h.due) fun hdue => ?_
  refine .checked_bind remaining_eq_some (fun h => h.sound) fun hsound => ?_
  refine .guard_bind (fun h => h.some) fun hsome => ?_
  refine .checked_bind add256_eq_some (fun h => h.inRange) fun hrange => ?_
  rw [transfer, Prog.pay_bind]
  refine .pay (fun h => h.affordable) fun haffordable => ?_
  exact .pass ⟨by simpa using hlocked, hannounced, not_lt.mp hdue, hsound, hsome, hrange,
    haffordable⟩

/-- The checks of a payout. -/
structure Payable (payee : Address) (amount : Nat) (ch : Channel) : Prop where
  sound : Sound ch
  covered : amount ≤ held ch
  inRange : ch.settledAmount + amount < 2 ^ 256
  affordable : Affordable d.self payee amount w.balance

/-- The state in which the payee gets control. -/
def World.paid (sender recipient : Address) (amount : Nat) : World :=
  let key := channelKey d sender recipient
  w.setChannel key
    { w.channels key with settledAmount := (w.channels key).settledAmount + amount }

/-- The end of a function that pays out, with the lock it holds. -/
lemma payout_checks (sender recipient payee : Address) (amount : Nat) (event : Event) :
    Prog.Checks (Payable d w payee amount (w.channels (channelKey d sender recipient)))
      (.call ((w.paid d sender recipient amount).debit amount) (w.paid d sender recipient amount)
        payee (afterTransfer event))
      ((payout d sender recipient payee amount event w).bind fun w =>
        .done { w with locked := false }) := by
  refine .checked_bind remaining_eq_some (fun h => h.sound) fun hsound => ?_
  refine .guard_bind (fun h => not_lt.mpr h.covered) fun hle => ?_
  refine .checked_bind add256_eq_some (fun h => h.inRange) fun hrange => ?_
  rw [transfer, Prog.pay_bind]
  refine .pay (fun h => h.affordable) fun haffordable => ?_
  exact .pass ⟨hsound, not_lt.mp hle, hrange, haffordable⟩

/-! ## Rounds -/

/-- The checks of `commitRoundSecret`. -/
structure Committable (tau faceValue : Nat) (round : Round) : Prop where
  params : tau ≠ 0 ∧ tau ≤ maxRoundSize ∧ faceValue ≠ 0
  fresh : round.status = .uncommitted

lemma commitRoundSecret_checks (sender : Address) (roundId tau faceValue : Nat) (hash : Bytes32) :
    let id : RoundId := ⟨sender, m.sender, roundId⟩
    Prog.Checks (Committable tau faceValue (w.rounds (roundKey d id)))
      (.done ((w.setRound (roundKey d id) ⟨tau, faceValue, hash, m.number, .opened⟩).emit
        (.roundCommitted id tau faceValue m.number)))
      (commitRoundSecret d m sender roundId tau faceValue hash w) := by
  intro id
  refine .guard (fun h => ?_) fun hparams => ?_
  · obtain ⟨htau, hsize, hface⟩ := h.params
    exact not_or.mpr ⟨htau, not_or.mpr ⟨not_lt.mpr hsize, hface⟩⟩
  refine .guard (fun h => not_not.mpr h.fresh) fun hfresh => ?_
  obtain ⟨htau, hrest⟩ := not_or.mp hparams
  obtain ⟨hsize, hface⟩ := not_or.mp hrest
  exact .pass ⟨⟨htau, not_lt.mp hsize, hface⟩, not_not.mp hfresh⟩

/-- The checks of `settleRound`. -/
structure Settles (ticket : RoundTicket) (senderSig : List UInt8) (secret : Bytes32)
    (round : Round) : Prop where
  unlocked : w.locked = false
  opened : round.status = .opened
  price : ticket.faceValue = round.faceValue
  index : ticket.localIndex < round.tau
  signed : recoverSigner d (roundTicketHash d ticket) senderSig = .ok ticket.sender
  revealed : d.keccak256 (word secret.toNat) = round.recipientRandHash
  drawn : draw d m round secret ticket.roundId = .ok ticket.localIndex
  payable : Payable d w ticket.recipient ticket.faceValue
    (w.channels (channelKey d ticket.sender ticket.recipient))

/-- The state in which the provider gets control. -/
def World.settling (ticket : RoundTicket) : World :=
  let key := roundKey d (ticketRound ticket)
  ({ w with locked := true }.setRound key { w.rounds key with status := .settled }).paid d
    ticket.sender ticket.recipient ticket.faceValue

lemma settleRound_checks (ticket : RoundTicket) (senderSig : List UInt8) (secret : Bytes32) :
    Prog.Checks (Settles d m w ticket senderSig secret (w.rounds (roundKey d (ticketRound ticket))))
      (.call ((w.settling d ticket).debit ticket.faceValue) (w.settling d ticket) ticket.recipient
        (afterTransfer (.roundSettled (ticketRound ticket) ticket.localIndex ticket.faceValue)))
      (settleRound d m ticket senderSig secret w) := by
  refine .guard (fun h => by simp [h.unlocked]) fun hlocked => ?_
  refine .guard_bind (fun h hnone => by cases h.opened.symm.trans hnone) fun _ => ?_
  split
  · rename_i hclosed
    split <;> exact .fail fun h => hclosed h.opened
  rename_i hopen
  refine .guard_bind (fun h => not_not.mpr h.price) fun hprice => ?_
  refine .guard_bind (fun h => not_le.mpr h.index) fun hindex => ?_
  split
  · rename_i herror
    exact .fail fun h => by rw [h.signed] at herror; cases herror
  rename_i signer hsigner
  refine .guard_bind (fun h => not_not.mpr (Except.ok.inj (h.signed.symm.trans hsigner)))
    fun hsigned => ?_
  refine .guard_bind (fun h => not_not.mpr h.revealed) fun hrevealed => ?_
  split
  · rename_i herror
    exact .fail fun h => by rw [h.drawn] at herror; cases herror
  rename_i winnerIndex hwinner
  refine .guard_bind (fun h => not_not.mpr (Except.ok.inj (h.drawn.symm.trans hwinner)))
    fun hdrawn => ?_
  obtain rfl := not_not.mp hsigned
  obtain rfl := not_not.mp hdrawn
  rcases payout_checks .. with ⟨hpay, heq⟩ | ⟨hpay, e, heq⟩
  · rw [heq]
    exact .pass ⟨by simpa using hlocked, not_not.mp hopen, not_not.mp hprice, not_le.mp hindex,
      hsigner, not_not.mp hrevealed, hwinner, { hpay with affordable := { hpay.affordable with } }⟩
  · rw [heq]
    exact .fail fun h =>
      hpay { h.payable with affordable := { h.payable.affordable with } }

end Cipher.Broker
