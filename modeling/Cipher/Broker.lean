import Cipher.Settlement

/-!
# The original broker

`Protocol_Raffle.sol`: the contract `CipherBroker`, which the modular
contracts were split from. It keeps stakes, channels and rounds in one
storage, pays single tickets (`claimWinningTicket`) as well as the drawn
ticket of a round, and knows neither pausing nor disputes. The structs of
channels, rounds and round tickets are those of the modular contracts.
-/

namespace Cipher.Broker

open Bytes Evm Raffle Function
open PaymentChannel (Channel)
open Settlement (Round RoundId ticketRound ticketInRange)

/-! ## Types -/

structure Provider where
  stake : Nat
  unstakeReleaseBlock : Nat
  registered : Bool
deriving DecidableEq, Repr

structure Ticket where
  sender : Address
  recipient : Address
  faceValue : Nat
  winProb : Nat
  senderNonce : Nat
  creationBlock : Nat
  recipientRandHash : Bytes32
deriving DecidableEq, Repr

inductive Error where
  | insufficientStake | notRegistered | unstakeAlreadyRequested | unstakeNotRequested
  | unbondingNotComplete | zeroDeposit | unlockAlreadyInitiated | unlockNotInitiated
  | unlockNotComplete | nothingToWithdraw | ticketAlreadyUsed | notRecipient | invalidSecret
  | invalidSignature | tooEarly | ticketExpired | blockhashUnavailable | notAWinner
  | insufficientChannelBalance | transferFailed | roundAlreadyCommitted | roundNotCommitted
  | invalidRoundParams | roundNotYetDrawable | roundDrawExpired | notWinningIndex
  | roundNotOpen | roundIsVoided | ecdsa (e : Raffle.Error) | reentrantCall | panic
  | badCalldata
deriving DecidableEq, Repr

inductive Event where
  | providerRegistered (provider : Address) (totalStake : Nat)
  | providerUnstakeRequested (provider : Address) (releaseBlock : Nat)
  | providerStakeWithdrawn (provider : Address) (amount : Nat)
  | channelOpened (sender recipient : Address) (amount : Nat)
  | channelDeposited (sender recipient : Address) (amount : Nat)
  | channelUnlockInitiated (sender recipient : Address) (unlockBlock : Nat)
  | channelWithdrawn (sender recipient : Address) (amount : Nat)
  | ticketClaimed (ticketId : Bytes32) (sender recipient : Address) (faceValue : Nat)
  | roundCommitted (id : RoundId) (tau faceValue commitBlock : Nat)
  | roundSettled (id : RoundId) (winningLocalIndex faceValue : Nat)
deriving DecidableEq, Repr

structure World where
  providers : Address → Provider
  channels : Bytes32 → Channel
  usedTickets : Bytes32 → Bool
  rounds : Bytes32 → Round
  locked : Bool
  balance : Nat
  log : List Event

/-- The contract's address and the functions of its chain. -/
abbrev Deployment := Entropy

inductive Call where
  | registerProvider
  | requestUnstake
  | withdrawStake
  | openChannel (recipient : Address)
  | depositToChannel (recipient : Address)
  | initiateChannelUnlock (recipient : Address)
  | withdrawChannel (recipient : Address)
  | claimWinningTicket (ticket : Ticket) (senderSig : List UInt8) (secret : Bytes32)
  | commitRoundSecret (sender : Address) (roundId tau faceValue : Nat)
      (recipientRandHash : Bytes32)
  | settleRound (ticket : RoundTicket) (senderSig : List UInt8) (secret : Bytes32)
deriving DecidableEq, Repr

structure Tx where
  msg : Msg
  call : Call
deriving DecidableEq, Repr

/-! ## Storage access -/

def World.init : World :=
  { providers := fun _ => ⟨0, 0, false⟩, channels := fun _ => PaymentChannel.blank,
    usedTickets := fun _ => false, rounds := fun _ => Settlement.blankRound, locked := false,
    balance := 0, log := [] }

namespace World

def setProvider (w : World) (who : Address) (p : Provider) : World :=
  { w with providers := update w.providers who p }

def setChannel (w : World) (key : Bytes32) (ch : Channel) : World :=
  { w with channels := update w.channels key ch }

def setRound (w : World) (key : Bytes32) (round : Round) : World :=
  { w with rounds := update w.rounds key round }

def emit (w : World) (e : Event) : World := { w with log := e :: w.log }

def credit (w : World) (value : Nat) : World := { w with balance := w.balance + value }

def debit (w : World) (value : Nat) : World := { w with balance := w.balance - value }

end World

section

variable (d : Deployment)

/-- `_channelKey`. -/
def channelKey (sender recipient : Address) : Bytes32 :=
  d.keccak256 (beBytes 20 sender.toNat ++ beBytes 20 recipient.toNat)

/-- `_roundKey` of the round's channel. -/
def roundKey (id : RoundId) : Bytes32 :=
  d.keccak256 (word (channelKey d id.sender id.recipient).toNat ++ word id.roundId)

def minProviderStake : Nat := 10 ^ 18

def unbondingPeriod : Nat := 7200

def channelUnlockPeriod : Nat := 7200

def confirmationDelay : Nat := 15

def maxBlockhashWindow : Nat := 256

def maxRoundSize : Nat := 10000

def nonReentrant (w : World) (body : World → Prog World Error) : Prog World Error :=
  if w.locked then .revert .reentrantCall
  else (body { w with locked := true }).bind fun w => .done { w with locked := false }

def transfer (payee : Address) (amount : Nat) (w : World)
    (k : World → Prog World Error) : Prog World Error :=
  .pay d.self payee amount World.balance World.debit .transferFailed w k

/-! ## Providers -/

section

variable (m : Msg)

def registerProvider (w : World) : Prog World Error :=
  let p := w.providers m.sender
  match add256 p.stake m.value with
  | none => .revert .panic
  | some stake =>
    if stake < minProviderStake then .revert .insufficientStake
    else .done ((w.setProvider m.sender
      { stake, registered := true, unstakeReleaseBlock := 0 }).emit
      (.providerRegistered m.sender stake))

def requestUnstake (w : World) : Prog World Error :=
  let p := w.providers m.sender
  if !p.registered then .revert .notRegistered
  else if p.unstakeReleaseBlock ≠ 0 then .revert .unstakeAlreadyRequested
  else match add256 m.number unbondingPeriod with
    | none => .revert .panic
    | some unstakeReleaseBlock =>
      .done ((w.setProvider m.sender { p with unstakeReleaseBlock }).emit
        (.providerUnstakeRequested m.sender unstakeReleaseBlock))

/-- The stake is paid first and written off afterwards. -/
def withdrawStake (w : World) : Prog World Error :=
  nonReentrant w fun w =>
    let p := w.providers m.sender
    if p.unstakeReleaseBlock = 0 then .revert .unstakeNotRequested
    else if p.unstakeReleaseBlock > m.number then .revert .unbondingNotComplete
    else
      let amount := p.stake
      transfer d m.sender amount w fun w =>
        .done ((w.setProvider m.sender
          { stake := 0, registered := false, unstakeReleaseBlock := 0 }).emit
          (.providerStakeWithdrawn m.sender amount))

/-! ## Channels -/

/-- Opening a channel and topping it up differ in the event. -/
def deposit (recipient : Address)
    (event : Address → Address → Nat → Event) (w : World) : Prog World Error :=
  if m.value = 0 then .revert .zeroDeposit
  else
    let key := channelKey d m.sender recipient
    let ch := w.channels key
    match add256 ch.totalDeposited m.value with
    | none => .revert .panic
    | some totalDeposited =>
      .done ((w.setChannel key { ch with totalDeposited }).emit
        (event m.sender recipient m.value))

def openChannel (recipient : Address) (w : World) : Prog World Error :=
  deposit d m recipient .channelOpened w

def depositToChannel (recipient : Address) (w : World) : Prog World Error :=
  deposit d m recipient .channelDeposited w

def initiateChannelUnlock (recipient : Address) (w : World) : Prog World Error :=
  let key := channelKey d m.sender recipient
  let ch := w.channels key
  if ch.unlockBlock ≠ 0 then .revert .unlockAlreadyInitiated
  else match add256 m.number channelUnlockPeriod with
    | none => .revert .panic
    | some unlockBlock =>
      .done ((w.setChannel key { ch with unlockBlock }).emit
        (.channelUnlockInitiated m.sender recipient unlockBlock))

def withdrawChannel (recipient : Address) (w : World) : Prog World Error :=
  nonReentrant w fun w =>
    let key := channelKey d m.sender recipient
    let ch := w.channels key
    if ch.unlockBlock = 0 then .revert .unlockNotInitiated
    else if ch.unlockBlock > m.number then .revert .unlockNotComplete
    else match ch.remaining with
      | none => .revert .panic
      | some remaining =>
        if remaining = 0 then .revert .nothingToWithdraw
        else match add256 ch.withdrawnAmount remaining with
          | none => .revert .panic
          | some withdrawnAmount =>
            transfer d m.sender remaining (w.setChannel key { ch with withdrawnAmount }) fun w =>
            .done (w.emit (.channelWithdrawn m.sender recipient remaining))

/-- The last steps of both kinds of payout: the check of the channel's
balance, the booking and the payment. `settleRound` writes the round
between the check and the booking, `claimWinningTicket` marks the ticket
before the check; here both writes come first, and a failed check undoes
them. -/
def payout (sender recipient payee : Address) (amount : Nat) (event : Event)
    (w : World) : Prog World Error :=
  let key := channelKey d sender recipient
  let ch := w.channels key
  match ch.remaining with
  | none => .revert .panic
  | some available =>
    if amount > available then .revert .insufficientChannelBalance
    else match add256 ch.settledAmount amount with
      | none => .revert .panic
      | some settledAmount =>
        transfer d payee amount (w.setChannel key { ch with settledAmount }) fun w =>
        .done (w.emit event)

/-! ## Tickets -/

def ticketHash (t : Ticket) : Bytes32 :=
  d.keccak256 (abiEncode
    [d.self.toNat, d.chainid, t.sender.toNat, t.recipient.toNat, t.faceValue, t.winProb,
      t.senderNonce, t.creationBlock, t.recipientRandHash.toNat])

/-- `roundTicketHashFunc`. -/
def roundTicketHash (ticket : RoundTicket) : Bytes32 :=
  d.keccak256 (abiEncode
    [d.self.toNat, d.chainid, ticket.sender.toNat, ticket.recipient.toNat, ticket.faceValue,
      ticket.winProb, ticket.senderNonce, ticket.roundId, ticket.localIndex])

/-- `_recoverSigner`. -/
def recoverSigner (tHash : Bytes32) (sig : List UInt8) : Except Raffle.Error Address :=
  Raffle.recoverSigner d
    (d.keccak256 (ascii "\x19Ethereum Signed Message:\n32" ++ word tHash.toNat)) sig

def claimWinningTicket (ticket : Ticket) (senderSig : List UInt8)
    (secret : Bytes32) (w : World) : Prog World Error :=
  nonReentrant w fun w =>
    if m.sender ≠ ticket.recipient then .revert .notRecipient
    else
      let tHash := ticketHash d ticket
      if w.usedTickets tHash then .revert .ticketAlreadyUsed
      else match recoverSigner d tHash senderSig with
      | .error e => .revert (.ecdsa e)
      | .ok signer =>
        if ticket.sender ≠ signer then .revert .invalidSignature
        else if d.keccak256 (word secret.toNat) ≠ ticket.recipientRandHash then
          .revert .invalidSecret
        else match add256 ticket.creationBlock confirmationDelay with
        | none => .revert .panic
        | some targetBlock =>
          if m.number < targetBlock then .revert .tooEarly
          else match add256 ticket.creationBlock maxBlockhashWindow with
          | none => .revert .panic
          | some lastBlock =>
            if m.number > lastBlock then .revert .ticketExpired
            else
              let bh := blockhash d m targetBlock
              if bh = 0 then .revert .blockhashUnavailable
              else if (d.keccak256 (word bh.toNat ++ word ticket.senderNonce
                  ++ word secret.toNat)).toNat ≥ ticket.winProb then
                .revert .notAWinner
              else
                payout d ticket.sender ticket.recipient m.sender ticket.faceValue
                  (.ticketClaimed tHash ticket.sender ticket.recipient ticket.faceValue)
                  { w with usedTickets := update w.usedTickets tHash true }

/-! ## Rounds -/

def commitRoundSecret (sender : Address)
    (roundId tau faceValue : Nat) (recipientRandHash : Bytes32) (w : World) : Prog World Error :=
  let id : RoundId := ⟨sender, m.sender, roundId⟩
  if tau = 0 ∨ tau > maxRoundSize ∨ faceValue = 0 then .revert .invalidRoundParams
  else if (w.rounds (roundKey d id)).status ≠ .uncommitted then .revert .roundAlreadyCommitted
  else
    .done ((w.setRound (roundKey d id)
      { tau, faceValue, recipientRandHash, commitBlock := m.number, status := .opened }).emit
      (.roundCommitted id tau faceValue m.number))

/-- `_computeWinnerIndex`; the remainder by zero panics. -/
def computeWinnerIndex (bh secret : Bytes32) (roundId tau : Nat) : Except Error Nat :=
  if tau = 0 then .error .panic
  else .ok ((d.keccak256 (word bh.toNat ++ word secret.toNat ++ word roundId)).toNat % tau)

/-- The timing of a draw, and the draw. -/
def draw (round : Round) (secret : Bytes32) (roundId : Nat) : Except Error Nat :=
  match add256 round.commitBlock confirmationDelay with
  | none => .error .panic
  | some targetBlock =>
    if m.number < targetBlock then .error .roundNotYetDrawable
    else match add256 round.commitBlock maxBlockhashWindow with
    | none => .error .panic
    | some lastBlock =>
      if m.number > lastBlock then .error .roundDrawExpired
      else
        let bh := blockhash d m targetBlock
        if bh = 0 then .error .blockhashUnavailable
        else computeWinnerIndex d bh secret roundId round.tau

def settleRound (ticket : RoundTicket) (senderSig : List UInt8)
    (secret : Bytes32) (w : World) : Prog World Error :=
  nonReentrant w fun w =>
    let key := roundKey d (ticketRound ticket)
    let round := w.rounds key
    if round.status = .uncommitted then .revert .roundNotCommitted
    else if round.status ≠ .opened then
      if round.status = .voided then .revert .roundIsVoided else .revert .roundNotOpen
    else if ticket.faceValue ≠ round.faceValue then .revert .invalidRoundParams
    else if ticket.localIndex ≥ round.tau then .revert .invalidRoundParams
    else match recoverSigner d (roundTicketHash d ticket) senderSig with
    | .error e => .revert (.ecdsa e)
    | .ok signer =>
      if ticket.sender ≠ signer then .revert .invalidSignature
      else if d.keccak256 (word secret.toNat) ≠ round.recipientRandHash then
        .revert .invalidSecret
      else match draw d m round secret ticket.roundId with
      | .error e => .revert e
      | .ok winnerIndex =>
        if ticket.localIndex ≠ winnerIndex then .revert .notWinningIndex
        else
          payout d ticket.sender ticket.recipient ticket.recipient ticket.faceValue
            (.roundSettled (ticketRound ticket) ticket.localIndex ticket.faceValue)
            (w.setRound key { round with status := .settled })

/-! ## Transactions -/

def Call.inRange : Call → Bool
  | .claimWinningTicket t _ _ =>
    t.faceValue < 2 ^ 256 && t.winProb < 2 ^ 256 && t.senderNonce < 2 ^ 256
      && t.creationBlock < 2 ^ 256
  | .commitRoundSecret _ roundId tau faceValue _ =>
    roundId < 2 ^ 256 && tau < 2 ^ 256 && faceValue < 2 ^ 256
  | .settleRound ticket _ _ => ticketInRange ticket
  | _ => true

def Call.payable : Call → Bool
  | .registerProvider | .openChannel _ | .depositToChannel _ => true
  | _ => false

def dispatch (w : World) : Call → Prog World Error
  | .registerProvider => registerProvider m w
  | .requestUnstake => requestUnstake m w
  | .withdrawStake => withdrawStake d m w
  | .openChannel recipient => openChannel d m recipient w
  | .depositToChannel recipient => depositToChannel d m recipient w
  | .initiateChannelUnlock recipient => initiateChannelUnlock d m recipient w
  | .withdrawChannel recipient => withdrawChannel d m recipient w
  | .claimWinningTicket ticket senderSig secret =>
    claimWinningTicket d m ticket senderSig secret w
  | .commitRoundSecret sender roundId tau faceValue recipientRandHash =>
    commitRoundSecret d m sender roundId tau faceValue recipientRandHash w
  | .settleRound ticket senderSig secret => settleRound d m ticket senderSig secret w

end

def exec (tx : Tx) (w : World) : Prog World Error :=
  if !tx.call.inRange ∨ (!tx.call.payable ∧ tx.msg.value ≠ 0) then .revert .badCalldata
  else dispatch d tx.msg (w.credit tx.msg.value) tx.call

end

end Cipher.Broker
