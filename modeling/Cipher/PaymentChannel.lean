import Cipher.Evm

/-!
# Payment channels

`PaymentChannel.sol`: the storage, one definition per external function,
and `exec`, which decodes and runs a transaction.

`withdrawChannel` and `payoutProvider` hand control to the payee with the
reentrancy lock held; everything else may be called in the meantime. The
modifiers of the source are definitions that take the rest of the
function.
-/

namespace Cipher.PaymentChannel

open Bytes Evm

/-! ## Types -/

structure Channel where
  totalDeposited : Nat
  settledAmount : Nat
  withdrawnAmount : Nat
  unlockBlock : Nat
deriving DecidableEq, Repr

/-- `reentrantCall` is the revert of `ReentrancyGuard`, `enforcedPause` and
`expectedPause` those of `Pausable`; `panic` is Solidity's arithmetic
check and `badCalldata` the ABI decoder with the check for value. -/
inductive Error where
  | zeroDeposit | unlockAlreadyInitiated | unlockNotInitiated | unlockNotComplete
  | nothingToWithdraw | insufficientChannelBalance | transferFailed | unauthorizedCaller
  | reentrantCall | enforcedPause | expectedPause | panic | badCalldata
deriving DecidableEq, Repr

inductive Event where
  | channelOpened (sender recipient : Address) (amount : Nat)
  | channelDeposited (sender recipient : Address) (amount : Nat)
  | channelUnlockInitiated (sender recipient : Address) (unlockBlock : Nat)
  | channelWithdrawn (sender recipient : Address) (amount : Nat)
  | channelPayoutExecuted (sender recipient : Address) (amount : Nat)
  | paused (account : Address)
  | unpaused (account : Address)
deriving DecidableEq, Repr

structure Storage where
  channels : Bytes32 → Channel
  authorizedPayoutEngine : Address → Bool
  owner : Address
  paused : Bool
  locked : Bool

/-- The contract's storage and balance, and the events it emitted (newest
first). -/
structure World extends Storage where
  balance : Nat
  log : List Event

structure Deployment where
  self : Address
  keccak256 : List UInt8 → Bytes32

inductive Call where
  | setPayoutEngine (engine : Address) (authorized : Bool)
  | pause
  | unpause
  | openChannel (recipient : Address)
  | depositToChannel (recipient : Address)
  | initiateChannelUnlock (recipient : Address)
  | withdrawChannel (recipient : Address)
  | payoutProvider (sender recipient : Address) (amount : Nat)
deriving DecidableEq, Repr

structure Tx where
  msg : Msg
  call : Call
deriving DecidableEq, Repr

/-! ## Storage access -/

def blank : Channel := ⟨0, 0, 0, 0⟩

/-- The contract right after deployment by `owner`. -/
def World.init (owner : Address) : World :=
  { channels := fun _ => blank, authorizedPayoutEngine := fun _ => false, owner, paused := false,
    locked := false, balance := 0, log := [] }

namespace World

def setChannel (w : World) (key : Bytes32) (ch : Channel) : World :=
  { w with channels := Function.update w.channels key ch }

def emit (w : World) (e : Event) : World := { w with log := e :: w.log }

def credit (w : World) (value : Nat) : World := { w with balance := w.balance + value }

def debit (w : World) (value : Nat) : World := { w with balance := w.balance - value }

end World

section

variable (d : Deployment)

def getChannelKey (sender recipient : Address) : Bytes32 :=
  d.keccak256 (beBytes 20 sender.toNat ++ beBytes 20 recipient.toNat)

/-- `totalDeposited - settledAmount - withdrawnAmount`. -/
def Channel.remaining (ch : Channel) : Option Nat :=
  (sub256 ch.totalDeposited ch.settledAmount).bind fun n => sub256 n ch.withdrawnAmount

def channelBalance (sender recipient : Address) (s : Storage) : Option Nat :=
  (s.channels (getChannelKey d sender recipient)).remaining

def isUnlockInitiated (sender recipient : Address) (s : Storage) : Bool :=
  (s.channels (getChannelKey d sender recipient)).unlockBlock ≠ 0

/-! ## Modifiers -/

section

variable (m : Msg)

def onlyOwner (w : World) (body : Prog World Error) : Prog World Error :=
  if m.sender ≠ w.owner then .revert .unauthorizedCaller else body

def onlyPayoutEngine (w : World) (body : Prog World Error) : Prog World Error :=
  if !w.authorizedPayoutEngine m.sender then .revert .unauthorizedCaller else body

def whenNotPaused (w : World) (body : Prog World Error) : Prog World Error :=
  if w.paused then .revert .enforcedPause else body

def nonReentrant (w : World) (body : World → Prog World Error) : Prog World Error :=
  if w.locked then .revert .reentrantCall
  else (body { w with locked := true }).bind fun w => .done { w with locked := false }

def transfer (payee : Address) (amount : Nat) (w : World)
    (k : World → Prog World Error) : Prog World Error :=
  .pay d.self payee amount World.balance World.debit .transferFailed w k

/-! ## External functions -/

def channelUnlockPeriod : Nat := 7200

def setPayoutEngine (engine : Address) (authorized : Bool) (w : World) : Prog World Error :=
  onlyOwner m w <|
    .done { w with
      authorizedPayoutEngine := Function.update w.authorizedPayoutEngine engine authorized }

def pause (w : World) : Prog World Error :=
  onlyOwner m w <| whenNotPaused w <| .done ({ w with paused := true }.emit (.paused m.sender))

def unpause (w : World) : Prog World Error :=
  onlyOwner m w <|
    if !w.paused then .revert .expectedPause
    else .done ({ w with paused := false }.emit (.unpaused m.sender))

/-- Opening a channel and topping it up differ in the event. -/
def deposit (recipient : Address)
    (event : Address → Address → Nat → Event) (w : World) : Prog World Error :=
  whenNotPaused w <|
    if m.value = 0 then .revert .zeroDeposit
    else
      let key := getChannelKey d m.sender recipient
      let ch := w.channels key
      match add256 ch.totalDeposited m.value with
      | none => .revert .panic
      | some totalDeposited =>
        .done ((w.setChannel key { ch with totalDeposited }).emit
          (event m.sender recipient m.value))

def openChannel (recipient : Address) (w : World) : Prog World Error :=
  deposit d m recipient .channelOpened w

def depositToChannel (recipient : Address) (w : World) : Prog World Error :=
  deposit d m recipient .channelDeposited w

def initiateChannelUnlock (recipient : Address) (w : World) : Prog World Error :=
  whenNotPaused w <|
    let key := getChannelKey d m.sender recipient
    let ch := w.channels key
    if ch.unlockBlock ≠ 0 then .revert .unlockAlreadyInitiated
    else match add256 m.number channelUnlockPeriod with
      | none => .revert .panic
      | some unlockBlock =>
        .done ((w.setChannel key { ch with unlockBlock }).emit
          (.channelUnlockInitiated m.sender recipient unlockBlock))

def withdrawChannel (recipient : Address) (w : World) : Prog World Error :=
  nonReentrant w fun w => whenNotPaused w <|
    let key := getChannelKey d m.sender recipient
    let ch := w.channels key
    if ch.unlockBlock = 0 then .revert .unlockNotInitiated
    else if ch.unlockBlock > m.number then .revert .unlockNotComplete
    else match ch.remaining with
      | none => .revert .panic
      | some remaining =>
        if remaining = 0 then .revert .nothingToWithdraw
        else match add256 ch.withdrawnAmount remaining with
          | none => .revert .panic
          | some withdrawnAmount =>
            transfer d m.sender remaining (w.setChannel key { ch with withdrawnAmount }) fun w =>
            .done (w.emit (.channelWithdrawn m.sender recipient remaining))

def payoutProvider (sender recipient : Address) (amount : Nat)
    (w : World) : Prog World Error :=
  onlyPayoutEngine m w <| nonReentrant w fun w => whenNotPaused w <|
    let key := getChannelKey d sender recipient
    let ch := w.channels key
    match ch.remaining with
    | none => .revert .panic
    | some available =>
      if amount > available then .revert .insufficientChannelBalance
      else match add256 ch.settledAmount amount with
        | none => .revert .panic
        | some settledAmount =>
          transfer d recipient amount (w.setChannel key { ch with settledAmount }) fun w =>
          .done (w.emit (.channelPayoutExecuted sender recipient amount))

/-! ## Transactions -/

def Call.inRange : Call → Bool
  | .payoutProvider _ _ amount => amount < 2 ^ 256
  | _ => true

def Call.payable : Call → Bool
  | .openChannel _ | .depositToChannel _ => true
  | _ => false

def dispatch (w : World) : Call → Prog World Error
  | .setPayoutEngine engine authorized => setPayoutEngine m engine authorized w
  | .pause => pause m w
  | .unpause => unpause m w
  | .openChannel recipient => openChannel d m recipient w
  | .depositToChannel recipient => depositToChannel d m recipient w
  | .initiateChannelUnlock recipient => initiateChannelUnlock d m recipient w
  | .withdrawChannel recipient => withdrawChannel d m recipient w
  | .payoutProvider sender recipient amount => payoutProvider d m sender recipient amount w

end

def exec (tx : Tx) (w : World) : Prog World Error :=
  if !tx.call.inRange ∨ (!tx.call.payable ∧ tx.msg.value ≠ 0) then .revert .badCalldata
  else dispatch d tx.msg (w.credit tx.msg.value) tx.call

end

end Cipher.PaymentChannel
