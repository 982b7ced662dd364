import Cipher.Evm

/-!
# The provider registry

`ProviderRegistry.sol`: stakes, their unbonding and slashing. The
interface of the module is that of `PaymentChannel`: a world, one
definition per external function, and `exec`.
-/

namespace Cipher.ProviderRegistry

open Evm

structure Provider where
  stake : Nat
  unstakeReleaseBlock : Nat
  pendingUnstakeAmount : Nat
  registered : Bool
deriving DecidableEq, Repr

inductive Error where
  | insufficientStake | notRegistered | unstakeAlreadyRequested | unstakeNotRequested
  | unbondingNotComplete | transferFailed | unauthorizedCaller | invalidAmount
  | reentrantCall | panic | badCalldata
deriving DecidableEq, Repr

inductive Event where
  | providerRegistered (provider : Address) (totalStake : Nat)
  | providerUnstakeRequested (provider : Address) (releaseBlock amount : Nat)
  | providerStakeWithdrawn (provider : Address) (amount : Nat)
  | providerSlashed (provider : Address) (amount : Nat) (reasonId : Bytes32)
deriving DecidableEq, Repr

structure World where
  providers : Address → Provider
  authorizedSlashers : Address → Bool
  owner : Address
  locked : Bool
  balance : Nat
  log : List Event

structure Deployment where
  self : Address

inductive Call where
  | setSlasher (slasher : Address) (authorized : Bool)
  | registerProvider
  | requestUnstake
  | requestPartialUnstake (amount : Nat)
  | withdrawStake
  | slashProvider (provider : Address) (amount : Nat) (reasonId : Bytes32)
deriving DecidableEq, Repr

structure Tx where
  msg : Msg
  call : Call
deriving DecidableEq, Repr

def blank : Provider := ⟨0, 0, 0, false⟩

def World.init (owner : Address) : World :=
  { providers := fun _ => blank, authorizedSlashers := fun _ => false, owner, locked := false,
    balance := 0, log := [] }

namespace World

def setProvider (w : World) (who : Address) (p : Provider) : World :=
  { w with providers := Function.update w.providers who p }

def emit (w : World) (e : Event) : World := { w with log := e :: w.log }

def credit (w : World) (value : Nat) : World := { w with balance := w.balance + value }

def debit (w : World) (value : Nat) : World := { w with balance := w.balance - value }

end World

def minProviderStake : Nat := 10 ^ 18

def unbondingPeriod : Nat := 7200

/-! ## External functions -/

def setSlasher (m : Msg) (slasher : Address) (authorized : Bool) (w : World) : Prog World Error :=
  if m.sender ≠ w.owner then .revert .unauthorizedCaller
  else .done { w with
    authorizedSlashers := Function.update w.authorizedSlashers slasher authorized }

def registerProvider (m : Msg) (w : World) : Prog World Error :=
  let p := w.providers m.sender
  match add256 p.stake m.value with
  | none => .revert .panic
  | some stake =>
    if stake < minProviderStake then .revert .insufficientStake
    else .done ((w.setProvider m.sender { p with stake, registered := true }).emit
      (.providerRegistered m.sender stake))

def requestUnstake (m : Msg) (w : World) : Prog World Error :=
  let p := w.providers m.sender
  if !p.registered then .revert .notRegistered
  else if p.unstakeReleaseBlock ≠ 0 then .revert .unstakeAlreadyRequested
  else match add256 m.number unbondingPeriod with
    | none => .revert .panic
    | some unstakeReleaseBlock =>
      .done ((w.setProvider m.sender
        { p with pendingUnstakeAmount := p.stake, unstakeReleaseBlock }).emit
        (.providerUnstakeRequested m.sender unstakeReleaseBlock p.stake))

def requestPartialUnstake (m : Msg) (amount : Nat) (w : World) : Prog World Error :=
  let p := w.providers m.sender
  if !p.registered then .revert .notRegistered
  else if p.unstakeReleaseBlock ≠ 0 then .revert .unstakeAlreadyRequested
  else if amount = 0 ∨ p.stake < amount then .revert .invalidAmount
  else if p.stake - amount < minProviderStake then .revert .insufficientStake
  else match add256 m.number unbondingPeriod with
    | none => .revert .panic
    | some unstakeReleaseBlock =>
      .done ((w.setProvider m.sender
        { p with pendingUnstakeAmount := amount, unstakeReleaseBlock }).emit
        (.providerUnstakeRequested m.sender unstakeReleaseBlock amount))

/-- A provider is registered as long as its stake is high enough; nothing
but `registerProvider` registers it again. -/
def Provider.reduce (p : Provider) (amount : Nat) : Provider :=
  { p with
    stake := p.stake - amount
    registered := if p.stake - amount < minProviderStake then false else p.registered }

def withdrawStake (d : Deployment) (m : Msg) (w : World) : Prog World Error :=
  if w.locked then .revert .reentrantCall
  else
    let w := { w with locked := true }
    let p := w.providers m.sender
    if p.unstakeReleaseBlock = 0 then .revert .unstakeNotRequested
    else if p.unstakeReleaseBlock > m.number then .revert .unbondingNotComplete
    else
      let amount := p.pendingUnstakeAmount
      if amount = 0 ∨ p.stake < amount then .revert .insufficientStake
      else
        let w := w.setProvider m.sender
          { p.reduce amount with pendingUnstakeAmount := 0, unstakeReleaseBlock := 0 }
        .pay d.self m.sender amount World.balance World.debit .transferFailed w fun w =>
          .done { w.emit (.providerStakeWithdrawn m.sender amount) with locked := false }

/-- Returns the amount slashed, next to the world. -/
def slashProvider (m : Msg) (provider : Address) (amount : Nat) (reasonId : Bytes32) (w : World) :
    Except Error (Nat × World) :=
  if !w.authorizedSlashers m.sender then .error .unauthorizedCaller
  else
    let p := w.providers provider
    if p.stake = 0 then .ok (0, w)
    else
      let slashedAmount := if amount > p.stake then p.stake else amount
      .ok (slashedAmount, (w.setProvider provider (p.reduce slashedAmount)).emit
        (.providerSlashed provider slashedAmount reasonId))

def getProviderStake (provider : Address) (w : World) : Nat := (w.providers provider).stake

/-! ## Transactions -/

def Call.inRange : Call → Bool
  | .requestPartialUnstake amount | .slashProvider _ amount _ => amount < 2 ^ 256
  | _ => true

def Call.payable : Call → Bool
  | .registerProvider => true
  | _ => false

def dispatch (d : Deployment) (m : Msg) (w : World) : Call → Prog World Error
  | .setSlasher slasher authorized => setSlasher m slasher authorized w
  | .registerProvider => registerProvider m w
  | .requestUnstake => requestUnstake m w
  | .requestPartialUnstake amount => requestPartialUnstake m amount w
  | .withdrawStake => withdrawStake d m w
  | .slashProvider provider amount reasonId =>
    match slashProvider m provider amount reasonId w with
    | .error e => .revert e
    | .ok (_, w) => .done w

def exec (d : Deployment) (tx : Tx) (w : World) : Prog World Error :=
  if !tx.call.inRange ∨ (!tx.call.payable ∧ tx.msg.value ≠ 0) then .revert .badCalldata
  else dispatch d tx.msg (w.credit tx.msg.value) tx.call

end Cipher.ProviderRegistry
