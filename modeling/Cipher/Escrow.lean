import Cipher.Evm

/-!
# The escrow contract

`EscrowContract.sol` with its libraries `EscrowTypes`,
`EscrowSettlement` and `EscrowCollateral`: the storage, one definition
per external function, and `exec`, which decodes and runs a
transaction.

Every function takes the world after the transaction's value has been
credited. The functions that pay somebody out do it through
`sendValue`, where control leaves the contract; everything else is a
straight line of checks and writes. `World.ledger` lists the transfers
the contract has made, each with the agreement and the purpose it was
made for.

The hash function, signature recovery, the contract's own address and
the chain id are the parameters of a `Deployment`.
-/

namespace Cipher.Escrow

open Evm

/-! ## Types -/

inductive ContractState where
  | created | funded | active | failed | settled | refunded | terminated
deriving DecidableEq, Repr

inductive FailureReason where
  | none | availabilityFailure | deadlineMissed | paymentStateInvalid | other
deriving DecidableEq, Repr

structure PaymentState where
  contractID : Bytes32
  publisher : Address
  provider : Address
  sequence : Nat
  period : Nat
  cumulativePayment : Nat
  lastChallengeID : Bytes32
  validUntil : Nat
  status : Nat
  signature : List UInt8
deriving DecidableEq, Repr

structure EscrowAgreement where
  publisher : Address
  provider : Address
  fileID : Bytes32
  rulesHash : Bytes32
  reward : Nat
  escrowBalance : Nat
  collateralRequired : Nat
  collateral : Nat
  periods : Nat
  duration : Nat
  activatedAt : Nat
  deadline : Nat
  latestSequence : Nat
  latestCumulativePayment : Nat
  state : ContractState
  failureReason : FailureReason
  exists' : Bool
  hasPaymentState : Bool
deriving DecidableEq, Repr

/-- `panic` is Solidity's arithmetic check, `badCalldata` the ABI decoder
and the check that a function which is not payable gets no value. -/
inductive Error where
  | unknownContract | unauthorized | invalidState | invalidInput
  | invalidPaymentState | invalidSignature | transferFailed
  | panic | badCalldata
deriving DecidableEq, Repr

inductive Event where
  | contractCreated (contractID : Bytes32) (publisher provider : Address)
  | escrowFunded (contractID : Bytes32) (amount : Nat)
  | collateralDeposited (contractID : Bytes32) (amount : Nat)
  | contractActivated (contractID : Bytes32) (deadline : Nat)
  | paymentStateAccepted (contractID : Bytes32) (sequence cumulativePayment : Nat)
  | contractSettled (contractID : Bytes32) (providerPayment publisherRefund : Nat)
  | failureMarked (contractID : Bytes32) (reason : FailureReason)
  | collateralSlashed (contractID : Bytes32) (penalty : Nat)
  | contractTerminated (contractID : Bytes32)
  | failureDisputed (contractID : Bytes32) (sequence : Nat)
deriving DecidableEq, Repr

/-- What a transfer out of the contract was made for. -/
inductive Purpose where
  | providerPayment | publisherRefund | refund | collateralReturn | slash
deriving DecidableEq, Repr

structure Transfer where
  contractID : Bytes32
  purpose : Purpose
  recipient : Address
  amount : Nat
deriving DecidableEq, Repr

@[ext]
structure Storage where
  agreements : Bytes32 → EscrowAgreement
  latestPaymentStates : Bytes32 → PaymentState
  nextContractNonce : Nat

/-- The contract's storage and balance, the events it emitted and the
transfers it made (both newest first). -/
@[ext]
structure World extends Storage where
  balance : Nat
  log : List Event
  ledger : List Transfer

structure Deployment where
  self : Address
  chainid : Nat
  keccak256 : List UInt8 → Bytes32
  ecrecover : Bytes32 → Nat → Nat → Nat → Address

inductive Call where
  | createContract (provider : Address) (fileID : Bytes32) (reward periods duration : Nat)
      (rulesHash : Bytes32) (collateralRequired : Nat)
  | fundEscrow (contractID : Bytes32)
  | depositCollateral (contractID : Bytes32)
  | activateContract (contractID : Bytes32)
  | submitPaymentState (contractID : Bytes32) (paymentState : PaymentState)
  | settleContract (contractID : Bytes32) (paymentState : PaymentState)
  | refundPublisher (contractID : Bytes32)
  | returnCollateral (contractID : Bytes32)
  | markFailure (contractID : Bytes32) (reason : FailureReason)
  | disputeFailure (contractID : Bytes32) (paymentState : PaymentState)
  | slashCollateral (contractID : Bytes32) (penalty : Nat)
  | terminateExpiredContract (contractID : Bytes32)
deriving DecidableEq, Repr

structure Tx where
  msg : Msg
  call : Call
deriving DecidableEq, Repr

/-! ## Storage access -/

def emptyAgreement : EscrowAgreement :=
  { publisher := 0, provider := 0, fileID := 0, rulesHash := 0, reward := 0, escrowBalance := 0,
    collateralRequired := 0, collateral := 0, periods := 0, duration := 0, activatedAt := 0,
    deadline := 0, latestSequence := 0, latestCumulativePayment := 0, state := .created,
    failureReason := .none, exists' := false, hasPaymentState := false }

def emptyPaymentState : PaymentState :=
  { contractID := 0, publisher := 0, provider := 0, sequence := 0, period := 0,
    cumulativePayment := 0, lastChallengeID := 0, validUntil := 0, status := 0, signature := [] }

/-- The contract right after deployment. -/
def World.init : World :=
  { agreements := fun _ => emptyAgreement, latestPaymentStates := fun _ => emptyPaymentState,
    nextContractNonce := 0, balance := 0, log := [], ledger := [] }

namespace World

section

variable (w : World)

def setAgreement (id : Bytes32) (ag : EscrowAgreement) : World :=
  { w with agreements := Function.update w.agreements id ag }

def setPaymentState (id : Bytes32) (ps : PaymentState) : World :=
  { w with latestPaymentStates := Function.update w.latestPaymentStates id ps }

def emit (e : Event) : World := { w with log := e :: w.log }

def credit (value : Nat) : World := { w with balance := w.balance + value }

def pay (t : Transfer) : World :=
  { w with balance := w.balance - t.amount, ledger := t :: w.ledger }

@[simp] lemma emit_toStorage (e : Event) : (w.emit e).toStorage = w.toStorage := rfl

@[simp] lemma credit_toStorage (value : Nat) : (w.credit value).toStorage = w.toStorage := rfl

@[simp] lemma pay_toStorage (t : Transfer) : (w.pay t).toStorage = w.toStorage := rfl

end

end World

/-- `_agreement`. -/
def withAgreement (w : World) (id : Bytes32) (k : EscrowAgreement → Prog World Error) :
    Prog World Error :=
  if !(w.agreements id).exists' then .revert .unknownContract else k (w.agreements id)

section

variable (d : Deployment)

/-- `_sendValue`. The contract has no receive function, so a transfer to
itself fails like one it cannot afford. -/
def sendValue (t : Transfer) (w : World) (k : World → Prog World Error) : Prog World Error :=
  if t.amount = 0 then k w
  else if t.recipient = d.self ∨ w.balance < t.amount then .revert .transferFailed
  else .call (w.pay t) w t.recipient fun sent w' => if !sent then .revert .transferFailed else k w'

/-! ## Libraries -/

def settlementWindow : Nat := 86400

/-- `EscrowSettlement.isNextPaymentState`. -/
def isNextPaymentState (ag : EscrowAgreement) (ps : PaymentState) : Bool :=
  ps.sequence > ag.latestSequence && ps.cumulativePayment ≥ ag.latestCumulativePayment
    && ps.cumulativePayment ≤ ag.reward

/-- `EscrowCollateral.penaltyAmount`. -/
def penaltyAmount (collateral requestedPenalty : Nat) : Nat :=
  if requestedPenalty > collateral then collateral else requestedPenalty

/-- The bytes of `"\x19Ethereum Signed Message:\n32"`. -/
def signedMessagePrefix : List UInt8 :=
  [0x19, 0x45, 0x74, 0x68, 0x65, 0x72, 0x65, 0x75, 0x6d, 0x20, 0x53, 0x69, 0x67, 0x6e, 0x65, 0x64,
    0x20, 0x4d, 0x65, 0x73, 0x73, 0x61, 0x67, 0x65, 0x3a, 0x0a, 0x33, 0x32]

/-- What `_recoverPaymentSigner` hashes first. -/
def paymentStateBytes (ps : PaymentState) : List UInt8 :=
  abiEncode [d.self.toNat, d.chainid, ps.contractID.toNat, ps.publisher.toNat,
    ps.provider.toNat, ps.sequence, ps.period, ps.cumulativePayment, ps.lastChallengeID.toNat,
    ps.validUntil, ps.status]

/-- The digest a publisher signs for a payment state. -/
def paymentStateDigest (ps : PaymentState) : Bytes32 :=
  d.keccak256 (paymentStateBytes d ps)

/-- What it hashes then. -/
def signedMessage (digest : Bytes32) : List UInt8 := signedMessagePrefix ++ word digest.toNat

def signedMessageHash (digest : Bytes32) : Bytes32 := d.keccak256 (signedMessage digest)

/-- `_recoverPaymentSigner`. -/
def recoverPaymentSigner (ps : PaymentState) : Address :=
  if ps.signature.length ≠ 65 then 0
  else
    let r := beNat (ps.signature.take 32)
    let s := beNat ((ps.signature.drop 32).take 32)
    let v := beNat ((ps.signature.drop 64).take 1)
    let v := if v < 27 then v + 27 else v
    if (v ≠ 27 ∧ v ≠ 28) ∨ s > halfOrder then 0
    else d.ecrecover (signedMessageHash d (paymentStateDigest d ps)) v r s

/-! ## External functions -/

/-- The identifier `createContract` gives to an agreement. -/
def newContractID (publisher provider : Address) (fileID : Bytes32)
    (nonce : Nat) : Bytes32 :=
  d.keccak256 (abiEncode [d.self.toNat, d.chainid, publisher.toNat, provider.toNat,
    fileID.toNat, nonce])

section

variable (m : Msg) (provider : Address) (fileID : Bytes32) (reward periods duration : Nat)
  (rulesHash : Bytes32) (collateralRequired : Nat)

def newAgreement : EscrowAgreement :=
  { publisher := m.sender, provider, fileID, rulesHash, reward, escrowBalance := 0,
    collateralRequired, collateral := 0, periods, duration, activatedAt := 0, deadline := 0,
    latestSequence := 0, latestCumulativePayment := 0, state := .created,
    failureReason := .none, exists' := true, hasPaymentState := false }

def createContract (w : World) : Prog World Error :=
  if provider = 0 ∨ fileID = 0 ∨ reward = 0 ∨ periods = 0 ∨ duration = 0 then
    .revert .invalidInput
  else match add256 w.nextContractNonce 1 with
    | none => .revert .panic
    | some next =>
      let contractID := newContractID d m.sender provider fileID w.nextContractNonce
      let ag := newAgreement m provider fileID reward periods duration rulesHash collateralRequired
      .done (({ w with nextContractNonce := next }.setAgreement contractID ag).emit
        (.contractCreated contractID m.sender provider))

end

section

variable (m : Msg) (id : Bytes32)

def fundEscrow (w : World) : Prog World Error :=
  withAgreement w id fun ag =>
    if m.sender ≠ ag.publisher ∨ ag.state ≠ .created ∨ m.value ≠ ag.reward then
      .revert .invalidState
    else
      .done ((w.setAgreement id { ag with escrowBalance := m.value, state := .funded }).emit
        (.escrowFunded id m.value))

def depositCollateral (w : World) : Prog World Error :=
  withAgreement w id fun ag =>
    if m.sender ≠ ag.provider ∨ ag.state ≠ .funded then .revert .invalidState
    else if ag.collateral ≠ 0 then .revert .invalidState
    else if ag.collateralRequired = 0 ∨ m.value ≠ ag.collateralRequired then .revert .invalidInput
    else
      .done ((w.setAgreement id { ag with collateral := m.value }).emit
        (.collateralDeposited id m.value))

def activateContract (w : World) : Prog World Error :=
  withAgreement w id fun ag =>
    if m.sender ≠ ag.publisher ∧ m.sender ≠ ag.provider then .revert .unauthorized
    else if ag.state ≠ .funded ∨ ag.escrowBalance ≠ ag.reward then .revert .invalidState
    else if ag.collateral < ag.collateralRequired then .revert .invalidState
    else match add64 (m.timestamp % 2 ^ 64) ag.duration with
      | none => .revert .panic
      | some deadline =>
        .done ((w.setAgreement id
          { ag with activatedAt := m.timestamp % 2 ^ 64, deadline, state := .active }).emit
          (.contractActivated id deadline))

/-- The checks on a voucher that `submitPaymentState` and `disputeFailure`
share, before the signature is looked at. -/
def voucherOk (ag : EscrowAgreement) (ps : PaymentState) : Bool :=
  ps.contractID = id && ps.publisher = ag.publisher && ps.provider = ag.provider
    && !(ps.validUntil < m.timestamp) && isNextPaymentState ag ps

def submitPaymentState (ps : PaymentState)
    (w : World) : Prog World Error :=
  withAgreement w id fun ag =>
    if ag.state ≠ .active then .revert .invalidState
    else match add64 ag.deadline settlementWindow with
      | none => .revert .panic
      | some windowEnd =>
        if m.timestamp > windowEnd then .revert .invalidState
        else if !voucherOk m id ag ps then .revert .invalidPaymentState
        else if recoverPaymentSigner d ps ≠ ag.publisher then .revert .invalidSignature
        else
          .done (((w.setAgreement id { ag with
              latestSequence := ps.sequence, latestCumulativePayment := ps.cumulativePayment,
              hasPaymentState := true }).setPaymentState id ps).emit
            (.paymentStateAccepted id ps.sequence ps.cumulativePayment))

def settleContract (id : Bytes32) (ps : PaymentState) (w : World) : Prog World Error :=
  withAgreement w id fun ag =>
    if ag.state ≠ .active ∨ !ag.hasPaymentState then .revert .invalidState
    else if ps.sequence ≠ ag.latestSequence ∨ ps.cumulativePayment ≠ ag.latestCumulativePayment
        ∨ ps.contractID ≠ id then
      .revert .invalidPaymentState
    else if ag.escrowBalance < ag.latestCumulativePayment then .revert .panic
    else
      let providerPayment := ag.latestCumulativePayment
      let publisherRefund := ag.escrowBalance - providerPayment
      let w := w.setAgreement id { ag with escrowBalance := 0, state := .settled }
      sendValue d ⟨id, .providerPayment, (w.agreements id).provider, providerPayment⟩ w fun w =>
      sendValue d ⟨id, .publisherRefund, (w.agreements id).publisher, publisherRefund⟩ w fun w =>
      .done (w.emit (.contractSettled id providerPayment publisherRefund))

def refundPublisher (w : World) : Prog World Error :=
  withAgreement w id fun ag =>
    -- The deadline is only added up when the agreement is Active.
    match (if ag.state = .active then add64 ag.deadline settlementWindow else some 0) with
    | none => .revert .panic
    | some windowEnd =>
      let expired := ag.state = .active ∧ m.timestamp > windowEnd ∧ !ag.hasPaymentState
      let ag := if expired then { ag with state := .terminated } else ag
      let w := if expired then w.emit (.contractTerminated id) else w
      if m.sender ≠ ag.publisher ∨ (ag.state ≠ .failed ∧ ag.state ≠ .terminated) then
        .revert .invalidState
      else
        let refund := ag.escrowBalance
        let w := w.setAgreement id { ag with escrowBalance := 0, state := .refunded }
        sendValue d ⟨id, .refund, (w.agreements id).publisher, refund⟩ w fun w => .done w

def returnCollateral (id : Bytes32) (w : World) : Prog World Error :=
  withAgreement w id fun ag =>
    if (ag.state ≠ .settled ∧ ag.state ≠ .terminated ∧ ag.state ≠ .refunded)
        ∨ ag.collateral = 0 then
      .revert .invalidState
    else
      let collateral := ag.collateral
      let w := w.setAgreement id { ag with collateral := 0 }
      sendValue d ⟨id, .collateralReturn, (w.agreements id).provider, collateral⟩ w fun w =>
      .done w

def markFailure (reason : FailureReason) (w : World) : Prog World Error :=
  withAgreement w id fun ag =>
    if m.sender ≠ ag.publisher ∨ ag.state ≠ .active ∨ reason = .none then .revert .invalidState
    else
      .done ((w.setAgreement id { ag with failureReason := reason, state := .failed }).emit
        (.failureMarked id reason))

def disputeFailure (ps : PaymentState) (w : World) : Prog World Error :=
  withAgreement w id fun ag =>
    if ag.state ≠ .failed then .revert .invalidState
    else if m.sender ≠ ag.provider then .revert .unauthorized
    else if !voucherOk m id ag ps then .revert .invalidPaymentState
    else if recoverPaymentSigner d ps ≠ ag.publisher then .revert .invalidSignature
    else
      .done (((w.setAgreement id { ag with
          failureReason := .none, latestSequence := ps.sequence,
          latestCumulativePayment := ps.cumulativePayment, hasPaymentState := true,
          state := .active }).setPaymentState id ps).emit
        (.failureDisputed id ps.sequence))

def slashCollateral (penalty : Nat) (w : World) : Prog World Error :=
  withAgreement w id fun ag =>
    if m.sender ≠ ag.publisher ∨ ag.state ≠ .failed ∨ penalty = 0 then .revert .invalidState
    else
      let amount := penaltyAmount ag.collateral penalty
      if ag.collateral < amount then .revert .panic
      else
        let w := w.setAgreement id { ag with collateral := ag.collateral - amount }
        sendValue d ⟨id, .slash, (w.agreements id).publisher, amount⟩ w fun w =>
        .done (w.emit (.collateralSlashed id amount))

def terminateExpiredContract (w : World) : Prog World Error :=
  withAgreement w id fun ag =>
    if ag.state ≠ .active then .revert .invalidState
    else match add64 ag.deadline settlementWindow with
      | none => .revert .panic
      | some windowEnd =>
        if m.timestamp ≤ windowEnd then .revert .invalidState
        else if ag.hasPaymentState then .revert .invalidState
        else
          .done ((w.setAgreement id { ag with state := .terminated }).emit
            (.contractTerminated id))

end

/-! ## Transactions -/

def PaymentState.inRange (ps : PaymentState) : Bool :=
  ps.sequence < 2 ^ 64 && ps.period < 2 ^ 64 && ps.cumulativePayment < 2 ^ 256
    && ps.validUntil < 2 ^ 64 && ps.status < 2 ^ 8

/-- The ABI decoder rejects arguments outside their type's range. -/
def Call.inRange : Call → Bool
  | .createContract _ _ reward periods duration _ collateralRequired =>
    reward < 2 ^ 256 && periods < 2 ^ 64 && duration < 2 ^ 64 && collateralRequired < 2 ^ 256
  | .submitPaymentState _ ps | .settleContract _ ps | .disputeFailure _ ps => ps.inRange
  | .slashCollateral _ penalty => penalty < 2 ^ 256
  | _ => true

def Call.payable : Call → Bool
  | .fundEscrow _ | .depositCollateral _ => true
  | _ => false

def dispatch (m : Msg) (w : World) : Call → Prog World Error
  | .createContract provider fileID reward periods duration rulesHash collateralRequired =>
    createContract d m provider fileID reward periods duration rulesHash collateralRequired w
  | .fundEscrow id => fundEscrow m id w
  | .depositCollateral id => depositCollateral m id w
  | .activateContract id => activateContract m id w
  | .submitPaymentState id ps => submitPaymentState d m id ps w
  | .settleContract id ps => settleContract d id ps w
  | .refundPublisher id => refundPublisher d m id w
  | .returnCollateral id => returnCollateral d id w
  | .markFailure id reason => markFailure m id reason w
  | .disputeFailure id ps => disputeFailure d m id ps w
  | .slashCollateral id penalty => slashCollateral d m id penalty w
  | .terminateExpiredContract id => terminateExpiredContract m id w

def exec (tx : Tx) (w : World) : Prog World Error :=
  if !tx.call.inRange ∨ (!tx.call.payable ∧ tx.msg.value ≠ 0) then .revert .badCalldata
  else dispatch d tx.msg (w.credit tx.msg.value) tx.call

end

end Cipher.Escrow
