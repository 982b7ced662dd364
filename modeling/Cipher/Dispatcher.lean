import Cipher.Machine
import Cipher.Payment

/-!
# The availability payment dispatcher

`PublisherCoordinator` (the parts that create vouchers) and
`AvailabilityPaymentDispatcher`: a verified result comes in, and a
signed voucher or a signed fail record comes out.

Every operation takes the state and returns its result together with
the state it leaves behind, also when the result is an error: nothing
here says that a failing operation has no effect. Both types serialise
their operations with a mutex, so a run is a sequence of operations
(`Op`, `step`), by any callers and in any order.

The clock, the voucher signer and the signature scheme of the fail
records come from outside. A call gets its clock reading and its signer
in an `Env`, so that two calls may see different ones.
-/

namespace Cipher.Payment

open Evm Go Function

/-! ## The publisher coordinator -/

/-- What a call reads from outside: the time in nanoseconds since the
epoch, and the `StateSigner`. -/
structure Env where
  now : Int
  sign : PaymentState → Except Error PaymentState

structure PublisherCoordinator where
  publisherID : Str
  paymentStateTTL : Int
  bindings : Registry
  stores : Str → Option PaymentStateStore

def newPublisherCoordinator (publisherID : Str) : Except Error PublisherCoordinator :=
  if publisherID = [] then
    .error (.new "publisher ID, payment signer, and escrow submitter are required")
  else
    .ok { publisherID, paymentStateTTL := 24 * 3600 * 1000000000, bindings := newRegistry,
          stores := fun _ => none }

def setPaymentStateTTL (ttl : Int) (c : PublisherCoordinator) :
    Except Error Unit × PublisherCoordinator :=
  if ttl ≤ 0 then (.error (.new "payment-state TTL must be positive"), c)
  else (.ok (), { c with paymentStateTTL := ttl })

def registerProvider (availabilityProviderID : Str) (ethereumAddress : Address)
    (c : PublisherCoordinator) : Except Error Unit × PublisherCoordinator :=
  match bindProvider c.bindings availabilityProviderID ethereumAddress with
  | .error e => (.error e, c)
  | .ok bindings => (.ok (), { c with bindings })

def registerContract (availabilityContractID : Str) (escrowContractID : Bytes32)
    (c : PublisherCoordinator) : Except Error Unit × PublisherCoordinator :=
  match bindContract c.bindings availabilityContractID escrowContractID with
  | .error e => (.error e, c)
  | .ok bindings =>
    let c := { c with bindings }
    let escrowID := escrowString escrowContractID
    match c.stores escrowID with
    | some _ => (.ok (), c)
    | none =>
      (.ok (), { c with
        stores := update c.stores escrowID (some PaymentStateStore.zero) })

/-- `ProviderAddressFor`. -/
def providerAddressFor (result : AvailabilityResult) (c : PublisherCoordinator) : Option Str :=
  (c.bindings.providers result.providerID).map addressString

def createAndSignPaymentState (env : Env) (result : AvailabilityResult)
    (cumulativePayment sequence : UInt64) (c : PublisherCoordinator) :
    Except Error PaymentState × PublisherCoordinator :=
  if result.result ≠ .pass then (.error .notPassResult, c)
  else if c.paymentStateTTL ≤ 0 then (.error .invalidTTL, c)
  else match c.bindings.contracts result.contractID with
  | none => (.error .noEscrowBinding, c)
  | some escrowContractID =>
    match c.bindings.providers result.providerID with
    | none => (.error .noProviderAddress, c)
    | some providerAddress =>
      let escrowKey := escrowString escrowContractID
      match c.stores escrowKey with
      | none => (.error (.noStore escrowKey), c)
      | some store =>
        if store.hasState ∧ (sequence ≤ store.latest.sequence
            ∨ cumulativePayment < store.latest.cumulativePayment) then
          (.error (.staleState sequence cumulativePayment store.latest.sequence
            store.latest.cumulativePayment), c)
        else
          let result := { result with providerID := addressString providerAddress }
          match createPaymentState result c.publisherID cumulativePayment sequence with
          | .error e => (.error e, c)
          | .ok state =>
            let state := { state with
              contractID := escrowKey
              validUntil := UInt64.ofInt (unixSeconds (env.now + c.paymentStateTTL)) }
            match env.sign state with
            | .error e => (.error e, c)
            | .ok signed =>
              match storePaymentState store signed with
              | .error e => (.error e, c)
              | .ok store =>
                (.ok signed, { c with
                  stores := update c.stores escrowKey (some store) })

/-! ## The dispatcher -/

structure FailRecord where
  escrowContractID : Str
  providerEthAddress : Str
  challengeID : Str
  period : UInt64
  sequence : UInt64
  issuedAt : Int
  publisherSignature : List UInt8
deriving DecidableEq, Repr

def FailRecord.zero : FailRecord :=
  { escrowContractID := [], providerEthAddress := [], challengeID := [], period := 0,
    sequence := 0, issuedAt := 0, publisherSignature := [] }

inductive DispatchKind where
  | pass | fail
deriving DecidableEq, Repr

structure DispatchResult where
  kind : DispatchKind
  paymentState : PaymentState
  failRecord : FailRecord
  consecutiveFailures : UInt32
  slashEligible : Bool
  slashEvidence : List FailRecord
deriving DecidableEq, Repr

structure PaymentSchedule where
  paymentPerPass : UInt64
  maxPayment : UInt64
  currentCumulativePayment : UInt64
  sequence : UInt64
  escrowContractID : Bytes32
  processedChallenges : Str → Bool
  consecutiveFailures : UInt32
  failStreak : List FailRecord

structure Dispatcher where
  coordinator : PublisherCoordinator
  schedules : Str → Option PaymentSchedule
  signerKey : List UInt8
  failureThreshold : UInt32

/-- The signature scheme of the fail records. -/
structure Crypto where
  sha256 : List UInt8 → List UInt8
  ed25519Sign : List UInt8 → List UInt8 → List UInt8

def defaultFailureThreshold : UInt32 := 3

def maxUint64 : UInt64 := 0xffffffffffffffff

def maxUint32 : UInt32 := 0xffffffff

def ed25519PrivateKeySize : Nat := 64

/-- `WithFailureThreshold`. -/
def withFailureThreshold (k : UInt32) (d : Dispatcher) : Except Error Dispatcher :=
  if k = 0 then .error (.invalidArgument "failure threshold must be at least 1")
  else .ok { d with failureThreshold := k }

/-- The options of the constructor are failure thresholds, applied in order. -/
def newAvailabilityPaymentDispatcher (coordinator : PublisherCoordinator)
    (signerKey : List UInt8) (opts : List UInt32) : Except Error Dispatcher :=
  if signerKey.length ≠ ed25519PrivateKeySize then
    .error (.invalidArgument
      "valid publisher Ed25519 private key is required for signing FailRecords")
  else
    opts.foldlM (fun d k => withFailureThreshold k d)
      { coordinator, schedules := fun _ => none, signerKey,
        failureThreshold := defaultFailureThreshold }

def registerContractSchedule (availabilityContractID : Str) (escrowContractID : Bytes32)
    (paymentPerPass maxPayment : UInt64) (d : Dispatcher) : Except Error Unit × Dispatcher :=
  if availabilityContractID = [] ∨ escrowContractID = 0 then
    (.error (.invalidArgument
      "valid availability contract ID and escrow contract ID are required"), d)
  else if paymentPerPass = 0 ∨ maxPayment = 0 then
    (.error (.invalidArgument "payment per pass and max payment must be positive"), d)
  else if paymentPerPass > maxPayment then
    (.error (.invalidArgument "payment per pass cannot exceed max payment"), d)
  else match d.schedules availabilityContractID with
  | some _ => (.error (.scheduleExists availabilityContractID), d)
  | none =>
    match registerContract availabilityContractID escrowContractID d.coordinator with
    | (.error e, coordinator) =>
      (.error (.wrap "register contract in coordinator" e), { d with coordinator })
    | (.ok (), coordinator) =>
      (.ok (), { d with
        coordinator
        schedules := update d.schedules availabilityContractID (some
          { paymentPerPass, maxPayment, currentCumulativePayment := 0, sequence := 0,
            escrowContractID, processedChallenges := fun _ => false,
            consecutiveFailures := 0, failStreak := [] }) })

def validateResult (result : AvailabilityResult) : Except Error Unit :=
  if result.contractID = [] then .error (.invalidArgument "result has empty contract ID")
  else if result.challengeID = [] then .error (.invalidArgument "result has empty challenge ID")
  else match result.result with
    | .pass | .fail => .ok ()
    | .other status => .error (.unknownStatus status)

/-- The bytes of `CIPHER_FAIL_RECORD_V1`. -/
def failRecordDomainTag : Str :=
  [0x43, 0x49, 0x50, 0x48, 0x45, 0x52, 0x5f, 0x46, 0x41, 0x49, 0x4c, 0x5f, 0x52, 0x45, 0x43,
    0x4f, 0x52, 0x44, 0x5f, 0x56, 0x31]

/-- `appendString` writes a length-prefixed string. -/
def appendString (buf : List UInt8) (s : Str) : List UInt8 :=
  appendUint64 buf (UInt64.ofNat s.length) ++ s

def buildFailRecordPayload (rec : FailRecord) : List UInt8 :=
  let buf := appendString [] failRecordDomainTag
  let buf := appendString buf rec.escrowContractID
  let buf := appendString buf rec.providerEthAddress
  let buf := appendString buf rec.challengeID
  let buf := appendUint64 buf rec.period
  let buf := appendUint64 buf rec.sequence
  appendUint64 buf (UInt64.ofInt rec.issuedAt)

def buildAndSignFailRecord (cr : Crypto) (env : Env) (result : AvailabilityResult)
    (escrowContractID : Bytes32) (sequence : UInt64) (d : Dispatcher) :
    Except Error FailRecord :=
  match providerAddressFor result d.coordinator with
  | none => .error .noProviderAddress
  | some providerAddress =>
    let rec' : FailRecord :=
      { escrowContractID := escrowString escrowContractID
        providerEthAddress := providerAddress
        challengeID := result.challengeID
        period := result.period
        sequence
        issuedAt := env.now
        publisherSignature := [] }
    .ok { rec' with
      publisherSignature :=
        cr.ed25519Sign d.signerKey (cr.sha256 (buildFailRecordPayload rec')) }

/-- The capped addition of `DispatchAvailabilityResult`. -/
def nextCumulativePayment (schedule : PaymentSchedule) : UInt64 :=
  let remaining := schedule.maxPayment - schedule.currentCumulativePayment
  if schedule.paymentPerPass ≥ remaining then schedule.maxPayment
  else schedule.currentCumulativePayment + schedule.paymentPerPass

def dispatchAvailabilityResult (cr : Crypto) (env : Env) (result : AvailabilityResult)
    (d : Dispatcher) : Except Error DispatchResult × Dispatcher :=
  match validateResult result with
  | .error e => (.error e, d)
  | .ok () =>
  match d.schedules result.contractID with
  | none => (.error (.scheduleNotFound result.contractID), d)
  | some schedule =>
  if schedule.processedChallenges result.challengeID then
    (.error (.duplicateChallenge result.challengeID), d)
  else if schedule.sequence = maxUint64 then (.error .sequenceExhausted, d)
  else
    let nextSequence := schedule.sequence + 1
    match result.result with
    | .pass =>
      let nextCumulative := nextCumulativePayment schedule
      match createAndSignPaymentState env result nextCumulative nextSequence d.coordinator with
      | (.error e, coordinator) =>
        (.error (.wrap "sign payment state" e), { d with coordinator })
      | (.ok signed, coordinator) =>
        let schedule := { schedule with
          sequence := nextSequence
          currentCumulativePayment := nextCumulative
          processedChallenges :=
            update schedule.processedChallenges result.challengeID true
          consecutiveFailures := 0
          failStreak := [] }
        (.ok { kind := .pass, paymentState := signed, failRecord := FailRecord.zero,
               consecutiveFailures := 0, slashEligible := false, slashEvidence := [] },
         { d with
           coordinator
           schedules := update d.schedules result.contractID (some schedule) })
    | .fail =>
      match buildAndSignFailRecord cr env result schedule.escrowContractID nextSequence d with
      | .error e => (.error (.wrap "sign fail record" e), d)
      | .ok rec' =>
        let newCount := if schedule.consecutiveFailures < maxUint32
          then schedule.consecutiveFailures + 1 else schedule.consecutiveFailures
        let newStreak := schedule.failStreak ++ [rec']
        let k := d.failureThreshold.toNat
        let newStreak := if newStreak.length > k then newStreak.drop (newStreak.length - k)
          else newStreak
        let schedule := { schedule with
          sequence := nextSequence
          processedChallenges :=
            update schedule.processedChallenges result.challengeID true
          consecutiveFailures := newCount
          failStreak := newStreak }
        let eligible : Bool := newCount ≥ d.failureThreshold
        (.ok { kind := .fail, paymentState := PaymentState.zero, failRecord := rec',
               consecutiveFailures := newCount, slashEligible := eligible,
               slashEvidence := if eligible then newStreak else [] },
         { d with schedules := update d.schedules result.contractID (some schedule) })
    | .other status => (.error (.unknownStatus status), d)

/-! ## Runs -/

/-- The operations on a dispatcher and on the coordinator it wraps. -/
inductive Op where
  | registerContractSchedule (availabilityContractID : Str) (escrowContractID : Bytes32)
      (paymentPerPass maxPayment : UInt64)
  | dispatchAvailabilityResult (env : Env) (result : AvailabilityResult)
  | registerProvider (availabilityProviderID : Str) (ethereumAddress : Address)
  | registerContract (availabilityContractID : Str) (escrowContractID : Bytes32)
  | setPaymentStateTTL (ttl : Int)
  | createAndSignPaymentState (env : Env) (result : AvailabilityResult)
      (cumulativePayment sequence : UInt64)

inductive Reply where
  | done (r : Except Error Unit)
  | signed (r : Except Error PaymentState)
  | dispatched (r : Except Error DispatchResult)

/-- An operation of the coordinator, on the dispatcher that wraps it. -/
def onCoordinator {ρ : Type} (r : ρ × PublisherCoordinator) (reply : ρ → Reply)
    (d : Dispatcher) : Reply × Dispatcher :=
  (reply r.1, { d with coordinator := r.2 })

def step (cr : Crypto) : Op → Dispatcher → Reply × Dispatcher
  | .registerContractSchedule cid escrow perPass max, d =>
    let r := registerContractSchedule cid escrow perPass max d
    (.done r.1, r.2)
  | .dispatchAvailabilityResult env result, d =>
    let r := dispatchAvailabilityResult cr env result d
    (.dispatched r.1, r.2)
  | .registerProvider peer address, d =>
    onCoordinator (registerProvider peer address d.coordinator) .done d
  | .registerContract cid escrow, d =>
    onCoordinator (registerContract cid escrow d.coordinator) .done d
  | .setPaymentStateTTL ttl, d => onCoordinator (setPaymentStateTTL ttl d.coordinator) .done d
  | .createAndSignPaymentState env result cum seq, d =>
    onCoordinator (createAndSignPaymentState env result cum seq d.coordinator) .signed d

abbrev Event := Machine.Event Op Dispatcher Reply

abbrev Trace (cr : Crypto) := Machine.Trace (step cr)

end Cipher.Payment
