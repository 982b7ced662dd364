import Mathlib.Logic.Function.Basic
import Cipher.Geth

/-!
# Off-chain payment states

The Go packages `payment`, `interfaces` and `bindings`: the boundary
object of the availability side, the payment state (the voucher) that
answers a passed challenge, the store that only moves forward, and the
registry that ties peers and availability contracts to their Ethereum
counterparts.

Maps are functions; a mapping that is read before it was written gives
the zero value, or `none` where the source looks at the second result.
-/

namespace Cipher.Payment

open Evm Go

/-! ## Errors -/

/-- Errors of the payment packages. `new` is `errors.New` and `wrap` is
`fmt.Errorf` with `%w`; the others are the sentinels, with the values
their message is formatted with. -/
inductive Error where
  | new (message : String)
  | wrap (context : String) (err : Error)
  | invalidArgument (message : String)
  | scheduleExists (contractID : Str)
  | scheduleNotFound (contractID : Str)
  | duplicateChallenge (challengeID : Str)
  | unknownStatus (status : Str)
  | sequenceExhausted
  | notPassResult
  | noEscrowBinding
  | noProviderAddress
  | invalidTTL
  | noStore (escrowKey : Str)
  | staleState (sequence cumulativePayment storedSequence storedCumulativePayment : UInt64)
deriving DecidableEq, Repr

/-! ## Availability results -/

/-- `AvailabilityStatus` is a string with two values that mean something. -/
inductive AvailabilityStatus where
  | pass
  | fail
  | other (status : Str)
deriving DecidableEq, Repr

structure AvailabilityResult where
  contractID : Str
  providerID : Str
  period : UInt64
  challengeID : Str
  result : AvailabilityStatus
deriving DecidableEq, Repr

/-! ## Payment states -/

structure PaymentState where
  contractID : Str
  publisher : Str
  provider : Str
  sequence : UInt64
  period : UInt64
  cumulativePayment : UInt64
  lastChallengeID : Str
  validUntil : UInt64
  status : AvailabilityStatus
  publisherSignature : List UInt8
deriving DecidableEq, Repr

def PaymentState.zero : PaymentState :=
  { contractID := [], publisher := [], provider := [], sequence := 0, period := 0,
    cumulativePayment := 0, lastChallengeID := [], validUntil := 0, status := .other [],
    publisherSignature := [] }

def createPaymentState (result : AvailabilityResult) (publisherID : Str)
    (cumulativePayment sequence : UInt64) : Except Error PaymentState :=
  if result.contractID = [] ∨ result.providerID = [] ∨ result.challengeID = []
      ∨ publisherID = [] then
    .error (.new "contract ID, publisher ID, provider ID, and challenge ID are required")
  else if result.result ≠ .pass then
    .error (.new "payment state requires a successful availability result")
  else
    .ok { PaymentState.zero with
      contractID := result.contractID
      publisher := publisherID
      provider := result.providerID
      sequence
      period := result.period
      cumulativePayment
      lastChallengeID := result.challengeID
      status := result.result }

/-- `PaymentStateStore`, the latest signed state. -/
structure PaymentStateStore where
  latest : PaymentState
  hasState : Bool
deriving DecidableEq, Repr

def PaymentStateStore.zero : PaymentStateStore := ⟨PaymentState.zero, false⟩

def storePaymentState (store : PaymentStateStore) (paymentState : PaymentState) :
    Except Error PaymentStateStore :=
  if paymentState.contractID = [] ∨ paymentState.publisherSignature.length = 0 then
    .error (.new "a signed payment state is required")
  else if store.hasState ∧ (paymentState.contractID ≠ store.latest.contractID
      ∨ paymentState.sequence ≤ store.latest.sequence
      ∨ paymentState.cumulativePayment < store.latest.cumulativePayment) then
    .error (.new "payment state is stale or belongs to another contract")
  else
    .ok { latest := paymentState, hasState := true }

/-! ## Bindings -/

/-- `EthereumAddress.String`. -/
def addressString (address : Address) : Str := hexString (beBytes 20 address.toNat)

/-- `EscrowContractID.String`. -/
def escrowString (contractID : Bytes32) : Str := hexString (beBytes 32 contractID.toNat)

lemma addressString_inj (h : addressString a = addressString b) : a = b := by
  have hread := congrArg Geth.hexToAddress h
  rwa [addressString, addressString, Geth.hexToAddress_hexString,
    Geth.hexToAddress_hexString] at hread

lemma escrowString_inj (h : escrowString a = escrowString b) : a = b := by
  have hread := congrArg Geth.hexToHash h
  rwa [escrowString, escrowString, Geth.hexToHash_hexString, Geth.hexToHash_hexString] at hread

structure Registry where
  providers : Str → Option Address
  contracts : Str → Option Bytes32

def newRegistry : Registry := ⟨fun _ => none, fun _ => none⟩

def bindProvider (r : Registry) (peerID : Str) (address : Address) : Except Error Registry :=
  if peerID = [] ∨ address = 0 then
    .error (.new "peer ID and non-zero Ethereum address are required")
  else match r.providers peerID with
    | some existing =>
      if existing ≠ address then
        .error (.new "peer ID is already bound to a different Ethereum address")
      else .ok r
    | none => .ok { r with providers := Function.update r.providers peerID (some address) }

def bindContract (r : Registry) (contractID : Str) (escrowContractID : Bytes32) :
    Except Error Registry :=
  if contractID = [] ∨ escrowContractID = 0 then
    .error (.new "availability contract ID and non-zero escrow contract ID are required")
  else match r.contracts contractID with
    | some existing =>
      if existing ≠ escrowContractID then
        .error (.new "contract ID is already bound to a different escrow contract")
      else .ok r
    | none =>
      .ok { r with contracts := Function.update r.contracts contractID (some escrowContractID) }

/-- Binding a contract leaves it bound, and disturbs no other binding. -/
lemma bindContract_ok (h : bindContract r contractID escrowContractID = .ok r') :
    r'.contracts contractID = some escrowContractID ∧ r'.providers = r.providers
      ∧ (∀ cid id, r.contracts cid = some id → r'.contracts cid = some id) := by
  unfold bindContract at h
  split at h
  · cases h
  · split at h
    · rename_i existing hold
      split at h
      · cases h
      · rename_i heq
        simp only [ne_eq, not_not] at heq
        cases h
        exact ⟨hold.trans (by rw [heq]), rfl, fun _ _ hcid => hcid⟩
    · rename_i hnone
      cases h
      refine ⟨by simp, rfl, fun cid id hcid => ?_⟩
      by_cases heq : cid = contractID
      · rw [heq, hnone] at hcid
        cases hcid
      · simpa [heq] using hcid

lemma bindProvider_ok (h : bindProvider r peerID address = .ok r') :
    r'.contracts = r.contracts ∧ (∀ p a, r.providers p = some a → r'.providers p = some a) := by
  unfold bindProvider at h
  split at h
  · cases h
  · split at h
    · split at h
      · cases h
      · cases h
        exact ⟨rfl, fun _ _ hp => hp⟩
    · rename_i hnone
      cases h
      refine ⟨rfl, fun p a hp => ?_⟩
      by_cases heq : p = peerID
      · rw [heq, hnone] at hp
        cases hp
      · simpa [heq] using hp

end Cipher.Payment
