import Cipher.EpochCoverage

/-!
# Availability contracts

The packages `contract` and `settlement`. A contract is proposed, funded,
challenged any number of times, has results recorded for its challenges, and
is settled or terminated; `CanTransition` is the table of its states.

Contracts are objects that a map has pointers to, as epochs are. The record
of a contract has one field that the source does not have, `visited`: every
state that was assigned to it, in order. No function reads it.
-/

namespace Cipher.Availability

open Bytes Binary Go Content Function

/-! ## States -/

/-- `unset` is the empty string, which is no valid state. -/
inductive ContractState where
  | proposed | agreed | transferring | ready | active
  | completed | expired | terminated | disputed
  | unset
deriving DecidableEq

namespace ContractState

def isValidState : ContractState → Bool
  | unset => false
  | _ => true

def isTerminal : ContractState → Bool
  | completed | expired | terminated | disputed => true
  | _ => false

def canTransition (source target : ContractState) : Bool :=
  if !source.isValidState || !target.isValidState || source.isTerminal then false
  else match source with
  | proposed => target = agreed ∨ target = terminated ∨ target = disputed
  | agreed => target = transferring ∨ target = terminated ∨ target = disputed
  | transferring => target = ready ∨ target = terminated ∨ target = disputed
  | ready => target = active ∨ target = terminated ∨ target = disputed
  | active => target = completed ∨ target = expired ∨ target = terminated ∨ target = disputed
  | _ => false

end ContractState

/-! ## Records -/

structure ChallengeResult where
  challengeId : Str
  succeeded : Bool
  recordedAt : Int
deriving DecidableEq

inductive AvailabilityStatus where
  | pass | fail
deriving DecidableEq

structure AvailabilityResult where
  contractId : Str
  providerId : Str
  period : UInt64
  challengeId : Str
  result : AvailabilityStatus
  timestamp : Int
deriving DecidableEq

inductive SettlementStatus where
  | pending | completed | withheld | expired | terminated
deriving DecidableEq

/-- `none` is the zero time. -/
structure SettlementState where
  status : SettlementStatus
  releasedAmount : Int64
  withheldAmount : Int64
  successfulProofs : Int64
  failedProofs : Int64
  finalizedAt : Option Int
deriving DecidableEq

structure AvailabilityContract where
  id : Str
  publisherId : Str
  providerId : Str
  fileId : Str
  totalChunks : Int64
  paymentAmount : Int64
  fundedAmount : Int64
  duration : Int64
  createdAt : Int
  endsAt : Int
  state : ContractState
  challenges : List Str
  results : List ChallengeResult
  availabilityResults : List AvailabilityResult
  settlement : SettlementState
  visited : List ContractState
deriving DecidableEq

structure ActiveEpoch where
  id : Str
  endAfterCurrent : Bool
deriving DecidableEq

inductive ContractError where
  | idsRequired | positive | noResolver | chunkCount | resolvedCount | generateContractId
  | unknownContract (contractId : Str)
  | cannotFund (contractId : Str) (state : ContractState) | fundingAmount
  | invalidTransition (source target : ContractState)
  | notChallengeable | expired
  | activeEpochState (e : ChallengeError) | generateChallenge (e : ChallengeError)
  | notActive (contractId : Str) | notOwner | resultId | alreadyRecorded
  | cannotSettle (contractId : Str) (state : ContractState) | noResults
  | fundedAmount | resultsRequired
  | alreadyTerminal (contractId : Str)
deriving DecidableEq

def ContractState.transition (source target : ContractState) : Except ContractError ContractState :=
  if source.canTransition target then .ok target else .error (.invalidTransition source target)

def calculateSettlement (fundedAmount : Int64) (results : List ChallengeResult) :
    Except ContractError SettlementState :=
  if fundedAmount ≤ 0 then .error .fundedAmount
  else if results.length = 0 then .error .resultsRequired
  else
    let successfulProofs := Int64.ofNat (results.countP (·.succeeded))
    let failedProofs := Int64.ofNat (results.countP (!·.succeeded))
    let releasedAmount := fundedAmount * successfulProofs / Int64.ofNat results.length
    let withheldAmount := fundedAmount - releasedAmount
    .ok { status := if withheldAmount = 0 then .completed else .withheld
          releasedAmount, withheldAmount, successfulProofs, failedProofs, finalizedAt := none }

namespace AvailabilityContract

def setState (c : AvailabilityContract) (state : ContractState) : AvailabilityContract :=
  { c with state, visited := c.visited ++ [state] }

/-- One state after the other, as long as the table allows it. -/
def advance : List ContractState → AvailabilityContract →
    Except ContractError Unit × AvailabilityContract
  | [], c => (.ok (), c)
  | next :: rest, c =>
    match c.state.transition next with
    | .error e => (.error e, c.setState .unset)
    | .ok state => advance rest (c.setState state)

def activate (c : AvailabilityContract) : Except ContractError Unit × AvailabilityContract :=
  if c.state = .agreed then c.advance [.transferring, .ready, .active] else (.ok (), c)

/-- What a result adds to the record. -/
def addResult (c : AvailabilityContract) (contractId challengeId : Str) (succeeded : Bool)
    (now : Int) : AvailabilityContract :=
  { c with
    results := c.results ++ [⟨challengeId, succeeded, now⟩]
    availabilityResults := c.availabilityResults ++
      [{ contractId, providerId := c.providerId
         period := UInt64.ofNat (c.availabilityResults.length + 1)
         challengeId, result := if succeeded then .pass else .fail, timestamp := now }] }

end AvailabilityContract

/-! ## The store -/

structure ContractStore where
  objects : List AvailabilityContract
  contracts : Str → Option Nat
  challenges : Str → Option Str
  activeEpochs : Str → Option ActiveEpoch
  epochs : EpochStore

def contractIdOf (random : Block 16) : Str := ascii "contract-" ++ hexEncode random.val

/-- A contract that was just created. -/
def proposal (random : Block 16) (publisherId providerId fileId : Str) (totalChunks : Int64)
    (paymentAmount duration : Int64) (now : Int) : AvailabilityContract :=
  { id := contractIdOf random, publisherId, providerId, fileId, totalChunks, paymentAmount
    fundedAmount := 0, duration, createdAt := now, endsAt := now + duration.toInt
    state := .proposed, challenges := [], results := [], availabilityResults := []
    settlement := ⟨.pending, 0, 0, 0, 0, none⟩, visited := [.proposed] }

namespace ContractStore

def empty : ContractStore := ⟨[], fun _ => none, fun _ => none, fun _ => none, .empty⟩

/-- A contract by its ID, with its pointer. -/
def find (s : ContractStore) (contractId : Str) : Option (Nat × AvailabilityContract) :=
  (s.contracts contractId).bind fun p => (s.objects[p]?).map fun contract => (p, contract)

def put (s : ContractStore) (p : Nat) (contract : AvailabilityContract) : ContractStore :=
  { s with objects := s.objects.set p contract }

/-- The resolver is the one that is configured at the time, if there is
one. -/
def createAvailabilityContract (s : ContractStore) (publisherId providerId fileId : Str)
    (paymentAmount duration : Int64) (resolver : Option (Str → Str → Option Int64))
    (random : Option (Block 16)) (now : Int) : Except ContractError Str × ContractStore :=
  if publisherId = [] ∨ providerId = [] ∨ fileId = [] then (.error .idsRequired, s)
  else if paymentAmount ≤ 0 ∨ duration ≤ 0 then (.error .positive, s)
  else match resolver with
  | none => (.error .noResolver, s)
  | some chunkCount =>
    match chunkCount providerId fileId with
    | none => (.error .chunkCount, s)
    | some totalChunks =>
      if totalChunks ≤ 0 then (.error .resolvedCount, s)
      else match random with
      | none => (.error .generateContractId, s)
      | some random =>
        (.ok (contractIdOf random),
          { s with
            objects := s.objects ++ [proposal random publisherId providerId fileId totalChunks
              paymentAmount duration now]
            contracts := update s.contracts (contractIdOf random)
              (some s.objects.length) })

def fundAvailabilityContract (s : ContractStore) (contractId : Str) (paymentAmount : Int64) :
    Except ContractError ContractState × ContractStore :=
  match s.find contractId with
  | none => (.error (.unknownContract contractId), s)
  | some (p, contract) =>
    if contract.state ≠ .proposed then (.error (.cannotFund contractId contract.state), s)
    else if paymentAmount ≠ contract.paymentAmount then (.error .fundingAmount, s)
    else match contract.state.transition .agreed with
    | .error e => (.error e, s)
    | .ok nextState =>
      (.ok nextState, s.put p { contract.setState nextState with fundedAmount := paymentAmount })

variable (sha256 : List UInt8 → Hash) (spare : Nat → Nat → Nat)

section

variable (s : ContractStore) (contractId : Str)

/-- The challenge that is next for a contract: another one of its epoch, or
the first of a new epoch. -/
def nextChallenge (contract : AvailabilityContract)
    (randomId : Option (Block 16)) (randomNonce : Option (Block 32)) (now : Int) :
    Except ContractError Challenge × EpochStore :=
  let create (roundNumber : UInt64) :=
    (s.epochs.createChallenge sha256 spare contractId contract.providerId contract.fileId
      contract.totalChunks roundNumber randomId randomNonce now).map
      (·.mapError .generateChallenge) id
  match s.activeEpochs contractId with
  | none => create 0
  | some trackedEpoch =>
    match s.epochs.getEpochState trackedEpoch.id with
    | .error e => (.error (.activeEpochState e), s.epochs)
    | .ok epochState =>
      if epochState.epochStatus = .active ∧ 0 < epochState.uncoveredChunkCount ∧
          trackedEpoch.endAfterCurrent = false then
        (s.epochs.generateNextChallenge sha256 spare contractId contract.providerId
          contract.fileId trackedEpoch.id epochState.challengeCounter epochState.roundNumber
          randomNonce now).map (·.mapError .generateChallenge) id
      else create (epochState.roundNumber + 1)

/-- The challenge is registered as one of the contract. -/
def register (p : Nat) (contract : AvailabilityContract)
    (generated : Challenge) : ContractStore :=
  { s with
    objects := s.objects.set p
      { contract with challenges := contract.challenges ++ [generated.challengeId] }
    challenges := update s.challenges generated.challengeId (some contractId)
    activeEpochs := update s.activeEpochs contractId
      (some ⟨generated.epochId, generated.triggerStatus⟩) }

section

variable (randomId : Option (Block 16)) (randomNonce : Option (Block 32)) (now issuedAt : Int)

/-- The whole challenge; `InitiateAvailabilityChallenge` returns two of its
fields. -/
def initiate : Except ContractError Challenge × ContractStore :=
  match s.find contractId with
  | none => (.error (.unknownContract contractId), s)
  | some (p, contract) =>
    if (contract.state ≠ .agreed ∧ contract.state ≠ .active) ∨
        contract.fundedAmount ≠ contract.paymentAmount then (.error .notChallengeable, s)
    else if contract.endsAt ≤ now then (.error .expired, s.put p (contract.setState .expired))
    else match s.nextChallenge sha256 spare contractId contract randomId randomNonce issuedAt with
    | (.error e, epochs) => (.error e, { s with epochs })
    | (.ok generated, epochs) =>
      match contract.activate with
      | (.error e, contract) => (.error e, { s with epochs }.put p contract)
      | (.ok (), contract) =>
        (.ok generated, { s with epochs }.register contractId p contract generated)

def initiateAvailabilityChallenge : Except ContractError (Str × Str) × ContractStore :=
  (s.initiate sha256 spare contractId randomId randomNonce now issuedAt).map
    (·.map fun generated => (generated.challengeId, generated.epochId)) id

end

def recordAvailabilityResult (s : ContractStore) (contractId challengeId : Str)
    (result : ChallengeResult) (now : Int) : Except ContractError ContractState × ContractStore :=
  match s.find contractId with
  | none => (.error (.unknownContract contractId), s)
  | some (p, contract) =>
    if contract.state ≠ .active then (.error (.notActive contractId), s)
    else if s.challenges challengeId ≠ some contractId then (.error .notOwner, s)
    else if result.challengeId ≠ [] ∧ result.challengeId ≠ challengeId then (.error .resultId, s)
    else if ∃ recorded ∈ contract.results, recorded.challengeId = challengeId then
      (.error .alreadyRecorded, s)
    else (.ok contract.state,
      s.put p (contract.addResult contractId challengeId result.succeeded now))

def settleAvailabilityContract (now finalizedAt : Int) :
    Except ContractError SettlementStatus × ContractStore :=
  match s.find contractId with
  | none => (.error (.unknownContract contractId), s)
  | some (p, contract) =>
    if contract.state ≠ .active ∧ contract.state ≠ .expired then
      (.error (.cannotSettle contractId contract.state), s)
    else if contract.results.length = 0 then (.error .noResults, s)
    else match calculateSettlement contract.fundedAmount contract.results with
    | .error e => (.error e, s)
    | .ok settlement =>
      -- assigned before the transition is checked
      let contract := { contract with settlement }
      match contract.state.transition (if contract.endsAt ≤ now then .expired else .completed) with
      | .error e => (.error e, s.put p contract)
      | .ok nextState =>
        (.ok settlement.status, s.put p { contract.setState nextState with
          settlement := { settlement with finalizedAt := some finalizedAt } })

def terminateAvailabilityContract (now : Int) :
    Except ContractError ContractState × ContractStore :=
  match s.find contractId with
  | none => (.error (.unknownContract contractId), s)
  | some (p, contract) =>
    if contract.state.isTerminal then (.error (.alreadyTerminal contractId), s)
    else match contract.state.transition .terminated with
    | .error e => (.error e, s)
    | .ok nextState =>
      (.ok nextState, s.put p { contract.setState nextState with
        settlement := { contract.settlement with
          status := .terminated, finalizedAt := some now } })

end

end ContractStore

/-! ## Verified results -/

variable (sha256 : List UInt8 → Hash) (ed : Ed25519)

def buildChallengeResult (challenge : Challenge) (response : ChallengeResponse)
    (expectedMerkleRoot providerPubKey : List UInt8) (maxTimeout now : Int) : ChallengeResult :=
  { challengeId := challenge.challengeId
    succeeded := (verifyChallengeResponse sha256 ed challenge response expectedMerkleRoot
      providerPubKey maxTimeout).toBool
    recordedAt := now }

def ContractStore.verifyAndRecordChallengeResponse (s : ContractStore) (contractId : Str)
    (challenge : Challenge) (response : ChallengeResponse)
    (fileMerkleRoot providerPubKey : List UInt8) (maxTimeout now recordedAt : Int) :
    (Except ContractError ContractState × ChallengeResult) × ContractStore :=
  let challengeResult :=
    buildChallengeResult sha256 ed challenge response fileMerkleRoot providerPubKey maxTimeout now
  match s.recordAvailabilityResult contractId challenge.challengeId challengeResult recordedAt with
  | (.error e, s') => ((.error e, challengeResult), s')
  | (.ok nextState, s') => ((.ok nextState, challengeResult), s')

end Cipher.Availability
