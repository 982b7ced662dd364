import Cipher.Verification

/-!
# Epochs and the choice of chunks

The package `challenge`. An epoch of a provider and a file begins with all
chunks uncovered; every challenge takes one of them out, chosen by a hash of a
fresh nonce. A new epoch for the same key ends the one before.

Epochs are objects that a map has pointers to, and stay objects when the map
forgets them; a pointer is the number of the object in the order of creation.
The uncovered chunks are a slice from which elements are removed in place.
Random bytes and the time are arguments, and `none` stands for a failure of
`crypto/rand`.
-/

namespace Cipher.Availability

open Bytes Binary Go Content Slices

inductive EpochStatus where
  | active | ended
deriving DecidableEq

structure Epoch where
  id : Str
  providerId : Str
  fileId : Str
  totalChunks : Int64
  challengeCounter : UInt64
  uncovered : Slice
  status : EpochStatus
  roundNumber : UInt64
  createdAt : Int
deriving DecidableEq

structure EpochStore where
  objects : List Epoch
  epochs : Str → Option Nat
  latest : Str → Option Str
  memory : Memory Int

structure EpochState where
  epochId : Str
  challengeCounter : UInt64
  uncoveredChunkCount : Nat
  epochStatus : EpochStatus
  roundNumber : UInt64
deriving DecidableEq

inductive ChallengeError where
  | idsRequired | totalChunks | generateEpochId
  | epochAndHash | unknownEpoch | notActive | noUncovered | outOfRange
  | noPriorEpoch | latestUnavailable
  | epochRequired
  | challengeIds | counter | generateNonce
deriving DecidableEq

namespace EpochStore

def empty : EpochStore := ⟨[], fun _ => none, fun _ => none, ⟨fun _ _ => 0, 0⟩⟩

/-- An epoch by its ID, with its pointer. -/
def find (s : EpochStore) (epochId : Str) : Option (Nat × Epoch) :=
  (s.epochs epochId).bind fun p => (s.objects[p]?).map fun epoch => (p, epoch)

end EpochStore

def epochKey (providerId fileId : Str) : Str := providerId ++ 0 :: fileId

def Epoch.key (e : Epoch) : Str := epochKey e.providerId e.fileId

/-- The chunks `0, 1, ...` of a file. -/
def chunkRange (totalChunks : Int64) : List Int :=
  (List.range totalChunks.toNatClampNeg).map Int.ofNat

namespace EpochStore

/-- The previous epoch of the key is ended; its round number is the one
before. -/
def endPrevious (s : EpochStore) (key : Str) : List Epoch × UInt64 :=
  match (s.latest key).bind s.find with
  | none => (s.objects, 0)
  | some (p, previous) =>
    (s.objects.set p { previous with status := .ended }, previous.roundNumber + 1)

/-- What `CreateEpoch` does to the store. -/
def start (s : EpochStore) (epochId providerId fileId : Str) (totalChunks : Int64) (now : Int) :
    EpochStore :=
  let (memory, uncovered) := s.memory.make (chunkRange totalChunks)
  let key := epochKey providerId fileId
  let (objects, roundNumber) := s.endPrevious key
  { objects := objects ++ [{ id := epochId, providerId, fileId, totalChunks, challengeCounter := 0,
                             uncovered, status := .active, roundNumber, createdAt := now }]
    epochs := Function.update s.epochs epochId (some objects.length)
    latest := Function.update s.latest key (some epochId)
    memory }

def epochIdOf (random : Block 16) : Str := ascii "epoch-" ++ hexEncode random.val

def createEpoch (s : EpochStore) (providerId fileId : Str) (totalChunks : Int64)
    (random : Option (Block 16)) (now : Int) : Except ChallengeError Str × EpochStore :=
  if providerId = [] ∨ fileId = [] then (.error .idsRequired, s)
  else if totalChunks ≤ 0 then (.error .totalChunks, s)
  else match random with
  | none => (.error .generateEpochId, s)
  | some random =>
    (.ok (epochIdOf random), s.start (epochIdOf random) providerId fileId totalChunks now)

variable (spare : Nat → Nat → Nat)

/-- What `SelectUncoveredChunk` does to the store. -/
def take (s : EpochStore) (p : Nat) (epoch : Epoch) (selectedIndex : Nat) : EpochStore :=
  let (memory, uncovered) := s.memory.remove spare epoch.uncovered selectedIndex
  { s with
    objects := s.objects.set p
      { epoch with uncovered, challengeCounter := epoch.challengeCounter + 1 }
    memory }

def selectUncoveredChunk (s : EpochStore) (epochId : Str) (chunkHash : List UInt8) :
    Except ChallengeError Int × EpochStore :=
  if epochId = [] ∨ chunkHash.length = 0 then (.error .epochAndHash, s)
  else match s.find epochId with
  | none => (.error .unknownEpoch, s)
  | some (p, epoch) =>
    if epoch.status ≠ .active then (.error .notActive, s)
    else if epoch.uncovered.len = 0 then (.error .noUncovered, s)
    else
      let selectedIndex := beNat chunkHash % epoch.uncovered.len
      match s.memory.read epoch.uncovered selectedIndex with
      | none => (.error .outOfRange, s)
      | some chunkId => (.ok chunkId, s.take spare p epoch selectedIndex)

def startNextEpoch (s : EpochStore) (providerId fileId : Str) (random : Option (Block 16))
    (now : Int) : Except ChallengeError Str × EpochStore :=
  if providerId = [] ∨ fileId = [] then (.error .idsRequired, s)
  else match s.latest (epochKey providerId fileId) with
  | none => (.error .noPriorEpoch, s)
  | some previousId =>
    match s.find previousId with
    | none => (.error .latestUnavailable, s)
    | some (_, previous) => s.createEpoch providerId fileId previous.totalChunks random now

def getEpochState (s : EpochStore) (epochId : Str) : Except ChallengeError EpochState :=
  if epochId = [] then .error .epochRequired
  else match s.find epochId with
  | none => .error .unknownEpoch
  | some (_, epoch) => .ok ⟨epoch.id, epoch.challengeCounter, epoch.uncovered.len, epoch.status,
      epoch.roundNumber⟩

end EpochStore

/-! ## Challenges -/

/-- The one-in-three rule. -/
def checkRoundTrigger (roundHash : List UInt8) : Bool :=
  roundHash.length ≠ 0 ∧ beNat roundHash % 3 = 0

def generateNonce (epochId : Str) (random : Option (Block 32)) :
    Except ChallengeError (List UInt8) :=
  if epochId = [] then .error .epochRequired
  else match random with
  | none => .error .generateNonce
  | some nonce => .ok nonce.val

variable (sha256 : List UInt8 → Hash) (spare : Nat → Nat → Nat)

section

variable (providerId fileId epochId : Str) (challengeCounter : UInt64) (nonce : List UInt8)

def generateChunkHash : List UInt8 :=
  (sha256 (providerId ++ fileId ++ epochId ++ beBytes 8 challengeCounter.toNat ++ nonce ++
    ascii "CHUNK")).val

def generateRoundHash (roundNumber : UInt64) : List UInt8 :=
  (sha256 (providerId ++ fileId ++ epochId ++ beBytes 8 challengeCounter.toNat ++ nonce ++
    beBytes 8 roundNumber.toNat ++ ascii "ROUND")).val

end

def challengeID (contractId epochId : Str) (counter : UInt64) (nonce : List UInt8) : Str :=
  let input := contractId ++ ascii "|" ++ epochId ++ ascii "|" ++ Geth.decimal counter.toNat ++
    ascii "|"
  ascii "challenge-" ++ hexEncode (sha256 (input ++ nonce)).val

namespace EpochStore

def generateNextChallenge (s : EpochStore) (contractId providerId fileId epochId : Str)
    (challengeCounter roundNumber : UInt64) (random : Option (Block 32)) (now : Int) :
    Except ChallengeError Challenge × EpochStore :=
  if contractId = [] ∨ providerId = [] ∨ fileId = [] ∨ epochId = [] then
    (.error .challengeIds, s)
  else match s.getEpochState epochId with
  | .error e => (.error e, s)
  | .ok epochState =>
    if epochState.challengeCounter ≠ challengeCounter then (.error .counter, s)
    else match generateNonce epochId random with
    | .error e => (.error e, s)
    | .ok nonce =>
      let chunkHash := generateChunkHash sha256 providerId fileId epochId challengeCounter nonce
      match s.selectUncoveredChunk spare epochId chunkHash with
      | (.error e, s') => (.error e, s')
      | (.ok chunkId, s') =>
        let roundHash :=
          generateRoundHash sha256 providerId fileId epochId challengeCounter nonce roundNumber
        (.ok { challengeId := challengeID sha256 contractId epochId challengeCounter nonce
               contractId, providerId, fileId, epochId, chunkId, nonce, challengeCounter,
               roundNumber, triggerStatus := checkRoundTrigger roundHash, createdAt := now }, s')

def createChallenge (s : EpochStore) (contractId providerId fileId : Str) (totalChunks : Int64)
    (roundNumber : UInt64) (randomId : Option (Block 16)) (randomNonce : Option (Block 32))
    (now : Int) : Except ChallengeError Challenge × EpochStore :=
  if contractId = [] ∨ providerId = [] ∨ fileId = [] then (.error .challengeIds, s)
  else match s.createEpoch providerId fileId totalChunks randomId now with
  | (.error e, s') => (.error e, s')
  | (.ok epochId, s') =>
    s'.generateNextChallenge sha256 spare contractId providerId fileId epochId 0 roundNumber
      randomNonce now

/-! ## What the calls do -/

variable {s : EpochStore} {epochId : Str}

lemma find_eq_some : s.find epochId = some (p, epoch) ↔
      s.epochs epochId = some p ∧ s.objects[p]? = some epoch := by
  rw [find, pointer_eq_some]

lemma createEpoch_cases (s : EpochStore) (providerId fileId : Str) (totalChunks : Int64)
    (random : Option (Block 16)) (now : Int) :
    (∃ e, s.createEpoch providerId fileId totalChunks random now = (.error e, s)) ∨
    ∃ r, random = some r ∧ providerId ≠ [] ∧ fileId ≠ [] ∧ 0 < totalChunks ∧
      s.createEpoch providerId fileId totalChunks random now = (.ok (epochIdOf r),
        s.start (epochIdOf r) providerId fileId totalChunks now) := by
  unfold createEpoch
  split
  · exact .inl ⟨_, rfl⟩
  rename_i hids
  split
  · exact .inl ⟨_, rfl⟩
  rename_i htotal
  cases random with
  | none => exact .inl ⟨_, rfl⟩
  | some r =>
    obtain ⟨hprovider, hfile⟩ := not_or.mp hids
    exact .inr ⟨r, rfl, hprovider, hfile, Int64.not_le.mp htotal, rfl⟩

/-- A chunk that is selected is one of the uncovered ones of an active
epoch. -/
structure Selects (s : EpochStore) (epochId : Str) (p : Nat) (epoch : Epoch) (k : Nat)
    (chunkId : Int) : Prop where
  found : s.find epochId = some (p, epoch)
  active : epoch.status = .active
  index : k < epoch.uncovered.len
  chunk : s.memory.read epoch.uncovered k = some chunkId

variable {sha256}

lemma selectUncoveredChunk_cases (s : EpochStore) (epochId : Str) (chunkHash : List UInt8) :
    (∃ e, s.selectUncoveredChunk spare epochId chunkHash = (.error e, s)) ∨
    ∃ p epoch k chunkId, s.Selects epochId p epoch k chunkId ∧
      s.selectUncoveredChunk spare epochId chunkHash = (.ok chunkId, s.take spare p epoch k) := by
  unfold selectUncoveredChunk
  split
  · exact .inl ⟨_, rfl⟩
  split
  · exact .inl ⟨_, rfl⟩
  rename_i p epoch hfind
  split
  · exact .inl ⟨_, rfl⟩
  rename_i hactive
  split
  · exact .inl ⟨_, rfl⟩
  rename_i hlen
  have hindex : beNat chunkHash % epoch.uncovered.len < epoch.uncovered.len :=
    Nat.mod_lt _ (Nat.pos_of_ne_zero hlen)
  have hread : s.memory.read epoch.uncovered (beNat chunkHash % epoch.uncovered.len) = some _ :=
    if_pos hindex
  dsimp only
  rw [hread]
  exact .inr ⟨p, epoch, _, _, ⟨hfind, not_not.mp hactive, hindex, hread⟩, rfl⟩

/-- The round number that a challenge has, and that its round hash was
computed with. -/
structure Rounded (sha256 : List UInt8 → Hash) (c : Challenge) (roundNumber : UInt64) : Prop where
  number : c.roundNumber = roundNumber
  trigger : c.triggerStatus = checkRoundTrigger (generateRoundHash sha256 c.providerId c.fileId
    c.epochId c.challengeCounter c.nonce roundNumber)

/-- A challenge names the chunk that was selected for it. -/
lemma generateNextChallenge_cases (s : EpochStore) (contractId providerId fileId epochId : Str)
    (challengeCounter roundNumber : UInt64) (random : Option (Block 32)) (now : Int) :
    (∃ e, s.generateNextChallenge sha256 spare contractId providerId fileId epochId
      challengeCounter roundNumber random now = (.error e, s)) ∨
    ∃ c p epoch k, s.Selects epochId p epoch k c.chunkId ∧ c.epochId = epochId ∧
      c.contractId = contractId ∧ Rounded sha256 c roundNumber ∧
      s.generateNextChallenge sha256 spare contractId providerId fileId epochId challengeCounter
        roundNumber random now = (.ok c, s.take spare p epoch k) := by
  unfold generateNextChallenge
  split
  · exact .inl ⟨_, rfl⟩
  split
  · exact .inl ⟨_, rfl⟩
  split
  · exact .inl ⟨_, rfl⟩
  split
  · exact .inl ⟨_, rfl⟩
  rename_i nonce _
  dsimp only
  rcases selectUncoveredChunk_cases .. with ⟨e, he⟩ | ⟨p, epoch, k, chunkId, hselects, heq⟩
  · rw [he]
    exact .inl ⟨e, rfl⟩
  · rw [heq]
    exact .inr ⟨_, p, epoch, k, hselects, rfl, rfl, ⟨rfl, rfl⟩, rfl⟩

end EpochStore

end Cipher.Availability
