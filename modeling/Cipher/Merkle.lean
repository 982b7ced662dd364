import Cipher.Content
import Cipher.MerkleTrees
import Cipher.Slices
import Cipher.Transition

/-!
# The Merkle tree of a file

`NewMerkleTree` and `GenerateProof` of the availability integration, and
`VerifyMerkleProof` of the availability contracts, which neither knows nor
imports them. The levels of a tree are slices, and both functions make an odd
level even with an `append` to it. That may write into the array of the level
itself, behind its last node; the memory is therefore part of the model.

A function that reads out of range has no result (`none`).
-/

namespace Cipher.Availability

open Bytes Binary Go Content Slices

/-! ## Building -/

inductive MerkleError where
  | noLeaves
  | leafLength (i len : Nat)
  | leafIndex (i : Int) (leafCount : Nat)
deriving DecidableEq

structure MerkleTree where
  leaves : Slice
  levels : List Slice
  root : Hash
deriving DecidableEq

variable (sha256 : List UInt8 → Hash) (spare : Nat → Nat → Nat)

def hashPair (left right : Hash) : Hash := sha256 (left.val ++ right.val)

/-- Every leaf is copied to 32 bytes of its own. -/
def copyLeaves : Nat → List (List UInt8) → Except MerkleError (List Hash)
  | _, [] => .ok []
  | i, h :: hs =>
    if h.length ≠ 32 then .error (.leafLength i h.length)
    else (copyLeaves (i + 1) hs).map (Block.ofList 32 h :: ·)

/-- The last node of an odd level once more. -/
def pad (m : Memory Hash) (nodes : Slice) : Option (Memory Hash × Slice) :=
  if nodes.len % 2 ≠ 0 then
    (m.read nodes (nodes.len - 1)).map fun last => m.append spare nodes [last]
  else some (m, nodes)

/-- The pair at `2 * k` becomes a node of the next level. -/
def addParent (padded : Slice) (st : Memory Hash × Slice) (k : Nat) :
    Option (Memory Hash × Slice) := do
  let left ← st.1.read padded (2 * k)
  let right ← st.1.read padded (2 * k + 1)
  return st.1.append spare st.2 [hashPair sha256 left right]

def nextLevel (m : Memory Hash) (padded : Slice) : Option (Memory Hash × Slice) :=
  (List.range ((padded.len + 1) / 2)).foldlM (addParent sha256 spare padded) (m, Slice.empty)

/-- The loop over the levels, with a bound on their number. -/
def buildLevels : Nat → Memory Hash → Slice → List Slice →
    Option (Memory Hash × Slice × List Slice)
  | 0, _, _, _ => none
  | fuel + 1, m, currentLevel, levels =>
    if 1 < currentLevel.len then do
      let (m, padded) ← pad spare m currentLevel
      let (m, next) ← nextLevel sha256 spare m padded
      buildLevels fuel m next (levels ++ [next])
    else some (m, currentLevel, levels)

def newMerkleTree (leafHashes : List (List UInt8)) (m : Memory Hash) :
    Option (Except MerkleError MerkleTree × Memory Hash) :=
  if leafHashes.length = 0 then some (.error .noLeaves, m)
  else match copyLeaves 0 leafHashes with
  | .error e => some (.error e, m)
  | .ok hashes =>
    let (m, leaves) := m.make hashes
    if leaves.len = 1 then do
      let root ← m.read leaves 0
      return (.ok ⟨leaves, [leaves], root⟩, m)
    else do
      let (m, currentLevel, levels) ←
        buildLevels sha256 spare (leaves.len + 1) m leaves [leaves]
      let root ← m.read currentLevel 0
      return (.ok ⟨leaves, levels, root⟩, m)

/-! ## Proofs -/

/-- The loop of `GenerateProof` over the levels below the root. -/
def auditPath : Memory Hash → List Slice → Nat → List Hash → Option (List Hash × Memory Hash)
  | m, [], _, proof => some (proof, m)
  | m, currentNodes :: rest, idx, proof => do
    let (m, currentNodes) ← pad spare m currentNodes
    let sibling ← m.read currentNodes (if idx % 2 = 0 then idx + 1 else idx - 1)
    auditPath m rest (idx / 2) (proof ++ [sibling])

def generateProof (t : MerkleTree) (leafIndex : Int) (m : Memory Hash) :
    Option (Except MerkleError (List Hash) × Memory Hash) :=
  if leafIndex < 0 ∨ t.leaves.len ≤ leafIndex then
    some (.error (.leafIndex leafIndex t.leaves.len), m)
  else if t.leaves.len = 1 then some (.ok [], m)
  else (auditPath spare m t.levels.dropLast leafIndex.toNat []).map fun r => (.ok r.1, r.2)

/-- The loop of `VerifyMerkleProof`. It ends at a sibling that is not 32 bytes
long. -/
def climb : List UInt8 → Nat → List (List UInt8) → Option (List UInt8)
  | current, _, [] => some current
  | current, idx, sibling :: rest =>
    if sibling.length ≠ 32 then none
    else
      let parent := sha256 (if idx % 2 = 0 then current ++ sibling else sibling ++ current)
      climb parent.val (idx / 2) rest

def verifyMerkleProof (leafHash : List UInt8) (leafIndex : Int) (proof : List (List UInt8))
    (expectedRoot : List UInt8) : Bool :=
  if leafHash.length ≠ 32 ∨ expectedRoot.length ≠ 32 ∨ leafIndex < 0 then false
  else climb sha256 leafHash leafIndex.toNat proof == some expectedRoot

end Cipher.Availability
