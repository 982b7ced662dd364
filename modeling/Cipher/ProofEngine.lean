import Cipher.MerkleSound
import Cipher.Verification

/-!
# The proof engine of a provider

`ProviderProofEngine` answers availability challenges with the tree of the
file, and the provider's node fills it at start-up from its store. A tree is
known here by its leaves, which is what `NewMerkleTree` and `GenerateProof`
depend on (`newMerkleTree_represents`, `Represents.generateProof`).

A file that is not registered is looked up in the store when it is challenged:
its tree is then made of the chunk IDs in the manifest. Neither that nor the
answer itself looks at a chunk. At start-up, on the other hand, the tree is
made of the chunks that are there, whatever the manifest says.
-/

namespace Cipher.Availability

open Bytes Binary Go Content MerkleTrees Transition Function Option

/-! ## The engine -/

structure ProofEngine where
  providerId : Str
  privKey : Block 64
  /-- The leaves of the tree of each file. -/
  trees : Str → Option (List Hash)
  chunkPayload : Str → Nat → Option (List UInt8)

inductive EngineError where
  | emptyFileId | noChunks
  | buildTree (e : MerkleError)
  | emptyTree
  | emptyChallengeId
  | fileNotFound
  | chunkIndex
  | generateProof (e : MerkleError)
deriving DecidableEq

/-- `hex.DecodeString`. -/
def decodeString : Str → Option (List UInt8)
  | [] => some []
  | [_] => none
  | p :: q :: rest => do
    let a ← Geth.hexVal p
    let b ← Geth.hexVal q
    let bytes ← decodeString rest
    return UInt8.ofNat (16 * a + b) :: bytes

variable (sha256 : List UInt8 → Hash) (ed : Ed25519) (deserialize : List UInt8 → Option Manifest)

/-- The leaves of a tree, and an error where `GenerateProof` has one. -/
def proofOf (leaves : List Hash) (leafIndex : Int) : Except MerkleError (List Hash) :=
  if leafIndex < 0 ∨ leaves.length ≤ leafIndex then
    .error (.leafIndex leafIndex leaves.length)
  else .ok (path (hashPair sha256) (depth leaves.length) leaves leafIndex.toNat)

namespace ProofEngine

/-- A payload of an earlier registration stays behind the chunks of this
one. -/
def registerFileChunks (e : ProofEngine) (fileId : Str) (chunks : List (List UInt8)) :
    Except EngineError (List Hash) × ProofEngine :=
  if fileId = [] then (.error .emptyFileId, e)
  else if chunks.length = 0 then (.error .noChunks, e)
  else match checkLeaves (chunks.map fun c => (sha256 c).val) with
  | .error err => (.error (.buildTree err), e)
  | .ok tree =>
    (.ok tree, { e with
      trees := update e.trees fileId (some tree)
      chunkPayload := update e.chunkPayload fileId
        fun i => (chunks[i]?).or (e.chunkPayload fileId i) })

def registerTree (e : ProofEngine) (fileId : Str) (tree : Option (List Hash)) :
    Except EngineError Unit × ProofEngine :=
  match tree with
  | none => (.error .emptyTree, e)
  | some leaves =>
    if fileId = [] then (.error .emptyTree, e)
    else (.ok (), { e with trees := update e.trees fileId (some leaves) })

end ProofEngine

/-- The tree of a file from the manifest in the store. -/
def loadTree (source : Option Storage) (fileId : Str) : Option (List Hash) := do
  let store ← source
  let idBytes ← decodeString fileId
  if idBytes.length ≠ 32 then none
  else
    let mData ← store.getManifestBytes (Block.ofList 32 idBytes)
    let m ← deserialize mData
    (checkLeaves (m.chunkIds.map Subtype.val)).toOption

lemma decodeString_hexEncode (bs : List UInt8) : decodeString (hexEncode bs) = some bs := by
  induction bs with
  | nil => rfl
  | cons b bs ih =>
    have hb := b.toNat_lt
    change decodeString (hexDigit (b.toNat / 16) :: hexDigit (b.toNat % 16) :: hexEncode bs) = _
    rw [decodeString, Geth.hexVal_hexDigit _ (by omega), Geth.hexVal_hexDigit _ (by omega), ih]
    simp only [bind_eq_bind, bind_some, pure_def, Option.some.injEq, List.cons.injEq, and_true]
    rw [show 16 * (b.toNat / 16) + b.toNat % 16 = b.toNat by omega, UInt8.ofNat_toNat]

lemma hexEncode_injective : Injective hexEncode := by
  intro a b h
  have hbytes := congrArg decodeString h
  rw [decodeString_hexEncode, decodeString_hexEncode] at hbytes
  exact Option.some.inj hbytes

lemma hexEncode_ne_nil (id : ContentID) : hexEncode id.val ≠ [] := by
  intro h
  have hlen := Geth.length_hexEncode id.val
  rw [h, id.property] at hlen
  cases hlen

/-- The tree of a file is that of the chunk IDs in its manifest. -/
lemma loadTree_hexEncode (deserialize : List UInt8 → Option Manifest) (store : Storage)
    (id : ContentID) : loadTree deserialize (some store) (hexEncode id.val) =
      ((store.getManifestBytes id).bind deserialize).bind fun m =>
        if m.chunkIds = [] then none else some m.chunkIds := by
  rw [loadTree, decodeString_hexEncode]
  simp only [bind_eq_bind, bind_some, id.property, ne_eq, not_true_eq_false,
    if_false, Block.ofList_val, bind_assoc]
  refine congrArg _ (funext fun data => congrArg _ (funext fun m => ?_))
  split
  · rename_i hempty
    rw [hempty]
    rfl
  · rename_i hne
    rw [checkLeaves_map_val hne]
    rfl

/-- `bs[0] ^= 0xFF`. -/
def corruptFirst : List UInt8 → List UInt8
  | [] => []
  | b :: rest => (b ^^^ 0xFF) :: rest

namespace ProofEngine

section

variable (e : ProofEngine) (source : Option Storage)

/-- The tree that a challenge is answered with, and the engine after it was
looked up. -/
def treeFor (fileId : Str) : Option (List Hash) × ProofEngine :=
  match e.trees fileId with
  | some tree => (some tree, e)
  | none =>
    match loadTree deserialize source fileId with
    | none => (none, e)
    | some tree => (some tree, (e.registerTree fileId (some tree)).2)

/-- `generateResponse` at time `now`; `source` is the chunk source, if it has
manifests. -/
def generateResponse (challenge : Challenge) (corruptHash corruptSig : Bool) (now : Int) :
    Except EngineError ChallengeResponse × ProofEngine :=
  if challenge.challengeId = [] then (.error .emptyChallengeId, e)
  else match e.treeFor deserialize source challenge.fileId with
  | (none, e') => (.error .fileNotFound, e')
  | (some tree, e') =>
    if challenge.chunkId < 0 ∨ tree.length ≤ challenge.chunkId then (.error .chunkIndex, e')
    else match proofOf sha256 tree challenge.chunkId with
    | .error err => (.error (.generateProof err), e')
    | .ok proof =>
      let leaf := (tree[challenge.chunkId.toNat]?).elim [] Subtype.val
      let chunkHash := if corruptHash then corruptFirst leaf else leaf
      let digest := computeProofDigest sha256 chunkHash challenge.nonce challenge.challengeId
      let sig := ed.sign e.privKey digest
      (.ok { challengeId := challenge.challengeId
             contractId := challenge.contractId
             providerId := e.providerId
             fileId := challenge.fileId
             chunkId := challenge.chunkId
             chunkHash
             merkleProof := proof.map Subtype.val
             signature := if corruptSig then corruptFirst sig else sig
             respondedAt := now }, e')

def handleChallenge (challenge : Challenge)
    (now : Int) : Except EngineError ChallengeResponse × ProofEngine :=
  e.generateResponse sha256 ed deserialize source challenge false false now

end

/-! ## Start-up -/

/-- The data of the chunks that can be read. -/
def rawChunks (store : Storage) (m : Manifest) : List (List UInt8) :=
  m.chunkIds.filterMap fun cid => (store.getChunk cid).toOption.map Chunk.data

def registerManifest (store : Storage) (e : ProofEngine) (mid : ContentID) : ProofEngine :=
  match (store.getManifestBytes mid).bind deserialize with
  | none => e
  | some m =>
    if 0 < (rawChunks store m).length then
      (e.registerFileChunks sha256 (hexEncode m.descriptor.id.val) (rawChunks store m)).2
    else e

/-- The provider's node registers what `ListManifests` gave it. -/
def startUp (store : Storage) (manifests : List ContentID) (e : ProofEngine) : ProofEngine :=
  manifests.foldl (registerManifest sha256 deserialize store)
    { e with trees := fun _ => none, chunkPayload := fun _ _ => none }

/-! ## What the functions do -/

variable {sha256 ed deserialize} {e : ProofEngine} {fileId : Str} {tree : List Hash}

lemma registerFileChunks_of_ne (hfile : fileId ≠ []) (hchunks : chunks ≠ []) :
    e.registerFileChunks sha256 fileId chunks = (.ok (chunks.map sha256), { e with
      trees := update e.trees fileId (some (chunks.map sha256))
      chunkPayload := update e.chunkPayload fileId
        fun i => (chunks[i]?).or (e.chunkPayload fileId i) }) := by
  have hleaves : checkLeaves (chunks.map fun c => (sha256 c).val) = .ok (chunks.map sha256) := by
    rw [← checkLeaves_map_val (mt List.map_eq_nil_iff.mp hchunks), List.map_map]
    rfl
  rw [registerFileChunks, if_neg hfile, if_neg (mt List.eq_nil_of_length_eq_zero hchunks), hleaves]

/-- A tree of the engine after chunks were registered is the new one, with the
payload of its leaves, or one that it had, with the payload that it had. -/
lemma trees_registerFileChunks
    (h : (e.registerFileChunks sha256 fileId chunks).2.trees other = some tree) :
    (other = fileId ∧ tree = chunks.map sha256 ∧
      ∀ i, (e.registerFileChunks sha256 fileId chunks).2.chunkPayload other i =
        (chunks[i]?).or (e.chunkPayload fileId i)) ∨
    (e.trees other = some tree ∧
      (e.registerFileChunks sha256 fileId chunks).2.chunkPayload other = e.chunkPayload other) := by
  by_cases hfile : fileId = []
  · rw [registerFileChunks, if_pos hfile] at h ⊢
    exact .inr ⟨h, rfl⟩
  by_cases hchunks : chunks = []
  · rw [registerFileChunks, if_neg hfile, if_pos (by rw [hchunks]; rfl)] at h ⊢
    exact .inr ⟨h, rfl⟩
  rw [registerFileChunks_of_ne hfile hchunks] at h ⊢
  dsimp only at h ⊢
  by_cases hother : other = fileId
  · subst hother
    rw [update_self] at h ⊢
    exact .inl ⟨rfl, (Option.some.inj h).symm, fun _ => rfl⟩
  · rw [update_of_ne hother] at h ⊢
    exact .inr ⟨h, rfl⟩

/-- What is registered is registered under a name. -/
lemma trees_registerTree (h : (e.registerTree fileId (some tree)).2.trees other = some leaves) :
    (other = fileId ∧ leaves = tree) ∨ e.trees other = some leaves := by
  rw [registerTree] at h
  split at h
  · exact .inr h
  · dsimp only at h
    by_cases hother : other = fileId
    · subst hother
      rw [update_self] at h
      exact .inl ⟨rfl, (Option.some.inj h).symm⟩
    · rw [update_of_ne hother] at h
      exact .inr h

/-- A challenge changes the engine by looking up the tree alone. -/
lemma handleChallenge_snd (c : Challenge) (now : Int) :
    (e.handleChallenge sha256 ed deserialize source c now).2 = e ∨
      (e.handleChallenge sha256 ed deserialize source c now).2 =
        (e.treeFor deserialize source c.fileId).2 := by
  rw [handleChallenge, generateResponse]
  split
  · exact .inl rfl
  · rcases e.treeFor .. with ⟨_ | tree, e'⟩
    · exact .inr rfl
    · refine .inr ?_
      dsimp only
      split
      · rfl
      · cases proofOf sha256 tree c.chunkId <;> rfl

lemma treeFor_of_some (h : e.trees fileId = some tree) :
    e.treeFor deserialize source fileId = (some tree, e) := by
  rw [treeFor, h]

lemma treeFor_of_none (h : e.trees fileId = none)
    (hload : loadTree deserialize source fileId = none) :
    e.treeFor deserialize source fileId = (none, e) := by
  rw [treeFor, h, hload]

/-- No tree is loaded if there is one, or nothing to load. -/
lemma treeFor_eq (h : (e.trees fileId).isSome ∨ loadTree deserialize source fileId = none) :
    e.treeFor deserialize source fileId = (e.trees fileId, e) := by
  cases htree : e.trees fileId with
  | some tree => exact treeFor_of_some htree
  | none =>
    rw [htree] at h
    exact treeFor_of_none htree (h.resolve_left nofun)

lemma treeFor_of_load (h : e.trees fileId = none)
    (hload : loadTree deserialize source fileId = some tree) :
    e.treeFor deserialize source fileId = (some tree, (e.registerTree fileId (some tree)).2) := by
  rw [treeFor, h, hload]

/-- The answer to a challenge for a leaf of the tree. -/
def answer (sha256 : List UInt8 → Hash) (ed : Ed25519) (e : ProofEngine) (c : Challenge)
    (tree : List Hash) (i : Nat) (leaf : Hash) (now : Int) : ChallengeResponse :=
  { challengeId := c.challengeId, contractId := c.contractId, providerId := e.providerId
    fileId := c.fileId, chunkId := i, chunkHash := leaf.val
    merkleProof := (path (hashPair sha256) (depth tree.length) tree i).map Subtype.val
    signature := ed.sign e.privKey (computeProofDigest sha256 leaf.val c.nonce c.challengeId)
    respondedAt := now }

/-- An answer in time, from a tree with the root in question, is accepted. -/
lemma accepted_answer (hed : ed.Correct) {c : Challenge} (hid : c.challengeId ≠ [])
    (hprovider : c.providerId = e.providerId) {i : Nat} {leaf root : Hash} (hi : c.chunkId = i)
    (hleaf : tree[i]? = some leaf) (hroot : MerkleTrees.root (hashPair sha256) tree = some root)
    (htime : 0 < maxTimeout → now ≤ c.createdAt + maxTimeout) :
    Accepted sha256 ed c (answer sha256 ed e c tree i leaf now) root.val
      (ed.publicKey e.privKey) maxTimeout where
  nonempty := hid
  challengeId := rfl
  contractId := rfl
  providerId := hprovider.symm
  fileId := rfl
  chunkId := hi.symm
  inTime := htime
  rootLength := root.property
  merkleProof := verifyMerkleProof_path sha256 hleaf hroot
  keySize _ := hed.length_publicKey _
  signatureSize _ := hed.length_sign _ _
  signature _ := hed.verify_sign _ _

lemma handleChallenge_eq_ok : (e.handleChallenge sha256 ed deserialize source c now).1 = .ok resp ↔
      c.challengeId ≠ [] ∧ ∃ (tree : List Hash) (i : Nat) (leaf : Hash),
        (e.treeFor deserialize source c.fileId).1 = some tree ∧ c.chunkId = i
        ∧ tree[i]? = some leaf ∧ resp = answer sha256 ed e c tree i leaf now := by
  rw [handleChallenge, generateResponse]
  split
  · rename_i hempty
    simp [hempty]
  rename_i hid
  rcases htree : e.treeFor .. with ⟨_ | tree, e'⟩
  · simp
  dsimp only
  split
  · simp only [reduceCtorEq, Option.some.injEq, false_iff, not_and, not_exists]
    rintro - tree' i leaf rfl hi hleaf -
    obtain ⟨hlt, -⟩ := List.getElem_of_getElem? hleaf
    omega
  · rename_i hrange
    obtain ⟨i, hi⟩ : ∃ i : Nat, c.chunkId = i := ⟨c.chunkId.toNat, by omega⟩
    have hlt : i < tree.length := by omega
    rw [proofOf, if_neg hrange, hi, Int.toNat_natCast, List.getElem?_eq_getElem hlt]
    constructor
    · intro h
      exact ⟨hid, tree, i, _, rfl, rfl, List.getElem?_eq_getElem hlt, (Except.ok.inj h).symm⟩
    · rintro ⟨-, tree', i', leaf, htree', hi', hleaf, rfl⟩
      cases htree'
      obtain rfl : i = i' := by omega
      rw [List.getElem?_eq_getElem hlt] at hleaf
      cases hleaf
      rfl

/-- A challenge for an index of the tree is answered, and the answer accepted
with the root of the tree. -/
lemma passes_of_treeFor (hed : ed.Correct) {c : Challenge}
    (htree : (e.treeFor deserialize source c.fileId).1 = some tree) (hid : c.challengeId ≠ [])
    (hprovider : c.providerId = e.providerId) {i : Nat} (hi : i < tree.length)
    (hchunk : c.chunkId = i) {root : Hash}
    (hroot : MerkleTrees.root (hashPair sha256) tree = some root)
    (htime : 0 < maxTimeout → now ≤ c.createdAt + maxTimeout) :
    ∃ resp, (e.handleChallenge sha256 ed deserialize source c now).1 = .ok resp
      ∧ verifyChallengeResponse sha256 ed c resp root.val (ed.publicKey e.privKey) maxTimeout =
        .ok () := by
  have hleaf := List.getElem?_eq_getElem hi
  refine ⟨_, handleChallenge_eq_ok.mpr ⟨hid, tree, i, _, htree, hchunk, hleaf, rfl⟩, ?_⟩
  exact (verifyChallengeResponse_eq_ok ..).mpr
    (accepted_answer hed hid hprovider hchunk hleaf hroot htime)

end ProofEngine

end Cipher.Availability
