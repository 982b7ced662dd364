import Cipher.ProofEngine

/-!
# What a passed challenge says about the provider

A provider's node over its whole history: files of the store appear and
disappear, trees are registered, challenges are answered and the node is
restarted. A challenge that is passed need not mean that the provider has the
chunk, as the manifest is enough to answer it (`challenge_without_chunk`). It
does if trees come from `RegisterFileChunks` alone, with no more chunks than
the file has and as many levels: the engine keeps the data it was given then
(`passed_challenge_possession`).
-/

namespace Cipher.Availability

open Bytes Binary Go Content MerkleTrees Slices Transition List

/-! ## A node -/

structure ProviderNode where
  engine : ProofEngine
  store : Storage

inductive NodeAction where
  /-- Chunks and manifests are written or deleted. -/
  | storage (store : Storage)
  | register (fileId : Str) (chunks : List (List UInt8))
  | registerTree (fileId : Str) (tree : List Hash)
  | challenge (c : Challenge) (now : Int)
  /-- The node starts again; `ListManifests` returns `manifests`. -/
  | restart (manifests : List ContentID)

variable (sha256 : List UInt8 → Hash) (ed : Ed25519) (deserialize : List UInt8 → Option Manifest)

def ProviderNode.step : NodeAction → ProviderNode → Option ProviderNode
  | .storage store, s => some { s with store }
  | .register fileId chunks, s =>
    some { s with engine := (s.engine.registerFileChunks sha256 fileId chunks).2 }
  | .registerTree fileId tree, s =>
    some { s with engine := (s.engine.registerTree fileId (some tree)).2 }
  | .challenge c now, s =>
    some { s with
      engine := (s.engine.handleChallenge sha256 ed deserialize (some s.store) c now).2 }
  | .restart manifests, s =>
    some { s with engine := s.engine.startUp sha256 deserialize s.store manifests }

/-- A node before start-up. -/
structure ProviderNode.Fresh (s : ProviderNode) : Prop where
  trees : ∀ fileId, s.engine.trees fileId = none
  chunkPayload : ∀ fileId i, s.engine.chunkPayload fileId i = none

/-- Data with this hash is in the chunk store or was registered. -/
def Possesses (s : ProviderNode) (leaf : Hash) : Prop :=
  (∃ id chunk, s.store.getChunk id = .ok chunk ∧ sha256 chunk.data = leaf) ∨
    ∃ fileId i data, s.engine.chunkPayload fileId i = some data ∧ sha256 data = leaf

/-! ## Trees with their chunks -/

-- the leaves of the tree of each file
variable (file : Str → List Hash)

/-- No more leaves than the file has, and as many levels. -/
def Fits (fileId : Str) (n : Nat) : Prop :=
  n ≤ (file fileId).length ∧ depth n = depth (file fileId).length

/-- Trees come from `RegisterFileChunks`. -/
def FromChunks : NodeAction → ProviderNode → Prop
  | .storage _, _ => True
  | .register fileId chunks, _ => Fits file fileId chunks.length
  | .registerTree _ _, _ => False
  | .challenge c _, s =>
    (s.engine.trees c.fileId).isSome ∨ loadTree deserialize (some s.store) c.fileId = none
  | .restart manifests, s => ∀ mid ∈ manifests, ∀ m,
    (s.store.getManifestBytes mid).bind deserialize = some m →
      ProofEngine.rawChunks s.store m = [] ∨
        Fits file (hexEncode m.descriptor.id.val) (ProofEngine.rawChunks s.store m).length

/-- The engine has the data of every leaf. -/
structure Backed (e : ProofEngine) : Prop where
  fits : ∀ {fileId tree}, e.trees fileId = some tree → Fits file fileId tree.length
  data : ∀ {fileId tree}, e.trees fileId = some tree → ∀ {i : Nat} {leaf}, tree[i]? = some leaf →
    ∃ data, e.chunkPayload fileId i = some data ∧ sha256 data = leaf

variable {sha256 deserialize file}

lemma Backed.registerFileChunks (h : Backed sha256 file e)
    {chunks : List (List UInt8)} (hfits : Fits file fileId chunks.length) :
    Backed sha256 file (e.registerFileChunks sha256 fileId chunks).2 := by
  constructor
  · intro other tree htree
    rcases ProofEngine.trees_registerFileChunks htree with ⟨rfl, rfl, -⟩ | ⟨hbefore, -⟩
    · rwa [length_map]
    · exact h.fits hbefore
  · intro other tree htree i leaf hleaf
    rcases ProofEngine.trees_registerFileChunks htree with ⟨rfl, rfl, hdata⟩ | ⟨hbefore, hdata⟩
    · rw [getElem?_map] at hleaf
      obtain ⟨data, hchunk, rfl⟩ := Option.map_eq_some_iff.mp hleaf
      exact ⟨data, by rw [hdata, hchunk, Option.some_or], rfl⟩
    · rw [hdata]
      exact h.data hbefore hleaf

lemma backed_of_none (htrees : ∀ fileId, e.trees fileId = none) : Backed sha256 file e := by
  constructor
  · intro fileId tree htree
    rw [htrees] at htree
    cases htree
  · intro fileId tree htree
    rw [htrees] at htree
    cases htree

lemma Backed.startUp {store : Storage} {manifests : List ContentID}
    (hfits : ∀ mid ∈ manifests, ∀ m, (store.getManifestBytes mid).bind deserialize = some m →
      ProofEngine.rawChunks store m = [] ∨
        Fits file (hexEncode m.descriptor.id.val) (ProofEngine.rawChunks store m).length)
    (h : Backed sha256 file e) :
    Backed sha256 file
      (manifests.foldl (ProofEngine.registerManifest sha256 deserialize store) e) := by
  induction manifests generalizing e with
  | nil => exact h
  | cons mid manifests ih =>
    obtain ⟨hmid, hrest⟩ := forall_mem_cons.mp hfits
    refine ih hrest ?_
    rw [ProofEngine.registerManifest]
    split
    · exact h
    · rename_i m hm
      split
      · rename_i hpos
        rcases hmid m hm with hnil | hfit
        · rw [hnil] at hpos
          cases hpos
        · exact h.registerFileChunks hfit
      · exact h

lemma Backed.step {a : NodeAction}
    (hok : FromChunks deserialize file a s) (hstep : s.step sha256 ed deserialize a = some s')
    (h : Backed sha256 file s.engine) : Backed sha256 file s'.engine := by
  cases a with
  | storage store =>
    cases hstep
    exact h
  | register fileId chunks =>
    cases hstep
    exact h.registerFileChunks hok
  | registerTree fileId tree => cases hok
  | challenge c now =>
    cases hstep
    -- no tree is loaded, so the engine is the same afterwards
    have hsnd : (s.engine.handleChallenge sha256 ed deserialize (some s.store) c now).2 =
        s.engine := by
      rcases ProofEngine.handleChallenge_snd .. with heq | heq
      · exact heq
      · rw [heq, ProofEngine.treeFor_eq hok]
    rw [hsnd]
    exact h
  | restart manifests =>
    cases hstep
    exact Backed.startUp hok (backed_of_none fun _ => rfl)

lemma Backed.run (hr : Run (ProviderNode.step sha256 ed deserialize)
    (FromChunks deserialize file) s₀ s) (hinit : s₀.Fresh) : Backed sha256 file s.engine :=
  hr.inv (I := fun s => Backed sha256 file s.engine) (backed_of_none hinit.trees)
    fun _ _ _ hok hstep h => h.step ed hok hstep

/-- If all trees come from the chunks of a file, a provider that passes a
challenge has the chunk that it is about. -/
theorem passed_challenge_possession {s₀ s : ProviderNode} (hinit : s₀.Fresh)
    (hr : Run (ProviderNode.step sha256 ed deserialize) (FromChunks deserialize file) s₀ s)
    (c : Challenge) (now maxTimeout : Int) (resp : ChallengeResponse)
    (spare : Nat → Nat → Nat) (m m' : Memory Hash) (t : MerkleTree)
    (hok : FromChunks deserialize file (.challenge c now) s)
    (hresp : (s.engine.handleChallenge sha256 ed deserialize (some s.store) c now).1 = .ok resp)
    (htree : newMerkleTree sha256 spare ((file c.fileId).map Subtype.val) m = some (.ok t, m'))
    (haccept : verifyChallengeResponse sha256 ed c resp t.root.val
      (ed.publicKey s.engine.privKey) maxTimeout = .ok ())
    (hfree : CollisionFree sha256 (treeInputs sha256 (file c.fileId) ++
      proofInputs sha256 resp.chunkHash c.chunkId.toNat resp.merkleProof)) :
    ∃ (i : Nat) (leaf : Hash), c.chunkId = i ∧ (file c.fileId)[i]? = some leaf
      ∧ Possesses sha256 s leaf := by
  have hbacked := Backed.run ed hr hinit
  have hmerkle := ((verifyChallengeResponse_eq_ok ..).mp haccept).merkleProof
  obtain ⟨-, tree, i, leaf, hfor, hi, hleaf, rfl⟩ := ProofEngine.handleChallenge_eq_ok.mp hresp
  have htrees : s.engine.trees c.fileId = some tree := by
    rw [ProofEngine.treeFor_eq hok] at hfor
    exact hfor
  obtain ⟨hle, hdepth⟩ := hbacked.fits htrees
  obtain ⟨hlt, -⟩ := List.getElem_of_getElem? hleaf
  rw [hi] at hfree
  refine ⟨i, leaf, hi, ?_, .inr ⟨c.fileId, i, hbacked.data htrees hleaf⟩⟩
  refine leaf_of_verify sha256 (root_of_newMerkleTree sha256 spare htree) ?_ (by omega) hfree
    hmerkle
  rw [ProofEngine.answer, length_map, length_path _ hlt, hdepth]

/-! ## Samples -/

def sampleEd : Ed25519 where
  publicKey key := key.val.drop 32
  sign key message := (Block.ofList 64 (key.val.drop 32 ++ message)).val
  verify key message sig := sig == (Block.ofList 64 (key ++ message)).val

lemma sampleEd_correct : sampleEd.Correct where
  length_publicKey key := by
    change (key.val.drop 32).length = 32
    rw [length_drop, key.property]
  length_sign key message := (Block.ofList 64 (key.val.drop 32 ++ message)).property
  verify_sign _ _ := beq_self_eq_true _

/-- A file of two chunks. -/
def sampleManifest : Manifest where
  version := 1
  descriptor := ⟨counted 1, [], 64⟩
  chunkIds := [counted 5, counted 7]
  merkleRoot := counted 0
  wholeHash := counted 0
  crypto := ⟨[], 1, 12, []⟩

/-- The chunk with the ID `counted n`: its data hash to that. -/
def countedChunk (n : Nat) : Chunk :=
  ⟨⟨1, counted n, 0, 0, 32, 32, Block.ofList 12 []⟩, (counted (n - 1)).val⟩

/-- The manifest and these chunks. -/
def storing (ns : List Nat) : Storage :=
  ns.foldl (fun store n => store.putChunk (countedChunk n))
    (Storage.putManifestBytes ⟨fun _ => none⟩ (counted 1) [])

def sampleNode (store : Storage) : ProviderNode :=
  ⟨⟨[2], Block.ofList 64 [9], fun _ => none, fun _ _ => none⟩, store⟩

def sampleChallenge (chunkId : Int) : Challenge :=
  ⟨[1], [3], [2], hexEncode (counted 1).val, [], chunkId, [4], 0, 0, false, 0⟩

lemma getChunk_storing_nil (id : ChunkID) (chunk : Chunk) :
    (storing []).getChunk id ≠ .ok chunk := by
  rw [storing, foldl_nil, Storage.getChunk_putManifestBytes]
  nofun

lemma fresh_sampleNode (store : Storage) : (sampleNode store).Fresh :=
  ⟨fun _ => rfl, fun _ _ => rfl⟩

lemma newMerkleTree_sample : ∃ t mem',
    newMerkleTree countingHash (fun _ _ => 0) (sampleManifest.chunkIds.map Subtype.val)
      ⟨fun _ _ => counted 0, 0⟩ = some (.ok t, mem')
    ∧ MerkleTrees.root (hashPair countingHash) sampleManifest.chunkIds = some t.root := by
  have hleaves : checkLeaves (sampleManifest.chunkIds.map Subtype.val) =
      .ok sampleManifest.chunkIds := checkLeaves_map_val (by simp [sampleManifest])
  obtain ⟨t, mem', hnew, hrep⟩ := newMerkleTree_represents _ (fun _ _ => 0) hleaves
    ⟨fun _ _ => counted 0, 0⟩
  exact ⟨t, mem', hnew, hrep.root⟩

/-- The node after the two chunks were registered. -/
def registeredNode : ProviderNode :=
  ⟨((sampleNode (storing [])).engine.registerFileChunks countingHash (sampleChallenge 0).fileId
    [(counted 4).val, (counted 6).val]).2, storing []⟩

lemma trees_registeredNode :
    registeredNode.engine.trees (sampleChallenge 1).fileId = some sampleManifest.chunkIds := by
  have hfile : (sampleChallenge 1).fileId ≠ [] := hexEncode_ne_nil _
  rw [registeredNode]
  decide

/-- The two chunks are registered, and the challenge for the second passed. -/
theorem passed_challenge_possession_sample : ∃ resp t mem',
    newMerkleTree countingHash (fun _ _ => 0) (sampleManifest.chunkIds.map Subtype.val)
      ⟨fun _ _ => counted 0, 0⟩ = some (.ok t, mem') ∧
    (registeredNode.engine.handleChallenge countingHash sampleEd (fun _ => some sampleManifest)
      (some registeredNode.store) (sampleChallenge 1) 3).1 = .ok resp ∧
    verifyChallengeResponse countingHash sampleEd (sampleChallenge 1) resp t.root.val
      (sampleEd.publicKey registeredNode.engine.privKey) 10 = .ok () ∧
    ∃ (i : Nat) (leaf : Hash), (sampleChallenge 1).chunkId = i
      ∧ sampleManifest.chunkIds[i]? = some leaf ∧ Possesses countingHash registeredNode leaf := by
  have hrun : Run (ProviderNode.step countingHash sampleEd fun _ => some sampleManifest)
      (FromChunks (fun _ => some sampleManifest) fun _ => sampleManifest.chunkIds)
      (sampleNode (storing [])) registeredNode :=
    .tail .refl (a := .register (sampleChallenge 0).fileId [(counted 4).val, (counted 6).val])
      ⟨Nat.le_refl 2, rfl⟩ rfl
  obtain ⟨t, mem', hnew, hroot⟩ := newMerkleTree_sample
  have htree : (registeredNode.engine.treeFor (fun _ => some sampleManifest)
      (some registeredNode.store) (sampleChallenge 1).fileId).1 = some sampleManifest.chunkIds := by
    rw [ProofEngine.treeFor_of_some trees_registeredNode]
  have htime : (0 : Int) < 10 → (3 : Int) ≤ (sampleChallenge 1).createdAt + 10 := by decide
  obtain ⟨resp, hresp, hverify⟩ := ProofEngine.passes_of_treeFor (i := 1) sampleEd_correct htree
    (by decide) rfl (by decide) rfl hroot htime
  refine ⟨resp, t, mem', hnew, hresp, hverify, ?_⟩
  refine passed_challenge_possession sampleEd (fresh_sampleNode _) hrun _ 3 10
    resp _ _ mem' t (.inl (by rw [trees_registeredNode]; rfl)) hresp hnew hverify ?_
  -- the tree and the proof hash the same two leaves, and nothing else
  obtain ⟨-, tree, i, leaf, hfor, hi, hleaf, rfl⟩ := ProofEngine.handleChallenge_eq_ok.mp hresp
  cases htree.symm.trans hfor
  cases hi
  cases hleaf
  have hinput : ∀ x ∈ [(counted 5).val ++ (counted 7).val, (counted 5).val ++ (counted 7).val],
      x = (counted 5).val ++ (counted 7).val := by simp
  exact fun x hx y hy _ => (hinput x hx).trans (hinput y hy).symm

/-- A provider that has the manifest and no chunk passes a challenge. -/
theorem challenge_without_chunk : ∃ resp t mem', (sampleNode (storing [])).Fresh ∧
    newMerkleTree countingHash (fun _ _ => 0) (sampleManifest.chunkIds.map Subtype.val)
      ⟨fun _ _ => counted 0, 0⟩ = some (.ok t, mem') ∧
    ((sampleNode (storing [])).engine.handleChallenge countingHash sampleEd
      (fun _ => some sampleManifest) (some (storing [])) (sampleChallenge 0) 3).1 = .ok resp ∧
    verifyChallengeResponse countingHash sampleEd (sampleChallenge 0) resp t.root.val
      (sampleEd.publicKey (sampleNode (storing [])).engine.privKey) 10 = .ok () ∧
    ∀ leaf, ¬Possesses countingHash (sampleNode (storing [])) leaf := by
  obtain ⟨t, mem', hnew, hroot⟩ := newMerkleTree_sample
  have hload : loadTree (fun _ => some sampleManifest) (some (storing []))
      (sampleChallenge 0).fileId = some sampleManifest.chunkIds := by
    rfl
  have htree : ((sampleNode (storing [])).engine.treeFor (fun _ => some sampleManifest)
      (some (storing [])) (sampleChallenge 0).fileId).1 = some sampleManifest.chunkIds := by
    rw [ProofEngine.treeFor_of_load rfl hload]
  have htime : (0 : Int) < 10 → (3 : Int) ≤ (sampleChallenge 0).createdAt + 10 := by decide
  obtain ⟨resp, hresp, hverify⟩ := ProofEngine.passes_of_treeFor (i := 0) sampleEd_correct htree
    (by decide) rfl (by decide) rfl hroot htime
  refine ⟨resp, t, mem', fresh_sampleNode _, hnew, hresp, hverify, ?_⟩
  rintro leaf (⟨id, chunk, hchunk, -⟩ | ⟨fileId, i, data, hdata, -⟩)
  · exact getChunk_storing_nil id chunk hchunk
  · cases hdata

end Cipher.Availability
