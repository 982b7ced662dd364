import Cipher.Possession

/-!
# A provider that holds its chunks

The publisher's root is that of all chunk IDs in the manifest. A provider
answers with that tree if the tree was made of the manifest; at start-up it is
made of the chunks that are there, so a provider that is restarted with some
of the chunks of a file answers for another tree (`incomplete_holder_fails`).

The answers are accepted for every index as long as the provider has all or
none of the chunks of a file when it is started, and does not put another
manifest in the place of one whose tree it has (`honest_holder_passes`).
-/

namespace Cipher.Availability

open Bytes Binary Go Content MerkleTrees Slices Transition List Option

variable (sha256 : List UInt8 → Hash) (ed : Ed25519) (deserialize : List UInt8 → Option Manifest)

/-- The manifest that is stored for the file, if there is one, has these
chunks. -/
def Agrees (store : Storage) (fileId : Str) (tree : List Hash) : Prop :=
  ∀ (id : ContentID) (m : Manifest), fileId = hexEncode id.val →
    (store.getManifestBytes id).bind deserialize = some m → m.chunkIds = tree

/-- Chunks are stored under their hash. -/
def StoredByHash (store : Storage) : Prop :=
  ∀ id chunk, store.getChunk id = .ok chunk → sha256 chunk.data = id

def Held (store : Storage) (id : ChunkID) : Prop := ∃ chunk, store.getChunk id = .ok chunk

/-- No tree is made, and no manifest is replaced, so that the tree of a file
is not that of its manifest. -/
def Faithful : NodeAction → ProviderNode → Prop
  | .storage store, s => ∀ fileId tree, s.engine.trees fileId = some tree →
    Agrees deserialize store fileId tree
  | .register fileId chunks, s => Agrees deserialize s.store fileId (chunks.map sha256)
  | .registerTree fileId tree, s => Agrees deserialize s.store fileId tree
  | .challenge _ _, _ => True
  | .restart manifests, s => StoredByHash sha256 s.store ∧ ∀ mid ∈ manifests, ∀ m,
    (s.store.getManifestBytes mid).bind deserialize = some m → m.descriptor.id = mid ∧
      ((∀ cid ∈ m.chunkIds, Held s.store cid) ∨ ∀ cid ∈ m.chunkIds, ¬Held s.store cid)

/-- Every tree is that of the manifest. -/
def TreesAgree (s : ProviderNode) : Prop :=
  ∀ fileId tree, s.engine.trees fileId = some tree → Agrees deserialize s.store fileId tree

variable {sha256 deserialize}

/-! ## Start-up -/

lemma map_rawChunks {m : Manifest} (hhash : StoredByHash sha256 store)
    (hheld : ∀ cid ∈ m.chunkIds, Held store cid) :
    (ProofEngine.rawChunks store m).map sha256 = m.chunkIds := by
  rw [ProofEngine.rawChunks]
  revert hheld
  induction m.chunkIds with
  | nil => exact fun _ => rfl
  | cons cid rest ih =>
    intro hheld
    obtain ⟨⟨chunk, hchunk⟩, hrest⟩ := forall_mem_cons.mp hheld
    rw [filterMap_cons, hchunk]
    change sha256 chunk.data :: _ = _
    rw [hhash cid chunk hchunk, ih hrest]

lemma rawChunks_eq_nil {m : Manifest} (hnone : ∀ cid ∈ m.chunkIds, ¬Held store cid) :
    ProofEngine.rawChunks store m = [] := by
  refine filterMap_eq_nil_iff.mpr fun cid hcid => ?_
  cases hchunk : store.getChunk cid with
  | error e => rfl
  | ok chunk => exact absurd ⟨chunk, hchunk⟩ (hnone cid hcid)

lemma agree_registerFileChunks {chunks : List (List UInt8)} (h : TreesAgree deserialize ⟨e, store⟩)
    (hagree : Agrees deserialize store fileId (chunks.map sha256)) :
    TreesAgree deserialize ⟨(e.registerFileChunks sha256 fileId chunks).2, store⟩ := by
  intro other tree htree
  rcases ProofEngine.trees_registerFileChunks htree with ⟨rfl, rfl, -⟩ | ⟨hbefore, -⟩
  · exact hagree
  · exact h other tree hbefore

lemma agree_registerTree (h : TreesAgree deserialize ⟨e, store⟩)
    (hagree : Agrees deserialize store fileId tree) :
    TreesAgree deserialize ⟨(e.registerTree fileId (some tree)).2, store⟩ := by
  intro other leaves htree
  rcases ProofEngine.trees_registerTree htree with ⟨rfl, rfl⟩ | hbefore
  · exact hagree
  · exact h other leaves hbefore

lemma agree_startUp {manifests : List ContentID} (hhash : StoredByHash sha256 store)
    (hall : ∀ mid ∈ manifests, ∀ m, (store.getManifestBytes mid).bind deserialize = some m →
      m.descriptor.id = mid ∧
        ((∀ cid ∈ m.chunkIds, Held store cid) ∨ ∀ cid ∈ m.chunkIds, ¬Held store cid))
    (h : TreesAgree deserialize ⟨e, store⟩) :
    TreesAgree deserialize
      ⟨manifests.foldl (ProofEngine.registerManifest sha256 deserialize store) e, store⟩ := by
  induction manifests generalizing e with
  | nil => exact h
  | cons mid manifests ih =>
    obtain ⟨hmid, hrest⟩ := forall_mem_cons.mp hall
    refine ih hrest ?_
    rw [ProofEngine.registerManifest]
    split
    · exact h
    · rename_i m hm
      obtain ⟨rfl, hheld⟩ := hmid m hm
      split
      · rename_i hpos
        rcases hheld with hheld | hnone
        · refine agree_registerFileChunks h fun id m' hid hm' => ?_
          obtain rfl := Subtype.ext (hexEncode_injective hid)
          rw [hm] at hm'
          rw [map_rawChunks hhash hheld, Option.some.inj hm']
        · rw [rawChunks_eq_nil hnone] at hpos
          cases hpos
      · exact h

/-! ## Histories -/

lemma agree_treeFor (h : TreesAgree deserialize s) (fileId : Str) : TreesAgree deserialize
      ⟨(s.engine.treeFor deserialize (some s.store) fileId).2, s.store⟩ := by
  cases htree : s.engine.trees fileId with
  | some tree =>
    rw [ProofEngine.treeFor_of_some htree]
    exact h
  | none =>
    cases hload : loadTree deserialize (some s.store) fileId with
    | none =>
      rw [ProofEngine.treeFor_of_none htree hload]
      exact h
    | some tree =>
      rw [ProofEngine.treeFor_of_load htree hload]
      refine agree_registerTree h fun id m hid hm => ?_
      rw [hid, loadTree_hexEncode, hm, bind_some] at hload
      split at hload
      · cases hload
      · exact Option.some.inj hload

lemma agree_step {a : NodeAction}
    (hok : Faithful sha256 deserialize a s) (hstep : s.step sha256 ed deserialize a = some s')
    (h : TreesAgree deserialize s) : TreesAgree deserialize s' := by
  cases a with cases hstep
  | storage store => exact hok
  | register fileId chunks => exact agree_registerFileChunks h hok
  | registerTree fileId tree => exact agree_registerTree h hok
  | challenge c now =>
    rcases ProofEngine.handleChallenge_snd .. with heq | heq
    · rw [heq]
      exact h
    · rw [heq]
      exact agree_treeFor h c.fileId
  | restart manifests =>
    refine agree_startUp hok.1 hok.2 fun fileId tree htree => ?_
    cases htree

/-- In a history that keeps the trees to the manifests, a provider with the
manifest passes every challenge for an index of the file that it answers in
time. -/
theorem honest_holder_passes (hed : ed.Correct) {s₀ s : ProviderNode} (hinit : s₀.Fresh)
    (hr : Run (ProviderNode.step sha256 ed deserialize) (Faithful sha256 deserialize) s₀ s)
    (m : Manifest) (hm : (s.store.getManifestBytes m.descriptor.id).bind deserialize = some m)
    (spare : Nat → Nat → Nat) (mem mem' : Memory Hash) (t : MerkleTree)
    (hroot : newMerkleTree sha256 spare (m.chunkIds.map Subtype.val) mem = some (.ok t, mem'))
    (c : Challenge) (hid : c.challengeId ≠ []) (hprovider : c.providerId = s.engine.providerId)
    (hfile : c.fileId = hexEncode m.descriptor.id.val) (i : Nat) (hi : i < m.chunkIds.length)
    (hchunk : c.chunkId = i) (now maxTimeout : Int)
    (htime : 0 < maxTimeout → now ≤ c.createdAt + maxTimeout) :
    ∃ resp, (s.engine.handleChallenge sha256 ed deserialize (some s.store) c now).1 = .ok resp
      ∧ verifyChallengeResponse sha256 ed c resp t.root.val (ed.publicKey s.engine.privKey)
        maxTimeout = .ok () := by
  have hagree : TreesAgree deserialize s :=
    hr.inv (I := TreesAgree _) (fun fileId tree htree => by
      rw [hinit.trees] at htree
      cases htree) fun _ _ _ hok hstep h => agree_step ed hok hstep h
  have htree : (s.engine.treeFor deserialize (some s.store) c.fileId).1 = some m.chunkIds := by
    cases hcached : s.engine.trees c.fileId with
    | some tree =>
      rw [ProofEngine.treeFor_of_some hcached, hagree _ tree hcached _ m hfile hm]
    | none =>
      have hload : loadTree deserialize (some s.store) c.fileId = some m.chunkIds := by
        rw [hfile, loadTree_hexEncode, hm, bind_some,
          if_neg (ne_nil_of_length_pos (Nat.zero_lt_of_lt hi))]
      rw [ProofEngine.treeFor_of_load hcached hload]
  exact ProofEngine.passes_of_treeFor hed htree hid hprovider hi hchunk
    (root_of_newMerkleTree sha256 spare hroot) htime

/-! ## Samples -/

lemma StoredByHash.putChunk (h : StoredByHash sha256 store) {chunk : Chunk}
    (hchunk : sha256 chunk.data = chunk.header.id) :
    StoredByHash sha256 (store.putChunk chunk) := by
  intro id chunk' hget
  by_cases hid : id = chunk.header.id
  · subst hid
    rw [Storage.getChunk_putChunk] at hget
    cases hget
    exact hchunk
  · rw [Storage.getChunk_putChunk_of_ne _ hid] at hget
    exact h id chunk' hget

lemma storedByHash_storing_nil : StoredByHash countingHash (storing []) :=
  fun id chunk hget => absurd hget (getChunk_storing_nil id chunk)

/-- The second chunk, and the first as well. -/
lemma storedByHash_storing :
    StoredByHash countingHash (storing [7]) ∧ StoredByHash countingHash (storing [7, 5]) := by
  have h7 : StoredByHash countingHash (storing [7]) :=
    storedByHash_storing_nil.putChunk (by decide)
  exact ⟨h7, h7.putChunk (by decide)⟩

lemma getChunk_storing_seven : (storing [7]).getChunk (counted 7) = .ok (countedChunk 7) :=
  Storage.getChunk_putChunk ..

lemma held_storing : ∀ cid ∈ sampleManifest.chunkIds, Held (storing [7, 5]) cid := by
  intro cid hcid
  rcases mem_pair.mp hcid with rfl | rfl
  · exact ⟨_, Storage.getChunk_putChunk ..⟩
  · have hne : counted 7 ≠ (countedChunk 5).header.id := by decide
    exact ⟨_, (Storage.getChunk_putChunk_of_ne _ hne).trans getChunk_storing_seven⟩

/-- The node is started with both chunks and then asked for the second. -/
theorem honest_holder_passes_sample : ∃ s resp t mem',
    Run (ProviderNode.step countingHash sampleEd fun _ => some sampleManifest)
      (Faithful countingHash fun _ => some sampleManifest) (sampleNode (storing [7, 5])) s ∧
    newMerkleTree countingHash (fun _ _ => 0) (sampleManifest.chunkIds.map Subtype.val)
      ⟨fun _ _ => counted 0, 0⟩ = some (.ok t, mem') ∧
    (s.engine.handleChallenge countingHash sampleEd (fun _ => some sampleManifest) (some s.store)
      (sampleChallenge 1) 3).1 = .ok resp ∧
    verifyChallengeResponse countingHash sampleEd (sampleChallenge 1) resp t.root.val
      (sampleEd.publicKey s.engine.privKey) 10 = .ok () := by
  obtain ⟨t, mem', hnew, -⟩ := newMerkleTree_sample
  have hmanifest : ((storing [7, 5]).getManifestBytes (counted 1)).bind
      (fun _ => some sampleManifest) = some sampleManifest := by
    rfl
  have hok : Faithful countingHash (fun _ => some sampleManifest) (.restart [counted 1])
      (sampleNode (storing [7, 5])) := by
    refine ⟨storedByHash_storing.2, fun mid hmid m hm => ?_⟩
    obtain rfl := mem_singleton.mp hmid
    rw [Option.some.inj (hm.symm.trans hmanifest)]
    exact ⟨rfl, .inl held_storing⟩
  obtain ⟨resp, hresp, hverify⟩ := honest_holder_passes sampleEd sampleEd_correct
    (fresh_sampleNode _) (.tail .refl hok rfl) sampleManifest hmanifest (fun _ _ => 0) _ mem' t hnew
    (sampleChallenge 1) (by decide) rfl rfl 1 (by decide) rfl 3 10 (by decide)
  exact ⟨_, resp, t, mem', .tail .refl hok rfl, hnew, hresp, hverify⟩

/-- The node is started with the second of two chunks and cannot answer for
it. -/
theorem incomplete_holder_fails : ∃ s,
    execute (ProviderNode.step countingHash sampleEd fun _ => some sampleManifest)
      [.restart [sampleManifest.descriptor.id]] (sampleNode (storing [7])) = some s ∧
    StoredByHash countingHash s.store ∧
    (s.store.getManifestBytes sampleManifest.descriptor.id).isSome ∧
    sampleManifest.chunkIds[1]? = some (counted 7) ∧ Held s.store (counted 7) ∧
    (s.engine.handleChallenge countingHash sampleEd (fun _ => some sampleManifest) (some s.store)
      (sampleChallenge 1) 3).1 = .error .chunkIndex := by
  refine ⟨_, rfl, storedByHash_storing.1, ?_, rfl, ⟨_, getChunk_storing_seven⟩, ?_⟩
  · rfl
  · rfl

end Cipher.Availability
