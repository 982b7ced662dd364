import Cipher.Engine

/-!
# What is ingested is reassembled

`Cut` says what `Split` makes of a stream: chunks of one size, the last one
perhaps shorter, numbered and with the bytes in front of them counted.
Both counters are machine integers, so the index stays below `2 ^ 32`
chunks, and the offset, an `int64`, only tells the bytes in front of a
chunk apart up to `2 ^ 63`.

`Ingest` stores the sealed chunks under their hashes. As long as these
differ, `Reassemble` finds every one of them again, opens it, and the
indices put them in the order they are already in.
-/

namespace Cipher.Content

open Bytes Binary Go List

/-! ## Cutting a stream -/

/-- A chunk as `Split` emits it. -/
def plainChunk (index : UInt32) (offset : Int64) (data : List UInt8) : Chunk :=
  { header :=
      { version := 1, id := Block.ofList 32 [], index, offset, plainSize := .ofNat data.length,
        cipherSize := 0, nonce := Block.ofList 12 [] }
    data }

/-- The chunks of a stream, from a given index and offset on. -/
inductive Cut (size : Nat) : UInt32 → Int64 → List UInt8 → List Chunk → Prop where
  | nil (index : UInt32) (offset : Int64) : Cut size index offset [] []
  | last {data : List UInt8} (hne : data ≠ []) (hlt : data.length < size)
      : Cut size index offset data [plainChunk index offset data]
  | cons {data rest : List UInt8} {chunks : List Chunk} (hlen : data.length = size)
      (hrest : Cut size (index + 1) (offset + .ofNat data.length) rest chunks) :
      Cut size index offset (data ++ rest) (plainChunk index offset data :: chunks)

lemma readFull_of_le {r : Reader} (h : size ≤ r.bytes.length) :
    readFull size r = (r.bytes.take size, none, { r with bytes := r.bytes.drop size }) := if_pos h

lemma readFull_of_lt {r : Reader} (h : r.bytes.length < size) : readFull size r = (r.bytes,
      some (if r.fails then .other else if r.bytes = [] then .eof else .unexpectedEOF),
      { r with bytes := [] }) := if_neg (not_le.mpr h)

/-- The loop ends within one turn more than there are bytes. -/
lemma splitLoop_cut {chunkSize : UInt32} (hsize : 0 < chunkSize.toNat) :
    ∀ {index : UInt32} {offset : Int64} {r : Reader}, r.bytes.length < fuel →
      ∃ chunks, splitLoop chunkSize fuel index offset r
          = some (chunks, if r.fails then some .other else none)
        ∧ Cut chunkSize.toNat index offset r.bytes chunks := by
  induction fuel with
  | zero => intro index offset r h; omega
  | succ fuel ih =>
    intro index offset r hfuel
    unfold splitLoop
    by_cases hfull : chunkSize.toNat ≤ r.bytes.length
    · have hlen : (r.bytes.take chunkSize.toNat).length = chunkSize.toNat := by
        rw [length_take, Nat.min_eq_left hfull]
      have hpos : (r.bytes.take chunkSize.toNat).length > 0 := by omega
      obtain ⟨chunks, heq, hcut⟩ := @ih (index + 1)
        (offset + .ofNat (r.bytes.take chunkSize.toNat).length)
        { r with bytes := r.bytes.drop chunkSize.toNat } (by simp only [length_drop]; omega)
      refine ⟨plainChunk index offset (r.bytes.take chunkSize.toNat) :: chunks, ?_, ?_⟩
      · rw [readFull_of_le hfull]
        simp only [hpos, if_true, heq, Option.map_some]
        rfl
      · have hsplit := Cut.cons hlen hcut
        rwa [take_append_drop] at hsplit
    · rw [readFull_of_lt (not_le.mp hfull)]
      by_cases hempty : r.bytes = []
      · refine ⟨[], ?_, hempty ▸ .nil ..⟩
        cases hfails : r.fails <;> simp [hempty]
      · have hpos : r.bytes.length > 0 := length_pos_iff.mpr hempty
        refine ⟨_, ?_, .last hempty (not_le.mp hfull)⟩
        cases hfails : r.fails <;> simp [hempty, hpos, plainChunk]

section Cut

variable
  {chunks : List Chunk}

section

variable (h : Cut size index offset bytes chunks)

include h

lemma Cut.flatMap_data : chunks.flatMap Chunk.data = bytes := by
  induction h with
  | nil => rfl
  | last => simp [plainChunk]
  | cons hlen hrest ih => rw [flatMap_cons, ih]; rfl

/-- All chunks but the last are full. -/
lemma Cut.length_mul_lt (hsize : 0 < size) : chunks.length * size < bytes.length + size := by
  induction h with
  | nil => simpa using hsize
  | @last index offset data hne hlt =>
    have hpos := length_pos_iff.mpr hne
    simp only [length_cons, length_nil, Nat.zero_add, Nat.one_mul]
    omega
  | cons hlen hrest ih =>
    rw [length_cons, length_append, Nat.add_mul]
    omega

lemma Cut.length_le : bytes.length ≤ chunks.length * size := by
  induction h with
  | nil => simp
  | last hne hlt => simpa using hlt.le
  | cons hlen hrest ih =>
    rw [length_append, length_cons, Nat.add_mul]
    omega

lemma Cut.length_data_le : ∀ c ∈ chunks, c.data.length ≤ size := by
  induction h with
  | nil => simp
  | last hne hlt => simpa [plainChunk] using hlt.le
  | cons hlen hrest ih => exact forall_mem_cons.mpr ⟨hlen.le, ih⟩

/-- The chunk at a position. -/
lemma Cut.getElem : ∀ (i : Nat) (hi : i < chunks.length), chunks[i] = plainChunk (index + .ofNat i)
          (offset + .ofNat ((chunks.take i).flatMap Chunk.data).length) chunks[i].data
        ∧ (i + 1 < chunks.length → chunks[i].data.length = size) := by
  induction h with
  | nil => intro i hi; simp at hi
  | last hne hlt =>
    intro i hi
    obtain rfl : i = 0 := by simpa using hi
    simp [plainChunk]
  | @cons index offset data rest chunks hlen hrest ih =>
    intro i hi
    cases i with
    | zero => simp [plainChunk, hlen]
    | succ i =>
      obtain ⟨heq, hfull⟩ := ih i (by simpa using hi)
      simp only [getElem_cons_succ, take_succ_cons, flatMap_cons,
        length_append, length_cons, Nat.add_lt_add_iff_right]
      refine ⟨heq.trans ?_, hfull⟩
      have hindex : index + 1 + UInt32.ofNat i = index + UInt32.ofNat (i + 1) := by
        rw [UInt32.ofNat_add, UInt32.add_assoc, UInt32.add_comm 1]
        rfl
      have hoffset : ∀ n, offset + Int64.ofNat data.length + Int64.ofNat n
          = offset + Int64.ofNat (data.length + n) := fun n => by
        rw [Int64.ofNat_add, Int64.add_assoc]
      rw [hindex, hoffset]
      rfl

/-- The bytes in front of a chunk. -/
lemma Cut.length_take :
    ∀ {i : Nat}, i < chunks.length → ((chunks.take i).flatMap Chunk.data).length = i * size := by
  induction h with
  | nil => intro i hi; simp at hi
  | last hne hlt =>
    intro i hi
    obtain rfl : i = 0 := by simpa using hi
    simp
  | cons hlen hrest ih =>
    intro i hi
    cases i with
    | zero => simp
    | succ i =>
      rw [take_succ_cons, flatMap_cons, length_append,
        ih (by simpa using hi), Nat.add_mul, Nat.one_mul, Nat.add_comm]
      exact congrArg _ hlen

end

section

variable (h : Cut size 0 offset bytes chunks) (hcount : chunks.length ≤ 2 ^ 32)

include h hcount

/-- The index of a chunk is its position, while it fits. -/
lemma Cut.index_eq (hi : i < chunks.length) : chunks[i].header.index.toNat = i := by
  have hlt : i < UInt32.size := lt_of_lt_of_le hi hcount
  rw [(h.getElem i hi).1]
  simp only [plainChunk, UInt32.zero_add]
  exact UInt32.toNat_ofNat_of_lt' hlt

lemma Cut.pairwise_index : chunks.Pairwise indexLess := by
  refine pairwise_iff_getElem.mpr fun i j hi hj hij => ?_
  rw [indexLess, UInt32.lt_iff_toNat_lt, h.index_eq hcount hi, h.index_eq hcount hj]
  exact hij

lemma Cut.eq_of_index (ha : a ∈ chunks) (hb : b ∈ chunks) (heq : a.header.index = b.header.index) :
    a = b := by
  obtain ⟨i, hi, rfl⟩ := getElem_of_mem ha
  obtain ⟨j, hj, rfl⟩ := getElem_of_mem hb
  have hij := congrArg UInt32.toNat heq
  rw [h.index_eq hcount hi, h.index_eq hcount hj] at hij
  subst hij
  rfl

end

lemma Cut.plainSize (h : Cut size index offset bytes chunks) :
    ∀ c ∈ chunks, c.header.plainSize = .ofNat c.data.length := by
  intro c hc
  obtain ⟨i, hi, rfl⟩ := getElem_of_mem hc
  rw [(h.getElem i hi).1]
  rfl

end Cut

/-- The stream is cut into as many chunks as fit it. -/
lemma split_cut (hsize : chunkSize ≠ 0) (r : Reader)
    (hcount : r.bytes.length ≤ 2 ^ 32 * chunkSize.toNat) :
    ∃ chunks, split chunkSize r = some (chunks, if r.fails then some .other else none)
      ∧ Cut chunkSize.toNat 0 0 r.bytes chunks ∧ chunks.length ≤ 2 ^ 32 := by
  have hpos : 0 < chunkSize.toNat := by
    refine Nat.pos_of_ne_zero fun hzero => hsize ?_
    rw [← UInt32.toNat_inj, hzero]
    rfl
  obtain ⟨chunks, heq, hcut⟩ := splitLoop_cut hpos (Nat.lt_succ_self _)
  refine ⟨chunks, heq, hcut, ?_⟩
  have hlt := hcut.length_mul_lt hpos
  have hbound : chunks.length * chunkSize.toNat < (2 ^ 32 + 1) * chunkSize.toNat := by
    omega
  have := Nat.lt_of_mul_lt_mul_right hbound
  omega

/-- With a chunk size of zero the loop makes no progress. -/
lemma splitLoop_zero :
    ∀ {index : UInt32} {offset : Int64} {r : Reader}, splitLoop 0 fuel index offset r = none := by
  induction fuel with
  | zero => intros; rfl
  | succ fuel ih =>
    intro index offset r
    unfold splitLoop
    rw [@readFull_of_le (0 : UInt32).toNat r (Nat.zero_le _)]
    simp [ih]

lemma cut_of_split (h : split chunkSize r = some (chunks, err)) :
    Cut chunkSize.toNat 0 0 r.bytes chunks ∧ 0 < chunkSize.toNat := by
  have hpos : 0 < chunkSize.toNat := by
    refine Nat.pos_of_ne_zero fun hzero => ?_
    obtain rfl : chunkSize = 0 := UInt32.toNat_inj.mp hzero
    rw [split, splitLoop_zero] at h
    cases h
  obtain ⟨chunks', heq, hcut⟩ := splitLoop_cut hpos (Nat.lt_succ_self _)
  rw [split, heq] at h
  obtain ⟨rfl, -⟩ := h
  exact ⟨hcut, hpos⟩

/-! ## Coming to an end -/

/-- The chunk size that the publisher passes on, from a flag in KB. -/
def publisherChunkSize (chunkSizeKB : Int64) : UInt32 := (chunkSizeKB * 1024).toUInt64.toUInt32

lemma publisherChunkSize_eq_zero :
    publisherChunkSize chunkSizeKB = 0 ↔ 2 ^ 22 ∣ chunkSizeKB.toInt := by
  have hmul := Int64.toInt_mul chunkSizeKB 1024
  rw [← Int64.toInt_toBitVec, BitVec.toInt_eq_toNat_bmod] at hmul
  have hmod := congrArg (· % ((2 ^ 64 : Nat) : Int)) hmul
  simp only [Int.bmod_emod, show Int64.toInt 1024 = 1024 from rfl] at hmod
  rw [← UInt32.toNat_inj, publisherChunkSize, UInt32.toNat_zero]
  change (chunkSizeKB * 1024).toBitVec.toNat % 2 ^ 32 = 0 ↔ _
  omega

/-- **A chunk size other than zero is enough to come to an end.** The loop of
`Split` and with it `Ingest` end, whatever is read; with a size of zero neither
ever does. The publisher's flag gives zero for the multiples of 2 ^ 22. -/
theorem ingest_returns_iff (p : Primitives) (sinkFails : Chunk → Bool) (id : ContentID)
    (key : Block 32) (r : Reader) (mtype : Str) (e : Engine) (chunkSizeKB : Int64) :
    ((∃ turns, splitLoop e.chunkSize turns 0 0 r ≠ none) ↔ e.chunkSize ≠ 0) ∧
    (ingest p sinkFails (some id) (some key) r mtype e ≠ none ↔ e.chunkSize ≠ 0) ∧
    (publisherChunkSize chunkSizeKB ≠ 0 ↔ ¬2 ^ 22 ∣ chunkSizeKB.toInt) := by
  have hends (h : e.chunkSize ≠ 0) : ∃ x, split e.chunkSize r = some x := by
    have hpos : 0 < e.chunkSize.toNat := UInt32.pos_iff_ne_zero.mpr h
    obtain ⟨chunks, heq, -⟩ := splitLoop_cut hpos (Nat.lt_succ_self _)
    exact ⟨_, heq⟩
  refine ⟨⟨fun ⟨turns, h⟩ hzero => h ?_, fun h => ?_⟩, ⟨fun h hzero => h ?_, fun h => ?_⟩,
    not_congr publisherChunkSize_eq_zero⟩
  · rw [hzero, splitLoop_zero]
  · obtain ⟨x, hx⟩ := hends h
    exact ⟨_, ne_of_eq_of_ne hx (Option.some_ne_none x)⟩
  · rw [ingest, split, hzero, splitLoop_zero]
  · obtain ⟨x, hx⟩ := hends h
    rw [ingest, hx]
    dsimp only
    split
    · exact Option.some_ne_none _
    · split <;> exact Option.some_ne_none _

theorem split_never_ends :
    publisherChunkSize 0 = 0 ∧ ¬∃ turns, splitLoop 0 turns 0 0 ⟨[1], false⟩ ≠ none :=
  ⟨rfl, fun ⟨_, h⟩ => h splitLoop_zero⟩

/-! ## Sealing and storing -/

section Sealing

variable (p : Primitives)

def ciphertext (key : List UInt8) (chunk : Chunk) : List UInt8 :=
  p.aeadSeal key (generateNonce p chunk.header.index) chunk.data

/-- What `Ingest` stores for a chunk. -/
def sealed (key : List UInt8) (chunk : Chunk) : Chunk :=
  { header :=
      { chunk.header with
        id := p.sha256 (ciphertext p key chunk)
        nonce := generateNonce p chunk.header.index
        cipherSize := .ofNat (ciphertext p key chunk).length }
    data := ciphertext p key chunk }

lemma sealChunk_eq {key : List UInt8} (hkey : key.length = 32) (chunk : Chunk) :
    sealChunk p key chunk = .ok (sealed p key chunk) := by
  simp [sealChunk, encryptChunk, hkey, sealed, ciphertext]

lemma ingestChunks_ok {key : List UInt8} (hkey : key.length = 32) :
    ∀ {store store' : Storage} {ids ids' : List ChunkID} {size size' : UInt64},
      ingestChunks p sinkFails key chunks store ids size = (store', .ok (ids', size')) →
        store' = (chunks.map (sealed p key)).foldl Storage.putChunk store
          ∧ ids' = ids ++ chunks.map (fun c => (sealed p key c).header.id)
          ∧ size' = chunks.foldl (fun n c => n + c.header.plainSize.toUInt64) size := by
  induction chunks with
  | nil =>
    intro store store' ids ids' size size' h
    obtain ⟨rfl, rfl, rfl⟩ := h
    simp
  | cons chunk chunks ih =>
    intro store store' ids ids' size size' h
    simp only [ingestChunks, sealChunk_eq p hkey] at h
    split at h
    · simp at h
    · obtain ⟨rfl, rfl, rfl⟩ := ih h
      simp [sealed]

/-- What `Ingest` leaves behind if it returns a manifest. -/
lemma ingest_ok (h : ingest p sinkFails contentId (some key) r mtype e = some (e', .ok m)) :
    ∃ chunks, split e.chunkSize r = some (chunks, none)
      ∧ e'.store = (chunks.map (sealed p key.val)).foldl Storage.putChunk e.store
      ∧ e'.keys m.descriptor.id = some key.val
      ∧ m.chunkIds = chunks.map (fun c => (sealed p key.val c).header.id)
      ∧ m.descriptor.size = chunks.foldl (fun n c => n + c.header.plainSize.toUInt64) 0 := by
  unfold ingest at h
  cases contentId with
  | none => simp at h
  | some contentId =>
    dsimp only at h
    split at h
    · cases h
    rename_i chunks err hsplit
    split at h
    · simp at h
    rename_i store ids size hchunks
    split at h
    · simp at h
    obtain ⟨rfl, rfl⟩ := h
    obtain ⟨rfl, rfl, rfl⟩ := ingestChunks_ok p key.property hchunks
    exact ⟨chunks, hsplit, rfl, by simp [makeManifest], by simp [makeManifest], rfl⟩

end Sealing

/-! ## Reading back -/

/-- The chunk stored last under an identifier is the one that is found. -/
lemma Storage.getChunk_foldl (id : ChunkID) {stored : List Chunk} :
    ∀ (s : Storage), (stored.foldl Storage.putChunk s).getChunk id
      = match stored.reverse.find? fun c => c.header.id = id with
        | some c => .ok c
        | none => s.getChunk id := by
  induction stored with
  | nil => intro s; rfl
  | cons c stored ih =>
    intro s
    rw [foldl_cons, ih, reverse_cons, find?_append]
    cases stored.reverse.find? fun c => c.header.id = id with
    | some c' => rfl
    | none =>
      by_cases hid : c.header.id = id
      · subst hid
        simp [Storage.getChunk_putChunk]
      · simp [hid, Storage.getChunk_putChunk_of_ne s (Ne.symm hid)]

/-- A chunk whose identifier no other stored chunk has is found. -/
lemma Storage.getChunk_of_mem {s : Storage} {stored : List Chunk} (hc : c ∈ stored)
    (hother : ∀ c' ∈ stored, c'.header.id = c.header.id → c' = c) :
    (stored.foldl Storage.putChunk s).getChunk c.header.id = .ok c := by
  rw [Storage.getChunk_foldl]
  cases hfind : stored.reverse.find? fun c' => c'.header.id = c.header.id with
  | none =>
    have hnone := find?_eq_none.mp hfind c (mem_reverse.mpr hc)
    simp at hnone
  | some c' =>
    have hmem := mem_reverse.mp (mem_of_find?_eq_some hfind)
    have hid := find?_some hfind
    rw [hother c' hmem (by simpa using hid)]

lemma openChunks_eq_ok : ∀ {chunks : List Chunk}, openChunks p key store ids = .ok chunks
      ↔ List.Forall₂ (fun id c => openChunk p key store id = .ok c) ids chunks := by
  induction ids with
  | nil => intro chunks; simp [openChunks, eq_comm]
  | cons id ids ih =>
    intro chunks
    rw [List.forall₂_cons_left_iff, openChunks]
    cases openChunk p key store id with
    | error e => simp
    | ok c =>
      cases hrest : openChunks p key store ids with
      | error e =>
        have hnone : ∀ cs, ¬List.Forall₂ (fun id c => openChunk p key store id = .ok c)
            ids cs := fun cs h => by rw [ih.mpr h] at hrest; cases hrest
        simp [Except.map, hnone]
      | ok cs =>
        have hcs : ∀ cs', List.Forall₂ (fun id c => openChunk p key store id = .ok c)
            ids cs' ↔ cs' = cs := fun cs' => by
          rw [← ih, hrest, Except.ok.injEq, eq_comm]
        simp only [Except.map, Except.ok.injEq, hcs]
        constructor
        · rintro rfl
          exact ⟨c, cs, rfl, rfl, rfl⟩
        · rintro ⟨c', cs', rfl, rfl, rfl⟩
          rfl

/-! ## The round trip -/

section RoundTrip

variable (p : Primitives)

/-- What is assumed of the primitives: opening undoes sealing, the nonces
of different indices differ, and of the chunks at hand different ones
are sealed differently and different ciphertexts hash differently. -/
structure Ideal (key : List UInt8) (chunks : List Chunk) : Prop where
  open_seal : ∀ nonce text, p.aeadOpen key nonce (p.aeadSeal key nonce text) = some text
  nonce_inj : Function.Injective (generateNonce p)
  seal_inj : ∀ a ∈ chunks, ∀ b ∈ chunks, ciphertext p key a = ciphertext p key b →
    generateNonce p a.header.index = generateNonce p b.header.index ∧ a.data = b.data
  hash_inj : ∀ a ∈ chunks, ∀ b ∈ chunks,
    p.sha256 (ciphertext p key a) = p.sha256 (ciphertext p key b) →
    ciphertext p key a = ciphertext p key b

/-- A sealed chunk after it has been opened. -/
def opened (key : List UInt8) (chunk : Chunk) : Chunk :=
  { sealed p key chunk with data := chunk.data }

lemma openChunk_sealed {key : List UInt8} (hkey : key.length = 32)
    (hopen : ∀ nonce text, p.aeadOpen key nonce (p.aeadSeal key nonce text) = some text)
    {store : Storage} {c : Chunk} (hplain : c.header.plainSize = .ofNat c.data.length)
    (hget : store.getChunk (sealed p key c).header.id = .ok (sealed p key c)) :
    openChunk p key store (sealed p key c).header.id = .ok (opened p key c) := by
  have hdecrypt : decryptChunk p key (sealed p key c) = .ok (opened p key c) :=
    (decryptChunk_eq_ok p).mpr ⟨hkey, rfl, hopen _ _, hplain, rfl⟩
  rw [openChunk, hget]
  simp only [hdecrypt]
  exact if_neg (not_not.mpr rfl)

lemma Ideal.openChunks {key : List UInt8} (hkey : key.length = 32) {size : Nat}
    {bytes : List UInt8} (hideal : Ideal p key chunks)
    (hcut : Cut size 0 0 bytes chunks) (hcount : chunks.length ≤ 2 ^ 32) (s : Storage) :
    openChunks p key ((chunks.map (sealed p key)).foldl Storage.putChunk s)
      (chunks.map fun c => (sealed p key c).header.id) = .ok (chunks.map (opened p key)) := by
  rw [openChunks_eq_ok, List.forall₂_map_left_iff, List.forall₂_map_right_iff, List.forall₂_same]
  intro c hc
  refine openChunk_sealed p hkey hideal.open_seal (hcut.plainSize c hc) ?_
  refine Storage.getChunk_of_mem (mem_map_of_mem hc) fun c' hc' hid => ?_
  -- Chunks with one identifier have one ciphertext, one nonce and so one index.
  obtain ⟨b, hb, rfl⟩ := mem_map.mp hc'
  have hcipher := hideal.hash_inj b hb c hc hid
  obtain ⟨hnonce, -⟩ := hideal.seal_inj b hb c hc hcipher
  rw [hcut.eq_of_index hcount hb hc (hideal.nonce_inj hnonce)]

/-- The sizes add up as long as they fit. -/
lemma toNat_foldl_plainSize {chunks : List Chunk} :
    ∀ {n : UInt64}, (∀ c ∈ chunks, c.header.plainSize.toNat = c.data.length) →
      n.toNat + (chunks.flatMap Chunk.data).length < 2 ^ 64 →
      (chunks.foldl (fun n c => n + c.header.plainSize.toUInt64) n).toNat
        = n.toNat + (chunks.flatMap Chunk.data).length := by
  induction chunks with
  | nil => intro n _ _; simp
  | cons c chunks ih =>
    intro n hsize hlt
    obtain ⟨hc, hrest⟩ := forall_mem_cons.mp hsize
    rw [flatMap_cons, length_append] at hlt ⊢
    have hadd : (n + c.header.plainSize.toUInt64).toNat = n.toNat + c.data.length := by
      rw [UInt64.toNat_add, UInt32.toNat_toUInt64, hc]
      exact Nat.mod_eq_of_lt (by omega)
    rw [foldl_cons, ih hrest (by omega)]
    omega

/-- **Ingest and Reassemble.** A stream of any length is cut into chunks
that spell it, numbered from zero, all but the last of the same size,
each with the number of bytes in front of it as an `int64`. What `Ingest`
makes of it, `Reassemble` turns back, in whatever order equal elements
are sorted. -/
theorem reassemble_ingest {chunkSize : UInt32} (hsize : chunkSize ≠ 0) (r : Reader)
    (hcount : r.bytes.length ≤ 2 ^ 32 * chunkSize.toNat) :
    ∃ chunks, split chunkSize r = some (chunks, if r.fails then some .other else none)
      ∧ chunks.flatMap Chunk.data = r.bytes
      ∧ (∀ (i : Nat) (hi : i < chunks.length), chunks[i].header.index.toNat = i
        ∧ chunks[i].header.offset = .ofNat ((chunks.take i).flatMap Chunk.data).length
        ∧ (i + 1 < chunks.length → chunks[i].data.length = chunkSize.toNat))
      ∧ ∀ (sinkFails : Chunk → Bool) (contentId : Option ContentID) (key : Block 32) (mtype : Str)
          (e e' : Engine) (m : Manifest), e.chunkSize = chunkSize → Ideal p key.val chunks →
        ingest p sinkFails contentId (some key) r mtype e = some (e', .ok m) →
        (∀ sort, SliceSort indexLess sort → reassemble p sort m e' = .ok r.bytes)
          ∧ m.descriptor.size.toNat = r.bytes.length := by
  obtain ⟨chunks, hsplit, hcut, hlength⟩ := split_cut hsize r hcount
  refine ⟨chunks, hsplit, hcut.flatMap_data, fun i hi => ⟨hcut.index_eq hlength hi, ?_,
    (hcut.getElem i hi).2⟩, ?_⟩
  · have heq := congrArg (·.header.offset) (hcut.getElem i hi).1
    simpa [plainChunk] using heq
  intro sinkFails contentId key mtype e e' m hchunkSize hideal hingest
  obtain ⟨chunks', hsplit', hstore, hkey, hids, htotal⟩ := ingest_ok p hingest
  obtain rfl : chunks = chunks' := by
    rw [hchunkSize, hsplit, Option.some.injEq, Prod.mk.injEq] at hsplit'
    exact hsplit'.1
  constructor
  · intro sort hsort
    have hopened := hideal.openChunks p key.property hcut hlength e.store
    have hordered : (chunks.map (opened p key.val)).Pairwise indexLess :=
      pairwise_map.mpr (hcut.pairwise_index hlength)
    rw [reassemble, hkey]
    simp only [hstore, hids, hopened]
    rw [hsort.eq_of_perm (fun a b h => UInt32.lt_asymm h) (.refl _) hordered, flatMap_map]
    exact congrArg Except.ok hcut.flatMap_data
  · have hplain : ∀ c ∈ chunks, c.header.plainSize.toNat = c.data.length := by
      intro c hc
      have hle := hcut.length_data_le c hc
      have hlt := chunkSize.toNat_lt
      rw [hcut.plainSize c hc]
      exact UInt32.toNat_ofNat_of_lt' (hle.trans_lt hlt)
    have hfits : r.bytes.length < 2 ^ 64 := by
      have hlt := chunkSize.toNat_lt
      omega
    have hdata := hcut.flatMap_data
    rw [htotal, toNat_foldl_plainSize hplain (by rw [hdata]; simpa using hfits), hdata]
    simp

end RoundTrip

def indexLe (a b : Chunk) : Bool := a.header.index ≤ b.header.index

lemma indexLe_trans (a b c : Chunk) (hab : indexLe a b = true) (hbc : indexLe b c = true) :
    indexLe a c = true := by
  simp only [indexLe, decide_eq_true_eq] at *
  exact UInt32.le_trans hab hbc

lemma indexLe_total (a b : Chunk) : (indexLe a b || indexLe b a) = true := by
  simpa [indexLe] using UInt32.le_total a.header.index b.header.index

/-- One way to sort. -/
def sortByIndex (chunks : List Chunk) : List Chunk := chunks.mergeSort indexLe

lemma sortByIndex_sliceSort : SliceSort indexLess sortByIndex where
  perm l := mergeSort_perm l _
  ordered l := (pairwise_mergeSort indexLe_trans indexLe_total l).imp fun h =>
    UInt32.not_lt.mpr (of_decide_eq_true h)

/-- Primitives under which nothing is secret but nothing is lost either. -/
def clearPrimitives : Primitives where
  sha256 bs := Block.ofList 32 bs.reverse
  aeadSeal _ nonce text := text ++ nonce.val
  aeadOpen _ nonce text :=
    if text.drop (text.length - 12) = nonce.val then some (text.take (text.length - 12)) else none

lemma clearPrimitives_open (key : List UInt8) (nonce : Block 12) (text : List UInt8) :
    clearPrimitives.aeadOpen key nonce (clearPrimitives.aeadSeal key nonce text) = some text := by
  have hlen : (text ++ nonce.val).length - 12 = text.length := by
    rw [length_append, nonce.property, Nat.add_sub_cancel]
  simp only [clearPrimitives, hlen, drop_left, take_left, if_true]

lemma clearPrimitives_nonce : Function.Injective (generateNonce clearPrimitives) := by
  have htake : ∀ i : UInt32, (generateNonce clearPrimitives i).val.take 8 = beBytes 8 i.toNat := by
    intro i
    simp only [generateNonce, clearPrimitives, Block.ofList, leBytes, reverse_append,
      reverse_reverse, append_assoc, take_take, take_append, length_beBytes]
    simp [take_of_length_le]
  intro i j h
  have hbytes := congrArg (fun b : Block 12 => beNat (b.val.take 8)) h
  have hi := i.toNat_lt
  have hj := j.toNat_lt
  simp only [htake, beNat_beBytes] at hbytes
  rw [Nat.mod_eq_of_lt (by omega), Nat.mod_eq_of_lt (by omega)] at hbytes
  exact UInt32.toNat_inj.mp hbytes

def fiveBytes : Reader := ⟨[1, 2, 3, 4, 5], false⟩

def fiveChunks : List Chunk := [plainChunk 0 0 [1, 2], plainChunk 1 2 [3, 4], plainChunk 2 4 [5]]

/-- An engine that cuts a stream into pairs of bytes. -/
def emptyEngine : Engine := ⟨2, ⟨fun _ => none⟩, fun _ => none⟩

lemma fiveChunks_ideal : Ideal clearPrimitives (Block.ofList 32 [9]).val fiveChunks where
  open_seal := clearPrimitives_open _
  nonce_inj := clearPrimitives_nonce
  seal_inj := by decide
  hash_inj := by decide

theorem reassemble_ingest_five :
    ∃ e m, ingest clearPrimitives (fun _ => false) (some (Block.ofList 32 [7]))
        (some (Block.ofList 32 [9])) fiveBytes (ascii "file") emptyEngine = some (e, .ok m)
      ∧ m.chunkIds.length = 3 ∧ m.descriptor.size.toNat = 5
      ∧ reassemble clearPrimitives sortByIndex m e = .ok [1, 2, 3, 4, 5] := by
  obtain ⟨chunks, hsplit, -, -, hround⟩ :=
    reassemble_ingest _ (show (2 : UInt32) ≠ 0 by decide) fiveBytes (by decide)
  have hfive : split 2 fiveBytes = some (fiveChunks, none) := rfl
  obtain rfl : chunks = fiveChunks := by
    rw [hfive, Option.some.injEq, Prod.mk.injEq] at hsplit
    exact hsplit.1.symm
  obtain ⟨hbytes, hsize⟩ := hround (fun _ => false) (some (Block.ofList 32 [7]))
    _ _ emptyEngine _ _ rfl fiveChunks_ideal rfl
  exact ⟨_, _, rfl, rfl, hsize, hbytes _ sortByIndex_sliceSort⟩

/-! ## Offsets beyond an `int64` -/

lemma split_offset_wraps {r : Reader} (hfails : r.fails = false)
    (hlength : r.bytes.length = 2 ^ 63 + 2 ^ 31) :
    ∃ chunks, split 0xFFFFFFFF r = some (chunks, none) ∧ chunks.length ≤ 2 ^ 32
      ∧ ∃ (i : Nat) (hi : i < chunks.length),
        chunks[i].header.offset.toInt ≠ ((chunks.take i).flatMap Chunk.data).length := by
  have hsize : (0xFFFFFFFF : UInt32).toNat = 2 ^ 32 - 1 := rfl
  obtain ⟨chunks, hsplit, hcut, hcount⟩ := split_cut (show (0xFFFFFFFF : UInt32) ≠ 0 by decide) r
    (by rw [hlength, hsize]; decide)
  rw [hsize] at hcut
  have hi : 2 ^ 31 + 1 < chunks.length := by
    by_contra hle
    have hbytes := hcut.length_le
    omega
  refine ⟨chunks, by rw [hsplit, hfails]; rfl, hcount, 2 ^ 31 + 1, hi, ?_⟩
  have hoffset := congrArg (·.header.offset) (hcut.getElem _ hi).1
  rw [hcut.length_take hi] at hoffset ⊢
  simp only [plainChunk, Int64.zero_add] at hoffset
  rw [hoffset]
  decide

/-- A stream of zeros that is longer than an `int64` counts. -/
theorem split_offset_of_zeros :
    ∃ chunks, split 0xFFFFFFFF ⟨List.replicate (2 ^ 63 + 2 ^ 31) 0, false⟩ = some (chunks, none)
      ∧ chunks.length ≤ 2 ^ 32
      ∧ ∃ (i : Nat) (hi : i < chunks.length),
        chunks[i].header.offset.toInt ≠ ((chunks.take i).flatMap Chunk.data).length :=
  split_offset_wraps rfl length_replicate

end Cipher.Content
