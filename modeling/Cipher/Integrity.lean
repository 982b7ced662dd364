import Cipher.ChunkProtocol
import Cipher.RoundTrip

/-!
# What a consumer can rely on

A consumer knows a manifest and its key and gets the chunks from providers
it does not trust. The hash that `FetchChunk` checks covers the data of a
chunk, and opening the data with the key fixes the plaintext. Nothing
covers the index in the header, and `Reassemble` sorts by it: a provider
can put the chunks of a content in any order.

If the indices of the chunks that were accepted increase along the
manifest, the content is the one that was ingested. Otherwise it need
not be, and it is not if its chunks differ and are all of one size
(`reassemble_fetched_iff`).
-/

namespace Cipher.Integrity

open Bytes Binary Go Content ChunkProtocol List Option

variable {τ : Type} (p : Primitives) (json : Json τ)

/-! ## Fetching -/

/-- A call of `FetchChunk` and the message that came back. -/
structure Fetch (τ : Type) where
  chunkId : ChunkID
  ticketGenerator : Option (TicketGenerator τ)
  resp : Message

/-- The chunk that the call returns. -/
def Fetch.accepted (f : Fetch τ) : Option Chunk :=
  (fetchChunk p.sha256 json f.ticketGenerator f.chunkId f.resp).2.toOption

/-- The chunks that are accepted, in order. -/
def accepted (fs : List (Fetch τ)) : List Chunk := fs.filterMap (Fetch.accepted p json)

/-- The store after every accepted chunk has been put into it. -/
def fetched (fs : List (Fetch τ)) (s : Storage) : Storage :=
  (accepted p json fs).foldl Storage.putChunk s

/-- The chunk that was accepted last under an identifier. -/
def latest (fs : List (Fetch τ)) (id : ChunkID) : Option Chunk :=
  (accepted p json fs).reverse.find? fun c => c.header.id = id

variable {p json} {c : Chunk} {fs : List (Fetch τ)} {id : ChunkID}

lemma Fetch.of_accepted {f : Fetch τ} (h : f.accepted p json = some c) :
    c.header.id = f.chunkId ∧ p.sha256 c.data = f.chunkId := by
  rw [Fetch.accepted] at h
  cases hfetch : (fetchChunk p.sha256 json f.ticketGenerator f.chunkId f.resp).2 with
  | error e =>
    rw [hfetch] at h
    cases h
  | ok chunk =>
    rw [hfetch] at h
    cases h
    exact fetchChunk_eq_ok hfetch

lemma hash_of_mem_accepted (h : c ∈ accepted p json fs) : p.sha256 c.data = c.header.id := by
  obtain ⟨f, -, hf⟩ := mem_filterMap.mp h
  obtain ⟨hid, hhash⟩ := Fetch.of_accepted hf
  rw [hid, hhash]

lemma latest_isSome (h : ∃ f ∈ fs, f.chunkId = id ∧ (f.accepted p json).isSome) :
    ∃ c, latest p json fs id = some c := by
  obtain ⟨f, hf, rfl, hsome⟩ := h
  obtain ⟨c, hc⟩ := isSome_iff_exists.mp hsome
  have hmem : c ∈ accepted p json fs := mem_filterMap.mpr ⟨f, hf, hc⟩
  refine isSome_iff_exists.mp ?_
  rw [latest, find?_isSome]
  exact ⟨c, mem_reverse.mpr hmem, by simpa using (Fetch.of_accepted hc).1⟩

lemma of_latest (h : latest p json fs id = some c) : c ∈ accepted p json fs ∧ c.header.id = id :=
  ⟨mem_reverse.mp (mem_of_find?_eq_some h), by simpa using find?_some h⟩

lemma getChunk_fetched (h : latest p json fs id = some c) (s : Storage) :
    (fetched p json fs s).getChunk id = .ok c := by
  rw [fetched, Storage.getChunk_foldl]
  unfold latest at h
  rw [h]

/-! ## Opening what was fetched -/

variable (p json)

/-- What is assumed of the primitives: what was sealed can be opened, nothing
else can, and no two of the texts at hand hash alike. -/
structure Secure (key : List UInt8) (chunks : List Chunk) (fs : List (Fetch τ)) : Prop where
  open_seal : ∀ c ∈ chunks,
    p.aeadOpen key (generateNonce p c.header.index) (ciphertext p key c) = some c.data
  sealed_of_open : ∀ nonce text plaintext, p.aeadOpen key nonce text = some plaintext →
    ∃ c ∈ chunks, nonce = generateNonce p c.header.index ∧ text = ciphertext p key c
  collisionFree : Set.InjOn p.sha256
    { text | (∃ c ∈ chunks, text = ciphertext p key c)
      ∨ ∃ c ∈ accepted p json fs, text = c.data }

variable {p json}

/-- A fetched chunk that is opened yields the plaintext of an ingested
chunk with the same ciphertext. -/
lemma Secure.of_openChunk (h : Secure p json key chunks fs) (ha : a ∈ chunks)
    (hlatest : latest p json fs (sealed p key a).header.id = some c)
    (hopen : openChunk p key (fetched p json fs s) (sealed p key a).header.id = .ok o) :
    o.header = c.header ∧ ∃ b ∈ chunks, ciphertext p key b = ciphertext p key a
      ∧ o.data = b.data := by
  obtain ⟨hmem, hid⟩ := of_latest hlatest
  have hdata : c.data = ciphertext p key a := by
    refine h.collisionFree (.inr ⟨c, hmem, rfl⟩) (.inl ⟨a, ha, rfl⟩) ?_
    rw [hash_of_mem_accepted hmem, hid]
    rfl
  rw [openChunk, getChunk_fetched hlatest] at hopen
  dsimp only at hopen
  split at hopen
  · cases hopen
  split at hopen
  · cases hopen
  rename_i o' hdecrypt
  cases hopen
  obtain ⟨-, -, hplain, -, hheader⟩ := (decryptChunk_eq_ok p).mp hdecrypt
  obtain ⟨b, hb, hnonce, htext⟩ := h.sealed_of_open _ _ _ hplain
  refine ⟨hheader, b, hb, htext.symm.trans hdata, ?_⟩
  rw [hnonce, htext, h.open_seal b hb] at hplain
  exact (Option.some.inj hplain).symm

/-! ## The order of the chunks -/

variable (p json)

/-- The indices that came with the chunks increase along the list. -/
def InOrder (fs : List (Fetch τ)) (ids : List ChunkID) : Prop :=
  ids.Pairwise fun a b => ∃ c d, latest p json fs a = some c ∧ latest p json fs b = some d
    ∧ c.header.index < d.header.index

variable {p json}

lemma InOrder.nodup (h : InOrder p json fs ids) : ids.Nodup := by
  refine h.imp ?_
  rintro a b ⟨c, d, hc, hd, hlt⟩ rfl
  rw [hc, Option.some.injEq] at hd
  subst hd
  exact UInt32.lt_irrefl _ hlt

/-- The chunks that are opened have the headers that were fetched. -/
lemma inOrder_iff {opened : List Chunk}
    (h : List.Forall₂ (fun id o => ∃ c, latest p json fs id = some c ∧ o.header = c.header)
      ids opened) : InOrder p json fs ids ↔ opened.Pairwise indexLess := by
  obtain ⟨hlen, hget⟩ := List.forall₂_iff_get.mp h
  simp only [InOrder, pairwise_iff_getElem]
  constructor
  · intro hids i j hi hj hij
    obtain ⟨c, d, hc, hd, hlt⟩ := hids i j (by omega) (by omega) hij
    obtain ⟨c', hc', hi'⟩ := hget i (by omega) hi
    obtain ⟨d', hd', hj'⟩ := hget j (by omega) hj
    simp only [get_eq_getElem] at hc' hd' hi' hj'
    rw [hc, Option.some.injEq] at hc'
    rw [hd, Option.some.injEq] at hd'
    subst hc' hd'
    rw [indexLess, hi', hj']
    exact hlt
  · intro hopened i j hi hj hij
    obtain ⟨c, hc, hi'⟩ := hget i hi (by omega)
    obtain ⟨d, hd, hj'⟩ := hget j hj (by omega)
    have hlt := hopened i j (by omega) (by omega) hij
    simp only [get_eq_getElem] at hc hd hi' hj'
    rw [indexLess, hi', hj'] at hlt
    exact ⟨c, d, hc, hd, hlt⟩

section Content

variable {key : List UInt8} {chunks opened : List Chunk} {fs : List (Fetch τ)} {s : Storage}

/-- What is opened for the chunks of a content: the header is the fetched
one, the data that of a chunk with the same ciphertext. -/
lemma Secure.forall₂_opened (h : Secure p json key chunks fs)
    (hfetched : ∀ a ∈ chunks, ∃ c, latest p json fs (sealed p key a).header.id = some c)
    (hopen : openChunks p key (fetched p json fs s)
      (chunks.map fun a => (sealed p key a).header.id) = .ok opened) :
    List.Forall₂ (fun a o => (∃ c, latest p json fs (sealed p key a).header.id = some c
        ∧ o.header = c.header)
      ∧ ∃ b ∈ chunks, ciphertext p key b = ciphertext p key a ∧ o.data = b.data)
      chunks opened := by
  rw [openChunks_eq_ok, List.forall₂_map_left_iff, List.forall₂_iff_get] at hopen
  obtain ⟨hlen, hget⟩ := hopen
  refine List.forall₂_iff_get.mpr ⟨hlen, fun i hi hi' => ?_⟩
  obtain ⟨c, hc⟩ := hfetched _ (get_mem chunks ⟨i, hi⟩)
  obtain ⟨hheader, hdata⟩ := h.of_openChunk (get_mem chunks ⟨i, hi⟩) hc (hget i hi hi')
  exact ⟨⟨c, hc, hheader⟩, hdata⟩

/-- Chunks with different identifiers are opened each to its own data. -/
lemma map_data_opened (hnodup : (chunks.map fun a => (sealed p key a).header.id).Nodup)
    (h : List.Forall₂ (fun a o => ∃ b ∈ chunks, ciphertext p key b = ciphertext p key a
      ∧ o.data = b.data) chunks opened) :
    opened.map Chunk.data = chunks.map Chunk.data := by
  obtain ⟨hlen, hget⟩ := List.forall₂_iff_get.mp h
  refine ext_getElem (by simp [hlen]) fun i hi hi' => ?_
  rw [length_map] at hi hi'
  obtain ⟨b, hb, hcipher, hdata⟩ := hget i hi' hi
  have heq : b = chunks[i] :=
    inj_on_of_nodup_map hnodup hb (getElem_mem hi') (congrArg p.sha256 hcipher)
  rw [heq] at hdata
  simpa using hdata

end Content

/-! ## Sorting -/

/-- Two lists of blocks of one size that spell the same are the same. -/
lemma map_eq_of_flatMap_eq {f : Chunk → List UInt8} {size : Nat} (hpos : 0 < size)
    {as : List Chunk} : ∀ {bs : List Chunk}, (∀ a ∈ as, (f a).length = size) →
      (∀ b ∈ bs, (f b).length = size) → as.flatMap f = bs.flatMap f → as.map f = bs.map f := by
  induction as with
  | nil =>
    intro bs _ hbs h
    cases bs with
    | nil => rfl
    | cons b bs =>
      have hb := (forall_mem_cons.mp hbs).1
      have hnil : f b = [] := (append_eq_nil_iff.mp h.symm).1
      rw [hnil, length_nil] at hb
      omega
  | cons a as ih =>
    intro bs has hbs h
    obtain ⟨ha, has⟩ := forall_mem_cons.mp has
    cases bs with
    | nil =>
      have hnil : f a = [] := (append_eq_nil_iff.mp h).1
      rw [hnil, length_nil] at ha
      omega
    | cons b bs =>
      obtain ⟨hb, hbs⟩ := forall_mem_cons.mp hbs
      obtain ⟨hfirst, hrest⟩ := append_inj h (ha.trans hb.symm)
      rw [map_cons, map_cons, hfirst, ih has hbs hrest]

/-- Sorting that never moves an element past one of another value moves
nothing. -/
lemma eq_of_map_data_eq {l l' : List Chunk} (hperm : l'.Perm l)
    (hnodup : (l.map Chunk.data).Nodup) (h : l'.map Chunk.data = l.map Chunk.data) : l' = l := by
  refine ext_getElem hperm.length_eq fun i hi hi' => ?_
  refine inj_on_of_nodup_map hnodup (hperm.mem_iff.mp (getElem_mem hi)) (getElem_mem hi') ?_
  have hget := congrArg (fun ds => ds[i]?) h
  simpa [hi, hi'] using hget

/-- Sorting a slice from behind is another way to sort it. -/
lemma sortByIndex_reverse_sliceSort : SliceSort indexLess fun l => sortByIndex l.reverse where
  perm l := (sortByIndex_sliceSort.perm _).trans (reverse_perm l)
  ordered _ := sortByIndex_sliceSort.ordered _

/-- Only a slice that is strictly in order stays as it is however equal
elements are sorted. -/
lemma pairwise_of_sort_eq_self {l : List Chunk} (hnodup : l.Nodup)
    (h : ∀ sort, SliceSort indexLess sort → sort l = l) : l.Pairwise indexLess := by
  have hordered := sortByIndex_sliceSort.ordered l
  have hposition : l.Pairwise fun a b => l.idxOf a < l.idxOf b :=
    pairwise_iff_getElem.mpr fun i j hi hj hij => by
      rwa [hnodup.idxOf_getElem, hnodup.idxOf_getElem]
  refine pairwise_iff_forall_sublist.mpr fun {a b} hab => ?_
  by_contra hlt
  -- The two indices are equal, so that sorting from behind swaps the chunks.
  have hle : b.header.index ≤ a.header.index := UInt32.not_lt.mp hlt
  have hswapped : [b, a].Sublist l := by
    rw [← h _ sortByIndex_reverse_sliceSort]
    exact pair_sublist_mergeSort indexLe_trans indexLe_total (decide_eq_true hle)
      (reverse_sublist.mpr hab)
  have hfirst := pairwise_iff_forall_sublist.mp hposition hab
  have hsecond := pairwise_iff_forall_sublist.mp hposition hswapped
  omega

/-- Identifiers that open to different chunks are different. -/
lemma nodup_of_opened {f : ChunkID → Except Content.Error Chunk} {opened : List Chunk}
    (h : List.Forall₂ (fun id o => f id = .ok o) ids opened) (hnodup : opened.Nodup) :
    ids.Nodup := by
  obtain ⟨hlen, hget⟩ := List.forall₂_iff_get.mp h
  refine pairwise_iff_getElem.mpr fun i j hi hj hij heq => ?_
  have hi' := hget i hi (by omega)
  have hj' := hget j hj (by omega)
  simp only [get_eq_getElem] at hi' hj'
  rw [heq, hj', Except.ok.injEq] at hi'
  exact pairwise_iff_getElem.mp hnodup i j (by omega) (by omega) hij hi'.symm

/-! ## The content -/

/-- **Content from strangers.** A consumer has the key of an ingested
content, has stored a chunk from any provider for each of its identifiers,
and `Reassemble` succeeds. If the indices that came with the chunks
increase along the manifest, the content is written however equal
elements are sorted. If its chunks are full and all different, it is
written in that case only. -/
theorem reassemble_fetched_iff {sinkFails : Chunk → Bool} {contentId : Option ContentID}
    {key : Block 32} {r : Reader} {mtype : Str} {e e' : Engine} {m : Manifest}
    {chunks : List Chunk} {err : Option ReadError}
    (hsplit : split e.chunkSize r = some (chunks, err))
    (hingest : ingest p sinkFails contentId (some key) r mtype e = some (e', .ok m))
    {fs : List (Fetch τ)} {s : Storage} {consumer : Engine}
    (hstore : consumer.store = fetched p json fs s)
    (hkey : consumer.keys m.descriptor.id = some key.val)
    (hsecure : Secure p json key.val chunks fs)
    (hfetched : ∀ id ∈ m.chunkIds, ∃ f ∈ fs, f.chunkId = id ∧ (f.accepted p json).isSome)
    (hok : ∃ sort bytes, reassemble p sort m consumer = .ok bytes) :
    (InOrder p json fs m.chunkIds →
        ∀ sort, SliceSort indexLess sort → reassemble p sort m consumer = .ok r.bytes)
      ∧ ((∀ c ∈ chunks, c.data.length = e.chunkSize.toNat) → (chunks.map Chunk.data).Nodup →
        (∀ sort, SliceSort indexLess sort → reassemble p sort m consumer = .ok r.bytes) →
        InOrder p json fs m.chunkIds) := by
  obtain ⟨hcut, hpos⟩ := cut_of_split hsplit
  obtain ⟨chunks', hsplit', -, -, hids, -⟩ := ingest_ok p hingest
  obtain rfl : chunks = chunks' := by
    rw [hsplit, Option.some.injEq, Prod.mk.injEq] at hsplit'
    exact hsplit'.1
  -- Whether the chunks can be opened does not depend on the sorting.
  obtain ⟨opened, hopen⟩ : ∃ opened, openChunks p key.val (fetched p json fs s) m.chunkIds
      = .ok opened := by
    obtain ⟨sort, bytes, hbytes⟩ := hok
    rw [reassemble, hkey, hstore] at hbytes
    dsimp only at hbytes
    split at hbytes
    · cases hbytes
    · exact ⟨_, by assumption⟩
  have hwritten : ∀ sort, reassemble p sort m consumer
      = .ok ((sort opened).flatMap Chunk.data) := fun sort => by
    rw [reassemble, hkey, hstore]
    simp only [hopen]
  rw [hids] at hfetched hopen ⊢
  have hforall := hsecure.forall₂_opened
    (fun a ha => latest_isSome (hfetched _ (mem_map_of_mem ha))) hopen
  have hdata := hforall.imp fun _ _ h => h.2
  have hinOrder : InOrder p json fs (chunks.map fun a => (sealed p key.val a).header.id)
      ↔ opened.Pairwise indexLess :=
    inOrder_iff (List.forall₂_map_left_iff.mpr (hforall.imp fun _ _ h => h.1))
  constructor
  · intro horder sort hsort
    have hmap := map_data_opened horder.nodup hdata
    have hself := hsort.eq_of_perm (fun a b h => UInt32.lt_asymm h) (.refl _) (hinOrder.mp horder)
    rw [hwritten, hself, flatMap_def, hmap, ← flatMap_def, hcut.flatMap_data]
  · intro hfull hnodup hall
    have hlength : ∀ o ∈ opened, o.data.length = e.chunkSize.toNat := by
      intro o ho
      obtain ⟨i, hi, rfl⟩ := getElem_of_mem ho
      obtain ⟨hlen, hget⟩ := List.forall₂_iff_get.mp hdata
      obtain ⟨b, hb, -, hob⟩ := hget i (by omega) hi
      exact (congrArg List.length hob).trans (hfull b hb)
    have hsorted : ∀ sort, SliceSort indexLess sort →
        (sort opened).map Chunk.data = chunks.map Chunk.data := by
      intro sort hsort
      have hflat := hall sort hsort
      rw [hwritten, Except.ok.injEq, ← hcut.flatMap_data] at hflat
      exact map_eq_of_flatMap_eq hpos
        (fun o ho => hlength o ((hsort.perm opened).mem_iff.mp ho)) hfull hflat
    have hopened : (opened.map Chunk.data).Nodup := by
      have hperm := (sortByIndex_sliceSort.perm opened).map Chunk.data
      rw [hsorted _ sortByIndex_sliceSort] at hperm
      exact hperm.nodup_iff.mp hnodup
    have hmap : opened.map Chunk.data = chunks.map Chunk.data :=
      map_data_opened (nodup_of_opened (openChunks_eq_ok.mp hopen) hopened.of_map) hdata
    refine hinOrder.mpr (pairwise_of_sort_eq_self hopened.of_map fun sort hsort => ?_)
    exact eq_of_map_data_eq (hsort.perm opened) hopened ((hsorted sort hsort).trans hmap.symm)

/-! ## A provider that changes the order -/

/-- The primitives of `clearPrimitives`, except that only the three chunks
of `fiveBytes` can be opened. -/
def vault : Primitives where
  sha256 := clearPrimitives.sha256
  aeadSeal := clearPrimitives.aeadSeal
  aeadOpen _ nonce text :=
    if ∃ c ∈ fiveChunks, nonce = generateNonce clearPrimitives c.header.index
        ∧ text = ciphertext clearPrimitives [] c then some (text.take (text.length - 12)) else none

def fiveKey : Block 32 := Block.ofList 32 [9]

def noJson : Json Unit := ⟨fun _ => none, fun _ => none⟩

/-- A request for a chunk, answered with the chunk under some index. -/
def answered (index : UInt32) (c : Chunk) : Fetch Unit :=
  let s := sealed vault fiveKey.val c
  ⟨s.header.id, none, buildChunk { s with header := { s.header with index } }⟩

/-- The chunks with their own indices. -/
def faithful : List (Fetch Unit) := fiveChunks.map fun c => answered c.header.index c

/-- The first two chunks with each other's index. -/
def swapped : List (Fetch Unit) :=
  [answered 1 (plainChunk 0 0 [1, 2]), answered 0 (plainChunk 1 2 [3, 4]),
    answered 2 (plainChunk 2 4 [5])]

/-- A consumer that got the key of the content and fetched its chunks. -/
def consumer (fs : List (Fetch Unit)) : Engine :=
  ⟨2, fetched vault noJson fs ⟨fun _ => none⟩,
    Function.update (fun _ => none) (Block.ofList 32 [7]) (some fiveKey.val)⟩

def fiveTexts : List (List UInt8) := fiveChunks.map (ciphertext vault fiveKey.val)

lemma vault_secure {fs : List (Fetch Unit)}
    (h : ∀ c ∈ accepted vault noJson fs, c.data ∈ fiveTexts) :
    Secure vault noJson fiveKey.val fiveChunks fs where
  open_seal := by decide
  sealed_of_open := by
    intro nonce text plaintext hopen
    simp only [vault] at hopen
    split at hopen
    · rename_i hsealed
      exact hsealed
    · cases hopen
  collisionFree := by
    have hinj : ∀ x ∈ fiveTexts, ∀ y ∈ fiveTexts, vault.sha256 x = vault.sha256 y → x = y := by
      decide
    have hmem : ∀ text, (∃ c ∈ fiveChunks, text = ciphertext vault fiveKey.val c)
        ∨ (∃ c ∈ accepted vault noJson fs, text = c.data) → text ∈ fiveTexts := by
      rintro text (⟨c, hc, rfl⟩ | ⟨c, hc, rfl⟩)
      · exact mem_map_of_mem hc
      · exact h c hc
    exact fun x hx y hy => hinj x (hmem x hx) y (hmem y hy)

lemma faithful_accepted : ∀ c ∈ accepted vault noJson faithful, c.data ∈ fiveTexts := by decide

lemma swapped_accepted : ∀ c ∈ accepted vault noJson swapped, c.data ∈ fiveTexts := by decide

lemma faithful_inOrder : InOrder vault noJson faithful
    (fiveChunks.map fun c => (sealed vault fiveKey.val c).header.id) := by
  have hindex : ∀ c ∈ fiveChunks, (latest vault noJson faithful
      (sealed vault fiveKey.val c).header.id).map (·.header.index) = some c.header.index := by
    decide
  have hpairwise : fiveChunks.Pairwise fun a b => a.header.index < b.header.index := by decide
  refine pairwise_map.mpr (hpairwise.imp_of_mem fun {a b} ha hb hlt => ?_)
  obtain ⟨c, hc, hac⟩ := map_eq_some_iff.mp (hindex a ha)
  obtain ⟨d, hd, hbd⟩ := map_eq_some_iff.mp (hindex b hb)
  exact ⟨c, d, hc, hd, by rwa [hac, hbd]⟩

def fiveManifest : Manifest :=
  makeManifest vault (Block.ofList 32 [7]) (ascii "file")
    (fiveChunks.map fun c => (sealed vault fiveKey.val c).header.id) 5

lemma ingest_five : ∃ e, ingest vault (fun _ => false) (some (Block.ofList 32 [7]))
    (some fiveKey) fiveBytes (ascii "file") emptyEngine = some (e, .ok fiveManifest) := ⟨_, rfl⟩

theorem reassemble_fetched_faithful : InOrder vault noJson faithful fiveManifest.chunkIds
      ∧ reassemble vault sortByIndex fiveManifest (consumer faithful) = .ok [1, 2, 3, 4, 5] := by
  have hsplit : split emptyEngine.chunkSize fiveBytes = some (fiveChunks, none) := rfl
  have hfetched : ∀ id ∈ fiveManifest.chunkIds, ∃ f ∈ faithful, f.chunkId = id
      ∧ (f.accepted vault noJson).isSome := by decide
  have hstore : (consumer faithful).store = fetched vault noJson faithful ⟨fun _ => none⟩ := rfl
  obtain ⟨e, hingest⟩ := ingest_five
  obtain ⟨hwritten, -⟩ := reassemble_fetched_iff hsplit hingest hstore rfl
    (vault_secure faithful_accepted) hfetched ⟨id, [1, 2, 3, 4, 5], rfl⟩
  exact ⟨faithful_inOrder, hwritten faithful_inOrder _ sortByIndex_sliceSort⟩

/-- The chunks as they are opened, in the order of the manifest. -/
def swappedOpened : List Chunk :=
  List.zipWith (fun index c => { opened vault fiveKey.val c with
    header := { (opened vault fiveKey.val c).header with index } }) [1, 0, 2] fiveChunks

/-- Every chunk is accepted and opened, and the content comes out in another
order. -/
theorem swapped_reassemble :
    (∃ e, ingest vault (fun _ => false) (some (Block.ofList 32 [7])) (some fiveKey) fiveBytes
        (ascii "file") emptyEngine = some (e, .ok fiveManifest))
      ∧ Secure vault noJson fiveKey.val fiveChunks swapped
      ∧ (∀ id ∈ fiveManifest.chunkIds, ∃ f ∈ swapped, f.chunkId = id
        ∧ (f.accepted vault noJson).isSome)
      ∧ ∀ sort, SliceSort indexLess sort →
        reassemble vault sort fiveManifest (consumer swapped) = .ok [3, 4, 1, 2, 5] := by
  refine ⟨ingest_five, vault_secure swapped_accepted, by decide, fun sort hsort => ?_⟩
  have hwritten : reassemble vault sort fiveManifest (consumer swapped)
      = .ok ((sort swappedOpened).flatMap Chunk.data) := rfl
  have hsorted : sort swappedOpened = [swappedOpened[1], swappedOpened[0], swappedOpened[2]] := by
    refine hsort.eq_of_perm (fun a b h => UInt32.lt_asymm h) (.swap _ _ _) ?_
    unfold indexLess
    decide
  rw [hwritten, hsorted]
  rfl

end Cipher.Integrity
