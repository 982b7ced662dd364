import Cipher.Push
import Cipher.Wire

/-!
# The wire format of the push protocol

`WritePushMessage` and `ReadPushMessage`, and the payloads of a manifest
and of a chunk. The payload of a manifest carries the number of chunk IDs
that follow, as the sender gives it; `parsePushManifestOffsets` is
`ParsePushManifest` with its offsets into the payload, in the arithmetic of
a 64-bit `int`, and with the slices that would be out of range. It comes to
the same as `parsePushManifest` and takes no such slice.
-/

namespace Cipher.Push

open Bytes Binary Go Content Wire List Option

/-! ## Frames -/

inductive PushWireError where
  | read (e : ReadError)
  | exceedsLimit (size : UInt32)
  | frameTooShort
deriving DecidableEq

/-- What is written for a message that fits. -/
def PushMessage.frame (msg : PushMessage) : List UInt8 :=
  Wire.frame msg.version msg.type msg.payload

/-- What `WritePushMessage` writes. It checks the size after it was cut to
32 bits. -/
def writePushMessage (msg : PushMessage) : Except PushWireError (List UInt8) :=
  let buf := envelope msg.version msg.type msg.payload
  let size := UInt32.ofNat buf.length
  if size.toNat > maxMessageSize then .error (.exceedsLimit size)
  else .ok (Codec.uint32.encode size ++ buf)

def readPushMessage (r : Reader) : Except PushWireError PushMessage × Reader :=
  match binaryRead .uint32 r with
  | (.error e, r) => (.error (.read e), r)
  | (.ok size, r) =>
    if size.toNat > maxMessageSize then (.error (.exceedsLimit size), r)
    else if size.toNat < 3 then (.error .frameTooShort, r)
    else match readFull size.toNat r with
      | (_, some e, r) => (.error (.read e), r)
      | (data, none, r) =>
        match readEnvelope data with
        | .error e => (.error (.read e), r)
        | .ok (version, type, payload) => (.ok { version, type, payload }, r)

lemma writePushMessage_eq_ok {msg : PushMessage} (h : msg.Fits) :
    writePushMessage msg = .ok msg.frame := by
  have hlen := length_envelope msg.version msg.type msg.payload
  have hle : (envelope msg.version msg.type msg.payload).length ≤ maxMessageSize := hlen ▸ h
  have htoNat := UInt32.toNat_ofNat_of_lt' (lt_of_le_of_lt hle (by decide))
  rw [writePushMessage, if_neg (by rw [htoNat]; exact not_lt.mpr hle)]
  rfl

lemma readPushMessage_eq_ok : readPushMessage r = (.ok msg, r') ↔
      msg.Fits ∧ r.bytes = msg.frame ++ r'.bytes ∧ r.fails = r'.fails := by
  rw [readPushMessage]
  constructor
  · intro h
    split at h
    · cases h
    rename_i size r₁ hsize
    split at h
    · cases h
    rename_i hlimit
    split at h
    · cases h
    split at h
    · cases h
    rename_i data r₂ hdata
    split at h
    · cases h
    rename_i version type payload henvelope
    cases h
    obtain ⟨hlen, hframe⟩ := frame_of_read hsize hdata henvelope
    exact ⟨le_of_eq_of_le hlen (not_lt.mp hlimit), hframe⟩
  · rintro ⟨hfits, hframe⟩
    have hlt : 3 + msg.payload.length < 2 ^ 32 := lt_of_le_of_lt hfits (by decide)
    obtain ⟨size, r₁, data, hsize, hdata, henvelope, hlen⟩ := read_of_frame hlt hframe
    have hsmall : ¬ size.toNat > maxMessageSize := not_lt.mpr (hlen ▸ hfits)
    have hlong : ¬ size.toNat < 3 := by omega
    simp only [hsize, if_neg hsmall, if_neg hlong, hdata, henvelope]

/-! ## Payloads -/

lemma length_flatMap_block (ids : List ChunkID) :
    (ids.flatMap (Codec.block 32).encode).length = ids.length * 32 := by
  rw [length_flatMap, map_congr_left fun id _ => (Codec.block 32).length_encode id,
    map_const', sum_replicate]
  rfl

lemma length_buildPushManifest (contentId : ContentID) (assignedChunkIds : List ChunkID)
    (data : List UInt8) : (buildPushManifest contentId assignedChunkIds data).payload.length =
      36 + assignedChunkIds.length * 32 + data.length := by
  simp only [buildPushManifest, buildPush, length_append, contentId.property,
    Codec.length_encode, length_flatMap_block]
  change 32 + (4 + (assignedChunkIds.length * 32 + data.length)) = _
  omega

variable {payload : List UInt8}

/-- Only the payload of a manifest is parsed as that manifest. -/
lemma payload_of_parsePushManifest
    (h : parsePushManifest payload = some (contentId, assignedChunkIds, data)) :
    (buildPushManifest contentId assignedChunkIds data).payload = payload := by
  rw [parsePushManifest] at h
  cases hid : (Codec.block 32).read payload with
  | none =>
    rw [hid] at h
    cases h
  | some r =>
    obtain ⟨contentId', rest⟩ := r
    simp only [hid] at h
    cases hcount : Codec.uint32.read rest with
    | none =>
      rw [hcount] at h
      cases h
    | some r =>
      simp only [hcount] at h
      obtain ⟨⟨ids, data'⟩, hmany, heq⟩ := map_eq_some_iff.mp h
      cases heq
      obtain ⟨hlen, hrest'⟩ := (Codec.readMany_eq_some (Codec.exact_block 32)).mp hmany
      rw [(Codec.read_eq_some (Codec.exact_block 32)).mp hid,
        (Codec.read_eq_some Codec.exact_uint32).mp hcount, hrest']
      simp only [buildPushManifest, buildPush, hlen, UInt32.ofNat_toNat]
      rfl

lemma payload_of_parsePushChunk (h : parsePushChunk payload = some (contentId, chunk)) :
    (buildPushChunk contentId chunk).payload = payload := by
  rw [parsePushChunk] at h
  cases hid : (Codec.block 32).read payload with
  | none =>
    rw [hid] at h
    cases h
  | some r =>
    simp only [hid] at h
    obtain ⟨chunk', hparse, heq⟩ := map_eq_some_iff.mp h
    cases heq
    rw [(Codec.read_eq_some (Codec.exact_block 32)).mp hid, Chunk.parse_eq_some.mp hparse]
    rfl

/-! ## Offsets -/

/-- How a function ends that may slice out of range. -/
inductive Parse (α : Type) where
  | ok (a : α)
  | error
  | panic
deriving DecidableEq

/-- Where the chunk ID with a number starts, which is also where as many end. -/
def chunkIdOffset (i : Nat) : Int := int64 (36 + int64 (i * 32))

def chunkIdAt (payload : List UInt8) (i : Nat) : Option ChunkID :=
  (slice payload (chunkIdOffset i) (int64 (chunkIdOffset i + 32))).map (Block.ofList 32)

/-- What is returned, and the number of chunk IDs that room was made for. -/
structure ManifestParse where
  result : Parse (ContentID × List ChunkID × List UInt8)
  room : Option Nat

def parsePushManifestOffsets (payload : List UInt8) : ManifestParse :=
  if payload.length < 36 then ⟨.error, none⟩
  else match slice payload 0 32, slice payload 32 36 with
    | some contentId, some countBytes =>
      let count := (Codec.uint32.decode countBytes).toNat
      if payload.length < chunkIdOffset count then ⟨.error, none⟩
      else match (List.range count).mapM (chunkIdAt payload),
          slice payload (chunkIdOffset count) payload.length with
        | some assignedChunkIds, some manifestData =>
          ⟨.ok (Block.ofList 32 contentId, assignedChunkIds, manifestData), some count⟩
        | _, _ => ⟨.panic, some count⟩
    | _, _ => ⟨.panic, none⟩

/-- No offset overflows: there are less than 2 ^ 32 chunk IDs. -/
lemma chunkIdOffset_eq (h : i < 2 ^ 32) : chunkIdOffset i = (36 + i * 32 : Nat) := by
  have hinner := int64_of_lt (n := i * 32) (by omega)
  have houter := int64_of_lt (n := 36 + i * 32) (by omega)
  push_cast at hinner houter ⊢
  rw [chunkIdOffset, hinner, houter]

lemma chunkIdAt_eq (hcount : i < 2 ^ 32) (hlen : 36 + i * 32 + 32 ≤ payload.length) :
    chunkIdAt payload i = some (Block.ofList 32 ((payload.drop (36 + i * 32)).take 32)) := by
  have hend : int64 ((36 + i * 32 : Nat) + 32) = (36 + i * 32 + 32 : Nat) := by
    have := int64_of_lt (n := 36 + i * 32 + 32) (by omega)
    rw [← this]
    push_cast
    rfl
  have hslice := slice_eq_some (Nat.le_add_right ..) hlen
  rw [Nat.add_sub_cancel_left] at hslice
  rw [chunkIdAt, chunkIdOffset_eq hcount, hend, hslice, map_some]

lemma mapM_eq_some_map {α β : Type} {f : α → Option β} {g : α → β} {l : List α}
    (h : ∀ a ∈ l, f a = some (g a)) : l.mapM f = some (l.map g) := by
  induction l with
  | nil => rfl
  | cons a l ih =>
    obtain ⟨ha, hl⟩ := forall_mem_cons.mp h
    rw [mapM_cons, ha, ih hl]
    rfl

/-- A string is made of its blocks and of what is left behind them. -/
lemma flatMap_blocks (h : n * 32 ≤ bs.length) :
    bs = ((List.range n).map fun i => Block.ofList 32 ((bs.drop (i * 32)).take 32)).flatMap
      (Codec.block 32).encode ++ bs.drop (n * 32) := by
  induction n with
  | zero => rw [Nat.zero_mul]; rfl
  | succ n ih =>
    have hlen : ((bs.drop (n * 32)).take 32).length = 32 := by
      rw [length_take, length_drop]
      omega
    have hlast : (Codec.block 32).encode (Block.ofList 32 ((bs.drop (n * 32)).take 32)) =
        (bs.drop (n * 32)).take 32 := Block.val_ofList hlen
    have hdrop : bs.drop ((n + 1) * 32) = (bs.drop (n * 32)).drop 32 := by
      rw [drop_drop]
      congr 1
      omega
    rw [range_succ, map_append, flatMap_append, append_assoc,
      map_singleton, flatMap_singleton, hlast, hdrop, take_append_drop]
    exact ih (by omega)

/-- The loop over the chunk IDs takes no slice out of range, and reads what
stands there. -/
lemma chunkIds_eq (hcount : n < 2 ^ 32) (hlen : 36 + n * 32 ≤ payload.length) :
    ∃ ids, (List.range n).mapM (chunkIdAt payload) = some ids ∧
      (Codec.block 32).readMany n (payload.drop 36) = some (ids, payload.drop (36 + n * 32)) := by
  have hids : (List.range n).mapM (chunkIdAt payload) = some ((List.range n).map fun i =>
      Block.ofList 32 (((payload.drop 36).drop (i * 32)).take 32)) := by
    refine mapM_eq_some_map fun i hi => ?_
    have hi := mem_range.mp hi
    rw [chunkIdAt_eq (by omega) (by omega), drop_drop]
  refine ⟨_, hids, (Codec.readMany_eq_some (Codec.exact_block 32)).mpr ⟨?_, ?_⟩⟩
  · rw [length_map, length_range]
  · have hblocks : n * 32 ≤ (payload.drop 36).length := by
      rw [length_drop]
      omega
    rw [← drop_drop]
    exact flatMap_blocks hblocks

/-- The content ID, the count and the rest of a payload that has both. -/
lemma manifest_fields (hlong : 36 ≤ payload.length) : slice payload 0 32 = some (payload.take 32) ∧
      slice payload 32 36 = some ((payload.drop 32).take 4) ∧
      parsePushManifest payload =
        ((Codec.block 32).readMany (Codec.uint32.decode ((payload.drop 32).take 4)).toNat
          (payload.drop 36)).map fun r => (Block.ofList 32 (payload.take 32), r.1, r.2) := by
  have hid : (Codec.block 32).read payload =
      some (Block.ofList 32 (payload.take 32), payload.drop 32) := by
    have hlen : ¬ payload.length < (Codec.block 32).size := by
      change ¬ payload.length < 32
      omega
    rw [Codec.read, if_neg hlen]
    rfl
  have hcount : Codec.uint32.read (payload.drop 32) =
      some (Codec.uint32.decode ((payload.drop 32).take 4), payload.drop 36) := by
    have hlen : ¬ (payload.drop 32).length < Codec.uint32.size := by
      rw [length_drop]
      change ¬ payload.length - 32 < 4
      omega
    rw [Codec.read, if_neg hlen, drop_drop]
    rfl
  refine ⟨slice_eq_some (Nat.zero_le 32) (show 32 ≤ payload.length by omega), ?_, ?_⟩
  · exact slice_eq_some (by decide) hlong
  · simp only [parsePushManifest, hid, hcount]

lemma readMany_eq_none (h : bs.length < n * 32) : (Codec.block 32).readMany n bs = none := by
  rw [eq_none_iff_forall_ne_some]
  rintro ⟨ids, rest⟩ hread
  obtain ⟨rfl, rfl⟩ := (Codec.readMany_eq_some (Codec.exact_block 32)).mp hread
  rw [length_append, length_flatMap_block] at h
  omega

/-- The parser with offsets never panics, and does what `parsePushManifest`
does. It makes room for no more chunk IDs than the payload has. -/
lemma parsePushManifestOffsets_eq (payload : List UInt8) :
    (parsePushManifestOffsets payload).result = (parsePushManifest payload).elim .error .ok ∧
      ∀ n, (parsePushManifestOffsets payload).room = some n → 36 + n * 32 ≤ payload.length := by
  by_cases hshort : payload.length < 36
  · have hnone : parsePushManifest payload = none := by
      rw [eq_none_iff_forall_ne_some]
      rintro ⟨contentId, ids, data⟩ hparse
      have hlen := length_buildPushManifest contentId ids data
      rw [payload_of_parsePushManifest hparse] at hlen
      omega
    rw [parsePushManifestOffsets, if_pos hshort, hnone]
    exact ⟨rfl, fun _ h => by cases h⟩
  obtain ⟨hid, hcount, hparse⟩ := manifest_fields (not_lt.mp hshort)
  have hlt := (Codec.uint32.decode ((payload.drop 32).take 4)).toNat_lt
  rw [parsePushManifestOffsets, if_neg hshort, hparse, hid, hcount]
  dsimp only
  generalize (Codec.uint32.decode ((payload.drop 32).take 4)).toNat = n at hlt ⊢
  rw [chunkIdOffset_eq hlt]
  by_cases hlen : payload.length < 36 + n * 32
  · have hnone : (Codec.block 32).readMany n (payload.drop 36) = none := by
      refine readMany_eq_none ?_
      rw [length_drop]
      omega
    rw [if_pos (Int.ofNat_lt.mpr hlen), hnone]
    exact ⟨rfl, fun _ h => by cases h⟩
  · obtain ⟨ids, hids, hmany⟩ := chunkIds_eq hlt (not_lt.mp hlen)
    have hrest := slice_eq_some (not_lt.mp hlen) le_rfl
    rw [if_neg (fun h => hlen (Int.ofNat_lt.mp h)), hids, hmany, hrest]
    refine ⟨?_, ?_⟩
    · rw [← length_drop, take_length]
      rfl
    · intro n' h
      cases h
      omega

/-- A list of messages that fit is read back from what is written for it,
each from its own frame; a manifest and a chunk are parsed from their own
payload, and no other; and no count in the payload of a manifest, however
large, leads to a slice out of range or to room for more chunk IDs than the
payload has. -/
theorem push_wire_round_trip : (∀ msgs : List PushMessage, (∀ msg ∈ msgs, msg.Fits) →
      (∀ msg ∈ msgs, writePushMessage msg = .ok msg.frame) ∧
      ∀ rest fails,
        readEach readPushMessage msgs.length ⟨msgs.flatMap PushMessage.frame ++ rest, fails⟩ =
          (.ok msgs, ⟨rest, fails⟩)) ∧
    (∀ contentId assignedChunkIds data, assignedChunkIds.length < 2 ^ 32 →
      parsePushManifest (buildPushManifest contentId assignedChunkIds data).payload =
        some (contentId, assignedChunkIds, data)) ∧
    (∀ payload contentId assignedChunkIds data,
      parsePushManifest payload = some (contentId, assignedChunkIds, data) →
        (buildPushManifest contentId assignedChunkIds data).payload = payload) ∧
    (∀ payload contentId chunk, parsePushChunk payload = some (contentId, chunk) →
      (buildPushChunk contentId chunk).payload = payload) ∧
    (∀ payload,
      (parsePushManifestOffsets payload).result = (parsePushManifest payload).elim .error .ok ∧
      (parsePushManifestOffsets payload).result ≠ .panic ∧
      ∀ n, (parsePushManifestOffsets payload).room = some n → 36 + n * 32 ≤ payload.length) := by
  refine ⟨?_, fun contentId _ data hlen => parsePushManifest_build hlen contentId data,
    fun _ _ _ _ => payload_of_parsePushManifest, fun _ _ _ => payload_of_parsePushChunk, ?_⟩
  · intro msgs hmsgs
    refine ⟨fun msg hmsg => writePushMessage_eq_ok (hmsgs msg hmsg), ?_⟩
    exact readEach_flatMap fun msg hmsg rest fails =>
      readPushMessage_eq_ok.mpr ⟨hmsgs msg hmsg, rfl, rfl⟩
  · intro payload
    obtain ⟨hresult, hroom⟩ := parsePushManifestOffsets_eq payload
    refine ⟨hresult, ?_, hroom⟩
    rw [hresult]
    cases parsePushManifest payload with
    | none => exact fun h => by cases h
    | some _ => exact fun h => by cases h

end Cipher.Push
