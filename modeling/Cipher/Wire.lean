import Cipher.Engine

/-!
# Frames on a stream

What the two wire formats have in common: a frame is the length of an
envelope and then the envelope, which is a version, a type and a payload.
The readers are given by when they succeed (`readFull_eq_ok`,
`binaryRead_eq_ok`, `readEnvelope_eq_ok`): on the bytes that are written
for what they return, followed by what they leave.
-/

namespace Cipher.Wire

open Bytes Binary Content List

/-! ## Reading from a stream -/

/-- `binary.Read` of a value of fixed size, in little-endian order. -/
def binaryRead {α : Type} (c : Codec α) (r : Reader) : Except ReadError α × Reader :=
  match readFull c.size r with
  | (buf, none, r) => (.ok (c.decode buf), r)
  | (_, some e, r) => (.error e, r)

variable {r : Reader}

lemma readFull_eq_ok : readFull size r = (buf, none, r') ↔
      buf.length = size ∧ r.bytes = buf ++ r'.bytes ∧ r.fails = r'.fails := by
  rw [readFull]
  split
  · rename_i hlong
    constructor
    · intro h
      cases h
      exact ⟨length_take_of_le hlong, (take_append_drop ..).symm, rfl⟩
    · rintro ⟨rfl, hbytes, hfails⟩
      rw [hbytes, hfails, take_left, drop_left]
  · rename_i hshort
    constructor
    · intro h
      cases h
    · rintro ⟨hlen, hbytes, -⟩
      rw [hbytes, length_append] at hshort
      omega

lemma binaryRead_eq_ok {c : Codec α} (hc : c.Exact) :
    binaryRead c r = (.ok a, r') ↔ r.bytes = c.encode a ++ r'.bytes ∧ r.fails = r'.fails := by
  rw [binaryRead]
  constructor
  · intro h
    split at h
    · rename_i buf r'' hread
      cases h
      obtain ⟨hlen, hbytes⟩ := readFull_eq_ok.mp hread
      rw [hc buf hlen]
      exact hbytes
    · cases h
  · intro h
    rw [readFull_eq_ok.mpr ⟨c.length_encode a, h⟩]
    simp only [c.decode_encode]

/-- Reads a number of items, one after the other, up to the first that
cannot be read. -/
def readEach {α ε : Type} (read : Reader → Except ε α × Reader) :
    Nat → Reader → Except ε (List α) × Reader
  | 0, r => (.ok [], r)
  | n + 1, r =>
    match read r with
    | (.error e, r) => (.error e, r)
    | (.ok a, r) =>
      match readEach read n r with
      | (.error e, r) => (.error e, r)
      | (.ok as, r) => (.ok (a :: as), r)

/-- Items that can be read one at a time can be read from their
concatenation. -/
lemma readEach_flatMap {α ε : Type} {read : Reader → Except ε α × Reader}
    {write : α → List UInt8} {as : List α}
    (h : ∀ a ∈ as, ∀ rest fails, read ⟨write a ++ rest, fails⟩ = (.ok a, ⟨rest, fails⟩))
    (rest : List UInt8) (fails : Bool) :
    readEach read as.length ⟨as.flatMap write ++ rest, fails⟩ = (.ok as, ⟨rest, fails⟩) := by
  induction as with
  | nil => rfl
  | cons a as ih =>
    obtain ⟨ha, has⟩ := forall_mem_cons.mp h
    rw [flatMap_cons, append_assoc, length_cons, readEach, ha]
    dsimp only
    rw [ih has]

/-! ## Envelopes and frames -/

def envelope (version : UInt16) (type : UInt8) (payload : List UInt8) : List UInt8 :=
  Codec.uint16.encode version ++ (Codec.uint8.encode type ++ payload)

/-- The envelope after its length, which is written in four bytes. -/
def frame (version : UInt16) (type : UInt8) (payload : List UInt8) : List UInt8 :=
  let buf := envelope version type payload
  Codec.uint32.encode (.ofNat buf.length) ++ buf

/-- The version, the type and whatever is left of the data of a frame. -/
def readEnvelope (data : List UInt8) : Except ReadError (UInt16 × UInt8 × List UInt8) :=
  match binaryRead .uint16 ⟨data, false⟩ with
  | (.error e, _) => .error e
  | (.ok version, buf) =>
    match binaryRead .uint8 buf with
    | (.error e, _) => .error e
    | (.ok type, buf) => .ok (version, type, buf.bytes)

lemma length_envelope (version : UInt16) (type : UInt8) (payload : List UInt8) :
    (envelope version type payload).length = 3 + payload.length := by
  rw [envelope, length_append, length_append, ← Nat.add_assoc]
  rfl

lemma readEnvelope_eq_ok :
    readEnvelope data = .ok (version, type, payload) ↔ data = envelope version type payload := by
  rw [readEnvelope]
  constructor
  · intro h
    split at h
    · cases h
    · rename_i version' buf hversion
      split at h
      · cases h
      · rename_i type' buf' htype
        cases h
        obtain ⟨hdata, -⟩ := (binaryRead_eq_ok Codec.exact_uint16).mp hversion
        obtain ⟨hbuf, -⟩ := (binaryRead_eq_ok Codec.exact_uint8).mp htype
        rw [envelope, ← hbuf]
        exact hdata
  · rintro rfl
    have hversion : binaryRead .uint16 ⟨envelope version type payload, false⟩ =
        (.ok version, ⟨Codec.uint8.encode type ++ payload, false⟩) :=
      (binaryRead_eq_ok Codec.exact_uint16).mpr ⟨rfl, rfl⟩
    have htype : binaryRead .uint8 ⟨Codec.uint8.encode type ++ payload, false⟩ =
        (.ok type, ⟨payload, false⟩) :=
      (binaryRead_eq_ok Codec.exact_uint8).mpr ⟨rfl, rfl⟩
    simp only [hversion, htype]

/-- What was read as a length, as that many bytes and as an envelope was a
frame. -/
lemma frame_of_read (hsize : binaryRead .uint32 r = (.ok size, r₁))
    (hdata : readFull size.toNat r₁ = (data, none, r'))
    (henvelope : readEnvelope data = .ok (version, type, payload)) :
    3 + payload.length = size.toNat ∧
      r.bytes = frame version type payload ++ r'.bytes ∧ r.fails = r'.fails := by
  obtain rfl := readEnvelope_eq_ok.mp henvelope
  obtain ⟨hbytes, hfails⟩ := (binaryRead_eq_ok Codec.exact_uint32).mp hsize
  obtain ⟨hlen, hbytes₁, hfails₁⟩ := readFull_eq_ok.mp hdata
  refine ⟨(length_envelope ..).symm.trans hlen, ?_, hfails.trans hfails₁⟩
  rw [hbytes, hbytes₁, ← append_assoc, frame, hlen, UInt32.ofNat_toNat]

/-- A frame is read as its length, as that many bytes and as its envelope. -/
lemma read_of_frame (hlen : 3 + payload.length < 2 ^ 32)
    (h : r.bytes = frame version type payload ++ r'.bytes ∧ r.fails = r'.fails) :
    ∃ size r₁ data, binaryRead .uint32 r = (.ok size, r₁) ∧
      readFull size.toNat r₁ = (data, none, r') ∧
      readEnvelope data = .ok (version, type, payload) ∧ size.toNat = 3 + payload.length := by
  obtain ⟨hbytes, hfails⟩ := h
  have htoNat : (UInt32.ofNat (envelope version type payload).length).toNat =
      3 + payload.length := by
    rw [length_envelope, UInt32.toNat_ofNat_of_lt' hlen]
  refine ⟨.ofNat (envelope ..).length,
    ⟨envelope version type payload ++ r'.bytes, r'.fails⟩, envelope ..,
    ?_, ?_, readEnvelope_eq_ok.mpr rfl, htoNat⟩
  · refine (binaryRead_eq_ok Codec.exact_uint32).mpr ⟨?_, hfails⟩
    rw [hbytes, frame, append_assoc]
  · exact readFull_eq_ok.mpr ⟨(length_envelope ..).trans htoNat.symm, rfl, rfl⟩

/-- Two streams that begin with frames of less than 2 ^ 32 bytes and are the
same begin with the same frame. -/
lemma frame_append_inj {payload' rest rest' : List UInt8}
    (hlen : 3 + payload.length < 2 ^ 32) (hlen' : 3 + payload'.length < 2 ^ 32)
    (h : frame version type payload ++ rest = frame version' type' payload' ++ rest') :
    version = version' ∧ type = type' ∧ payload = payload' := by
  rw [frame, frame, append_assoc, append_assoc] at h
  obtain ⟨hsize, hbytes⟩ := append_inj h (by rw [Codec.length_encode, Codec.length_encode])
  have hsame : (envelope version type payload).length =
      (envelope version' type' payload').length := by
    have hdecode := congrArg (fun bs => (Codec.uint32.decode bs).toNat) hsize
    simp only [Codec.decode_encode, length_envelope] at hdecode ⊢
    rwa [UInt32.toNat_ofNat_of_lt' hlen, UInt32.toNat_ofNat_of_lt' hlen'] at hdecode
  have henvelope := readEnvelope_eq_ok.mpr (append_inj hbytes hsame).1
  rw [readEnvelope_eq_ok.mpr rfl] at henvelope
  cases henvelope
  exact ⟨rfl, rfl, rfl⟩

end Cipher.Wire
