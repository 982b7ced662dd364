import Cipher.ChunkProtocol
import Cipher.Wire

/-!
# The wire format of the chunk protocol

`WriteMessage` and `ReadMessage`, and the builders and parsers of the
payloads. Reading is the inverse of writing in both directions: what is
written is read back, with nothing taken of what follows
(`readMessage_writeMessage`), and only what is written for a message is
read as that message (`readMessage_eq_ok`). The same goes for each builder
and its parser (`Inverse`).
-/

namespace Cipher.ChunkProtocol

open Bytes Binary Go Content Wire List Option

/-! ## Frames -/

def maxFrameSize : Nat := 2 * 1024 * 1024

/-- The version and the type are part of the frame. -/
def maxMessagePayloadSize : Nat := maxFrameSize - 3

inductive WireError where
  | read (e : ReadError)
  | exceedsMaximumFrameSize
deriving DecidableEq, Repr

/-- What `WriteMessage` writes. Nothing limits the size here, and its four
bytes wrap. -/
def writeMessage (msg : Message) : List UInt8 := frame msg.version msg.type msg.payload

def readMessage (r : Reader) : Except WireError Message × Reader :=
  match binaryRead .uint32 r with
  | (.error e, r) => (.error (.read e), r)
  | (.ok size, r) =>
    if size.toNat > 2 * 1024 * 1024 then (.error .exceedsMaximumFrameSize, r)
    else match readFull size.toNat r with
      | (_, some e, r) => (.error (.read e), r)
      | (data, none, r) =>
        match readEnvelope data with
        | .error e => (.error (.read e), r)
        | .ok (version, type, payload) => (.ok { version, type, payload }, r)

lemma readMessage_eq_ok :
    readMessage r = (.ok msg, r') ↔ msg.payload.length ≤ maxMessagePayloadSize ∧
      r.bytes = writeMessage msg ++ r'.bytes ∧ r.fails = r'.fails := by
  rw [readMessage]
  constructor
  · intro h
    split at h
    · cases h
    rename_i size r₁ hsize
    split at h
    · cases h
    split at h
    · cases h
    rename_i data r₂ hdata
    split at h
    · cases h
    rename_i version type payload henvelope
    cases h
    obtain ⟨hlen, hframe⟩ := frame_of_read hsize hdata henvelope
    refine ⟨?_, hframe⟩
    simp only [maxMessagePayloadSize, maxFrameSize]
    omega
  · rintro ⟨hlimit, hframe⟩
    simp only [maxMessagePayloadSize, maxFrameSize] at hlimit
    obtain ⟨size, r₁, data, hsize, hdata, henvelope, hlen⟩ := read_of_frame (by omega) hframe
    have hsmall : ¬ size.toNat > 2 * 1024 * 1024 := by omega
    simp only [hsize, if_neg hsmall, hdata, henvelope]

/-- A message that is not too long is read back, whatever follows it. -/
lemma readMessage_writeMessage {msg : Message}
    (h : msg.payload.length ≤ maxMessagePayloadSize) (rest : List UInt8) (fails : Bool) :
    readMessage ⟨writeMessage msg ++ rest, fails⟩ = (.ok msg, ⟨rest, fails⟩) :=
  readMessage_eq_ok.mpr ⟨h, rfl, rfl⟩

/-- What is read where a message was written is that message, as long as its
size did not wrap. -/
lemma eq_of_readMessage {msg msg' : Message} (hlen : 3 + msg.payload.length < 2 ^ 32)
    (h : readMessage ⟨writeMessage msg ++ rest, fails⟩ = (.ok msg', r')) : msg' = msg := by
  obtain ⟨hlimit, hbytes, -⟩ := readMessage_eq_ok.mp h
  simp only [maxMessagePayloadSize, maxFrameSize] at hlimit
  obtain ⟨hversion, htype, hpayload⟩ := frame_append_inj hlen (by omega) hbytes
  obtain ⟨version, type, payload⟩ := msg
  cases hversion
  cases htype
  cases hpayload
  rfl

/-! ## Payloads -/

def buildRequestManifest (id : ContentID) : Message := build msgRequestManifest id.val

/-- An identifier, and whatever is left. -/
def parseManifest (payload : List UInt8) : Option (ContentID × List UInt8) :=
  (Codec.block 32).read payload

def parseAck (payload : List UInt8) : Option (ChunkID × UInt8) :=
  ((Codec.block 32).pair Codec.uint8).parse payload

/-- `ParseError` with its error, which the client and the handler do not
look at (`parseError`). -/
def parseErrorPayload (payload : List UInt8) : Option (UInt8 × Str) := Codec.uint8.read payload

/-- The parser takes exactly what the builder makes. -/
def Inverse {α : Type} (build : α → Message) (parse : List UInt8 → Option α) : Prop :=
  ∀ payload x, parse payload = some x ↔ (build x).payload = payload

lemma inverse_parse {α : Type} {c : Codec α} (hc : c.Exact) (type : UInt8) :
    Inverse (fun a => build type (c.encode a)) c.parse :=
  fun _ _ => Codec.parse_eq_some hc

lemma inverse_read {α : Type} {c : Codec α} (hc : c.Exact) (type : UInt8) :
    Inverse (fun a : α × List UInt8 => build type (c.encode a.1 ++ a.2)) c.read :=
  fun _ _ => (Codec.read_eq_some hc).trans eq_comm

lemma parseRequestManifest_build (id : ContentID) :
    parseRequestManifest (buildRequestManifest id).payload = some id :=
  (inverse_parse (Codec.exact_block 32) _ _ _).mpr rfl

lemma parseManifest_build (id : ContentID) (data : List UInt8) :
    parseManifest (buildManifest id data).payload = some (id, data) :=
  (inverse_read (Codec.exact_block 32) msgManifest _ (id, data)).mpr rfl

lemma inverse_chunk : Inverse buildChunk parseChunk :=
  fun _ _ => Chunk.parse_eq_some.trans eq_comm

/-- A list of messages is read back from the bytes that are written for it,
each message from its own frame, and every payload is parsed as what it
was built from and as nothing else. -/
theorem chunk_wire_round_trip :
    (∀ msgs : List Message, (∀ msg ∈ msgs, msg.payload.length ≤ maxMessagePayloadSize) →
      ∀ rest fails, readEach readMessage msgs.length ⟨msgs.flatMap writeMessage ++ rest, fails⟩ =
        (.ok msgs, ⟨rest, fails⟩)) ∧
    (∀ msg : Message, msg.payload.length ≤ maxMessagePayloadSize → ∀ rest fails,
      readMessage ⟨writeMessage msg ++ rest, fails⟩ = (.ok msg, ⟨rest, fails⟩)) ∧
    Inverse buildRequestManifest parseRequestManifest ∧
    Inverse (fun m : ContentID × List UInt8 => buildManifest m.1 m.2) parseManifest ∧
    Inverse buildRequestChunk parseRequestChunk ∧
    Inverse buildChunk parseChunk ∧
    Inverse (fun a : ChunkID × UInt8 => buildAck a.1 a.2) parseAck ∧
    Inverse (fun e : UInt8 × Str => buildError e.1 e.2) parseErrorPayload := by
  have hid := Codec.exact_block 32
  refine ⟨?_, fun _ => readMessage_writeMessage, inverse_parse hid _, inverse_read hid _,
    inverse_parse hid _, inverse_chunk, inverse_parse (hid.pair Codec.exact_uint8) _,
    inverse_read Codec.exact_uint8 _⟩
  intro msgs hmsgs
  exact readEach_flatMap fun msg hmsg => readMessage_writeMessage (hmsgs msg hmsg)

end Cipher.ChunkProtocol
