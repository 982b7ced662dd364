import Cipher.ChunkWire

/-!
# The hardened decoders of the chunk protocol

`limits.go`, `decoder.go` and `validation.go`. `DecodeFrame` checks the
header of a frame before it makes room for the payload; `DecodeFrameHeader`
and `ReadFramePayload` do the same in two calls; `ReadMessage` knows only
the limit of a frame, and `ValidateMessage` checks a message afterwards,
its payload included.

A frame is decoded exactly if it has the current version and a payload
that is neither empty nor too long for its type (`decodeFrame_eq_ok`). That
is less than `ValidateMessage` asks for, and more than `ReadMessage` does.
-/

namespace Cipher.ChunkProtocol

open Bytes Binary Go Content Wire List

/-! ## Limits -/

def hashSize : Nat := 32

def contentIDSize : Nat := 32

def maxErrorMessageSize : Nat := 512

def maxChunkRequestSize : Nat := 512

def maxChunkResponseSize : Nat := maxMessagePayloadSize

def maxProtocolErrorSize : Nat := maxErrorMessageSize + 128

def maxManifestSize : Nat := maxMessagePayloadSize

def maxTicketSize : Nat := 4096

def maxSupportedChunkCount : Nat := 2 ^ 32

def maxSupportedChunkIndex : Nat := maxSupportedChunkCount - 1

/-- Zero for a type that is not known. -/
def maxPayloadSizeForMessage (messageType : UInt8) : Nat :=
  if messageType = msgRequestManifest then maxChunkRequestSize
  else if messageType = msgManifest then maxManifestSize
  else if messageType = msgRequestChunk then maxChunkRequestSize
  else if messageType = msgChunk then maxChunkResponseSize
  else if messageType = msgAck then hashSize + 1
  else if messageType = msgTicket then maxTicketSize
  else if messageType = msgError then maxProtocolErrorSize
  else 0

lemma maxPayloadSizeForMessage_le (messageType : UInt8) :
    maxPayloadSizeForMessage messageType ≤ maxMessagePayloadSize := by
  unfold maxPayloadSizeForMessage
  repeat' split
  all_goals decide

/-! ## Decoding -/

structure Frame where
  version : UInt16
  messageType : UInt8
  payload : List UInt8
deriving DecidableEq

def Frame.message (f : Frame) : Message := ⟨f.version, f.messageType, f.payload⟩

/-- `ReadFramePayload` does not name the type in its errors. -/
inductive DecodeError where
  | truncatedHeader (e : ReadError)
  | smallerThanMessageHeader (frameSize : UInt32)
  | invalidProtocolVersion (received : UInt16)
  | unknownMessageType (messageType : UInt8)
  | emptyPayload (messageType : Option UInt8)
  | payloadTooLarge (messageType : Option UInt8) (declared : UInt32) (maximum : Nat)
  | truncatedPayload (expected : UInt32) (e : ReadError)
deriving DecidableEq

/-- The envelope length, the version and the type. -/
def frameHeaderSize : Nat := 7

def frameLengthSize : Nat := 4

def messageHeaderSize : UInt32 := 3

/-- What is returned, what is left of the stream, and the size of the
buffer for the payload if one was made. -/
structure Decoding where
  result : Except DecodeError Frame
  rest : Reader
  buffer : Option Nat

def decodeFrame (r : Reader) : Decoding :=
  match readFull frameHeaderSize r with
  | (_, some e, r) => ⟨.error (.truncatedHeader e), r, none⟩
  | (header, none, r) =>
    let frameSize := Codec.uint32.decode (header.take frameLengthSize)
    let version := Codec.uint16.decode ((header.drop frameLengthSize).take 2)
    let messageType := header.getD (frameLengthSize + 2) 0
    if frameSize < messageHeaderSize then
      ⟨.error (.smallerThanMessageHeader frameSize), r, none⟩
    else if version ≠ currentMessageVersion then
      ⟨.error (.invalidProtocolVersion version), r, none⟩
    else
      let maxPayloadSize := maxPayloadSizeForMessage messageType
      if maxPayloadSize = 0 then ⟨.error (.unknownMessageType messageType), r, none⟩
      else
        let declaredSize := frameSize - messageHeaderSize
        if declaredSize = 0 then ⟨.error (.emptyPayload (some messageType)), r, none⟩
        else if declaredSize.toNat > maxPayloadSize then
          ⟨.error (.payloadTooLarge (some messageType) declaredSize maxPayloadSize), r, none⟩
        else
          match readFull declaredSize.toNat r with
          | (_, some e, r) =>
            ⟨.error (.truncatedPayload declaredSize e), r, some declaredSize.toNat⟩
          | (payload, none, r) =>
            ⟨.ok { version, messageType, payload }, r, some declaredSize.toNat⟩

def decodeFrameHeader (r : Reader) : Except DecodeError (UInt16 × UInt8 × UInt32) × Reader :=
  match readFull frameHeaderSize r with
  | (_, some e, r) => (.error (.truncatedHeader e), r)
  | (header, none, r) =>
    let frameSize := Codec.uint32.decode (header.take frameLengthSize)
    let version := Codec.uint16.decode ((header.drop frameLengthSize).take 2)
    let messageType := header.getD (frameLengthSize + 2) 0
    if frameSize < messageHeaderSize then (.error (.smallerThanMessageHeader frameSize), r)
    else if version ≠ currentMessageVersion then (.error (.invalidProtocolVersion version), r)
    else
      let maxPayloadSize := maxPayloadSizeForMessage messageType
      if maxPayloadSize = 0 then (.error (.unknownMessageType messageType), r)
      else
        let payloadSize := frameSize - messageHeaderSize
        if payloadSize = 0 then (.error (.emptyPayload (some messageType)), r)
        else if payloadSize.toNat > maxPayloadSize then
          (.error (.payloadTooLarge (some messageType) payloadSize maxPayloadSize), r)
        else (.ok (version, messageType, payloadSize), r)

def readFramePayload (r : Reader) (messageType : UInt8) (payloadSize : UInt32) :
    Except DecodeError (List UInt8) × Reader :=
  let maxPayloadSize := maxPayloadSizeForMessage messageType
  if maxPayloadSize = 0 then (.error (.unknownMessageType messageType), r)
  else if payloadSize = 0 then (.error (.emptyPayload none), r)
  else if payloadSize.toNat > maxPayloadSize then
    (.error (.payloadTooLarge none payloadSize maxPayloadSize), r)
  else
    match readFull payloadSize.toNat r with
    | (_, some e, r) => (.error (.truncatedPayload payloadSize e), r)
    | (payload, none, r) => (.ok payload, r)

/-- `DecodeFrameHeader`, and then `ReadFramePayload` with what it returns. -/
def decodeInParts (r : Reader) : Except DecodeError Frame × Reader :=
  match decodeFrameHeader r with
  | (.error e, r) => (.error e, r)
  | (.ok (version, messageType, payloadSize), r) =>
    match readFramePayload r messageType payloadSize with
    | (.error e, r) => (.error e, r)
    | (.ok payload, r) => (.ok { version, messageType, payload }, r)

/-! ## Validation -/

inductive ValidationError where
  | invalidMessageVersion (received : UInt16)
  | invalidMessageType (messageType : UInt8)
  | invalidPayloadLength (messageType : UInt8) (received maximum : Nat)
  | invalidContentID (received : Nat)
  | invalidManifestPayload (received : Nat)
  | invalidChunkID (received : Nat)
  | chunkTooShort (received minimum : Nat)
  | invalidChunkVersion (received : UInt16)
  | invalidChunkIndex (index : UInt32)
  | invalidCiphertext (header : UInt32) (payload : Nat)
  | emptyCiphertext
  | invalidAckLength (received : Nat)
  | invalidAckStatus (status : UInt8)
  | emptyError
  | invalidErrorCode (code : UInt8)
  | invalidErrorMessage (received : Nat)
  | emptyTicket
  | ticketTooLong
deriving DecidableEq

section

variable (payload : List UInt8)

def validateTicketPayload : Except ValidationError Unit :=
  if payload.length = 0 then .error .emptyTicket
  else if payload.length > maxTicketSize then .error .ticketTooLong
  else .ok ()

def validateRequestManifestPayload : Except ValidationError Unit :=
  if payload.length ≠ contentIDSize then .error (.invalidContentID payload.length) else .ok ()

def validateManifestPayload : Except ValidationError Unit :=
  if payload.length < contentIDSize then .error (.invalidManifestPayload payload.length)
  else .ok ()

def validateRequestChunkPayload : Except ValidationError Unit :=
  if payload.length ≠ hashSize then .error (.invalidChunkID payload.length) else .ok ()

/-- The header and the ciphertext. -/
def splitChunkPayload : Except ValidationError (ChunkHeader × List UInt8) :=
  match headerCodec.read payload with
  | none => .error (.chunkTooShort payload.length headerCodec.size)
  | some r => .ok r

/-- An index has 32 bits and is never too large. -/
def validateChunkPayload : Except ValidationError Unit :=
  if payload.length < headerCodec.size then
    .error (.chunkTooShort payload.length headerCodec.size)
  else match splitChunkPayload payload with
    | .error e => .error e
    | .ok (header, ciphertext) =>
      if header.version ≠ currentMessageVersion then .error (.invalidChunkVersion header.version)
      else if header.index.toNat > maxSupportedChunkIndex then
        .error (.invalidChunkIndex header.index)
      else if header.cipherSize ≠ .ofNat ciphertext.length then
        .error (.invalidCiphertext header.cipherSize ciphertext.length)
      else if ciphertext.length = 0 then .error .emptyCiphertext
      else .ok ()

def validateAckPayload : Except ValidationError Unit :=
  if payload.length ≠ hashSize + 1 then .error (.invalidAckLength payload.length)
  else if payload.getD hashSize 0 ≠ 0 then .error (.invalidAckStatus (payload.getD hashSize 0))
  else .ok ()

end

def errInvalidManifest : UInt8 := 0x03

def errInternal : UInt8 := 0x05

def isKnownErrorCode (code : UInt8) : Bool :=
  code ∈ [errContentNotFound, errChunkNotFound, errInvalidManifest, errPermissionDenied,
    errInternal, errIntegrityMismatch, errBadRequest, errUnsupportedMessage]

def validateErrorPayload : List UInt8 → Except ValidationError Unit
  | [] => .error .emptyError
  | code :: msg =>
    if ¬ isKnownErrorCode code then .error (.invalidErrorCode code)
    else if msg.length > maxErrorMessageSize then .error (.invalidErrorMessage msg.length)
    else .ok ()

def validateMessagePayload (messageType : UInt8) (payload : List UInt8) :
    Except ValidationError Unit :=
  let maxPayloadSize := maxPayloadSizeForMessage messageType
  if maxPayloadSize = 0 then .error (.invalidMessageType messageType)
  else if payload.length > maxPayloadSize then
    .error (.invalidPayloadLength messageType payload.length maxPayloadSize)
  else if messageType = msgRequestManifest then validateRequestManifestPayload payload
  else if messageType = msgManifest then validateManifestPayload payload
  else if messageType = msgRequestChunk then validateRequestChunkPayload payload
  else if messageType = msgChunk then validateChunkPayload payload
  else if messageType = msgAck then validateAckPayload payload
  else if messageType = msgTicket then validateTicketPayload payload
  else if messageType = msgError then validateErrorPayload payload
  else .error (.invalidMessageType messageType)

def validateMessage (msg : Message) : Except ValidationError Unit :=
  if msg.version ≠ currentMessageVersion then .error (.invalidMessageVersion msg.version)
  else validateMessagePayload msg.type msg.payload

/-! ## What is decoded -/

section

variable (frameSize : UInt32) (version : UInt16) (messageType : UInt8)

/-- The header of a frame as it is written. -/
def frameHeader : List UInt8 :=
  Codec.uint32.encode frameSize ++ (Codec.uint16.encode version ++ [messageType])

lemma length_frameHeader :
    (frameHeader frameSize version messageType).length = frameHeaderSize := by
  rfl

/-- Every header is written with its fields. -/
lemma frameHeader_fields {header : List UInt8} (hlen : header.length = frameHeaderSize) :
    header = frameHeader (Codec.uint32.decode (header.take frameLengthSize))
      (Codec.uint16.decode ((header.drop frameLengthSize).take 2))
      (header.getD (frameLengthSize + 2) 0) := by
  simp only [frameHeaderSize] at hlen
  have hsize : (header.take frameLengthSize).length = 4 := by
    simp only [frameLengthSize, length_take]
    omega
  have hversion : ((header.drop frameLengthSize).take 2).length = 2 := by
    simp only [frameLengthSize, length_take, length_drop]
    omega
  have htype : (header.drop frameLengthSize).drop 2 = [header.getD (frameLengthSize + 2) 0] := by
    rw [drop_drop, drop_eq_getElem_cons (by simp only [frameLengthSize]; omega),
      drop_of_length_le (by simp only [frameLengthSize]; omega),
      getD_eq_getElem?_getD, getElem?_eq_getElem, Option.getD_some]
  rw [frameHeader, Codec.exact_uint32 _ hsize, Codec.exact_uint16 _ hversion, ← htype,
    take_append_drop, take_append_drop]

/-- The fields of a header are those it was written with. -/
lemma fields_frameHeader :
    Codec.uint32.decode ((frameHeader frameSize version messageType).take frameLengthSize) =
      frameSize ∧
    Codec.uint16.decode
      (((frameHeader frameSize version messageType).drop frameLengthSize).take 2) = version ∧
    (frameHeader frameSize version messageType).getD (frameLengthSize + 2) 0 = messageType := by
  have hsize : (Codec.uint32.encode frameSize).length = frameLengthSize :=
    Codec.uint32.length_encode _
  have hversion : (Codec.uint16.encode version).length = 2 := Codec.uint16.length_encode version
  refine ⟨?_, ?_, ?_⟩
  · rw [frameHeader, take_left' hsize, Codec.decode_encode]
  · rw [frameHeader, drop_left' hsize, take_left' hversion, Codec.decode_encode]
  · rfl

end

variable {r r' : Reader} {messageType : UInt8}

lemma decodeFrameHeader_eq_ok :
    decodeFrameHeader r = (.ok (version, messageType, payloadSize), r') ↔
      version = currentMessageVersion ∧ payloadSize ≠ 0 ∧
        payloadSize.toNat ≤ maxPayloadSizeForMessage messageType ∧
        r.bytes = frameHeader (payloadSize + messageHeaderSize) version messageType ++
          r'.bytes ∧ r.fails = r'.fails := by
  rw [decodeFrameHeader]
  constructor
  · intro h
    split at h
    · cases h
    rename_i header r₁ hheader
    obtain ⟨hlen, hbytes, hfails⟩ := readFull_eq_ok.mp hheader
    have hfields := frameHeader_fields hlen
    dsimp only at h
    split at h
    · cases h
    split at h
    · cases h
    rename_i hversion
    split at h
    · cases h
    split at h
    · cases h
    rename_i hempty
    split at h
    · cases h
    rename_i hlarge
    cases h
    refine ⟨not_not.mp hversion, hempty, not_lt.mp hlarge, ?_, hfails⟩
    rw [hbytes, UInt32.sub_add_cancel, ← hfields]
  · rintro ⟨rfl, hempty, hlarge, hbytes, hfails⟩
    have hheader := readFull_eq_ok.mpr ⟨length_frameHeader .., hbytes, hfails⟩
    obtain ⟨hsizeField, hversionField, htypeField⟩ := fields_frameHeader
      (payloadSize + messageHeaderSize) currentMessageVersion messageType
    have hmax := maxPayloadSizeForMessage_le messageType
    have hsize : (payloadSize + messageHeaderSize).toNat = payloadSize.toNat + 3 := by
      refine Nat.mod_eq_of_lt ?_
      change payloadSize.toNat + 3 < 2 ^ 32
      simp only [maxMessagePayloadSize, maxFrameSize] at hmax
      omega
    have hsmall : ¬ payloadSize + messageHeaderSize < messageHeaderSize := by
      rw [UInt32.lt_iff_toNat_lt, hsize]
      change ¬ payloadSize.toNat + 3 < 3
      omega
    have hknown : maxPayloadSizeForMessage messageType ≠ 0 := by
      intro hzero
      rw [hzero, Nat.le_zero] at hlarge
      exact hempty (UInt32.toNat_inj.mp hlarge)
    simp only [hheader, hsizeField, hversionField, htypeField, if_neg hsmall, ne_eq,
      not_true_eq_false, if_false, if_neg hknown, UInt32.add_sub_cancel, if_neg hempty,
      if_neg (not_lt.mpr hlarge)]

/-- The header, and then the payload it was made for, are the frame. -/
lemma frameHeader_append {payload : List UInt8} (hlen : payload.length = payloadSize.toNat) :
    frameHeader (payloadSize + messageHeaderSize) version messageType ++ payload =
      frame version messageType payload := by
  have hsize : UInt32.ofNat (envelope version messageType payload).length =
      payloadSize + messageHeaderSize := by
    rw [length_envelope, hlen, UInt32.ofNat_add, UInt32.ofNat_toNat, UInt32.add_comm]
    rfl
  rw [frame, hsize, frameHeader, envelope]
  rfl

lemma readFramePayload_eq_ok (hempty : payloadSize ≠ 0)
    (hlarge : payloadSize.toNat ≤ maxPayloadSizeForMessage messageType) :
    readFramePayload r messageType payloadSize = (.ok payload, r') ↔
      payload.length = payloadSize.toNat ∧ r.bytes = payload ++ r'.bytes ∧ r.fails = r'.fails := by
  have hknown : maxPayloadSizeForMessage messageType ≠ 0 := by
    intro hzero
    rw [hzero, Nat.le_zero] at hlarge
    exact hempty (UInt32.toNat_inj.mp hlarge)
  rw [readFramePayload, if_neg hknown, if_neg hempty, if_neg (not_lt.mpr hlarge)]
  constructor
  · intro h
    split at h
    · cases h
    rename_i payload' r₁ hread
    cases h
    exact readFull_eq_ok.mp hread
  · intro h
    rw [readFull_eq_ok.mpr h]

/-- The two calls do what the one does, down to the errors they return. -/
lemma decodeInParts_eq (r : Reader) :
    decodeInParts r = ((decodeFrame r).result, (decodeFrame r).rest) := by
  rw [decodeInParts, decodeFrameHeader, decodeFrame]
  obtain ⟨header, err, r₁, hread⟩ : ∃ header err r₁,
      readFull frameHeaderSize r = (header, err, r₁) := ⟨_, _, _, rfl⟩
  cases err with
  | some e => simp only [hread]
  | none =>
    simp only [hread]
    generalize Codec.uint32.decode (header.take frameLengthSize) = frameSize
    generalize Codec.uint16.decode ((header.drop frameLengthSize).take 2) = version
    generalize header.getD (frameLengthSize + 2) 0 = messageType
    by_cases hsmall : frameSize < messageHeaderSize
    · simp only [if_pos hsmall]
    by_cases hversion : version ≠ currentMessageVersion
    · simp only [if_neg hsmall, if_pos hversion]
    by_cases hknown : maxPayloadSizeForMessage messageType = 0
    · simp only [if_neg hsmall, if_neg hversion, if_pos hknown]
    by_cases hempty : frameSize - messageHeaderSize = 0
    · simp only [if_neg hsmall, if_neg hversion, if_neg hknown, if_pos hempty]
    by_cases hlarge : (frameSize - messageHeaderSize).toNat > maxPayloadSizeForMessage messageType
    · simp only [if_neg hsmall, if_neg hversion, if_neg hknown, if_neg hempty, if_pos hlarge]
    simp only [if_neg hsmall, if_neg hversion, if_neg hknown, if_neg hempty, if_neg hlarge,
      readFramePayload]
    obtain ⟨payload, err, r₂, hpayload⟩ : ∃ payload err r₂,
        readFull (frameSize - messageHeaderSize).toNat r₁ = (payload, err, r₂) := ⟨_, _, _, rfl⟩
    cases err with
    | some e => simp only [hpayload]
    | none => simp only [hpayload]

/-- The buffer for a payload is made after its size was checked against the
type, which is the seventh byte of the stream. -/
lemma decodeFrame_buffer (h : (decodeFrame r).buffer = some size) :
    ∃ messageType, r.bytes[6]? = some messageType ∧
      size ≤ maxPayloadSizeForMessage messageType := by
  rw [decodeFrame] at h
  split at h
  · cases h
  rename_i header r₁ hheader
  obtain ⟨hlen, hbytes, -⟩ := readFull_eq_ok.mp hheader
  have htype : r.bytes[6]? = some (header.getD (frameLengthSize + 2) 0) := by
    have hlt : frameLengthSize + 2 < header.length := by
      rw [hlen]
      decide
    rw [hbytes, getD_eq_getElem?_getD, getElem?_eq_getElem hlt, Option.getD_some,
      ← getElem?_eq_getElem hlt]
    exact getElem?_append_left hlt
  refine ⟨_, htype, ?_⟩
  dsimp only at h
  split at h
  · cases h
  split at h
  · cases h
  split at h
  · cases h
  split at h
  · cases h
  split at h
  · cases h
  rename_i hlarge
  split at h
  · cases h
    exact not_lt.mp hlarge
  · cases h
    exact not_lt.mp hlarge

/-- A frame is decoded from what is written for it, if it has the current
version and a payload of a length that its type allows. -/
lemma decodeFrame_eq_ok : (decodeFrame r).result = .ok f ∧ (decodeFrame r).rest = r' ↔
      f.version = currentMessageVersion ∧ f.payload ≠ [] ∧
        f.payload.length ≤ maxPayloadSizeForMessage f.messageType ∧
        r.bytes = writeMessage f.message ++ r'.bytes ∧ r.fails = r'.fails := by
  rw [← Prod.mk.injEq, ← decodeInParts_eq, decodeInParts]
  constructor
  · intro h
    split at h
    · cases h
    rename_i version messageType payloadSize r₁ hheader
    obtain ⟨hversion, hempty, hlarge, hbytes, hfails⟩ := decodeFrameHeader_eq_ok.mp hheader
    split at h
    · cases h
    rename_i payload r₂ hpayload
    cases h
    obtain ⟨hlen, hbytes₁, hfails₁⟩ := (readFramePayload_eq_ok hempty hlarge).mp hpayload
    refine ⟨hversion, ?_, hlen ▸ hlarge, ?_, hfails.trans hfails₁⟩
    · rintro rfl
      exact hempty (UInt32.toNat_inj.mp hlen.symm)
    · rw [hbytes, hbytes₁, ← append_assoc, frameHeader_append hlen]
      rfl
  · obtain ⟨version, messageType, payload⟩ := f
    rintro ⟨hversion, hempty, hlarge, hbytes, hfails⟩
    dsimp only at hversion hempty hlarge hbytes
    have hmax := maxPayloadSizeForMessage_le messageType
    have hlen : payload.length = (UInt32.ofNat payload.length).toNat := by
      refine (UInt32.toNat_ofNat_of_lt' ?_).symm
      change payload.length < 2 ^ 32
      simp only [maxMessagePayloadSize, maxFrameSize] at hmax
      omega
    have hzero : UInt32.ofNat payload.length ≠ 0 := by
      intro hzero
      rw [hzero] at hlen
      exact hempty (length_eq_zero_iff.mp hlen)
    have hheader : decodeFrameHeader r = (.ok (version, messageType, .ofNat payload.length),
        ⟨payload ++ r'.bytes, r'.fails⟩) := by
      refine decodeFrameHeader_eq_ok.mpr ⟨hversion, hzero, hlen ▸ hlarge, ?_, hfails⟩
      rw [hbytes, ← append_assoc, frameHeader_append hlen]
      rfl
    have hpayload : readFramePayload ⟨payload ++ r'.bytes, r'.fails⟩ messageType
        (.ofNat payload.length) = (.ok payload, r') :=
      (readFramePayload_eq_ok hzero (hlen ▸ hlarge)).mpr ⟨hlen, rfl, rfl⟩
    simp only [hheader, hpayload]

lemma ite_ne_of_ne [Decidable p] (hx : x ≠ z) (hy : y ≠ z) : (if p then x else y) ≠ z := by
  by_cases hp : p
  · rwa [if_pos hp]
  · rwa [if_neg hp]

/-- No type of message has an empty payload. -/
lemma validateMessagePayload_nil (messageType : UInt8) :
    validateMessagePayload messageType [] ≠ .ok () := by
  refine ite_ne_of_ne ?_ (ite_ne_of_ne ?_ (ite_ne_of_ne ?_ (ite_ne_of_ne ?_ (ite_ne_of_ne ?_
    (ite_ne_of_ne ?_ (ite_ne_of_ne ?_ (ite_ne_of_ne ?_ (ite_ne_of_ne ?_ ?_))))))))
  all_goals
    intro h
    cases h

/-- A message that is accepted could have been decoded. -/
lemma validateMessage_eq_ok (h : validateMessage msg = .ok ()) :
    msg.version = currentMessageVersion ∧ msg.payload ≠ [] ∧
      msg.payload.length ≤ maxPayloadSizeForMessage msg.type := by
  rw [validateMessage] at h
  split at h
  · cases h
  rename_i hversion
  refine ⟨not_not.mp hversion, ?_, ?_⟩
  · intro hempty
    rw [hempty] at h
    exact validateMessagePayload_nil msg.type h
  · by_contra hlarge
    refine ite_ne_of_ne (p := maxPayloadSizeForMessage msg.type = 0) ?_ ?_ h
    · simp
    · rw [if_pos (not_le.mp hlarge)]
      simp

/-- On every stream: what `DecodeFrame` decodes, `ReadMessage` reads, with
the same rest; what `ReadMessage` reads and `ValidateMessage` accepts,
`DecodeFrame` decodes, with the same rest; decoding in two calls gives the
same; and the buffer for the payload is not larger than its type allows. -/
theorem chunk_decoders_agree (r : Reader) : (∀ f, (decodeFrame r).result = .ok f →
      readMessage r = (.ok f.message, (decodeFrame r).rest)) ∧
    (∀ msg r', readMessage r = (.ok msg, r') → validateMessage msg = .ok () →
      ∃ f, (decodeFrame r).result = .ok f ∧ (decodeFrame r).rest = r' ∧ f.message = msg) ∧
    decodeInParts r = ((decodeFrame r).result, (decodeFrame r).rest) ∧
    (∀ size, (decodeFrame r).buffer = some size → ∃ messageType,
      r.bytes[6]? = some messageType ∧ size ≤ maxPayloadSizeForMessage messageType) := by
  refine ⟨?_, ?_, decodeInParts_eq r, fun _ => decodeFrame_buffer⟩
  · intro f hf
    obtain ⟨-, -, hlen, hbytes⟩ := decodeFrame_eq_ok.mp ⟨hf, rfl⟩
    exact readMessage_eq_ok.mpr ⟨hlen.trans (maxPayloadSizeForMessage_le _), hbytes⟩
  · intro msg r' hread hvalid
    obtain ⟨-, hbytes⟩ := readMessage_eq_ok.mp hread
    obtain ⟨hversion, hempty, hlen⟩ := validateMessage_eq_ok hvalid
    have hf := (decodeFrame_eq_ok (f := ⟨msg.version, msg.type, msg.payload⟩)).mpr
      ⟨hversion, hempty, hlen, hbytes⟩
    exact ⟨_, hf.1, hf.2, rfl⟩

end Cipher.ChunkProtocol
