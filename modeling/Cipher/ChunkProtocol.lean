import Cipher.Content

/-!
# The chunk protocol

The package `protocol/chunk`: its messages, `FetchChunk` of the client and
`handleStream` of the provider. A stream carries one request at a time;
a chunk that is served has to be acknowledged, by an `ACK` or by a signed
ticket, before the next request is read.

The handler blocks at two places, in the loop of `handleStream` and for
the acknowledgement in `handleRequestChunk`. `handle` is what it does with
a message read at either of them. What the provider holds, its ticket
handler and the JSON of tickets are parameters, given afresh for every
message, as they may have changed since the last one.
-/

namespace Cipher.ChunkProtocol

open Bytes Binary Go Content

/-! ## Messages -/

structure Message where
  version : UInt16
  type : UInt8
  payload : List UInt8
deriving DecidableEq

def currentMessageVersion : UInt16 := 1

def msgRequestManifest : UInt8 := 0x01

def msgManifest : UInt8 := 0x02

def msgRequestChunk : UInt8 := 0x03

def msgChunk : UInt8 := 0x04

def msgAck : UInt8 := 0x05

def msgError : UInt8 := 0x06

def msgTicket : UInt8 := 0x07

def errContentNotFound : UInt8 := 0x01

def errChunkNotFound : UInt8 := 0x02

def errPermissionDenied : UInt8 := 0x04

def errIntegrityMismatch : UInt8 := 0x06

def errBadRequest : UInt8 := 0x07

def errUnsupportedMessage : UInt8 := 0x08

/-- Every message that is built has the current version. -/
def build (type : UInt8) (payload : List UInt8) : Message :=
  { version := currentMessageVersion, type, payload }

section

variable (payload : List UInt8)

def parseRequestManifest : Option ContentID := (Codec.block 32).parse payload

def buildManifest (id : ContentID) (data : List UInt8) : Message :=
  build msgManifest (id.val ++ data)

def buildRequestChunk (id : ChunkID) : Message := build msgRequestChunk id.val

def parseRequestChunk : Option ChunkID := (Codec.block 32).parse payload

def buildChunk (chunk : Chunk) : Message := build msgChunk chunk.bytes

def parseChunk : Option Chunk := Chunk.parse payload

end

def buildAck (id : ChunkID) (status : UInt8) : Message := build msgAck (id.val ++ [status])

def buildError (code : UInt8) (msg : Str) : Message := build msgError (code :: msg)

/-- The code and the text, both zero if the payload is empty. -/
def parseError (payload : List UInt8) : UInt8 × Str := (Codec.uint8.read payload).getD (0, [])

/-- `encoding/json` of signed tickets. -/
structure Json (τ : Type) where
  marshal : τ → Option (List UInt8)
  unmarshal : List UInt8 → Option τ

variable {τ : Type}

/-- The ticket may be `nil`. -/
def buildTicket (json : Json τ) (signedTicket : Option τ) : Option Message :=
  match signedTicket with
  | none => none
  | some signedTicket => (json.marshal signedTicket).map (build msgTicket)

def parseTicket (json : Json τ) (payload : List UInt8) : Option τ :=
  if payload.length = 0 then none else json.unmarshal payload

lemma parseRequestChunk_build (id : ChunkID) :
    parseRequestChunk (buildRequestChunk id).payload = some id :=
  (Codec.parse_eq_some (Codec.exact_block 32)).mpr rfl

/-! ## The client -/

inductive FetchError where
  | remoteChunkNotFound
  | remote (code : UInt8) (msg : Str)
  | expectedChunk (got : UInt8)
  | failedToParseChunk
  | corruptedChunk (id : ChunkID)
  | failedToGenerateTicket
  | failedToBuildTicketMessage
deriving DecidableEq

/-- What a ticket generator returns: an error, or a ticket, which may be
`nil`. -/
abbrev TicketGenerator (τ : Type) := ChunkID → Option (Option τ)

/-- `FetchChunk` from the message on that answers its request: what it
still sends, and what it returns. -/
def fetchChunk (sha256 : List UInt8 → Hash) (json : Json τ)
    (ticketGenerator : Option (TicketGenerator τ)) (chunkId : ChunkID) (resp : Message) :
    List Message × Except FetchError Chunk :=
  if resp.type = msgError then
    let (code, msg) := parseError resp.payload
    if code = errChunkNotFound then ([], .error .remoteChunkNotFound)
    else ([], .error (.remote code msg))
  else if resp.type ≠ msgChunk then ([], .error (.expectedChunk resp.type))
  else match parseChunk resp.payload with
    | none => ([], .error .failedToParseChunk)
    | some chunk =>
      if sha256 chunk.data ≠ chunkId then
        ([buildError errIntegrityMismatch (ascii "chunk hash mismatch")],
          .error (.corruptedChunk chunkId))
      else
        let chunk := { chunk with header := { chunk.header with id := chunkId } }
        match ticketGenerator with
        | none => ([buildAck chunkId 0], .ok chunk)
        | some generate =>
          match generate chunkId with
          | none => ([], .error .failedToGenerateTicket)
          | some signedTicket =>
            match buildTicket json signedTicket with
            | none => ([], .error .failedToBuildTicketMessage)
            | some ticketMsg => ([ticketMsg], .ok chunk)

/-- A chunk that is returned has the identifier that was asked for, and data
that hashes to it. The rest of its header is the provider's. -/
lemma fetchChunk_eq_ok (h : (fetchChunk sha256 json ticketGenerator chunkId resp).2 = .ok c) :
    c.header.id = chunkId ∧ sha256 c.data = chunkId := by
  unfold fetchChunk at h
  split at h
  · dsimp only at h
    split at h <;> cases h
  split at h
  · cases h
  split at h
  · cases h
  rename_i chunk hparse
  split at h
  · cases h
  rename_i hhash
  have hresult : ∀ {c' : Chunk}, (.ok c' : Except FetchError Chunk) = .ok c →
      c' = { chunk with header := { chunk.header with id := chunkId } } →
      c.header.id = chunkId ∧ sha256 c.data = chunkId := by
    rintro c' heq rfl
    cases heq
    exact ⟨rfl, not_not.mp hhash⟩
  split at h
  · exact hresult h rfl
  split at h
  · cases h
  split at h
  · cases h
  · exact hresult h rfl

/-! ## The provider -/

/-- What the handler has to do with. `ticketHandler` answers with the text
of its error, if there is one, and `corrupt` says whether the test hook
strikes. -/
structure Provider (τ : Type) where
  store : Storage
  json : Json τ
  ticketHandler : Option (τ → Option Str)
  corrupt : Bool

/-- `ReadMessage`. -/
inductive Read where
  | message (msg : Message)
  | failed
deriving DecidableEq

/-- Where the handler waits for a message. -/
inductive Phase where
  | loop
  | awaitAck
  | closed
deriving DecidableEq, Repr

def corruptFirst : List UInt8 → List UInt8
  | [] => []
  | b :: bs => (b ^^^ 0xFF) :: bs

namespace Provider

variable (v : Provider τ)

def handleRequestManifest (msg : Message) : Message :=
  match parseRequestManifest msg.payload with
  | none => buildError errBadRequest (ascii "invalid payload for REQUEST_MANIFEST")
  | some contentId =>
    match v.store.getManifestBytes contentId with
    | none => buildError errContentNotFound (ascii "manifest not found")
    | some manifestData => buildManifest contentId manifestData

/-- The chunk as it is sent. -/
def outgoing (chunk : Chunk) : Chunk :=
  if v.corrupt then { chunk with data := corruptFirst chunk.data } else chunk

/-- `handleRequestChunk` up to the acknowledgement. -/
def handleRequestChunk (msg : Message) : Phase × Message :=
  match parseRequestChunk msg.payload with
  | none => (.loop, buildError errBadRequest (ascii "invalid payload for REQUEST_CHUNK"))
  | some chunkId =>
    match v.store.getChunk chunkId with
    | .error _ => (.loop, buildError errChunkNotFound (ascii "chunk not found"))
    | .ok chunk => (.awaitAck, buildChunk (v.outgoing chunk))

/-- `handleRequestChunk` from the acknowledgement on. It then returns to
the loop, whatever it got. -/
def handleAck (ackMsg : Message) : List Message :=
  if ackMsg.type = msgTicket then
    match parseTicket v.json ackMsg.payload with
    | none => []
    | some signedTicket =>
      match v.ticketHandler with
      | none => []
      | some ticketHandler =>
        match ticketHandler signedTicket with
        | none => []
        | some err => [buildError errPermissionDenied (ascii "invalid ticket: " ++ err)]
  else []

/-- What the handler does with what it reads, and what it writes. -/
def handle : Phase → Read → Phase × List Message
  | .loop, .failed => (.closed, [])
  | .loop, .message msg =>
    if msg.version ≠ currentMessageVersion then
      (.closed, [buildError errUnsupportedMessage (ascii "unsupported message version")])
    else if msg.type = msgRequestManifest then (.loop, [v.handleRequestManifest msg])
    else if msg.type = msgRequestChunk then
      let (phase, resp) := v.handleRequestChunk msg
      (phase, [resp])
    else (.loop, [buildError errUnsupportedMessage (ascii "unsupported message type")])
  | .awaitAck, .failed => (.loop, [])
  | .awaitAck, .message ackMsg => (.loop, v.handleAck ackMsg)
  | .closed, _ => (.closed, [])

end Provider

end Cipher.ChunkProtocol
