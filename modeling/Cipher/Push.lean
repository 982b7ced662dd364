import Cipher.Content

/-!
# The push protocol: messages and client

The package `protocol/push` but for its handler: the messages by which a
publisher hands chunks to a provider, and what the client makes of the
answers. The three requests are answered in one way, by an identifier and
a status; `checkAck` is what `SendManifest`, `SendChunk` and
`SendBatchComplete` do with the message they read.
-/

namespace Cipher.Push

open Bytes Binary Go Content

/-! ## Messages -/

structure PushMessage where
  version : UInt16
  type : UInt8
  payload : List UInt8
deriving DecidableEq

def currentPushVersion : UInt16 := 1

def maxMessageSize : Nat := 4 * 1024 * 1024

def msgPushManifest : UInt8 := 0x10

def msgPushManifestAck : UInt8 := 0x11

def msgPushChunk : UInt8 := 0x12

def msgPushChunkAck : UInt8 := 0x13

def msgPushBatchComplete : UInt8 := 0x14

def msgPushBatchCompleteAck : UInt8 := 0x15

def msgPushError : UInt8 := 0x16

def pushStatusOK : UInt8 := 0x00

def pushStatusUnauthorized : UInt8 := 0x01

def pushStatusMalformed : UInt8 := 0x03

def pushStatusIncomplete : UInt8 := 0x04

def pushStatusHashMismatch : UInt8 := 0x05

def pushStatusNotInAssignedSet : UInt8 := 0x06

def pushStatusIOError : UInt8 := 0x07

/-- Every message that is built has the current version. -/
def buildPush (type : UInt8) (payload : List UInt8) : PushMessage :=
  { version := currentPushVersion, type, payload }

/-- `WritePushMessage` sends the message: version, type and payload are
within the limit. -/
def PushMessage.Fits (msg : PushMessage) : Prop := 3 + msg.payload.length ≤ maxMessageSize

def buildPushManifest (contentId : ContentID) (assignedChunkIds : List ChunkID)
    (manifestData : List UInt8) : PushMessage :=
  buildPush msgPushManifest (contentId.val ++
    (Codec.uint32.encode (.ofNat assignedChunkIds.length) ++
      (assignedChunkIds.flatMap (Codec.block 32).encode ++ manifestData)))

section

variable (payload : List UInt8)

def parsePushManifest : Option (ContentID × List ChunkID × List UInt8) :=
  match (Codec.block 32).read payload with
  | none => none
  | some (contentId, rest) =>
    match Codec.uint32.read rest with
    | none => none
    | some (count, rest) =>
      ((Codec.block 32).readMany count.toNat rest).map fun r => (contentId, r.1, r.2)

def buildPushChunk (contentId : ContentID) (chunk : Chunk) : PushMessage :=
  buildPush msgPushChunk (contentId.val ++ chunk.bytes)

def parsePushChunk : Option (ContentID × Chunk) :=
  match (Codec.block 32).read payload with
  | none => none
  | some (contentId, rest) => (Chunk.parse rest).map fun chunk => (contentId, chunk)

def buildPushBatchComplete (contentId : ContentID) : PushMessage :=
  buildPush msgPushBatchComplete contentId.val

def parsePushBatchComplete : Option ContentID := (Codec.block 32).parse payload

/-- An answer: an identifier and a status. -/
def buildIdAck (type : UInt8) (id : Block 32) (status : UInt8) : PushMessage :=
  buildPush type (id.val ++ [status])

def parseIdAck : Option (Block 32 × UInt8) := ((Codec.block 32).pair Codec.uint8).parse payload

end

section

variable (contentId : ContentID)

def buildPushManifestAck (status : UInt8) : PushMessage :=
  buildIdAck msgPushManifestAck contentId status

def buildPushChunkAck (chunkId : ChunkID) (status : UInt8) : PushMessage :=
  buildIdAck msgPushChunkAck chunkId status

def buildPushBatchCompleteAck (status : UInt8) : PushMessage :=
  buildIdAck msgPushBatchCompleteAck contentId status

def buildPushError (code : UInt8) (msg : Str) : PushMessage := buildPush msgPushError (code :: msg)

/-- The code and the text, both zero if the payload is empty. -/
def parsePushError (payload : List UInt8) : UInt8 × Str := (Codec.uint8.read payload).getD (0, [])

/-- The list of assigned chunks is as long as its count says, which wraps
at 2 ^ 32. -/
lemma parsePushManifest_build {assignedChunkIds : List ChunkID}
    (hlen : assignedChunkIds.length < 2 ^ 32) (contentId : ContentID) (data : List UInt8) :
    parsePushManifest (buildPushManifest contentId assignedChunkIds data).payload =
      some (contentId, assignedChunkIds, data) := by
  have hid : ∀ rest, (Codec.block 32).read (contentId.val ++ rest) = some (contentId, rest) :=
    (Codec.block 32).read_append contentId
  have hcount : (UInt32.ofNat assignedChunkIds.length).toNat = assignedChunkIds.length :=
    UInt32.toNat_ofNat_of_lt' hlen
  simp only [parsePushManifest, buildPushManifest, buildPush, hid, Codec.uint32.read_append,
    hcount, (Codec.block 32).readMany_append, Option.map_some]

lemma parsePushChunk_build (chunk : Chunk) :
    parsePushChunk (buildPushChunk contentId chunk).payload = some (contentId, chunk) := by
  have hid : ∀ rest, (Codec.block 32).read (contentId.val ++ rest) = some (contentId, rest) :=
    (Codec.block 32).read_append contentId
  simp only [parsePushChunk, buildPushChunk, buildPush, hid, Chunk.parse_bytes, Option.map_some]

lemma parseIdAck_build (type : UInt8) (id : Block 32) (status : UInt8) :
    parseIdAck (buildIdAck type id status).payload = some (id, status) :=
  (Codec.parse_eq_some ((Codec.exact_block 32).pair Codec.exact_uint8)).mpr rfl

/-! ## The client -/

inductive ClientError where
  | remote (code : UInt8) (msg : Str)
  | unexpectedType (got : UInt8)
  | failedToParse
  | idMismatch (got : Block 32)
  | rejected (status : UInt8)
deriving DecidableEq

/-- The answer to a request that was to be acknowledged by a message of
the type, for the identifier. -/
def checkAck (type : UInt8) (id : Block 32) (resp : PushMessage) : Except ClientError Unit :=
  if resp.type = msgPushError then
    let (code, msg) := parsePushError resp.payload
    .error (.remote code msg)
  else if resp.type ≠ type then .error (.unexpectedType resp.type)
  else match parseIdAck resp.payload with
    | none => .error .failedToParse
    | some (respId, status) =>
      if respId ≠ id then .error (.idMismatch respId)
      else if status ≠ pushStatusOK then .error (.rejected status)
      else .ok ()

/-- `SendManifest` from its answer on. -/
def sendManifest (resp : PushMessage) : Except ClientError Unit :=
  checkAck msgPushManifestAck contentId resp

/-- `SendChunk` from its answer on. -/
def sendChunk (chunk : Chunk) (resp : PushMessage) : Except ClientError Unit :=
  checkAck msgPushChunkAck chunk.header.id resp

/-- `SendBatchComplete` from its answer on. -/
def sendBatchComplete (resp : PushMessage) : Except ClientError Unit :=
  checkAck msgPushBatchCompleteAck contentId resp

end

/-- A request succeeds exactly on the answer for its identifier with the
status OK. -/
lemma checkAck_eq_ok {type : UInt8} {id : Block 32} : checkAck type id resp = .ok () ↔
      resp.type ≠ msgPushError ∧ resp.type = type ∧
        parseIdAck resp.payload = some (id, pushStatusOK) := by
  by_cases herror : resp.type = msgPushError
  · simp [checkAck, herror]
  by_cases htype : resp.type = type
  · rw [checkAck, if_neg herror, if_neg (not_not_intro htype)]
    cases hparse : parseIdAck resp.payload with
    | none => simp
    | some ack =>
      obtain ⟨respId, status⟩ := ack
      dsimp only
      split
      · rename_i hid
        simp [hid]
      · rename_i hid
        split
        · rename_i hstatus
          simp [hstatus]
        · rename_i hstatus
          exact iff_of_true rfl ⟨herror, htype, by rw [not_not.mp hid, not_not.mp hstatus]⟩
  · rw [checkAck, if_neg herror]
    simp [htype]

end Cipher.Push
