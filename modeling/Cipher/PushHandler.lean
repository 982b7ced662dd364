import Cipher.Push
import Cipher.Transition
import Mathlib.Data.Finset.Card

/-!
# The push handler

`StreamHandler` of the push protocol with any number of streams at once.
Every stream has a goroutine of its own, and they share the store, the
pending sessions and the lock on them. A `Task` is where such a goroutine
stands between two points at which others can come in between: it has
read a message, looked a session up, checked a chunk, asked for it in the
store, stored it, and so on. `Handler.next` is what it does up to the next
such point.

The map of sessions holds pointers. A stream that has looked a session up
goes on with that one, even if the map has got another since; so sessions
live in a `heap` that only grows, and the map has their places in it.

The files of one `PutChunk` become visible at once, with the rename at its
end. A write to the store may fail, and a manifest whose write fails may
leave anything in its file. Other parts of the provider write files too,
but none deletes one.
-/

namespace Cipher.Push

open Bytes Binary Go Content Transition Function

inductive AuthPolicy where
  | «open»
  | allowlist
deriving DecidableEq, Repr

/-- What the handler is set up with; `deserialize` is the JSON of
manifests. -/
structure Config where
  sha256 : List UInt8 → Hash
  deserialize : List UInt8 → Option Manifest
  allowPush : Bool
  authPolicy : AuthPolicy
  allowedPublishers : List Str

/-- The keys of the maps `ExpectedChunks` and `CommittedChunks`; the
latter maps all of its keys to `true`. -/
structure PendingSession where
  contentId : ContentID
  manifest : Manifest
  manifestBytes : List UInt8
  expectedChunks : Finset ChunkID
  committedChunks : Finset ChunkID
deriving DecidableEq

/-- What the goroutines of the streams share. -/
structure Handler where
  store : Storage
  heap : List PendingSession
  sessions : ContentID → Option Nat

/-- Where the goroutine of a stream stands. -/
inductive Task where
  | opening
  | reading
  | manifest (session : PendingSession)
  | lookup (contentId : ContentID) (chunk : Chunk)
  | validate (session : Nat) (chunk : Chunk)
  | hasChunk (session : Nat) (chunk : Chunk)
  | putChunk (session : Nat) (chunk : Chunk)
  | commit (session : Nat) (chunkId : ChunkID)
  | complete (contentId : ContentID)
  | reply (msg : PushMessage)
  | lastReply (msg : PushMessage)
  | closed
deriving DecidableEq

/-- How an access to the store ends. A write of a manifest that fails may
have left something in the file. -/
inductive Io where
  | done
  | failed (left : Option (List UInt8))
deriving DecidableEq

/-! ## Reading -/

/-- The authorization check of `handleStream`. -/
def Config.accept (cfg : Config) (remotePeer : Str) : Task :=
  if ¬ cfg.allowPush then
    .lastReply (buildPushError pushStatusUnauthorized (ascii "provider push disabled"))
  else if cfg.authPolicy = .allowlist ∧ remotePeer ∉ cfg.allowedPublishers then
    .lastReply (buildPushError pushStatusUnauthorized (ascii "publisher not in allowlist"))
  else .reading

/-- `handlePushManifest` up to the lock. -/
def Config.handlePushManifest (cfg : Config) (msg : PushMessage) : Task :=
  match parsePushManifest msg.payload with
  | none => .reply (buildPushError pushStatusMalformed (ascii "malformed manifest payload"))
  | some (contentId, assignedChunkIds, manifestData) =>
    match cfg.deserialize manifestData with
    | none => .reply (buildPushError pushStatusMalformed (ascii "invalid manifest JSON"))
    | some m =>
      if m.descriptor.id ≠ contentId then
        .reply (buildPushError pushStatusMalformed (ascii "contentID mismatch"))
      else .manifest
        { contentId, manifest := m, manifestBytes := manifestData,
          expectedChunks := assignedChunkIds.toFinset, committedChunks := ∅ }

/-- `handlePushChunk` up to the lookup of the session. -/
def handlePushChunk (msg : PushMessage) : Task :=
  match parsePushChunk msg.payload with
  | none => .reply (buildPushError pushStatusMalformed (ascii "malformed chunk payload"))
  | some (contentId, chunk) => .lookup contentId chunk

/-- `handlePushBatchComplete` up to the lock. -/
def handlePushBatchComplete (msg : PushMessage) : Task :=
  match parsePushBatchComplete msg.payload with
  | none => .reply (buildPushError pushStatusMalformed (ascii "malformed batch complete payload"))
  | some contentId => .complete contentId

/-- The loop of `handleStream` with what `ReadPushMessage` returns. -/
def Config.receive (cfg : Config) : Option PushMessage → Task
  | none => .closed
  | some msg =>
    if msg.version ≠ currentPushVersion then
      .lastReply (buildPushError pushStatusMalformed (ascii "unsupported version"))
    else if msg.type = msgPushManifest then cfg.handlePushManifest msg
    else if msg.type = msgPushChunk then handlePushChunk msg
    else if msg.type = msgPushBatchComplete then handlePushBatchComplete msg
    else .lastReply (buildPushError pushStatusMalformed (ascii "unknown message type"))

/-! ## Handling -/

/-- The three checks of `handlePushChunk`. -/
def Config.validate (cfg : Config) (session : PendingSession) (ref : Nat) (chunk : Chunk) : Task :=
  let chunkId := chunk.header.id
  if chunkId ∉ session.expectedChunks then
    .reply (buildPushChunkAck chunkId pushStatusNotInAssignedSet)
  else if chunkId ∉ session.manifest.chunkIds then
    .reply (buildPushChunkAck chunkId pushStatusMalformed)
  else if cfg.sha256 chunk.data ≠ chunkId then
    .reply (buildPushChunkAck chunkId pushStatusHashMismatch)
  else .hasChunk ref chunk

/-- All assigned chunks were committed, as `handlePushBatchComplete` finds
it out. -/
def PendingSession.Complete (session : PendingSession) : Prop :=
  session.expectedChunks ⊆ session.committedChunks ∧
    session.expectedChunks.card ≤ session.committedChunks.card

instance PendingSession.decidableComplete (session : PendingSession) :
    Decidable session.Complete :=
  inferInstanceAs (Decidable (_ ∧ _))

namespace Handler

def putManifestFailed (store : Storage) (contentId : ContentID) :
    Option (List UInt8) → Storage
  | none => store
  | some left => store.putManifestBytes contentId left

/-- `handlePushBatchComplete` under the lock. -/
def completeBatch (h : Handler) (contentId : ContentID) (io : Io) : Handler × Task :=
  match (h.sessions contentId).bind fun ref => h.heap[ref]? with
  | none => (h, .reply (buildPushBatchCompleteAck contentId pushStatusIncomplete))
  | some session =>
    if ¬ session.Complete then
      (h, .reply (buildPushBatchCompleteAck contentId pushStatusIncomplete))
    else match io with
      | .failed left =>
        ({ h with store := putManifestFailed h.store contentId left },
          .reply (buildPushBatchCompleteAck contentId pushStatusIOError))
      | .done =>
        ({ h with
            store := h.store.putManifestBytes contentId session.manifestBytes
            sessions := update h.sessions contentId none },
          .reply (buildPushBatchCompleteAck contentId pushStatusOK))

/-- What a goroutine does up to the next point at which another can come
in between. It has nothing to do at the end of a stream or while it waits
for a message. -/
def next (cfg : Config) (h : Handler) : Task → Io → Option (Handler × Task)
  | .manifest session, _ => some
      ({ h with
          heap := h.heap ++ [session]
          sessions := update h.sessions session.contentId (some h.heap.length) },
        .reply (buildPushManifestAck session.contentId pushStatusOK))
  | .lookup contentId chunk, _ =>
    match h.sessions contentId with
    | none => some (h, .reply (buildPushChunkAck chunk.header.id pushStatusNotInAssignedSet))
    | some ref => some (h, .validate ref chunk)
  | .validate ref chunk, _ => h.heap[ref]?.map fun session => (h, cfg.validate session ref chunk)
  | .hasChunk ref chunk, io =>
    if io = .done ∧ h.store.hasChunk chunk.header.id then some (h, .commit ref chunk.header.id)
    else some (h, .putChunk ref chunk)
  | .putChunk ref chunk, .done =>
    some ({ h with store := h.store.putChunk chunk }, .commit ref chunk.header.id)
  | .putChunk _ chunk, .failed _ =>
    some (h, .reply (buildPushChunkAck chunk.header.id pushStatusIOError))
  | .commit ref chunkId, _ => some
      ({ h with heap := h.heap.modify ref fun session =>
          { session with committedChunks := insert chunkId session.committedChunks } },
        .reply (buildPushChunkAck chunkId pushStatusOK))
  | .complete contentId, io => some (h.completeBatch contentId io)
  | .reply _, _ => some (h, .reading)
  | .lastReply _, _ => some (h, .closed)
  | .opening, _ | .reading, _ | .closed, _ => none

end Handler

/-! ## The system -/

/-- The handler with the goroutines of all streams. -/
structure System where
  handler : Handler
  tasks : Nat → Task

/-- Before the first stream, with the store as it is then. -/
def System.init (store : Storage) : System := ⟨⟨store, [], fun _ => none⟩, fun _ => .opening⟩

/-- A stream is opened by a peer, its goroutine reads a message or goes
on, or another part of the provider writes a file. -/
inductive Action where
  | accept (stream : Nat) (remotePeer : Str)
  | read (stream : Nat) (msg : Option PushMessage)
  | run (stream : Nat) (io : Io)
  | write (path : Path) (data : List UInt8)

def System.step (cfg : Config) : Action → System → Option System
  | .accept stream remotePeer, s =>
    if s.tasks stream = .opening then
      some { s with tasks := update s.tasks stream (cfg.accept remotePeer) }
    else none
  | .read stream msg, s =>
    if s.tasks stream = .reading then
      some { s with tasks := update s.tasks stream (cfg.receive msg) }
    else none
  | .run stream io, s =>
    (s.handler.next cfg (s.tasks stream) io).map fun r =>
      { handler := r.1, tasks := update s.tasks stream r.2 }
  | .write path data, s => some { s with
      handler := { s.handler with
        store := { files := update s.handler.store.files path (some data) } } }

end Cipher.Push
