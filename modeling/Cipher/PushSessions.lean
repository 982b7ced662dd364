import Cipher.PushHandler

/-!
# What a push leaves in the store

Sessions are shared by all streams, and replaced while other streams still
point to the old one. Nothing of a session changes but the set of its
committed chunks, which grows, and no chunk leaves the store
(`Handler.Grows`). So what a goroutine has found out about its session, its
chunk and the store still holds when it goes on, whatever came in between,
and every chunk that is committed has passed the checks and is stored.
-/

namespace Cipher.Push

open Bytes Binary Go Content Transition Function List Option Finset

variable {cfg : Config}

/-! ## One step of a goroutine -/

/-- What a goroutine can go on with once it has read. -/
inductive Config.Receives (cfg : Config) : Option PushMessage → Task → Prop where
  | closed : Receives cfg none .closed
  | error : Receives cfg (some msg) (.reply (buildPushError code text))
  | lastError : Receives cfg (some msg) (.lastReply (buildPushError code text))
  | manifest (hversion : msg.version = currentPushVersion) (htype : msg.type = msgPushManifest)
      (hparse : parsePushManifest msg.payload = some (contentId, assigned, data))
      (hid : m.descriptor.id = contentId) :
      Receives cfg (some msg) (.manifest ⟨contentId, m, data, assigned.toFinset, ∅⟩)
  | chunk (htype : msg.type = msgPushChunk)
      (hparse : parsePushChunk msg.payload = some (contentId, chunk)) :
      Receives cfg (some msg) (.lookup contentId chunk)
  | batch : Receives cfg (some msg) (.complete contentId)

lemma Config.receives_of_receive (h : cfg.receive msg = task) : cfg.Receives msg task := by
  subst h
  fun_cases Config.receive cfg msg with
  | case1 => exact .closed
  | case2 | case6 => exact .lastError
  | case3 msg hversion htype =>
    fun_cases Config.handlePushManifest cfg msg with
    | case1 | case2 | case3 => exact .error
    | case4 _ _ _ hparse _ _ hid =>
      exact .manifest (not_not.mp hversion) htype hparse (not_not.mp hid)
  | case4 msg _ _ htype =>
    fun_cases handlePushChunk msg with
    | case1 => exact .error
    | case2 _ _ hparse => exact .chunk htype hparse
  | case5 msg =>
    fun_cases handlePushBatchComplete msg with
    | case1 => exact .error
    | case2 => exact .batch

/-- What a step of a goroutine can be. -/
inductive Handler.Steps (cfg : Config) (h : Handler) : Task → Io → Handler → Task → Prop where
  | manifest : Steps cfg h (.manifest session) io
      { h with
        heap := h.heap ++ [session]
        sessions := update h.sessions session.contentId (some h.heap.length) }
      (.reply (buildPushManifestAck session.contentId pushStatusOK))
  | refused (hstatus : status ≠ pushStatusOK) :
      Steps cfg h task io h (.reply (buildPushChunkAck chunkId status))
  | lookup : Steps cfg h (.lookup contentId chunk) io h (.validate ref chunk)
  | validate (hget : h.heap[ref]? = some session)
      (hexpected : chunk.header.id ∈ session.expectedChunks)
      (hlisted : chunk.header.id ∈ session.manifest.chunkIds)
      (hhash : cfg.sha256 chunk.data = chunk.header.id) :
      Steps cfg h (.validate ref chunk) io h (.hasChunk ref chunk)
  | hasChunk (hstored : h.store.hasChunk chunk.header.id) :
      Steps cfg h (.hasChunk ref chunk) io h (.commit ref chunk.header.id)
  | missing : Steps cfg h (.hasChunk ref chunk) io h (.putChunk ref chunk)
  | putChunk : Steps cfg h (.putChunk ref chunk) io
      { h with store := h.store.putChunk chunk } (.commit ref chunk.header.id)
  | commit : Steps cfg h (.commit ref chunkId) io
      { h with heap := h.heap.modify ref fun session =>
          { session with committedChunks := insert chunkId session.committedChunks } }
      (.reply (buildPushChunkAck chunkId pushStatusOK))
  | incomplete : Steps cfg h (.complete contentId) io h
      (.reply (buildPushBatchCompleteAck contentId pushStatusIncomplete))
  | unwritten : Steps cfg h (.complete contentId) (.failed left)
      { h with store := Handler.putManifestFailed h.store contentId left }
      (.reply (buildPushBatchCompleteAck contentId pushStatusIOError))
  | complete (href : h.sessions contentId = some ref) (hget : h.heap[ref]? = some session)
      (hcomplete : session.Complete) : Steps cfg h (.complete contentId) io
      { h with
        store := h.store.putManifestBytes contentId session.manifestBytes
        sessions := update h.sessions contentId none }
      (.reply (buildPushBatchCompleteAck contentId pushStatusOK))
  | reply : Steps cfg h (.reply msg) io h .reading
  | lastReply : Steps cfg h (.lastReply msg) io h .closed

variable {h h' : Handler} {task : Task} {io : Io}

lemma Handler.steps_of_next (hnext : h.next cfg task io = some (h', task')) :
    h.Steps cfg task io h' task' := by
  cases task with
  | opening | reading | closed => cases hnext
  | manifest =>
    cases hnext
    exact .manifest
  | lookup =>
    rw [Handler.next] at hnext
    split at hnext
    · cases hnext
      exact .refused (by decide)
    · cases hnext
      exact .lookup
  | validate ref chunk =>
    obtain ⟨session, hget, hpair⟩ := map_eq_some_iff.mp hnext
    cases hpair
    fun_cases Config.validate cfg session ref chunk with
    | case1 | case2 | case3 => exact .refused (by decide)
    | case4 _ hexpected hlisted hhash =>
      exact .validate hget (not_not.mp hexpected) (not_not.mp hlisted) (not_not.mp hhash)
  | hasChunk =>
    rw [Handler.next] at hnext
    split at hnext
    · rename_i hhas
      cases hnext
      exact .hasChunk hhas.2
    · cases hnext
      exact .missing
  | putChunk =>
    cases io with
    | done =>
      cases hnext
      exact .putChunk
    | failed left =>
      cases hnext
      exact .refused (by decide)
  | commit =>
    cases hnext
    exact .commit
  | complete contentId =>
    obtain ⟨rfl, rfl⟩ := Prod.ext_iff.mp (Option.some.inj hnext)
    fun_cases Handler.completeBatch h contentId io with
    | case1 | case2 => exact .incomplete
    | case3 => exact .unwritten
    | case4 session hsome hcomplete =>
      obtain ⟨ref, href, hget⟩ := bind_eq_some_iff.mp hsome
      exact .complete href hget (not_not.mp hcomplete)
  | reply =>
    cases hnext
    exact .reply
  | lastReply =>
    cases hnext
    exact .lastReply

/-! ## Growth -/

/-- What can happen to the shared state while a goroutine waits. -/
structure Handler.Grows (h h' : Handler) : Prop where
  heap : ∀ (ref : Nat) (session : PendingSession), h.heap[ref]? = some session → ∃ committed,
    h'.heap[ref]? = some { session with committedChunks := committed }
  store : ∀ id, h.store.hasChunk id → h'.store.hasChunk id

lemma Handler.Grows.of_heap_eq (heap : h'.heap = h.heap)
    (store : ∀ id, h.store.hasChunk id → h'.store.hasChunk id) : h.Grows h' :=
  ⟨fun _ session hget => ⟨session.committedChunks, by rw [heap, hget]⟩, store⟩

lemma Handler.Grows.refl (h : Handler) : h.Grows h := .of_heap_eq rfl fun _ => id

/-- The chunk is one of those the session was set up for. -/
def Handler.Lists (h : Handler) (ref : Nat) (chunkId : ChunkID) : Prop :=
  ∃ session, h.heap[ref]? = some session ∧ chunkId ∈ session.expectedChunks ∧
    chunkId ∈ session.manifest.chunkIds

variable {ref : Nat}

lemma Handler.Lists.grows (hlists : h.Lists ref chunkId)
    (hgrows : h.Grows h') : h'.Lists ref chunkId := by
  obtain ⟨session, hget, hexpected, hlisted⟩ := hlists
  obtain ⟨committed, hget'⟩ := hgrows.heap ref session hget
  exact ⟨_, hget', hexpected, hlisted⟩

/-! ## The invariant -/

structure PendingSession.Ok (store : Storage) (session : PendingSession) : Prop where
  assigned : session.committedChunks ⊆ session.expectedChunks
  listed : ∀ c ∈ session.committedChunks, c ∈ session.manifest.chunkIds
  stored : ∀ c ∈ session.committedChunks, store.hasChunk c
  described : session.manifest.descriptor.id = session.contentId

/-- What a goroutine has found out so far. -/
def Task.Ok (cfg : Config) (h : Handler) : Task → Prop
  | .manifest session =>
    session.committedChunks = ∅ ∧ session.manifest.descriptor.id = session.contentId
  | .hasChunk ref chunk | .putChunk ref chunk =>
    h.Lists ref chunk.header.id ∧ cfg.sha256 chunk.data = chunk.header.id
  | .commit ref chunkId => h.Lists ref chunkId ∧ h.store.hasChunk chunkId
  | _ => True

structure Handler.Ok (h : Handler) : Prop where
  sessions : ∀ session ∈ h.heap, session.Ok h.store
  refs : ∀ contentId ref, h.sessions contentId = some ref →
    ∃ session, h.heap[ref]? = some session ∧ session.contentId = contentId

structure System.Ok (cfg : Config) (s : System) : Prop where
  handler : s.handler.Ok
  tasks : ∀ stream, (s.tasks stream).Ok cfg s.handler

variable {store : Storage} {session : PendingSession} {s : System}

lemma PendingSession.Ok.store_mono {store' : Storage} (h : session.Ok store)
    (hstore : ∀ id, store.hasChunk id → store'.hasChunk id) : session.Ok store' :=
  { h with stored := fun c hc => hstore c (h.stored c hc) }

lemma Task.Ok.grows (hok : task.Ok cfg h) (hgrows : h.Grows h') : task.Ok cfg h' := by
  cases task with
  | hasChunk ref chunk | putChunk ref chunk => exact ⟨hok.1.grows hgrows, hok.2⟩
  | commit ref chunkId => exact ⟨hok.1.grows hgrows, hgrows.store _ hok.2⟩
  | _ => exact hok

lemma Handler.Ok.store_mono (hok : h.Ok)
    (hstore : ∀ id, h.store.hasChunk id → store.hasChunk id) : { h with store := store }.Ok :=
  ⟨fun session hmem => (hok.sessions session hmem).store_mono hstore, hok.refs⟩

/-! ## What a step keeps -/

/-- A goroutine's step keeps the shared state in order, lets it grow, and
leaves the goroutine with facts that hold. -/
structure Kept (cfg : Config) (h h' : Handler) (task : Task) : Prop where
  grows : h.Grows h'
  handler : h'.Ok
  task : task.Ok cfg h'

/-- The step only looked. -/
lemma Kept.same (hok : h.Ok) (htask : task.Ok cfg h) : Kept cfg h h task := ⟨.refl h, hok, htask⟩

lemma accept_ok (cfg : Config) (h : Handler) (remotePeer : Str) :
    (cfg.accept remotePeer).Ok cfg h := by
  rw [Config.accept]
  split
  · trivial
  · split <;> trivial

lemma receive_ok (hreceive : cfg.receive msg = task) (h : Handler) : task.Ok cfg h := by
  cases Config.receives_of_receive hreceive with
  | manifest _ _ _ hid => exact ⟨rfl, hid⟩
  | closed | error | lastError | chunk | batch => trivial

lemma kept_manifest (hok : h.Ok) (htask : (Task.manifest session).Ok cfg h) (msg : PushMessage) :
    Kept cfg h { h with
      heap := h.heap ++ [session]
      sessions := update h.sessions session.contentId (some h.heap.length) }
      (.reply msg) := by
  obtain ⟨hempty, hdescribed⟩ := htask
  have hold : ∀ {ref : Nat} {old : PendingSession}, h.heap[ref]? = some old →
      (h.heap ++ [session])[ref]? = some old := by
    intro ref old hget
    obtain ⟨hlt, -⟩ := List.getElem_of_getElem? hget
    rw [getElem?_append_left hlt, hget]
  refine ⟨⟨fun ref old hget => ⟨old.committedChunks, hold hget⟩, fun _ => id⟩, ⟨?_, ?_⟩, trivial⟩
  · intro s hmem
    rcases mem_append.mp hmem with hmem | hmem
    · exact hok.sessions s hmem
    · obtain rfl := List.mem_singleton.mp hmem
      exact ⟨by simp [hempty], by simp [hempty], by simp [hempty], hdescribed⟩
  · intro contentId ref href
    dsimp only at href ⊢
    by_cases hid : contentId = session.contentId
    · subst hid
      rw [update_self] at href
      cases href
      exact ⟨session, by simp, rfl⟩
    · rw [update_of_ne hid] at href
      obtain ⟨old, hget, hcontent⟩ := hok.refs _ ref href
      exact ⟨old, hold hget, hcontent⟩

lemma kept_putChunk (hok : h.Ok) (htask : (Task.putChunk ref chunk).Ok cfg h) :
    Kept cfg h { h with store := h.store.putChunk chunk } (.commit ref chunk.header.id) := by
  have hstore : ∀ id, h.store.hasChunk id → (h.store.putChunk chunk).hasChunk id :=
    fun _ hid => Storage.hasChunk_update hid _ _
  exact ⟨.of_heap_eq rfl hstore, hok.store_mono hstore, htask.1,
    h.store.hasChunk_putChunk_self chunk⟩

lemma kept_commit (hok : h.Ok) (htask : (Task.commit ref chunkId).Ok cfg h) (msg : PushMessage) :
    Kept cfg h { h with heap := h.heap.modify ref fun session =>
      { session with committedChunks := insert chunkId session.committedChunks } }
      (.reply msg) := by
  obtain ⟨⟨session, hget, hexpected, hlisted⟩, hstored⟩ := htask
  -- a session of the new heap is the old one, with the chunk or without
  have hold : ∀ {i : Nat} {old : PendingSession}, h.heap[i]? = some old → ∃ committed,
      (h.heap.modify ref fun session =>
        { session with committedChunks := insert chunkId session.committedChunks })[i]? =
          some { old with committedChunks := committed } := by
    intro i old hi
    by_cases href : ref = i
    · exact ⟨insert chunkId old.committedChunks, by simp [href, hi]⟩
    · exact ⟨old.committedChunks, by simp [href, hi]⟩
  refine ⟨⟨fun i old hi => hold hi, fun _ => id⟩, ⟨?_, ?_⟩, trivial⟩
  · intro s hmem
    obtain ⟨i, hi⟩ := mem_iff_getElem?.mp hmem
    rw [getElem?_modify] at hi
    obtain ⟨old, hget', hs⟩ := map_eq_some_iff.mp hi
    have hokOld := hok.sessions old (mem_of_getElem? hget')
    by_cases href : ref = i
    · subst href
      cases hget.symm.trans hget'
      rw [if_pos rfl] at hs
      subst hs
      exact ⟨insert_subset hexpected hokOld.assigned,
        forall_mem_insert .. |>.mpr ⟨hlisted, hokOld.listed⟩,
        forall_mem_insert .. |>.mpr ⟨hstored, hokOld.stored⟩, hokOld.described⟩
    · rw [if_neg href] at hs
      subst hs
      exact hokOld
  · intro contentId i href
    obtain ⟨old, hi, hcontent⟩ := hok.refs _ i href
    obtain ⟨committed, hi'⟩ := hold hi
    exact ⟨_, hi', hcontent⟩

lemma putManifestFailed_hasChunk {id : ChunkID} (h : store.hasChunk id) (contentId : ContentID)
    (left : Option (List UInt8)) :
    (Handler.putManifestFailed store contentId left).hasChunk id := by
  cases left with
  | none => exact h
  | some left => exact Storage.hasChunk_update h _ _

lemma next_kept (hok : h.Ok) (htask : task.Ok cfg h)
    (hnext : h.next cfg task io = some (h', task')) : Kept cfg h h' task' := by
  cases Handler.steps_of_next hnext with
  | manifest => exact kept_manifest hok htask _
  | refused | lookup | incomplete | reply | lastReply => exact .same hok trivial
  | validate hget hexpected hlisted hhash =>
    exact .same hok ⟨⟨_, hget, hexpected, hlisted⟩, hhash⟩
  | hasChunk hstored => exact .same hok ⟨htask.1, hstored⟩
  | missing => exact .same hok htask
  | putChunk => exact kept_putChunk hok htask
  | commit => exact kept_commit hok htask _
  | @unwritten contentId left =>
    have hstore := fun id (hid : h.store.hasChunk id) =>
      putManifestFailed_hasChunk hid contentId left
    exact ⟨.of_heap_eq rfl hstore, hok.store_mono hstore, trivial⟩
  | @complete contentId _ session =>
    have hstore : ∀ id, h.store.hasChunk id →
        (h.store.putManifestBytes contentId session.manifestBytes).hasChunk id :=
      fun _ hid => Storage.hasChunk_update hid _ _
    refine ⟨.of_heap_eq rfl hstore, ⟨(hok.store_mono hstore).sessions, ?_⟩, trivial⟩
    intro contentId' ref href
    dsimp only at href
    by_cases hid : contentId' = contentId
    · subst hid
      rw [update_self] at href
      cases href
    · rw [update_of_ne hid] at href
      exact hok.refs _ ref href

/-! ## Runs -/

lemma System.ok_init (cfg : Config) (store : Storage) : (System.init store).Ok cfg :=
  ⟨⟨by simp [System.init], by simp [System.init]⟩, fun _ => trivial⟩

/-- One stream goes on, and all others keep what they know. -/
lemma System.Ok.update (hok : s.Ok cfg) (hkept : Kept cfg s.handler h' task) (stream : Nat) :
    (System.mk h' (update s.tasks stream task)).Ok cfg := by
  refine ⟨hkept.handler, fun other => ?_⟩
  by_cases hother : other = stream
  · subst hother
    simpa only [update_self] using hkept.task
  · simpa only [update_of_ne hother] using (hok.tasks other).grows hkept.grows

/-- What a step can be. -/
inductive System.Steps (cfg : Config) (s : System) : Action → System → Prop where
  | accept (remotePeer : Str) (h : s.tasks stream = .opening) :
      Steps cfg s (.accept stream remotePeer)
        { s with tasks := update s.tasks stream (cfg.accept remotePeer) }
  | read (msg : Option PushMessage) (h : s.tasks stream = .reading) : Steps cfg s (.read stream msg)
        { s with tasks := update s.tasks stream (cfg.receive msg) }
  | run {io : Io} {h' : Handler} {task' : Task}
      (hnext : s.handler.next cfg (s.tasks stream) io = some (h', task')) :
      Steps cfg s (.run stream io) ⟨h', update s.tasks stream task'⟩
  | write (path : Path) (data : List UInt8) : Steps cfg s (.write path data) { s with
      handler := { s.handler with
        store := { files := update s.handler.store.files path (some data) } } }

variable {a : Action} {s' : System}

section

variable (hstep : System.step cfg a s = some s')

include hstep

lemma System.steps_of_step : System.Steps cfg s a s' := by
  cases a with
  | accept stream remotePeer =>
    obtain ⟨hopening, hs⟩ := ite_none_right_eq_some.mp hstep
    cases hs
    exact .accept _ hopening
  | read stream msg =>
    obtain ⟨hreading, hs⟩ := ite_none_right_eq_some.mp hstep
    cases hs
    exact .read msg hreading
  | run stream io =>
    obtain ⟨⟨h', task'⟩, hnext, rfl⟩ := map_eq_some_iff.mp hstep
    exact .run hnext
  | write path data =>
    cases hstep
    exact .write ..

lemma System.Ok.step_grows (hok : s.Ok cfg) : s.handler.Grows s'.handler := by
  cases System.steps_of_step hstep with
  | accept | read => exact .refl _
  | run hnext => exact (next_kept hok.handler (hok.tasks _) hnext).grows
  | write path data => exact .of_heap_eq rfl fun _ hid => Storage.hasChunk_update hid path data

lemma System.Ok.step (hok : s.Ok cfg) : s'.Ok cfg := by
  have hgrows := hok.step_grows hstep
  cases System.steps_of_step hstep with
  | accept remotePeer =>
    exact hok.update (.same hok.handler (accept_ok ..)) _
  | read msg => exact hok.update (.same hok.handler (receive_ok rfl _)) _
  | run hnext => exact hok.update (next_kept hok.handler (hok.tasks _) hnext) _
  | write path data =>
    exact ⟨hok.handler.store_mono hgrows.store, fun stream => (hok.tasks stream).grows hgrows⟩

end

/-! ## Answers to a batch -/

lemma buildIdAck_injective {type type' : UInt8} {id id' : Block 32}
    (h : buildIdAck type id status = buildIdAck type' id' status') :
    type = type' ∧ id = id' ∧ status = status' := by
  have hparse := congrArg (fun msg => parseIdAck msg.payload) h
  simp only [parseIdAck_build, Option.some.injEq, Prod.mk.injEq] at hparse
  exact ⟨congrArg PushMessage.type h, hparse⟩

/-- A batch that is answered OK: its session was complete, is gone from
the map, and its manifest is stored. -/
structure Completed (h h' : Handler) (contentId : ContentID) (session : PendingSession) :
    Prop where
  pending : ∃ ref, h.sessions contentId = some ref ∧ h.heap[ref]? = some session
  complete : session.Complete
  removed : h'.sessions contentId = none
  store : h'.store = h.store.putManifestBytes contentId session.manifestBytes

variable {contentId : ContentID}

/-- Which answer a goroutine can give, and where it stands then. -/
inductive Answers : Task → PushMessage → Prop where
  | manifest (session : PendingSession) :
      Answers (.manifest session) (buildPushManifestAck session.contentId pushStatusOK)
  | committed (ref : Nat) (chunkId : ChunkID) :
      Answers (.commit ref chunkId) (buildPushChunkAck chunkId pushStatusOK)
  | refused (task : Task) (chunkId : ChunkID) (status : UInt8) (h : status ≠ pushStatusOK) :
      Answers task (buildPushChunkAck chunkId status)
  | batch (contentId : ContentID) (status : UInt8) :
      Answers (.complete contentId) (buildPushBatchCompleteAck contentId status)

lemma next_reply (hnext : h.next cfg task io = some (h', .reply msg)) : Answers task msg := by
  cases Handler.steps_of_next hnext with
  | manifest => exact .manifest _
  | refused hstatus => exact .refused _ _ _ hstatus
  | commit => exact .committed ..
  | incomplete | unwritten | complete => exact .batch ..

/-- Only a new stream or a message leads here. -/
def Task.entry : Task → Bool
  | .opening | .manifest _ | .lookup _ _ | .complete _ | .lastReply _ => true
  | _ => false

lemma next_entry (hnext : h.next cfg task io = some (h', task')) : task'.entry = false := by
  cases Handler.steps_of_next hnext <;> rfl

lemma next_batch_ok (hnext : h.next cfg task io =
      some (h', .reply (buildPushBatchCompleteAck contentId pushStatusOK))) :
    ∃ session, Completed h h' contentId session := by
  generalize hmsg : buildPushBatchCompleteAck contentId pushStatusOK = msg at hnext
  cases Handler.steps_of_next hnext with
  | manifest | refused | commit => exact absurd (buildIdAck_injective hmsg).1 (by decide)
  | incomplete | unwritten => exact absurd (buildIdAck_injective hmsg).2.2 (by decide)
  | complete href hget hcomplete =>
    obtain ⟨-, rfl, -⟩ := buildIdAck_injective hmsg
    exact ⟨_, ⟨_, href, hget⟩, hcomplete, update_self .., rfl⟩

/-- A message that is answered at once is answered by an error. -/
lemma receive_reply (h : cfg.receive msg = .reply resp) : resp.type = msgPushError := by
  cases Config.receives_of_receive h with
  | error => rfl

/-- A stream that comes to be answered, and not by an error, is one that
has just gone on. -/
lemma step_reply {msg : PushMessage} (hstep : System.step cfg a s = some s')
    (hmsg : msg.type ≠ msgPushError) (hbefore : s.tasks stream ≠ .reply msg)
    (hafter : s'.tasks stream = .reply msg) :
    ∃ io, s.handler.next cfg (s.tasks stream) io = some (s'.handler, .reply msg) := by
  -- the stream that takes the step is the one that is answered
  have hself : ∀ {other : Nat} {task : Task}, update s.tasks other task stream = .reply msg →
        other = stream ∧ task = .reply msg := by
    intro other task heq
    by_cases hother : stream = other
    · subst hother
      exact ⟨rfl, by rwa [update_self] at heq⟩
    · rw [update_of_ne hother] at heq
      exact absurd heq hbefore
  cases System.steps_of_step hstep with
  | accept remotePeer =>
    obtain ⟨-, htask⟩ := hself hafter
    revert htask
    fun_cases Config.accept cfg remotePeer <;> exact nofun
  | read received => exact absurd (receive_reply (hself hafter).2) hmsg
  | @run other io h' task' hnext =>
    obtain ⟨rfl, rfl⟩ := hself hafter
    exact ⟨io, hnext⟩
  | write path data => exact absurd hafter hbefore

lemma step_batch_ok (hstep : System.step cfg a s = some s')
    (hbefore : s.tasks stream ≠ .reply (buildPushBatchCompleteAck contentId pushStatusOK))
    (hafter : s'.tasks stream = .reply (buildPushBatchCompleteAck contentId pushStatusOK)) :
    ∃ session, Completed s.handler s'.handler contentId session := by
  have hmsg : msgPushBatchCompleteAck ≠ msgPushError := by decide
  obtain ⟨io, hnext⟩ := step_reply hstep hmsg hbefore hafter
  exact next_batch_ok hnext

/-- In every run: a committed chunk was assigned, is in the manifest and in
the store; a chunk about to be written has the hash that is its identifier;
and a batch that comes to be answered OK has all its chunks and its manifest
in the store. -/
theorem push_ingestion {store : Storage} {s : System}
    (hrun : Run (System.step cfg) (fun _ _ => True) (System.init store) s) :
    (∀ session ∈ s.handler.heap, session.committedChunks ⊆ session.expectedChunks ∧
      ∀ c ∈ session.committedChunks, c ∈ session.manifest.chunkIds ∧ s.handler.store.hasChunk c) ∧
    (∀ stream ref chunk, s.tasks stream = .putChunk ref chunk →
      cfg.sha256 chunk.data = chunk.header.id) ∧
    (∀ a s' stream contentId, System.step cfg a s = some s' →
      s.tasks stream ≠ .reply (buildPushBatchCompleteAck contentId pushStatusOK) →
      s'.tasks stream = .reply (buildPushBatchCompleteAck contentId pushStatusOK) →
        ∃ session, Completed s.handler s'.handler contentId session ∧
          (∀ c ∈ session.expectedChunks, s'.handler.store.hasChunk c) ∧
          s'.handler.store.getManifestBytes contentId = some session.manifestBytes ∧
          session.manifest.descriptor.id = contentId) := by
  have hok : s.Ok cfg :=
    hrun.inv (System.ok_init ..) fun _ _ _ _ hstep hok => hok.step hstep
  refine ⟨fun session hmem => ?_, fun stream ref chunk htask => ?_,
    fun a s' stream contentId hstep hbefore hafter => ?_⟩
  · have hsession := hok.handler.sessions session hmem
    exact ⟨hsession.assigned, fun c hc => ⟨hsession.listed c hc, hsession.stored c hc⟩⟩
  · have htaskOk := hok.tasks stream
    rw [htask] at htaskOk
    exact htaskOk.2
  · obtain ⟨session, hdone⟩ := step_batch_ok hstep hbefore hafter
    obtain ⟨ref, href, hget⟩ := hdone.pending
    have hsession := hok.handler.sessions session (mem_of_getElem? hget)
    obtain ⟨named, hget', hnamed⟩ := hok.handler.refs _ ref href
    cases hget.symm.trans hget'
    refine ⟨session, hdone, fun c hc => ?_, ?_, hsession.described.trans hnamed⟩
    · rw [hdone.store]
      exact Storage.hasChunk_update (hsession.stored c (hdone.complete.1 hc)) _ _
    · rw [hdone.store]
      exact s.handler.store.getManifestBytes_putManifestBytes ..

/-! ## A push of one chunk -/

def sampleId : Block 32 := ⟨List.replicate 32 0, List.length_replicate⟩

def sampleChunk : Chunk :=
  ⟨⟨1, sampleId, 0, 0, 0, 0, ⟨List.replicate 12 0, List.length_replicate⟩⟩, []⟩

def sampleManifest : Manifest where
  version := 1
  descriptor := ⟨sampleId, [], 0⟩
  chunkIds := [sampleId]
  merkleRoot := sampleId
  wholeHash := sampleId
  crypto := ⟨[], 1, 12, []⟩

/-- A digest under which the sample chunk is whole, and manifests that all
read as the sample. -/
def sampleConfig : Config where
  sha256 := fun _ => sampleId
  deserialize := fun _ => some sampleManifest
  allowPush := true
  authPolicy := .open
  allowedPublishers := []

def emptyStore : Storage := ⟨fun _ => none⟩

/-- A stream that is opened and sends its manifest. -/
def manifestSent (stream : Nat) (assigned : List ChunkID) (data : List UInt8) : List Action :=
  [.accept stream [], .read stream (some (buildPushManifest sampleId assigned data)),
    .run stream .done, .run stream .done]

/-- The chunk is pushed, found whole, stored and committed. -/
def chunkSent (stream : Nat) : List Action :=
  [.read stream (some (buildPushChunk sampleId sampleChunk)), .run stream .done,
    .run stream .done, .run stream .done, .run stream .done, .run stream .done,
    .run stream .done]

def batchSent (stream : Nat) : List Action :=
  [.read stream (some (buildPushBatchComplete sampleId))]

theorem push_ingestion_sample : ∃ s s', execute (System.step sampleConfig)
        (manifestSent 0 [sampleId] [7] ++ chunkSent 0 ++ batchSent 0)
        (System.init emptyStore) = some s ∧
      System.step sampleConfig (.run 0 .done) s = some s' ∧
      s'.tasks 0 = .reply (buildPushBatchCompleteAck sampleId pushStatusOK) ∧
      ∃ session, Completed s.handler s'.handler sampleId session ∧
        (∀ c ∈ session.expectedChunks, s'.handler.store.hasChunk c) ∧
        s'.handler.store.getManifestBytes sampleId = some session.manifestBytes ∧
        session.manifest.descriptor.id = sampleId := by
  have hexec : execute (System.step sampleConfig)
      (manifestSent 0 [sampleId] [7] ++ chunkSent 0 ++ batchSent 0) (System.init emptyStore) =
        some _ := rfl
  exact ⟨_, _, hexec, rfl, rfl,
    (push_ingestion (.of_execute _ hexec)).2.2 (.run 0 .done) _ 0 sampleId rfl (by decide) rfl⟩

end Cipher.Push
