import Cipher.PushSessions

/-!
# Whose batch is acknowledged

The map of sessions has one session for a content, whichever stream it is
from. A `PUSH_BATCH_COMPLETE` is answered for the session that is in the map
then, and the acknowledgement says nothing of whose that is. It is the
stream's own if no other stream has sent a manifest for the content since
(`batch_speaks_for_stream`), and need not be otherwise.

`Observed` adds ghosts to the system of the push handler: the last manifest
each stream has sent, whether it was acknowledged, and the stream whose
manifest for a content was handled last. A manifest is handled under the
lock, and a batch is too; a batch is answered in the step that holds it.
-/

namespace Cipher.Push

open Bytes Binary Go Content Transition Function List Option

variable {cfg : Config}

/-- `last`, `acked` and `latest` are ghosts. -/
structure Observed where
  system : System
  last : Nat → Option PushMessage
  acked : Nat → Bool
  latest : ContentID → Option Nat

def Observed.init (store : Storage) : Observed :=
  ⟨System.init store, fun _ => none, fun _ => false, fun _ => none⟩

/-- A manifest that the loop of `handleStream` passes on. -/
def PushMessage.IsManifest (msg : PushMessage) : Prop :=
  msg.version = currentPushVersion ∧ msg.type = msgPushManifest

instance PushMessage.decidableIsManifest (msg : PushMessage) : Decidable msg.IsManifest :=
  inferInstanceAs (Decidable (_ ∧ _))

/-- The manifest was acknowledged OK. -/
def PushMessage.IsManifestOk (msg : PushMessage) : Prop :=
  msg.type = msgPushManifestAck ∧ (parseIdAck msg.payload).map Prod.snd = some pushStatusOK

instance PushMessage.decidableIsManifestOk (msg : PushMessage) : Decidable msg.IsManifestOk :=
  inferInstanceAs (Decidable (_ ∧ _))

/-- What a step of the system adds to the ghosts. -/
def Observed.note (o : Observed) : Action → Observed
  | .read stream (some msg) =>
    if msg.IsManifest then
      { o with
        last := update o.last stream (some msg)
        acked := update o.acked stream false }
    else o
  | .run stream _ =>
    match o.system.tasks stream with
    | .manifest session =>
      { o with latest := update o.latest session.contentId (some stream) }
    | .reply msg =>
      if msg.IsManifestOk then { o with acked := update o.acked stream true } else o
    | _ => o
  | _ => o

def Observed.step (cfg : Config) (a : Action) (o : Observed) : Option Observed :=
  (o.system.step cfg a).map fun system => { o.note a with system := system }

/-! ## A stream and its session -/

/-- The session is the one the manifest sets up. -/
def PendingSession.From (session : PendingSession) (msg : PushMessage) : Prop :=
  ∃ assigned, parsePushManifest msg.payload =
    some (session.contentId, assigned, session.manifestBytes) ∧
      session.expectedChunks = assigned.toFinset

/-- As long as no other stream has sent a manifest for the content, the
session in the map is the stream's, if there is one. -/
def Observed.Holds (o : Observed) (stream : Nat) (msg : PushMessage) : Prop :=
  ∀ contentId assigned data ref session,
    parsePushManifest msg.payload = some (contentId, assigned, data) →
    o.latest contentId = some stream → o.system.handler.sessions contentId = some ref →
    o.system.handler.heap[ref]? = some session → session.From msg

/-- The stream's manifest has been handled. -/
def Observed.Handled (o : Observed) (stream : Nat) : Prop :=
  o.acked stream = true ∨ ∃ msg, o.system.tasks stream = .reply msg ∧ msg.IsManifestOk

/-- What is known of one stream. -/
structure Observed.StreamOk (o : Observed) (stream : Nat) : Prop where
  handled : ∀ msg, o.last stream = some msg → o.Handled stream → o.Holds stream msg
  pending : ∀ session, o.system.tasks stream = .manifest session →
    ∃ msg, o.last stream = some msg ∧ session.From msg

structure Observed.Ok (cfg : Config) (o : Observed) : Prop where
  system : o.system.Ok cfg
  streams : ∀ stream, o.StreamOk stream

lemma Observed.ok_init (cfg : Config) (store : Storage) : (Observed.init store).Ok cfg :=
  ⟨System.ok_init .., fun _ => ⟨fun _ h => (by cases h), fun _ h => (by cases h)⟩⟩

variable {o o' : Observed} {stream : Nat}

/-- The stream's session stays what it is while the sessions grow, and no
session that is new in the map counts for the stream. -/
lemma Observed.Holds.later (h : o.Holds stream msg)
    (hok : o.system.handler.Ok) (hgrows : o.system.handler.Grows o'.system.handler)
    (hlatest : ∀ contentId, o'.latest contentId = some stream →
      o.latest contentId = some stream ∧ ∀ ref, o'.system.handler.sessions contentId = some ref →
          o.system.handler.sessions contentId = some ref) : o'.Holds stream msg := by
  intro contentId assigned data ref session hparse hlast href hget
  obtain ⟨hlast', hsame⟩ := hlatest _ hlast
  obtain ⟨old, hold, -⟩ := hok.refs _ ref (hsame ref href)
  obtain ⟨committed, hget'⟩ := hgrows.heap ref old hold
  cases hget'.symm.trans hget
  exact h _ assigned data ref old hparse hlast' (hsame ref href) hold

/-- A stream that took no step. -/
lemma Observed.StreamOk.frame (h : o.StreamOk stream)
    (htask : o'.system.tasks stream = o.system.tasks stream)
    (hlast : o'.last stream = o.last stream) (hacked : o'.acked stream = o.acked stream)
    (hholds : ∀ msg, o.Holds stream msg → o'.Holds stream msg) : o'.StreamOk stream := by
  refine ⟨fun msg hmsg hhandled => ?_, fun session hsession => ?_⟩
  · rw [hlast] at hmsg
    rw [Observed.Handled, htask, hacked] at hhandled
    exact hholds msg (h.handled msg hmsg hhandled)
  · rw [htask] at hsession
    rw [hlast]
    exact h.pending session hsession

/-! ## Steps -/

lemma receive_manifest (h : cfg.receive msg = .manifest session) :
    ∃ m, msg = some m ∧ m.IsManifest ∧ session.From m := by
  cases Config.receives_of_receive h with
  | manifest hversion htype hparse => exact ⟨_, rfl, ⟨hversion, htype⟩, _, hparse, rfl⟩

lemma Answers.of_isManifestOk (h : Answers task msg)
    (hok : msg.IsManifestOk) : ∃ session, task = .manifest session := by
  cases h with
  | manifest session => exact ⟨session, rfl⟩
  | committed | refused =>
    have htype : msgPushChunkAck = msgPushManifestAck := hok.1
    exact absurd htype (by decide)
  | batch =>
    have htype : msgPushBatchCompleteAck = msgPushManifestAck := hok.1
    exact absurd htype (by decide)

/-- But for a manifest, a step takes no session into the map. -/
lemma next_sessions {h h' : Handler} (hnext : h.next cfg task io = some (h', task'))
    (htask : ∀ session, task ≠ .manifest session)
    (href : h'.sessions contentId = some ref) : h.sessions contentId = some ref := by
  cases Handler.steps_of_next hnext with
  | manifest => exact absurd rfl (htask _)
  | @complete id =>
    dsimp only at href
    by_cases hid : contentId = id
    · subst hid
      rw [update_self] at href
      cases href
    · rwa [update_of_ne hid] at href
  | _ => exact href

/-- What a stream that reads or goes on must bring along itself; all
others are as they were. -/
lemma Observed.Ok.of_stream (hok : o.Ok cfg) (hsystem : o'.system.Ok cfg)
    (hgrows : o.system.handler.Grows o'.system.handler) (htasks : ∀ other, other ≠ stream →
      o'.system.tasks other = o.system.tasks other ∧ o'.last other = o.last other ∧
        o'.acked other = o.acked other)
    (hlatest : ∀ other, other ≠ stream → ∀ contentId, o'.latest contentId = some other →
      o.latest contentId = some other ∧ ∀ ref, o'.system.handler.sessions contentId = some ref →
          o.system.handler.sessions contentId = some ref) (hstream : o'.StreamOk stream) :
    o'.Ok cfg := by
  refine ⟨hsystem, fun other => ?_⟩
  by_cases hother : other = stream
  · rwa [hother]
  · obtain ⟨htask, hlast, hacked⟩ := htasks other hother
    exact (hok.streams other).frame htask hlast hacked fun _ hholds =>
      hholds.later hok.system.handler hgrows (hlatest other hother)

lemma Observed.StreamOk.read {o : Observed} (hok : o.Ok cfg) (hstream : o.StreamOk stream) :
    Observed.StreamOk { o.note (.read stream msg) with
      system := { o.system with
        tasks := update o.system.tasks stream (cfg.receive msg) } } stream := by
  -- what is answered at once is answered by an error
  have hnot : ∀ m, cfg.receive msg = .reply m → ¬ m.IsManifestOk := by
    intro m hm hmOk
    exact absurd ((receive_reply hm).symm.trans hmOk.1) (by decide)
  by_cases hmanifest : ∃ m, msg = some m ∧ m.IsManifest
  · obtain ⟨m, rfl, hm⟩ := hmanifest
    refine ⟨fun msg' _ hhandled => ?_, fun session hsession => ?_⟩
    · rcases hhandled with hacked | ⟨m', htask, hm'⟩
      · simp [Observed.note, hm] at hacked
      · simp only [update_self] at htask
        exact absurd hm' (hnot m' htask)
    · simp only [update_self] at hsession
      obtain ⟨m', hm', -, hfrom⟩ := receive_manifest hsession
      cases hm'
      exact ⟨m, by simp [Observed.note, hm], hfrom⟩
  · have hnote : o.note (.read stream msg) = o := by
      cases msg with
      | none => rfl
      | some m => exact if_neg fun hm => hmanifest ⟨m, rfl, hm⟩
    rw [hnote]
    refine ⟨fun msg' hlast hhandled => ?_, fun session hsession => ?_⟩
    · rcases hhandled with hacked | ⟨m', htask, hm'⟩
      · exact (hstream.handled msg' hlast (.inl hacked)).later hok.system.handler (.refl _)
          fun _ hl => ⟨hl, fun _ href => href⟩
      · simp only [update_self] at htask
        exact absurd hm' (hnot m' htask)
    · simp only [update_self] at hsession
      obtain ⟨m, hm, hmOk, -⟩ := receive_manifest hsession
      exact absurd ⟨m, hm, hmOk⟩ hmanifest

/-- A manifest is handled: its session is the one in the map. -/
lemma Observed.StreamOk.manifest (hstream : o.StreamOk stream)
    (htask : o.system.tasks stream = .manifest session) (hlast : o'.last stream = o.last stream)
    (htask' : ∀ session, o'.system.tasks stream ≠ .manifest session)
    (hheap : o'.system.handler.heap = o.system.handler.heap ++ [session])
    (hsessions : o'.system.handler.sessions session.contentId =
      some o.system.handler.heap.length) : o'.StreamOk stream := by
  obtain ⟨msg, hmsg, hfrom⟩ := hstream.pending session htask
  refine ⟨fun msg' hmsg' _ => ?_, fun session' hsession' => absurd hsession' (htask' session')⟩
  rw [hlast, hmsg] at hmsg'
  cases hmsg'
  intro contentId assigned data ref session' hparse _ href hget
  have hid : session.contentId = contentId := by
    obtain ⟨assigned', hparse', -⟩ := hfrom
    rw [hparse] at hparse'
    exact (congrArg Prod.fst (Option.some.inj hparse')).symm
  subst hid
  cases hsessions.symm.trans href
  rw [hheap, getElem?_concat_length] at hget
  cases hget
  exact hfrom

/-- Any other step of a goroutine. The acknowledgement of a manifest is
sent on after the manifest was handled. -/
lemma Observed.StreamOk.goesOn (hok : o.Ok cfg)
    (hnext : o.system.handler.next cfg (o.system.tasks stream) io = some (h', task'))
    (htask : ∀ session, o.system.tasks stream ≠ .manifest session)
    (hsystem : o'.system = ⟨h', update o.system.tasks stream task'⟩)
    (hlast : o'.last = o.last) (hlatest : o'.latest = o.latest)
    (hacked : o'.acked stream = true → o.Handled stream) : o'.StreamOk stream := by
  have hgrows := (next_kept hok.system.handler (hok.system.tasks stream) hnext).grows
  have htask' : o'.system.tasks stream = task' := by
    rw [hsystem]
    exact update_self ..
  refine ⟨fun msg hmsg hhandled => ?_, fun session hsession => ?_⟩
  · have hbefore : o.Handled stream := by
      rcases hhandled with hack | ⟨m, hm, hmOk⟩
      · exact hacked hack
      · obtain rfl : task' = .reply m := htask'.symm.trans hm
        obtain ⟨session, hsession⟩ := (next_reply hnext).of_isManifestOk hmOk
        exact absurd hsession (htask session)
    rw [hlast] at hmsg
    refine ((hok.streams stream).handled msg hmsg hbefore).later hok.system.handler ?_ ?_
    · rwa [hsystem]
    · intro contentId hl
      rw [hlatest] at hl
      refine ⟨hl, fun ref href => next_sessions hnext htask ?_⟩
      rwa [hsystem] at href
  · obtain rfl : task' = .manifest session := htask'.symm.trans hsession
    cases next_entry hnext

lemma Observed.note_run (io : Io) (htask : ∀ session, o.system.tasks stream ≠ .manifest session) :
    (o.note (.run stream io)).last = o.last ∧ (o.note (.run stream io)).latest = o.latest ∧
      (∀ other, other ≠ stream → (o.note (.run stream io)).acked other = o.acked other) ∧
      ((o.note (.run stream io)).acked stream = true → o.Handled stream) := by
  rw [Observed.note]
  split
  · rename_i session hsession
    exact absurd hsession (htask session)
  · rename_i msg hmsg
    split
    · rename_i hmsgOk
      exact ⟨rfl, rfl, fun _ hother => update_of_ne hother .., fun _ =>
        .inr ⟨msg, hmsg, hmsgOk⟩⟩
    · exact ⟨rfl, rfl, fun _ _ => rfl, .inl⟩
  · exact ⟨rfl, rfl, fun _ _ => rfl, .inl⟩

lemma Observed.Ok.run {o : Observed} (hok : o.Ok cfg)
    (hnext : o.system.handler.next cfg (o.system.tasks stream) io = some (h', task'))
    (hsystem : (System.mk h' (update o.system.tasks stream task')).Ok cfg) :
    Observed.Ok cfg { o.note (.run stream io) with
      system := ⟨h', update o.system.tasks stream task'⟩ } := by
  have hgrows := (next_kept hok.system.handler (hok.system.tasks stream) hnext).grows
  by_cases hmanifest : ∃ session, o.system.tasks stream = .manifest session
  · obtain ⟨session, htask⟩ := hmanifest
    have hnote : o.note (.run stream io) =
        { o with latest := update o.latest session.contentId (some stream) } := by
      rw [Observed.note, htask]
    rw [hnote]
    have hpair := hnext
    rw [htask] at hpair
    cases hpair
    refine hok.of_stream hsystem hgrows (fun other hother => ⟨update_of_ne hother .., rfl, rfl⟩)
      (fun other hother contentId hl => ?_)
      ((hok.streams stream).manifest htask rfl (by simp) rfl (update_self ..))
    -- the content is not the one whose latest manifest is now this stream's
    dsimp only at hl ⊢
    by_cases hid : contentId = session.contentId
    · rw [hid, update_self] at hl
      exact absurd (Option.some.inj hl).symm hother
    · rw [update_of_ne hid] at hl ⊢
      exact ⟨hl, fun _ href => href⟩
  · have htask : ∀ session, o.system.tasks stream ≠ .manifest session :=
      fun session hsession => hmanifest ⟨session, hsession⟩
    obtain ⟨hlast, hlatest, hother, hself⟩ := Observed.note_run io htask
    refine hok.of_stream hsystem hgrows (fun other hne => ?_) (fun other _ contentId hl => ?_)
      (.goesOn hok hnext htask rfl hlast hlatest hself)
    · exact ⟨update_of_ne hne .., congrFun hlast other, hother other hne⟩
    · exact ⟨(congrFun hlatest contentId).symm.trans hl, fun _ => next_sessions hnext htask⟩

lemma Observed.Ok.step (hstep : Observed.step cfg a o = some o') (hok : o.Ok cfg) : o'.Ok cfg := by
  obtain ⟨system', hsys, rfl⟩ := map_eq_some_iff.mp hstep
  have hsystem := hok.system.step hsys
  have hgrows := hok.system.step_grows hsys
  cases System.steps_of_step hsys with
  | @accept stream remotePeer _ =>
    refine hok.of_stream hsystem (.refl _) (fun other hother => ⟨update_of_ne hother .., rfl, rfl⟩)
      (fun _ _ _ hl => ⟨hl, fun _ href => href⟩)
      ⟨fun msg hmsg hhandled => ?_, fun session hsession => ?_⟩
    · rcases hhandled with hacked | ⟨m, hm, -⟩
      · exact ((hok.streams stream).handled msg hmsg (.inl hacked)).later hok.system.handler
          (.refl _) fun _ hl => ⟨hl, fun _ href => href⟩
      · simp only [update_self] at hm
        revert hm
        fun_cases Config.accept cfg remotePeer <;> intro hm <;> cases hm
    · simp only [update_self] at hsession
      revert hsession
      fun_cases Config.accept cfg remotePeer <;> intro hsession <;> cases hsession
  | @read stream msg _ =>
    have hlatest : (o.note (.read stream msg)).latest = o.latest := by
      cases msg with
      | none => rfl
      | some m => rw [Observed.note]; split <;> rfl
    have hghosts : ∀ other, other ≠ stream → (o.note (.read stream msg)).last other = o.last other ∧
          (o.note (.read stream msg)).acked other = o.acked other := by
      intro other hother
      cases msg with
      | none => exact ⟨rfl, rfl⟩
      | some m =>
        rw [Observed.note]
        split
        · exact ⟨update_of_ne hother .., update_of_ne hother ..⟩
        · exact ⟨rfl, rfl⟩
    exact hok.of_stream hsystem (.refl _)
      (fun other hother => ⟨update_of_ne hother .., hghosts other hother⟩)
      (fun _ _ contentId hl => ⟨(congrFun hlatest contentId).symm.trans hl, fun _ href => href⟩)
      (.read hok (hok.streams stream))
  | run hnext => exact hok.run hnext hsystem
  | write path data =>
    refine ⟨hsystem, fun stream => (hok.streams stream).frame rfl rfl rfl fun _ hholds => ?_⟩
    exact hholds.later hok.system.handler hgrows fun _ hl => ⟨hl, fun _ href => href⟩

/-! ## The acknowledgement of a batch -/

/-- A manifest that fits a message has fewer chunks than its count can
say. -/
lemma length_lt_of_fits
    (h : (buildPushManifest contentId assigned data).Fits) : assigned.length < 2 ^ 32 := by
  have hlen : assigned.length ≤ (assigned.flatMap (Codec.block 32).encode).length := by
    rw [length_flatMap]
    have hsum : (assigned.map fun id => ((Codec.block 32).encode id).length) =
        assigned.map fun _ => 32 := map_congr_left fun id _ => id.property
    rw [hsum, map_const', sum_replicate_nat]
    omega
  simp only [PushMessage.Fits, buildPushManifest, buildPush, length_append, maxMessageSize] at h
  omega

/-- If the last manifest that a stream sent was acknowledged, and was the
latest that any stream sent for its content, then a batch of the content
that is answered OK on the stream has all the chunks of that manifest's list
in the store, and its bytes stored as the manifest. -/
theorem batch_speaks_for_stream {store : Storage} {o o' : Observed} {stream : Nat}
    {contentId : ContentID} {assigned : List ChunkID} {data : List UInt8} {io : Io}
    (hrun : Run (Observed.step cfg) (fun _ _ => True) (Observed.init store) o)
    (hfits : (buildPushManifest contentId assigned data).Fits)
    (hlast : o.last stream = some (buildPushManifest contentId assigned data))
    (hacked : o.acked stream = true)
    (htask : o.system.tasks stream = .complete contentId)
    (hstep : Observed.step cfg (.run stream io) o = some o')
    (hanswer : o'.system.tasks stream = .reply (buildPushBatchCompleteAck contentId pushStatusOK))
    (hlatest : o.latest contentId = some stream) :
    (∀ c ∈ assigned, o'.system.handler.store.hasChunk c) ∧
      o'.system.handler.store.getManifestBytes contentId = some data := by
  have hok : o.Ok cfg :=
    hrun.inv (Observed.ok_init ..) fun _ _ _ _ hs hok => hok.step hs
  obtain ⟨system', hsys, rfl⟩ := map_eq_some_iff.mp hstep
  obtain ⟨session, hdone⟩ := step_batch_ok hsys (by simp [htask]) hanswer
  obtain ⟨ref, href, hget⟩ := hdone.pending
  have hparse := parsePushManifest_build (length_lt_of_fits hfits) contentId data
  obtain ⟨assigned', hparse', hexpected⟩ := (hok.streams stream).handled _ hlast (.inl hacked)
    _ assigned data ref session hparse hlatest href hget
  rw [hparse] at hparse'
  obtain ⟨-, rfl, rfl⟩ := Prod.mk.inj (Option.some.inj hparse') |>.imp_right Prod.mk.inj
  have hsession := hok.system.handler.sessions session (mem_of_getElem? hget)
  refine ⟨fun c hc => ?_, ?_⟩
  · have hcommitted := hdone.complete.1 (by rw [hexpected]; exact mem_toFinset.mpr hc)
    rw [hdone.store]
    exact Storage.hasChunk_update (hsession.stored c hcommitted) _ _
  · rw [hdone.store]
    exact Storage.getManifestBytes_putManifestBytes ..

/-- The manifest of a second stream for the same content came before. -/
theorem batch_speaks_for_stream_sample : ∃ o o', execute (Observed.step sampleConfig)
        (manifestSent 1 [] [8] ++ manifestSent 0 [sampleId] [7] ++ chunkSent 0 ++ batchSent 0)
        (Observed.init emptyStore) = some o ∧
      Observed.step sampleConfig (.run 0 .done) o = some o' ∧
      (∀ c ∈ [sampleId], o'.system.handler.store.hasChunk c) ∧
      o'.system.handler.store.getManifestBytes sampleId = some [7] := by
  have hexec : execute (Observed.step sampleConfig)
      (manifestSent 1 [] [8] ++ manifestSent 0 [sampleId] [7] ++ chunkSent 0 ++ batchSent 0)
      (Observed.init emptyStore) = some _ := rfl
  have hfits : (buildPushManifest sampleId [sampleId] [7]).Fits := by
    unfold PushMessage.Fits
    decide
  exact ⟨_, _, hexec, rfl, batch_speaks_for_stream
    (.of_execute _ hexec) hfits rfl rfl rfl rfl rfl rfl⟩

/-- A second stream sends a manifest for the same content, with no chunks
assigned, before the first has pushed any. The batch of the first is then
answered OK. -/
theorem batch_of_other_stream : ∃ o o', execute (Observed.step sampleConfig)
        (manifestSent 0 [sampleId] [7] ++ manifestSent 1 [] [8] ++ batchSent 0)
        (Observed.init emptyStore) = some o ∧
      o.last 0 = some (buildPushManifest sampleId [sampleId] [7]) ∧ o.acked 0 = true ∧
      o.system.tasks 0 = .complete sampleId ∧
      Observed.step sampleConfig (.run 0 .done) o = some o' ∧
      o'.system.tasks 0 = .reply (buildPushBatchCompleteAck sampleId pushStatusOK) ∧
      o'.system.handler.store.hasChunk sampleId = false ∧
      o'.system.handler.store.getManifestBytes sampleId = some [8] :=
  ⟨_, _, rfl, rfl, rfl, rfl, rfl, rfl, rfl, rfl⟩

end Cipher.Push
