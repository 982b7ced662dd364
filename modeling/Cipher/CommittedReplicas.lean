import Cipher.Distribution
import Cipher.PushSessions

/-!
# Committed means stored

`Distribute` with the providers it uploads to. Every provider runs the push
handler, for the publisher's streams and for any others; messages wait in
queues, and a call of the client may give up on its answer at any time, in
which case the answer is read by a later call. A message is read whole or
not at all.

An acknowledgement of a chunk says which chunk it is for, and is only ever
written once that chunk is stored. So it does not matter which call reads
it: `SendChunk` succeeds only on an acknowledgement of its own chunk
(`Upload.Safe`). What this rests on is that it is called at all: with no
attempt to make, `uploadToProvider` takes a chunk for committed that it has
not sent.
-/

namespace Cipher.Distribution

open Bytes Binary Go Content Push Transition Function List Option

/-! ## The system -/

/-- A goroutine goes on, or waits for the answer to its request. -/
inductive Point where
  | ready (upload : Upload)
  | waiting (next : Option PushMessage → Upload)

/-- It has a stream once it is connected. -/
structure Goroutine where
  peer : PeerID
  stream : Option Nat
  point : Point

/-- `returned` is what `Distribute` has returned, `true` for `nil`. -/
structure World where
  tracker : GlobalReplicaTracker
  pool : List Goroutine
  round : Nat
  returned : Option Bool
  providers : PeerID → System
  toProvider : PeerID → Nat → List PushMessage
  toClient : PeerID → Nat → List PushMessage

def update₂ {α : Type} (f : PeerID → Nat → α) (p : PeerID) (stream : Nat) (a : α) :
    PeerID → Nat → α :=
  update f p (update (f p) stream a)

/-- The goroutines of a round. -/
def Job.spawn (job : Job) (batches : Batches) : List Goroutine :=
  (job.active.filter fun p => decide ((batches p).length ≠ 0)).map fun p =>
    ⟨p, none, .ready (uploadToProvider job.plan.contentId (batches p) job.manifestBytes
      job.cfg.maxRetriesPerChunk)⟩

def World.init (job : Job) (stores : PeerID → Storage) : World where
  tracker := initTracker job.plan (.new job.plan.replication)
  pool := job.spawn job.plan.providerChunks
  round := 0
  returned := none
  providers p := System.init (stores p)
  toProvider _ _ := []
  toClient _ _ := []

/-- A goroutine of the publisher takes a step, which succeeds on the stream
given or fails; a provider takes one; another client sends a message; or
`Distribute` goes on after a round. -/
inductive WorldAction where
  | advance (i : Nat) (outcome : Option Nat)
  | provider (p : PeerID) (a : Action)
  | other (p : PeerID) (stream : Nat) (msg : PushMessage)
  | coordinate

namespace World

def setPoint (w : World) (i : Nat) (g : Goroutine) (point : Point) : World :=
  { w with pool := w.pool.set i { g with point := point } }

/-- Nobody uses the stream yet. -/
def Fresh (w : World) (p : PeerID) (stream : Nat) : Prop :=
  (w.providers p).tasks stream = .opening ∧ w.toProvider p stream = [] ∧
    w.toClient p stream = [] ∧ ∀ g ∈ w.pool, g.peer = p → g.stream ≠ some stream

instance decidableFresh (w : World) (p : PeerID) (stream : Nat) : Decidable (w.Fresh p stream) :=
  inferInstanceAs (Decidable (_ ∧ _))

def advance (engine : Storage) (w : World) (i : Nat) (g : Goroutine) :
    Point → Option Nat → Option World
  | .ready .done, _ => none
  | .ready (.connect next), none => some (w.setPoint i g (.ready (next false)))
  | .ready (.connect next), some stream =>
    if w.Fresh g.peer stream then
      some (w.setPoint i { g with stream := some stream } (.ready (next true)))
    else none
  | .ready (.exchange _ next), none => some (w.setPoint i g (.ready (next none)))
  | .ready (.exchange req next), some _ =>
    g.stream.map fun stream => { w.setPoint i g (.waiting next) with
      toProvider := update₂ w.toProvider g.peer stream (w.toProvider g.peer stream ++ [req]) }
  | .ready (.getChunk id next), _ =>
    some (w.setPoint i g (.ready (next (engine.getChunk id).toOption)))
  | .ready (.setStatus c status next), _ =>
    some { w.setPoint i g (.ready next) with tracker := w.tracker.setStatus c g.peer status }
  | .waiting next, none => some (w.setPoint i g (.ready (next none)))
  | .waiting next, some _ =>
    match g.stream with
    | none => none
    | some stream =>
      match w.toClient g.peer stream with
      | [] => none
      | msg :: rest => some { w.setPoint i g (.ready (next (some msg))) with
          toClient := update₂ w.toClient g.peer stream rest }

/-- What the goroutine of a stream writes when it goes on. -/
def written : Task → List PushMessage
  | .reply msg | .lastReply msg => [msg]
  | _ => []

def provide (cfg : Push.Config) (w : World) (p : PeerID) (a : Action) : Option World :=
  match System.step cfg a (w.providers p) with
  | none => none
  | some system =>
    let w' := { w with providers := update w.providers p system }
    match a with
    | .read stream (some msg) =>
      match w.toProvider p stream with
      | [] => none
      | first :: rest =>
        if first = msg then some { w' with toProvider := update₂ w.toProvider p stream rest }
        else none
    | .run stream _ => some { w' with
        toClient := update₂ w.toClient p stream
          (w.toClient p stream ++ written ((w.providers p).tasks stream)) }
    | _ => some w'

def Goroutine.isDone (g : Goroutine) : Bool :=
  match g.point with
  | .ready .done => true
  | _ => false

/-- `Distribute` once all goroutines of a round are done. -/
def coordinate (job : Job) (w : World) : World :=
  let chunks := job.plan.manifest.chunkIds
  if w.tracker.isComplete chunks then { w with returned := some true }
  else if w.round < job.cfg.failoverRounds then
    let (batches, tracker) := reassign job.plan job.active w.tracker
    if job.active.all fun p => decide ((batches p).length = 0) then
      { w with tracker := tracker, returned := some (tracker.isComplete chunks) }
    else { w with tracker := tracker, pool := job.spawn batches, round := w.round + 1 }
  else { w with returned := some false }

def step (cfgs : PeerID → Push.Config) (job : Job) : WorldAction → World → Option World
  | .advance i outcome, w =>
    match w.pool[i]? with
    | none => none
    | some g => w.advance job.engine i g g.point outcome
  | .provider p a, w => w.provide (cfgs p) p a
  | .other p stream msg, w =>
    if ∃ g ∈ w.pool, g.peer = p ∧ g.stream = some stream then none
    else some { w with
      toProvider := update₂ w.toProvider p stream (w.toProvider p stream ++ [msg]) }
  | .coordinate, w =>
    if w.returned = none ∧ w.pool.all Goroutine.isDone then some (w.coordinate job) else none

end World

/-! ## Uploads that commit nothing unsaid -/

/-- The message makes a `SendChunk` of the chunk succeed. -/
def Says (msg : PushMessage) (c : ChunkID) : Prop := checkAck msgPushChunkAck c msg = .ok ()

/-- Every chunk that is committed is known to be stored, or was
acknowledged before. -/
def Upload.Safe (engine : Storage) : Upload → (ChunkID → Prop) → Prop
  | .done, _ => True
  | .connect next, stored => ∀ b, (next b).Safe engine stored
  | .exchange _ next, stored =>
    ∀ resp, (next resp).Safe engine fun c => stored c ∨ ∃ msg, resp = some msg ∧ Says msg c
  | .getChunk id next, stored => (next (engine.getChunk id).toOption).Safe engine stored
  | .setStatus c status next, stored =>
    (status = .committed → stored c) ∧ next.Safe engine stored

lemma Upload.Safe.mono {u : Upload} : ∀ {stored stored' : ChunkID → Prop}, u.Safe engine stored →
      (∀ c, stored c → stored' c) → u.Safe engine stored' := by
  induction u with
  | done => exact fun _ _ => trivial
  | connect next ih => exact fun h hmono b => ih b (h b) hmono
  | exchange req next ih =>
    exact fun h hmono resp => ih resp (h resp) fun c => Or.imp_left (hmono c)
  | getChunk id next ih => exact fun h hmono => ih _ h hmono
  | setStatus c status next ih =>
    exact fun h hmono => ⟨fun hs => hmono c (h.1 hs), ih h.2 hmono⟩

variable {engine : Storage} {stored : ChunkID → Prop}

lemma safe_failAll (chunks : List ChunkID) : (failAll chunks).Safe engine stored := by
  induction chunks with
  | nil => trivial
  | cons c rest ih => exact ⟨nofun, ih⟩

/-- The loop of attempts ends with an acknowledgement of the chunk or with
a failure, unless there was nothing to attempt. -/
lemma safe_attempts {chunk : Chunk} {next : Bool → Upload}
    (hfailed : ∀ stored, (next true).Safe engine stored)
    (hdone : ∀ stored : ChunkID → Prop, stored chunk.header.id → (next false).Safe engine stored) :
    ∀ {n : Nat} {failed : Bool} {stored : ChunkID → Prop}, 0 < n ∨ failed = true →
      (attempts contentId chunk next n failed).Safe engine stored := by
  intro n
  induction n with
  | zero =>
    rintro failed stored (hpos | rfl)
    · exact absurd hpos (Nat.lt_irrefl 0)
    · exact hfailed stored
  | succ n ih =>
    intro failed stored _ resp
    dsimp only
    split
    · rename_i hok
      cases resp with
      | none => cases hok
      | some msg =>
        have hsaid : sendChunk chunk msg = .ok () := of_decide_eq_true hok
        exact hdone _ (.inr ⟨msg, rfl, hsaid⟩)
    · exact ih (.inr rfl)

/-- Chunks lie under their own identifiers, as `PutChunk` files them. -/
def Filed (engine : Storage) : Prop :=
  ∀ c chunk, engine.getChunk c = .ok chunk → chunk.header.id = c

lemma filed_empty : Filed ⟨fun _ => none⟩ := nofun

lemma Filed.putChunk (h : Filed engine) (chunk : Chunk) : Filed (engine.putChunk chunk) := by
  intro c chunk' hget
  by_cases hc : c = chunk.header.id
  · rw [hc, Storage.getChunk_putChunk] at hget
    rw [← Except.ok.inj hget, hc]
  · rw [Storage.getChunk_putChunk_of_ne engine hc] at hget
    exact h c chunk' hget

lemma Filed.putManifestBytes (h : Filed engine) (contentId : ContentID) (data : List UInt8) :
    Filed (engine.putManifestBytes contentId data) := by
  intro c chunk hget
  rw [Storage.getChunk_putManifestBytes] at hget
  exact h c chunk hget

section

variable (hretries : 0 < maxRetries) (hfiled : Filed engine) (chunks : List ChunkID)

include hretries hfiled

lemma safe_uploadChunks : ∀ {n : Nat} {stored : ChunkID → Prop},
      (uploadChunks contentId maxRetries total chunks n).Safe engine stored := by
  induction chunks with
  | nil =>
    intro n stored
    rw [uploadChunks]
    split
    · exact fun _ => trivial
    · trivial
  | cons c rest ih =>
    intro n stored
    rw [uploadChunks, Upload.Safe]
    cases hget : engine.getChunk c with
    | error e => exact ⟨nofun, ih⟩
    | ok chunk =>
      have hid := hfiled c chunk hget
      refine ⟨nofun, safe_attempts (fun _ => ?_) (fun _ hstored => ?_) (.inl hretries)⟩
      · exact ⟨nofun, ih⟩
      · exact ⟨fun _ => hid ▸ hstored, ih⟩

lemma safe_uploadToProvider :
    (uploadToProvider contentId chunks manifestBytes maxRetries).Safe engine stored := by
  intro connected
  dsimp only
  split
  · exact safe_failAll chunks
  · intro resp
    dsimp only
    split
    · exact safe_uploadChunks hretries hfiled chunks
    · exact safe_failAll chunks

end

/-! ## Acknowledgements -/

variable {msg : PushMessage} {c : ChunkID} {task : Task}

lemma says_iff :
    Says msg c ↔ msg.type = msgPushChunkAck ∧ parseIdAck msg.payload = some (c, pushStatusOK) := by
  rw [Says, checkAck_eq_ok, and_iff_right_iff_imp]
  rintro ⟨htype, -⟩
  rw [htype]
  decide

/-- A chunk is acknowledged only by the goroutine that commits it. -/
lemma Says.of_answers (hsaid : Says msg c) (h : Answers task msg) :
    ∃ ref, task = .commit ref c := by
  obtain ⟨htype, hparse⟩ := says_iff.mp hsaid
  cases h with
  | manifest => exact absurd (show msgPushManifestAck = msgPushChunkAck from htype) (by decide)
  | batch => exact absurd (show msgPushBatchCompleteAck = msgPushChunkAck from htype) (by decide)
  | committed ref chunkId =>
    rw [buildPushChunkAck, parseIdAck_build] at hparse
    exact ⟨ref, by rw [(Prod.mk.inj (Option.some.inj hparse)).1]⟩
  | refused task chunkId status hstatus =>
    rw [buildPushChunkAck, parseIdAck_build] at hparse
    exact absurd (Prod.mk.inj (Option.some.inj hparse)).2 hstatus

lemma not_says_error (h : msg.type = msgPushError) (c : ChunkID) : ¬ Says msg c := by
  intro hsaid
  exact absurd (h.symm.trans (says_iff.mp hsaid).1) (by decide)

/-- What the goroutine of a stream is about to write is true of the
store. -/
def Truthful (store : Storage) (task : Task) : Prop :=
  ∀ msg ∈ World.written task, ∀ c, Says msg c → store.hasChunk c

lemma truthful_of_errors (h : ∀ msg ∈ World.written task, msg.type = msgPushError) :
    Truthful store task :=
  fun msg hmsg c hsaid => absurd hsaid (not_says_error (h msg hmsg) c)

lemma accept_errors (cfg : Push.Config) (remotePeer : Str) :
    ∀ msg ∈ World.written (cfg.accept remotePeer), msg.type = msgPushError := by
  fun_cases Config.accept cfg remotePeer with
  | case1 | case2 => exact fun msg hmsg => by rw [mem_singleton.mp hmsg]; rfl
  | case3 =>
    intro msg hmsg
    cases hmsg

lemma receive_errors {cfg : Push.Config} (h : cfg.receive received = task) :
    ∀ msg ∈ World.written task, msg.type = msgPushError := by
  intro msg hmsg
  cases Config.receives_of_receive h with
  | error | lastError =>
    rw [mem_singleton.mp hmsg]
    rfl
  | closed | manifest | chunk | batch => cases hmsg

lemma next_truthful {h h' : Handler} (hok : h.Ok)
    (htask : task.Ok cfg h) (hnext : h.next cfg task io = some (h', task')) :
    Truthful h'.store task' := by
  have hgrows := (next_kept hok htask hnext).grows
  cases task' with
  | reply m =>
    intro msg hmsg c hsaid
    obtain rfl := mem_singleton.mp hmsg
    obtain ⟨ref, rfl⟩ := hsaid.of_answers (next_reply hnext)
    exact hgrows.store c htask.2
  | lastReply m => cases next_entry hnext
  | _ => exact nofun

lemma Truthful.mono {store store' : Storage} (h : Truthful store task)
    (hstore : ∀ id, store.hasChunk id → store'.hasChunk id) : Truthful store' task :=
  fun msg hmsg c hsaid => hstore c (h msg hmsg c hsaid)

/-- After a step of the handler all its goroutines still have the truth to
tell. -/
lemma step_truthful (hstep : System.step cfg a s = some s')
    (hok : s.Ok cfg) (h : ∀ stream, Truthful s.handler.store (s.tasks stream)) (stream : Nat) :
    Truthful s'.handler.store (s'.tasks stream) := by
  have hstore := (hok.step_grows hstep).store
  -- the stream that took the step, and the others
  have hupdate : ∀ {other : Nat} {task : Task}, Truthful s'.handler.store task →
      Truthful s'.handler.store (update s.tasks other task stream) := by
    intro other task htask
    by_cases hother : stream = other
    · subst hother
      rwa [update_self]
    · rw [update_of_ne hother]
      exact (h stream).mono hstore
  cases System.steps_of_step hstep with
  | accept remotePeer => exact hupdate (truthful_of_errors (accept_errors cfg _))
  | read msg => exact hupdate (truthful_of_errors (receive_errors rfl))
  | run hnext => exact hupdate (next_truthful hok.handler (hok.tasks _) hnext)
  | write path data => exact (h stream).mono hstore

/-! ## The invariant -/

/-- What is stored at a provider. -/
def World.Stored (w : World) (p : PeerID) (c : ChunkID) : Prop :=
  (w.providers p).handler.store.hasChunk c

def Point.Safe (engine : Storage) (stored : ChunkID → Prop) : Point → Prop
  | .ready u => u.Safe engine stored
  | .waiting next =>
    ∀ resp, (next resp).Safe engine fun c => stored c ∨ ∃ msg, resp = some msg ∧ Says msg c

lemma Point.Safe.mono {point : Point}
    (h : point.Safe engine stored) (hmono : ∀ c, stored c → stored' c) :
    point.Safe engine stored' := by
  cases point with
  | ready u => exact Upload.Safe.mono h hmono
  | waiting next => exact fun resp => (h resp).mono fun c => Or.imp_left (hmono c)

structure World.Ok (cfgs : PeerID → Push.Config) (engine : Storage) (w : World) : Prop where
  providers : ∀ p, (w.providers p).Ok (cfgs p)
  tasks : ∀ p stream, Truthful (w.providers p).handler.store ((w.providers p).tasks stream)
  answers : ∀ p stream, ∀ msg ∈ w.toClient p stream, ∀ c, Says msg c → w.Stored p c
  pool : ∀ g ∈ w.pool, g.point.Safe engine (w.Stored g.peer)
  tracker : ∀ c p, w.tracker.state c p = .committed → w.Stored p c

variable {cfgs : PeerID → Push.Config} {job : Job} {w : World} {p : PeerID}
  {I : GlobalReplicaTracker → Prop}

lemma mem_update₂ {f : PeerID → Nat → List PushMessage} (h : msg ∈ update₂ f p i l q j) :
    (q = p ∧ msg ∈ l) ∨ msg ∈ f q j := by
  by_cases hq : q = p
  · subst hq
    rw [update₂, update_self] at h
    by_cases hj : j = i
    · subst hj
      rw [update_self] at h
      exact .inl ⟨rfl, h⟩
    · rw [update_of_ne hj] at h
      exact .inr h
  · rw [update₂, update_of_ne hq] at h
    exact .inr h

/-- A goroutine has moved on to a point that is safe. -/
lemma World.Ok.setPoint (hok : w.Ok cfgs engine) {g : Goroutine} {point : Point}
    (hpoint : point.Safe engine (w.Stored g.peer)) : (w.setPoint i g point).Ok cfgs engine := by
  refine ⟨hok.providers, hok.tasks, hok.answers, fun g' hg' => ?_, hok.tracker⟩
  rcases mem_or_eq_of_mem_set hg' with hmem | rfl
  · exact hok.pool g' hmem
  · exact hpoint

/-- A call reads an answer, be it to its own request or to an earlier
one. -/
lemma World.Ok.receive (hok : w.Ok cfgs engine) {i stream : Nat} {g : Goroutine}
    {next : Option PushMessage → Upload}
    (hsafe : (Point.waiting next).Safe engine (w.Stored g.peer))
    (hqueue : w.toClient g.peer stream = msg :: rest) :
    World.Ok cfgs engine { w.setPoint i g (.ready (next (some msg))) with
      toClient := update₂ w.toClient g.peer stream rest } := by
  have hpoint : (next (some msg)).Safe engine (w.Stored g.peer) := by
    refine (hsafe _).mono fun c hc => ?_
    rcases hc with hc | ⟨msg', hmsg', hsaid⟩
    · exact hc
    · cases hmsg'
      exact hok.answers g.peer stream msg (hqueue ▸ mem_cons_self) c hsaid
  have hset : (w.setPoint i g (.ready (next (some msg)))).Ok cfgs engine := hok.setPoint hpoint
  refine ⟨hset.providers, hset.tasks, fun p j m hm => ?_, hset.pool, hset.tracker⟩
  rcases mem_update₂ hm with ⟨rfl, hrest⟩ | hold
  · exact hok.answers g.peer stream m (hqueue ▸ mem_cons_of_mem msg hrest)
  · exact hok.answers p j m hold

/-- A call that gives up has learned nothing. -/
lemma Point.Safe.give_up {next : Option PushMessage → Upload}
    (h : (Point.waiting next).Safe engine stored) : (next none).Safe engine stored := by
  refine (h none).mono fun c hc => ?_
  rcases hc with hc | ⟨msg, hmsg, -⟩
  · exact hc
  · cases hmsg

section

variable (hok : w.Ok cfgs engine)

include hok

lemma World.Ok.setStatus (h : status = .committed → w.Stored p c) :
    World.Ok cfgs engine { w with tracker := w.tracker.setStatus c p status } := by
  refine ⟨hok.providers, hok.tasks, hok.answers, hok.pool, fun c' q hstate => ?_⟩
  rw [GlobalReplicaTracker.setStatus_state] at hstate
  split at hstate
  · rename_i hkey
    obtain ⟨rfl, rfl⟩ := hkey
    exact h hstate
  · exact hok.tracker c' q hstate

lemma World.Ok.advance {g : Goroutine} (hsafe : g.point.Safe engine (w.Stored g.peer))
    (hstep : w.advance engine i g g.point outcome = some w') : w'.Ok cfgs engine := by
  obtain ⟨peer, stream, point⟩ := g
  cases point with
  | waiting next =>
    cases outcome with
    | none =>
      cases hstep
      exact hok.setPoint hsafe.give_up
    | some _ =>
      rw [World.advance] at hstep
      split at hstep
      · cases hstep
      · split at hstep
        · cases hstep
        · rename_i hqueue
          cases hstep
          exact hok.receive hsafe hqueue
  | ready upload =>
    cases upload with
    | done => cases hstep
    | connect next =>
      cases outcome with
      | none =>
        cases hstep
        exact hok.setPoint (hsafe false)
      | some _ =>
        obtain ⟨-, hs⟩ := ite_none_right_eq_some.mp hstep
        cases hs
        exact hok.setPoint (hsafe true)
    | exchange req next =>
      have hwaiting : (Point.waiting next).Safe engine (w.Stored peer) := hsafe
      cases outcome with
      | none =>
        cases hstep
        exact hok.setPoint hwaiting.give_up
      | some _ =>
        obtain ⟨_, -, rfl⟩ := map_eq_some_iff.mp hstep
        have hset : (w.setPoint i ⟨peer, stream, .ready (.exchange req next)⟩
            (.waiting next)).Ok cfgs engine := hok.setPoint hsafe
        exact ⟨hset.providers, hset.tasks, hset.answers, hset.pool, hset.tracker⟩
    | getChunk id next =>
      cases hstep
      exact hok.setPoint hsafe
    | setStatus c status next =>
      cases hstep
      have hset : (w.setPoint i ⟨peer, stream, .ready (.setStatus c status next)⟩
          (.ready next)).Ok cfgs engine := hok.setPoint hsafe.2
      exact hset.setStatus hsafe.1

/-- A provider has taken a step: what it stored is still there. -/
lemma World.Ok.provider (hstep : System.step (cfgs p) a (w.providers p) = some system) :
    World.Ok cfgs engine { w with providers := update w.providers p system } := by
  have hstored : ∀ q c, w.Stored q c →
      (update w.providers p system q).handler.store.hasChunk c := by
    intro q c hc
    by_cases hq : q = p
    · subst hq
      rw [update_self]
      exact ((hok.providers q).step_grows hstep).store c hc
    · rwa [update_of_ne hq]
  refine ⟨fun q => ?_, fun q stream => ?_, fun q stream msg hmsg c hsaid =>
    hstored q c (hok.answers q stream msg hmsg c hsaid),
    fun g hg => (hok.pool g hg).mono (hstored g.peer),
    fun c q hstate => hstored q c (hok.tracker c q hstate)⟩
  · dsimp only
    by_cases hq : q = p
    · subst hq
      rw [update_self]
      exact (hok.providers q).step hstep
    · rw [update_of_ne hq]
      exact hok.providers q
  · dsimp only
    by_cases hq : q = p
    · subst hq
      rw [update_self]
      exact step_truthful hstep (hok.providers q) (hok.tasks q) stream
    · rw [update_of_ne hq]
      exact hok.tasks q stream

lemma World.Ok.provide (hstep : w.provide (cfgs p) p a = some w') : w'.Ok cfgs engine := by
  rw [World.provide] at hstep
  split at hstep
  · cases hstep
  rename_i system hsystem
  have hnew := hok.provider hsystem
  split at hstep
  · split at hstep
    · cases hstep
    · obtain ⟨-, hs⟩ := ite_none_right_eq_some.mp hstep
      cases hs
      exact ⟨hnew.providers, hnew.tasks, hnew.answers, hnew.pool, hnew.tracker⟩
  · rename_i stream io
    cases hstep
    refine ⟨hnew.providers, hnew.tasks, fun q j msg hmsg c hsaid => ?_, hnew.pool, hnew.tracker⟩
    rcases mem_update₂ hmsg with ⟨rfl, happend⟩ | hold
    · rcases mem_append.mp happend with hold | hwritten
      · exact hnew.answers q stream msg hold c hsaid
      · -- what is written now was true of the store before
        have hbefore := hok.tasks q stream msg hwritten c hsaid
        have hgrown := ((hok.providers q).step_grows hsystem).store c hbefore
        simpa only [World.Stored, update_self] using hgrown
    · exact hnew.answers q j msg hold c hsaid
  · cases hstep
    exact hnew

end

lemma Job.safe_spawn (job : Job) (hretries : 0 < job.cfg.maxRetriesPerChunk)
    (hfiled : Filed job.engine) (batches : Batches) (stored : PeerID → ChunkID → Prop) :
    ∀ g ∈ job.spawn batches, g.point.Safe job.engine (stored g.peer) := by
  intro g hg
  obtain ⟨p, -, rfl⟩ := mem_map.mp hg
  exact safe_uploadToProvider hretries hfiled _

/-! ### Statuses that `Distribute` itself sets -/

lemma findProviders_inv (hset : ∀ t c p, I t → I (t.setStatus c p .pending)) (c : ChunkID)
    (ps : List PeerID) :
    ∀ (needed : Nat) (acc : Batches × GlobalReplicaTracker),
      I acc.2 → I (findProviders c ps needed acc).2 := by
  induction ps with
  | nil => exact fun _ _ h => h
  | cons q ps ih =>
    intro needed acc h
    cases needed with
    | zero => exact h
    | succ needed =>
      rw [findProviders]
      split
      · exact ih _ _ (hset _ _ _ h)
      · exact ih _ _ h

variable {plan : PlacementPlan} {tracker : GlobalReplicaTracker}

lemma reassign_inv (hset : ∀ t c p, I t → I (t.setStatus c p .pending))
    (h : I tracker) : I (reassign plan active tracker).2 :=
  List.foldlRecOn (motive := fun acc => I acc.2) _ _ h
    fun acc hacc c _ => findProviders_inv hset c active _ acc hacc

lemma initTracker_inv (hset : ∀ t c p, I t → I (t.setStatus c p .pending)) (h : I tracker) :
    I (initTracker plan tracker) :=
  List.foldlRecOn (motive := I) _ _ h fun _ ht c _ =>
    List.foldlRecOn (motive := I) _ _ ht fun t ht p _ => hset t c p ht

/-- A chunk that is set to pending is not committed. -/
lemma committed_of_setStatus {t : GlobalReplicaTracker}
    (h : (t.setStatus c' q .pending).state c p = .committed) : t.state c p = .committed := by
  rw [GlobalReplicaTracker.setStatus_state] at h
  split at h
  · cases h
  · exact h

lemma state_reassign (h : (reassign plan active tracker).2.state c p = .committed) :
    tracker.state c p = .committed :=
  reassign_inv (I := fun t => t.state c p = .committed → tracker.state c p = .committed)
    (fun _ _ _ ht hset => ht (committed_of_setStatus hset)) id h

lemma state_initTracker (h : (initTracker plan tracker).state c p = .committed) :
    tracker.state c p = .committed :=
  initTracker_inv (I := fun t => t.state c p = .committed → tracker.state c p = .committed)
    (fun _ _ _ ht hset => ht (committed_of_setStatus hset)) id h

lemma World.Ok.coordinate (hretries : 0 < job.cfg.maxRetriesPerChunk)
    (hfiled : Filed job.engine) (hok : w.Ok cfgs job.engine) :
    (w.coordinate job).Ok cfgs job.engine := by
  have htracker : ∀ c p, (reassign job.plan job.active w.tracker).2.state c p = .committed →
      w.Stored p c := fun c p h => hok.tracker c p (state_reassign h)
  rw [World.coordinate]
  dsimp only
  split
  · exact ⟨hok.providers, hok.tasks, hok.answers, hok.pool, hok.tracker⟩
  · split
    · split
      · exact ⟨hok.providers, hok.tasks, hok.answers, hok.pool, htracker⟩
      · exact ⟨hok.providers, hok.tasks, hok.answers,
          job.safe_spawn hretries hfiled _ w.Stored, htracker⟩
    · exact ⟨hok.providers, hok.tasks, hok.answers, hok.pool, hok.tracker⟩

lemma World.ok_init (hretries : 0 < job.cfg.maxRetriesPerChunk) (hfiled : Filed job.engine)
    (stores : PeerID → Storage) : (World.init job stores).Ok cfgs job.engine := by
  refine ⟨fun p => System.ok_init (cfgs p) (stores p), fun _ _ => nofun, fun _ _ => nofun,
    job.safe_spawn hretries hfiled _ (World.init job stores).Stored, fun c p h => ?_⟩
  cases state_initTracker h

lemma World.Ok.step {a : WorldAction} (hretries : 0 < job.cfg.maxRetriesPerChunk)
    (hfiled : Filed job.engine) (hstep : World.step cfgs job a w = some w')
    (hok : w.Ok cfgs job.engine) : w'.Ok cfgs job.engine := by
  cases a with
  | advance i outcome =>
    rw [World.step] at hstep
    split at hstep
    · cases hstep
    · rename_i g hg
      exact hok.advance (hok.pool g (mem_of_getElem? hg)) hstep
  | provider p a => exact hok.provide hstep
  | other p stream msg =>
    obtain ⟨-, hs⟩ := ite_none_left_eq_some.mp hstep
    cases hs
    exact ⟨hok.providers, hok.tasks, hok.answers, hok.pool, hok.tracker⟩
  | coordinate =>
    obtain ⟨-, hs⟩ := ite_none_right_eq_some.mp hstep
    cases hs
    exact hok.coordinate hretries hfiled

/-- Whatever is delayed, given up on or read late: a chunk that the tracker
holds for committed is stored at the provider, if there is at least one
attempt per chunk. -/
theorem committed_is_stored {stores : PeerID → Storage} {c : ChunkID} {p : PeerID}
    (hretries : 0 < job.cfg.maxRetriesPerChunk) (hfiled : Filed job.engine)
    (hrun : Run (World.step cfgs job) (fun _ _ => True) (World.init job stores) w)
    (h : w.tracker.state c p = .committed) : (w.providers p).handler.store.hasChunk c := by
  have hok : w.Ok cfgs job.engine := hrun.inv (World.ok_init hretries hfiled stores)
    fun _ _ _ _ hstep hok => hok.step hretries hfiled hstep
  exact hok.tracker c p h

/-! ## A publisher with one provider -/

def samplePlan : PlacementPlan :=
  PlacementPlan.place ⟨sampleId, sampleManifest, fun _ => [], fun _ => [], 1⟩ sampleId [[]]

/-- The sample chunk with its manifest, for one provider. -/
def sampleJob (maxRetries : Nat) : Job where
  engine := (emptyStore.putChunk sampleChunk).putManifestBytes sampleId [7]
  plan := samplePlan
  order := [[]]
  cfg := ⟨maxRetries, 2⟩
  manifestBytes := [7]

/-- The provider is connected to, and takes the manifest. -/
def manifestTaken : List WorldAction :=
  [.advance 0 (some 0), .provider [] (.accept 0 []), .advance 0 (some 0),
    .provider [] (.read 0 (some (buildPushManifest sampleId [sampleId] [7]))),
    .provider [] (.run 0 .done), .provider [] (.run 0 .done), .advance 0 (some 0)]

/-- The chunk is sent; the first attempt gives up, and the second reads the
acknowledgement of the first. -/
def chunkTaken : List WorldAction :=
  [.advance 0 none, .advance 0 none, .advance 0 (some 0), .advance 0 none,
    .provider [] (.read 0 (some (buildPushChunk sampleId sampleChunk))),
    .provider [] (.run 0 .done), .provider [] (.run 0 .done), .provider [] (.run 0 .done),
    .provider [] (.run 0 .done), .provider [] (.run 0 .done), .provider [] (.run 0 .done),
    .advance 0 (some 0), .advance 0 (some 0), .advance 0 none]

theorem committed_is_stored_late :
    ∃ w, execute (World.step (fun _ => sampleConfig) (sampleJob 3)) (manifestTaken ++ chunkTaken)
        (World.init (sampleJob 3) fun _ => emptyStore) = some w ∧
      w.tracker.state sampleId [] = .committed ∧
      (w.providers []).handler.store.hasChunk sampleId := by
  have hexec : execute (World.step (fun _ => sampleConfig) (sampleJob 3))
      (manifestTaken ++ chunkTaken) (World.init (sampleJob 3) fun _ => emptyStore) = some _ := rfl
  have hfiled : Filed (sampleJob 3).engine := (filed_empty.putChunk _).putManifestBytes _ _
  exact ⟨_, hexec, rfl, committed_is_stored (by decide) hfiled
    (.of_execute _ hexec) rfl⟩

/-- With no attempt to make, the chunk is taken for committed as soon as the
manifest is. -/
theorem committed_not_stored : planPlacement sampleManifest [[]] 1 = .ok (sampleJob 0).plan ∧
    ∃ w, Run (World.step (fun _ => sampleConfig) (sampleJob 0)) (fun _ _ => True)
        (World.init (sampleJob 0) fun _ => emptyStore) w ∧
      w.tracker.state sampleId [] = .committed ∧
      (w.providers []).handler.store.hasChunk sampleId = false := by
  exact ⟨rfl, _, .of_execute
    (manifestTaken ++ [.advance 0 none, .advance 0 none, .advance 0 none]) rfl, rfl, rfl⟩

end Cipher.Distribution
