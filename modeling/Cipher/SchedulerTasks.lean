import Cipher.Scheduler
import Cipher.Tokens

/-!
# No task is lost

`State.located` has every task in its place: in the queue, with a worker, in
the channel, with `Run`, or reported. A step moves one task or none
(`steps_moved`), so that none is lost or doubled; and what is reported was
fetched whole and stored (`scheduler_conserves`).

The errors that name a task keep it: it is the last result that `Run` took.
-/

namespace Cipher.Scheduler

open Bytes Binary Go Content ChunkProtocol Transition Tokens Function Multiset

variable {τ : Type} {cfg : Config τ}

/-! ## Places -/

/-- Where a task is: in the queue, with a worker, in the channel, with
`Run`, reported, or named by the error that `Run` returned. -/
inductive Place where
  | queued
  | skipped (peer : PeerID)
  | fetching (peer : PeerID)
  | fetched (peer : PeerID) (chunk : Chunk)
  | sending (peer : PeerID) (error : Option TaskError)
  | sent (peer : PeerID) (error : Option TaskError)
  | received (peer : PeerID) (error : Option TaskError)
  | completed (peer : PeerID)
  | abandoned

abbrev Located := Place × ChunkTask

def Worker.held (w : Worker) : Multiset Located :=
  match w.stage with
  | .requeue task => {(.skipped w.peer, task)}
  | .fetching task => {(.fetching w.peer, task)}
  | .storing task chunk => {(.fetched w.peer chunk, task)}
  | .sending task error => {(.sending w.peer error, task)}
  | .next | .yielding | .leaving | .gone => 0

def Signal.held (place : PeerID → Option TaskError → Place) : Signal → Multiset Located
  | .result _ res => {(place res.peer res.error, res.task)}
  | .workerDone _ => 0

def Phase.held : Phase → Multiset Located
  | .handling signal => signal.held .received
  | .returned (some (.notFound task)) | .returned (some (.failed task _)) => {(.abandoned, task)}
  | .starting _ | .loop | .returned _ => 0

/-- What no worker holds. -/
def State.shared (s : State) : Multiset Located :=
  Multiset.map (fun task => (Place.queued, task)) s.queue +
    (s.results.map (Signal.held .sent)).sum + s.phase.held +
    Multiset.map (fun res : WorkerResult => (Place.completed res.peer, res.task)) s.completions

/-- Every task in its place. -/
def State.located (s : State) : Multiset Located := (s.workers.map Worker.held).sum + s.shared

/-- Where `State.located` has its tasks from. -/
inductive Sits (s : State) : Located → Prop where
  | held (hw : w ∈ s.workers) (hx : x ∈ w.held) : Sits s x
  | queued (h : task ∈ s.queue) : Sits s (.queued, task)
  | sent (h : .result i res ∈ s.results) : Sits s (.sent res.peer res.error, res.task)
  | received (h : s.phase = .handling (.result i res)) :
      Sits s (.received res.peer res.error, res.task)
  | abandoned (task : ChunkTask) : Sits s (.abandoned, task)
  | completed (h : res ∈ s.completions) : Sits s (.completed res.peer, res.task)

variable {s : State} {x : Located}

lemma sits_of_mem_held (h : x ∈ s.phase.held) : Sits s x := by
  cases hphase : s.phase with rw [hphase] at h
  | starting | loop => exact absurd h (notMem_zero x)
  | handling signal =>
    cases signal with
    | workerDone => exact absurd h (notMem_zero x)
    | result i res =>
      obtain rfl := mem_singleton.mp h
      exact .received hphase
  | returned e =>
    match e, h with
    | some (.notFound task), h | some (.failed task _), h =>
      obtain rfl := mem_singleton.mp h
      exact .abandoned task
    | none, h | some .noActiveWorkers, h | some .ctx, h | some (.allWorkersDied _), h =>
      exact absurd h (notMem_zero x)

lemma sits_of_mem (h : x ∈ s.located) : Sits s x := by
  simp only [State.located, State.shared, mem_add, mem_sum_map, mem_map, mem_coe] at h
  rcases h with ⟨w, hw, hx⟩ | ((⟨task, htask, rfl⟩ | ⟨signal, hsignal, hx⟩) | hx) | ⟨res, hres, rfl⟩
  · exact .held hw hx
  · exact .queued htask
  · cases signal with
    | workerDone => exact absurd hx (notMem_zero x)
    | result i res =>
      obtain rfl := mem_singleton.mp hx
      exact .sent hsignal
  · exact sits_of_mem_held hx
  · exact .completed hres

/-- How a task may move, and what the ghost has of it. -/
inductive Move (cfg : Config τ) : Located → Ghost → Located → Ghost → Prop where
  | skip {peer : PeerID} {g : Ghost} (hmissed : peer ∈ task.missedPeers) :
      Move cfg (.queued, task) g (.skipped peer, task) g
  | requeue (task : ChunkTask) (peer : PeerID) (g : Ghost) :
      Move cfg (.skipped peer, task) g (.queued, task) g
  | take {peer : PeerID} {g : Ghost} (hmissed : peer ∉ task.missedPeers)
      (hpeer : peer ∈ cfg.sources) : Move cfg (.queued, task) g (.fetching peer, task) g
  | fetchFailed (peer : PeerID) (g : Ghost) {exchange : Exchange} {e : TaskError}
      (hfetch : cfg.fetch task.chunkId exchange = .error e) :
      Move cfg (.fetching peer, task) g (.sending peer (some e), task) g.fetch
  | fetched (peer : PeerID) (g : Ghost) {exchange : Exchange} {chunk : Chunk}
      (hfetch : cfg.fetch task.chunkId exchange = .ok chunk) :
      Move cfg (.fetching peer, task) g (.fetched peer chunk, task) g.fetch
  | stored (task : ChunkTask) (peer : PeerID) (chunk : Chunk) (g : Ghost) :
      Move cfg (.fetched peer chunk, task) g (.sending peer none, task) (g.put chunk)
  | unstored (task : ChunkTask) (peer : PeerID) (chunk : Chunk) (g : Ghost) :
      Move cfg (.fetched peer chunk, task) g (.sending peer (some .unstored), task) g
  | send (task : ChunkTask) (peer : PeerID) (error : Option TaskError) (g : Ghost) :
      Move cfg (.sending peer error, task) g (.sent peer error, task) g
  | receive (task : ChunkTask) (peer : PeerID) (error : Option TaskError) (g : Ghost) :
      Move cfg (.sent peer error, task) g (.received peer error, task) g
  | complete (task : ChunkTask) (peer : PeerID) (g : Ghost) :
      Move cfg (.received peer none, task) g (.completed peer, task) g
  | missed {peer : PeerID} (g : Ghost)
      (hlt : (task.miss peer).missedPeers.card < cfg.sources.length) :
      Move cfg (.received peer (some .remoteNotFound), task) g (.queued, task.miss peer)
        (g.miss task.position peer)
  | notFound {peer : PeerID} (g : Ghost)
      (hle : cfg.sources.length ≤ (task.miss peer).missedPeers.card) :
      Move cfg (.received peer (some .remoteNotFound), task) g (.abandoned, task.miss peer)
        (g.miss task.position peer)
  | retried (peer : PeerID) {e : TaskError} (g : Ghost) (he : e ≠ .remoteNotFound)
      (hlt : task.fail.attempts < cfg.maxAttempts) :
      Move cfg (.received peer (some e), task) g (.queued, task.fail) (g.fail task.position)
  | failed (peer : PeerID) {e : TaskError} (g : Ghost) (he : e ≠ .remoteNotFound)
      (hle : cfg.maxAttempts ≤ task.fail.attempts) :
      Move cfg (.received peer (some e), task) g (.abandoned, task.fail) (g.fail task.position)

lemma shared_push (s : State) (task : ChunkTask) :
    State.shared { s with queue := s.queue ++ [task] } = (.queued, task) ::ₘ s.shared := by
  simp only [State.shared, ← coe_add, map_add, coe_singleton, map_singleton, ← singleton_add]
  abel

variable {task : ChunkTask} {s' : State} {a : Action}

lemma shared_pop (hqueue : s.queue = task :: queue) :
    s.shared = (.queued, task) ::ₘ State.shared { s with queue } := by
  rw [State.shared, hqueue, ← cons_coe, map_cons, State.shared]
  simp only [cons_add]

lemma shared_send (s : State) (signal : Signal) :
    State.shared { s with results := s.results ++ [signal] } = signal.held .sent + s.shared := by
  simp only [State.shared, List.map_append, List.sum_append, List.map_singleton, List.sum_singleton]
  abel

/-- A worker holds something else, and there is something else that no
worker holds, but only one task has moved. -/
lemma worker_moved {t : State}
    (hworker : s.workers[i]? = some ⟨peer, stage⟩) (hworkers : t.workers = s.workers)
    (h : Moved (Move cfg) ((Worker.mk peer stage).held + s.shared) s.ghost
      ((Worker.mk peer stage').held + t.shared) t.ghost) :
    Moved (Move cfg) s.located s.ghost (t.setWorker i peer stage').located t.ghost := by
  obtain ⟨rest, hsum, hset⟩ := sum_map_set Worker.held hworker
  have hbefore : s.located = rest + ((Worker.mk peer stage).held + s.shared) := by
    rw [State.located, hsum]
    abel
  have hafter : (t.setWorker i peer stage').located =
      rest + ((Worker.mk peer stage').held + t.shared) := by
    change ((t.workers.set i ⟨peer, stage'⟩).map Worker.held).sum + t.shared = _
    rw [hworkers, hset]
    abel
  rw [hbefore, hafter]
  cases h with
  | still htokens hbooks => exact .still (by rw [htokens]) hbooks
  | moved x y others hx hy hmove =>
    refine .moved x y (rest + others) ?_ ?_ hmove
    · rw [hx, add_cons]
    · rw [hy, add_cons]

lemma workerSteps_moved (hpeer : peer ∈ cfg.sources) (hworker : s.workers[i]? = some ⟨peer, stage⟩)
    (h : WorkerSteps cfg s i peer stage event stage' t) :
    Moved (Move cfg) s.located s.ghost (t.setWorker i peer stage').located t.ghost := by
  cases h with
  | leave | wake | quit => exact worker_moved hworker rfl (.still rfl rfl)
  | skip hqueue hmissed =>
    refine worker_moved hworker rfl (.moved _ _ _ ?_ rfl (.skip hmissed))
    exact (zero_add _).trans (shared_pop hqueue)
  | take hqueue hmissed =>
    refine worker_moved hworker rfl (.moved _ _ _ ?_ rfl (.take hmissed hpeer))
    exact (zero_add _).trans (shared_pop hqueue)
  | requeue task =>
    refine worker_moved hworker rfl (.moved _ _ _ rfl ?_ (.requeue ..))
    exact (zero_add _).trans (shared_push ..)
  | fetchFailed hfetch =>
    exact worker_moved hworker rfl (.moved _ _ _ rfl rfl (.fetchFailed peer s.ghost hfetch))
  | fetched hfetch =>
    exact worker_moved hworker rfl (.moved _ _ _ rfl rfl (.fetched peer s.ghost hfetch))
  | stored task chunk =>
    exact worker_moved hworker rfl (.moved _ _ _ rfl rfl (.stored ..))
  | unstored task chunk =>
    exact worker_moved hworker rfl (.moved _ _ _ rfl rfl (.unstored ..))
  | send task error =>
    refine worker_moved hworker rfl (.moved _ _ _ rfl ?_ (.send ..))
    exact (zero_add _).trans (shared_send s _)
  | workerDone =>
    refine worker_moved hworker rfl (.still ?_ rfl)
    rw [shared_send]
    exact zero_add _

lemma shared_phase (s : State) :
    s.shared = s.phase.held + State.shared { s with phase := .loop } := by
  simp only [State.shared, Phase.held]
  abel

/-- `Run` exchanges what it holds. -/
lemma phase_moved (hworkers : s'.workers = s.workers)
    (h : Moved (Move cfg) (s.phase.held + State.shared { s with phase := .loop }) s.ghost
      (s'.phase.held + State.shared { s' with phase := .loop }) s'.ghost) :
    Moved (Move cfg) s.located s.ghost s'.located s'.ghost := by
  rw [State.located, State.located, hworkers, shared_phase s, shared_phase s']
  cases h with
  | still htokens hbooks => exact .still (by rw [htokens]) hbooks
  | moved x y others hx hy hmove =>
    refine .moved x y ((s.workers.map Worker.held).sum + others) ?_ ?_ hmove
    · rw [hx, add_cons]
    · rw [hy, add_cons]

lemma shared_complete (s : State) (res : WorkerResult) :
    State.shared { s with completions := s.completions ++ [res] } =
      (.completed res.peer, res.task) ::ₘ s.shared := by
  simp only [State.shared, ← coe_add, map_add, coe_singleton, map_singleton, ← singleton_add]
  abel

lemma handles_moved (hphase : s.phase = .handling signal)
    (h : Handles cfg s signal s') : Moved (Move cfg) s.located s.ghost s'.located s'.ghost := by
  cases h with refine phase_moved rfl ?_
  | workerDone worker =>
    rw [hphase]
    exact .still rfl rfl
  | completed worker task peer =>
    rw [hphase]
    refine .moved _ _ _ rfl ?_ (.complete ..)
    exact (zero_add _).trans (shared_complete { s with phase := .loop } _)
  | missed worker hlt =>
    rw [hphase]
    refine .moved _ _ _ rfl ?_ (.missed s.ghost hlt)
    exact (zero_add _).trans (shared_push { s with phase := .loop } _)
  | notFound worker hle =>
    rw [hphase]
    exact .moved _ _ _ rfl rfl (.notFound s.ghost hle)
  | retried worker peer he hlt =>
    rw [hphase]
    refine .moved _ _ _ rfl ?_ (.retried peer s.ghost he hlt)
    exact (zero_add _).trans (shared_push { s with phase := .loop } _)
  | failed worker peer he hle =>
    rw [hphase]
    exact .moved _ _ _ rfl rfl (.failed peer s.ghost he hle)

lemma shared_receive (hresults : s.results = signal :: results) :
    s.shared = signal.held .sent + State.shared { s with results } := by
  simp only [State.shared, hresults, List.map_cons, List.sum_cons]
  abel

lemma steps_moved (hpeers : ∀ w ∈ s.workers, w.peer ∈ cfg.sources) (h : Steps cfg s a s') :
    Moved (Move cfg) s.located s.ghost s'.located s'.ghost := by
  cases h with
  | @connected peer rest hphase =>
    refine .still ?_ rfl
    rw [State.located, State.located, shared_phase, shared_phase s, hphase]
    simp only [List.map_append, List.sum_append, List.map_singleton, List.sum_singleton]
    exact congrArg (· + _) (add_zero _)
  | unconnected hphase | noActiveWorkers hphase | startLoop hphase | ctxDone hphase
  | allWorkersDied hphase | complete hphase =>
    refine phase_moved rfl ?_
    rw [hphase]
    exact .still rfl rfl
  | cancel => exact .still rfl rfl
  | @receive signal results hphase hlooping hresults =>
    refine phase_moved rfl ?_
    have hshared : State.shared { s with phase := .loop } =
        signal.held .sent + State.shared { s with phase := .loop, results } :=
      shared_receive hresults
    rw [hphase, hshared]
    cases signal with
    | workerDone => exact .still (congrArg _ (zero_add _)).symm rfl
    | result worker res =>
      refine .moved _ _ _ ?_ rfl (.receive ..)
      exact zero_add _
  | handle hphase hhandles => exact handles_moved hphase hhandles
  | worker hworker hsteps =>
    exact workerSteps_moved (hpeers _ (List.mem_of_getElem? hworker)) hworker hsteps

/-! ## Invariants -/

/-- The sources that are started or still to be. -/
def Phase.unstarted : Phase → List PeerID
  | .starting sources => sources
  | _ => []

/-- The task is the one that was given, with the failures and misses that
`Run` was told of. -/
structure Continues (g : Ghost) (given task : ChunkTask) : Prop where
  index : task.index = given.index
  chunkId : task.chunkId = given.chunkId
  attempts : task.attempts = given.attempts + g.failures task.position
  missedPeers : task.missedPeers = given.missedPeers ∪ g.misses task.position

def Known (cfg : Config τ) (g : Ghost) (task : ChunkTask) : Prop :=
  ∃ given, cfg.tasks[task.position]? = some given ∧ Continues g given task

/-- The chunk is what was asked for. -/
def Whole (cfg : Config τ) (task : ChunkTask) (chunk : Chunk) : Prop :=
  chunk.header.id = task.chunkId ∧ cfg.sha256 chunk.data = task.chunkId

/-- What holds of a task in its place. -/
def Place.Ok (cfg : Config τ) (g : Ghost) (task : ChunkTask) : Place → Prop
  | .fetched _ chunk => Whole cfg task chunk
  | .sending _ none | .sent _ none | .received _ none | .completed _ =>
    ∃ chunk ∈ g.puts, Whole cfg task chunk
  | _ => True

lemma fetch_eq_ok (h : cfg.fetch chunkId exchange = .ok chunk) :
    chunk.header.id = chunkId ∧ cfg.sha256 chunk.data = chunkId := by
  cases exchange with
  | unsent | unread => cases h
  | answered resp sent =>
    rw [Config.fetch] at h
    cases hfetch : (fetchChunk cfg.sha256 cfg.json cfg.ticketGenerator chunkId resp).2 with
    | error e =>
      rw [hfetch] at h
      cases h
    | ok c =>
      rw [hfetch] at h
      dsimp only at h
      split at h
      · cases h
      · cases h
        exact fetchChunk_eq_ok hfetch

variable {g : Ghost} {res : WorkerResult}

lemma Known.congr (h : Known cfg g task)
    (hfailures : g'.failures task.position = g.failures task.position)
    (hmisses : g'.misses task.position = g.misses task.position) : Known cfg g' task := by
  obtain ⟨given, hget, hcontinues⟩ := h
  refine ⟨given, hget, hcontinues.index, hcontinues.chunkId, ?_, ?_⟩
  · rw [hfailures]
    exact hcontinues.attempts
  · rw [hmisses]
    exact hcontinues.missedPeers

lemma Known.fail (h : Known cfg g task) : Known cfg (g.fail task.position) task.fail := by
  obtain ⟨given, hget, hcontinues⟩ := h
  refine ⟨given, hget, hcontinues.index, hcontinues.chunkId, ?_, hcontinues.missedPeers⟩
  have hcount : (g.fail task.position).failures task.position = g.failures task.position + 1 :=
    update_self ..
  change task.attempts + 1 = given.attempts + (g.fail task.position).failures task.position
  rw [hcount, hcontinues.attempts]
  push_cast
  ring

lemma Known.miss (h : Known cfg g task) (peer : PeerID) :
    Known cfg (g.miss task.position peer) (task.miss peer) := by
  obtain ⟨given, hget, hcontinues⟩ := h
  refine ⟨given, hget, hcontinues.index, hcontinues.chunkId, hcontinues.attempts, ?_⟩
  have hmisses : (g.miss task.position peer).misses task.position =
      insert peer (g.misses task.position) := update_self ..
  change insert peer task.missedPeers =
    given.missedPeers ∪ (g.miss task.position peer).misses task.position
  rw [hmisses, hcontinues.missedPeers, Finset.union_insert]

/-- More puts do no harm. -/
lemma Place.Ok.mono {place : Place} (h : place.Ok cfg g task)
    (hputs : ∀ chunk ∈ g.puts, chunk ∈ g'.puts) : place.Ok cfg g' task := by
  cases place with
  | queued | skipped | fetching | abandoned => trivial
  | fetched => exact h
  | completed =>
    obtain ⟨chunk, hmem, hwhole⟩ := h
    exact ⟨chunk, hputs chunk hmem, hwhole⟩
  | sending peer error | sent peer error | received peer error =>
    cases error with
    | some e => trivial
    | none =>
      obtain ⟨chunk, hmem, hwhole⟩ := h
      exact ⟨chunk, hputs chunk hmem, hwhole⟩

lemma Move.puts (h : Move cfg x g y g') : ∀ chunk ∈ g.puts, chunk ∈ g'.puts := by
  cases h with
  | stored task peer chunk => exact fun c hc => List.mem_append_left _ hc
  | _ => exact fun _ hc => hc

lemma Move.position (h : Move cfg x g y g') : y.2.position = x.2.position := by
  cases h <;> rfl

/-- What is known of a task in its place. -/
def TaskOk (cfg : Config τ) (g : Ghost) (x : Located) : Prop :=
  Known cfg g x.2 ∧ x.1.Ok cfg g x.2

lemma Move.taskOk (h : Move cfg x g y g') (hok : TaskOk cfg g x) : TaskOk cfg g' y := by
  obtain ⟨hknown, hplace⟩ := hok
  cases h with
  | skip | requeue | take | unstored => exact ⟨hknown, trivial⟩
  | fetchFailed => exact ⟨hknown.congr rfl rfl, trivial⟩
  | fetched peer g hfetch => exact ⟨hknown.congr rfl rfl, fetch_eq_ok hfetch⟩
  | stored task peer chunk g =>
    exact ⟨hknown.congr rfl rfl, chunk, List.mem_append_right _ (List.mem_singleton_self _), hplace⟩
  | send task peer error g | receive task peer error g =>
    refine ⟨hknown, ?_⟩
    cases error with
    | none => exact hplace
    | some e => trivial
  | complete => exact ⟨hknown, hplace⟩
  | missed g hlt | notFound g hle => exact ⟨hknown.miss _, trivial⟩
  | retried peer g he hlt | failed peer g he hle => exact ⟨hknown.fail, trivial⟩

/-- The other tasks have other positions. -/
lemma Move.taskOk_of_ne {z : Located} (h : Move cfg x g y g') (hne : z.2.position ≠ x.2.position)
    (hok : TaskOk cfg g z) : TaskOk cfg g' z := by
  refine ⟨?_, hok.2.mono h.puts⟩
  cases h with
  | skip | requeue | take | unstored | send | receive | complete => exact hok.1
  | fetchFailed | fetched | stored => exact hok.1.congr rfl rfl
  | missed | notFound => exact hok.1.congr rfl (update_of_ne hne ..)
  | retried | failed => exact hok.1.congr (update_of_ne hne ..) rfl

/-! ## Runs -/

/-- How many tasks `Run` still waits for, when so many are reported. -/
def Phase.Counts (total pending reported : Nat) : Phase → Prop
  | .starting _ => reported = 0
  | .loop => pending + reported = total
  | .handling _ => 0 < pending ∧ pending + reported = total
  | .returned none => reported = total
  | .returned (some _) => True

structure Inv (cfg : Config τ) (s : State) : Prop where
  workers : ∀ w ∈ s.workers, w.peer ∈ cfg.sources
  unstarted : ∀ peer ∈ s.phase.unstarted, peer ∈ cfg.sources
  positions : s.located.map (fun x => x.2.position) = Multiset.range cfg.tasks.length
  tasks : ∀ x ∈ s.located, TaskOk cfg s.ghost x
  counts : s.phase.Counts cfg.tasks.length s.pendingTasks s.completions.length
  stored : ∀ chunk ∈ s.ghost.puts, s.store.hasChunk chunk.header.id

lemma located_init (cfg : Config τ) (store : Storage) : (init cfg store).located =
      Multiset.map (fun task => (Place.queued, task)) (numbered cfg.tasks) := by
  simp [State.located, State.shared, init, Phase.held]

lemma position_numbered (tasks : List ChunkTask) :
    (numbered tasks).map ChunkTask.position = List.range tasks.length := by
  refine List.ext_getElem (by simp [numbered]) fun i hi _ => ?_
  simp [numbered]

lemma inv_init (cfg : Config τ) (store : Storage) : Inv cfg (init cfg store) := by
  refine ⟨fun _ h => absurd h List.not_mem_nil, fun _ h => h, ?_, ?_, rfl,
    fun _ h => absurd h List.not_mem_nil⟩
  · rw [located_init, map_map]
    exact congrArg _ (position_numbered _)
  · rw [located_init]
    intro x hx
    obtain ⟨task, htask, rfl⟩ := mem_map.mp hx
    obtain ⟨i, hi, rfl⟩ := List.mem_mapIdx.mp htask
    exact ⟨⟨cfg.tasks[i], List.getElem?_eq_getElem hi, rfl, rfl, (add_zero _).symm,
      (Finset.union_empty _).symm⟩, trivial⟩

section

variable (h : Steps cfg s a s') (hinv : Inv cfg s)

include h hinv

/-- Workers are started for sources only. -/
lemma steps_sources :
    (∀ w ∈ s'.workers, w.peer ∈ cfg.sources) ∧ ∀ peer ∈ s'.phase.unstarted, peer ∈ cfg.sources := by
  have hnone : ∀ peer ∈ ([] : List PeerID), peer ∈ cfg.sources :=
    fun _ h => absurd h List.not_mem_nil
  cases h with
  | connected hphase =>
    have hunstarted := hinv.unstarted
    rw [hphase] at hunstarted
    obtain ⟨hpeer, hrest⟩ := List.forall_mem_cons.mp hunstarted
    exact ⟨List.forall_mem_append.mpr ⟨hinv.workers, List.forall_mem_singleton.mpr hpeer⟩, hrest⟩
  | unconnected hphase =>
    have hunstarted := hinv.unstarted
    rw [hphase] at hunstarted
    exact ⟨hinv.workers, (List.forall_mem_cons.mp hunstarted).2⟩
  | cancel => exact ⟨hinv.workers, hinv.unstarted⟩
  | handle hphase hhandles => cases hhandles <;> exact ⟨hinv.workers, hnone⟩
  | @worker i peer stage stage' event t hworker hsteps =>
    have hpeer := hinv.workers _ (List.mem_of_getElem? hworker)
    have hset : ∀ w ∈ s.workers.set i ⟨peer, stage'⟩, w.peer ∈ cfg.sources := by
      intro w hw
      rcases List.mem_or_eq_of_mem_set hw with hold | rfl
      · exact hinv.workers w hold
      · exact hpeer
    cases hsteps <;> exact ⟨hset, hinv.unstarted⟩
  | _ => exact ⟨hinv.workers, hnone⟩

lemma steps_counts : s'.phase.Counts cfg.tasks.length s'.pendingTasks s'.completions.length := by
  have hcounts := hinv.counts
  cases h with
  | connected hphase | unconnected hphase =>
    rw [hphase] at hcounts
    exact hcounts
  | noActiveWorkers | ctxDone | allWorkersDied => trivial
  | startLoop hphase =>
    rw [hphase] at hcounts
    exact congrArg (cfg.tasks.length + ·) hcounts
  | receive hphase hlooping hresults =>
    rw [hphase] at hcounts
    exact ⟨of_decide_eq_true (Bool.and_eq_true_iff.mp hlooping).1, hcounts⟩
  | complete hphase hpending =>
    rw [hphase, hpending] at hcounts
    exact (Nat.zero_add _).symm.trans hcounts
  | cancel => exact hcounts
  | handle hphase hhandles =>
    rw [hphase] at hcounts
    obtain ⟨hpos, hsum⟩ := hcounts
    cases hhandles with
    | workerDone | missed | retried => exact hsum
    | notFound | failed => trivial
    | completed worker task peer =>
      change s.pendingTasks - 1 + (s.completions ++ [_]).length = _
      rw [List.length_append, List.length_singleton]
      omega
  | worker hworker hsteps => cases hsteps <;> exact hcounts

lemma steps_stored : ∀ chunk ∈ s'.ghost.puts, s'.store.hasChunk chunk.header.id := by
  cases h with
  | handle hphase hhandles => cases hhandles <;> exact hinv.stored
  | worker hworker hsteps =>
    cases hsteps with
    | stored task chunk =>
      refine List.forall_mem_append.mpr ⟨fun c hc => ?_, List.forall_mem_singleton.mpr ?_⟩
      · exact Storage.hasChunk_update (hinv.stored c hc) _ _
      · exact s.store.hasChunk_putChunk_self chunk
    | _ => exact hinv.stored
  | _ => exact hinv.stored

end

/-- No step takes a chunk out of the store. -/
lemma steps_hasChunk (h : Steps cfg s a s') {id : ChunkID} (hid : s.store.hasChunk id) :
    s'.store.hasChunk id := by
  cases h with
  | handle hphase hhandles => cases hhandles <;> exact hid
  | worker hworker hsteps =>
    cases hsteps with
    | stored => exact Storage.hasChunk_update hid _ _
    | _ => exact hid
  | _ => exact hid

lemma Inv.nodup (h : Inv cfg s) : (s.located.map fun x => x.2.position).Nodup := by
  rw [h.positions]
  exact nodup_range _

lemma Inv.step (h : Steps cfg s a s') (hinv : Inv cfg s) : Inv cfg s' := by
  obtain ⟨hworkers, hunstarted⟩ := steps_sources h hinv
  have hmoved := steps_moved hinv.workers h
  refine ⟨hworkers, hunstarted, ?_, ?_, steps_counts h hinv, steps_stored h hinv⟩
  · rw [hmoved.map_eq _ fun _ _ hmove => hmove.position]
    exact hinv.positions
  · exact hmoved.forall _ hinv.nodup hinv.tasks (fun _ _ hmove => hmove.taskOk)
      fun _ _ _ hmove => hmove.taskOk_of_ne

/-- What every move keeps holds of all tasks after a step. -/
lemma Inv.forall_located {P : Located → Prop} (hinv : Inv cfg s) (h : Steps cfg s a s')
    (hmove : ∀ {x y g g'}, Move cfg x g y g' → P x → P y) (hs : ∀ x ∈ s.located, P x) :
    ∀ x ∈ s'.located, P x :=
  (steps_moved hinv.workers h).forall_mem (fun _ _ hmoved => hmove hmoved) hs

lemma inv_of_run (hrun : Run (step cfg) ok (init cfg store) s) : Inv cfg s :=
  hrun.inv (inv_init ..) fun _ _ _ _ hstep hinv => hinv.step (steps_of_step hstep)

/-! ## What is reported -/

/-- The task at a position was fetched whole and stored. -/
def Fetched (cfg : Config τ) (s : State) (task : ChunkTask) : Prop :=
  ∃ given, cfg.tasks[task.position]? = some given ∧ task.index = given.index ∧
    task.chunkId = given.chunkId ∧ s.store.hasChunk given.chunkId ∧
    ∃ chunk ∈ s.ghost.puts, chunk.header.id = given.chunkId ∧
      cfg.sha256 chunk.data = given.chunkId

lemma Inv.fetched (hinv : Inv cfg s)
    (hknown : Known cfg s.ghost task) (hput : ∃ chunk ∈ s.ghost.puts, Whole cfg task chunk) :
    Fetched cfg s task := by
  obtain ⟨given, hget, hcontinues⟩ := hknown
  obtain ⟨chunk, hmem, hid, hhash⟩ := hput
  have hstored := hinv.stored chunk hmem
  rw [hcontinues.chunkId] at hid hhash
  rw [hid] at hstored
  exact ⟨given, hget, hcontinues.index, hcontinues.chunkId, hstored, chunk, hmem, hid, hhash⟩

lemma mem_located_of_shared (h : x ∈ s.shared) : x ∈ s.located :=
  mem_add.mpr (.inr h)

lemma mem_located_of_queued (h : task ∈ s.queue) : (Place.queued, task) ∈ s.located := by
  refine mem_located_of_shared ?_
  simp only [State.shared, mem_add]
  exact .inl (.inl (.inl (mem_map_of_mem _ (mem_coe.mpr h))))

lemma mem_located_of_reported (h : res ∈ s.completions) :
    (Place.completed res.peer, res.task) ∈ s.located :=
  mem_located_of_shared (mem_add.mpr (.inr (mem_map_of_mem
    (fun res : WorkerResult => (Place.completed res.peer, res.task)) (mem_coe.mpr h))))

lemma mem_located_of_phase (h : x ∈ s.phase.held) : x ∈ s.located := by
  refine mem_located_of_shared ?_
  rw [shared_phase]
  exact mem_add.mpr (.inl h)

section

variable (hinv : Inv cfg s)

include hinv

lemma Inv.fetched_of_reported (h : res ∈ s.completions) : Fetched cfg s res.task := by
  obtain ⟨hknown, hput⟩ := hinv.tasks _ (mem_located_of_reported h)
  exact hinv.fetched hknown hput

/-- What is reported in a step was stored before. -/
lemma Inv.fetched_before (h : Steps cfg s a s') (hres : res ∈ s'.completions) :
    Fetched cfg s res.task := by
  cases h with
  | worker hworker hsteps => cases hsteps <;> exact hinv.fetched_of_reported hres
  | handle hphase hhandles =>
    cases hhandles with
    | workerDone | missed | notFound | retried | failed => exact hinv.fetched_of_reported hres
    | completed worker task peer =>
      rcases List.mem_append.mp hres with hold | hnew
      · exact hinv.fetched_of_reported hold
      · obtain rfl := List.mem_singleton.mp hnew
        have hmem : (Place.received peer none, task) ∈ s.phase.held := by
          rw [hphase]
          exact mem_singleton_self _
        obtain ⟨hknown, hput⟩ := hinv.tasks _ (mem_located_of_phase hmem)
        exact hinv.fetched hknown hput
  | _ => exact hinv.fetched_of_reported hres

lemma Inv.reported_le : (↑(s.completions.map fun res => res.task.position) : Multiset Nat) ≤
      Multiset.range cfg.tasks.length := by
  have hle : Multiset.map (fun res : WorkerResult => (Place.completed res.peer, res.task))
      s.completions ≤ s.located := by
    rw [State.located, State.shared, ← add_assoc]
    exact le_add_left _ _
  have hmap := map_le_map (f := fun x : Located => x.2.position) hle
  rw [hinv.positions, map_map] at hmap
  exact hmap

lemma Inv.reported_nodup : (s.completions.map fun res => res.task.position).Nodup :=
  coe_nodup.mp (nodup_of_le hinv.reported_le (nodup_range _))

lemma Inv.reported_all (hphase : s.phase = .returned none) :
    (s.completions.map fun res => res.task.position).Perm (List.range cfg.tasks.length) := by
  have hcounts := hinv.counts
  rw [hphase] at hcounts
  have hcount : s.completions.length = cfg.tasks.length := hcounts
  refine coe_eq_coe.mp (eq_of_le_of_card_le hinv.reported_le ?_)
  change (List.range cfg.tasks.length).length ≤ (s.completions.map _).length
  rw [List.length_range, List.length_map, hcount]

/-- If `Run` returns without an error, then every chunk is stored. -/
lemma Inv.stored_all (hphase : s.phase = .returned none)
    (htask : task ∈ cfg.tasks) : s.store.hasChunk task.chunkId := by
  obtain ⟨p, hp, rfl⟩ := List.mem_iff_getElem.mp htask
  have hreported := (hinv.reported_all hphase).mem_iff.mpr (List.mem_range.mpr hp)
  obtain ⟨res, hres, hposition⟩ := List.mem_map.mp hreported
  obtain ⟨given, hget, -, -, hstored, -⟩ := hinv.fetched_of_reported hres
  rw [hposition, List.getElem?_eq_getElem hp] at hget
  cases hget
  exact hstored

end

/-- In every run each task is in one place; no task is reported twice; what
is reported was fetched whole and stored before; and if `Run` returns
without an error, then each task has been reported. -/
theorem scheduler_conserves {store : Storage} {s : State}
    (hrun : Run (step cfg) (fun _ _ => True) (init cfg store) s) :
    s.located.map (fun x => x.2.position) = Multiset.range cfg.tasks.length ∧
    (s.completions.map fun res => res.task.position).Nodup ∧
    (∀ a s' res, step cfg a s = some s' → res ∈ s'.completions →
      ∃ given, cfg.tasks[res.task.position]? = some given ∧ res.task.index = given.index ∧
        res.task.chunkId = given.chunkId ∧ s.store.hasChunk given.chunkId ∧
        ∃ chunk ∈ s.ghost.puts, chunk.header.id = given.chunkId ∧
          cfg.sha256 chunk.data = given.chunkId) ∧
    (s.phase = .returned none →
      (s.completions.map fun res => res.task.position).Perm (List.range cfg.tasks.length)) := by
  have hinv := inv_of_run hrun
  exact ⟨hinv.positions, hinv.reported_nodup,
    fun _ _ _ hstep hres => hinv.fetched_before (steps_of_step hstep) hres, hinv.reported_all⟩

/-! ## A download of one chunk -/

def wantedId : Block 32 := ⟨List.replicate 32 5, List.length_replicate⟩

def wantedChunk : Chunk :=
  ⟨⟨1, wantedId, 0, 0, 0, 0, ⟨List.replicate 12 5, List.length_replicate⟩⟩, [5]⟩

/-- One chunk, from the given sources. -/
def oneTask (sources : List PeerID) : Config Unit where
  sha256 := fun _ => wantedId
  json := ⟨fun _ => none, fun _ => none⟩
  ticketGenerator := none
  maxAttempts := 3
  tasks := [⟨0, 0, wantedId, 0, ∅⟩]
  sources := sources

/-- The worker takes the task, fetches and stores the chunk and sends the
result. -/
def fetchSteps (i : Nat) : List Action :=
  [.worker i .proceed, .worker i (.exchanged (.answered (buildChunk wantedChunk) true)),
    .worker i (.stored true), .worker i .proceed]

def twoTasks : Config Unit :=
  { oneTask [[1]] with tasks := [⟨0, 0, wantedId, 0, ∅⟩, ⟨1, 1, wantedId, 0, ∅⟩] }

/-- One worker fetches the two chunks. -/
def twoFetches : List Action :=
  [.connect true, .startLoop] ++ fetchSteps 0 ++ [.receive, .handle] ++ fetchSteps 0 ++
    [.receive, .handle, .exit]

theorem scheduler_conserves_two : ∃ s,
    execute (step twoTasks) twoFetches (init twoTasks ⟨fun _ => none⟩) = some s ∧
      s.phase = .returned none ∧
      (s.completions.map fun res => res.task.position).Perm [0, 1] := by
  have hexec : execute (step twoTasks) twoFetches (init twoTasks ⟨fun _ => none⟩) = some _ := rfl
  exact ⟨_, hexec, rfl, (scheduler_conserves (.of_execute _ hexec)).2.2.2 rfl⟩

end Cipher.Scheduler
