import Cipher.ChunkProtocol
import Cipher.Transition

/-!
# The scheduler of a download

`Run` starts a worker for each source it can connect to. The workers take
tasks from a queue, fetch and store chunks and send what became of it into a
channel; `Run` takes the results from the channel, reports those that went
well and puts the others back into the queue.

A step is one of `Run` or of one worker, between two points at which another
goroutine can come in: a lock, a channel, a message of the network, a file.
Nothing else writes to the store meanwhile, and whoever reads `completions`
does so in the end. The sizes and times in a result are left out.

`Steps` says what a step can be; it is all that the proofs know of `step`.
-/

namespace Cipher.Scheduler

open Bytes Binary Go Content ChunkProtocol Transition

abbrev PeerID := Str

/-- `position` is a ghost, the place in the list that `Run` is given. -/
structure ChunkTask where
  position : Nat
  index : Nat
  chunkId : ChunkID
  attempts : Int
  missedPeers : Finset PeerID
deriving DecidableEq

structure Config (τ : Type) where
  sha256 : List UInt8 → Hash
  json : Json τ
  ticketGenerator : Option (TicketGenerator τ)
  maxAttempts : Int
  tasks : List ChunkTask
  sources : List PeerID

variable {τ : Type} {cfg : Config τ}

/-! ## Fetching -/

inductive TaskError where
  | unsent
  | unread
  | fetch (e : FetchError)
  | unsentTicket
  | unstored
deriving DecidableEq

/-- `errors.Is` with `ErrRemoteChunkNotFound`. -/
def TaskError.remoteNotFound : TaskError := .fetch .remoteChunkNotFound

/-- How the exchange with a provider goes: the request or the answer is
lost, or an answer comes, and what is sent then goes through or not. -/
inductive Exchange where
  | unsent
  | unread
  | answered (resp : Message) (sent : Bool)

section

variable (cfg : Config τ)

/-- `FetchChunk`. That an acknowledgement does not go through is only
logged. -/
def Config.fetch (chunkId : ChunkID) : Exchange → Except TaskError Chunk
  | .unsent => .error .unsent
  | .unread => .error .unread
  | .answered resp sent =>
    match (fetchChunk cfg.sha256 cfg.json cfg.ticketGenerator chunkId resp).2 with
    | .error e => .error (.fetch e)
    | .ok chunk =>
      if cfg.ticketGenerator.isSome ∧ ¬ sent then .error .unsentTicket else .ok chunk

/-! ## The state -/

structure WorkerResult where
  task : ChunkTask
  error : Option TaskError
  peer : PeerID

/-- What is in the channel; `worker` is a ghost. -/
inductive Signal where
  | result (worker : Nat) (res : WorkerResult)
  | workerDone (worker : Nat)

/-- Where a goroutine of a worker is. It yields after it has put back a task
that its source has missed, and sends its last signal when it leaves. -/
inductive Stage where
  | next
  | requeue (task : ChunkTask)
  | yielding
  | fetching (task : ChunkTask)
  | storing (task : ChunkTask) (chunk : Chunk)
  | sending (task : ChunkTask) (error : Option TaskError)
  | leaving
  | gone

structure Worker where
  peer : PeerID
  stage : Stage

inductive RunError where
  | noActiveWorkers
  | ctx
  | notFound (task : ChunkTask)
  | failed (task : ChunkTask) (e : TaskError)
  | allWorkersDied (remaining : Nat)

/-- Where `Run` is. -/
inductive Phase where
  | starting (sources : List PeerID)
  | loop
  | handling (signal : Signal)
  | returned (e : Option RunError)

/-- What nobody reads: the chunks that were stored, how many exchanges there
were, and by position how often `Run` was told of a failure and by whom of a
miss. -/
structure Ghost where
  puts : List Chunk
  fetches : Nat
  failures : Nat → Nat
  misses : Nat → Finset PeerID

structure State where
  phase : Phase
  activeWorkers : Nat
  pendingTasks : Nat
  queue : List ChunkTask
  workers : List Worker
  results : List Signal
  completions : List WorkerResult
  cancelled : Bool
  store : Storage
  ghost : Ghost

def numbered (tasks : List ChunkTask) : List ChunkTask :=
  tasks.mapIdx fun i task => { task with position := i }

def init (store : Storage) : State where
  phase := .starting cfg.sources
  activeWorkers := 0
  pendingTasks := 0
  queue := numbered cfg.tasks
  workers := []
  results := []
  completions := []
  cancelled := false
  store := store
  ghost := ⟨[], 0, fun _ => 0, fun _ => ∅⟩

/-! ## Steps -/

def Ghost.put (g : Ghost) (chunk : Chunk) : Ghost := { g with puts := g.puts ++ [chunk] }

def Ghost.fetch (g : Ghost) : Ghost := { g with fetches := g.fetches + 1 }

def Ghost.fail (g : Ghost) (position : Nat) : Ghost :=
  { g with failures := Function.update g.failures position (g.failures position + 1) }

def Ghost.miss (g : Ghost) (position : Nat) (peer : PeerID) : Ghost :=
  { g with misses := Function.update g.misses position (insert peer (g.misses position)) }

/-- The task after a miss. -/
def ChunkTask.miss (task : ChunkTask) (peer : PeerID) : ChunkTask :=
  { task with missedPeers := insert peer task.missedPeers }

/-- The task after any other failure. -/
def ChunkTask.fail (task : ChunkTask) : ChunkTask := { task with attempts := task.attempts + 1 }

/-- What `Run` does with a signal it has taken from the channel. -/
def State.handle (s : State) : Signal → State
  | .workerDone _ => { s with phase := .loop, activeWorkers := s.activeWorkers - 1 }
  | .result _ res =>
    match res.error with
    | none =>
      { s with
        phase := .loop
        completions := s.completions ++ [res]
        pendingTasks := s.pendingTasks - 1 }
    | some e =>
      if e = .remoteNotFound then
        let task := res.task.miss res.peer
        let ghost := s.ghost.miss res.task.position res.peer
        if task.missedPeers.card < cfg.sources.length then
          { s with phase := .loop, queue := s.queue ++ [task], ghost }
        else { s with phase := .returned (some (.notFound task)), ghost }
      else
        let task := res.task.fail
        let ghost := s.ghost.fail res.task.position
        if task.attempts < cfg.maxAttempts then
          { s with phase := .loop, queue := s.queue ++ [task], ghost }
        else { s with phase := .returned (some (.failed task e)), ghost }

/-- What happens to a worker: it goes on, finds the context done, its
exchange is over, or its chunk is stored or not. -/
inductive Event where
  | proceed
  | ctxDone
  | exchanged (exchange : Exchange)
  | stored (ok : Bool)

inductive Action where
  | connect (ok : Bool)
  | startLoop
  | receive
  | handle
  | ctxDone
  | exit
  | worker (i : Nat) (event : Event)
  | cancel

def State.setWorker (s : State) (i : Nat) (peer : PeerID) (stage : Stage) : State :=
  { s with workers := s.workers.set i ⟨peer, stage⟩ }

/-- There is room in the channel. -/
def State.room (s : State) : Bool := s.results.length < cfg.sources.length * 2

/-- The loop of `runWorker`, and the last signal of the goroutine. -/
def runWorker (s : State) (i : Nat) (peer : PeerID) :
    Stage → Event → Option State
  | .next, .proceed =>
    match s.queue with
    | [] => some (s.setWorker i peer .leaving)
    | task :: queue =>
      if peer ∈ task.missedPeers then some ({ s with queue }.setWorker i peer (.requeue task))
      else some ({ s with queue }.setWorker i peer (.fetching task))
  | .requeue task, .proceed =>
    some ({ s with queue := s.queue ++ [task] }.setWorker i peer .yielding)
  | .yielding, .proceed => some (s.setWorker i peer .next)
  | .yielding, .ctxDone => if s.cancelled then some (s.setWorker i peer .leaving) else none
  | .fetching task, .exchanged exchange =>
    let s := { s with ghost := s.ghost.fetch }
    match cfg.fetch task.chunkId exchange with
    | .error e => some (s.setWorker i peer (.sending task (some e)))
    | .ok chunk => some (s.setWorker i peer (.storing task chunk))
  | .storing task chunk, .stored true =>
    some ({ s with store := s.store.putChunk chunk, ghost := s.ghost.put chunk }.setWorker i peer
      (.sending task none))
  | .storing task _, .stored false => some (s.setWorker i peer (.sending task (some .unstored)))
  | .sending task error, .proceed =>
    if s.room cfg then
      let signal := Signal.result i ⟨task, error, peer⟩
      some ({ s with results := s.results ++ [signal] }.setWorker i peer .next)
    else none
  | .leaving, .proceed =>
    if s.room cfg then
      some ({ s with results := s.results ++ [Signal.workerDone i] }.setWorker i peer .gone)
    else none
  | _, _ => none

/-- The condition of the loop of `Run`. -/
def State.looping (s : State) : Bool := 0 < s.pendingTasks && 0 < s.activeWorkers

def step : Action → State → Option State
  | .connect ok, s =>
    match s.phase with
    | .starting (peer :: rest) =>
      if ok then
        some { s with
          phase := .starting rest
          activeWorkers := s.activeWorkers + 1
          workers := s.workers ++ [⟨peer, .next⟩] }
      else some { s with phase := .starting rest }
    | _ => none
  | .startLoop, s =>
    match s.phase with
    | .starting [] =>
      if s.activeWorkers = 0 then some { s with phase := .returned (some .noActiveWorkers) }
      else some { s with phase := .loop, pendingTasks := cfg.tasks.length }
    | _ => none
  | .receive, s =>
    match s.phase, s.results with
    | .loop, signal :: results =>
      if s.looping then some { s with phase := .handling signal, results } else none
    | _, _ => none
  | .handle, s =>
    match s.phase with
    | .handling signal => some (s.handle cfg signal)
    | _ => none
  | .ctxDone, s =>
    match s.phase with
    | .loop =>
      if s.looping ∧ s.cancelled then some { s with phase := .returned (some .ctx) } else none
    | _ => none
  | .exit, s =>
    match s.phase with
    | .loop =>
      if s.looping then none
      else if 0 < s.pendingTasks then
        some { s with phase := .returned (some (.allWorkersDied s.pendingTasks)) }
      else some { s with phase := .returned none }
    | _ => none
  | .worker i event, s =>
    match s.workers[i]? with
    | some ⟨peer, stage⟩ => runWorker cfg s i peer stage event
    | none => none
  | .cancel, s => if s.cancelled then none else some { s with cancelled := true }

end

/-! ## What a step can be -/

/-- A step of a worker, from one stage to another. -/
inductive WorkerSteps (cfg : Config τ) (s : State) (i : Nat) (peer : PeerID) :
    Stage → Event → Stage → State → Prop where
  | leave (hqueue : s.queue = []) : WorkerSteps cfg s i peer .next .proceed .leaving s
  | skip (hqueue : s.queue = task :: queue) (hmissed : peer ∈ task.missedPeers) :
      WorkerSteps cfg s i peer .next .proceed (.requeue task) { s with queue }
  | take (hqueue : s.queue = task :: queue) (hmissed : peer ∉ task.missedPeers) :
      WorkerSteps cfg s i peer .next .proceed (.fetching task) { s with queue }
  | requeue (task : ChunkTask) : WorkerSteps cfg s i peer (.requeue task) .proceed .yielding
      { s with queue := s.queue ++ [task] }
  | wake : WorkerSteps cfg s i peer .yielding .proceed .next s
  | quit (hcancelled : s.cancelled = true) :
      WorkerSteps cfg s i peer .yielding .ctxDone .leaving s
  | fetchFailed {exchange : Exchange} {e : TaskError}
      (hfetch : cfg.fetch task.chunkId exchange = .error e) :
      WorkerSteps cfg s i peer (.fetching task) (.exchanged exchange) (.sending task (some e))
        { s with ghost := s.ghost.fetch }
  | fetched {exchange : Exchange} {chunk : Chunk}
      (hfetch : cfg.fetch task.chunkId exchange = .ok chunk) :
      WorkerSteps cfg s i peer (.fetching task) (.exchanged exchange) (.storing task chunk)
        { s with ghost := s.ghost.fetch }
  | stored (task : ChunkTask) (chunk : Chunk) :
      WorkerSteps cfg s i peer (.storing task chunk) (.stored true) (.sending task none)
        { s with store := s.store.putChunk chunk, ghost := s.ghost.put chunk }
  | unstored (task : ChunkTask) (chunk : Chunk) :
      WorkerSteps cfg s i peer (.storing task chunk) (.stored false)
        (.sending task (some .unstored)) s
  | send (task : ChunkTask) (error : Option TaskError) (hroom : s.room cfg = true) :
      WorkerSteps cfg s i peer (.sending task error) .proceed .next
        { s with results := s.results ++ [.result i ⟨task, error, peer⟩] }
  | workerDone (hroom : s.room cfg = true) : WorkerSteps cfg s i peer .leaving .proceed .gone
      { s with results := s.results ++ [.workerDone i] }

lemma workerSteps_of_runWorker (h : runWorker cfg s i peer stage event = some s') :
    ∃ stage' t, WorkerSteps cfg s i peer stage event stage' t ∧ s' = t.setWorker i peer stage' := by
  revert h
  fun_cases runWorker cfg s i peer stage event with rintro ⟨⟩
  | case1 hqueue => exact ⟨_, _, .leave hqueue, rfl⟩
  | case2 task queue hqueue hmissed => exact ⟨_, _, .skip hqueue hmissed, rfl⟩
  | case3 task queue hqueue hmissed => exact ⟨_, _, .take hqueue hmissed, rfl⟩
  | case4 task => exact ⟨_, _, .requeue task, rfl⟩
  | case5 => exact ⟨_, _, .wake, rfl⟩
  | case6 hcancelled => exact ⟨_, _, .quit hcancelled, rfl⟩
  | case8 task exchange t e hfetch => exact ⟨_, _, .fetchFailed hfetch, rfl⟩
  | case9 task exchange t chunk hfetch => exact ⟨_, _, .fetched hfetch, rfl⟩
  | case10 task chunk => exact ⟨_, _, .stored .., rfl⟩
  | case11 task chunk => exact ⟨_, _, .unstored .., rfl⟩
  | case12 task error hroom => exact ⟨_, _, .send task error hroom, rfl⟩
  | case14 hroom => exact ⟨_, _, .workerDone hroom, rfl⟩

/-- What becomes of a signal that `Run` handles. -/
inductive Handles (cfg : Config τ) (s : State) : Signal → State → Prop where
  | workerDone (worker : Nat) : Handles cfg s (.workerDone worker)
      { s with phase := .loop, activeWorkers := s.activeWorkers - 1 }
  | completed (worker : Nat) (task : ChunkTask) (peer : PeerID) :
      Handles cfg s (.result worker ⟨task, none, peer⟩) { s with
        phase := .loop
        completions := s.completions ++ [⟨task, none, peer⟩]
        pendingTasks := s.pendingTasks - 1 }
  | missed (worker : Nat) {task : ChunkTask} {peer : PeerID}
      (hlt : (task.miss peer).missedPeers.card < cfg.sources.length) :
      Handles cfg s (.result worker ⟨task, some .remoteNotFound, peer⟩) { s with
        phase := .loop
        queue := s.queue ++ [task.miss peer]
        ghost := s.ghost.miss task.position peer }
  | notFound (worker : Nat) {task : ChunkTask} {peer : PeerID}
      (hle : cfg.sources.length ≤ (task.miss peer).missedPeers.card) :
      Handles cfg s (.result worker ⟨task, some .remoteNotFound, peer⟩) { s with
        phase := .returned (some (.notFound (task.miss peer)))
        ghost := s.ghost.miss task.position peer }
  | retried (worker : Nat) {task : ChunkTask} {e : TaskError} (peer : PeerID)
      (he : e ≠ .remoteNotFound) (hlt : task.fail.attempts < cfg.maxAttempts) :
      Handles cfg s (.result worker ⟨task, some e, peer⟩) { s with
        phase := .loop
        queue := s.queue ++ [task.fail]
        ghost := s.ghost.fail task.position }
  | failed (worker : Nat) {task : ChunkTask} {e : TaskError} (peer : PeerID)
      (he : e ≠ .remoteNotFound) (hle : cfg.maxAttempts ≤ task.fail.attempts) :
      Handles cfg s (.result worker ⟨task, some e, peer⟩) { s with
        phase := .returned (some (.failed task.fail e))
        ghost := s.ghost.fail task.position }

lemma handles_handle (cfg : Config τ) (s : State) (signal : Signal) :
    Handles cfg s signal (s.handle cfg signal) := by
  cases signal with
  | workerDone worker => exact .workerDone worker
  | result worker res =>
    obtain ⟨task, error, peer⟩ := res
    cases error with
    | none => exact .completed ..
    | some e =>
      rw [State.handle]
      dsimp only
      split
      · rename_i he
        subst he
        split
        · rename_i hlt
          exact .missed worker hlt
        · rename_i hlt
          exact .notFound worker (not_lt.mp hlt)
      · rename_i he
        split
        · rename_i hlt
          exact .retried worker peer he hlt
        · rename_i hlt
          exact .failed worker peer he (not_lt.mp hlt)

/-- What a step can be. -/
inductive Steps (cfg : Config τ) (s : State) : Action → State → Prop where
  | connected (hphase : s.phase = .starting (peer :: rest)) : Steps cfg s (.connect true) { s with
        phase := .starting rest
        activeWorkers := s.activeWorkers + 1
        workers := s.workers ++ [⟨peer, .next⟩] }
  | unconnected (hphase : s.phase = .starting (peer :: rest)) :
      Steps cfg s (.connect false) { s with phase := .starting rest }
  | noActiveWorkers (hphase : s.phase = .starting []) (hactive : s.activeWorkers = 0) :
      Steps cfg s .startLoop { s with phase := .returned (some .noActiveWorkers) }
  | startLoop (hphase : s.phase = .starting []) (hactive : s.activeWorkers ≠ 0) :
      Steps cfg s .startLoop { s with phase := .loop, pendingTasks := cfg.tasks.length }
  | receive (hphase : s.phase = .loop) (hlooping : s.looping = true)
      (hresults : s.results = signal :: results) :
      Steps cfg s .receive { s with phase := .handling signal, results }
  | handle (hphase : s.phase = .handling signal) (hhandles : Handles cfg s signal s')
      : Steps cfg s .handle s'
  | ctxDone (hphase : s.phase = .loop) (hlooping : s.looping = true)
      (hcancelled : s.cancelled = true) :
      Steps cfg s .ctxDone { s with phase := .returned (some .ctx) }
  | allWorkersDied (hphase : s.phase = .loop) (hactive : s.activeWorkers = 0)
      (hpending : 0 < s.pendingTasks) : Steps cfg s .exit
        { s with phase := .returned (some (.allWorkersDied s.pendingTasks)) }
  | complete (hphase : s.phase = .loop) (hpending : s.pendingTasks = 0) :
      Steps cfg s .exit { s with phase := .returned none }
  | worker {event : Event} {t : State} (hworker : s.workers[i]? = some ⟨peer, stage⟩)
      (hsteps : WorkerSteps cfg s i peer stage event stage' t) :
      Steps cfg s (.worker i event) (t.setWorker i peer stage')
  | cancel (hcancelled : s.cancelled = false) : Steps cfg s .cancel { s with cancelled := true }

lemma steps_of_step (h : step cfg a s = some s') : Steps cfg s a s' := by
  revert h
  fun_cases step cfg a s with
  | case1 s peer rest hphase =>
    rintro ⟨⟩
    exact .connected hphase
  | case2 ok s peer rest hphase hok =>
    obtain rfl := Bool.eq_false_of_not_eq_true hok
    rintro ⟨⟩
    exact .unconnected hphase
  | case4 s hphase hactive =>
    rintro ⟨⟩
    exact .noActiveWorkers hphase hactive
  | case5 s hphase hactive =>
    rintro ⟨⟩
    exact .startLoop hphase hactive
  | case7 s signal results hresults hphase hlooping =>
    rintro ⟨⟩
    exact .receive hphase hlooping hresults
  | case10 s signal hphase =>
    rintro ⟨⟩
    exact .handle hphase (handles_handle ..)
  | case12 s hphase h =>
    rintro ⟨⟩
    exact .ctxDone hphase h.1 h.2
  | case16 s hphase hlooping hpending =>
    rintro ⟨⟩
    refine .allWorkersDied hphase ?_ hpending
    simpa [State.looping, hpending] using hlooping
  | case17 s hphase _ hpending =>
    rintro ⟨⟩
    exact .complete hphase (Nat.eq_zero_of_not_pos hpending)
  | case19 i event s peer stage hworker =>
    intro h
    obtain ⟨stage', t, hsteps, rfl⟩ := workerSteps_of_runWorker h
    exact .worker hworker hsteps
  | case22 s hcancelled =>
    rintro ⟨⟩
    exact .cancel (by simpa using hcancelled)
  | _ =>
    intro h
    cases h

end Cipher.Scheduler
