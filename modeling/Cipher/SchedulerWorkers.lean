import Cipher.SchedulerTasks

/-!
# Why the scheduler gives up

A worker leaves when it finds the queue empty, and does not come back. A
failed task is on its way back to the queue for a while, in the channel and
with `Run`; if the last worker leaves then, the task is put back for nobody,
and `Run` gives up though no chunk has failed for good.

As long as that does not happen (`LastOut`), `Run` fails only if the context
is cancelled, a chunk has failed as often as it may, or every source has
missed a chunk (`scheduler_fails_for_cause`). When the last signal of the
last worker has arrived, nothing is in the channel any more, as each worker
sends it after all its results (`Ordered`).
-/

namespace Cipher.Scheduler

open Bytes Binary Go Content ChunkProtocol Transition Tokens List

variable {τ : Type} {cfg : Config τ}

/-! ## Counting workers -/

/-- The goroutine has not sent its last signal. -/
def Worker.alive (w : Worker) : Nat :=
  match w.stage with
  | .gone => 0
  | _ => 1

def Signal.last : Signal → Nat
  | .result _ _ => 0
  | .workerDone _ => 1

def Phase.last : Phase → Nat
  | .handling signal => signal.last
  | _ => 0

/-- The workers of which `Run` has not had the last signal. -/
def State.alive (s : State) : Nat :=
  (s.workers.map Worker.alive).sum + (s.results.map Signal.last).sum + s.phase.last

variable {s t : State} {i : Nat} {peer : PeerID} {a : Action}

lemma alive_setWorker (hworker : s.workers[i]? = some ⟨peer, stage⟩)
    (hworkers : t.workers = s.workers) (hphase : t.phase = s.phase)
    (h : (Worker.mk peer stage).alive + (s.results.map Signal.last).sum =
      (Worker.mk peer stage').alive + (t.results.map Signal.last).sum) :
    (t.setWorker i peer stage').alive = s.alive := by
  obtain ⟨rest, hsum, hset⟩ := sum_map_set Worker.alive hworker
  have hafter : (t.setWorker i peer stage').alive =
      (Worker.mk peer stage').alive + rest + (t.results.map Signal.last).sum + t.phase.last := by
    change ((t.workers.set i ⟨peer, stage'⟩).map Worker.alive).sum + _ + _ = _
    rw [hworkers, hset]
    rfl
  rw [hafter, State.alive, hphase]
  omega

lemma workerSteps_alive (hworker : s.workers[i]? = some ⟨peer, stage⟩)
    (h : WorkerSteps cfg s i peer stage event stage' t) :
    (t.setWorker i peer stage').activeWorkers = s.activeWorkers ∧
      (t.setWorker i peer stage').alive = s.alive := by
  cases h with
  | send task error =>
    refine ⟨rfl, alive_setWorker hworker rfl rfl ?_⟩
    simp only [map_append, sum_append]
    rfl
  | workerDone =>
    refine ⟨rfl, alive_setWorker hworker rfl rfl ?_⟩
    simp only [map_append, sum_append, map_singleton, sum_singleton]
    change 1 + _ = 0 + (_ + 1)
    omega
  | _ => exact ⟨rfl, alive_setWorker hworker rfl rfl rfl⟩

lemma steps_alive (h : Steps cfg s a s') (halive : s.activeWorkers = s.alive) :
    s'.activeWorkers = s'.alive := by
  cases h with
  | @connected peer rest hphase =>
    rw [State.alive, hphase] at halive
    simp only [State.alive, map_append, sum_append, map_singleton, sum_singleton]
    rw [halive]
    change _ + _ + 0 + 1 = _ + 1 + _ + 0
    omega
  | unconnected hphase | noActiveWorkers hphase | startLoop hphase | ctxDone hphase
  | allWorkersDied hphase | complete hphase =>
    rw [State.alive, hphase] at halive
    exact halive
  | cancel => exact halive
  | receive hphase hlooping hresults =>
    rw [State.alive, hphase, hresults, map_cons, sum_cons] at halive
    refine halive.trans ?_
    simp only [State.alive, Phase.last]
    omega
  | handle hphase hhandles =>
    rw [State.alive, hphase] at halive
    cases hhandles with
    | workerDone worker =>
      rw [halive]
      rfl
    | completed | missed | notFound | retried | failed => exact halive
  | worker hworker hsteps =>
    obtain ⟨hactive, hsame⟩ := workerSteps_alive hworker hsteps
    rw [hactive, hsame, halive]

/-! ## The last signal of a worker -/

/-- The worker has not sent its last signal. -/
def State.Present (s : State) (i : Nat) : Prop :=
  ∃ w, s.workers[i]? = some w ∧ w.stage ≠ .gone

/-- A result in the channel is followed by the last signal of its worker,
or the worker has not sent it yet. -/
def Ordered (s : State) : Prop :=
  ∀ before i res after, s.results = before ++ .result i res :: after →
    .workerDone i ∈ after ∨ s.Present i

lemma ordered_of_present (h : Ordered s) (hresults : s'.results = s.results)
    (hpresent : ∀ i, s.Present i → s'.Present i) : Ordered s' := by
  intro before i res after heq
  rw [hresults] at heq
  exact (h before i res after heq).imp_right (hpresent i)

lemma ordered_send (h : Ordered s) (hresults : s'.results = s.results ++ [signal])
    (hpresent : ∀ i, s.Present i → signal = .workerDone i ∨ s'.Present i)
    (hsignal : ∀ i res, signal = .result i res → s'.Present i) : Ordered s' := by
  intro before i res after heq
  rw [hresults] at heq
  rcases eq_nil_or_concat' after with rfl | ⟨after', last, rfl⟩
  · obtain ⟨-, hlast⟩ := append_inj' heq rfl
    exact .inr (hsignal i res (head_eq_of_cons_eq hlast))
  · have hsplit : s.results ++ [signal] = (before ++ .result i res :: after') ++ [last] := by
      rw [heq]
      simp
    obtain ⟨hold, hlast⟩ := append_inj' hsplit rfl
    obtain rfl := head_eq_of_cons_eq hlast
    rcases h before i res after' hold with hdone | hpresent'
    · exact .inl (mem_append_left _ hdone)
    · refine (hpresent i hpresent').imp_left fun hsig => ?_
      rw [hsig]
      exact mem_append_right _ (mem_singleton_self _)

lemma present_setWorker (peer : PeerID) (hstage' : stage' ≠ .gone) (h : s.Present j) :
    (s.setWorker i peer stage').Present j := by
  obtain ⟨w, hget, hstage⟩ := h
  have hlt := (List.getElem_of_getElem? hget).1
  by_cases hij : i = j
  · subst hij
    exact ⟨⟨peer, stage'⟩, getElem?_set_self hlt, hstage'⟩
  · exact ⟨w, (getElem?_set_ne hij).trans hget, hstage⟩

lemma workerSteps_ordered (hworker : s.workers[i]? = some ⟨peer, stage⟩)
    (h : WorkerSteps cfg s i peer stage event stage' t) (hordered : Ordered s) :
    Ordered (t.setWorker i peer stage') := by
  cases h with
  | send task error =>
    refine ordered_send hordered rfl (fun _ h => .inr (present_setWorker peer (by simp) h)) ?_
    rintro j res ⟨⟩
    exact present_setWorker peer (by simp) ⟨_, hworker, by simp⟩
  | workerDone =>
    refine ordered_send hordered rfl (fun j hj => ?_) (fun _ _ h => by cases h)
    by_cases hij : i = j
    · exact .inl (congrArg _ hij)
    · obtain ⟨w, hget, hstage⟩ := hj
      exact .inr ⟨w, (getElem?_set_ne hij).trans hget, hstage⟩
  | _ => exact ordered_of_present hordered rfl fun _ => present_setWorker peer (by simp)

lemma steps_ordered (h : Steps cfg s a s') (hordered : Ordered s) : Ordered s' := by
  cases h with
  | connected hphase =>
    refine ordered_of_present hordered rfl fun i ⟨w, hget, hstage⟩ => ⟨w, ?_, hstage⟩
    exact (List.getElem?_append_left (List.getElem_of_getElem? hget).1).trans hget
  | receive hphase hlooping hresults =>
    intro before i res after heq
    exact hordered (_ :: before) i res after (hresults.trans (congrArg _ heq))
  | handle hphase hhandles => cases hhandles <;> exact hordered
  | worker hworker hsteps => exact workerSteps_ordered hworker hsteps hordered
  | _ => exact hordered

variable {w : Worker}

lemma stage_of_alive (h : w.alive = 0) : w.stage = .gone := by
  obtain ⟨peer, stage⟩ := w
  cases stage with
  | gone => rfl
  | _ => cases h

/-- When `Run` has had all last signals, all workers are gone. -/
lemma gone_of_alive (halive : s.alive = 0) (hw : w ∈ s.workers) : w.stage = .gone := by
  have hworkers : (s.workers.map Worker.alive).sum = 0 := by
    rw [State.alive] at halive
    omega
  exact stage_of_alive (sum_eq_zero_iff.mp hworkers _ (mem_map_of_mem hw))

/-- Nothing is left in the channel then. -/
lemma results_eq_nil (hordered : Ordered s) (halive : s.alive = 0) : s.results = [] := by
  have hresults : (s.results.map Signal.last).sum = 0 := by
    rw [State.alive] at halive
    omega
  have hlast : ∀ signal ∈ s.results, signal.last = 0 := by
    intro signal hmem
    exact sum_eq_zero_iff.mp hresults _ (mem_map_of_mem hmem)
  cases hs : s.results with
  | nil => rfl
  | cons signal results =>
    rw [hs] at hlast
    obtain ⟨hhead, htail⟩ := forall_mem_cons.mp hlast
    cases signal with
    | workerDone i => cases hhead
    | result i res =>
      rcases hordered [] i res results hs with hdone | ⟨w, hget, hstage⟩
      · cases htail _ hdone
      · exact absurd (gone_of_alive halive (mem_of_getElem? hget)) hstage

/-! ## The last worker -/

def Stage.Running : Stage → Prop
  | .leaving | .gone => False
  | _ => True

/-- A failed result is in the channel or with `Run`. -/
def State.Failing (s : State) : Prop :=
  ∃ i res, res.error ≠ none ∧
    (.result i res ∈ s.results ∨ s.phase = .handling (.result i res))

/-- No worker leaves as the last one while a failed task is on its way
back. -/
def LastOut (a : Action) (s : State) : Prop :=
  ∀ i peer, a = .worker i .proceed → s.workers[i]? = some ⟨peer, .next⟩ → s.queue = [] →
    (∀ j w, j ≠ i → s.workers[j]? = some w → ¬ w.stage.Running) → ¬ s.Failing

/-- The task needs no worker any more. -/
def Place.Settled : Place → Prop
  | .sent _ none | .received _ none | .completed _ | .abandoned => True
  | _ => False

def State.Settled (s : State) : Prop := ∀ x ∈ s.located, x.1.Settled

lemma Move.settled (h : Move cfg x g y g') (hx : x.1.Settled) : y.1.Settled := by
  cases h with
  | skip | requeue | take | fetchFailed | fetched | stored | unstored | send => exact absurd hx id
  | receive task peer error =>
    cases error with
    | none => trivial
    | some e => exact absurd hx id
  | complete | notFound | failed => trivial
  | missed | retried => exact absurd hx id

lemma steps_settled (hinv : Inv cfg s) (h : Steps cfg s a s') (hsettled : s.Settled) : s'.Settled :=
  hinv.forall_located (P := fun x => x.1.Settled) h Move.settled hsettled

/-- Some worker runs, or no task needs one. -/
def State.Watched (s : State) : Prop :=
  (∃ w ∈ s.workers, w.stage.Running) ∨ s.workers = [] ∨ s.Settled

/-- What workers hold, if none runs. -/
lemma held_eq_zero (h : ¬ w.stage.Running) : w.held = 0 := by
  obtain ⟨peer, stage⟩ := w
  cases stage with
  | leaving | gone => rfl
  | next | requeue | yielding | fetching | storing | sending => exact absurd trivial h

/-- One worker is about to take a task, and no other runs. -/
lemma held_of_idle (hworker : s.workers[i]? = some ⟨peer, .next⟩)
    (hidle : ∀ j w, j ≠ i → s.workers[j]? = some w → ¬ w.stage.Running) :
    ∀ w ∈ s.workers, w.held = 0 := by
  intro w hw
  obtain ⟨j, hget⟩ := mem_iff_getElem?.mp hw
  by_cases hji : j = i
  · subst hji
    rw [hworker] at hget
    cases hget
    rfl
  · exact held_eq_zero (hidle j w hji hget)

lemma settled_of_not_failing (hheld : ∀ w ∈ s.workers, w.held = 0) (hqueue : s.queue = [])
    (hfailing : ¬ s.Failing) : s.Settled := by
  intro x hx
  cases sits_of_mem hx with
  | held hw hx =>
    rw [hheld _ hw] at hx
    exact absurd hx (Multiset.notMem_zero x)
  | queued h =>
    rw [hqueue] at h
    cases h
  | @sent i res h =>
    cases herror : res.error with
    | none => trivial
    | some e => exact absurd ⟨i, res, by simp [herror], .inl h⟩ hfailing
  | @received i res h =>
    cases herror : res.error with
    | none => trivial
    | some e => exact absurd ⟨i, res, by simp [herror], .inr h⟩ hfailing
  | abandoned | completed => trivial

lemma workerSteps_watched (hinv : Inv cfg s) (hworker : s.workers[i]? = some ⟨peer, stage⟩)
    (h : WorkerSteps cfg s i peer stage event stage' t) (hevent : event ≠ .ctxDone)
    (hlast : LastOut (.worker i event) s) (hwatched : s.Watched) :
    (t.setWorker i peer stage').Watched := by
  have hsettled := steps_settled hinv (.worker hworker h)
  have hlt := (List.getElem_of_getElem? hworker).1
  have hother : ∀ {j : Nat} {w : Worker}, j ≠ i → s.workers[j]? = some w → w.stage.Running →
      t.workers = s.workers → (t.setWorker i peer stage').Watched := by
    intro j w hji hget hrunning hworkers
    refine .inl ⟨w, mem_of_getElem? (i := j) ?_, hrunning⟩
    change (t.workers.set i _)[j]? = some w
    rw [hworkers, getElem?_set_ne hji.symm, hget]
  have hrunning : stage'.Running → t.workers = s.workers → (t.setWorker i peer stage').Watched := by
    intro hrunning hworkers
    refine .inl ⟨⟨peer, stage'⟩, ?_, hrunning⟩
    change _ ∈ t.workers.set i _
    rw [hworkers]
    exact mem_set hlt _
  cases h with
  | quit => exact absurd rfl hevent
  | leave hqueue =>
    by_cases hothers : ∃ j w, j ≠ i ∧ s.workers[j]? = some w ∧ w.stage.Running
    · obtain ⟨j, w, hji, hget, hrun⟩ := hothers
      exact hother hji hget hrun rfl
    · have hidle : ∀ j w, j ≠ i → s.workers[j]? = some w → ¬ w.stage.Running :=
        fun j w hji hget hrun => hothers ⟨j, w, hji, hget, hrun⟩
      have hfailing := hlast i peer rfl hworker hqueue hidle
      have hheld := held_of_idle hworker hidle
      exact .inr (.inr (hsettled (settled_of_not_failing hheld hqueue hfailing)))
  | workerDone =>
    rcases hwatched with ⟨w, hw, hrun⟩ | hnone | hsettled'
    · obtain ⟨j, hget⟩ := mem_iff_getElem?.mp hw
      refine hother (fun hji => ?_) hget hrun rfl
      rw [hji, hworker] at hget
      cases hget
      exact hrun
    · rw [hnone] at hlt
      cases hlt
    · exact .inr (.inr (hsettled hsettled'))
  | _ => exact hrunning trivial rfl

lemma steps_watched (hinv : Inv cfg s) (h : Steps cfg s a s') (hctx : ∀ i, a ≠ .worker i .ctxDone)
    (hlast : LastOut a s) (hwatched : s.Watched) : s'.Watched := by
  have hsettled := steps_settled hinv h
  -- a step of `Run` leaves the workers alone
  have hsame : s'.workers = s.workers → s'.Watched := by
    intro hworkers
    rw [State.Watched, hworkers]
    exact hwatched.imp_right (Or.imp_right hsettled)
  cases h with
  | connected hphase => exact .inl ⟨_, mem_append_right _ (mem_singleton_self _), trivial⟩
  | handle hphase hhandles => cases hhandles <;> exact hsame rfl
  | worker hworker hsteps =>
    refine workerSteps_watched hinv hworker hsteps (fun hevent => ?_) hlast hwatched
    exact hctx _ (congrArg _ hevent)
  | _ => exact hsame rfl

/-! ## Why `Run` fails -/

/-- The context is cancelled, a chunk has failed as often as it may, or
every source has missed a chunk. -/
def Cause (cfg : Config τ) (s : State) : Prop :=
  s.cancelled = true ∨
  (∃ p given, cfg.tasks[p]? = some given ∧
    cfg.maxAttempts ≤ given.attempts + s.ghost.failures p ∧ 0 < s.ghost.failures p) ∨
  ∃ p given, cfg.tasks[p]? = some given ∧
    ∀ peer ∈ cfg.sources, peer ∈ given.missedPeers ∪ s.ghost.misses p

/-- Only sources have missed the task, and only sources are asked. -/
def FromSources (cfg : Config τ) (x : Located) : Prop :=
  x.2.missedPeers ⊆ cfg.sources.toFinset ∧
    match x.1 with
    | .fetching peer | .fetched peer _ | .sending peer _ | .sent peer _ | .received peer _ =>
      peer ∈ cfg.sources
    | _ => True

lemma Move.fromSources (h : Move cfg x g y g') (hx : FromSources cfg x) : FromSources cfg y := by
  obtain ⟨hmissed, hpeer⟩ := hx
  cases h with
  | skip | requeue | complete => exact ⟨hmissed, trivial⟩
  | take hmissed' hpeer' => exact ⟨hmissed, hpeer'⟩
  | fetchFailed | fetched | stored | unstored | send | receive => exact ⟨hmissed, hpeer⟩
  | missed | notFound =>
    exact ⟨Finset.insert_subset (mem_toFinset.mpr hpeer) hmissed, trivial⟩
  | retried | failed => exact ⟨hmissed, trivial⟩

/-- What is known of the workers in every run. -/
structure Staffed (s : State) : Prop where
  active : s.activeWorkers = s.alive
  ordered : Ordered s
  started : ∀ rest, s.phase = .starting rest → s.activeWorkers = s.workers.length

lemma staffed_init (cfg : Config τ) (store : Storage) : Staffed (init cfg store) := by
  refine ⟨rfl, fun before i res after h => ?_, fun _ _ => rfl⟩
  exact absurd h.symm (append_ne_nil_of_right_ne_nil _ (cons_ne_nil _ _))

lemma Staffed.step (h : Steps cfg s a s') (hs : Staffed s) : Staffed s' := by
  refine ⟨steps_alive h hs.active, steps_ordered h hs.ordered, fun rest hphase' => ?_⟩
  cases h with
  | connected hphase =>
    have hstarted := hs.started _ hphase
    simp [hstarted]
  | unconnected hphase => exact hs.started _ hphase
  | cancel => exact hs.started rest hphase'
  | handle hphase hhandles => cases hhandles <;> cases hphase'
  | worker hworker hsteps =>
    cases hsteps <;> exact (hs.started rest hphase').trans length_set.symm
  | _ => cases hphase'

lemma card_located (hinv : Inv cfg s) : s.located.card = cfg.tasks.length := by
  have hcard := congrArg Multiset.card hinv.positions
  rwa [Multiset.card_map, Multiset.card_range] at hcard

/-- If no task is in the queue, with a worker, in the channel or with `Run`,
then all are reported. -/
lemma reported_of_empty (hinv : Inv cfg s) (hphase : s.phase = .loop) (hqueue : s.queue = [])
    (hresults : s.results = []) (hheld : ∀ w ∈ s.workers, w.held = 0) :
    s.completions.length = cfg.tasks.length := by
  have hworkers : (s.workers.map Worker.held).sum = 0 := by
    refine sum_eq_zero fun held hmem => ?_
    obtain ⟨w, hw, rfl⟩ := mem_map.mp hmem
    exact hheld w hw
  rw [← card_located hinv, State.located, State.shared, hworkers, hresults, hqueue, hphase]
  simp [Phase.held]

/-- If all workers are gone, the channel is empty and no task needs a
worker, then all tasks are reported. -/
lemma reported_of_settled (hinv : Inv cfg s) (hs : Staffed s) (hphase : s.phase = .loop)
    (hactive : s.activeWorkers = 0) (hsettled : s.Settled) :
    s.completions.length = cfg.tasks.length := by
  have halive : s.alive = 0 := hs.active.symm.trans hactive
  have hqueue : s.queue = [] := by
    refine eq_nil_iff_forall_not_mem.mpr fun task htask => ?_
    exact hsettled _ (mem_located_of_queued htask)
  refine reported_of_empty hinv hphase hqueue (results_eq_nil hs.ordered halive) fun w hw => ?_
  refine held_eq_zero ?_
  rw [gone_of_alive halive hw]
  exact id

/-- A failed chunk is a cause. -/
lemma cause_of_failed (hknown : Known cfg s.ghost task)
    (hfailures : 0 < s.ghost.failures task.position) (hle : cfg.maxAttempts ≤ task.attempts) :
    Cause cfg s := by
  obtain ⟨given, hget, hcontinues⟩ := hknown
  rw [hcontinues.attempts] at hle
  exact .inr (.inl ⟨task.position, given, hget, hle, hfailures⟩)

/-- A chunk that as many peers have missed as there are sources was missed
by them all. -/
lemma cause_of_missed (hknown : Known cfg s.ghost task)
    (hsources : task.missedPeers ⊆ cfg.sources.toFinset)
    (hle : cfg.sources.length ≤ task.missedPeers.card) : Cause cfg s := by
  obtain ⟨given, hget, hcontinues⟩ := hknown
  have hall : task.missedPeers = cfg.sources.toFinset :=
    Finset.eq_of_subset_of_card_le hsources ((toFinset_card_le _).trans hle)
  refine .inr (.inr ⟨task.position, given, hget, fun peer hpeer => ?_⟩)
  rw [← hcontinues.missedPeers, hall]
  exact mem_toFinset.mpr hpeer

/-- What is known in a run in which no worker leaves too early. -/
structure Sound (cfg : Config τ) (s : State) : Prop where
  inv : Inv cfg s
  staffed : Staffed s
  fromSources : ∀ x ∈ s.located, FromSources cfg x
  watched : s.cancelled = true ∨ s.Watched
  excused : ∀ e, s.phase = .returned (some e) → s.workers = [] ∨ Cause cfg s

lemma Sound.excused_step (h : Steps cfg s a s') (hs : Sound cfg s) (hinv' : Inv cfg s')
    (hsources' : ∀ x ∈ s'.located, FromSources cfg x) :
    ∀ e, s'.phase = .returned (some e) → s'.workers = [] ∨ Cause cfg s' := by
  intro e he
  have habandoned : ∀ task : ChunkTask, s'.phase.held = {(Place.abandoned, task)} →
      (Place.abandoned, task) ∈ s'.located :=
    fun _ hheld => mem_located_of_phase (hheld ▸ Multiset.mem_singleton_self _)
  cases h with
  | connected | unconnected | startLoop | receive | complete => cases he
  | noActiveWorkers hphase hactive =>
    exact .inl (eq_nil_of_length_eq_zero ((hs.staffed.started _ hphase).symm.trans hactive))
  | ctxDone hphase hlooping hcancelled => exact .inr (.inl hcancelled)
  | cancel => exact .inr (.inl rfl)
  | allWorkersDied hphase hactive hpending =>
    rcases hs.watched with hcancelled | ⟨w, hw, hrunning⟩ | hnone | hsettled
    · exact .inr (.inl hcancelled)
    · have halive : s.alive = 0 := hs.staffed.active.symm.trans hactive
      rw [gone_of_alive halive hw] at hrunning
      exact absurd hrunning id
    · exact .inl hnone
    · have hreported := reported_of_settled hs.inv hs.staffed hphase hactive hsettled
      have hcounts := hs.inv.counts
      rw [hphase] at hcounts
      have hsum : s.pendingTasks + s.completions.length = cfg.tasks.length := hcounts
      omega
  | handle hphase hhandles =>
    cases hhandles with
    | workerDone | completed | missed | retried => cases he
    | @notFound worker task peer hle =>
      have hmem := habandoned _ rfl
      exact .inr (cause_of_missed (hinv'.tasks _ hmem).1 (hsources' _ hmem).1 hle)
    | @failed worker task e peer hne hle =>
      have hmem := habandoned _ rfl
      refine .inr (cause_of_failed (hinv'.tasks _ hmem).1 ?_ hle)
      change 0 < Function.update s.ghost.failures task.position _ task.position
      rw [Function.update_self]
      exact Nat.succ_pos _
  | worker hworker hsteps =>
    have hcause : Cause cfg s := by
      have hphase : s.phase = .returned (some e) := by
        cases hsteps <;> exact he
      refine (hs.excused e hphase).resolve_left fun hnone => ?_
      rw [hnone] at hworker
      cases hworker
    cases hsteps <;> exact .inr hcause

lemma sound_init (store : Storage)
    (hmissed : ∀ task ∈ cfg.tasks, task.missedPeers ⊆ cfg.sources.toFinset) :
    Sound cfg (init cfg store) := by
  refine ⟨inv_init .., staffed_init .., ?_, .inr (.inr (.inl rfl)), fun _ h => by cases h⟩
  rw [located_init]
  intro x hx
  obtain ⟨task, htask, rfl⟩ := Multiset.mem_map.mp hx
  obtain ⟨i, hi, rfl⟩ := mem_mapIdx.mp htask
  have hgiven := hmissed _[i] (getElem_mem hi)
  exact ⟨hgiven, trivial⟩

lemma steps_cancelled (h : Steps cfg s a s') (hcancelled : s.cancelled = true) :
    s'.cancelled = true := by
  cases h with
  | cancel => rfl
  | handle hphase hhandles => cases hhandles <;> exact hcancelled
  | worker hworker hsteps => cases hsteps <;> exact hcancelled
  | _ => exact hcancelled

lemma Sound.step (h : Steps cfg s a s') (hlast : LastOut a s) (hs : Sound cfg s) :
    Sound cfg s' := by
  have hinv' := hs.inv.step h
  have hsources' := hs.inv.forall_located h Move.fromSources hs.fromSources
  refine ⟨hinv', hs.staffed.step h, hsources', ?_, hs.excused_step h hinv' hsources'⟩
  by_cases hctx : ∃ i, a = .worker i .ctxDone
  · -- a worker that finds the context done
    obtain ⟨i, rfl⟩ := hctx
    cases h with
    | worker hworker hsteps =>
      cases hsteps with
      | quit hcancelled => exact .inl hcancelled
  · exact hs.watched.imp (steps_cancelled h) (steps_watched hs.inv h (not_exists.mp hctx) hlast)

/-- In every run in which no worker leaves as the last one while a failed
task is on its way back: if `Run`, with a worker started, returns an error,
then the context was cancelled, a chunk failed as often as it may, or every
source missed a chunk. -/
theorem scheduler_fails_for_cause {store : Storage} {s : State} {e : RunError}
    (hmissed : ∀ task ∈ cfg.tasks, task.missedPeers ⊆ cfg.sources.toFinset)
    (hrun : Run (step cfg) LastOut (init cfg store) s) (hworkers : s.workers ≠ [])
    (herror : s.phase = .returned (some e)) : Cause cfg s := by
  have hsound : Sound cfg s :=
    hrun.inv (sound_init store hmissed) fun _ _ _ hlast hstep hs =>
      hs.step (steps_of_step hstep) hlast
  exact (hsound.excused e herror).resolve_left hworkers

/-- Only a worker that goes on can be the last to leave. -/
lemma lastOut_of_ne (h : ∀ i, a ≠ .worker i .proceed) (s : State) : LastOut a s :=
  fun i _ ha => absurd ha (h i)

lemma lastOut_of_busy (hworker : s.workers[i]? = some w) (h : w.stage = .next → s.queue ≠ []) :
    LastOut (.worker i .proceed) s := by
  rintro j peer ⟨⟩ hget hqueue
  rw [hworker] at hget
  cases hget
  exact absurd hqueue (h rfl)

/-- The only source misses the chunk. -/
theorem scheduler_fails_for_cause_missed : ∃ s e,
    Run (step (oneTask [[1]])) LastOut (init (oneTask [[1]]) ⟨fun _ => none⟩) s ∧
      s.phase = .returned (some e) ∧ Cause (oneTask [[1]]) s := by
  have hok : ∀ as : List Action, (∀ i, Action.worker i .proceed ∉ as) →
      ∀ a ∈ as, ∀ s, LastOut a s :=
    fun as has a ha => lastOut_of_ne fun i hi => has i (hi ▸ ha)
  have hexec : execute (step (oneTask [[1]])) [.connect true, .startLoop]
      (init (oneTask [[1]]) ⟨fun _ => none⟩) = some _ := rfl
  have hrun₁ := Run.refl.execute (hok _ (by simp)) hexec
  have hrun₂ := hrun₁.tail (a := .worker 0 .proceed)
    (lastOut_of_busy rfl fun _ => cons_ne_nil _ _) rfl
  have hrun₃ := hrun₂.execute (hok
    [.worker 0 (.exchanged (.answered (buildError errChunkNotFound []) true))] (by simp)) rfl
  have hrun₄ := hrun₃.tail (a := .worker 0 .proceed) (lastOut_of_busy rfl (by nofun)) rfl
  have hrun := hrun₄.execute (hok [.receive, .handle] (by simp)) rfl
  exact ⟨_, _, hrun, rfl, scheduler_fails_for_cause (by simp [oneTask]) hrun (cons_ne_nil _ _) rfl⟩

/-- A worker is told nothing by the only source, and leaves before `Run` has
put the task back: `Run` gives up after one attempt of three. -/
theorem scheduler_gives_up : ∃ s, execute (step (oneTask [[1]]))
        [.connect true, .startLoop, .worker 0 .proceed, .worker 0 (.exchanged .unread),
          .worker 0 .proceed, .worker 0 .proceed, .worker 0 .proceed, .receive, .handle, .receive,
          .handle, .exit] (init (oneTask [[1]]) ⟨fun _ => none⟩) = some s ∧
      s.workers ≠ [] ∧ s.phase = .returned (some (.allWorkersDied 1)) ∧ s.cancelled = false ∧
      s.ghost.failures 0 = 1 ∧ s.ghost.misses 0 = ∅ ∧ ¬ Cause (oneTask [[1]]) s := by
  refine ⟨_, rfl, cons_ne_nil _ _, rfl, rfl, rfl, rfl, ?_⟩
  have hgiven : ∀ {p : Nat} {given : ChunkTask}, (oneTask [[1]]).tasks[p]? = some given →
      p = 0 ∧ given = ⟨0, 0, wantedId, 0, ∅⟩ := by
    intro p given hget
    cases p with
    | zero =>
      cases hget
      exact ⟨rfl, rfl⟩
    | succ p => cases hget
  rintro (h | ⟨p, given, hget, hle, -⟩ | ⟨p, given, hget, hall⟩)
  · cases h
  · obtain ⟨rfl, rfl⟩ := hgiven hget
    exact absurd hle (by decide)
  · obtain ⟨rfl, rfl⟩ := hgiven hget
    exact absurd (hall [1] (mem_singleton_self _)) (by decide)

end Cipher.Scheduler
