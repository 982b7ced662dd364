import Cipher.SchedulerWorkers

/-!
# When the scheduler comes to an end

A worker puts back a task that its source has missed, for another worker to
take. There need not be one: `Run` gives up on a chunk when as many peers
have missed it as there are sources, but a source it could not connect to
has no worker, one that is listed twice is only one peer, and a worker that
has left does not come back. Those that remain then take the task and put it
back forever (`Spins`).

If all sources are there, and a worker leaves only when no task needs its
source any more (`Orderly`), then each task in the queue has a worker to
take it, and `Run` returns unless workers go on taking tasks that their own
source has missed (`Direct`). There are only so many exchanges in any case.
-/

namespace Cipher.Scheduler

open Bytes Binary Go Content ChunkProtocol Transition Tokens List

variable {τ : Type} {cfg : Config τ}

/-! ## How many exchanges there are -/

/-- How often the task may still be put back. -/
def Config.patience (cfg : Config τ) (task : ChunkTask) : Nat :=
  (cfg.maxAttempts - task.attempts).toNat + (cfg.sources.length - task.missedPeers.card)

variable {task : ChunkTask} {peer : PeerID}

lemma patience_fail (hlt : task.fail.attempts < cfg.maxAttempts) :
    cfg.patience task.fail + 1 = cfg.patience task := by
  change task.attempts + 1 < cfg.maxAttempts at hlt
  change (cfg.maxAttempts - (task.attempts + 1)).toNat +
    (cfg.sources.length - task.missedPeers.card) + 1 = cfg.patience task
  rw [Config.patience]
  omega

lemma patience_miss (hpeer : peer ∉ task.missedPeers)
    (hlt : (task.miss peer).missedPeers.card < cfg.sources.length) :
    cfg.patience (task.miss peer) + 1 = cfg.patience task := by
  have hcard : (task.miss peer).missedPeers.card = task.missedPeers.card + 1 :=
    Finset.card_insert_of_notMem hpeer
  rw [Config.patience, Config.patience]
  change (cfg.maxAttempts - task.attempts).toNat + _ + 1 = _
  omega

/-- Only sources are asked that have not missed the task. -/
def Asked (cfg : Config τ) (x : Located) : Prop :=
  match x.1 with
  | .fetching peer | .fetched peer _ | .sending peer _ | .sent peer _ | .received peer _ =>
    peer ∈ cfg.sources ∧ peer ∉ x.2.missedPeers
  | _ => True

variable {x : Located} {s : State}

lemma Move.asked (h : Move cfg x g y g') (hx : Asked cfg x) : Asked cfg y := by
  cases h with
  | take hmissed hpeer => exact ⟨hpeer, hmissed⟩
  | fetchFailed | fetched | stored | unstored | send | receive => exact hx
  | _ => trivial

/-- How many exchanges a task may still come to. -/
def Config.exchanges (cfg : Config τ) (x : Located) : Nat :=
  match x.1 with
  | .queued | .skipped _ | .fetching _ => cfg.patience x.2 + 1
  | .fetched _ _ | .sending _ _ | .sent _ _ | .received _ _ => cfg.patience x.2
  | .completed _ | .abandoned => 0

lemma Move.exchanges (h : Move cfg x g y g') (hx : Asked cfg x) :
    cfg.exchanges y + g'.fetches ≤ cfg.exchanges x + g.fetches := by
  cases h with
  | skip | requeue | take | stored | unstored | send | receive => exact le_rfl
  | @fetchFailed task _ g | @fetched task _ g =>
    change cfg.patience task + (g.fetches + 1) ≤ cfg.patience task + 1 + g.fetches
    omega
  | complete | notFound | failed => exact Nat.add_le_add_right (Nat.zero_le _) _
  | missed g hlt => exact Nat.add_le_add_right (patience_miss hx.2 hlt).le _
  | retried peer g he hlt => exact Nat.add_le_add_right (patience_fail hlt).le _

/-- Where a task is in the list makes no difference. -/
lemma map_numbered (f : ChunkTask → β)
    (hf : ∀ (task : ChunkTask) (i : Nat), f { task with position := i } = f task)
    (tasks : List ChunkTask) : (numbered tasks).map f = tasks.map f := by
  refine ext_getElem (by simp [numbered]) fun i hi _ => ?_
  simp [numbered, hf]

lemma asked_init (cfg : Config τ) (store : Storage) :
    ∀ x ∈ (init cfg store).located, Asked cfg x := by
  rw [located_init]
  intro x hx
  obtain ⟨task, htask, rfl⟩ := Multiset.mem_map.mp hx
  trivial

lemma exchanges_of_run (hrun : Run (step cfg) ok (init cfg store) s) :
    (∀ x ∈ s.located, Asked cfg x) ∧ (s.located.map cfg.exchanges).sum + s.ghost.fetches ≤
      (cfg.tasks.map fun task => cfg.patience task + 1).sum := by
  induction hrun with
  | refl =>
    refine ⟨asked_init cfg store, ?_⟩
    rw [located_init, Multiset.map_map]
    exact (congrArg List.sum (map_numbered _ (fun _ _ => rfl) _)).le
  | tail hr hok hstep ih =>
    have hinv := inv_of_run hr
    have hsteps := steps_of_step hstep
    have hle := (steps_moved hinv.workers hsteps).sum_le cfg.exchanges _
      fun x y hx hmove => hmove.exchanges (ih.1 x hx)
    exact ⟨hinv.forall_located hsteps Move.asked ih.1, hle.trans ih.2⟩

/-! ## A worker for every task -/

/-- `Run` has started the workers and has not returned. -/
def Phase.Started : Phase → Prop
  | .loop | .handling _ => True
  | .starting _ | .returned _ => False

/-- The task does not need the source: it needs no worker any more, or the
source has missed it, whether `Run` knows of it or not. -/
def Spares (peer : PeerID) (x : Located) : Prop :=
  x.1.Settled ∨ peer ∈ x.2.missedPeers ∨
    x.1 = .sent peer (some .remoteNotFound) ∨ x.1 = .received peer (some .remoteNotFound)

/-- All sources can be connected to, and a worker leaves only when no task
needs its source. -/
structure Orderly (a : Action) (s : State) : Prop where
  connect : a ≠ .connect false
  leave : ∀ i peer, a = .worker i .proceed → s.workers[i]? = some ⟨peer, .next⟩ →
    s.queue = [] → ∀ x ∈ s.located, Spares peer x
  quit : ∀ i peer stage, a = .worker i .ctxDone → s.workers[i]? = some ⟨peer, stage⟩ →
    ∀ x ∈ s.located, Spares peer x

/-- No worker takes a task that its source has missed. -/
def Direct (a : Action) (s : State) : Prop :=
  ∀ i peer task queue, a = .worker i .proceed → s.workers[i]? = some ⟨peer, .next⟩ →
    s.queue = task :: queue → peer ∉ task.missedPeers

lemma Move.spares (h : Move cfg x g y g') (hx : Spares peer x) : Spares peer y := by
  rcases hx with hsettled | hmissed | hsent | hreceived
  · exact .inl (h.settled hsettled)
  · cases h with
    | missed | notFound => exact .inr (.inl (Finset.mem_insert_of_mem hmissed))
    | _ => exact .inr (.inl hmissed)
  · cases h with
    | receive =>
      cases hsent
      exact .inr (.inr (.inr rfl))
    | _ => cases hsent
  · cases h with cases hreceived
    | missed | notFound => exact .inr (.inl (Finset.mem_insert_self _ _))
    | retried peer' g he | failed peer' g he => exact absurd rfl he

variable {a : Action} {s' : State}

/-- A worker of the source does not run any more, or no task needs it. -/
def Excused (s : State) (peer : PeerID) : Prop :=
  (∃ v ∈ s.workers, ¬ v.stage.Running ∧ v.peer = peer) ∨ ∀ x ∈ s.located, Spares peer x

/-- A worker that does not run did not run before, or is leaving now. -/
lemma steps_left (h : Steps cfg s a s') (hok : Orderly a s) :
    ∀ w ∈ s'.workers, ¬ w.stage.Running → Excused s w.peer := by
  have hsame : ∀ w ∈ s.workers, ¬ w.stage.Running → Excused s w.peer :=
    fun w hw hstage => .inl ⟨w, hw, hstage, rfl⟩
  cases h with
  | connected =>
    intro w hw hstage
    rcases mem_append.mp hw with hold | hnew
    · exact hsame w hold hstage
    · obtain rfl := mem_singleton.mp hnew
      exact absurd trivial hstage
  | handle hphase hhandles => cases hhandles <;> exact hsame
  | @worker i peer stage stage' event t hworker hsteps =>
    have hset (hnew : ¬ stage'.Running → Excused s peer) :
        ∀ w ∈ s.workers.set i ⟨peer, stage'⟩, ¬ w.stage.Running → Excused s w.peer := by
      intro w hw hstage
      rcases mem_or_eq_of_mem_set hw with hold | rfl
      · exact hsame w hold hstage
      · exact hnew hstage
    cases hsteps with
    | leave hqueue => exact hset fun _ => .inr (hok.leave i peer rfl hworker hqueue)
    | quit => exact hset fun _ => .inr (hok.quit i peer _ rfl hworker)
    | workerDone => exact hset fun _ => .inl ⟨_, mem_of_getElem? hworker, id, rfl⟩
    | _ => exact hset fun hidle => absurd trivial hidle
  | _ => exact hsame

/-- A task in the queue has a source that has not missed it. -/
def Fetchable (cfg : Config τ) (x : Located) : Prop :=
  Asked cfg x ∧
    match x.1 with
    | .queued | .skipped _ => cfg.sources ≠ [] → ∃ peer ∈ cfg.sources, peer ∉ x.2.missedPeers
    | _ => True

lemma Move.fetchable (hsources : cfg.sources.Nodup) (h : Move cfg x g y g')
    (hx : Fetchable cfg x) : Fetchable cfg y := by
  refine ⟨h.asked hx.1, ?_⟩
  cases h with
  | skip | requeue => exact hx.2
  | @missed task peer g hlt =>
    -- fewer peers have missed it than there are sources
    intro _
    rw [← toFinset_card_of_nodup hsources] at hlt
    obtain ⟨other, hmem, hmissed⟩ := Finset.exists_mem_notMem_of_card_lt_card hlt
    exact ⟨other, mem_toFinset.mp hmem, hmissed⟩
  | retried peer => exact fun _ => ⟨peer, hx.1⟩
  | _ => trivial

/-- What is known in an orderly run. -/
structure Ready (cfg : Config τ) (s : State) : Prop where
  inv : Inv cfg s
  staffed : Staffed s
  started : ∀ peer ∈ cfg.sources, peer ∈ s.phase.unstarted ∨ ∃ w ∈ s.workers, w.peer = peer
  manned : s.phase.Started → s.workers ≠ []
  spared : ∀ w ∈ s.workers, ¬ w.stage.Running → ∀ x ∈ s.located, Spares w.peer x
  fetchable : ∀ x ∈ s.located, Fetchable cfg x

lemma ready_init (store : Storage) (htasks : ∀ task ∈ cfg.tasks, cfg.sources ≠ [] →
      ∃ peer ∈ cfg.sources, peer ∉ task.missedPeers) : Ready cfg (init cfg store) := by
  refine ⟨inv_init .., staffed_init .., fun _ hpeer => .inl hpeer, False.elim,
    fun _ hw => absurd hw not_mem_nil, ?_⟩
  rw [located_init]
  intro x hx
  obtain ⟨task, htask, rfl⟩ := Multiset.mem_map.mp hx
  obtain ⟨i, hi, rfl⟩ := mem_mapIdx.mp htask
  have hgiven := htasks _[i] (getElem_mem hi)
  exact ⟨trivial, hgiven⟩

lemma steps_started (h : Steps cfg s a s') (hconnect : a ≠ .connect false)
    (hs : ∀ peer ∈ cfg.sources, peer ∈ s.phase.unstarted ∨ ∃ w ∈ s.workers, w.peer = peer) :
    ∀ peer ∈ cfg.sources, peer ∈ s'.phase.unstarted ∨ ∃ w ∈ s'.workers, w.peer = peer := by
  intro peer hpeer
  have hold := hs peer hpeer
  cases h with
  | connected hphase =>
    rw [hphase] at hold
    rcases hold with hunstarted | ⟨w, hw, rfl⟩
    · rcases mem_cons.mp hunstarted with rfl | hrest
      · exact .inr ⟨_, mem_append_right _ (mem_singleton_self _), rfl⟩
      · exact .inl hrest
    · exact .inr ⟨w, mem_append_left _ hw, rfl⟩
  | unconnected => exact absurd rfl hconnect
  | noActiveWorkers hphase | startLoop hphase | receive hphase | ctxDone hphase
  | allWorkersDied hphase | complete hphase =>
    rw [hphase] at hold
    exact hold
  | cancel => exact hold
  | handle hphase hhandles =>
    rw [hphase] at hold
    cases hhandles <;> exact hold
  | @worker i other stage stage' event t hworker hsteps =>
    have hset : (∃ w ∈ s.workers, w.peer = peer) →
        ∃ w ∈ s.workers.set i ⟨other, stage'⟩, w.peer = peer := by
      rintro ⟨w, hw, rfl⟩
      obtain ⟨j, hget⟩ := mem_iff_getElem?.mp hw
      by_cases hij : i = j
      · subst hij
        rw [hworker] at hget
        cases hget
        exact ⟨_, mem_set (List.getElem_of_getElem? hworker).1 _, rfl⟩
      · exact ⟨w, mem_of_getElem? ((getElem?_set_ne hij).trans hget), rfl⟩
    cases hsteps <;> exact hold.imp_right hset

lemma steps_manned (h : Steps cfg s a s') (hstaffed : Staffed s)
    (hs : s.phase.Started → s.workers ≠ []) : s'.phase.Started → s'.workers ≠ [] := by
  cases h with
  | startLoop hphase hactive =>
    intro _ hnone
    refine hactive ((hstaffed.started _ hphase).trans ?_)
    exact congrArg List.length hnone
  | receive hphase =>
    rw [hphase] at hs
    exact hs
  | cancel => exact hs
  | handle hphase hhandles =>
    rw [hphase] at hs
    cases hhandles <;> exact fun _ => hs trivial
  | worker hworker hsteps =>
    have hset : ∀ {i : Nat} {w : Worker}, s.workers ≠ [] → s.workers.set i w ≠ [] :=
      fun hne hnil => hne (by simpa using hnil)
    cases hsteps <;> exact fun hstarted => hset (hs hstarted)
  | _ => exact False.elim

lemma Ready.step (hsources : cfg.sources.Nodup) (h : Steps cfg s a s') (hok : Orderly a s)
    (hs : Ready cfg s) : Ready cfg s' := by
  refine ⟨hs.inv.step h, hs.staffed.step h, steps_started h hok.connect hs.started,
    steps_manned h hs.staffed hs.manned, fun w hw hstage => ?_, ?_⟩
  · refine hs.inv.forall_located h Move.spares ?_
    rcases steps_left h hok w hw hstage with ⟨v, hv, hidle, hpeer⟩ | hspares
    · rw [← hpeer]
      exact hs.spared v hv hidle
    · exact hspares
  · exact hs.inv.forall_located h (Move.fetchable hsources) hs.fetchable

lemma Ready.attended (hs : Ready cfg s) (hphase : s.phase.Started) (htask : task ∈ s.queue) :
    ∃ w ∈ s.workers, w.stage.Running ∧ w.peer ∉ task.missedPeers := by
  have hlocated := mem_located_of_queued htask
  have hsources : cfg.sources ≠ [] := by
    obtain ⟨w, hw⟩ := exists_mem_of_ne_nil _ (hs.manned hphase)
    exact ne_nil_of_mem (hs.inv.workers w hw)
  have hunstarted : s.phase.unstarted = [] := by
    cases hcase : s.phase with
    | loop | handling | returned => rfl
    | starting =>
      rw [hcase] at hphase
      exact absurd hphase id
  obtain ⟨peer, hpeer, hmissed⟩ := (hs.fetchable _ hlocated).2 hsources
  rcases hs.started peer hpeer with hrest | ⟨w, hw, rfl⟩
  · rw [hunstarted] at hrest
    cases hrest
  · refine ⟨w, hw, ?_, hmissed⟩
    -- it would have left while the task needed its source
    by_contra hidle
    rcases hs.spared w hw hidle _ hlocated with hsettled | hmem | hsent | hreceived
    · exact hsettled
    · exact hmissed hmem
    · cases hsent
    · cases hreceived

/-! ## There is always something to do -/

variable {i : Nat} {stage : Stage}

/-- A worker that has something to do. -/
lemma orderly_of_busy (hworker : s.workers[i]? = some ⟨peer, stage⟩) (hevent : event ≠ .ctxDone)
    (hnext : stage = .next → ∃ task queue, s.queue = task :: queue ∧ peer ∉ task.missedPeers) :
    Orderly (.worker i event) s ∧ Direct (.worker i event) s := by
  refine ⟨⟨Action.noConfusion, ?_, ?_⟩, ?_⟩
  · rintro j other ⟨⟩ hget hqueue
    rw [hworker] at hget
    cases hget
    obtain ⟨task, queue, hqueue', -⟩ := hnext rfl
    rw [hqueue] at hqueue'
    cases hqueue'
  · rintro j other stage' ⟨⟩ hget
    exact absurd rfl hevent
  · rintro j other task queue ⟨⟩ hget hqueue
    rw [hworker] at hget
    cases hget
    obtain ⟨task', queue', hqueue', hmissed⟩ := hnext rfl
    rw [hqueue] at hqueue'
    cases hqueue'
    exact hmissed

lemma worker_enabled (hworker : s.workers[i]? = some w) (hrunning : w.stage.Running)
    (hroom : s.room cfg = true) (hnext : w.stage = .next → ∃ task queue, s.queue = task :: queue ∧
      w.peer ∉ task.missedPeers) : ∃ a s', (Orderly a s ∧ Direct a s) ∧ step cfg a s = some s' := by
  obtain ⟨peer, stage⟩ := w
  -- it is enough that `runWorker` goes on
  have henabled : ∀ event s', event ≠ .ctxDone → runWorker cfg s i peer stage event = some s' →
      ∃ a s', (Orderly a s ∧ Direct a s) ∧ step cfg a s = some s' := by
    intro event s' hevent hrun
    refine ⟨.worker .., s', orderly_of_busy hworker hevent hnext, ?_⟩
    rw [step, hworker]
    exact hrun
  cases stage with
  | leaving | gone => exact absurd hrunning id
  | requeue | yielding => exact henabled .proceed _ Event.noConfusion rfl
  | fetching task => exact henabled (.exchanged .unsent) _ Event.noConfusion rfl
  | storing => exact henabled (.stored true) _ Event.noConfusion rfl
  | sending => exact henabled .proceed _ Event.noConfusion (if_pos hroom)
  | next =>
    obtain ⟨task, queue, hqueue, hmissed⟩ := hnext rfl
    have hrun : runWorker cfg s i peer .next .proceed =
        some (State.setWorker { s with queue } i peer (.fetching task)) := by
      rw [runWorker, hqueue]
      exact if_neg hmissed
    exact henabled .proceed _ Event.noConfusion hrun

/-- If nothing is in the channel or with `Run`, and not all tasks are
reported, then one is in the queue or with a worker. -/
lemma held_or_queued (hinv : Inv cfg s) (hphase : s.phase = .loop) (hresults : s.results = [])
    (hpending : 0 < s.pendingTasks) : s.queue ≠ [] ∨ ∃ w ∈ s.workers, w.held ≠ 0 := by
  by_contra hnone
  rw [not_or, not_not, not_exists] at hnone
  obtain ⟨hqueue, hheld⟩ := hnone
  have hreported := reported_of_empty hinv hphase hqueue hresults fun w hw =>
    not_not.mp fun hne => hheld w ⟨hw, hne⟩
  have hcounts := hinv.counts
  rw [hphase] at hcounts
  change s.pendingTasks + s.completions.length = cfg.tasks.length at hcounts
  omega

lemma running_of_held {w : Worker} (h : w.held ≠ 0) : w.stage.Running ∧ w.stage ≠ .next := by
  obtain ⟨peer, stage⟩ := w
  cases stage with
  | next | yielding | leaving | gone => exact absurd rfl h
  | requeue | fetching | storing | sending => exact ⟨trivial, Stage.noConfusion⟩

lemma enabled_of_waiting (hs : Ready cfg s) (hphase : s.phase = .loop) (hresults : s.results = [])
    (hpending : 0 < s.pendingTasks) :
    ∃ a s', (Orderly a s ∧ Direct a s) ∧ step cfg a s = some s' := by
  have hstarted : s.phase.Started := by
    rw [hphase]
    trivial
  have hroom : s.room cfg = true := by
    obtain ⟨w, hw⟩ := exists_mem_of_ne_nil _ (hs.manned hstarted)
    have hpos := length_pos_of_mem (hs.inv.workers w hw)
    rw [State.room, hresults]
    exact decide_eq_true (Nat.mul_pos hpos Nat.two_pos)
  cases hqueue : s.queue with
  | nil =>
    -- some worker is busy, as nothing is anywhere else
    obtain hne | ⟨w, hw, hheld⟩ := held_or_queued hs.inv hphase hresults hpending
    · exact absurd hqueue hne
    · obtain ⟨i, hget⟩ := mem_iff_getElem?.mp hw
      obtain ⟨hrunning, hstage⟩ := running_of_held hheld
      exact worker_enabled hget hrunning hroom fun hnext => absurd hnext hstage
  | cons task queue =>
    have htask : task ∈ s.queue := hqueue ▸ mem_cons_self
    obtain ⟨w, hw, hrunning, hmissed⟩ := hs.attended hstarted htask
    obtain ⟨i, hget⟩ := mem_iff_getElem?.mp hw
    exact worker_enabled hget hrunning hroom fun _ => ⟨task, queue, hqueue, hmissed⟩

section

variable (hconnect : a ≠ .connect false) (hworker : ∀ i event, a ≠ .worker i event)

include hconnect hworker

/-- A step of `Run`. -/
lemma orderly_of_ne (s : State) : Orderly a s ∧ Direct a s := by
  refine ⟨⟨hconnect, ?_, ?_⟩, ?_⟩
  · exact fun i _ ha => absurd ha (hworker i _)
  · exact fun i _ _ ha => absurd ha (hworker i _)
  · exact fun i _ _ _ ha => absurd ha (hworker i _)

lemma enabled_of_isSome (h : (step cfg a s).isSome) :
    ∃ a s', (Orderly a s ∧ Direct a s) ∧ step cfg a s = some s' := by
  obtain ⟨s', hstep⟩ := Option.isSome_iff_exists.mp h
  exact ⟨a, s', orderly_of_ne hconnect hworker s, hstep⟩

end

lemma enabled_of_ready (hs : Ready cfg s) (hreturned : ¬ ∃ e, s.phase = .returned e) :
    ∃ a s', (Orderly a s ∧ Direct a s) ∧ step cfg a s = some s' := by
  cases hphase : s.phase with
  | returned e => exact absurd ⟨e, hphase⟩ hreturned
  | handling signal =>
    refine enabled_of_isSome (a := .handle) (by simp) (by simp) ?_
    rw [step, hphase]
    rfl
  | starting sources =>
    cases sources with
    | nil =>
      refine enabled_of_isSome (a := .startLoop) (by simp) (by simp) ?_
      rw [step, hphase]
      dsimp only
      split <;> rfl
    | cons peer rest =>
      refine enabled_of_isSome (a := .connect true) (by simp) (by simp) ?_
      rw [step, hphase]
      rfl
  | loop =>
    by_cases hlooping : s.looping = true
    · cases hresults : s.results with
      | nil =>
        have hpending := of_decide_eq_true (Bool.and_eq_true_iff.mp hlooping).1
        exact enabled_of_waiting hs hphase hresults hpending
      | cons signal results =>
        refine enabled_of_isSome (a := .receive) (by simp) (by simp) ?_
        rw [step, hphase, hresults]
        dsimp only
        rw [if_pos hlooping]
        rfl
    · refine enabled_of_isSome (a := .exit) (by simp) (by simp) ?_
      rw [step, hphase]
      dsimp only
      rw [if_neg hlooping]
      split <;> rfl

/-! ## Nothing goes on forever

Every step lowers the weight but one in which a worker takes a task that its
source has missed. A task weighs six for each time it may still be put back,
and loses one on each station of the way round. -/

section

variable (cfg : Config τ)

def Stage.weight : Stage → Nat
  | .next => 4
  | .requeue task => 6 * cfg.patience task + 12
  | .yielding => 5
  | .fetching task => 6 * cfg.patience task + 9
  | .storing task _ => 6 * cfg.patience task + 8
  | .sending task _ => 6 * cfg.patience task + 7
  | .leaving => 3
  | .gone => 0

def Signal.weight : Signal → Nat
  | .result _ res => 6 * cfg.patience res.task + 2
  | .workerDone _ => 2

def Phase.weight : Phase → Nat
  | .starting sources => 5 * sources.length + 2
  | .loop => 1
  | .handling signal => signal.weight cfg
  | .returned _ => 0

/-- The weight of what is in the queue and in the channel. -/
def State.waiting (s : State) : Nat :=
  (s.queue.map fun task => 6 * cfg.patience task + 6).sum + (s.results.map (Signal.weight cfg)).sum

def State.weight (s : State) : Nat :=
  (s.workers.map fun w => w.stage.weight cfg).sum + s.waiting cfg + s.phase.weight cfg +
    if s.cancelled then 0 else 1

lemma waiting_push (s : State) (task : ChunkTask) :
    State.waiting cfg { s with queue := s.queue ++ [task] } =
      s.waiting cfg + (6 * cfg.patience task + 6) := by
  simp only [State.waiting, map_append, sum_append, map_singleton, sum_singleton]
  omega

end

lemma waiting_pop (hqueue : s.queue = task :: queue) :
    s.waiting cfg = State.waiting cfg { s with queue } + (6 * cfg.patience task + 6) := by
  simp only [State.waiting, hqueue, map_cons, sum_cons]
  omega

lemma waiting_send (cfg : Config τ) (s : State) (signal : Signal) :
    State.waiting cfg { s with results := s.results ++ [signal] } =
      s.waiting cfg + signal.weight cfg := by
  simp only [State.waiting, map_append, sum_append, map_singleton, sum_singleton]
  omega

lemma waiting_receive (hresults : s.results = signal :: results) :
    s.waiting cfg = State.waiting cfg { s with results } + signal.weight cfg := by
  simp only [State.waiting, hresults, map_cons, sum_cons]
  omega

lemma weight_setWorker {t : State} {stage' : Stage} (hworker : s.workers[i]? = some ⟨peer, stage⟩)
    (hworkers : t.workers = s.workers) (hphase : t.phase = s.phase)
    (hcancelled : t.cancelled = s.cancelled)
    (h : stage'.weight cfg + t.waiting cfg < stage.weight cfg + s.waiting cfg) :
    (t.setWorker i peer stage').weight cfg < s.weight cfg := by
  obtain ⟨rest, hsum, hset⟩ := sum_map_set (fun w : Worker => w.stage.weight cfg) hworker
  have hafter : (t.setWorker i peer stage').weight cfg =
      stage'.weight cfg + rest + t.waiting cfg + t.phase.weight cfg +
        if t.cancelled then 0 else 1 := by
    change ((t.workers.set i ⟨peer, stage'⟩).map _).sum + _ + _ + _ = _
    rw [hworkers, hset]
    rfl
  rw [hafter, State.weight, hsum, hphase, hcancelled]
  dsimp only
  omega

lemma workerSteps_weight (hworker : s.workers[i]? = some ⟨peer, stage⟩)
    (h : WorkerSteps cfg s i peer stage event stage' t) (hdirect : Direct (.worker i event) s) :
    (t.setWorker i peer stage').weight cfg < s.weight cfg := by
  cases h with
  | leave | wake | quit | fetchFailed | fetched | stored | unstored =>
    refine weight_setWorker hworker rfl rfl rfl (Nat.add_lt_add_right ?_ _)
    simp [Stage.weight]
  | skip hqueue hmissed => exact absurd hmissed (hdirect i peer _ _ rfl hworker hqueue)
  | take hqueue hmissed =>
    refine weight_setWorker hworker rfl rfl rfl ?_
    rw [waiting_pop hqueue]
    simp only [Stage.weight]
    omega
  | requeue task =>
    refine weight_setWorker hworker rfl rfl rfl ?_
    rw [waiting_push]
    simp only [Stage.weight]
    omega
  | send task error =>
    refine weight_setWorker hworker rfl rfl rfl ?_
    rw [waiting_send]
    simp only [Stage.weight, Signal.weight]
    omega
  | workerDone =>
    refine weight_setWorker hworker rfl rfl rfl ?_
    rw [waiting_send]
    simp only [Stage.weight, Signal.weight]
    omega

/-- A step of `Run` that leaves the workers alone. -/
lemma weight_lt (hworkers : s'.workers = s.workers) (hcancelled : s'.cancelled = s.cancelled)
    (h : s'.waiting cfg + s'.phase.weight cfg < s.waiting cfg + s.phase.weight cfg) :
    s'.weight cfg < s.weight cfg := by
  rw [State.weight, State.weight, hworkers, hcancelled]
  omega

lemma handles_weight (hphase : s.phase = .handling signal)
    (h : Handles cfg s signal s') (hasked : ∀ x ∈ s.phase.held, Asked cfg x) :
    s'.weight cfg < s.weight cfg := by
  cases h with
  | workerDone | completed | notFound | failed =>
    refine weight_lt rfl rfl (Nat.add_lt_add_left ?_ _)
    rw [hphase]
    simp [Phase.weight, Signal.weight]
  | @missed worker task peer hlt =>
    have hmem : (Place.received peer (some .remoteNotFound), task) ∈ s.phase.held := by
      rw [hphase]
      exact Multiset.mem_singleton_self _
    have hmissed : peer ∉ task.missedPeers := (hasked _ hmem).2
    have hless := patience_miss hmissed hlt
    refine weight_lt rfl rfl ?_
    rw [hphase]
    change State.waiting cfg { s with queue := s.queue ++ [task.miss peer] } + 1 <
      s.waiting cfg + (6 * cfg.patience task + 2)
    rw [waiting_push]
    omega
  | @retried worker task e peer he hlt =>
    have hless := patience_fail hlt
    refine weight_lt rfl rfl ?_
    rw [hphase]
    change State.waiting cfg { s with queue := s.queue ++ [task.fail] } + 1 <
      s.waiting cfg + (6 * cfg.patience task + 2)
    rw [waiting_push]
    omega

lemma steps_weight (hasked : ∀ x ∈ s.located, Asked cfg x) (h : Steps cfg s a s')
    (hdirect : Direct a s) : s'.weight cfg < s.weight cfg := by
  cases h with
  | @connected peer rest hphase =>
    simp only [State.weight, map_append, sum_append, map_singleton,
      sum_singleton, hphase, Phase.weight, Stage.weight, length_cons]
    change _ + 4 + s.waiting cfg + _ + _ < _
    omega
  | unconnected hphase | noActiveWorkers hphase | startLoop hphase | ctxDone hphase
  | allWorkersDied hphase | complete hphase =>
    refine weight_lt rfl rfl (Nat.add_lt_add_left ?_ _)
    rw [hphase]
    simp [Phase.weight]
  | receive hphase hlooping hresults =>
    refine weight_lt rfl rfl ?_
    rw [waiting_receive hresults, hphase]
    exact Nat.lt_succ_self _
  | cancel hcancelled =>
    rw [State.weight, State.weight, hcancelled]
    exact Nat.lt_succ_self _
  | handle hphase hhandles =>
    exact handles_weight hphase hhandles fun x hx => hasked x (mem_located_of_phase hx)
  | worker hworker hsteps => exact workerSteps_weight hworker hsteps hdirect

/-- The number of exchanges is bounded in every run. In every orderly run
each task in the queue has a running worker whose source has not missed it,
as long as `Run` is in its loop; and from every state of such a run `Run`
returns, if no worker takes a task any more that its source has missed. -/
theorem scheduler_returns {store : Storage} :
    (∀ s, Run (step cfg) (fun _ _ => True) (init cfg store) s →
      s.ghost.fetches ≤ (cfg.tasks.map fun task => cfg.patience task + 1).sum) ∧
    (cfg.sources.Nodup →
      (∀ task ∈ cfg.tasks, cfg.sources ≠ [] → ∃ peer ∈ cfg.sources, peer ∉ task.missedPeers) →
      ∀ s, Run (step cfg) Orderly (init cfg store) s → (s.phase.Started → ∀ task ∈ s.queue,
          ∃ w ∈ s.workers, w.stage.Running ∧ w.peer ∉ task.missedPeers) ∧
        Inevitably (step cfg) (fun a s => Orderly a s ∧ Direct a s)
          (fun s => ∃ e, s.phase = .returned e) s) := by
  refine ⟨fun s hrun => (Nat.le_add_left _ _).trans (exchanges_of_run hrun).2,
    fun hsources htasks s hrun => ?_⟩
  have hready : Ready cfg s := hrun.inv (ready_init store htasks)
    fun _ _ _ hok hstep hs => hs.step hsources (steps_of_step hstep) hok
  refine ⟨fun hphase task => hready.attended hphase, ?_⟩
  refine inevitably_of_measure (I := Ready cfg) (State.weight cfg)
    (fun _ => enabled_of_ready) (fun a s s' hs hok hstep => ?_) hready
  have hsteps := steps_of_step hstep
  exact ⟨hs.step hsources hsteps hok.1,
    steps_weight (fun x hx => (hs.fetchable x hx).1) hsteps hok.2⟩

/-- The first of two sources misses the chunk; the second is there to take
the task. -/
theorem scheduler_returns_missed : ∃ s task,
    Run (step (oneTask [[1], [2]])) Orderly (init (oneTask [[1], [2]]) ⟨fun _ => none⟩) s ∧
      s.phase.Started ∧ s.queue = [task] ∧ task.missedPeers = {[1]} ∧
      (∃ w ∈ s.workers, w.stage.Running ∧ w.peer ∉ task.missedPeers) ∧
      Inevitably (step (oneTask [[1], [2]])) (fun a s => Orderly a s ∧ Direct a s)
        (fun s => ∃ e, s.phase = .returned e) s := by
  have hok : ∀ as : List Action, (.connect false ∉ as) → (∀ i event, .worker i event ∉ as) →
      ∀ a ∈ as, ∀ s, Orderly a s :=
    fun as hconnect hworker a ha s =>
      (orderly_of_ne (fun h => hconnect (h ▸ ha)) (fun i event h => hworker i event (h ▸ ha)) s).1
  have hexec : execute (step (oneTask [[1], [2]])) [.connect true, .connect true, .startLoop]
      (init (oneTask [[1], [2]]) ⟨fun _ => none⟩) = some _ := rfl
  have hrun₁ := Run.refl.execute (hok _ (by simp) (by simp)) hexec
  have hrun₂ := hrun₁.tail (a := .worker 0 .proceed)
    (And.left (orderly_of_busy rfl (by simp) fun _ => ⟨_, _, rfl, Finset.notMem_empty _⟩)) rfl
  have hrun₃ := hrun₂.tail
    (a := .worker 0 (.exchanged (.answered (buildError errChunkNotFound []) true)))
    (And.left (orderly_of_busy rfl (by simp) (by nofun))) rfl
  have hrun₄ := hrun₃.tail (a := .worker 0 .proceed)
    (And.left (orderly_of_busy rfl (by simp) (by nofun))) rfl
  have hrun := hrun₄.execute (hok [.receive, .handle] (by simp) (by simp)) rfl
  obtain ⟨hattended, hreturns⟩ := scheduler_returns.2 (by decide) (by simp [oneTask]) _ hrun
  exact ⟨_, _, hrun, trivial, rfl, rfl, hattended trivial _ (mem_singleton_self _), hreturns⟩

/-! ## A task that waits for nobody -/

/-- The only worker has missed the only task. -/
structure Spins (peer : PeerID) (task : ChunkTask) (s : State) : Prop where
  phase : s.phase = .loop
  looping : s.looping = true
  results : s.results = []
  cancelled : s.cancelled = false
  turn : s.queue = [task] ∧ s.workers = [⟨peer, .next⟩] ∨
    s.queue = [] ∧ s.workers = [⟨peer, .requeue task⟩] ∨
    s.queue = [task] ∧ s.workers = [⟨peer, .yielding⟩]

lemma Spins.alone (hs : Spins peer task s)
    (hworker : s.workers[i]? = some ⟨other, stage⟩) : i = 0 := by
  have hone : s.workers.length = 1 := by
    rcases hs.turn with ⟨-, h⟩ | ⟨-, h⟩ | ⟨-, h⟩ <;> exact congrArg List.length h
  have hlt := (List.getElem_of_getElem? hworker).1
  rw [hone] at hlt
  exact Nat.lt_one_iff.mp hlt

lemma Spins.worker {task : ChunkTask} (hmissed : peer ∈ task.missedPeers)
    {s t : State}
    (hworker : s.workers[i]? = some ⟨other, stage⟩)
    (h : WorkerSteps cfg s i other stage event stage' t) (hs : Spins peer task s) :
    Spins peer task (t.setWorker i other stage') := by
  obtain rfl := hs.alone hworker
  obtain ⟨hphase, hlooping, hresults, hcancelled, hturn⟩ := hs
  rcases hturn with ⟨hqueue, hone⟩ | ⟨hqueue, hone⟩ | ⟨hqueue, hone⟩
  · rw [hone] at hworker
    cases hworker
    cases h with rw [hqueue] at h
    | leave h => cases h
    | skip h =>
      cases h
      refine ⟨hphase, hlooping, hresults, hcancelled, .inr (.inl ⟨rfl, ?_⟩)⟩
      exact congrArg (List.set · 0 _) hone
    | take h hother =>
      cases h
      exact absurd hmissed hother
  · rw [hone] at hworker
    cases hworker
    cases h with
    | requeue =>
      refine ⟨hphase, hlooping, hresults, hcancelled, .inr (.inr ⟨?_, ?_⟩)⟩
      · exact congrArg (· ++ [task]) hqueue
      · exact congrArg (List.set · 0 _) hone
  · rw [hone] at hworker
    cases hworker
    cases h with
    | wake =>
      refine ⟨hphase, hlooping, hresults, hcancelled, .inl ⟨hqueue, ?_⟩⟩
      exact congrArg (List.set · 0 _) hone
    | quit h =>
      rw [hcancelled] at h
      cases h

lemma Spins.step (hmissed : peer ∈ task.missedPeers) (h : Steps cfg s a s') (ha : a ≠ .cancel)
    (hs : Spins peer task s) : Spins peer task s' := by
  obtain ⟨hpending, hactive⟩ := Bool.and_eq_true_iff.mp hs.looping
  cases h with
  | connected h | unconnected h | noActiveWorkers h | startLoop h | handle h =>
    rw [hs.phase] at h
    cases h
  | receive _ _ h =>
    rw [hs.results] at h
    cases h
  | ctxDone _ _ h =>
    rw [hs.cancelled] at h
    cases h
  | allWorkersDied _ h => exact absurd h (of_decide_eq_true hactive).ne'
  | complete _ h => exact absurd h (of_decide_eq_true hpending).ne'
  | cancel => exact absurd rfl ha
  | worker hworker hsteps => exact hs.worker hmissed hworker hsteps

/-- It spins until the context is cancelled. -/
lemma Spins.run {task : ChunkTask} (hmissed : peer ∈ task.missedPeers) (hs : Spins peer task s)
    (hrun : Run (Scheduler.step cfg) (fun a _ => a ≠ .cancel) s s') : Spins peer task s' :=
  hrun.inv hs fun _ _ _ ha hstep h => h.step hmissed (steps_of_step hstep) ha

/-- The second of two sources cannot be connected to, and the first has
missed the chunk: no worker is left to take the task, and `Run` does not
return unless the context is cancelled. -/
theorem scheduler_spins : ∃ s task, execute (step (oneTask [[1], [2]]))
        [.connect true, .connect false, .startLoop, .worker 0 .proceed,
          .worker 0 (.exchanged (.answered (buildError errChunkNotFound []) true)),
          .worker 0 .proceed, .receive, .handle]
        (init (oneTask [[1], [2]]) ⟨fun _ => none⟩) = some s ∧
      s.phase.Started ∧ s.queue = [task] ∧ (∀ w ∈ s.workers, w.peer ∈ task.missedPeers) ∧
      ∀ s', Run (step (oneTask [[1], [2]])) (fun a _ => a ≠ .cancel) s s' →
        ¬ ∃ e, s'.phase = .returned e := by
  have hmem : [1] ∈ ({[1]} : Finset PeerID) := Finset.mem_singleton_self _
  refine ⟨_, _, rfl, trivial, rfl, forall_mem_singleton.mpr hmem, fun s' hrun ⟨e, he⟩ => ?_⟩
  have hspins := Spins.run hmem ⟨rfl, rfl, rfl, rfl, .inl ⟨rfl, rfl⟩⟩ hrun
  rw [hspins.phase] at he
  cases he

end Cipher.Scheduler
