import Cipher.SchedulerTasks

/-!
# Downloads that are resumed

`Download` keeps a session on disk, with one bit for each chunk of the list,
by position. It skips the chunks whose bit is set and those in the store,
and gives the others to the scheduler; the bit of a chunk that the scheduler
reports is set, and the session saved. An interruption leaves what was saved
last.

The bits outlive the list they belong to and the chunks they stand for. A
call with another list, or after a chunk was removed, takes a chunk for
present that is not, and one with a longer list writes past the end of the
bits (`download_unsound`). If the bits match the list and the store when a
call goes through them (`Consistent`), which they do if all calls have the
same list and no chunk of it is removed (`Steady`), then a call that returns
no error leaves every chunk in the store (`download_sound`).
-/

namespace Cipher.Download

open Bytes Binary Go Content ChunkProtocol Transition List
open Scheduler (ChunkTask PeerID RunError)

/-! ## Sessions -/

inductive SessionStatus where
  | inProgress
  | paused
  | completed
  | failed
deriving DecidableEq

/-- The content ID is that of all calls; who the target was and the times
are never read. -/
structure TransferSession where
  completed : List Bool
  totalChunks : Nat
  status : SessionStatus
deriving DecidableEq

structure Config (τ : Type) where
  sha256 : List UInt8 → Hash
  json : Json τ
  ticketGenerator : Option (TicketGenerator τ)

variable {τ : Type} {cfg : Config τ}

/-- The scheduler for the tasks, with the peers as sources. -/
def Config.scheduler (cfg : Config τ) (tasks : List ChunkTask) (peers : List PeerID) :
    Scheduler.Config τ where
  sha256 := cfg.sha256
  json := cfg.json
  ticketGenerator := cfg.ticketGenerator
  maxAttempts := 3
  tasks := tasks
  sources := peers

/-- The session for the list, a new one or the one that was saved. -/
def openSession (chunkIds : List ChunkID) : Option TransferSession → TransferSession
  | none => ⟨List.replicate chunkIds.length false, chunkIds.length, .inProgress⟩
  | some sess =>
    if sess.completed.length = 0 then
      ⟨List.replicate chunkIds.length false, chunkIds.length, .inProgress⟩
    else { sess with status := .inProgress }

/-- The loop over the chunks, from the index `i` on: the tasks, and the bits
afterwards. A bit that is not there cannot be set (`none`). -/
def setupTasks (has : Nat → ChunkID → Bool) :
    Nat → List ChunkID → List Bool → Option (List ChunkTask × List Bool)
  | _, [], completed => some ([], completed)
  | i, chunkId :: chunkIds, completed =>
    if completed[i]? = some true then setupTasks has (i + 1) chunkIds completed
    else if has i chunkId then
      -- the bit is set without a look at the number of bits
      if i < completed.length then setupTasks has (i + 1) chunkIds (completed.set i true)
      else none
    else
      match setupTasks has (i + 1) chunkIds completed with
      | some (tasks, completed) => some (⟨0, i, chunkId, 0, ∅⟩ :: tasks, completed)
      | none => none

/-- The bit of a chunk that was reported. -/
def TransferSession.report (sess : TransferSession) (index : Nat) : TransferSession :=
  if index < sess.completed.length then { sess with completed := sess.completed.set index true }
  else sess

/-! ## Calls -/

inductive DownloadError where
  | noPeers
  | open
  | saveNew
  | saveResumed
  | transfer (e : RunError)

/-- A call whose scheduler is running; `handled` completions have been
taken. -/
structure Transfer where
  chunkIds : List ChunkID
  peers : List PeerID
  tasks : List ChunkTask
  sess : TransferSession
  sched : Scheduler.State
  handled : Nat

/-- Where the call is, or how the last one ended. -/
inductive Call where
  | idle
  | opening (chunkIds : List ChunkID) (peers : List PeerID)
  | preparing (chunkIds : List ChunkID) (peers : List PeerID) (sess : TransferSession)
  | downloading (t : Transfer)
  | finishing (chunkIds : List ChunkID) (sess : TransferSession) (e : Option RunError)
  | returned (chunkIds : List ChunkID) (e : Option DownloadError)
  | panicked

/-- No call is going on. -/
def Call.over : Call → Bool
  | .idle | .returned _ _ | .panicked => true
  | .opening _ _ | .preparing _ _ _ | .downloading _ | .finishing _ _ _ => false

structure State where
  saved : Option TransferSession
  store : Storage
  call : Call

/-- What can happen. The Booleans say if the session can be read and if it
can be saved; `stat` says at which indices `HasChunk` meets no error. Chunks
may be removed between calls, and stored at any time. -/
inductive Action where
  | download (chunkIds : List ChunkID) (peers : List PeerID)
  | opened (ok saved : Bool)
  | prepare (stat : Nat → Bool) (saved : Bool)
  | schedule (a : Scheduler.Action)
  | progress (saved : Bool)
  | collect
  | finish (saved : Bool)
  | interrupt
  | remove (id : ChunkID)
  | put (chunk : Chunk)

/-- `Save`: the file is written beside the old one and renamed. -/
def State.save (s : State) (sess : TransferSession) (saved : Bool) : State :=
  if saved then { s with saved := some sess } else s

def removeChunk (store : Storage) (id : ChunkID) : Storage :=
  ⟨Function.update store.files (pathForChunk id) none⟩

def finalStatus : Option RunError → SessionStatus
  | none => .completed
  | some _ => .failed

/-- `Download`, from one access to the disk, the store or the scheduler to
the next. -/
def step (cfg : Config τ) : Action → State → Option State
  | .download chunkIds peers, s =>
    if s.call.over then
      if peers = [] then some { s with call := .returned chunkIds (some .noPeers) }
      else some { s with call := .opening chunkIds peers }
    else none
  | .opened ok saved, s =>
    match s.call with
    | .opening chunkIds peers =>
      let sess := openSession chunkIds s.saved
      if ok then
        if saved then
          some { s with saved := some sess, call := .preparing chunkIds peers sess }
        else if s.saved.isSome then
          some { s with call := .returned chunkIds (some .saveResumed) }
        else some { s with call := .returned chunkIds (some .saveNew) }
      else some { s with call := .returned chunkIds (some .open) }
    | _ => none
  | .prepare stat saved, s =>
    match s.call with
    | .preparing chunkIds peers sess =>
      match setupTasks (fun i id => stat i && s.store.hasChunk id) 0 chunkIds sess.completed with
      | none => some { s with call := .panicked }
      | some (tasks, completed) =>
        let sess := { sess with completed }
        let sched := Scheduler.init (cfg.scheduler tasks peers) s.store
        if tasks = [] then
          some { s.save sess saved with call := .finishing chunkIds sess none }
        else
          some { s.save sess saved with
            call := .downloading ⟨chunkIds, peers, tasks, sess, sched, 0⟩ }
    | _ => none
  | .schedule a, s =>
    match s.call with
    | .downloading t =>
      -- others may have stored chunks since the scheduler's last step
      match Scheduler.step (cfg.scheduler t.tasks t.peers) a { t.sched with store := s.store } with
      | some sched => some { s with store := sched.store, call := .downloading { t with sched } }
      | none => none
    | _ => none
  | .progress saved, s =>
    match s.call with
    | .downloading t =>
      match t.sched.completions[t.handled]? with
      | some res =>
        let sess := t.sess.report res.task.index
        some { s.save sess saved with
          call := .downloading { t with sess, handled := t.handled + 1 } }
      | none => none
    | _ => none
  | .collect, s =>
    match s.call with
    | .downloading t =>
      match t.sched.phase with
      | .returned e =>
        -- the channel is closed, and read to its end before the error
        if t.handled = t.sched.completions.length then
          some { s with call := .finishing t.chunkIds t.sess e }
        else none
      | _ => none
    | _ => none
  | .finish saved, s =>
    match s.call with
    | .finishing chunkIds sess e =>
      let sess := { sess with status := finalStatus e }
      some { s.save sess saved with call := .returned chunkIds (e.map .transfer) }
    | _ => none
  | .interrupt, s => if s.call.over then none else some { s with call := .idle }
  | .remove id, s =>
    if s.call.over then some { s with store := removeChunk s.store id, call := .idle } else none
  | .put chunk, s => some { s with store := s.store.putChunk chunk }

/-- What a step can be. -/
inductive Steps (cfg : Config τ) (s : State) : Action → State → Prop where
  | noPeers (chunkIds : List ChunkID) : Steps cfg s (.download chunkIds [])
      { s with call := .returned chunkIds (some .noPeers) }
  | download (chunkIds : List ChunkID) (peers : List PeerID) :
      Steps cfg s (.download chunkIds peers) { s with call := .opening chunkIds peers }
  | opened (hcall : s.call = .opening chunkIds peers) : Steps cfg s (.opened true true) { s with
        saved := some (openSession chunkIds s.saved)
        call := .preparing chunkIds peers (openSession chunkIds s.saved) }
  | unopened (ok saved : Bool) (e : DownloadError) :
      Steps cfg s (.opened ok saved) { s with call := .returned chunkIds (some e) }
  | panicked (saved : Bool) (hcall : s.call = .preparing chunkIds peers sess)
      (hsetup : setupTasks (fun i id => stat i && s.store.hasChunk id) 0 chunkIds
        sess.completed = none) : Steps cfg s (.prepare stat saved) { s with call := .panicked }
  | nothingToDo {chunkIds : List ChunkID} {peers : List PeerID} {sess : TransferSession}
      {stat : Nat → Bool} {completed : List Bool} (saved : Bool)
      (hcall : s.call = .preparing chunkIds peers sess)
      (hsetup : setupTasks (fun i id => stat i && s.store.hasChunk id) 0 chunkIds
        sess.completed = some ([], completed)) :
      Steps cfg s (.prepare stat saved) { s.save { sess with completed } saved with
        call := .finishing chunkIds { sess with completed } none }
  | prepared {chunkIds : List ChunkID} {peers : List PeerID} {sess : TransferSession}
      {stat : Nat → Bool} {tasks : List ChunkTask} {completed : List Bool} (saved : Bool)
      (hcall : s.call = .preparing chunkIds peers sess)
      (hsetup : setupTasks (fun i id => stat i && s.store.hasChunk id) 0 chunkIds
        sess.completed = some (tasks, completed)) :
      Steps cfg s (.prepare stat saved) { s.save { sess with completed } saved with
        call := .downloading ⟨chunkIds, peers, tasks, { sess with completed },
          Scheduler.init (cfg.scheduler tasks peers) s.store, 0⟩ }
  | schedule {t : Transfer} {a : Scheduler.Action} {sched : Scheduler.State}
      (hcall : s.call = .downloading t)
      (hsteps : Scheduler.Steps (cfg.scheduler t.tasks t.peers) { t.sched with store := s.store }
        a sched) :
      Steps cfg s (.schedule a)
        { s with store := sched.store, call := .downloading { t with sched } }
  | progress {t : Transfer} {res : Scheduler.WorkerResult} (saved : Bool)
      (hcall : s.call = .downloading t) (hres : res ∈ t.sched.completions) :
      Steps cfg s (.progress saved) { s.save (t.sess.report res.task.index) saved with
        call := .downloading
          { t with sess := t.sess.report res.task.index, handled := t.handled + 1 } }
  | collect (hcall : s.call = .downloading t) (hphase : t.sched.phase = .returned e) :
      Steps cfg s .collect { s with call := .finishing t.chunkIds t.sess e }
  | finish {chunkIds : List ChunkID} {sess : TransferSession} {e : Option RunError}
      (saved : Bool) (hcall : s.call = .finishing chunkIds sess e) :
      Steps cfg s (.finish saved) { s.save { sess with status := finalStatus e } saved with
        call := .returned chunkIds (e.map .transfer) }
  | interrupt : Steps cfg s .interrupt { s with call := .idle }
  | remove (id : ChunkID) : Steps cfg s (.remove id)
      { s with store := removeChunk s.store id, call := .idle }
  | put (chunk : Chunk) : Steps cfg s (.put chunk) { s with store := s.store.putChunk chunk }

variable {a : Action} {s s' : State}

lemma steps_of_step (h : step cfg a s = some s') : Steps cfg s a s' := by
  revert h
  fun_cases step cfg a s with rintro ⟨⟩
  | case1 chunkIds => exact .noPeers chunkIds
  | case2 chunkIds peers => exact .download ..
  | case4 s chunkIds peers hcall => exact .opened hcall
  | case5 | case6 | case7 => exact .unopened ..
  | case9 stat saved s chunkIds peers sess hcall hsetup => exact .panicked saved hcall hsetup
  | case10 stat saved s chunkIds peers sess hcall completed _ hsetup =>
    exact .nothingToDo saved hcall hsetup
  | case11 stat saved s chunkIds peers sess hcall tasks completed hsetup =>
    exact .prepared saved hcall hsetup
  | case13 a s t hcall sched hstep => exact .schedule hcall (Scheduler.steps_of_step hstep)
  | case16 saved s t hcall res hres => exact .progress saved hcall (mem_of_getElem? hres)
  | case19 s t hcall e hphase => exact .collect hcall hphase
  | case23 saved s chunkIds sess e hcall => exact .finish saved hcall
  | case26 => exact .interrupt
  | case27 id => exact .remove id
  | case29 chunk => exact .put chunk

/-! ## Going through the list -/

section Setup

variable {has : Nat → ChunkID → Bool} {i : Nat} {chunkIds : List ChunkID} {completed : List Bool}
  {tasks : List ChunkTask} {after : List Bool}

/-- The loop sets a bit that is not there. -/
lemma setupTasks_eq_none (h : setupTasks has i chunkIds completed = none) :
    ∃ j id, chunkIds[j]? = some id ∧ has (i + j) id = true ∧ completed.length ≤ i + j := by
  fun_induction setupTasks has i chunkIds completed with
  | case1 => cases h
  | case2 i chunkId chunkIds completed hset ih =>
    obtain ⟨j, id, hget, hhas, hle⟩ := ih h
    rw [Nat.add_right_comm] at hhas hle
    exact ⟨j + 1, id, hget, hhas, hle⟩
  | case3 i chunkId chunkIds completed hset hhas hlt ih =>
    obtain ⟨j, id, hget, hhas, hle⟩ := ih h
    rw [length_set] at hle
    rw [Nat.add_right_comm] at hhas hle
    exact ⟨j + 1, id, hget, hhas, hle⟩
  | case4 i chunkId chunkIds completed hset hhas hlt =>
    exact ⟨0, chunkId, rfl, hhas, not_lt.mp hlt⟩
  | case5 => cases h
  | case6 i chunkId chunkIds completed hset hhas hnone ih =>
    obtain ⟨j, id, hget, hhas, hle⟩ := ih hnone
    rw [Nat.add_right_comm] at hhas hle
    exact ⟨j + 1, id, hget, hhas, hle⟩

/-- What the loop does: each chunk has its bit set, is there, or is left to
fetch; a bit that is set was set, or its chunk is there; and a task is for
the chunk at its index. -/
structure SetUp (has : Nat → ChunkID → Bool) (i : Nat) (chunkIds : List ChunkID)
    (completed : List Bool) (tasks : List ChunkTask) (after : List Bool) : Prop where
  covers : ∀ j id, chunkIds[j]? = some id → completed[i + j]? = some true ∨
    has (i + j) id = true ∨ ∃ task ∈ tasks, task.chunkId = id
  length : after.length = completed.length
  bits : ∀ k, after[k]? = some true → completed[k]? = some true ∨
    ∃ j id, k = i + j ∧ chunkIds[j]? = some id ∧ has k id = true
  tasks : ∀ task ∈ tasks, ∃ j, task.index = i + j ∧ chunkIds[j]? = some task.chunkId

/-- One chunk, and those that follow; its bit may have been set. -/
lemma SetUp.cons (h : SetUp has (i + 1) chunkIds before tasks after) (more : List ChunkTask)
    (hlength : before.length = completed.length)
    (hbefore : ∀ k, k ≠ i → before[k]? = completed[k]?)
    (hfirst : completed[i]? = some true ∨ has i chunkId = true ∨
      ∃ task ∈ more, task.chunkId = chunkId)
    (hbit : before[i]? = some true → completed[i]? = some true ∨ has i chunkId = true)
    (hmore : ∀ task ∈ more, task.index = i ∧ task.chunkId = chunkId) :
    SetUp has i (chunkId :: chunkIds) completed (more ++ tasks) after := by
  refine ⟨fun j id hget => ?_, h.length.trans hlength, fun k hk => ?_, fun task htask => ?_⟩
  · cases j with
    | zero =>
      cases hget
      refine hfirst.imp_right (Or.imp_right ?_)
      rintro ⟨task, htask, rfl⟩
      exact ⟨task, mem_append_left _ htask, rfl⟩
    | succ j =>
      have htail := h.covers j id hget
      rw [Nat.add_right_comm, hbefore _ (by omega)] at htail
      refine htail.imp_right (Or.imp_right ?_)
      rintro ⟨task, htask, rfl⟩
      exact ⟨task, mem_append_right _ htask, rfl⟩
  · rcases h.bits k hk with hset | ⟨j, id, rfl, hget, hhas⟩
    · by_cases hki : k = i
      · subst hki
        exact (hbit hset).imp_right fun hhas => ⟨0, chunkId, rfl, rfl, hhas⟩
      · rw [hbefore k hki] at hset
        exact .inl hset
    · exact .inr ⟨j + 1, id, Nat.add_right_comm .., hget, hhas⟩
  · rcases mem_append.mp htask with hnew | hold
    · obtain ⟨hindex, hid⟩ := hmore task hnew
      exact ⟨0, hindex, congrArg some hid.symm⟩
    · obtain ⟨j, hindex, hget⟩ := h.tasks task hold
      exact ⟨j + 1, hindex.trans (Nat.add_right_comm ..), hget⟩

lemma setupTasks_eq_some (h : setupTasks has i chunkIds completed = some (tasks, after)) :
    SetUp has i chunkIds completed tasks after := by
  fun_induction setupTasks has i chunkIds completed generalizing tasks after with
  | case1 i completed =>
    cases h
    refine ⟨fun j id hget => ?_, rfl, fun k hk => .inl hk, fun task htask => ?_⟩
    · cases hget
    · cases htask
  | case2 i chunkId chunkIds completed hset ih =>
    have hnone : ∀ task ∈ ([] : List ChunkTask), task.index = i ∧ task.chunkId = chunkId :=
      fun _ htask => absurd htask not_mem_nil
    exact (ih h).cons [] rfl (fun _ _ => rfl) (.inl hset) .inl hnone
  | case3 i chunkId chunkIds completed hset hhas hlt ih =>
    have hnone : ∀ task ∈ ([] : List ChunkTask), task.index = i ∧ task.chunkId = chunkId :=
      fun _ htask => absurd htask not_mem_nil
    exact (ih h).cons [] length_set
      (fun k hk => getElem?_set_ne (Ne.symm hk)) (.inr (.inl hhas)) (fun _ => .inr hhas)
      hnone
  | case4 => cases h
  | case5 i chunkId chunkIds completed hset hhas tasks after hrest ih =>
    cases h
    refine (ih hrest).cons [⟨0, i, chunkId, 0, ∅⟩] rfl (fun _ _ => rfl) ?_ .inl ?_
    · exact .inr (.inr ⟨_, mem_singleton_self _, rfl⟩)
    · exact forall_mem_singleton.mpr ⟨rfl, rfl⟩
  | case6 => cases h

end Setup

/-! ## What a call relies on -/

/-- A bit that is set stands for a chunk of the list that is stored, and
there is a bit for each chunk of the list that is stored. -/
def Matches (chunkIds : List ChunkID) (completed : List Bool) (store : Storage) : Prop :=
  ∀ i id, chunkIds[i]? = some id →
    (completed[i]? = some true → store.hasChunk id) ∧ (store.hasChunk id → i < completed.length)

/-- The bits match when a call goes through the list. -/
def Consistent (a : Action) (s : State) : Prop :=
  ∀ stat saved chunkIds peers sess, a = .prepare stat saved →
    s.call = .preparing chunkIds peers sess → Matches chunkIds sess.completed s.store

/-- All calls have the same list, and no chunk of it is removed. -/
def Steady (chunkIds : List ChunkID) (a : Action) (_ : State) : Prop :=
  match a with
  | .download list _ => list = chunkIds
  | .remove id => id ∉ chunkIds
  | _ => True

/-- No call has panicked, and one that returned no error has left all its
chunks. -/
def Sound (s : State) : Prop :=
  s.call ≠ .panicked ∧
    ∀ chunkIds, s.call = .returned chunkIds none → ∀ id ∈ chunkIds, s.store.hasChunk id

/-- What is known in a call, wherever it is. -/
def Call.Ok (cfg : Config τ) (store : Storage) : Call → Prop
  | .downloading t =>
    (∀ id ∈ t.chunkIds, store.hasChunk id ∨ ∃ task ∈ t.tasks, task.chunkId = id) ∧
      Scheduler.Inv (cfg.scheduler t.tasks t.peers) { t.sched with store }
  | .finishing chunkIds _ none | .returned chunkIds none => ∀ id ∈ chunkIds, store.hasChunk id
  | .panicked => False
  | _ => True

variable {call : Call} {store : Storage} {chunkIds : List ChunkID}

lemma Call.Ok.mono {store' : Storage} (h : call.Ok cfg store)
    (hstore : ∀ id, store.hasChunk id → store'.hasChunk id) : call.Ok cfg store' := by
  cases call with
  | idle | opening | preparing => trivial
  | panicked => exact h
  | downloading t =>
    obtain ⟨hcovered, hinv⟩ := h
    refine ⟨fun id hid => (hcovered id hid).imp_left (hstore id), ?_⟩
    exact ⟨hinv.workers, hinv.unstarted, hinv.positions, hinv.tasks, hinv.counts,
      fun chunk hchunk => hstore _ (hinv.stored chunk hchunk)⟩
  | finishing chunkIds sess e | returned chunkIds e =>
    cases e with
    | none => exact fun id hid => hstore id (h id hid)
    | some e => trivial

@[simp]
lemma save_store (s : State) (sess : TransferSession) (saved : Bool) :
    (s.save sess saved).store = s.store := by
  cases saved <;> rfl

/-- What is there or left to fetch, if the bits match. -/
lemma SetUp.covered {stat : Nat → Bool} {completed after : List Bool} {tasks : List ChunkTask}
    (h : SetUp (fun i id => stat i && store.hasChunk id) 0 chunkIds completed tasks after)
    (hmatches : Matches chunkIds completed store) {id : ChunkID} (hid : id ∈ chunkIds) :
    store.hasChunk id ∨ ∃ task ∈ tasks, task.chunkId = id := by
  obtain ⟨i, hget⟩ := mem_iff_getElem?.mp hid
  rcases h.covers i id hget with hbit | hhas | htask
  · rw [Nat.zero_add] at hbit
    exact .inl ((hmatches i id hget).1 hbit)
  · exact .inl (Bool.and_eq_true_iff.mp hhas).2
  · exact .inr htask

lemma steps_ok (h : Steps cfg s a s') (hok : Consistent a s) (hs : s.call.Ok cfg s.store) :
    s'.call.Ok cfg s'.store := by
  cases h with
  | @panicked chunkIds peers sess stat saved hcall hsetup =>
    -- there is a bit for every chunk that is stored
    obtain ⟨i, id, hget, hhas, hle⟩ := setupTasks_eq_none hsetup
    have hstored := (Bool.and_eq_true_iff.mp hhas).2
    have hlt := (hok stat saved chunkIds peers sess rfl hcall i id hget).2 hstored
    rw [Nat.zero_add] at hle
    exact absurd hle (not_le.mpr hlt)
  | nothingToDo saved hcall hsetup =>
    have hmatches := hok _ saved _ _ _ rfl hcall
    rw [save_store]
    intro id hid
    refine ((setupTasks_eq_some hsetup).covered hmatches hid).resolve_right ?_
    rintro ⟨task, htask, -⟩
    cases htask
  | prepared saved hcall hsetup =>
    have hmatches := hok _ saved _ _ _ rfl hcall
    rw [save_store]
    exact ⟨fun id hid => (setupTasks_eq_some hsetup).covered hmatches hid,
      Scheduler.inv_init _ s.store⟩
  | schedule hcall hsteps =>
    rw [hcall] at hs
    obtain ⟨hcovered, hinv⟩ := hs
    refine ⟨fun id hid => (hcovered id hid).imp_left ?_, hinv.step hsteps⟩
    exact Scheduler.steps_hasChunk hsteps
  | progress saved hcall hres =>
    rw [hcall] at hs
    rw [save_store]
    exact hs
  | @collect t e hcall hphase =>
    rw [hcall] at hs
    obtain ⟨hcovered, hinv⟩ := hs
    cases e with
    | some e => trivial
    | none =>
      intro id hid
      rcases hcovered id hid with hstored | ⟨task, htask, rfl⟩
      · exact hstored
      · exact hinv.stored_all hphase htask
  | @finish chunkIds sess e saved hcall =>
    rw [hcall] at hs
    rw [save_store]
    cases e with
    | none => exact hs
    | some e => trivial
  | put chunk => exact hs.mono fun id hid => Storage.hasChunk_update hid _ _
  | _ => trivial

lemma sound_of_ok (h : s.call.Ok cfg s.store) : Sound s := by
  refine ⟨fun hcall => ?_, fun chunkIds hcall => ?_⟩
  · rw [hcall] at h
    exact h
  · rw [hcall] at h
    exact h

/-! ## The same list again -/

/-- The bits belong to the list. -/
structure Bits (chunkIds : List ChunkID) (store : Storage) (completed : List Bool) : Prop where
  length : completed.length = chunkIds.length
  stored : ∀ (i : Nat) (id : ChunkID), chunkIds[i]? = some id → completed[i]? = some true →
    store.hasChunk id

section Bits

variable {chunkIds : List ChunkID} {store : Storage}

lemma Bits.mono {store' : Storage} (h : Bits chunkIds store completed)
    (hstore : ∀ id ∈ chunkIds, store.hasChunk id → store'.hasChunk id) :
    Bits chunkIds store' completed :=
  ⟨h.length, fun i id hget hbit =>
    hstore id (mem_of_getElem? hget) (h.stored i id hget hbit)⟩

lemma Bits.matches (h : Bits chunkIds store completed) : Matches chunkIds completed store := by
  refine fun i id hget => ⟨h.stored i id hget, fun _ => ?_⟩
  rw [h.length]
  exact (List.getElem_of_getElem? hget).1

lemma bits_replicate (chunkIds : List ChunkID) (store : Storage) :
    Bits chunkIds store (List.replicate chunkIds.length false) := by
  refine ⟨length_replicate, fun i id hget hbit => ?_⟩
  obtain ⟨hlt, hval⟩ := List.getElem_of_getElem? hbit
  rw [getElem_replicate] at hval
  cases hval

lemma bits_openSession (h : ∀ sess, saved = some sess → Bits chunkIds store sess.completed) :
    Bits chunkIds store (openSession chunkIds saved).completed := by
  cases saved with
  | none => exact bits_replicate ..
  | some sess =>
    rw [openSession]
    split
    · exact bits_replicate ..
    · exact h sess rfl

lemma Bits.report {sess : TransferSession} (h : Bits chunkIds store sess.completed) {i : Nat}
    {id : ChunkID} (hget : chunkIds[i]? = some id) (hstored : store.hasChunk id) :
    Bits chunkIds store (sess.report i).completed := by
  rw [TransferSession.report]
  split
  · refine ⟨length_set.trans h.length, fun k other hother hbit => ?_⟩
    by_cases hki : i = k
    · subst hki
      rw [hget] at hother
      cases hother
      exact hstored
    · rw [getElem?_set_ne hki] at hbit
      exact h.stored k other hother hbit
  · exact h

lemma SetUp.bits_after {stat : Nat → Bool} {tasks : List ChunkTask} {after : List Bool}
    (h : SetUp (fun i id => stat i && store.hasChunk id) 0 chunkIds completed tasks after)
    (hbits : Bits chunkIds store completed) : Bits chunkIds store after := by
  refine ⟨h.length.trans hbits.length, fun i id hget hbit => ?_⟩
  rcases h.bits i hbit with hold | ⟨j, other, rfl, hother, hhas⟩
  · exact hbits.stored i id hget hold
  · -- set in this loop, for a chunk that is there
    rw [Nat.zero_add] at hget
    rw [hget] at hother
    cases hother
    exact (Bool.and_eq_true_iff.mp hhas).2

end Bits

lemma hasChunk_removeChunk {id other : ChunkID} (hne : other ≠ id) (h : store.hasChunk other) :
    (removeChunk store id).hasChunk other := by
  simpa [removeChunk, Storage.hasChunk, Function.update_of_ne (pathForChunk_injective.ne hne)]
    using h

/-- The session of a call belongs to the list, and each task is for the chunk
at its index. -/
def Call.Kept (chunkIds : List ChunkID) (store : Storage) : Call → Prop
  | .opening list _ => list = chunkIds
  | .preparing list _ sess | .finishing list sess _ =>
    list = chunkIds ∧ Bits chunkIds store sess.completed
  | .downloading t =>
    t.chunkIds = chunkIds ∧ Bits chunkIds store t.sess.completed ∧
      ∀ task ∈ t.tasks, chunkIds[task.index]? = some task.chunkId
  | .idle | .returned _ _ | .panicked => True

structure Kept (chunkIds : List ChunkID) (s : State) : Prop where
  saved : ∀ sess, s.saved = some sess → Bits chunkIds s.store sess.completed
  call : s.call.Kept chunkIds s.store

lemma consistent_of_kept (h : Kept chunkIds s) (a : Action) : Consistent a s := by
  intro stat saved list peers sess _ hcall
  have hkept := h.call
  rw [hcall] at hkept
  obtain ⟨rfl, hbits⟩ := hkept
  exact hbits.matches

lemma Call.Kept.mono {store' : Storage} (h : call.Kept chunkIds store)
    (hstore : ∀ id ∈ chunkIds, store.hasChunk id → store'.hasChunk id) :
    call.Kept chunkIds store' := by
  cases call with
  | idle | returned | panicked => trivial
  | opening => exact h
  | preparing | finishing => exact ⟨h.1, h.2.mono hstore⟩
  | downloading => exact ⟨h.1, h.2.1.mono hstore, h.2.2⟩

lemma Kept.save (h : Kept chunkIds s) (sess : TransferSession)
    (hsess : Bits chunkIds s.store sess.completed) (hcall : call.Kept chunkIds s.store)
    (saved : Bool) : Kept chunkIds { s.save sess saved with call := call } := by
  cases saved with
  | false => exact ⟨h.saved, hcall⟩
  | true =>
    refine ⟨fun sess' heq => ?_, hcall⟩
    cases heq
    exact hsess

/-- What is reported is stored, and is the chunk at its index. -/
lemma reported_at {t : Transfer}
    (hinv : Scheduler.Inv (cfg.scheduler t.tasks t.peers) { t.sched with store })
    (htasks : ∀ task ∈ t.tasks, chunkIds[task.index]? = some task.chunkId)
    (hres : res ∈ t.sched.completions) :
    ∃ id, chunkIds[res.task.index]? = some id ∧ store.hasChunk id := by
  obtain ⟨given, hget, hindex, -, hstored, -⟩ := hinv.fetched_of_reported hres
  refine ⟨given.chunkId, ?_, hstored⟩
  rw [hindex]
  exact htasks given (mem_of_getElem? hget)

lemma steps_kept (h : Steps cfg s a s') (hok : Steady chunkIds a s) (hs : s.call.Ok cfg s.store)
    (hkept : Kept chunkIds s) : Kept chunkIds s' := by
  have hcalled := hkept.call
  cases h with
  | noPeers | unopened | interrupt | panicked => exact ⟨hkept.saved, trivial⟩
  | download => exact ⟨hkept.saved, hok⟩
  | opened hcall =>
    rw [hcall] at hcalled
    obtain rfl := hcalled
    have hbits := bits_openSession hkept.saved
    refine ⟨fun sess heq => ?_, rfl, hbits⟩
    cases heq
    exact hbits
  | nothingToDo saved hcall hsetup =>
    rw [hcall] at hcalled
    obtain ⟨rfl, hbits⟩ := hcalled
    have hafter := (setupTasks_eq_some hsetup).bits_after hbits
    refine hkept.save _ hafter ?_ saved
    exact ⟨rfl, hafter⟩
  | prepared saved hcall hsetup =>
    rw [hcall] at hcalled
    obtain ⟨rfl, hbits⟩ := hcalled
    have hset := setupTasks_eq_some hsetup
    have hafter := hset.bits_after hbits
    refine hkept.save _ hafter ?_ saved
    refine ⟨rfl, hafter, fun task htask => ?_⟩
    obtain ⟨j, hindex, hget⟩ := hset.tasks task htask
    rw [hindex, Nat.zero_add]
    exact hget
  | @schedule t b sched hcall hsteps =>
    rw [hcall] at hcalled
    have hgrows : ∀ id ∈ chunkIds, s.store.hasChunk id → sched.store.hasChunk id :=
      fun _ _ => Scheduler.steps_hasChunk hsteps
    exact ⟨fun sess heq => (hkept.saved sess heq).mono hgrows, hcalled.1,
      hcalled.2.1.mono hgrows, hcalled.2.2⟩
  | progress saved hcall hres =>
    rw [hcall] at hcalled hs
    obtain ⟨hlist, hbits, htasks⟩ := hcalled
    obtain ⟨id, hget, hstored⟩ := reported_at hs.2 htasks hres
    have hafter := hbits.report hget hstored
    refine hkept.save _ hafter ?_ saved
    exact ⟨hlist, hafter, htasks⟩
  | collect hcall =>
    rw [hcall] at hcalled
    exact ⟨hkept.saved, hcalled.1, hcalled.2.1⟩
  | @finish list sess e saved hcall =>
    rw [hcall] at hcalled
    refine hkept.save { sess with status := finalStatus e } hcalled.2 ?_ saved
    trivial
  | remove id =>
    have hkeeps : ∀ other ∈ chunkIds, s.store.hasChunk other →
        (removeChunk s.store id).hasChunk other :=
      fun other hother => hasChunk_removeChunk fun heq => hok (heq ▸ hother)
    exact ⟨fun sess heq => (hkept.saved sess heq).mono hkeeps, trivial⟩
  | put chunk =>
    have hkeeps : ∀ other ∈ chunkIds, s.store.hasChunk other →
        (s.store.putChunk chunk).hasChunk other :=
      fun other _ hother => Storage.hasChunk_update hother _ _
    exact ⟨fun sess heq => (hkept.saved sess heq).mono hkeeps, hcalled.mono hkeeps⟩

/-- In every history in which the bits match whenever a call goes through
its list, no call panics, and every call that returns no error leaves all
chunks of its list in the store. This is so in particular if all calls have
the same list and no chunk of it is removed. -/
theorem download_sound (saved : Option TransferSession) (store : Storage) :
    (∀ s, Run (step cfg) Consistent ⟨saved, store, .idle⟩ s → Sound s) ∧
    ∀ chunkIds s, Run (step cfg) (Steady chunkIds) ⟨none, store, .idle⟩ s → Sound s := by
  refine ⟨fun s hrun => ?_, fun chunkIds s hrun => ?_⟩
  · have hok : s.call.Ok cfg s.store := hrun.inv (I := fun s => s.call.Ok cfg s.store) trivial
      fun _ _ _ hok hstep => steps_ok (steps_of_step hstep) hok
    exact sound_of_ok hok
  · have hok : s.call.Ok cfg s.store ∧ Kept chunkIds s := by
      refine hrun.inv (I := fun s => s.call.Ok cfg s.store ∧ Kept chunkIds s) ?_ ?_
      · exact ⟨trivial, ⟨nofun, trivial⟩⟩
      · rintro a s s' hsteady hstep ⟨hok, hkept⟩
        have hsteps := steps_of_step hstep
        exact ⟨steps_ok hsteps (consistent_of_kept hkept a) hok,
          steps_kept hsteps hsteady hok hkept⟩
    exact sound_of_ok hok.1

/-! ## A chunk that is taken for present -/

def noTickets : Config Unit := ⟨fun _ => Scheduler.wantedId, ⟨fun _ => none, fun _ => none⟩, none⟩

def anyId : Block 32 := ⟨List.replicate 32 6, List.length_replicate⟩

/-- A call for one chunk, up to the scheduler. -/
def callBegins : List Action :=
  [.download [Scheduler.wantedId] [[1]], .opened true true, .prepare (fun _ => true) true]

/-- The scheduler fetches the chunk. -/
def callFetches : List Action :=
  List.map .schedule ([Scheduler.Action.connect true, .startLoop] ++ Scheduler.fetchSteps 0 ++
    [.receive, .handle, .exit]) ++ [.progress true, .collect]

/-- A call that has nothing to fetch. -/
def callSkips : List Action := callBegins ++ [.finish true]

lemma steady_callFetches (chunkIds : List ChunkID) :
    ∀ a ∈ callFetches, ∀ s, Steady chunkIds a s := by
  refine forall_mem_append.mpr ⟨fun a ha s => ?_, by simp [Steady]⟩
  obtain ⟨b, -, rfl⟩ := mem_map.mp ha
  trivial

/-- One call fetches the chunk, and the next finds its bit. -/
theorem download_sound_twice : ∃ s,
    execute (step noTickets) (callBegins ++ callFetches ++ Action.finish true :: callSkips)
        ⟨none, ⟨fun _ => none⟩, .idle⟩ = some s ∧
      s.call = .returned [Scheduler.wantedId] none ∧ s.store.hasChunk Scheduler.wantedId := by
  have hexec : execute (step noTickets)
      (callBegins ++ callFetches ++ Action.finish true :: callSkips)
      ⟨none, ⟨fun _ => none⟩, .idle⟩ = some _ := rfl
  have hbegins : ∀ a ∈ callBegins, ∀ s, Steady [Scheduler.wantedId] a s := by
    simp [Steady, callBegins]
  have hskips : ∀ a ∈ Action.finish true :: callSkips, ∀ s, Steady [Scheduler.wantedId] a s := by
    simp [Steady, callSkips, callBegins]
  have hsteady := forall_mem_append.mpr
    ⟨forall_mem_append.mpr ⟨hbegins, steady_callFetches _⟩, hskips⟩
  have hsound := (download_sound none _).2 _ _ (Run.refl.execute hsteady hexec)
  exact ⟨_, hexec, rfl, hsound.2 _ rfl _ (mem_singleton_self _)⟩

/-- After a call that found its chunk, the chunk is removed: the next call
returns no error all the same. If the next call has a longer list instead,
with the chunk in second place, it panics. -/
theorem download_unsound : (∃ s, execute (step noTickets)
        (Action.put Scheduler.wantedChunk :: callSkips ++
          Action.remove Scheduler.wantedId :: callSkips)
        ⟨none, ⟨fun _ => none⟩, .idle⟩ = some s ∧
      s.call = .returned [Scheduler.wantedId] none ∧
      s.store.hasChunk Scheduler.wantedId = false) ∧
    ∃ s, execute (step noTickets) (Action.put Scheduler.wantedChunk :: callSkips ++
          [Action.download [anyId, Scheduler.wantedId] [[1]], .opened true true,
            .prepare (fun _ => true) true])
        ⟨none, ⟨fun _ => none⟩, .idle⟩ = some s ∧ s.call = .panicked :=
  ⟨⟨_, rfl, rfl, rfl⟩, ⟨_, rfl, rfl⟩⟩

end Cipher.Download
