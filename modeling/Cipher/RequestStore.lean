import Cipher.Go
import Cipher.Transition
import Mathlib.Data.List.Basic

/-!
# The store of active requests

The package `request` of `proof-of-request`, and the demand that is counted
from it. A client has one request for a file at a time; it ends when it is
resolved or aborted, or when its timer runs out.

All requests that were ever made are kept here by their pointers, and the
store is a list of pointers, as it is in the source: a timer refers to the
record it was started for, whatever the store holds by then. Each call of
`ResolveRequest` and `AbortRequest` and each callback of a timer is a
goroutine of its own. It takes the mutex twice, once to search and once for
the transition, and stops the timer after it has given the mutex back;
`step` lets one goroutine go on to its next stop. Time does not occur: a
timer that runs may run out at any moment, and its callback may wait for any
number of steps.
-/

namespace Cipher.Requests

open Go List

inductive RequestStatus where
  | pending
  | resolved
  | aborted
  | expired
deriving DecidableEq, Repr

structure Request where
  fileId : Str
  clientId : Str
  timestamp : Int64
  status : RequestStatus
deriving DecidableEq

/-- A `time.Timer`. Stopping one that has fired has no effect. -/
inductive Alarm where
  | running
  | fired
  | stopped
deriving DecidableEq, Repr

/-- What a `*requestRecord` points to, with the timer that was started for
it. The field `timer` says whether the record still refers to the timer. -/
structure RequestRecord where
  request : Request
  timer : Bool
  alarm : Alarm
deriving DecidableEq

/-- Who has called for a transition. -/
inductive Caller where
  | resolveRequest (fileId clientId : Str)
  | abortRequest (fileId clientId : Str)
  | expireRequest (record : Nat)
deriving DecidableEq

def Caller.newStatus : Caller → RequestStatus
  | .resolveRequest .. => .resolved
  | .abortRequest .. => .aborted
  | .expireRequest _ => .expired

/-- Where a call stands: before its search, between the search and the
transition, after a transition with the timer it has taken from the record,
or at its end. -/
inductive Stage where
  | searching (fileId clientId : Str)
  | transition (record : Nat)
  | stopping (record : Nat) (timer : Bool)
  | returned (record : Option Nat) (success : Bool)
deriving DecidableEq

structure Call where
  caller : Caller
  stage : Stage
deriving DecidableEq

structure State where
  records : List RequestRecord
  requests : List Nat
  calls : List Call
deriving DecidableEq

inductive Error where
  | lifetimeNotPositive
  | fileIdEmpty
deriving DecidableEq

def init : State := ⟨[], [], []⟩

/-! ## The functions of the package -/

def createRequest (fileId clientId : Str) (now : Int64) : Request :=
  ⟨fileId, clientId, now, .pending⟩

section

variable (s : State)

/-- The first record of the store that is pending for the pair. -/
def State.find (fileId clientId : Str) : Option (Nat × Request) :=
  s.requests.findSome? fun p => (s.records[p]?).bind fun r =>
    if r.request.fileId = fileId ∧ r.request.clientId = clientId ∧ r.request.status = .pending
    then some (p, r.request) else none

/-- The new record is stored, and its timer started. -/
def State.add (request : Request) : State :=
  { s with
    records := s.records ++ [⟨request, true, .running⟩]
    requests := s.requests ++ [s.records.length] }

def State.getOrCreateRequest (fileId clientId : Str) (lifetime now : Int64) :
    Except Error (Request × Bool) × State :=
  if lifetime ≤ 0 then (.error .lifetimeNotPositive, s)
  else match s.find fileId clientId with
    | some (_, request) => (.ok (request, false), s)
    | none =>
      let request := createRequest fileId clientId now
      (.ok (request, true), s.add request)

def removeRecordLocked (requests : List Nat) (target : Nat) : List Nat := requests.erase target

/-- The record leaves `pending`, and the store. -/
def State.leave (p : Nat) (r : RequestRecord) (newStatus : RequestStatus) : State :=
  { s with
    records := s.records.set p ⟨{ r.request with status := newStatus }, false, r.alarm⟩
    requests := removeRecordLocked s.requests p }

/-- `transitionRecord` as long as it holds the mutex. It returns the timer
that it has taken from the record, or `none` if it returns `false`. -/
def State.transitionRecord (p : Nat) (newStatus : RequestStatus) : Option Bool × State :=
  match s.records[p]? with
  | none => (none, s)
  | some r =>
    if r.request.status ≠ .pending then (none, s)
    else (some r.timer, s.leave p r newStatus)

def Alarm.stop : Alarm → Alarm
  | .running => .stopped
  | .fired => .fired
  | .stopped => .stopped

/-- What `transitionRecord` does after it has given the mutex back. -/
def State.stopTimer (p : Nat) (timer : Bool) (newStatus : RequestStatus) : State :=
  { s with
    records := s.records.modify p fun r =>
      if timer ∧ newStatus ≠ .expired then { r with alarm := r.alarm.stop } else r }

def State.getPendingRequests : List Request :=
  s.requests.filterMap fun p => (s.records[p]?).bind fun r =>
    if r.request.status = .pending then some r.request else none

def State.calculateDemand (fileId : Str) : Except Error Nat :=
  if fileId = [] then .error .fileIdEmpty
  else .ok (s.getPendingRequests.countP fun r => r.fileId = fileId)

/-! ## The steps -/

inductive Action where
  | getOrCreateRequest (fileId clientId : Str) (lifetime now : Int64)
  | resolveRequest (fileId clientId : Str)
  | abortRequest (fileId clientId : Str)
  | getPendingRequests
  | fire (record : Nat)
  | go (call : Nat)
deriving DecidableEq

def State.start (caller : Caller) (stage : Stage) : State :=
  { s with calls := s.calls ++ [⟨caller, stage⟩] }

def State.setStage (k : Nat) (caller : Caller) (stage : Stage) : State :=
  { s with calls := s.calls.set k ⟨caller, stage⟩ }

/-- The call goes on to its next stop. -/
def State.proceed (k : Nat) : Call → Option State
  | ⟨caller, .searching fileId clientId⟩ =>
    match s.find fileId clientId with
    | none => some (s.setStage k caller (.returned none false))
    | some (p, _) => some (s.setStage k caller (.transition p))
  | ⟨caller, .transition p⟩ =>
    match s.transitionRecord p caller.newStatus with
    | (none, s') => some (s'.setStage k caller (.returned (some p) false))
    | (some timer, s') => some (s'.setStage k caller (.stopping p timer))
  | ⟨caller, .stopping p timer⟩ =>
    some ((s.stopTimer p timer caller.newStatus).setStage k caller (.returned (some p) true))
  | ⟨_, .returned _ _⟩ => none

/-- The timer runs out, and its callback is started. -/
def State.fire (p : Nat) : Option State :=
  match s.records[p]? with
  | none => none
  | some r =>
    if r.alarm = .running then
      some (State.start { s with records := s.records.set p { r with alarm := .fired } }
        (.expireRequest p) (.transition p))
    else none

end

def step : Action → State → Option State
  | .getOrCreateRequest fileId clientId lifetime now, s =>
    some (s.getOrCreateRequest fileId clientId lifetime now).2
  | .resolveRequest fileId clientId, s =>
    some (s.start (.resolveRequest fileId clientId) (.searching fileId clientId))
  | .abortRequest fileId clientId, s =>
    some (s.start (.abortRequest fileId clientId) (.searching fileId clientId))
  | .getPendingRequests, s => some s
  | .fire p, s => s.fire p
  | .go k, s => (s.calls[k]?).bind (s.proceed k)

/-! ## What a step does -/

def State.request (s : State) (p : Nat) : Option Request := (s.records[p]?).map (·.request)

/-- The call has made, or will report, the transition of the record. -/
def Stage.succeeded (p : Nat) : Stage → Bool
  | .searching _ _ => false
  | .transition _ => false
  | .stopping q _ => q = p
  | .returned record success => success && record = some p

def State.successes (s : State) (p : Nat) : Nat := s.calls.countP (·.stage.succeeded p)

/-- The record that the call is about. -/
def Stage.record : Stage → Option Nat
  | .searching _ _ => none
  | .transition p => some p
  | .stopping p _ => some p
  | .returned record _ => record

/-- The callback of a timer is about the record that it was started for. -/
def State.Timed (s : State) : Prop :=
  ∀ call ∈ s.calls, ∀ p, call.caller = .expireRequest p → call.stage.record = some p

/-- Calls and timers go on, and the requests stay as they are. -/
structure Quiet (s s' : State) : Prop where
  request : ∀ p, s'.request p = s.request p
  requests : s'.requests = s.requests
  successes : ∀ p, s'.successes p = s.successes p
  timed : s.Timed → s'.Timed

inductive Step (s : State) : Action → State → Prop where
  | quiet {s' : State} (h : Quiet s s') : Step s a s'
  | added (hnone : s.find fileId clientId = none) :
      Step s (.getOrCreateRequest fileId clientId lifetime now)
        (s.add (createRequest fileId clientId now))
  | left {r : RequestRecord} (hcall : s.calls[k]? = some ⟨caller, .transition p⟩)
      (hr : s.records[p]? = some r) (hpending : r.request.status = .pending) :
      Step s (.go k) ((s.leave p r caller.newStatus).setStage k caller (.stopping p r.timer))

variable {s : State} {stage' : Stage}

lemma successes_setStage (hcall : s.calls[k]? = some ⟨caller, stage⟩) (stage' : Stage) (p : Nat) :
    (s.setStage k caller stage').successes p + (stage.succeeded p).toNat =
      s.successes p + (stage'.succeeded p).toNat := by
  obtain ⟨hk, hget⟩ := List.getElem_of_getElem? hcall
  have hle := boole_getElem_le_countP (p := fun call : Call => call.stage.succeeded p) hk
  simp only [State.setStage, State.successes, countP_set hk, hget] at hle ⊢
  generalize s.calls.countP (fun call => call.stage.succeeded p) = n at hle ⊢
  revert hle
  cases stage.succeeded p <;> cases stage'.succeeded p <;> simp <;> omega

lemma timed_setStage (hcall : s.calls[k]? = some ⟨caller, stage⟩)
    (hrecord : ∀ p, stage.record = some p → stage'.record = some p) (h : s.Timed) :
    (s.setStage k caller stage').Timed := by
  intro call hmem p hp
  rcases mem_or_eq_of_mem_set hmem with hold | rfl
  · exact h call hold p hp
  · exact hrecord p (h _ (mem_of_getElem? hcall) p hp)

lemma Quiet.setStage (hcall : s.calls[k]? = some ⟨caller, stage⟩)
    (hsucceeded : ∀ p, stage'.succeeded p = stage.succeeded p)
    (hrecord : ∀ p, stage.record = some p → stage'.record = some p) :
    Quiet s (s.setStage k caller stage') where
  request _ := rfl
  requests := rfl
  successes p := Nat.add_right_cancel (hsucceeded p ▸ successes_setStage hcall ..)
  timed := timed_setStage hcall hrecord

lemma Quiet.start (hsucceeded : ∀ p, stage.succeeded p = false)
    (hrecord : ∀ p, caller = .expireRequest p → stage.record = some p) :
    Quiet s (s.start caller stage) where
  request _ := rfl
  requests := rfl
  successes p := by simp [State.successes, State.start, hsucceeded]
  timed h := forall_mem_append.mpr ⟨h, forall_mem_singleton.mpr hrecord⟩

lemma step_of_getOrCreateRequest (s : State) (fileId clientId : Str) (lifetime now : Int64) :
    Step s (.getOrCreateRequest fileId clientId lifetime now)
      (s.getOrCreateRequest fileId clientId lifetime now).2 := by
  rw [State.getOrCreateRequest]
  split
  · exact .quiet ⟨fun _ => rfl, rfl, fun _ => rfl, id⟩
  split
  · exact .quiet ⟨fun _ => rfl, rfl, fun _ => rfl, id⟩
  · rename_i hnone
    exact .added hnone

lemma request_fired (hr : s.records[p]? = some r) (q : Nat) :
    State.request { s with records := s.records.set p { r with alarm := .fired } } q =
      s.request q := by
  simp only [State.request, getElem?_set]
  split
  · rename_i heq
    subst heq
    rw [if_pos (List.getElem_of_getElem? hr).1, hr]
    rfl
  · rfl

lemma step_of_fire (h : s.fire p = some s') : Step s (.fire p) s' := by
  rw [State.fire] at h
  split at h
  · cases h
  rename_i r hr
  split at h
  · cases h
    have hstart : Quiet s (s.start (.expireRequest p) (.transition p)) :=
      .start (fun _ => rfl) fun q hq => by cases hq; rfl
    exact .quiet { hstart with request := request_fired hr }
  · cases h

lemma request_stopTimer (s : State) (p : Nat) (timer : Bool) (newStatus : RequestStatus)
    (q : Nat) : (s.stopTimer p timer newStatus).request q = s.request q := by
  rw [State.request, State.stopTimer, State.request, getElem?_modify]
  cases s.records[q]? with
  | none => rfl
  | some r =>
    refine congrArg some ?_
    split_ifs <;> rfl

lemma step_of_proceed (hcall : s.calls[k]? = some call)
    (h : s.proceed k call = some s') : Step s (.go k) s' := by
  obtain ⟨caller, stage⟩ := call
  cases stage with
  | searching fileId clientId =>
    rw [State.proceed] at h
    split at h <;> cases h <;> exact .quiet (.setStage hcall (fun _ => rfl) fun _ hp => by cases hp)
  | transition p =>
    have hlate : Quiet s (s.setStage k caller (.returned (some p) false)) :=
      .setStage hcall (fun _ => rfl) fun _ hp => hp
    rw [State.proceed, State.transitionRecord] at h
    cases hr : s.records[p]? with
    | none =>
      rw [hr] at h
      cases h
      exact .quiet hlate
    | some r =>
      rw [hr] at h
      by_cases hpending : r.request.status = .pending
      · simp only [hpending, ne_eq, not_true_eq_false, ↓reduceIte, Option.some.injEq] at h
        subst h
        exact .left hcall hr hpending
      · simp only [hpending, ne_eq, not_false_eq_true, ↓reduceIte, Option.some.injEq] at h
        subst h
        exact .quiet hlate
  | stopping p timer =>
    cases h
    have hend : Quiet s (s.setStage k caller (.returned (some p) true)) :=
      .setStage hcall (fun q => by simp [Stage.succeeded]) fun _ hq => hq
    exact .quiet { hend with request := request_stopTimer s p timer _ }
  | returned record success => cases h

lemma step_cases (h : step a s = some s') : Step s a s' := by
  cases a with
  | getOrCreateRequest fileId clientId lifetime now =>
    cases h
    exact step_of_getOrCreateRequest ..
  | resolveRequest fileId clientId =>
    cases h
    exact .quiet (.start (fun _ => rfl) fun _ hp => by cases hp)
  | abortRequest fileId clientId =>
    cases h
    exact .quiet (.start (fun _ => rfl) fun _ hp => by cases hp)
  | getPendingRequests =>
    cases h
    exact .quiet ⟨fun _ => rfl, rfl, fun _ => rfl, id⟩
  | fire p => exact step_of_fire h
  | go k =>
    obtain ⟨call, hcall, hproceed⟩ := Option.bind_eq_some_iff.mp h
    exact step_of_proceed hcall hproceed

/-! ## The requests after a step -/

lemma request_length (s : State) : s.request s.records.length = none := by
  rw [State.request, getElem?_eq_none le_rfl]
  rfl

lemma request_add (request : Request) (q : Nat) : (s.add request).request q =
      if q = s.records.length then some request else s.request q := by
  rw [State.request, State.add, State.request]
  rcases lt_trichotomy q s.records.length with hlt | rfl | hgt
  · rw [if_neg hlt.ne, getElem?_append_left hlt]
  · rw [if_pos rfl, getElem?_concat_length]
    rfl
  · rw [if_neg hgt.ne', getElem?_eq_none (by rw [length_append]; exact hgt),
      getElem?_eq_none hgt.le]

lemma request_leave (hr : s.records[p]? = some r) (newStatus : RequestStatus)
    (stage : Stage) (q : Nat) :
    ((s.leave p r newStatus).setStage k caller stage).request q =
      if q = p then some { r.request with status := newStatus } else s.request q := by
  simp only [State.request, State.setStage, State.leave, getElem?_set]
  by_cases heq : p = q
  · subst heq
    rw [if_pos rfl, if_pos (List.getElem_of_getElem? hr).1, if_pos rfl]
    rfl
  · rw [if_neg heq, if_neg (Ne.symm heq)]

end Cipher.Requests
