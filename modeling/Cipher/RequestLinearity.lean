import Cipher.RequestStore
import Mathlib.Data.Finset.Card

/-!
# Every request ends once

Whatever the order in which calls and timers take the mutex:

- **one request** (`Linear.unique`): a client has at most one pending
  request for a file, since `GetOrCreateRequest` searches and stores under
  one lock, and the store holds exactly what is pending (`Linear.stored`);
- **one end** (`Linear.reports`, `request_of_ended`): of all calls that
  reach a record, the one that finds it pending succeeds, and the record
  does not change afterwards;
- **late timers** (`frame_of_timer`): a callback has the pointer of its own
  record, so the pair may long have a new request without being touched;
- **demand** (`calculateDemand_eq`): the pending requests for a file are of
  different clients, so counting requests is counting clients.

The demand of the empty file is not counted, though requests for it can be
made: `CalculateDemand` refuses the empty identifier.
-/

namespace Cipher.Requests

open Go Transition List Option

/-! ## The invariant -/

/-- How many calls report the end of a request. -/
def ends : Option Request → Nat
  | none => 0
  | some r => if r.status = .pending then 0 else 1

structure Linear (s : State) : Prop where
  stored : ∀ p, p ∈ s.requests ↔ ∃ r, s.request p = some r ∧ r.status = .pending
  nodup : s.requests.Nodup
  unique : ∀ {p q : Nat} {r r' : Request}, s.request p = some r → s.request q = some r' →
    r.status = .pending → r'.status = .pending → r.fileId = r'.fileId →
    r.clientId = r'.clientId → p = q
  reports : ∀ p, s.successes p = ends (s.request p)
  timed : s.Timed

lemma linear_init : Linear init := by
  refine ⟨fun p => iff_of_false not_mem_nil ?_, nodup_nil, fun hp => ?_, fun _ => rfl,
    fun call hcall => absurd hcall not_mem_nil⟩
  · rintro ⟨r, hr, -⟩
    cases hr
  · cases hp

variable {s s' : State} {a : Action} {k p q : Nat} {fileId : Str}
  {r : Request}

lemma Quiet.linear (hquiet : Quiet s s') (h : Linear s) : Linear s' := by
  refine ⟨fun p => ?_, hquiet.requests ▸ h.nodup, fun hp hq => ?_, fun p => ?_,
    hquiet.timed h.timed⟩
  · rw [hquiet.requests, hquiet.request]
    exact h.stored p
  · rw [hquiet.request] at hp hq
    exact h.unique hp hq
  · rw [hquiet.successes, hquiet.request]
    exact h.reports p

/-- The search misses nothing that is pending. -/
lemma Linear.find_eq_none (h : Linear s) (hnone : s.find fileId clientId = none)
    (hr : s.request p = some r) (hpending : r.status = .pending) :
    ¬ (r.fileId = fileId ∧ r.clientId = clientId) := by
  rintro ⟨hfile, hclient⟩
  have hmem : p ∈ s.requests := (h.stored p).mpr ⟨r, hr, hpending⟩
  obtain ⟨record, hrecord, rfl⟩ := map_eq_some_iff.mp hr
  have hskipped := findSome?_eq_none_iff.mp hnone p hmem
  rw [hrecord, bind_some, if_pos ⟨hfile, hclient, hpending⟩] at hskipped
  cases hskipped

lemma Linear.add (h : Linear s) (now : Int64) (hnone : s.find fileId clientId = none) :
    Linear (s.add (createRequest fileId clientId now)) := by
  have hnew := request_length s
  refine ⟨fun p => ?_, ?_, fun {p q r r'} hp hq hr hr' hfile hclient => ?_, fun p => ?_, h.timed⟩
  · rw [request_add]
    split
    · rename_i heq
      exact iff_of_true (by simp [State.add, heq]) ⟨_, rfl, rfl⟩
    · rename_i hne
      rw [← h.stored p]
      simp [State.add, hne]
  · refine nodup_append.mpr ⟨h.nodup, nodup_singleton _, fun p hp q hq heq => ?_⟩
    obtain rfl := mem_singleton.mp hq
    obtain ⟨r, hr, -⟩ := (h.stored _).mp (heq ▸ hp)
    cases hnew.symm.trans hr
  · rw [request_add] at hp hq
    split at hp <;> split at hq
    · rename_i heq heq'
      exact heq.trans heq'.symm
    · cases hp
      exact absurd ⟨hfile.symm, hclient.symm⟩ (h.find_eq_none hnone hq hr')
    · cases hq
      exact absurd ⟨hfile, hclient⟩ (h.find_eq_none hnone hp hr)
    · exact h.unique hp hq hr hr' hfile hclient
  · rw [request_add]
    refine (h.reports p).trans ?_
    split
    · rename_i heq
      rw [heq, hnew]
      rfl
    · rfl

lemma Caller.newStatus_ne_pending (caller : Caller) : caller.newStatus ≠ .pending := by
  cases caller <;> exact RequestStatus.noConfusion

/-- The call that finds the record pending is the one that reports it. -/
lemma Linear.leave (h : Linear s) {r : RequestRecord}
    (hcall : s.calls[k]? = some ⟨caller, .transition p⟩) (hr : s.records[p]? = some r)
    (hpending : r.request.status = .pending) :
    Linear ((s.leave p r caller.newStatus).setStage k caller (.stopping p r.timer)) := by
  have hrequest : s.request p = some r.request := by rw [State.request, hr]; rfl
  have hne := caller.newStatus_ne_pending
  refine ⟨fun q => ?_, h.nodup.erase p, fun {q q' r₁ r₂} hq hq' hr₁ hr₂ hfile hclient => ?_,
    fun q => ?_, timed_setStage (s := s) hcall (fun _ hp => hp) h.timed⟩
  · change q ∈ s.requests.erase p ↔ _
    rw [h.nodup.mem_erase_iff, request_leave hr]
    split
    · rename_i heq
      simp [heq, hne]
    · rename_i hqp
      rw [and_iff_right hqp]
      exact h.stored q
  · rw [request_leave hr] at hq hq'
    split at hq
    · cases hq
      exact absurd hr₁ hne
    split at hq'
    · cases hq'
      exact absurd hr₂ hne
    exact h.unique hq hq' hr₁ hr₂ hfile hclient
  · have hcount := successes_setStage (s := s.leave p r caller.newStatus) hcall
      (.stopping p r.timer) q
    change _ + 0 = s.successes q + (decide (p = q)).toNat at hcount
    rw [h.reports] at hcount
    rw [request_leave hr]
    split
    · rename_i heq
      subst heq
      simpa [hrequest, ends, hpending, hne] using hcount
    · rename_i hqp
      simpa [Ne.symm hqp] using hcount

lemma Step.linear (hstep : Step s a s') (h : Linear s) : Linear s' := by
  cases hstep with
  | quiet hquiet => exact hquiet.linear h
  | added hnone => exact h.add _ hnone
  | left hcall hr hpending => exact h.leave hcall hr hpending

lemma Linear.run (h : Linear s) (hrun : Run step (fun _ _ => True) s s') : Linear s' :=
  hrun.inv h fun _ _ _ _ hstep h => (step_cases hstep).linear h

/-! ## Requests that have ended -/

lemma Step.request_of_ended (hstep : Step s a s') (hr : s.request p = some r)
    (hended : r.status ≠ .pending) : s'.request p = some r := by
  cases hstep with
  | quiet hquiet => exact (hquiet.request p).trans hr
  | added hnone =>
    rw [request_add, if_neg]
    · exact hr
    · rintro rfl
      cases (request_length s).symm.trans hr
  | left hcall hrecord hpending =>
    rw [request_leave hrecord, if_neg]
    · exact hr
    · rintro rfl
      rw [State.request, hrecord] at hr
      cases hr
      exact hended hpending

lemma request_of_ended (hrun : Run step (fun _ _ => True) s s') (hr : s.request p = some r)
    (hended : r.status ≠ .pending) : s'.request p = some r :=
  hrun.inv hr fun _ _ _ _ hstep h => (step_cases hstep).request_of_ended h hended

/-! ## Late timers -/

/-- The action is by the timer that was started with the record, or by its
callback. -/
def Action.ByTimer (s : State) (p : Nat) (a : Action) : Prop :=
  a = .fire p ∨ ∃ k call, a = .go k ∧ s.calls[k]? = some call ∧ call.caller = .expireRequest p

lemma Step.frame_of_timer (hstep : Step s a s') (h : Linear s) (ha : a.ByTimer s p)
    (hq : q ≠ p) : s'.request q = s.request q ∧ (q ∈ s'.requests ↔ q ∈ s.requests) := by
  cases hstep with
  | quiet hquiet => exact ⟨hquiet.request q, by rw [hquiet.requests]⟩
  | added =>
    rcases ha with ha | ⟨k, call, ha, -⟩ <;> cases ha
  | @left k p' caller r hcall hr hpending =>
    obtain rfl : p' = p := by
      rcases ha with ha | ⟨k', call, ha, hcall', hcaller⟩
      · cases ha
      · cases ha
        cases hcall.symm.trans hcall'
        exact Option.some.inj (h.timed _ (mem_of_getElem? hcall) p hcaller)
    refine ⟨?_, mem_erase_of_ne hq⟩
    rw [request_leave hr, if_neg hq]

/-! ## Demand -/

/-- The clients that have a pending request for the file. -/
def State.clients (s : State) (fileId : Str) : Finset Str :=
  ((s.records.filter fun r => r.request.fileId = fileId ∧ r.request.status = .pending).map
    (·.request.clientId)).toFinset

lemma mem_clients :
    clientId ∈ s.clients fileId ↔ ∃ p r, s.request p = some r ∧ r.status = .pending ∧
      r.fileId = fileId ∧ r.clientId = clientId := by
  simp only [State.clients, List.mem_toFinset, List.mem_map, List.mem_filter,
    decide_eq_true_eq, State.request, Option.map_eq_some_iff]
  constructor
  · rintro ⟨r, ⟨hr, hfile, hpending⟩, hclient⟩
    obtain ⟨p, hp⟩ := mem_iff_getElem?.mp hr
    exact ⟨p, r.request, ⟨r, hp, rfl⟩, hpending, hfile, hclient⟩
  · rintro ⟨p, _, ⟨r, hp, rfl⟩, hpending, hfile, hclient⟩
    exact ⟨r, ⟨List.mem_of_getElem? hp, hfile, hpending⟩, hclient⟩

/-- The request that the snapshot takes for a pointer of the store. -/
lemma pending_eq_some : ((s.records[p]?).bind fun r =>
      if r.request.status = .pending then some r.request else none) = some r ↔
      s.request p = some r ∧ r.status = .pending := by
  rw [bind_eq_some_iff, State.request, map_eq_some_iff]
  constructor
  · rintro ⟨record, hrecord, hsome⟩
    obtain ⟨hpending, hsome⟩ := ite_none_right_eq_some.mp hsome
    cases hsome
    exact ⟨⟨record, hrecord, rfl⟩, hpending⟩
  · rintro ⟨⟨record, hrecord, rfl⟩, hpending⟩
    exact ⟨record, hrecord, if_pos hpending⟩

lemma Linear.mem_getPendingRequests (h : Linear s) :
    r ∈ s.getPendingRequests ↔ ∃ p, s.request p = some r ∧ r.status = .pending := by
  rw [State.getPendingRequests, mem_filterMap]
  simp only [pending_eq_some]
  exact ⟨fun ⟨p, _, hr⟩ => ⟨p, hr⟩, fun ⟨p, hr⟩ => ⟨p, (h.stored p).mpr ⟨r, hr⟩, hr⟩⟩

lemma Linear.pairwise_getPendingRequests (h : Linear s) : s.getPendingRequests.Pairwise fun r r' =>
      r.fileId = r'.fileId → r.clientId ≠ r'.clientId := by
  refine pairwise_filterMap.mpr (h.nodup.imp fun {p q} hpq r hr r' hr' hfile hclient => ?_)
  obtain ⟨hp, hpending⟩ := pending_eq_some.mp hr
  obtain ⟨hq, hpending'⟩ := pending_eq_some.mp hr'
  exact hpq (h.unique hp hq hpending hpending' hfile hclient)

lemma Linear.calculateDemand_eq (h : Linear s) (hfile : fileId ≠ []) :
    s.calculateDemand fileId = .ok (s.clients fileId).card := by
  rw [State.calculateDemand, if_neg hfile, countP_eq_length_filter]
  refine congrArg Except.ok ?_
  set asked := s.getPendingRequests.filter fun r => r.fileId = fileId with hasked
  have hmem : ∀ {r}, r ∈ asked ↔
      (∃ p, s.request p = some r ∧ r.status = .pending) ∧ r.fileId = fileId := by
    intro r
    rw [mem_filter, h.mem_getPendingRequests, decide_eq_true_eq]
  have hnodup : (asked.map (·.clientId)).Nodup := by
    refine pairwise_map.mpr ?_
    refine (h.pairwise_getPendingRequests.filter _).imp_of_mem fun {r r'} hr hr' hne => ?_
    exact hne ((hmem.mp hr).2.trans (hmem.mp hr').2.symm)
  have hclients : s.clients fileId = (asked.map (·.clientId)).toFinset := by
    ext clientId
    rw [mem_clients, List.mem_toFinset, List.mem_map]
    constructor
    · rintro ⟨p, r, hr, hpending, hf, hc⟩
      exact ⟨r, hmem.mpr ⟨⟨p, hr, hpending⟩, hf⟩, hc⟩
    · rintro ⟨r, hr, hc⟩
      obtain ⟨⟨p, hp, hpending⟩, hf⟩ := hmem.mp hr
      exact ⟨p, r, hp, hpending, hf, hc⟩
  rw [hclients, toFinset_card_of_nodup hnodup, length_map]

/-! ## The store as a whole -/

/-- In every state that calls and timers lead to: a client has at most one
pending request for a file. A request that has ended has exactly one
successful call, a pending one has none, and what has ended stays as it is.
A timer does not touch any other request than the one it was started for.
The demand of a file that has a name is the number of clients that wait for
it; the empty name is refused. -/
theorem requests_linear {s : State} (hrun : Run step (fun _ _ => True) init s) :
    (∀ p q r r', s.request p = some r → s.request q = some r' →
      r.status = .pending → r'.status = .pending →
      r.fileId = r'.fileId → r.clientId = r'.clientId → p = q) ∧
    (∀ p r, s.request p = some r → (r.status = .pending → s.successes p = 0) ∧
      (r.status ≠ .pending → s.successes p = 1 ∧ ∀ s', Run step (fun _ _ => True) s s' →
          s'.request p = some r ∧ s'.successes p = 1)) ∧
    (∀ p a s', a.ByTimer s p → step a s = some s' → ∀ q, q ≠ p →
      s'.request q = s.request q ∧ (q ∈ s'.requests ↔ q ∈ s.requests)) ∧
    (∀ fileId, s.calculateDemand fileId =
      if fileId = [] then .error .fileIdEmpty else .ok (s.clients fileId).card) := by
  have h := linear_init.run hrun
  refine ⟨fun p q r r' => h.unique, fun p r hr => ⟨fun hpending => ?_, fun hended => ?_⟩,
    fun p a s' ha hstep q => (step_cases hstep).frame_of_timer h ha, fun fileId => ?_⟩
  · rw [h.reports, hr, ends, if_pos hpending]
  · refine ⟨by rw [h.reports, hr, ends, if_neg hended], fun s' hrun' => ?_⟩
    have hr' := request_of_ended hrun' hr hended
    exact ⟨hr', by rw [(h.run hrun').reports, hr', ends, if_neg hended]⟩
  · by_cases hfile : fileId = []
    · rw [if_pos hfile, State.calculateDemand, if_pos hfile]
    · rw [if_neg hfile]
      exact h.calculateDemand_eq hfile

/-- A request is resolved while its timer runs out, the pair gets a new one,
and only then does the callback come to the mutex. -/
def lateCallback : List Action :=
  [.getOrCreateRequest [1] [2] 10 0, .resolveRequest [1] [2], .go 0, .fire 0, .go 0,
    .getOrCreateRequest [1] [2] 10 5, .go 1, .go 0]

theorem requests_linear_lateCallback : ∃ s, execute step lateCallback init = some s ∧
    s.request 1 = some ⟨[1], [2], 5, .pending⟩ ∧ s.successes 1 = 0 ∧ s.successes 0 = 1 ∧
    s.calculateDemand [1] = .ok (s.clients [1]).card := by
  obtain ⟨s, hs⟩ : ∃ s, execute step lateCallback init = some s := ⟨_, rfl⟩
  obtain ⟨-, hreports, -, hdemand⟩ := requests_linear (.of_execute _ hs)
  have hfirst : s.request 0 = some ⟨[1], [2], 0, .resolved⟩ := by
    cases hs
    rfl
  have hsecond : s.request 1 = some ⟨[1], [2], 5, .pending⟩ := by
    cases hs
    rfl
  exact ⟨s, hs, hsecond, (hreports 1 _ hsecond).1 rfl, ((hreports 0 _ hfirst).2 nofun).1,
    hdemand [1]⟩

/-- A client waits for the file without a name, and its demand is not
counted. -/
theorem calculateDemand_empty : ∃ s, Run step (fun _ _ => True) init s ∧
    (s.clients []).card = 1 ∧ s.calculateDemand [] = .error .fileIdEmpty :=
  ⟨_, .of_execute [.getOrCreateRequest [] [2] 10 0] rfl, rfl, rfl⟩

end Cipher.Requests
