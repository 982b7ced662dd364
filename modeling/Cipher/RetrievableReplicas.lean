import Cipher.DistributionRounds
import Cipher.Placement

/-!
# Replicas that can be found

`Distribute` counts the chunks that were acknowledged, and returns `nil` if
there are enough of each. A provider stores and announces the manifest only
with the batch, and a consumer finds the provider only then; but whether
the batch was completed is not looked at. So the replicas that are counted
can be fetched if every provider that has taken a chunk has also completed
a batch, and for chunks and providers that are all different only then: no
chunk is ever committed by more providers than are asked for.
-/

namespace Cipher.Distribution

open Bytes Binary Go Content Push List

/-! ## What the tracker says -/

/-- What happened with a provider. -/
def Progress.eventsOf (st : Progress) (p : PeerID) : List Event :=
  st.log.filterMap fun x => if x.1 = p then some x.2 else none

variable {st : Progress} {p : PeerID}

lemma Progress.mem_eventsOf : e ∈ st.eventsOf p ↔ (p, e) ∈ st.log := by
  rw [Progress.eventsOf, mem_filterMap]
  constructor
  · rintro ⟨⟨q, e'⟩, hmem, heq⟩
    obtain ⟨rfl, he⟩ := Option.ite_none_right_eq_some.mp heq
    cases he
    exact hmem
  · exact fun hmem => ⟨(p, e), hmem, if_pos rfl⟩

variable {job : Job} {pattern : Nat → PeerID → Behaviour} {st : Progress}

/-- Every chunk that counts as committed was acknowledged. -/
structure Booked (job : Job) (st : Progress) : Prop where
  requiredR : st.tracker.requiredR = job.plan.replication
  accepted : ∀ c p, st.tracker.state c p = .committed →
    Accepted job.plan.contentId (st.eventsOf p) c

lemma Job.Round.booked (hround : job.Round behaviour batches st st' final)
    (hretries : 0 < job.cfg.maxRetriesPerChunk) (hfiled : Filed job.engine)
    (h : Booked job st) : Booked job st' := by
  refine ⟨hround.requiredR.trans h.requiredR, fun c p hstate => ?_⟩
  rw [hround.state] at hstate
  split at hstate
  · rename_i hbatch
    have haccepted := (hround.uploads p).accepted hretries hfiled c hbatch.2 hstate
    refine haccepted.mono fun e he => Progress.mem_eventsOf.mpr ((hround.log p e).mpr (.inr ?_))
    exact ⟨hbatch.1, ne_nil_of_mem hbatch.2, he⟩
  · refine (h.accepted c p hstate).mono fun e he => ?_
    exact Progress.mem_eventsOf.mpr ((hround.log p e).mpr (.inl (Progress.mem_eventsOf.mp he)))

lemma Booked.reassigned (hactive : job.active.Nodup) (h : Booked job st) :
    Booked job (job.reassigned st) := by
  refine ⟨(job.requiredR_reassigned hactive st).trans h.requiredR, fun c p hstate => ?_⟩
  rw [← GlobalReplicaTracker.mem_committed, job.committed_reassigned hactive,
    GlobalReplicaTracker.mem_committed] at hstate
  exact h.accepted c p hstate

lemma requiredR_initTracker (plan : PlacementPlan) (tracker : GlobalReplicaTracker) :
    (initTracker plan tracker).requiredR = tracker.requiredR :=
  initTracker_inv (I := fun t => t.requiredR = tracker.requiredR) (fun _ _ _ h => h) rfl

lemma booked_start (job : Job) :
    Booked job ⟨initTracker job.plan (.new job.plan.replication), []⟩ := by
  refine ⟨requiredR_initTracker .., fun c p hstate => ?_⟩
  cases state_initTracker hstate

lemma Job.booked_progress (pattern : Nat → PeerID → Behaviour) (hactive : job.active.Nodup)
    (hretries : 0 < job.cfg.maxRetriesPerChunk) (hfiled : Filed job.engine) :
    Booked job (job.progress pattern (.new job.plan.replication)) := by
  refine Job.failover_inv (fun _ h => h.reassigned hactive) (fun round st h => ?_) _ _ _ ?_
  · obtain ⟨final, hround⟩ := job.round_retry ..
    exact hround.booked hretries hfiled (h.reassigned hactive)
  · obtain ⟨final, hround⟩ := job.round_first pattern
    exact hround.booked hretries hfiled (booked_start job)

/-! ## No more replicas than asked for -/

/-- Only what counts as committed was acknowledged, and no chunk was by too
many. -/
structure Tight (job : Job) (st : Progress) : Prop where
  bounded : ∀ c ∈ job.plan.manifest.chunkIds,
    (st.tracker.committed c).card ≤ job.plan.replication
  known : ∀ c p, Accepted job.plan.contentId (st.eventsOf p) c →
    st.tracker.state c p = .committed

variable {c : ChunkID}

section

variable (hround : job.Round behaviour batches st st' final)

include hround

/-- What is new in the log is from the uploads of the round. -/
lemma Job.Round.accepted (h : Accepted job.plan.contentId (st'.eventsOf p) c) :
    Accepted job.plan.contentId (st.eventsOf p) c ∨ (p ∈ job.active ∧ batches p ≠ [] ∧
      Accepted job.plan.contentId (job.events behaviour batches p) c) := by
  obtain ⟨chunk, resp, hmem, hc⟩ := h
  rcases (hround.log p _).mp (Progress.mem_eventsOf.mp hmem) with hold | ⟨hp, hne, hnew⟩
  · exact .inl ⟨chunk, resp, Progress.mem_eventsOf.mpr hold, hc⟩
  · exact .inr ⟨hp, hne, chunk, resp, hnew, hc⟩

lemma Job.Round.known (hfiled : Filed job.engine) (hnodup : ∀ p, (batches p).Nodup)
    (hnew : ∀ c p, c ∈ batches p → st.tracker.state c p ≠ .committed)
    (h : ∀ c p, Accepted job.plan.contentId (st.eventsOf p) c →
      st.tracker.state c p = .committed) (hacc : Accepted job.plan.contentId (st'.eventsOf p) c) :
    st'.tracker.state c p = .committed := by
  rw [hround.state]
  rcases hround.accepted hacc with hold | ⟨hp, -, hupload⟩
  · have hstate := h c p hold
    rwa [if_neg fun hbatch => hnew c p hbatch.2 hstate]
  · obtain ⟨hc, hfinal⟩ := (hround.uploads p).refused hfiled (hnodup p) c hupload
    rwa [if_pos ⟨hp, hc⟩]

/-- A round commits chunks of its batches only. -/
lemma Job.Round.committed_subset (h : p ∈ st'.tracker.committed c) :
    p ∈ st.tracker.committed c ∨ c ∈ batches p := by
  rw [GlobalReplicaTracker.mem_committed, hround.state] at h
  split at h
  · rename_i hbatch
    exact .inr hbatch.2
  · exact .inl (GlobalReplicaTracker.mem_committed.mpr h)

end

lemma Tight.reassigned (hactive : job.active.Nodup) (h : Tight job st) :
    Tight job (job.reassigned st) := by
  refine ⟨fun c hc => ?_, fun c p hacc => ?_⟩
  · rw [job.committed_reassigned hactive]
    exact h.bounded c hc
  · rw [← GlobalReplicaTracker.mem_committed, job.committed_reassigned hactive,
      GlobalReplicaTracker.mem_committed]
    exact h.known c p hacc

lemma Tight.retry (hactive : job.active.Nodup) (hfiled : Filed job.engine)
    (hchunks : job.plan.manifest.chunkIds.Nodup) (h : Tight job st)
    (behaviour : PeerID → Behaviour) : Tight job (job.retry behaviour st) := by
  have hre := reassigned_reassign hactive job.plan st.tracker
  obtain ⟨final, hround⟩ := job.round_retry ..
  refine ⟨fun c hc => ?_, fun c p hacc => ?_⟩
  · have hsub : (job.retry behaviour st).tracker.committed c ⊆
        st.tracker.committed c ∪ (picks job.plan job.active st.tracker c).toFinset := by
      intro p hp
      rcases hround.committed_subset hp with hold | hnew
      · rw [job.committed_reassigned hactive] at hold
        exact Finset.mem_union_left _ hold
      · exact Finset.mem_union_right _ (mem_toFinset.mpr ((hre.mem c p).mp hnew).2)
    have hpicks : (picks job.plan job.active st.tracker c).toFinset.card ≤
        job.plan.replication - (st.tracker.committed c).card :=
      (toFinset_card_le _).trans (length_take_le _ _)
    calc _ ≤ (st.tracker.committed c ∪
              (picks job.plan job.active st.tracker c).toFinset).card := Finset.card_le_card hsub
      _ ≤ (st.tracker.committed c).card +
            (picks job.plan job.active st.tracker c).toFinset.card := Finset.card_union_le _ _
      _ ≤ job.plan.replication := by have := h.bounded c hc; omega
  · -- a chunk is given only to providers that have not committed it
    have hnew : ∀ c p, c ∈ (reassign job.plan job.active st.tracker).1 p →
        (job.reassigned st).tracker.state c p ≠ .committed := by
      intro c p hmem
      rw [job.state_reassigned hactive, if_pos ((hre.mem c p).mp hmem)]
      exact nofun
    exact hround.known hfiled (hre.nodup hchunks) hnew (h.reassigned hactive).known hacc

lemma Job.tight_progress (pattern : Nat → PeerID → Behaviour)
    (hplan : Planned m providers job.plan) (hproviders : providers.Nodup)
    (hchunks : m.chunkIds.Nodup) (hactive : job.active.Nodup) (hfiled : Filed job.engine) :
    Tight job (job.progress pattern (.new job.plan.replication)) := by
  have hchunks' : job.plan.manifest.chunkIds.Nodup := by rwa [hplan.manifest]
  have hnone : ∀ c p,
      (initTracker job.plan (.new job.plan.replication)).state c p ≠ .committed := by
    intro c p hstate
    cases state_initTracker hstate
  obtain ⟨final, hround⟩ := job.round_first pattern
  refine Job.failover_inv (fun _ h => h.reassigned hactive)
    (fun _ _ h => h.retry hactive hfiled hchunks' _) _ _ _ ⟨fun c hc => ?_, fun c p hacc => ?_⟩
  · refine hplan.card_assigned_le (c := c) hchunks fun p hp => ?_
    rcases hround.committed_subset hp with hold | hnew
    · exact absurd (GlobalReplicaTracker.mem_committed.mp hold) (hnone c p)
    · exact hnew
  · have htargets : ∀ i < m.chunkIds.length,
        (targets providers job.plan.replication i).Nodup := fun i _ =>
      nodup_targets hproviders hplan.bounded i
    refine hround.known hfiled (hplan.nodup_providerChunks htargets hchunks)
      (fun c p _ => hnone c p) (fun c p hold => ?_) hacc
    obtain ⟨chunk, resp, hmem, -⟩ := hold
    cases hmem

/-! ## Retrievable replicas -/

/-- Enough providers have taken the chunk and completed a batch. -/
def Retrievable (plan : PlacementPlan) (st : Progress) (c : ChunkID) : Prop :=
  ∃ ps : Finset PeerID, plan.replication ≤ ps.card ∧ ∀ p ∈ ps,
    Accepted plan.contentId (st.eventsOf p) c ∧ Finished plan.contentId (st.eventsOf p)

/-- Every provider that took a chunk of the content completed a batch of
it. -/
def AllFinished (plan : PlacementPlan) (st : Progress) : Prop :=
  ∀ p, ∀ c ∈ plan.manifest.chunkIds, Accepted plan.contentId (st.eventsOf p) c →
    Finished plan.contentId (st.eventsOf p)

lemma distribute_eq_ok (h : distribute engine plan order cfg pattern tracker = (.ok (), st)) :
    ∃ manifestBytes, st = Job.progress ⟨engine, plan, order, cfg, manifestBytes⟩ pattern tracker ∧
      st.tracker.isComplete plan.manifest.chunkIds = true := by
  rw [distribute] at h
  split at h
  · cases h
  · rename_i manifestBytes _
    dsimp only at h
    split at h
    · rename_i hcomplete
      obtain rfl := (Prod.mk.inj h).2
      exact ⟨manifestBytes, rfl, hcomplete⟩
    · cases h

/-! ## Uploads that go through as a whole -/

/-- The provider takes no chunk. -/
def Behaviour.Refusing (contentId : ContentID) (b : Behaviour) : Prop :=
  ∀ k chunk, succeeds (sendChunk chunk) (b.replies k (buildPushChunk contentId chunk)) = false

lemma Behaviour.Refusing.not_accepted {b : Behaviour} (hb : b.Refusing contentId) (u : Upload)
    (k : Nat) (c : ChunkID) :
    ¬ Accepted contentId (u.run engine b k) c := by
  rintro ⟨chunk, resp, hmem, -, hsend⟩
  obtain ⟨j, hresp⟩ := reply_of_mem_run hmem
  have hrefused := hb j chunk
  rw [← hresp, succeeds, hsend] at hrefused
  cases hrefused

lemma Job.Round.finished (hround : job.Round behaviour batches st st' final)
    (hwhole : ∀ p, (behaviour p).Accepting job.plan.contentId ∨
      (behaviour p).Refusing job.plan.contentId) (hstocked : ∀ p, Stocked job.engine (batches p))
    (h : ∀ p c, Accepted job.plan.contentId (st.eventsOf p) c →
      Finished job.plan.contentId (st.eventsOf p))
    (hacc : Accepted job.plan.contentId (st'.eventsOf p) c) :
    Finished job.plan.contentId (st'.eventsOf p) := by
  rcases hround.accepted hacc with hold | ⟨hp, hne, hnew⟩
  · refine (h p c hold).mono fun e he => ?_
    exact Progress.mem_eventsOf.mpr ((hround.log p e).mpr (.inl (Progress.mem_eventsOf.mp he)))
  · have haccepting := (hwhole p).resolve_right fun hb => hb.not_accepted _ _ _ hnew
    have hfinished := (run_uploadToProvider_accepting haccepting (hstocked p)
      job.manifestBytes job.cfg.maxRetriesPerChunk).2
    exact hfinished.mono fun e he =>
      Progress.mem_eventsOf.mpr ((hround.log p e).mpr (.inr ⟨hp, hne, he⟩))

section

variable (contentId : ContentID)

/-- Every provider takes all of an upload or no chunk of it. -/
def AllOrNothing (pattern : Nat → PeerID → Behaviour) : Prop :=
  ∀ round p, (pattern round p).Accepting contentId ∨ (pattern round p).Refusing contentId

lemma Job.finished_progress (hplan : Planned m providers job.plan) (hactive : job.active.Nodup)
    (hwhole : AllOrNothing job.plan.contentId pattern) (hstocked : Stocked job.engine m.chunkIds)
    (hacc : Accepted job.plan.contentId
      ((job.progress pattern (.new job.plan.replication)).eventsOf p) c) :
    Finished job.plan.contentId
      ((job.progress pattern (.new job.plan.replication)).eventsOf p) := by
  refine Job.failover_inv (I := fun st => ∀ p c, Accepted job.plan.contentId (st.eventsOf p) c →
    Finished job.plan.contentId (st.eventsOf p)) (fun _ h => h) (fun round st h p c hacc => ?_)
    _ _ _ (fun p c hacc => ?_) p c hacc
  · obtain ⟨final, hround⟩ := job.round_retry ..
    have hre := reassigned_reassign hactive job.plan st.tracker
    refine hround.finished (hwhole round) (fun p c hc => hstocked c ?_) h hacc
    rw [← hplan.manifest]
    exact ((hre.mem c p).mp hc).1
  · obtain ⟨final, hround⟩ := job.round_first pattern
    refine hround.finished (hwhole 0) (fun p c hc => hstocked c ?_) ?_ hacc
    · obtain ⟨i, hget, -⟩ := hplan.mem_providerChunks.mp hc
      exact mem_of_getElem? hget
    · rintro p c ⟨chunk, resp, hmem, -⟩
      cases hmem

/-- If `Distribute` returns `nil`, every chunk can be fetched from enough
providers if all that took a chunk have completed a batch, as they have if
no provider takes only a part of an upload. If chunks and providers are all
different, it is so only then. -/
theorem distribute_retrievable {m : Manifest} {providers : List PeerID} {replication : Int}
    {plan : PlacementPlan} {engine : Storage} {order : List PeerID} {cfg : UploaderConfig}
    {st : Progress} (hplan : planPlacement m providers replication = .ok plan)
    (horder : order.Nodup) (hretries : 0 < cfg.maxRetriesPerChunk) (hfiled : Filed engine)
    (hok : distribute engine plan order cfg pattern (.new plan.replication) = (.ok (), st)) :
    (AllOrNothing plan.contentId pattern → Stocked engine m.chunkIds → AllFinished plan st) ∧
      (AllFinished plan st → ∀ c ∈ m.chunkIds, Retrievable plan st c) ∧
      (m.chunkIds.Nodup → providers.Nodup →
        (∀ c ∈ m.chunkIds, Retrievable plan st c) → AllFinished plan st) := by
  have hplanned := planned_of_planPlacement hplan
  obtain ⟨manifestBytes, rfl, hcomplete⟩ := distribute_eq_ok hok
  have hactive : (Job.active ⟨engine, plan, order, cfg, manifestBytes⟩).Nodup := horder.filter _
  have hbooked := Job.booked_progress pattern hactive hretries hfiled
  refine ⟨fun hwhole hstocked p c _ hacc => ?_, fun hfinished c hc => ?_,
    fun hchunks hproviders hretrievable p c hc hacc => ?_⟩
  · exact Job.finished_progress hplanned hactive hwhole hstocked hacc
  · have hc' : c ∈ plan.manifest.chunkIds := by rwa [hplanned.manifest]
    have henough := GlobalReplicaTracker.isComplete_iff.mp hcomplete c hc'
    rw [hbooked.requiredR] at henough
    refine ⟨_, henough, fun p hp => ?_⟩
    have hacc := hbooked.accepted c p (GlobalReplicaTracker.mem_committed.mp hp)
    exact ⟨hacc, hfinished p c hc' hacc⟩
  · have htight := Job.tight_progress pattern hplanned hproviders hchunks hactive hfiled
    rw [hplanned.manifest] at hc
    obtain ⟨ps, henough, hps⟩ := hretrievable c hc
    -- the providers to fetch it from are all that have committed the chunk
    have hsub : ps ⊆ _ := fun q hq =>
      GlobalReplicaTracker.mem_committed.mpr (htight.known c q (hps q hq).1)
    have hall := Finset.eq_of_subset_of_card_le hsub
      ((htight.bounded c (by rwa [hplanned.manifest])).trans henough)
    have hp : p ∈ ps := by
      rw [hall]
      exact GlobalReplicaTracker.mem_committed.mpr (htight.known c p hacc)
    exact (hps p hp).2

/-- A provider that takes the manifest and all chunks of the content, and
answers for the batch with a status. -/
def answering (batchStatus : UInt8) : Behaviour where
  connects := true
  replies _ req :=
    if req.type = msgPushManifest then some (buildPushManifestAck contentId pushStatusOK)
    else if req.type = msgPushChunk then
      (parsePushChunk req.payload).map fun x => buildPushChunkAck x.2.header.id pushStatusOK
    else some (buildPushBatchCompleteAck contentId batchStatus)

lemma checkAck_buildIdAck (htype : type ≠ msgPushError) (id : Block 32) :
    checkAck type id (buildIdAck type id pushStatusOK) = .ok () :=
  checkAck_eq_ok.mpr ⟨htype, rfl, parseIdAck_build type id _⟩

lemma accepting_answering : (answering contentId pushStatusOK).Accepting contentId where
  connects := rfl
  manifest _ _ _ := decide_eq_true (checkAck_buildIdAck (by decide) contentId)
  chunk k chunk := by
    have hreply : (answering contentId pushStatusOK).replies k (buildPushChunk contentId chunk) =
        (parsePushChunk (buildPushChunk contentId chunk).payload).map
          fun x => buildPushChunkAck x.2.header.id pushStatusOK := rfl
    rw [hreply, parsePushChunk_build]
    exact decide_eq_true (checkAck_buildIdAck (by decide) _)
  batch _ := decide_eq_true (checkAck_buildIdAck (by decide) contentId)

theorem distribute_retrievable_accepted :
    ∃ st, distribute (sampleJob 3).engine samplePlan [[]] defaultUploaderConfig
        (fun _ _ => answering sampleId pushStatusOK) (.new 1) = (.ok (), st) ∧
      Retrievable samplePlan st sampleId := by
  have hrun : (distribute (sampleJob 3).engine samplePlan [[]] defaultUploaderConfig
      (fun _ _ => answering sampleId pushStatusOK) (.new 1)).1 = .ok () := by decide +kernel
  generalize hresult : distribute (sampleJob 3).engine samplePlan [[]] defaultUploaderConfig
    (fun _ _ => answering sampleId pushStatusOK) (.new 1) = result at hrun ⊢
  obtain ⟨_, st⟩ := result
  obtain rfl := hrun
  have hplan : planPlacement sampleManifest [[]] 1 = .ok samplePlan := rfl
  have hfiled : Filed (sampleJob 3).engine := (filed_empty.putChunk _).putManifestBytes _ _
  have hstocked : Stocked (sampleJob 3).engine sampleManifest.chunkIds :=
    forall_mem_singleton.mpr ⟨sampleChunk, rfl⟩
  obtain ⟨hwhole, hretrievable, -⟩ := distribute_retrievable hplan (nodup_singleton _)
    (by decide) hfiled hresult
  exact ⟨st, rfl, hretrievable (hwhole (fun _ _ => .inl (accepting_answering sampleId)) hstocked)
    sampleId (mem_singleton_self _)⟩

/-- A batch that was completed. -/
def Event.completes : Event → Bool
  | .sent req resp => decide (req = buildPushBatchComplete contentId) &&
      succeeds (sendBatchComplete contentId) resp
  | .status _ _ => false

end

lemma Finished.any_completes (h : Finished contentId (st.eventsOf p)) :
    st.log.any (fun x => x.2.completes contentId) = true := by
  obtain ⟨resp, hmem, hsend⟩ := h
  refine any_eq_true.mpr ⟨_, Progress.mem_eventsOf.mp hmem, ?_⟩
  simp [Event.completes, succeeds, hsend]

/-- The provider takes the chunk and cannot store the manifest; `Distribute`
returns `nil`. -/
theorem distribute_not_retrievable : planPlacement sampleManifest [[]] 1 = .ok samplePlan ∧
    ∃ st, distribute (sampleJob 3).engine samplePlan [[]] defaultUploaderConfig
        (fun _ _ => answering sampleId pushStatusIOError) (.new 1) = (.ok (), st) ∧
      ¬ Retrievable samplePlan st sampleId := by
  have hrun : (distribute (sampleJob 3).engine samplePlan [[]] defaultUploaderConfig
        (fun _ _ => answering sampleId pushStatusIOError) (.new 1)).1 = .ok () ∧
      (distribute (sampleJob 3).engine samplePlan [[]] defaultUploaderConfig
        (fun _ _ => answering sampleId pushStatusIOError) (.new 1)).2.log.any
        (fun x => x.2.completes samplePlan.contentId) = false := by decide +kernel
  generalize distribute (sampleJob 3).engine samplePlan [[]] defaultUploaderConfig
    (fun _ _ => answering sampleId pushStatusIOError) (.new 1) = result at hrun ⊢
  obtain ⟨_, st⟩ := result
  obtain ⟨rfl, hnone⟩ := hrun
  refine ⟨rfl, st, rfl, ?_⟩
  rintro ⟨ps, henough, hps⟩
  obtain ⟨p, hp⟩ := Finset.card_pos.mp henough
  exact Bool.false_ne_true (hnone.symm.trans (hps p hp).2.any_completes)

end Cipher.Distribution
