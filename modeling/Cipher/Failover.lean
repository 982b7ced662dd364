import Cipher.RetrievableReplicas
import Cipher.Selection

/-!
# Failover

A failover round gives a missing chunk to the first providers in the order
of iteration that have not committed it. The comment on the loop speaks of
providers that have not failed on it, but a failed one is chosen like any
other, and chosen again in the next round, for it stays first.

So a round finds the providers that work only if those it comes to first do
(`firstChoices`). What is chosen when more is committed was chosen before
(`topUp_anti`): for this one condition on the order, neither what the
other providers commit by themselves nor the number of rounds matters.
-/

namespace Cipher.Distribution

open Bytes Binary Go Content Push Selection List Finset

/-! ## A round -/

variable {job : Job} {pattern : Nat → PeerID → Behaviour} {c : ChunkID} {batches : Batches}
    {st : Progress}

/-- No upload of the chunk is under way. -/
def Idle (t : GlobalReplicaTracker) (c : ChunkID) : Prop := ∀ p, t.state c p ≠ .uploading

lemma picks_eq_topUp (hidle : Idle t c) (plan : PlacementPlan) (active : List PeerID) :
    picks plan active t c = topUp active plan.replication (t.committed c) := by
  rw [picks]
  congr 1
  refine filter_congr fun p _ => decide_eq_decide.mpr ?_
  rw [GlobalReplicaTracker.mem_committed]
  exact and_iff_left (hidle p)

/-- A failover round settles the chunk where it was given to. -/
lemma Job.Round.failover_state (hactive : job.active.Nodup)
    (hround : job.Round behaviour (reassign job.plan job.active st.tracker).1
      (job.reassigned st) st' final)
    (hc : c ∈ job.plan.manifest.chunkIds) (p : PeerID) :
    st'.tracker.state c p = if p ∈ picks job.plan job.active st.tracker c then final p c
      else st.tracker.state c p := by
  have hre := reassigned_reassign hactive job.plan st.tracker
  rw [hround.state, job.state_reassigned hactive]
  by_cases hp : p ∈ picks job.plan job.active st.tracker c
  · rw [if_pos ⟨(candidate_of_mem_picks hp).1, (hre.mem c p).mpr ⟨hc, hp⟩⟩, if_pos hp]
  · rw [if_neg fun h => hp ((hre.mem c p).mp h.2).2, if_neg fun h => hp h.2, if_neg hp]

/-- The first round settles the chunk where it was placed. -/
lemma Job.Round.initial_state (hround : job.Round behaviour job.plan.providerChunks
      ⟨initTracker job.plan (.new job.plan.replication), []⟩ st' final)
    (hassigned : ∀ p, c ∈ job.plan.providerChunks p → p ∈ job.active) (p : PeerID) :
    st'.tracker.state c p =
      if c ∈ job.plan.providerChunks p then final p c else .pending := by
  have hpending : (initTracker job.plan (.new job.plan.replication)).state c p = .pending := by
    refine initTracker_inv (I := fun t => t.state c p = .pending) (fun t c' q h => ?_) rfl
    rw [GlobalReplicaTracker.setStatus_state, h, ite_self]
  rw [hround.state, hpending]
  by_cases hp : c ∈ job.plan.providerChunks p
  · rw [if_pos ⟨hassigned p hp, hp⟩, if_pos hp]
  · rw [if_neg fun h => hp h.2, if_neg hp]

variable {p : PeerID}

/-- The upload is settled as the provider behaves. -/
lemma Job.Round.final_accepting (hround : job.Round behaviour batches st st' final)
    (hp : (behaviour p).Accepting job.plan.contentId) (hstocked : Stocked job.engine (batches p))
    (hc : c ∈ batches p) : final p c = .committed :=
  (hround.uploads p).settles.unique (run_uploadToProvider_accepting hp hstocked ..).1 hc

lemma Job.Round.final_unconnected (hround : job.Round behaviour batches st st' final)
    (hp : (behaviour p).connects = false) (hc : c ∈ batches p) : final p c = .failed := by
  have hrun : job.events behaviour batches p =
      (failAll (batches p)).run job.engine (behaviour p) 0 := by
    simp only [Job.events, uploadToProvider, Upload.run, hp, Bool.false_eq_true,
      not_false_eq_true, if_true]
  have hfailed : Uploaded job.engine job.plan.contentId job.cfg.maxRetriesPerChunk (batches p)
      ((failAll (batches p)).run job.engine (behaviour p) 0) fun _ => .failed :=
    uploaded_failAll ..
  rw [← hrun] at hfailed
  exact (hround.uploads p).settles.unique hfailed.settles hc

/-! ## What holds from the first round on -/

/-- The good providers that the chunk was placed at. -/
def placedAt (plan : PlacementPlan) (good : Finset PeerID) (c : ChunkID) : Finset PeerID :=
  good.filter fun p => c ∈ plan.providerChunks p

/-- The content is there to be uploaded, and some active providers, enough
of them, are good. -/
structure Ready (job : Job) (good : Finset PeerID) : Prop where
  nodup : job.active.Nodup
  assigned : ∀ p, ∀ c ∈ job.plan.providerChunks p,
    p ∈ job.active ∧ c ∈ job.plan.manifest.chunkIds
  stocked : Stocked job.engine job.plan.manifest.chunkIds
  active : ∀ p ∈ good, p ∈ job.active
  enough : job.plan.replication ≤ good.card

/-- Between two rounds. -/
structure Started (job : Job) (good : Finset PeerID) (st : Progress) : Prop where
  requiredR : st.tracker.requiredR = job.plan.replication
  idle : ∀ c ∈ job.plan.manifest.chunkIds, Idle st.tracker c
  held : ∀ c, placedAt job.plan good c ⊆ st.tracker.committed c

variable {good : Finset PeerID}

lemma Ready.length_active (h : Ready job good) : job.plan.replication ≤ job.active.length := by
  refine h.enough.trans ?_
  rw [← toFinset_card_of_nodup h.nodup]
  exact card_le_card fun p hp => mem_toFinset.mpr (h.active p hp)

lemma Ready.stocked_reassign (h : Ready job good) (p : PeerID) :
    Stocked job.engine ((reassign job.plan job.active st.tracker).1 p) := fun c hc =>
  h.stocked c (((reassigned_reassign h.nodup job.plan st.tracker).mem c p).mp hc).1

section

variable (h : Ready job good) (hgood : ∀ p ∈ good, (pattern 0 p).Accepting job.plan.contentId)

include h hgood

lemma Ready.state_first (hp : p ∈ good) (c : ChunkID) : (job.first pattern).tracker.state c p =
      if c ∈ job.plan.providerChunks p then .committed else .pending := by
  obtain ⟨final, hround⟩ := job.round_first pattern
  rw [hround.initial_state fun p hc => (h.assigned p c hc).1]
  split
  · rename_i hc
    exact hround.final_accepting (hgood p hp) (fun c hc => h.stocked c (h.assigned p c hc).2) hc
  · rfl

lemma Ready.started_first : Started job good (job.first pattern) := by
  obtain ⟨final, hround⟩ := job.round_first pattern
  refine ⟨hround.requiredR.trans (requiredR_initTracker ..), fun c _ p => ?_, fun c p hp => ?_⟩
  · rw [hround.initial_state fun p hc => (h.assigned p c hc).1]
    split
    · rename_i hc
      rcases (hround.uploads p).settled c hc with hfinal | hfinal
      · rw [hfinal]
        exact nofun
      · rw [hfinal]
        exact nofun
    · exact nofun
  · obtain ⟨hp, hc⟩ := mem_filter.mp hp
    rw [GlobalReplicaTracker.mem_committed, h.state_first hgood hp, if_pos hc]

end

lemma Started.reassigned (hready : Ready job good) (h : Started job good st) :
    Started job good (job.reassigned st) := by
  refine ⟨(job.requiredR_reassigned hready.nodup st).trans h.requiredR, fun c hc p => ?_,
    fun c => ?_⟩
  · rw [job.state_reassigned hready.nodup]
    split
    · exact nofun
    · exact h.idle c hc p
  · rw [job.committed_reassigned hready.nodup]
    exact h.held c

/-- A chunk that is committed stays so. -/
lemma Job.Round.committed_mono (hactive : job.active.Nodup)
    (hround : job.Round behaviour (reassign job.plan job.active st.tracker).1
      (job.reassigned st) st' final)
    (c : ChunkID) : st.tracker.committed c ⊆ st'.tracker.committed c := by
  have hre := reassigned_reassign hactive job.plan st.tracker
  intro p hp
  rw [GlobalReplicaTracker.mem_committed] at hp ⊢
  have hnot : p ∉ picks job.plan job.active st.tracker c := fun hpick =>
    (candidate_of_mem_picks hpick).2.1 hp
  rwa [hround.state, if_neg fun h => hnot ((hre.mem c p).mp h.2).2,
    job.state_reassigned hactive, if_neg fun h => hnot h.2]

lemma Started.retry (hready : Ready job good) (h : Started job good st)
    (behaviour : PeerID → Behaviour) : Started job good (job.retry behaviour st) := by
  obtain ⟨final, hround⟩ := job.round_retry ..
  refine ⟨hround.requiredR.trans (h.reassigned hready).requiredR, fun c hc p => ?_,
    fun c => (h.held c).trans (hround.committed_mono hready.nodup c)⟩
  rw [hround.failover_state hready.nodup hc]
  split
  · rename_i hpick
    have hbatch := ((reassigned_reassign hready.nodup ..).mem c p).mpr ⟨hc, hpick⟩
    rcases (hround.uploads p).settled c hbatch with hfinal | hfinal
    · rw [hfinal]
      exact nofun
    · rw [hfinal]
      exact nofun
  · exact h.idle c hc p

/-! ## If the first choices are good -/

section

variable (plan : PlacementPlan) (active : List PeerID) (good : Finset PeerID)

/-- The providers that a round comes to first for a chunk, when the good
ones have committed what was placed at them. -/
def firstChoices (c : ChunkID) : List PeerID :=
  topUp active plan.replication (placedAt plan good c)

def FirstChoicesGood : Prop :=
  ∀ c ∈ plan.manifest.chunkIds, ∀ p ∈ firstChoices plan active good c, p ∈ good

end

section

variable (hready : Ready job good) (h : Started job good st)
  (hfirst : FirstChoicesGood job.plan job.active good)

include hready h hfirst

lemma Started.picks_good (hc : c ∈ job.plan.manifest.chunkIds)
    (hp : p ∈ picks job.plan job.active st.tracker c) : p ∈ good := by
  rw [picks_eq_topUp (h.idle c hc)] at hp
  exact hfirst c hc p (topUp_anti hready.nodup hready.length_active (h.held c) hp)

/-- Then one round is enough. -/
lemma Started.isComplete_retry (hgood : ∀ p ∈ good, (behaviour p).Accepting job.plan.contentId) :
    (job.retry behaviour st).tracker.isComplete job.plan.manifest.chunkIds = true := by
  obtain ⟨final, hround⟩ := job.round_retry ..
  refine GlobalReplicaTracker.isComplete_iff.mpr fun c hc => ?_
  have hsub : st.tracker.committed c ∪
      (topUp job.active job.plan.replication (st.tracker.committed c)).toFinset ⊆
      (job.retry behaviour st).tracker.committed c := by
    refine union_subset (hround.committed_mono hready.nodup c) fun p hp => ?_
    have hpick : p ∈ picks job.plan job.active st.tracker c := by
      rw [picks_eq_topUp (h.idle c hc)]
      exact mem_toFinset.mp hp
    have hbatch := ((reassigned_reassign hready.nodup ..).mem c p).mpr ⟨hc, hpick⟩
    rw [GlobalReplicaTracker.mem_committed, hround.failover_state hready.nodup hc, if_pos hpick]
    exact hround.final_accepting (hgood p (h.picks_good hready hfirst hc hpick))
      (hready.stocked_reassign p) hbatch
  rw [(h.retry hready _).requiredR]
  exact (le_card_union_topUp hready.nodup hready.length_active).trans (card_le_card hsub)

end

/-- As long as a chunk is missing, there is a provider to give it to. -/
lemma Started.reassign_ne_nil (hready : Ready job good) (h : Started job good st)
    (hmissing : ¬ st.tracker.isComplete job.plan.manifest.chunkIds = true) :
    ¬ (job.active.all fun p =>
      decide (((reassign job.plan job.active st.tracker).1 p).length = 0)) = true := by
  intro hnone
  refine hmissing (GlobalReplicaTracker.isComplete_iff.mpr fun c hc => ?_)
  by_contra hlt
  rw [h.requiredR] at hlt
  have hlen := length_topUp hready.nodup hready.length_active (st.tracker.committed c)
  obtain ⟨p, hp⟩ := exists_mem_of_length_pos (hlen.symm ▸ Nat.sub_pos_of_lt (not_le.mp hlt))
  have hpick : p ∈ picks job.plan job.active st.tracker c := by
    rwa [picks_eq_topUp (h.idle c hc)]
  have hbatch := ((reassigned_reassign hready.nodup ..).mem c p).mpr ⟨hc, hpick⟩
  have hempty := all_eq_true.mp hnone p (mem_of_mem_topUp hp).1
  rw [eq_nil_of_length_eq_zero (of_decide_eq_true hempty)] at hbatch
  cases hbatch

/-- The states in which a failover round begins; the recursion is that of
`failover`. -/
def Job.begun (job : Job) (pattern : Nat → PeerID → Behaviour) :
    Nat → Nat → Progress → List Progress
  | 0, _, _ => []
  | n + 1, round, st =>
    if st.tracker.isComplete job.plan.manifest.chunkIds then []
    else
      let (batches, tracker) := reassign job.plan job.active st.tracker
      if job.active.all fun p => decide ((batches p).length = 0) then [st]
      else st :: job.begun pattern n (round + 1)
        (job.uploadAll (pattern round) batches { st with tracker := tracker })

lemma failover_of_isComplete (pattern : Nat → PeerID → Behaviour)
    (h : st.tracker.isComplete job.plan.manifest.chunkIds = true) (n round : Nat) :
    job.failover pattern n round st = st ∧ job.begun pattern n round st = [] := by
  cases n with
  | zero => exact ⟨rfl, rfl⟩
  | succ n => exact ⟨by rw [Job.failover, if_pos h], by rw [Job.begun, if_pos h]⟩

/-- At most one failover round begins, and after it all is complete. -/
lemma Started.failover_completes (hready : Ready job good) (h : Started job good st)
    (hfirst : FirstChoicesGood job.plan job.active good)
    (hgood : ∀ round, ∀ p ∈ good, (pattern round p).Accepting job.plan.contentId) (hn : 1 ≤ n)
    (round : Nat) :
    (job.failover pattern n round st).tracker.isComplete job.plan.manifest.chunkIds = true ∧
      ∀ st' ∈ job.begun pattern n round st, st' = st := by
  obtain ⟨n, rfl⟩ := Nat.exists_eq_add_of_le' hn
  by_cases hcomplete : st.tracker.isComplete job.plan.manifest.chunkIds = true
  · obtain ⟨hfailover, hbegun⟩ := failover_of_isComplete pattern hcomplete ..
    rw [hfailover, hbegun]
    exact ⟨hcomplete, nofun⟩
  · have hround := h.isComplete_retry hready hfirst (hgood round)
    obtain ⟨hfailover, hbegun⟩ := failover_of_isComplete pattern hround ..
    have hsome := h.reassign_ne_nil hready hcomplete
    have hstep : job.failover pattern (n + 1) round st =
        job.failover pattern n (round + 1) (job.retry (pattern round) st) := by
      rw [Job.failover, if_neg hcomplete]
      exact if_neg hsome
    have hstep' : job.begun pattern (n + 1) round st =
        st :: job.begun pattern n (round + 1) (job.retry (pattern round) st) := by
      rw [Job.begun, if_neg hcomplete]
      exact if_neg hsome
    rw [hstep, hstep', hfailover, hbegun]
    exact ⟨hround, fun st' hst' => List.mem_singleton.mp hst'⟩

/-! ## If they are not -/

/-- The good providers accept everything, and no other can be connected to. -/
def onlyGood (contentId : ContentID) (good : Finset PeerID) (p : PeerID) : Behaviour :=
  if p ∈ good then answering contentId pushStatusOK else ⟨false, fun _ _ => none⟩

lemma accepting_onlyGood (contentId : ContentID) (hp : p ∈ good) :
    (onlyGood contentId good p).Accepting contentId := by
  rw [onlyGood, if_pos hp]
  exact accepting_answering _

lemma connects_onlyGood (contentId : ContentID) (hp : p ∉ good) :
    (onlyGood contentId good p).connects = false := by
  rw [onlyGood, if_neg hp]

/-- Who has committed the chunk is good, and has it from the plan or was
among the first choices. -/
def Confined (job : Job) (good : Finset PeerID) (c : ChunkID) (st : Progress) : Prop :=
  st.tracker.committed c ⊆ placedAt job.plan good c ∪
    (firstChoices job.plan job.active good c).toFinset.filter (· ∈ good)

lemma Ready.confined_first (h : Ready job good) (c : ChunkID) :
    Confined job good c (job.first fun _ => onlyGood job.plan.contentId good) := by
  obtain ⟨final, hround⟩ := job.round_first fun _ => onlyGood job.plan.contentId good
  intro p hp
  rw [GlobalReplicaTracker.mem_committed,
    hround.initial_state fun p hc => (h.assigned p c hc).1] at hp
  split at hp
  · rename_i hc
    by_cases hgood : p ∈ good
    · exact mem_union_left _ (mem_filter.mpr ⟨hgood, hc⟩)
    · rw [hround.final_unconnected (connects_onlyGood _ hgood) hc] at hp
      cases hp
  · cases hp

lemma Confined.retry (hready : Ready job good) (hstarted : Started job good st)
    (hc : c ∈ job.plan.manifest.chunkIds) (h : Confined job good c st) :
    Confined job good c (job.retry (onlyGood job.plan.contentId good) st) := by
  obtain ⟨final, hround⟩ := job.round_retry ..
  intro p hp
  rw [GlobalReplicaTracker.mem_committed, hround.failover_state hready.nodup hc] at hp
  split at hp
  · rename_i hpick
    have hbatch := ((reassigned_reassign hready.nodup ..).mem c p).mpr ⟨hc, hpick⟩
    by_cases hgood : p ∈ good
    · rw [picks_eq_topUp (hstarted.idle c hc)] at hpick
      have hchoice := topUp_anti hready.nodup hready.length_active (hstarted.held c) hpick
      exact mem_union_right _ (mem_filter.mpr ⟨mem_toFinset.mpr hchoice, hgood⟩)
    · rw [hround.final_unconnected (connects_onlyGood _ hgood) hbatch] at hp
      cases hp
  · exact h (GlobalReplicaTracker.mem_committed.mpr hp)

/-- A first choice that is not good leaves a replica missing. -/
lemma Confined.card_lt (h : Confined job good c st)
    (hp : p ∈ firstChoices job.plan job.active good c) (hbad : p ∉ good) :
    (st.tracker.committed c).card < job.plan.replication := by
  have hstrict : ((firstChoices job.plan job.active good c).toFinset.filter (· ∈ good)).card <
      (firstChoices job.plan job.active good c).toFinset.card :=
    card_lt_card (filter_ssubset.mpr ⟨p, mem_toFinset.mpr hp, hbad⟩)
  have hlen : (firstChoices job.plan job.active good c).toFinset.card ≤
      job.plan.replication - (placedAt job.plan good c).card :=
    (toFinset_card_le _).trans (length_take_le _ _)
  have hcard := (card_le_card h).trans (card_union_le _ _)
  omega

lemma Ready.confined_failover (h : Ready job good) (hc : c ∈ job.plan.manifest.chunkIds)
    (n : Nat) : Confined job good c (job.failover (fun _ => onlyGood job.plan.contentId good) n 1
      (job.first fun _ => onlyGood job.plan.contentId good)) ∧
    Started job good (job.failover (fun _ => onlyGood job.plan.contentId good) n 1
      (job.first fun _ => onlyGood job.plan.contentId good)) := by
  refine Job.failover_inv (I := fun st => Confined job good c st ∧ Started job good st)
    (fun st hst => ⟨?_, hst.2.reassigned h⟩)
    (fun _ st hst => ⟨hst.1.retry h hst.2 hc, hst.2.retry h _⟩) n 1 _
    ⟨h.confined_first c, h.started_first fun p hp => accepting_onlyGood _ hp⟩
  rw [Confined, job.committed_reassigned h.nodup]
  exact hst.1

/-! ## Distribute -/

/-- The states in which `Distribute` begins a failover round. -/
def Job.failoverStarts (job : Job) (pattern : Nat → PeerID → Behaviour) : List Progress :=
  job.begun pattern job.cfg.failoverRounds 1 (job.first pattern)

lemma distribute_fst_eq_ok {engine : Storage} {plan : PlacementPlan}
    (hbytes : engine.getManifestBytes plan.contentId = some manifestBytes)
    (pattern : Nat → PeerID → Behaviour) (tracker : GlobalReplicaTracker) :
    (distribute engine plan order cfg pattern tracker).1 = .ok () ↔
      (Job.progress ⟨engine, plan, order, cfg, manifestBytes⟩ pattern tracker).tracker.isComplete
        plan.manifest.chunkIds = true := by
  rw [distribute, hbytes]
  dsimp only
  split
  · rename_i hcomplete
    exact iff_of_true rfl hcomplete
  · rename_i hcomplete
    exact iff_of_false (fun h => by cases h) hcomplete

/-- With some active providers, enough of them, accepting every upload,
`Distribute` returns `nil` whatever the others do, and gives no chunk to a
provider that has failed on it, if and only if the providers that it comes
to first are among them. -/
theorem failover_finds_good_iff {m : Manifest} {providers : List PeerID} {replication : Int}
    {plan : PlacementPlan} {engine : Storage} {order : List PeerID} {cfg : UploaderConfig}
    {manifestBytes : List UInt8} {good : Finset PeerID}
    (hplan : planPlacement m providers replication = .ok plan) (horder : order.Nodup)
    (hproviders : providers ⊆ order) (hrounds : 1 ≤ cfg.failoverRounds)
    (hbytes : engine.getManifestBytes plan.contentId = some manifestBytes)
    (hstocked : Stocked engine m.chunkIds) (hactive : ∀ p ∈ good, plan.providerChunks p ≠ [])
    (henough : plan.replication ≤ good.card) :
    (∀ pattern : Nat → PeerID → Behaviour,
      (∀ round, ∀ p ∈ good, (pattern round p).Accepting plan.contentId) →
        (distribute engine plan order cfg pattern (.new plan.replication)).1 = .ok () ∧
        ∀ st ∈ Job.failoverStarts ⟨engine, plan, order, cfg, manifestBytes⟩ pattern, ∀ c p,
          c ∈ (reassign plan (activeProviders plan order) st.tracker).1 p →
            st.tracker.state c p ≠ .failed) ↔
      FirstChoicesGood plan (activeProviders plan order) good := by
  have hplanned := planned_of_planPlacement hplan
  -- a provider with chunks is active
  have hmem : ∀ p, plan.providerChunks p ≠ [] → p ∈ activeProviders plan order := by
    intro p hne
    obtain ⟨c, hc⟩ := exists_mem_of_ne_nil _ hne
    obtain ⟨i, -, hp⟩ := hplanned.mem_providerChunks.mp hc
    obtain ⟨r, -, hget⟩ := mem_filterMap.mp hp
    refine mem_filter.mpr ⟨hproviders (mem_of_getElem? hget), decide_eq_true ?_⟩
    exact fun hlen => hne (eq_nil_of_length_eq_zero hlen)
  have hready : Ready ⟨engine, plan, order, cfg, manifestBytes⟩ good := by
    refine ⟨horder.filter _, fun p c hc => ⟨hmem p (ne_nil_of_mem hc), ?_⟩, ?_,
      fun p hp => hmem p (hactive p hp), henough⟩
    · obtain ⟨i, hget, -⟩ := hplanned.mem_providerChunks.mp hc
      rw [hplanned.manifest]
      exact mem_of_getElem? hget
    · rw [hplanned.manifest]
      exact hstocked
  constructor
  · intro hall c hc p hp
    by_contra hbad
    obtain ⟨hok, -⟩ := hall (fun _ => onlyGood plan.contentId good)
      fun _ p hp => accepting_onlyGood plan.contentId hp
    have hcomplete := GlobalReplicaTracker.isComplete_iff.mp
      ((distribute_fst_eq_ok hbytes _ _).mp hok) c hc
    obtain ⟨hconfined, hstarted⟩ := hready.confined_failover hc _
    have hlt := hconfined.card_lt hp hbad
    rw [← hstarted.requiredR] at hlt
    exact absurd hcomplete (not_le.mpr hlt)
  · intro hfirst pattern hgood
    have hstarted := hready.started_first (hgood 0)
    obtain ⟨hcomplete, hbegun⟩ := hstarted.failover_completes hready hfirst hgood hrounds 1
    refine ⟨(distribute_fst_eq_ok hbytes _ _).mpr hcomplete, fun st hst c p hc => ?_⟩
    obtain rfl := hbegun st hst
    obtain ⟨hchunk, hpick⟩ := ((reassigned_reassign hready.nodup ..).mem c p).mp hc
    have hp := hstarted.picks_good hready hfirst hchunk hpick
    rw [hready.state_first (hgood 0) hp]
    split
    · exact nofun
    · exact nofun

/-- A second chunk. -/
def otherId : Block 32 := ⟨List.replicate 32 1, List.length_replicate⟩

def otherChunk : Chunk := { sampleChunk with header := { sampleChunk.header with id := otherId } }

def pairManifest : Manifest := { sampleManifest with chunkIds := [sampleId, otherId] }

def pairStore : Storage :=
  ((emptyStore.putChunk sampleChunk).putChunk otherChunk).putManifestBytes sampleId [7]

/-- One chunk for each of two providers. -/
def pairPlan : PlacementPlan :=
  (PlacementPlan.place ⟨sampleId, pairManifest, fun _ => [], fun _ => [], 1⟩ sampleId
    [[0]]).place otherId [[1]]

lemma stocked_pairStore : Stocked pairStore pairManifest.chunkIds :=
  forall_mem_cons.mpr ⟨⟨sampleChunk, by decide +kernel⟩,
    forall_mem_singleton.mpr ⟨otherChunk, by decide +kernel⟩⟩

/-- The first provider makes up for the second. -/
theorem failover_finds_good_first : (distribute pairStore pairPlan [[0], [1]] defaultUploaderConfig
      (fun _ => onlyGood sampleId {[0]}) (.new 1)).1 = .ok () := by
  have hplan : planPlacement pairManifest [[0], [1]] 1 = .ok pairPlan := rfl
  have hbytes : pairStore.getManifestBytes pairPlan.contentId = some [7] := by decide +kernel
  have hfirst : FirstChoicesGood pairPlan (activeProviders pairPlan [[0], [1]]) {[0]} := by
    unfold FirstChoicesGood
    decide +kernel
  have hactive : ∀ p ∈ ({[0]} : Finset PeerID), pairPlan.providerChunks p ≠ [] := by
    decide +kernel
  have hrounds : 1 ≤ defaultUploaderConfig.failoverRounds := by decide
  have hiff := failover_finds_good_iff hplan (by decide) (List.Subset.refl [[0], [1]]) hrounds
    hbytes stocked_pairStore hactive (by decide)
  exact (hiff.mpr hfirst _ fun _ p hp => accepting_onlyGood sampleId hp).1

/-- The second provider does not make up for the first: the first is chosen
again and again, though it has failed. -/
theorem failover_misses_good : planPlacement pairManifest [[0], [1]] 1 = .ok pairPlan ∧
    Stocked pairStore pairManifest.chunkIds ∧
    pairPlan.providerChunks [1] ≠ [] ∧ (onlyGood sampleId {[1]} [1]).Accepting sampleId ∧
    (distribute pairStore pairPlan [[0], [1]] defaultUploaderConfig
      (fun _ => onlyGood sampleId {[1]}) (.new 1)).1 =
        .error (.replicationInvariantViolation 1 2 1) ∧
    ∃ st ∈ Job.failoverStarts ⟨pairStore, pairPlan, [[0], [1]], defaultUploaderConfig, [7]⟩
        (fun _ => onlyGood sampleId {[1]}),
      sampleId ∈ (reassign pairPlan (activeProviders pairPlan [[0], [1]]) st.tracker).1 [0] ∧
      sampleId ∉ (reassign pairPlan (activeProviders pairPlan [[0], [1]]) st.tracker).1 [1] ∧
      st.tracker.state sampleId [0] = .failed ∧ st.tracker.state sampleId [1] = .pending := by
  exact ⟨rfl, stocked_pairStore, by decide +kernel,
    accepting_onlyGood sampleId (Finset.mem_singleton_self _), by decide +kernel,
    by decide +kernel⟩

end Cipher.Distribution
