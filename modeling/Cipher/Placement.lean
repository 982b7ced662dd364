import Cipher.Distribution
import Cipher.PushSessions
import Mathlib.Data.List.Nodup
import Mathlib.Data.Nat.ModEq

/-!
# The placement plan

`PlanPlacement` gives the chunk with the index `i` to the providers at the
places `i`, `i + 1`, … of the list, going round at its end, and enters each
assignment into two maps. It compares the number of replicas with the length
of the list, not with the number of different providers in it, and it does
not look whether a chunk occurs twice: its second occurrence overwrites the
assignment of the first and leaves the batches as they are.

So the two maps agree, and the replicas are on different providers, if no
chunk is repeated and the entries of the list that one chunk is given to are
different, and only then. A list without repetitions is enough for that.
-/

namespace Cipher.Distribution

open Bytes Binary Go Content Push Function List Finset

/-! ## The batches -/

lemma place_providerChunks (plan : PlacementPlan) (c : ChunkID) (ps : List PeerID) (q : PeerID) :
    (plan.place c ps).providerChunks q =
      plan.providerChunks q ++ List.replicate (ps.count q) c := by
  have hfold : ∀ (ps : List PeerID) (chunks : Batches),
      ps.foldl (fun chunks p => update chunks p (chunks p ++ [c])) chunks q =
        chunks q ++ List.replicate (ps.count q) c := by
    intro ps
    induction ps with
    | nil => simp
    | cons p ps ih =>
      intro chunks
      rw [foldl_cons, ih]
      by_cases hp : p = q
      · subst hp
        rw [count_cons_self, replicate_succ]
        simp
      · rw [update_of_ne (Ne.symm hp), count_cons_of_ne hp]
  exact hfold ..

/-- What `PlanPlacement` makes of a manifest and the providers. -/
structure Planned (m : Manifest) (providers : List PeerID) (plan : PlacementPlan) : Prop where
  manifest : plan.manifest = m
  bounded : plan.replication ≤ providers.length
  providerChunks : ∀ q, plan.providerChunks q = m.chunkIds.zipIdx.flatMap fun c =>
    List.replicate ((targets providers plan.replication c.2).count q) c.1

/-- The loop over the chunks appends each to the batches of its targets. -/
lemma foldl_place_providerChunks (target : Nat → List PeerID) (q : PeerID)
    (cs : List (ChunkID × Nat)) : ∀ start : PlacementPlan,
      (cs.foldl (fun plan c => plan.place c.1 (target c.2)) start).providerChunks q =
        start.providerChunks q ++ cs.flatMap fun c =>
          List.replicate ((target c.2).count q) c.1 := by
  induction cs with
  | nil => simp
  | cons c cs ih =>
    intro start
    rw [foldl_cons, ih, place_providerChunks, flatMap_cons, append_assoc]

variable {m : Manifest} {providers : List PeerID} {replication : Int} {plan : PlacementPlan}
  {c : ChunkID}

section

variable (h : planPlacement m providers replication = .ok plan)

include h

/-- What holds when `planPlacement` returns a plan. -/
lemma planPlacement_eq_ok :
    0 < replication ∧ replication ≤ providers.length ∧ plan = m.chunkIds.zipIdx.foldl
        (fun plan c => plan.place c.1 (targets providers replication.toNat c.2))
        ⟨m.descriptor.id, m, fun _ => [], fun _ => [], replication.toNat⟩ := by
  unfold planPlacement at h
  split at h
  · cases h
  split at h
  · cases h
  split at h
  · cases h
  split at h
  · cases h
  exact ⟨by omega, by omega, (Except.ok.inj h).symm⟩

/-- Placing a chunk keeps the manifest and the number of replicas. -/
lemma kept_of_planPlacement : plan.manifest = m ∧ plan.replication = replication.toNat := by
  rw [(planPlacement_eq_ok h).2.2]
  exact List.foldlRecOn (motive := fun plan : PlacementPlan =>
    plan.manifest = m ∧ plan.replication = replication.toNat) _ _ ⟨rfl, rfl⟩ fun _ h _ _ => h

lemma planned_of_planPlacement : Planned m providers plan := by
  obtain ⟨hpos, hbounded, hplan⟩ := planPlacement_eq_ok h
  obtain ⟨hmanifest, hreplication⟩ := kept_of_planPlacement h
  refine ⟨hmanifest, by omega, fun q => ?_⟩
  rw [hreplication, hplan, foldl_place_providerChunks, nil_append]

end

lemma Planned.mem_providerChunks (h : Planned m providers plan) : c ∈ plan.providerChunks p ↔
      ∃ i, m.chunkIds[i]? = some c ∧ p ∈ targets providers plan.replication i := by
  rw [h.providerChunks, mem_flatMap]
  constructor
  · rintro ⟨⟨c', i⟩, hmem, hc⟩
    obtain ⟨hcount, rfl⟩ := mem_replicate.mp hc
    exact ⟨i, mem_zipIdx_iff_getElem?.mp hmem, count_pos_iff.mp (Nat.pos_of_ne_zero hcount)⟩
  · rintro ⟨i, hget, hp⟩
    exact ⟨(c, i), mem_zipIdx_iff_getElem?.mpr hget,
      mem_replicate.mpr ⟨(count_pos_iff.mpr hp).ne', rfl⟩⟩

/-! ## The providers of one chunk -/

lemma targets_eq_map (hpos : 0 < providers.length) (R i : Nat) : targets providers R i =
      (List.range R).map fun r =>
        providers.get ⟨(i + r) % providers.length, Nat.mod_lt _ hpos⟩ := by
  rw [← filterMap_eq_map]
  refine filterMap_congr fun r _ => ?_
  exact getElem?_eq_getElem (Nat.mod_lt _ hpos)

lemma length_targets_le (providers : List PeerID) (R i : Nat) :
    (targets providers R i).length ≤ R := by
  have hlen := length_filterMap_le (fun r => providers[(i + r) % providers.length]?) (List.range R)
  rwa [length_range] at hlen

lemma length_targets (hpos : 0 < providers.length) (R i : Nat) :
    (targets providers R i).length = R := by
  rw [targets_eq_map hpos, length_map, length_range]

variable {R i : Nat}

lemma mem_of_mem_targets (h : p ∈ targets providers R i) : p ∈ providers := by
  obtain ⟨r, -, hr⟩ := mem_filterMap.mp h
  exact mem_of_getElem? hr

/-- For each of the first `count` places of the list, the `R` entries from
there on, going round at the end, are different. -/
def Spread (providers : List PeerID) (R count : Nat) : Prop :=
  ∀ i < count, ∀ r < R, ∀ r' < R,
    providers[(i + r) % providers.length]? = providers[(i + r') % providers.length]? → r = r'

lemma nodup_targets_iff (hpos : 0 < providers.length) :
    (targets providers R i).Nodup ↔ ∀ r < R, ∀ r' < R,
      providers[(i + r) % providers.length]? = providers[(i + r') % providers.length]? →
        r = r' := by
  rw [targets_eq_map hpos, List.nodup_map_iff_inj_on nodup_range]
  simp only [List.mem_range, List.getElem?_eq_getElem (Nat.mod_lt _ hpos), Option.some.injEq,
    get_eq_getElem]

/-- Less than one round of a list without repetitions repeats nothing. -/
lemma spread_of_nodup (hnodup : providers.Nodup) (hR : R ≤ providers.length) (count : Nat) :
    Spread providers R count := by
  intro i _ r hr r' hr' heq
  have hpos : 0 < providers.length := by omega
  have hindex : (i + r) % providers.length = (i + r') % providers.length :=
    (getElem?_inj (Nat.mod_lt _ hpos) hnodup).mp heq
  have hmod : r ≡ r' [MOD providers.length] := Nat.ModEq.add_left_cancel' i hindex
  exact hmod.eq_of_lt_of_lt (by omega) (by omega)

/-- The replicas of a chunk go to different providers. -/
lemma nodup_targets (hnodup : providers.Nodup) (hR : R ≤ providers.length) (i : Nat) :
    (targets providers R i).Nodup := by
  by_cases hpos : 0 < providers.length
  · exact (nodup_targets_iff hpos).mpr (spread_of_nodup hnodup hR (i + 1) i i.lt_succ_self)
  · obtain rfl : R = 0 := by omega
    exact nodup_nil

lemma Planned.nodup_providerChunks (h : Planned m providers plan)
    (htargets : ∀ i < m.chunkIds.length, (targets providers plan.replication i).Nodup)
    (hchunks : m.chunkIds.Nodup) (p : PeerID) : (plan.providerChunks p).Nodup := by
  rw [h.providerChunks]
  refine nodup_flatMap.mpr ⟨fun c hc => ?_, ?_⟩
  · have hlt : c.2 < m.chunkIds.length := snd_lt_of_mem_zipIdx hc
    exact nodup_replicate.mpr (nodup_iff_count_le_one.mp (htargets c.2 hlt) p)
  · have hfst : (m.chunkIds.zipIdx.map Prod.fst).Nodup := by rwa [zipIdx_map_fst]
    refine (pairwise_map.mp hfst).imp fun {a b} hab => ?_
    intro c ha hb
    exact hab ((eq_of_mem_replicate ha).symm.trans (eq_of_mem_replicate hb))

/-- A chunk that is listed once is uploaded to as many providers as it has
replicas, at most. -/
lemma Planned.card_assigned_le (h : Planned m providers plan) (hchunks : m.chunkIds.Nodup)
    {ps : Finset PeerID} (hps : ∀ p ∈ ps, c ∈ plan.providerChunks p) :
    ps.card ≤ plan.replication := by
  by_cases hempty : ps = ∅
  · rw [hempty]
    exact Nat.zero_le _
  · obtain ⟨p₀, hp₀⟩ := nonempty_iff_ne_empty.mpr hempty
    obtain ⟨i, hi, -⟩ := h.mem_providerChunks.mp (hps p₀ hp₀)
    have hsub : ps ⊆ (targets providers plan.replication i).toFinset := by
      intro p hp
      obtain ⟨j, hj, hmem⟩ := h.mem_providerChunks.mp (hps p hp)
      obtain ⟨hilt, hieq⟩ := List.getElem_of_getElem? hi
      obtain ⟨hjlt, hjeq⟩ := List.getElem_of_getElem? hj
      obtain rfl : i = j := hchunks.getElem_inj_iff.mp (hieq.trans hjeq.symm)
      exact mem_toFinset.mpr hmem
    exact (card_le_card hsub).trans ((toFinset_card_le _).trans (length_targets_le ..))

/-! ## The assignments -/

lemma foldl_place_assignments_of_notMem (target : Nat → List PeerID) {cs : List (ChunkID × Nat)}
    (hc : ∀ x ∈ cs, x.1 ≠ c) (start : PlacementPlan) :
    (cs.foldl (fun plan x => plan.place x.1 (target x.2)) start).assignments c =
      start.assignments c := by
  refine List.foldlRecOn (motive := fun plan : PlacementPlan =>
    plan.assignments c = start.assignments c) _ _ rfl fun plan h x hx => ?_
  exact (update_of_ne (hc x hx).symm _ _).trans h

/-- Of several occurrences of a chunk the last one counts. -/
lemma foldl_place_assignments (target : Nat → List PeerID) (cs : List (ChunkID × Nat))
    (hc : ∃ x ∈ cs, x.1 = c) : ∀ start : PlacementPlan, ∃ x ∈ cs, x.1 = c ∧
        (cs.foldl (fun plan x => plan.place x.1 (target x.2)) start).assignments c =
          target x.2 := by
  induction cs with
  | nil =>
    obtain ⟨x, hx, -⟩ := hc
    cases hx
  | cons y cs ih =>
    intro start
    rw [foldl_cons]
    by_cases hlater : ∃ x ∈ cs, x.1 = c
    · obtain ⟨x, hx, hxc, hassigned⟩ := ih hlater _
      exact ⟨x, mem_cons_of_mem y hx, hxc, hassigned⟩
    · have hnone : ∀ x ∈ cs, x.1 ≠ c := fun x hx hxc => hlater ⟨x, hx, hxc⟩
      obtain ⟨x, hx, hxc⟩ := hc
      obtain rfl : x = y := (mem_cons.mp hx).resolve_right fun hmem => hnone x hmem hxc
      refine ⟨x, mem_cons_self, hxc, ?_⟩
      rw [foldl_place_assignments_of_notMem target hnone, ← hxc]
      exact update_self ..

lemma assignments_of_planPlacement (h : planPlacement m providers replication = .ok plan)
    (c : ChunkID) :
    (c ∉ m.chunkIds ∧ plan.assignments c = []) ∨
      ∃ i, m.chunkIds[i]? = some c ∧ plan.assignments c = targets providers plan.replication i := by
  obtain ⟨-, -, hplan⟩ := planPlacement_eq_ok h
  rw [(kept_of_planPlacement h).2, hplan]
  by_cases hc : c ∈ m.chunkIds
  · obtain ⟨i, hi⟩ := mem_iff_getElem?.mp hc
    obtain ⟨⟨c', j⟩, hmem, rfl, hassigned⟩ := foldl_place_assignments _ _
      ⟨(c, i), mem_zipIdx_iff_getElem?.mpr hi, rfl⟩
      ⟨m.descriptor.id, m, fun _ => [], fun _ => [], replication.toNat⟩
    exact .inr ⟨j, mem_zipIdx_iff_getElem?.mp hmem, hassigned⟩
  · refine .inl ⟨hc, foldl_place_assignments_of_notMem _ (fun x hx hxc => hc ?_) _⟩
    rw [← hxc]
    exact mem_of_getElem? (mem_zipIdx_iff_getElem?.mp hx)

/-! ## Plans that place every chunk as they should -/

/-- Every chunk has its replicas on different providers of the list, and the
two maps say the same. The keys of `assignments` are the chunks of the
manifest, each once. -/
structure WellPlaced (m : Manifest) (providers : List PeerID) (plan : PlacementPlan) : Prop where
  replicas : ∀ c ∈ m.chunkIds, (plan.assignments c).length = plan.replication
  distinct : ∀ c ∈ m.chunkIds, (plan.assignments c).Nodup
  listed : ∀ c ∈ m.chunkIds, ∀ p ∈ plan.assignments c, p ∈ providers
  once : ∀ p, (plan.providerChunks p).Nodup
  mirrored : ∀ c p, c ∈ plan.providerChunks p ↔ p ∈ plan.assignments c
  total : (m.chunkIds.dedup.map fun c => (plan.assignments c).length).sum =
    m.chunkIds.length * plan.replication

/-- Where a provider has a chunk once, and only if it is assigned to it, the
chunk occurs only where its assignment comes from. -/
lemma WellPlaced.occurrence (h : WellPlaced m providers plan)
    (hplanned : Planned m providers plan) (hpos : 0 < plan.replication)
    (hi : m.chunkIds[i]? = some c) (hk : m.chunkIds[k]? = some c)
    (hassigned : plan.assignments c = targets providers plan.replication k) : i = k := by
  by_contra hne
  have hproviders : 0 < providers.length := hpos.trans_le hplanned.bounded
  have hlength := length_targets hproviders plan.replication i
  obtain ⟨p, hp⟩ := exists_mem_of_length_pos (hlength ▸ hpos)
  have hp' : p ∈ targets providers plan.replication k := by
    rw [← hassigned, ← h.mirrored]
    exact hplanned.mem_providerChunks.mpr ⟨i, hi, hp⟩
  have honce := h.once p
  rw [hplanned.providerChunks] at honce
  have hsymm : Std.Symm (Function.onFun List.Disjoint fun x : ChunkID × Nat =>
      List.replicate ((targets providers plan.replication x.2).count p) x.1) :=
    ⟨fun _ _ hab => hab.symm⟩
  have hdisjoint := (nodup_flatMap.mp honce).2.forall
    (mem_zipIdx_iff_getElem?.mpr hi) (mem_zipIdx_iff_getElem?.mpr hk)
    fun heq => hne (Prod.mk.inj heq).2
  exact hdisjoint (mem_replicate.mpr ⟨(count_pos_iff.mpr hp).ne', rfl⟩)
    (mem_replicate.mpr ⟨(count_pos_iff.mpr hp').ne', rfl⟩)

/-- A plan places every chunk as it should if and only if no chunk is
repeated and the entries of the list that a chunk is given to are
different. -/
theorem wellPlaced_iff {m : Manifest} {providers : List PeerID} {replication : Int}
    {plan : PlacementPlan} (h : planPlacement m providers replication = .ok plan) :
    WellPlaced m providers plan ↔
      m.chunkIds.Nodup ∧ Spread providers replication.toNat m.chunkIds.length := by
  have hplanned := planned_of_planPlacement h
  obtain ⟨hpositive, hbounded, -⟩ := planPlacement_eq_ok h
  obtain ⟨-, hreplication⟩ := kept_of_planPlacement h
  have hpos : 0 < providers.length := by omega
  rw [← hreplication]
  constructor
  · intro hwell
    have hoccurrence : ∀ i c, m.chunkIds[i]? = some c →
        plan.assignments c = targets providers plan.replication i ∧
          ∀ j, m.chunkIds[j]? = some c → j = i := by
      intro i c hi
      rcases assignments_of_planPlacement h c with ⟨hnone, -⟩ | ⟨k, hk, hassigned⟩
      · exact absurd (mem_of_getElem? hi) hnone
      · have honly := fun j (hj : m.chunkIds[j]? = some c) =>
          hwell.occurrence hplanned (by omega) hj hk hassigned
        obtain rfl := honly i hi
        exact ⟨hassigned, honly⟩
    refine ⟨nodup_iff_getElem?_ne_getElem?.mpr ?_, fun i hi => ?_⟩
    · intro i j hij hj heq
      have hget := getElem?_eq_getElem hj
      exact hij.ne ((hoccurrence j _ hget).2 i (heq.trans hget))
    · have hget := getElem?_eq_getElem hi
      rw [← nodup_targets_iff hpos, ← (hoccurrence i _ hget).1]
      exact hwell.distinct _ (getElem_mem hi)
  · rintro ⟨hchunks, hspread⟩
    have htargets : ∀ i < m.chunkIds.length, (targets providers plan.replication i).Nodup :=
      fun i hi => (nodup_targets_iff hpos).mpr (hspread i hi)
    have hassigned : ∀ c ∈ m.chunkIds, ∃ i, m.chunkIds[i]? = some c ∧
        plan.assignments c = targets providers plan.replication i := fun c hc =>
      (assignments_of_planPlacement h c).resolve_left fun hnone => hnone.1 hc
    have hreplicas : ∀ c ∈ m.chunkIds, (plan.assignments c).length = plan.replication := by
      intro c hc
      obtain ⟨i, -, heq⟩ := hassigned c hc
      rw [heq, length_targets hpos]
    refine ⟨hreplicas, fun c hc => ?_, fun c hc p hp => ?_,
      hplanned.nodup_providerChunks htargets hchunks, fun c p => ?_, ?_⟩
    · obtain ⟨i, hi, heq⟩ := hassigned c hc
      rw [heq]
      exact htargets i (List.getElem_of_getElem? hi).1
    · obtain ⟨i, -, heq⟩ := hassigned c hc
      exact mem_of_mem_targets (heq ▸ hp)
    · rw [hplanned.mem_providerChunks]
      rcases assignments_of_planPlacement h c with ⟨hnone, heq⟩ | ⟨i, hi, heq⟩
      · rw [heq]
        exact ⟨fun ⟨i, hi, _⟩ => absurd (mem_of_getElem? hi) hnone, nofun⟩
      · rw [heq]
        refine ⟨fun ⟨j, hj, hp⟩ => ?_, fun hp => ⟨i, hi, hp⟩⟩
        obtain ⟨hilt, hieq⟩ := List.getElem_of_getElem? hi
        obtain ⟨hjlt, hjeq⟩ := List.getElem_of_getElem? hj
        obtain rfl : i = j := hchunks.getElem_inj_iff.mp (hieq.trans hjeq.symm)
        exact hp
    · rw [hchunks.dedup, map_congr_left hreplicas, map_const', sum_replicate_nat]

/-- Three providers of a list without repetitions, two of them for each of
two chunks. -/
theorem wellPlaced_pair :
    let m := { sampleManifest with chunkIds := [sampleId, Block.ofList 32 [1]] }
    ∃ plan, planPlacement m [[0], [1], [2]] 2 = .ok plan ∧ WellPlaced m [[0], [1], [2]] plan := by
  intro m
  have hspread : Spread [[0], [1], [2]] 2 m.chunkIds.length :=
    spread_of_nodup (by decide) (by decide) _
  obtain ⟨plan, hplan⟩ : ∃ plan, planPlacement m [[0], [1], [2]] 2 = .ok plan := ⟨_, rfl⟩
  exact ⟨plan, hplan, (wellPlaced_iff hplan).mpr ⟨by decide, hspread⟩⟩

/-- A provider that is listed twice gets both replicas. -/
theorem not_wellPlaced_repeated : ∃ plan, planPlacement sampleManifest [[0], [0]] 2 = .ok plan ∧
      plan.assignments sampleId = [[0], [0]] ∧
      plan.providerChunks [0] = [sampleId, sampleId] ∧
      ¬ WellPlaced sampleManifest [[0], [0]] plan := by
  refine ⟨_, rfl, rfl, rfl, fun hwell => ?_⟩
  have hdistinct := hwell.distinct sampleId (List.mem_singleton_self _)
  exact absurd hdistinct (by decide)

end Cipher.Distribution
