import Cipher.ContractEpochs

/-!
# Round numbers

A challenge has the round number that `InitiateAvailabilityChallenge` expects
for its epoch: that of the epoch it continues, or one more than that of the
epoch tracked for the contract. `CreateEpoch` counts from the latest epoch of
the provider and the file. The two agree as long as these are the same epoch.
-/

namespace Cipher.Availability

open Bytes Binary Go Content Slices Transition Function Option

namespace EpochStore

variable {s s' : EpochStore} {spare : Nat → Nat → Nat} {epochId : Str}

def roundOf (s : EpochStore) (epochId : Str) : Option UInt64 :=
  (s.find epochId).map (·.2.roundNumber)

lemma roundOf_eq_some : s.roundOf epochId = some n ↔
    ∃ p e, s.find epochId = some (p, e) ∧ e.roundNumber = n := by
  simp only [roundOf, map_eq_some_iff, Prod.exists]

lemma roundOf_start (hnew : s.epochs newId = none) (hround : s.roundOf epochId = some n) :
    (s.start newId providerId fileId totalChunks now).roundOf epochId = some n := by
  obtain ⟨p, e, hfind, rfl⟩ := roundOf_eq_some.mp hround
  refine roundOf_eq_some.mpr ⟨p, _, find_start newId _ _ _ _ hnew hfind, ?_⟩
  split <;> rfl

/-- The round after that of the latest epoch of the key. -/
lemma roundOf_start_self (s : EpochStore) (newId providerId fileId : Str) (totalChunks : Int64)
    (now : Int) : (s.start newId providerId fileId totalChunks now).roundOf newId =
      some (((s.latest (epochKey providerId fileId)).bind s.roundOf).elim 0 (· + 1)) := by
  have hround : (s.endPrevious (epochKey providerId fileId)).2 =
      ((s.latest (epochKey providerId fileId)).bind s.roundOf).elim 0 (· + 1) := by
    rw [endPrevious]
    cases hlatest : s.latest (epochKey providerId fileId) with
    | none => rfl
    | some previousId =>
      simp only [bind_some, roundOf]
      cases s.find previousId <;> rfl
  exact roundOf_eq_some.mpr
    ⟨_, _, find_eq_some.mpr ⟨update_self .., List.getElem?_concat_length⟩, hround⟩

lemma roundOf_take (hselects : s.Selects selectedId q epoch k chunkId)
    (hround : s.roundOf epochId = some n) : (s.take spare q epoch k).roundOf epochId = some n := by
  obtain ⟨p, e, hfind, rfl⟩ := roundOf_eq_some.mp hround
  obtain ⟨e', hfind', -, -, hround', -⟩ := find_take spare hselects hfind
  exact roundOf_eq_some.mpr ⟨p, e', hfind', hround'⟩

lemma roundOf_of_getEpochState (hstate : s.getEpochState epochId = .ok epochState) :
    s.roundOf epochId = some epochState.roundNumber := by
  unfold getEpochState at hstate
  split at hstate
  · cases hstate
  split at hstate
  · cases hstate
  rename_i p epoch hfind
  cases hstate
  exact roundOf_eq_some.mpr ⟨p, epoch, hfind, rfl⟩

end EpochStore

namespace ContractStore

open EpochStore (Rounded roundOf_start roundOf_start_self roundOf_take)

variable {sha256 : List UInt8 → Hash} {spare : Nat → Nat → Nat} {s : ContractStore}
  {contractId : Str} {c : AvailabilityContract} {generated : Challenge} {epochs : EpochStore}

/-- The next challenge of a contract whose tracked epoch is the latest of its
key: its round is that of the tracked epoch, or the one after it. -/
lemma rounded_of_nextChallenge
    (hlatest : s.epochs.latest c.key = (s.activeEpochs contractId).map (·.id))
    (hnext : s.nextChallenge sha256 spare contractId c randomId randomNonce now =
      (.ok generated, epochs)) :
    ∃ n, epochs.roundOf generated.epochId = some n ∧ Rounded sha256 generated n ∧
      ∀ t m, s.activeEpochs contractId = some t → s.epochs.roundOf t.id = some m →
        n = m ∨ n = m + 1 := by
  have hcreate {n : UInt64}
      (hn : ((s.epochs.latest c.key).bind s.epochs.roundOf).elim 0 (· + 1) = n)
      (h : (s.epochs.createChallenge sha256 spare contractId c.providerId c.fileId c.totalChunks n
        randomId randomNonce now).map (·.mapError ContractError.generateChallenge) id =
          (.ok generated, epochs)) :
      epochs.roundOf generated.epochId = some n ∧ Rounded sha256 generated n := by
    rcases EpochStore.createChallenge_cases ..
      with ⟨e, he⟩ | ⟨r, -, -, ⟨e, he⟩ | ⟨_, _, _, _, hselects, hepoch, -, hrounded, hok⟩⟩
    · rw [he] at h
      cases h
    · rw [he] at h
      cases h
    · rw [hok] at h
      cases h
      rw [hepoch]
      exact ⟨roundOf_take hselects (hn ▸ s.epochs.roundOf_start_self ..), hrounded⟩
  unfold nextChallenge at hnext
  split at hnext
  · rename_i hnone
    rw [hnone] at hlatest ⊢
    obtain ⟨hround, hrounded⟩ := hcreate (hlatest ▸ rfl) hnext
    exact ⟨0, hround, hrounded, nofun⟩
  rename_i tracked htracked
  rw [htracked] at hlatest ⊢
  split at hnext
  · cases hnext
  rename_i epochState hstate
  have htracked := EpochStore.roundOf_of_getEpochState hstate
  split at hnext
  · rcases EpochStore.generateNextChallenge_cases ..
      with ⟨e, he⟩ | ⟨_, _, _, _, hselects, hepoch, -, hrounded, hok⟩
    · rw [he] at hnext
      cases hnext
    · rw [hok] at hnext
      cases hnext
      refine ⟨_, hepoch ▸ roundOf_take hselects htracked, hrounded, fun t m ht hm => .inl ?_⟩
      cases ht
      exact Option.some.inj (htracked.symm.trans hm)
  · rw [hlatest, map_some, bind_some, htracked] at hcreate
    obtain ⟨hround, hrounded⟩ := hcreate rfl hnext
    refine ⟨_, hround, hrounded, fun t m ht hm => .inr ?_⟩
    cases ht
    rw [Option.some.inj (htracked.symm.trans hm), elim_some]

/-- Epochs keep their round numbers. -/
lemma Next.roundOf (hnext : s.Next spare contractId c randomId (result, epochs))
    (hfresh : ∀ r, randomId = some r → s.epochs.epochs (EpochStore.epochIdOf r) = none)
    (hround : s.epochs.roundOf epochId = some n) : epochs.roundOf epochId = some n := by
  cases hnext with
  | failed => exact hround
  | continued _ hselects => exact EpochStore.roundOf_take hselects hround
  | startFailed _ hr _ => exact EpochStore.roundOf_start (hfresh _ hr) hround
  | started hr _ hstart hselects =>
    subst hstart
    exact EpochStore.roundOf_take hselects (EpochStore.roundOf_start (hfresh _ hr) hround)

end ContractStore

lemma le_succ_of_ne_last {n : UInt64} (hne : n ≠ .ofNat (2 ^ 64 - 1)) : n ≤ n + 1 := by
  have hlast : n.toNat ≠ 2 ^ 64 - 1 := fun heq => hne (UInt64.toNat_inj.mp heq)
  have hlt := n.toNat_lt
  rw [UInt64.le_iff_toNat_le, UInt64.toNat_add, UInt64.toNat_one]
  omega

namespace ContractHistory

open EpochStore (Rounded)

variable {sha256 : List UInt8 → Hash} {spare : Nat → Nat → Nat} {ed : Ed25519}
  {h h' : ContractHistory} {call : ContractCall}

/-- The latest epoch of the provider and the file of a contract that is
challenged is the one tracked for it, not of the last round that there is, and
the ID drawn for a new one is new. -/
def LatestTracked : ContractCall → ContractHistory → Prop
  | .initiate contractId randomId _ _ _, h =>
    (∀ r, randomId = some r → h.store.epochs.epochs (EpochStore.epochIdOf r) = none) ∧
    ∀ p c, h.store.find contractId = some (p, c) →
      h.store.epochs.latest c.key = (h.store.activeEpochs contractId).map (·.id) ∧
      ∀ t, h.store.activeEpochs contractId = some t →
        h.store.epochs.roundOf t.id ≠ some (.ofNat (2 ^ 64 - 1))
  | _, _ => True

/-- A contract with challenges has a tracked epoch, of a round not before
theirs. -/
structure Rounds (sha256 : List UInt8 → Hash) (h : ContractHistory) : Prop where
  rounded : ∀ c ∈ h.issued, ∃ n, h.store.epochs.roundOf c.epochId = some n ∧ Rounded sha256 c n
  tracked : ∀ c ∈ h.issued, ∃ t n, h.store.activeEpochs c.contractId = some t ∧
    h.store.epochs.roundOf t.id = some n ∧ c.roundNumber ≤ n
  ordered : h.issued.Pairwise fun c d => c.contractId = d.contractId → c.roundNumber ≤ d.roundNumber

lemma Rounds.change (hrounds : Rounds sha256 h) (hchange : Change sha256 spare h call h')
    (hlatest : LatestTracked call h) : Rounds sha256 h' := by
  cases hchange with
  | startFailed _ _ hnext =>
    refine ⟨fun c hc => ?_, fun c hc => ?_, hrounds.ordered⟩
    · obtain ⟨n, hround, hrounded⟩ := hrounds.rounded c hc
      exact ⟨n, hnext.roundOf hlatest.1 hround, hrounded⟩
    · obtain ⟨t, n, ht, hround, hle⟩ := hrounds.tracked c hc
      exact ⟨t, n, ht, hnext.roundOf hlatest.1 hround, hle⟩
  | @challenge contractId _ _ _ _ _ _ generated _ hfind _ hnext hinitiate =>
    obtain ⟨_, _, hfind', hnext'⟩ := nextChallenge_of_initiate hinitiate
    cases hfind.symm.trans hfind'
    obtain ⟨hkey, hlast⟩ := hlatest.2 _ _ hfind
    obtain ⟨n, hround, hrounded, hcount⟩ := ContractStore.rounded_of_nextChallenge hkey hnext'
    have hid : generated.contractId = contractId := by
      cases hnext <;> assumption
    -- the rounds of the contract before this one
    have hbefore (c : Challenge) (hc : c ∈ h.issued) (hcid : c.contractId = contractId) :
        c.roundNumber ≤ n := by
      obtain ⟨t, m, ht, hm, hle⟩ := hrounds.tracked c hc
      rw [hcid] at ht
      rcases hcount t m ht hm with rfl | rfl
      · exact hle
      · have hne : m ≠ .ofNat (2 ^ 64 - 1) := fun heq => hlast t ht (heq ▸ hm)
        exact UInt64.le_trans hle (le_succ_of_ne_last hne)
    refine ⟨List.forall_mem_append.mpr ⟨fun c hc => ?_, ?_⟩,
      List.forall_mem_append.mpr ⟨fun c hc => ?_, ?_⟩,
      List.pairwise_append.mpr ⟨hrounds.ordered, List.pairwise_singleton .., fun c hc => ?_⟩⟩
    · obtain ⟨n, hround, hrounded⟩ := hrounds.rounded c hc
      exact ⟨n, hnext.roundOf hlatest.1 hround, hrounded⟩
    · exact List.forall_mem_singleton.mpr ⟨n, hround, hrounded⟩
    · by_cases hcid : c.contractId = contractId
      · exact ⟨_, n, by rw [hcid]; exact update_self .., hround, hbefore c hc hcid⟩
      · obtain ⟨t, n, ht, hround, hle⟩ := hrounds.tracked c hc
        exact ⟨t, n, (update_of_ne hcid ..).trans ht, hnext.roundOf hlatest.1 hround, hle⟩
    · refine List.forall_mem_singleton.mpr ⟨_, n, by rw [hid]; exact update_self .., hround, ?_⟩
      exact UInt64.le_of_eq hrounded.number
    · refine List.forall_mem_singleton.mpr fun heq => ?_
      rw [hrounded.number]
      exact hbefore c hc (heq.trans hid)
  | _ => exact ⟨hrounds.rounded, hrounds.tracked, hrounds.ordered⟩

/-- Every challenge that was issued has the round number of its epoch, and the
round numbers of a contract's challenges do not decrease. -/
theorem rounds_agree (hr : Run (step sha256 spare ed) LatestTracked init h) :
    (∀ c ∈ h.issued, ∃ n, h.store.epochs.roundOf c.epochId = some n ∧ Rounded sha256 c n) ∧
    h.issued.Pairwise fun c d => c.contractId = d.contractId → c.roundNumber ≤ d.roundNumber := by
  have hrounds : Rounds sha256 h := by
    refine Run.inv hr ⟨nofun, nofun, .nil⟩ ?_
    exact fun _ _ _ hlatest hstep hrounds => hrounds.change (change_of_step hstep) hlatest
  exact ⟨hrounds.rounded, hrounds.ordered⟩

/-- The second challenge of a contract is of a new epoch. -/
theorem rounds_agree_sample : ∃ h c d, Run sampleStep LatestTracked init h ∧ h.issued = [c, d] ∧
    (∃ n, h.store.epochs.roundOf d.epochId = some n ∧ Rounded sampleHash d n) ∧
    c.contractId = d.contractId ∧ c.roundNumber ≤ d.roundNumber := by
  have hfirst : Run sampleStep LatestTracked init _ :=
    .tail (.tail (.tail .refl (a := sampleCreate 0) trivial rfl)
      (a := .fund (sampleId 0) 10) trivial rfl)
      (a := sampleInitiate 0 0 0 1)
      ⟨fun _ _ => rfl, fun _ _ hfind => by cases hfind; exact ⟨rfl, nofun⟩⟩ rfl
  have hr : Run sampleStep LatestTracked init _ :=
    .tail (.tail hfirst (a := .record (sampleId 0) sampleChallengeId ⟨[], true, 2⟩ 2) trivial rfl)
      (a := sampleInitiate 0 1 1 3)
      ⟨fun _ hr => by cases hr; rfl,
        fun _ _ hfind => by cases hfind; exact ⟨rfl, fun _ ht => by cases ht; decide⟩⟩ rfl
  obtain ⟨hrounded, hordered⟩ := rounds_agree hr
  exact ⟨_, _, _, hr, rfl, hrounded _ (List.mem_cons_of_mem _ (List.mem_singleton.mpr rfl)), rfl,
    List.rel_of_pairwise_cons hordered (List.mem_singleton.mpr rfl) rfl⟩

/-- Two contracts about the same file: the first challenge of the second has
round number 0, its epoch 1. -/
theorem rounds_disagree : ∃ h c, Run sampleStep (FreshIds sampleHash fun _ _ => 0) init h ∧
    c ∈ h.issued ∧ c.roundNumber = 0 ∧ h.store.epochs.roundOf c.epochId = some 1 := by
  have hr : Run sampleStep (FreshIds sampleHash fun _ _ => 0) init _ :=
    .tail (run_sampleTwo 3) (a := sampleInitiate 1 1 1 2) ⟨fun r hr => by cases hr; rfl,
      fun generated store hinitiate => by cases hinitiate; rfl⟩ rfl
  exact ⟨_, _, hr, List.mem_append_right _ (List.mem_singleton.mpr rfl), rfl, rfl⟩

end ContractHistory

end Cipher.Availability
