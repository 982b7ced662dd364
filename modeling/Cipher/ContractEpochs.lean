import Cipher.ContractRecords

/-!
# The epochs of several contracts

The contract store remembers an epoch for each contract, the epoch store the
latest one for each provider and file. A challenge of one contract leaves the
epoch of another as it is if the two are about different keys, the provider
ID and the file ID with a NUL byte between them. If they have the same key,
each contract's new epoch ends that of the other.
-/

namespace Cipher.Availability

open Bytes Binary Go Content Slices Transition Function Option

/-! ## The epoch store, when IDs are new -/

namespace EpochStore

variable {s : EpochStore} {spare : Nat → Nat → Nat} {selected : Nat → List Int}

/-- What can be seen of an epoch: its status, its counter and its uncovered
chunks. -/
def view (s : EpochStore) (epochId : Str) : Option (EpochStatus × UInt64 × List Int) :=
  (s.find epochId).map fun (_, e) => (e.status, e.challengeCounter, s.memory.toList e.uncovered)

variable {epochId : Str} {p : Nat} {e : Epoch}

lemma view_eq (hfind : s.find epochId = some (p, e)) :
    s.view epochId = some (e.status, e.challengeCounter, s.memory.toList e.uncovered) := by
  rw [view, hfind, map_some]

/-- Every key leads to one of its epochs, and no epoch has two IDs. -/
structure Filed (s : EpochStore) : Prop where
  latest : ∀ {key epochId : Str}, s.latest key = some epochId →
    ∃ p e, s.find epochId = some (p, e) ∧ e.key = key
  injective : ∀ {epochId epochId' : Str} {p : Nat}, s.epochs epochId = some p →
    s.epochs epochId' = some p → epochId = epochId'

/-- The epochs are found under the same IDs, with the same keys. -/
def Keeps (s s' : EpochStore) : Prop :=
  ∀ {epochId : Str} {p : Nat} {e : Epoch}, s.find epochId = some (p, e) →
    ∃ e', s'.find epochId = some (p, e') ∧ e'.key = e.key

lemma ne_of_find (hfind : s.find epochId = some (p, e))
    (hnew : s.epochs newId = none) : epochId ≠ newId := by
  rintro rfl
  rw [(find_eq_some.mp hfind).1] at hnew
  cases hnew

section Start

variable (newId providerId fileId : Str) (totalChunks : Int64) (now : Int)

/-- An epoch that was there before, after a new one was started. -/
lemma find_start (hnew : s.epochs newId = none) (hfind : s.find epochId = some (p, e)) :
    (s.start newId providerId fileId totalChunks now).find epochId =
      some (p, if s.previous (epochKey providerId fileId) = some p then { e with status := .ended }
        else e) := by
  obtain ⟨hp, he⟩ := find_eq_some.mp hfind
  have hlt : p < s.objects.length := (List.getElem_of_getElem? he).1
  refine find_eq_some.mpr ⟨?_, ?_⟩
  · exact (update_of_ne (ne_of_find hfind hnew) ..).trans hp
  · change ((s.endPrevious _).1 ++ [_])[p]? = _
    rw [List.getElem?_append_left (by rwa [length_endPrevious]), getElem?_endPrevious, he]
    split <;> rfl

lemma find_start_self : ∃ e, (s.start newId providerId fileId totalChunks now).find newId =
    some (s.objects.length, e) ∧ e.key = epochKey providerId fileId := by
  have hlt : s.objects.length < (s.start newId providerId fileId totalChunks now).objects.length :=
    length_start .. ▸ Nat.lt_succ_self _
  have hlast := List.getElem?_eq_getElem hlt
  refine ⟨_, find_eq_some.mpr ⟨?_, hlast⟩, ?_⟩
  · rw [epochs_start, update_self]
  · rcases objects_start _ _ _ _ _ _ hlast with ⟨e₀, _, he₀, -⟩ | ⟨-, hkey, -⟩
    · exact absurd (List.getElem_of_getElem? he₀).1 (Nat.lt_irrefl _)
    · exact hkey

lemma keeps_start (hnew : s.epochs newId = none) :
    Keeps s (s.start newId providerId fileId totalChunks now) := by
  intro epochId p e hfind
  refine ⟨_, find_start newId _ fileId _ now hnew hfind, ?_⟩
  split <;> rfl

lemma Filed.start (h : Filed s) (hwf : EpochHistory.Wf ⟨s, selected⟩)
    (hnew : s.epochs newId = none) :
    Filed (s.start newId providerId fileId totalChunks now) where
  latest := by
    intro key epochId hlatest
    change update _ _ _ _ = _ at hlatest
    by_cases hkey : key = epochKey providerId fileId
    · rw [hkey, update_self] at hlatest
      cases hlatest
      rw [hkey]
      exact ⟨_, find_start_self ..⟩
    · rw [update_of_ne hkey] at hlatest
      obtain ⟨p, e, hfind, rfl⟩ := h.latest hlatest
      exact ⟨p, keeps_start newId _ fileId _ now hnew hfind⟩
  injective := by
    -- the new pointer is greater than all others
    intro id id' p hid hid'
    rw [epochs_start] at hid hid'
    by_cases heq : id = newId <;> by_cases heq' : id' = newId
    · rw [heq, heq']
    · rw [heq, update_self] at hid
      rw [update_of_ne heq'] at hid'
      cases hid
      exact absurd (hwf.pointers hid') (Nat.lt_irrefl _)
    · rw [heq', update_self] at hid'
      rw [update_of_ne heq] at hid
      cases hid'
      exact absurd (hwf.pointers hid) (Nat.lt_irrefl _)
    · rw [update_of_ne heq] at hid
      rw [update_of_ne heq'] at hid'
      exact h.injective hid hid'

/-- A new epoch ends the previous one of its key and leaves the rest. -/
lemma view_start (hwf : EpochHistory.Wf ⟨s, selected⟩) (hnew : s.epochs newId = none)
    (hfind : s.find epochId = some (p, e)) :
    (s.start newId providerId fileId totalChunks now).view epochId =
      some (if s.previous (epochKey providerId fileId) = some p then .ended else e.status,
        e.challengeCounter, s.memory.toList e.uncovered) := by
  have hholds := (hwf.covered (find_eq_some.mp hfind).2).holds.make (chunkRange totalChunks)
  rw [view_eq (find_start newId _ fileId _ now hnew hfind), ← hholds.elems]
  split <;> rfl

end Start

section Take

variable {q : Nat} {p : Nat} {e : Epoch}

lemma find_take (spare : Nat → Nat → Nat)
    (hselects : s.Selects selectedId q epoch k chunkId) (hfind : s.find epochId = some (p, e)) :
    ∃ e', (s.take spare q epoch k).find epochId = some (p, e') ∧ e'.key = e.key ∧
      e'.status = e.status ∧ e'.roundNumber = e.roundNumber ∧ (p ≠ q → e' = e) := by
  obtain ⟨-, hq⟩ := find_eq_some.mp hselects.found
  obtain ⟨hp, he⟩ := find_eq_some.mp hfind
  by_cases hpq : q = p
  · subst hpq
    cases hq.symm.trans he
    refine ⟨_, find_eq_some.mpr ⟨hp, List.getElem?_set_self
      (List.getElem_of_getElem? he).1⟩, rfl, rfl, rfl, fun hne => absurd rfl hne⟩
  · exact ⟨e, find_eq_some.mpr ⟨hp, (List.getElem?_set_ne hpq).trans he⟩, rfl, rfl, rfl,
      fun _ => rfl⟩

lemma keeps_take (hselects : s.Selects selectedId q epoch k chunkId) :
    Keeps s (s.take spare q epoch k) := by
  intro epochId p e hfind
  obtain ⟨e', hfind', hkey, -⟩ := find_take spare hselects hfind
  exact ⟨e', hfind', hkey⟩

lemma Filed.take (h : Filed s) (hselects : s.Selects selectedId q epoch k chunkId) :
    Filed (s.take spare q epoch k) where
  latest := by
    intro key epochId hlatest
    obtain ⟨p, e, hfind, rfl⟩ := h.latest hlatest
    exact ⟨p, keeps_take hselects hfind⟩
  injective := h.injective

/-- An epoch from which no chunk is taken. -/
lemma view_take (hwf : EpochHistory.Wf ⟨s, selected⟩)
    (hselects : s.Selects selectedId q epoch k chunkId) (hfind : s.find epochId = some (p, e))
    (hpq : p ≠ q) : (s.take spare q epoch k).view epochId = s.view epochId := by
  obtain ⟨e', hfind', -, -, -, heq⟩ := find_take spare hselects hfind
  obtain rfl := heq hpq
  obtain ⟨-, hq⟩ := find_eq_some.mp hselects.found
  obtain ⟨-, he⟩ := find_eq_some.mp hfind
  have harray : e'.uncovered.array ≠ epoch.uncovered.array :=
    fun harray => hpq (hwf.arrays he hq harray)
  have hholds : (s.memory.remove spare epoch.uncovered k).1.Holds e'.uncovered _ :=
    (hwf.covered he).holds.remove_of_ne hselects.index (hwf.covered hq).holds.room harray
  rw [view_eq hfind', view_eq hfind, ← hholds.elems]
  rfl

end Take

/-- An epoch that was there before, after a new one was started and a chunk
was taken from that. -/
lemma view_started
    (hwf : EpochHistory.Wf ⟨s, selected⟩) (hnew : s.epochs newId = none) (htotal : 0 < totalChunks)
    (hselects : (s.start newId providerId fileId totalChunks now).Selects newId q epoch k chunkId)
    (hfind : s.find epochId = some (p, e)) :
    ((s.start newId providerId fileId totalChunks now).take spare q epoch k).view epochId =
      some (if s.previous (epochKey providerId fileId) = some p then .ended else e.status,
        e.challengeCounter, s.memory.toList e.uncovered) := by
  have hpq : p ≠ q := by
    obtain ⟨hq, -⟩ := find_eq_some.mp hselects.found
    rw [epochs_start, update_self] at hq
    cases hq
    exact Nat.ne_of_lt (List.getElem_of_getElem? (find_eq_some.mp hfind).2).1
  rw [view_take (hwf.start _ _ _ _ htotal) hselects (find_start _ _ _ _ _ hnew hfind) hpq,
    view_start _ _ _ _ _ hwf hnew hfind]

end EpochStore

/-! ## The epochs that contracts have -/

/-- The provider and the file of a contract, as the epoch store sees them. -/
def AvailabilityContract.key (c : AvailabilityContract) : Str := epochKey c.providerId c.fileId

lemma AvailabilityContract.Touch.key_eq (htouch : Touch contractId c call c') : c'.key = c.key := by
  cases htouch with
  | challenge hchallengeable =>
    obtain ⟨written, heq, -⟩ := activated_eq hchallengeable
    rw [heq]
    rfl
  | _ => rfl

namespace ContractHistory

variable {sha256 : List UInt8 → Hash} {spare : Nat → Nat → Nat} {ed : Ed25519}
  {h h' : ContractHistory} {call : ContractCall}

/-- The epoch that is tracked for a contract is one of its key, and tracked
for no other contract. -/
structure Tracked (h : ContractHistory) : Prop where
  wf : ∃ selected, EpochHistory.Wf ⟨h.store.epochs, selected⟩
  filed : h.store.epochs.Filed
  tracked : ∀ {contractId : Str} {t : ActiveEpoch}, h.store.activeEpochs contractId = some t →
    ∃ p e q c, h.store.epochs.find t.id = some (p, e) ∧ h.store.find contractId = some (q, c) ∧
      e.key = c.key
  distinct : ∀ {a b : Str} {t u : ActiveEpoch}, h.store.activeEpochs a = some t →
    h.store.activeEpochs b = some u → t.id = u.id → a = b

variable {c : AvailabilityContract}

/-- A contract stays where it is, with its key. -/
lemma Change.find (hchange : Change sha256 spare h call h') (hfresh : FreshIds sha256 spare call h)
    (hfind : h.store.find contractId = some (p, c)) :
    ∃ c', h'.store.find contractId = some (p, c') ∧ c'.key = c.key := by
  obtain ⟨hp, hc⟩ := ContractStore.find_eq_some.mp hfind
  obtain ⟨c', hc', hcase⟩ := hchange.next_object hc
  have hkey : c'.key = c.key := by
    rcases hcase with rfl | ⟨_, -, htouch⟩
    · rfl
    · exact htouch.key_eq
  refine ⟨c', ContractStore.find_eq_some.mpr ⟨?_, hc'⟩, hkey⟩
  cases hchange with
  | @create _ _ _ _ _ _ _ random _ _ =>
    have hne : contractId ≠ contractIdOf random := by
      rintro rfl
      rw [hfresh random rfl] at hp
      cases hp
    exact (update_of_ne hne ..).trans hp
  | _ => exact hp

/-- What the next challenge of a contract leaves of the epochs. -/
structure EpochsKept (s : ContractStore) (epochs : EpochStore) : Prop where
  wf : ∃ selected, EpochHistory.Wf ⟨epochs, selected⟩
  filed : epochs.Filed
  keeps : s.epochs.Keeps epochs

variable {s : ContractStore} {randomId : Option (Block 16)}

lemma epochsKept_of_next (hnext : s.Next spare contractId c randomId (result, epochs))
    (hfresh : ∀ r, randomId = some r → s.epochs.epochs (EpochStore.epochIdOf r) = none)
    (hwf : ∃ selected, EpochHistory.Wf ⟨s.epochs, selected⟩) (hfiled : s.epochs.Filed) :
    EpochsKept s epochs := by
  obtain ⟨selected, hwf⟩ := hwf
  cases hnext with
  | failed => exact ⟨⟨selected, hwf⟩, hfiled, fun hfind => ⟨_, hfind, rfl⟩⟩
  | continued _ hselects =>
    exact ⟨⟨_, hwf.take hselects⟩, hfiled.take hselects, EpochStore.keeps_take hselects⟩
  | startFailed _ hr htotal =>
    have hnew := hfresh _ hr
    exact ⟨⟨selected, hwf.start _ _ _ _ htotal⟩, hfiled.start _ _ _ _ _ hwf hnew,
      EpochStore.keeps_start _ _ _ _ _ hnew⟩
  | @started r now _ _ _ _ _ hr htotal hstart hselects _ _ =>
    subst hstart
    have hnew := hfresh r hr
    have hwf' := hwf.start (EpochStore.epochIdOf r) c.providerId c.fileId now htotal
    have hfiled' := hfiled.start _ c.providerId c.fileId c.totalChunks now hwf hnew
    refine ⟨⟨_, hwf'.take hselects⟩, hfiled'.take hselects, fun hfind => ?_⟩
    obtain ⟨e₁, hfind₁, hkey₁⟩ := EpochStore.keeps_start _ _ _ _ _ hnew hfind
    obtain ⟨e₂, hfind₂, hkey₂⟩ := EpochStore.keeps_take hselects hfind₁
    exact ⟨e₂, hfind₂, hkey₂.trans hkey₁⟩

/-- The epoch of the new challenge: the one that was tracked, or a new one of
the contract's key. -/
lemma epoch_of_next (hnext : s.Next spare contractId c randomId (.ok generated, epochs)) :
    (∃ t, s.activeEpochs contractId = some t ∧ generated.epochId = t.id) ∨
    ∃ r p e, randomId = some r ∧ generated.epochId = EpochStore.epochIdOf r ∧
      epochs.find generated.epochId = some (p, e) ∧ e.key = c.key := by
  cases hnext with
  | continued htracked _ hepoch => exact .inl ⟨_, htracked, hepoch⟩
  | @started r now _ _ _ _ _ hr _ hstart hselects hepoch _ =>
    obtain ⟨e, hfind, hkey⟩ := EpochStore.find_start_self (s := s.epochs) ..
    rw [← hstart] at hfind
    obtain ⟨e', hfind', hkey', -⟩ := EpochStore.find_take spare hselects hfind
    exact .inr ⟨r, _, e', hr, hepoch, hepoch ▸ hfind', hkey'.trans hkey⟩

/-- Only a challenge has to do with the epochs. -/
lemma Change.epochs (hchange : Change sha256 spare h call h') :
    (h'.store.epochs = h.store.epochs ∧ h'.store.activeEpochs = h.store.activeEpochs) ∨
    ∃ contractId randomId randomNonce now issuedAt q c result,
      call = .initiate contractId randomId randomNonce now issuedAt ∧
      h.store.find contractId = some (q, c) ∧
      h.store.Next spare contractId c randomId (result, h'.store.epochs) ∧
      ((∃ e, result = .error e ∧ h'.store.activeEpochs = h.store.activeEpochs) ∨
        ∃ generated, result = .ok generated ∧
          h'.store.activeEpochs = update h.store.activeEpochs contractId
            (some ⟨generated.epochId, generated.triggerStatus⟩)) := by
  cases hchange with
  | startFailed hfind _ hnext =>
    exact .inr ⟨_, _, _, _, _, _, _, _, rfl, hfind, hnext, .inl ⟨_, rfl, rfl⟩⟩
  | challenge hfind _ hnext =>
    exact .inr ⟨_, _, _, _, _, _, _, _, rfl, hfind, hnext, .inr ⟨_, rfl, rfl⟩⟩
  | _ => exact .inl ⟨rfl, rfl⟩

lemma Tracked.change (htracked : Tracked h) (hchange : Change sha256 spare h call h')
    (hfresh : FreshIds sha256 spare call h) : Tracked h' := by
  -- a contract whose tracked epoch is the one it was
  have hold {contractId : Str} {t : ActiveEpoch} (hkept : EpochsKept h.store h'.store.epochs)
      (ht : h.store.activeEpochs contractId = some t) :
      ∃ p e q c, h'.store.epochs.find t.id = some (p, e) ∧
        h'.store.find contractId = some (q, c) ∧ e.key = c.key := by
    obtain ⟨p, e, q, c, hepoch, hfind, hkey⟩ := htracked.tracked ht
    obtain ⟨e', hepoch', hekey⟩ := hkept.keeps hepoch
    obtain ⟨c', hfind', hckey⟩ := hchange.find hfresh hfind
    exact ⟨p, e', q, c', hepoch', hfind', by rw [hekey, hckey, hkey]⟩
  have hkeep (hkept : EpochsKept h.store h'.store.epochs)
      (hactive : h'.store.activeEpochs = h.store.activeEpochs) : Tracked h' :=
    ⟨hkept.wf, hkept.filed, fun ht => hold hkept (hactive ▸ ht), hactive ▸ htracked.distinct⟩
  rcases hchange.epochs with ⟨hepochs, hactive⟩ | ⟨contractId, randomId, randomNonce, now, issuedAt,
    q, c, result, rfl, hfind, hnext, hcase⟩
  · exact hkeep ⟨hepochs ▸ htracked.wf, hepochs ▸ htracked.filed,
      fun hfind => ⟨_, hepochs ▸ hfind, rfl⟩⟩ hactive
  have hkept := epochsKept_of_next hnext hfresh.1 htracked.wf htracked.filed
  rcases hcase with ⟨e, -, hactive⟩ | ⟨generated, rfl, hactive⟩
  · exact hkeep hkept hactive
  -- the epochs that other contracts have are not the new one
  have hother {b : Str} {u : ActiveEpoch} (hb : b ≠ contractId)
      (hu : h.store.activeEpochs b = some u) : u.id ≠ generated.epochId := by
    intro heq
    rcases epoch_of_next hnext with ⟨t, ht, hepoch⟩ | ⟨r, _, _, hr, hepoch, -⟩
    · exact hb (htracked.distinct hu ht (heq.trans hepoch))
    · obtain ⟨_, _, _, _, hfind, -⟩ := htracked.tracked hu
      exact EpochStore.ne_of_find hfind (hfresh.1 r hr) (heq.trans hepoch)
  refine ⟨hkept.wf, hkept.filed, ?_, ?_⟩
  · intro b u hu
    rw [hactive] at hu
    by_cases hb : b = contractId
    · rw [hb, update_self] at hu
      cases hu
      rw [hb]
      rcases epoch_of_next hnext with ⟨t, ht, hepoch⟩ | ⟨_, p, e, -, -, hepoch, hkey⟩
      · obtain ⟨p, e, q, c, hepoch', hrest⟩ := hold hkept ht
        exact ⟨p, e, q, c, by rw [hepoch, hepoch'], hrest⟩
      · obtain ⟨c', hfind', hckey⟩ := hchange.find hfresh hfind
        exact ⟨p, e, q, c', hepoch, hfind', by rw [hckey, hkey]⟩
    · rw [update_of_ne hb] at hu
      exact hold hkept hu
  · intro a b t u ht hu heq
    rw [hactive] at ht hu
    by_cases ha : a = contractId <;> by_cases hb : b = contractId
    · rw [ha, hb]
    · rw [ha, update_self] at ht
      rw [update_of_ne hb] at hu
      cases ht
      exact absurd heq.symm (hother hb hu)
    · rw [hb, update_self] at hu
      rw [update_of_ne ha] at ht
      cases hu
      exact absurd heq (hother ha ht)
    · rw [update_of_ne ha] at ht
      rw [update_of_ne hb] at hu
      exact htracked.distinct ht hu heq

lemma tracked_of_run (hr : Run (step sha256 spare ed) (FreshIds sha256 spare) init h) :
    Tracked h := by
  refine Run.inv hr ⟨⟨_, EpochHistory.wf_init⟩, ⟨nofun, nofun⟩, nofun, nofun⟩ ?_
  exact fun _ _ _ hfresh hstep htracked => htracked.change (change_of_step hstep) hfresh

/-! ## Two contracts -/

lemma store_noteIssued (h : ContractHistory)
    (result : Except ContractError Challenge × ContractStore) :
    (h.noteIssued result).store = result.2 := by
  rcases result with ⟨_ | _, store⟩ <;> rfl

lemma nextChallenge_of_initiate {store : ContractStore}
    (hinitiate : s.initiate sha256 spare contractId randomId randomNonce now issuedAt =
      (.ok generated, store)) :
    ∃ p c, s.find contractId = some (p, c) ∧ s.nextChallenge sha256 spare contractId c randomId
      randomNonce issuedAt = (.ok generated, store.epochs) := by
  unfold ContractStore.initiate at hinitiate
  split at hinitiate
  · cases hinitiate
  rename_i p c hfind
  split at hinitiate
  · cases hinitiate
  split at hinitiate
  · cases hinitiate
  split at hinitiate
  · cases hinitiate
  rename_i hnext
  rw [AvailabilityContract.activate_eq] at hinitiate
  cases hinitiate
  exact ⟨p, c, hfind, hnext⟩

lemma next_of_initiate {store : ContractStore}
    (hinitiate : s.initiate sha256 spare contractId randomId randomNonce now
      issuedAt = (.ok generated, store)) :
    ∃ p c, s.find contractId = some (p, c) ∧
      s.Next spare contractId c randomId (.ok generated, store.epochs) := by
  obtain ⟨p, c, hfind, hnext⟩ := nextChallenge_of_initiate hinitiate
  exact ⟨p, c, hfind, hnext ▸ s.next_nextChallenge ..⟩

section Next

variable {q : Nat} {c : AvailabilityContract}
  {randomId : Option (Block 16)} {t : ActiveEpoch} {p : Nat} {e : Epoch}

/-- The previous epoch of the key of another. -/
lemma Tracked.previous_eq (htracked : Tracked h) (hfind : h.store.epochs.find t.id = some (p, e))
    (hprevious : h.store.epochs.previous key = some p) : e.key = key := by
  obtain ⟨latestId, hlatest, hp⟩ := bind_eq_some_iff.mp hprevious
  obtain ⟨p', e', hfind', hkey⟩ := htracked.filed.latest hlatest
  obtain ⟨hp', he'⟩ := EpochStore.find_eq_some.mp hfind'
  cases hp.symm.trans hp'
  cases (EpochStore.find_eq_some.mp hfind).2.symm.trans he'
  exact hkey

/-- The epoch of another contract, when the two have different keys. -/
lemma Tracked.view_of_next (htracked : Tracked h)
    (hnext : h.store.Next spare contractId c randomId (result, epochs))
    (hfresh : ∀ r, randomId = some r → h.store.epochs.epochs (EpochStore.epochIdOf r) = none)
    (hne : contractId ≠ other) (ht : h.store.activeEpochs other = some t)
    (hfind : h.store.epochs.find t.id = some (p, e)) (hkey : c.key ≠ e.key) :
    epochs.view t.id = h.store.epochs.view t.id := by
  obtain ⟨selected, hwf⟩ := htracked.wf
  have hprevious : h.store.epochs.previous (epochKey c.providerId c.fileId) ≠ some p :=
    fun hprevious => hkey (htracked.previous_eq hfind hprevious).symm
  obtain ⟨hp, he⟩ := EpochStore.find_eq_some.mp hfind
  cases hnext with
  | failed => rfl
  | @continued u _ q _ _ hu hselects _ _ =>
    refine EpochStore.view_take hwf hselects hfind ?_
    rintro rfl
    obtain ⟨hq, -⟩ := EpochStore.find_eq_some.mp hselects.found
    exact hne (htracked.distinct hu ht (htracked.filed.injective hq hp))
  | startFailed _ hr _ =>
    rw [EpochStore.view_start _ _ _ _ _ hwf (hfresh _ hr) hfind, if_neg hprevious,
      EpochStore.view_eq hfind]
  | started hr htotal hstart hselects =>
    subst hstart
    rw [EpochStore.view_started hwf (hfresh _ hr) htotal hselects hfind, if_neg hprevious,
      EpochStore.view_eq hfind]

/-- The active epoch of another contract with the same key, when the
challenge succeeds. -/
lemma Tracked.ended_of_next (htracked : Tracked h)
    (hnext : h.store.Next spare contractId c randomId (.ok generated, epochs))
    (hfresh : ∀ r, randomId = some r → h.store.epochs.epochs (EpochStore.epochIdOf r) = none)
    (hc : h.store.find contractId = some (q, c)) (hne : contractId ≠ other)
    (ht : h.store.activeEpochs other = some t)
    (hfind : h.store.epochs.find t.id = some (p, e)) (hkey : c.key = e.key)
    (hactive : e.status = .active) :
    epochs.view t.id =
      some (.ended, e.challengeCounter, h.store.epochs.memory.toList e.uncovered) := by
  obtain ⟨selected, hwf⟩ := htracked.wf
  obtain ⟨hp, he⟩ := EpochStore.find_eq_some.mp hfind
  obtain ⟨hlatest, -⟩ := hwf.latest hp he hactive
  cases hnext with
  | @continued u _ q _ _ hu hselects _ _ =>
    -- the epoch of the first contract would be active and the latest, too
    obtain ⟨hq, hepoch⟩ := EpochStore.find_eq_some.mp hselects.found
    obtain ⟨hlatest', -⟩ := hwf.latest hq hepoch hselects.active
    obtain ⟨_, _, _, _, hfind', hc', hkey'⟩ := htracked.tracked hu
    cases hselects.found.symm.trans hfind'
    cases hc.symm.trans hc'
    rw [hkey', hkey] at hlatest'
    exact absurd (htracked.distinct hu ht (Option.some.inj (hlatest'.symm.trans hlatest))) hne
  | started hr htotal hstart hselects =>
    subst hstart
    have hprevious : h.store.epochs.previous (epochKey c.providerId c.fileId) = some p := by
      change h.store.epochs.previous c.key = some p
      rw [hkey, EpochStore.previous, hlatest, bind_some, hp]
    rw [EpochStore.view_started hwf (hfresh _ hr) htotal hselects hfind, if_pos hprevious]

end Next

/-- A challenge of one contract, and the active epoch of another: it stays as
it is if the two have different keys, and a challenge that succeeds ends it
if they have the same. -/
theorem contract_epochs (hr : Run (step sha256 spare ed) (FreshIds sha256 spare) init h)
    {idA idB : Str} {p q : Nat} {a b : AvailabilityContract} (hne : idA ≠ idB)
    (ha : h.store.find idA = some (p, a)) (hb : h.store.find idB = some (q, b))
    {t : ActiveEpoch} (ht : h.store.activeEpochs idB = some t) {counter : UInt64}
    {uncovered : List Int} (hview : h.store.epochs.view t.id = some (.active, counter, uncovered))
    {randomId : Option (Block 16)} {randomNonce : Option (Block 32)} {now issuedAt : Int}
    (hfresh : FreshIds sha256 spare (.initiate idA randomId randomNonce now issuedAt) h)
    {result : Except ContractError (Str × Str)} {store : ContractStore}
    (hinitiate : h.store.initiateAvailabilityChallenge sha256 spare idA randomId randomNonce now
      issuedAt = (result, store)) :
    (a.key ≠ b.key → store.epochs.view t.id = some (.active, counter, uncovered)) ∧
    (a.key = b.key → ∀ ids, result = .ok ids →
      store.epochs.view t.id = some (.ended, counter, uncovered)) := by
  have htracked := tracked_of_run hr
  obtain ⟨pe, e, q', b', hepoch, hb', hkey⟩ := htracked.tracked ht
  cases hb.symm.trans hb'
  have heq := (EpochStore.view_eq hepoch).symm.trans hview
  simp only [Option.some.injEq, Prod.mk.injEq] at heq
  obtain ⟨hactive, rfl, rfl⟩ := heq
  obtain ⟨generated, hgenerated⟩ : ∃ generated,
      h.store.initiate sha256 spare idA randomId randomNonce now issuedAt = (generated, store) := by
    have hstore := congrArg Prod.snd hinitiate
    exact ⟨_, Prod.ext rfl hstore⟩
  constructor
  · intro hkeys
    have hchange : Change sha256 spare h _ _ :=
      change_initiate h idA randomId randomNonce now issuedAt
    have hepochs := hchange.epochs
    rw [store_noteIssued, hgenerated] at hepochs
    rcases hepochs with ⟨hsame, -⟩ | ⟨_, _, _, _, _, _, c, _, hcall, hc, hnext, -⟩
    · rw [hsame, hview]
    · cases hcall
      cases ha.symm.trans hc
      rw [htracked.view_of_next hnext hfresh.1 hne ht hepoch (hkey ▸ hkeys), hview]
  · intro hkeys ids hids
    rw [ContractStore.initiateAvailabilityChallenge, hgenerated] at hinitiate
    cases generated with
    | error e =>
      cases hinitiate
      cases hids
    | ok generated =>
      obtain ⟨_, c, hc, hnext⟩ := next_of_initiate hgenerated
      cases ha.symm.trans hc
      exact htracked.ended_of_next hnext hfresh.1 ha hne ht hepoch (hkeys.trans hkey.symm) hactive

/-- A contract with an active epoch and a second one, of the same provider,
that is funded. -/
def sampleTwo (file : UInt8) : ContractHistory :=
  (execute sampleStep [sampleCreate 0, .fund (sampleId 0) 10, sampleInitiate 0 0 0 1,
    .create [1] [2] [file] 10 5 (some fun _ _ => some 2) (some (.ofList 16 [1])) 0,
    .fund (sampleId 1) 10] init).getD init

lemma run_sampleTwo (file : UInt8) :
    Run sampleStep (FreshIds sampleHash fun _ _ => 0) init (sampleTwo file) :=
  .tail (.tail (.tail (.tail (.tail .refl (a := sampleCreate 0) (fun _ _ => rfl) rfl)
    (a := .fund (sampleId 0) 10) trivial rfl)
    (a := sampleInitiate 0 0 0 1) ⟨fun _ _ => rfl, fun _ _ _ => rfl⟩ rfl)
    (a := .create [1] [2] [file] 10 5 (some fun _ _ => some 2) (some (.ofList 16 [1])) 0)
      (fun r hr => by cases hr; decide) rfl)
    (a := .fund (sampleId 1) 10) trivial rfl

/-- Two contracts about different files. -/
theorem contract_epochs_sample : ∃ (t : ActiveEpoch) (result : Except ContractError (Str × Str))
    (store : ContractStore), (sampleTwo 4).store.activeEpochs (sampleId 0) = some t ∧
    (sampleTwo 4).store.initiateAvailabilityChallenge sampleHash (fun _ _ => 0) (sampleId 1)
      (some (.ofList 16 [1])) (some (.ofList 32 [1])) 2 2 = (result, store) ∧
    store.epochs.view t.id = some (.active, 1, [1]) := by
  have hfresh : FreshIds sampleHash (fun _ _ => 0) (sampleInitiate 1 1 1 2) (sampleTwo 4) := by
    refine ⟨fun r hr => ?_, fun generated store hinitiate => ?_⟩
    · cases hr
      rfl
    · cases hinitiate
      rfl
  have hne : sampleId 1 ≠ sampleId 0 := by decide
  obtain ⟨a, b, t, ha, hb, hkeys, ht, hview⟩ : ∃ (a b : AvailabilityContract) (t : ActiveEpoch),
      (sampleTwo 4).store.find (sampleId 1) = some (1, a) ∧
      (sampleTwo 4).store.find (sampleId 0) = some (0, b) ∧ a.key ≠ b.key ∧
      (sampleTwo 4).store.activeEpochs (sampleId 0) = some t ∧
      (sampleTwo 4).store.epochs.view t.id = some (.active, 1, [1]) :=
    ⟨_, _, _, rfl, rfl, by decide, rfl, rfl⟩
  exact ⟨t, _, _, ht, rfl,
    (contract_epochs (run_sampleTwo 4) hne ha hb ht hview hfresh rfl).1 hkeys⟩

/-- Two contracts about the same file: the challenge of the second ends the
epoch of the first. -/
theorem contract_epochs_shared : ∃ (t : ActiveEpoch) (ids : Str × Str) (store : ContractStore),
    Run sampleStep (FreshIds sampleHash fun _ _ => 0) init (sampleTwo 3) ∧
    (sampleTwo 3).store.activeEpochs (sampleId 0) = some t ∧
    (sampleTwo 3).store.epochs.view t.id = some (.active, 1, [1]) ∧
    (sampleTwo 3).store.initiateAvailabilityChallenge sampleHash (fun _ _ => 0) (sampleId 1)
      (some (.ofList 16 [1])) (some (.ofList 32 [1])) 2 2 = (.ok ids, store) ∧
    store.epochs.view t.id = some (.ended, 1, [1]) :=
  ⟨_, _, _, run_sampleTwo 3, rfl, rfl, rfl, rfl⟩

end ContractHistory

end Cipher.Availability
