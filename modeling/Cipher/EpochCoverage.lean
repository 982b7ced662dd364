import Cipher.Epochs

/-!
# The epochs over any history of calls

Every call is made of two changes to the store: an epoch is started or a
chunk is taken out of one (`moves_of_step`). What holds of each epoch is that
the chunks selected from it so far, and those in its slice, are together the
chunks of the file, each once (`Covered`); of the store, that an active epoch
that can be found is the latest of its key. Random IDs may repeat in these
histories: an epoch whose ID is given to another cannot be found any more and
stays as it is.
-/

namespace Cipher.Availability

open Bytes Binary Go Content Slices Transition Function List Option

/-! ## Histories -/

inductive EpochCall where
  | createEpoch (providerId fileId : Str) (totalChunks : Int64) (random : Option (Block 16))
      (now : Int)
  | selectUncoveredChunk (epochId : Str) (chunkHash : List UInt8)
  | startNextEpoch (providerId fileId : Str) (random : Option (Block 16)) (now : Int)
  | createChallenge (contractId providerId fileId : Str) (totalChunks : Int64)
      (roundNumber : UInt64) (randomId : Option (Block 16)) (randomNonce : Option (Block 32))
      (now : Int)
  | generateNextChallenge (contractId providerId fileId epochId : Str)
      (challengeCounter roundNumber : UInt64) (random : Option (Block 32)) (now : Int)

/-- The store, and the chunks that were selected from each epoch. -/
structure EpochHistory where
  store : EpochStore
  selected : Nat → List Int

namespace EpochHistory

def init : EpochHistory := ⟨.empty, fun _ => []⟩

/-- A chunk was selected from the epoch with this ID. -/
def note (h : EpochHistory) (store : EpochStore) (epochId : Str) (chunkId : Int) : EpochHistory :=
  match store.epochs epochId with
  | none => { h with store }
  | some p => ⟨store, update h.selected p (h.selected p ++ [chunkId])⟩

variable (sha256 : List UInt8 → Hash) (spare : Nat → Nat → Nat)

def noteChallenge (h : EpochHistory) : Except ChallengeError Challenge × EpochStore → EpochHistory
  | (.ok c, store) => h.note store c.epochId c.chunkId
  | (.error _, store) => { h with store }

def step : EpochCall → EpochHistory → Option EpochHistory
  | .createEpoch providerId fileId totalChunks random now, h =>
    some { h with store := (h.store.createEpoch providerId fileId totalChunks random now).2 }
  | .selectUncoveredChunk epochId chunkHash, h =>
    match h.store.selectUncoveredChunk spare epochId chunkHash with
    | (.ok chunkId, store) => some (h.note store epochId chunkId)
    | (.error _, store) => some { h with store }
  | .startNextEpoch providerId fileId random now, h =>
    some { h with store := (h.store.startNextEpoch providerId fileId random now).2 }
  | .createChallenge contractId providerId fileId totalChunks roundNumber randomId randomNonce
      now, h =>
    some (h.noteChallenge (h.store.createChallenge sha256 spare contractId providerId fileId
      totalChunks roundNumber randomId randomNonce now))
  | .generateNextChallenge contractId providerId fileId epochId challengeCounter roundNumber
      random now, h =>
    some (h.noteChallenge (h.store.generateNextChallenge sha256 spare contractId providerId fileId
      epochId challengeCounter roundNumber random now))

/-! ## Changes -/

/-- The two ways in which the store changes. -/
inductive Move (h : EpochHistory) : EpochHistory → Prop where
  | start (epochId providerId fileId : Str) (totalChunks : Int64) (now : Int)
      (htotal : 0 < totalChunks) :
      Move h { h with store := h.store.start epochId providerId fileId totalChunks now }
  | take (hselects : h.store.Selects epochId p epoch k chunkId) :
      Move h ⟨h.store.take spare p epoch k,
        update h.selected p (h.selected p ++ [chunkId])⟩

def Moves : EpochHistory → EpochHistory → Prop := Relation.ReflTransGen (Move spare)

variable {sha256 spare} {h h' : EpochHistory}

lemma moves_createEpoch (h : EpochHistory) (providerId fileId : Str) (totalChunks : Int64)
    (random : Option (Block 16)) (now : Int) : Moves spare h
      { h with store := (h.store.createEpoch providerId fileId totalChunks random now).2 } := by
  rcases h.store.createEpoch_cases .. with ⟨e, he⟩ | ⟨r, -, -, -, htotal, hok⟩
  · rw [he]
    exact .refl
  · rw [hok]
    exact .single (.start _ _ _ _ _ htotal)

lemma note_take (hselects : h.store.Selects epochId p epoch k chunkId) :
    h.note (h.store.take spare p epoch k) epochId chunkId = ⟨h.store.take spare p epoch k,
        update h.selected p (h.selected p ++ [chunkId])⟩ := by
  obtain ⟨hp, -⟩ := EpochStore.find_eq_some.mp hselects.found
  change (match h.store.epochs epochId with | none => _ | some p => _) = _
  rw [hp]

lemma moves_generateNextChallenge (h : EpochHistory)
    (contractId providerId fileId epochId : Str) (challengeCounter roundNumber : UInt64)
    (random : Option (Block 32)) (now : Int) : Moves spare h
      (h.noteChallenge (h.store.generateNextChallenge sha256 spare contractId providerId fileId
        epochId challengeCounter roundNumber random now)) := by
  rcases EpochStore.generateNextChallenge_cases spare h.store _ _ fileId epochId
    .. with ⟨e, he⟩ | ⟨c, p, epoch, k, hselects, rfl, -, -, hok⟩
  · rw [he]
    exact .refl
  · rw [hok, noteChallenge, note_take hselects]
    exact .single (.take hselects)

lemma moves_of_step (hstep : step sha256 spare call h = some h') : Moves spare h h' := by
  cases call with
  | createEpoch providerId fileId totalChunks random now =>
    cases hstep
    exact moves_createEpoch ..
  | selectUncoveredChunk epochId chunkHash =>
    rw [step] at hstep
    rcases EpochStore.selectUncoveredChunk_cases spare h.store ..
      with ⟨e, he⟩ | ⟨p, epoch, k, chunkId, hselects, hok⟩
    · rw [he] at hstep
      cases hstep
      exact .refl
    · rw [hok] at hstep
      cases hstep
      rw [note_take hselects]
      exact .single (.take hselects)
  | startNextEpoch providerId fileId random now =>
    cases hstep
    rw [EpochStore.startNextEpoch]
    split
    · exact .refl
    split
    · exact .refl
    split
    · exact .refl
    · exact moves_createEpoch ..
  | createChallenge contractId providerId fileId totalChunks roundNumber randomId randomNonce now =>
    cases hstep
    rw [EpochStore.createChallenge]
    split
    · exact .refl
    have hcreate : Moves spare h { h with store :=
        (h.store.createEpoch providerId fileId totalChunks randomId now).2 } :=
      moves_createEpoch ..
    split
    · rename_i heq
      rw [heq] at hcreate
      exact hcreate
    · rename_i epochId store heq
      rw [heq] at hcreate
      exact hcreate.trans (moves_generateNextChallenge { h with store } ..)
  | generateNextChallenge contractId providerId fileId epochId challengeCounter roundNumber random
      now =>
      cases hstep
      exact moves_generateNextChallenge ..

end EpochHistory

/-! ## One epoch -/

lemma mem_chunkRange : c ∈ chunkRange totalChunks ↔ 0 ≤ c ∧ c < totalChunks.toInt := by
  have hclamp : totalChunks.toNatClampNeg = totalChunks.toInt.toNat := rfl
  rw [chunkRange, List.mem_map]
  constructor
  · rintro ⟨n, hn, rfl⟩
    have hlt := mem_range.mp hn
    have hcast : Int.ofNat n = n := rfl
    omega
  · rintro ⟨hnonneg, hlt⟩
    exact ⟨c.toNat, mem_range.mpr (by omega), Int.toNat_of_nonneg hnonneg⟩

lemma pairwise_chunkRange (totalChunks : Int64) : (chunkRange totalChunks).Pairwise (· < ·) :=
  pairwise_map.mpr (pairwise_lt_range.imp fun hlt => Int.ofNat_lt.mpr hlt)

lemma length_chunkRange (totalChunks : Int64) :
    (chunkRange totalChunks).length = totalChunks.toInt.toNat := by
  rw [chunkRange, length_map, length_range]
  rfl

/-- The chunks that were selected and those in the slice are the chunks of
the file, and the counter counts the first. -/
structure Covered (memory : Memory Int) (selected : List Int) (e : Epoch) : Prop where
  holds : memory.Holds e.uncovered (memory.toList e.uncovered)
  exists_array : e.uncovered.array < memory.unused
  sorted : (memory.toList e.uncovered).Pairwise (· < ·)
  perm : (selected ++ memory.toList e.uncovered).Perm (chunkRange e.totalChunks)
  counter : e.challengeCounter.toNat = selected.length
  total : 0 < e.totalChunks

namespace Covered

variable {selected : List Int} {e : Epoch}

lemma length_add (h : Covered memory selected e) :
    selected.length + e.uncovered.len = e.totalChunks.toInt.toNat := by
  rw [← Memory.length_toList memory, ← length_append, h.perm.length_eq, length_chunkRange]

lemma nodup (h : Covered memory selected e) : (selected ++ memory.toList e.uncovered).Nodup :=
  h.perm.nodup_iff.mpr ((pairwise_chunkRange _).imp fun hlt => Int.ne_of_lt hlt)

lemma mem_iff (h : Covered memory selected e) :
    c ∈ selected ∨ c ∈ memory.toList e.uncovered ↔ 0 ≤ c ∧ c < e.totalChunks.toInt := by
  rw [← mem_append, h.perm.mem_iff, mem_chunkRange]

/-- A change elsewhere in the memory. -/
lemma frame {memory' : Memory Int} (h : Covered memory selected e)
    (hholds : memory'.Holds e.uncovered (memory.toList e.uncovered))
    (hunused : memory.unused ≤ memory'.unused) : Covered memory' selected e := by
  have hlist := hholds.elems
  exact ⟨by rw [hlist]; exact hholds, Nat.lt_of_lt_of_le h.exists_array hunused,
    by rw [hlist]; exact h.sorted, by rw [hlist]; exact h.perm, h.counter, h.total⟩

/-- The status has no part in it. -/
lemma withStatus (h : Covered memory selected e) (status : EpochStatus) :
    Covered memory selected { e with status } :=
  ⟨h.holds, h.exists_array, h.sorted, h.perm, h.counter, h.total⟩

/-- Taking one chunk out of the slice. -/
lemma take (h : Covered memory selected e)
    (hk : k < e.uncovered.len) (hread : memory.read e.uncovered k = some chunkId) :
    Covered (memory.remove spare e.uncovered k).1 (selected ++ [chunkId])
      { e with uncovered := (memory.remove spare e.uncovered k).2
               challengeCounter := e.challengeCounter + 1 } := by
  have hk' : k < (memory.toList e.uncovered).length := by rwa [Memory.length_toList]
  have hslice : (memory.remove spare e.uncovered k).2 =
      { e.uncovered with len := e.uncovered.len - 1 } := by
    rw [Memory.remove_eq hk h.holds.room]
  have hunused : (memory.remove spare e.uncovered k).1.unused = memory.unused := by
    rw [Memory.remove_eq hk h.holds.room]
    rfl
  have hremove : (memory.remove spare e.uncovered k).1.Holds
      { e.uncovered with len := e.uncovered.len - 1 } ((memory.toList e.uncovered).eraseIdx k) :=
    h.holds.remove hk'
  have hlist := hremove.elems
  rw [hslice]
  refine ⟨by rw [hlist]; exact hremove, hunused ▸ h.exists_array, ?_, ?_, ?_, h.total⟩
  · rw [hlist]
    exact h.sorted.sublist (eraseIdx_sublist ..)
  · rw [hlist]
    obtain ⟨_, hget⟩ := List.getElem_of_getElem? ((h.holds.read_eq k).symm.trans hread)
    have hperm := getElem_cons_eraseIdx_perm hk'
    rw [hget] at hperm
    rw [append_assoc]
    exact (hperm.append_left selected).trans h.perm
  · -- the counter does not wrap: it is less than the number of chunks
    have hlen := h.length_add
    have hcounter := h.counter
    have hlt := e.totalChunks.toInt_lt
    have hsum : (e.challengeCounter + 1).toNat = (e.challengeCounter.toNat + 1) % 2 ^ 64 := rfl
    rw [length_append, length_singleton, hsum, Nat.mod_eq_of_lt (by omega), hcounter]

/-- A slice with all chunks. -/
lemma fresh (memory : Memory Int) (e : Epoch)
    (huncovered : e.uncovered = (memory.make (chunkRange e.totalChunks)).2)
    (hcounter : e.challengeCounter = 0) (htotal : 0 < e.totalChunks) :
    Covered (memory.make (chunkRange e.totalChunks)).1 [] e := by
  have hholds := memory.holds_make (chunkRange e.totalChunks)
  rw [← huncovered] at hholds
  have hlist := hholds.elems
  refine ⟨by rw [hlist]; exact hholds, ?_, ?_, ?_, by rw [hcounter]; rfl, htotal⟩
  · rw [huncovered]
    exact Nat.lt_succ_self _
  · rw [hlist]
    exact pairwise_chunkRange _
  · rw [hlist]
    exact .refl _

end Covered

/-! ## The store -/

namespace EpochStore

/-- The pointer of the epoch that a new one of this key would end. -/
def previous (s : EpochStore) (key : Str) : Option Nat := (s.latest key).bind s.epochs

lemma getElem?_endPrevious (s : EpochStore) (key : Str) (p : Nat) : (s.endPrevious key).1[p]? =
      if s.previous key = some p then (s.objects[p]?).map fun e => { e with status := .ended }
      else s.objects[p]? := by
  have hbind : (s.latest key).bind s.find = (s.previous key).bind fun q =>
      (s.objects[q]?).map fun epoch => (q, epoch) := by
    rw [previous, bind_assoc]
    rfl
  rw [endPrevious, hbind]
  cases s.previous key with
  | none => rfl
  | some q =>
    rw [bind_some]
    cases hq : s.objects[q]? with
    | none =>
      rw [map_none]
      by_cases hpq : q = p
      · rw [if_pos (congrArg some hpq), ← hpq, hq, map_none]
      · rw [if_neg fun heq => hpq (Option.some.inj heq)]
    | some e =>
      change (s.objects.set q _)[p]? = _
      have hlt : q < s.objects.length := (List.getElem_of_getElem? hq).1
      by_cases hpq : q = p
      · subst hpq
        rw [getElem?_set_self hlt, if_pos rfl, hq, map_some]
      · rw [getElem?_set_ne hpq, if_neg fun heq => hpq (Option.some.inj heq)]

lemma length_endPrevious (s : EpochStore) (key : Str) :
    (s.endPrevious key).1.length = s.objects.length := by
  rw [endPrevious]
  split
  · rfl
  · exact length_set

variable (s : EpochStore) (epochId providerId fileId : Str) (totalChunks : Int64) (now : Int)

/-- An object of the store after an epoch was started: an old one, possibly
ended, or the new one. -/
lemma objects_start
    (hp : (s.start epochId providerId fileId totalChunks now).objects[p]? = some e) :
    (∃ e₀ status, s.objects[p]? = some e₀ ∧ e = { e₀ with status } ∧
      (status = .active → e = e₀ ∧ s.previous (epochKey providerId fileId) ≠ some p)) ∨
    (p = s.objects.length ∧ e.key = epochKey providerId fileId ∧
      e.totalChunks = totalChunks ∧ e.challengeCounter = 0 ∧
      e.uncovered = (s.memory.make (chunkRange totalChunks)).2) := by
  change ((s.endPrevious _).1 ++ [_])[p]? = some e at hp
  rcases getElem?_concat_eq_some.mp hp with hp | ⟨hlast, rfl⟩
  · rw [getElem?_endPrevious] at hp
    split at hp
    · obtain ⟨e₀, he₀, rfl⟩ := map_eq_some_iff.mp hp
      exact .inl ⟨e₀, .ended, he₀, rfl, nofun⟩
    · rename_i hne
      exact .inl ⟨e, e.status, hp, rfl, fun _ => ⟨rfl, hne⟩⟩
  · exact .inr ⟨hlast.trans (s.length_endPrevious _), rfl, rfl, rfl, rfl⟩

lemma length_start : (s.start epochId providerId fileId totalChunks now).objects.length =
    s.objects.length + 1 := by
  change ((s.endPrevious _).1 ++ [_]).length = _
  rw [length_append, length_endPrevious]
  rfl

lemma epochs_start : (s.start epochId providerId fileId totalChunks now).epochs =
    update s.epochs epochId (some s.objects.length) := by
  change update s.epochs epochId (some (s.endPrevious (epochKey providerId fileId)).1.length) = _
  rw [length_endPrevious]

end EpochStore

namespace EpochHistory

variable {sha256 : List UInt8 → Hash} {spare : Nat → Nat → Nat} {h h' : EpochHistory}

structure Wf (h : EpochHistory) : Prop where
  covered : ∀ {p : Nat} {e : Epoch}, h.store.objects[p]? = some e →
    Covered h.store.memory (h.selected p) e
  arrays : ∀ {p q : Nat} {e f : Epoch}, h.store.objects[p]? = some e →
    h.store.objects[q]? = some f → e.uncovered.array = f.uncovered.array → p = q
  pointers : ∀ {epochId : Str} {p : Nat}, h.store.epochs epochId = some p →
    p < h.store.objects.length
  latest : ∀ {epochId : Str} {p : Nat} {e : Epoch}, h.store.epochs epochId = some p →
    h.store.objects[p]? = some e → e.status = .active → h.store.latest e.key = some epochId ∧
      ∀ {q : Nat} {f : Epoch}, h.store.objects[q]? = some f → f.key = e.key → q ≤ p
  unselected : ∀ {p : Nat}, h.store.objects.length ≤ p → h.selected p = []

lemma wf_init : Wf init where
  covered := nofun
  arrays := nofun
  pointers := nofun
  latest := nofun
  unselected _ := rfl

lemma Wf.start (hwf : Wf h) (epochId providerId fileId : Str) (now : Int)
    (htotal : 0 < totalChunks) :
    Wf { h with store := h.store.start epochId providerId fileId totalChunks now } := by
  have hlength := h.store.length_start epochId providerId fileId totalChunks now
  have hobjects {p e} := h.store.objects_start (p := p) (e := e) epochId providerId fileId
    totalChunks now
  constructor
  case covered =>
    intro p e hp
    rcases hobjects hp with ⟨e₀, status, he₀, rfl, -⟩ | ⟨rfl, -, rfl, hcounter, huncovered⟩
    · have hcovered := hwf.covered he₀
      have hkept : Covered (h.store.memory.make (chunkRange totalChunks)).1 (h.selected p) e₀ :=
        hcovered.frame (hcovered.holds.make _) (Nat.le_succ _)
      exact hkept.withStatus status
    · rw [hwf.unselected (Nat.le_refl _)]
      exact .fresh _ e huncovered hcounter htotal
  case arrays =>
    -- the new array is none of the old ones
    have harray {p : Nat} {e : Epoch}
        (hp : (h.store.start epochId providerId fileId totalChunks now).objects[p]? = some e) :
        (∃ e₀, h.store.objects[p]? = some e₀ ∧ e.uncovered = e₀.uncovered ∧
          e.uncovered.array < h.store.memory.unused) ∨
        (p = h.store.objects.length ∧ e.uncovered.array = h.store.memory.unused) := by
      rcases hobjects hp with ⟨e₀, status, he₀, rfl, -⟩ | ⟨hp, -, -, -, huncovered⟩
      · exact .inl ⟨e₀, he₀, rfl, (hwf.covered he₀).exists_array⟩
      · exact .inr ⟨hp, by rw [huncovered]; rfl⟩
    intro p q e f hp hq heq
    rcases harray hp with ⟨e₀, he₀, heu, hlte⟩ | ⟨rfl, hnewe⟩ <;>
      rcases harray hq with ⟨f₀, hf₀, hfu, hltf⟩ | ⟨rfl, hnewf⟩
    · exact hwf.arrays he₀ hf₀ (by rw [← heu, ← hfu, heq])
    · omega
    · omega
    · rfl
  case pointers =>
    intro id p hp
    rw [EpochStore.epochs_start] at hp
    rw [hlength]
    by_cases hid : id = epochId
    · rw [hid, update_self] at hp
      cases hp
      exact Nat.lt_succ_self _
    · rw [update_of_ne hid] at hp
      exact Nat.lt_succ_of_lt (hwf.pointers hp)
  case latest =>
    intro id p e hid hp hactive
    rw [EpochStore.epochs_start] at hid
    change update _ _ _ _ = _ ∧ _
    by_cases heq : id = epochId
    · -- the new epoch
      rw [heq, update_self] at hid
      cases hid
      rcases hobjects hp with ⟨e₀, _, he₀, -⟩ | ⟨-, hkey, -⟩
      · exact absurd (List.getElem_of_getElem? he₀).1 (Nat.lt_irrefl _)
      · rw [hkey, update_self, heq]
        refine ⟨rfl, fun {q f} hq _ => ?_⟩
        have hq := (List.getElem_of_getElem? hq).1
        rw [hlength] at hq
        exact Nat.le_of_lt_succ hq
    · -- an old one that is still active, so one of another key
      rw [update_of_ne heq] at hid
      rcases hobjects hp with ⟨e₀, status, he₀, rfl, hkept⟩ | ⟨rfl, -⟩
      · obtain ⟨heq, hprevious⟩ := hkept hactive
        obtain ⟨hlatest, hgreatest⟩ := hwf.latest hid he₀ (heq ▸ hactive)
        have hkey : e₀.key ≠ epochKey providerId fileId := by
          intro hkey
          rw [hkey] at hlatest
          exact hprevious (by rw [EpochStore.previous, hlatest, bind_some, hid])
        refine ⟨(update_of_ne hkey ..).trans hlatest, fun {q f} hq hfkey => ?_⟩
        rcases hobjects hq with ⟨f₀, _, hf₀, rfl, -⟩ | ⟨-, hnew, -⟩
        · exact hgreatest hf₀ hfkey
        · exact absurd (hfkey.symm.trans hnew) hkey
      · exact absurd (hwf.pointers hid) (Nat.lt_irrefl _)
  case unselected =>
    intro p hp
    rw [hlength] at hp
    exact hwf.unselected (Nat.le_of_succ_le hp)

lemma Wf.take (hwf : Wf h) (hselects : h.store.Selects epochId p epoch k chunkId) :
    Wf ⟨h.store.take spare p epoch k, update h.selected p (h.selected p ++ [chunkId])⟩ := by
  obtain ⟨-, hepoch⟩ := EpochStore.find_eq_some.mp hselects.found
  have hcovered := hwf.covered hepoch
  have hlt : p < h.store.objects.length := (List.getElem_of_getElem? hepoch).1
  have hremove : h.store.memory.remove spare epoch.uncovered k = (_, _) :=
    Memory.remove_eq hselects.index hcovered.holds.room
  have harray : (h.store.memory.remove spare epoch.uncovered k).2.array =
      epoch.uncovered.array := by rw [hremove]
  have hobjects {q : Nat} {e : Epoch} (hq : (h.store.take spare p epoch k).objects[q]? = some e) :
      ∃ e₀, h.store.objects[q]? = some e₀ ∧ e.key = e₀.key ∧ e.status = e₀.status ∧
        e.uncovered.array = e₀.uncovered.array := by
    rcases (getElem?_set_eq_some hepoch).mp hq with ⟨rfl, rfl⟩ | ⟨-, hq⟩
    · exact ⟨epoch, hepoch, rfl, rfl, harray⟩
    · exact ⟨e, hq, rfl, rfl, rfl⟩
  have hlength : (h.store.take spare p epoch k).objects.length = h.store.objects.length :=
    length_set
  constructor
  case covered =>
    intro q e hq
    dsimp only
    rcases (getElem?_set_eq_some hepoch).mp hq with ⟨rfl, rfl⟩ | ⟨hqp, hq⟩
    · rw [update_self]
      exact hcovered.take hselects.index hselects.chunk
    · rw [update_of_ne hqp]
      have hother := hwf.covered hq
      refine hother.frame (hother.holds.remove_of_ne hselects.index hcovered.holds.room ?_) ?_
      · exact fun harray => hqp (hwf.arrays hq hepoch harray)
      · change _ ≤ (h.store.memory.remove spare epoch.uncovered k).1.unused
        rw [hremove]
        exact Nat.le_refl _
  case arrays =>
    intro q r e f hq hr heq
    obtain ⟨e₀, he₀, -, -, hea⟩ := hobjects hq
    obtain ⟨f₀, hf₀, -, -, hfa⟩ := hobjects hr
    exact hwf.arrays he₀ hf₀ (by rw [← hea, ← hfa, heq])
  case pointers =>
    intro id q hq
    rw [hlength]
    exact hwf.pointers hq
  case latest =>
    intro id q e hid hq hactive
    obtain ⟨e₀, he₀, hkey, hstatus, -⟩ := hobjects hq
    obtain ⟨hlatest, hgreatest⟩ := hwf.latest hid he₀ (hstatus ▸ hactive)
    refine ⟨hkey ▸ hlatest, fun {r f} hr hfkey => ?_⟩
    obtain ⟨f₀, hf₀, hfkey₀, -, -⟩ := hobjects hr
    exact hgreatest hf₀ (by rw [← hfkey₀, hfkey, hkey])
  case unselected =>
    intro q hq
    dsimp only at hq ⊢
    rw [hlength] at hq
    have hqp : q ≠ p := fun heq => Nat.not_lt.mpr hq (heq ▸ hlt)
    rw [update_of_ne hqp]
    exact hwf.unselected hq

lemma Wf.move (hwf : Wf h) (hmove : Move spare h h') : Wf h' := by
  cases hmove with
  | start epochId providerId fileId totalChunks now htotal =>
    exact hwf.start epochId _ fileId now htotal
  | take hselects => exact hwf.take hselects

lemma Wf.moves (hwf : Wf h) (hmoves : Moves spare h h') : Wf h' := by
  induction hmoves with
  | refl => exact hwf
  | tail _ hmove ih => exact ih.move hmove

/-! ## Ended epochs -/

/-- An epoch that is over, with the chunks that were and were not selected
from it. -/
structure Over (p : Nat) (e : Epoch) (selected uncovered : List Int) (h : EpochHistory) : Prop where
  wf : Wf h
  object : h.store.objects[p]? = some e
  ended : e.status = .ended
  selected : h.selected p = selected
  uncovered : h.store.memory.toList e.uncovered = uncovered

lemma Over.move {p : Nat} {e : Epoch} {selected uncovered : List Int}
    (hover : Over p e selected uncovered h) (hmove : Move spare h h') :
    Over p e selected uncovered h' := by
  have hlt : p < h.store.objects.length := (List.getElem_of_getElem? hover.object).1
  have hcovered := hover.wf.covered hover.object
  have hwf := hover.wf.move hmove
  cases hmove with
  | start epochId providerId fileId totalChunks now htotal =>
    refine ⟨hwf, ?_, hover.ended, hover.selected, ?_⟩
    · change ((h.store.endPrevious _).1 ++ [_])[p]? = some e
      rw [getElem?_append_left (by rwa [EpochStore.length_endPrevious]),
        EpochStore.getElem?_endPrevious, hover.object, map_some, ← hover.ended, ite_self]
    · exact (hcovered.holds.make _).elems.trans hover.uncovered
  | @take _ q epoch k _ hselects =>
    obtain ⟨-, hepoch⟩ := EpochStore.find_eq_some.mp hselects.found
    -- nothing is selected from an epoch that is not active
    have hpq : p ≠ q := by
      rintro rfl
      rw [hover.object] at hepoch
      cases hepoch
      cases hover.ended.symm.trans hselects.active
    refine ⟨hwf, ?_, hover.ended, ?_, ?_⟩
    · change (h.store.objects.set q _)[p]? = some e
      rw [getElem?_set_ne hpq.symm, hover.object]
    · dsimp only
      rw [update_of_ne hpq, hover.selected]
    · have harray : e.uncovered.array ≠ epoch.uncovered.array :=
        fun harray => hpq (hover.wf.arrays hover.object hepoch harray)
      exact (hcovered.holds.remove_of_ne hselects.index (hover.wf.covered hepoch).holds.room
        harray).elems.trans hover.uncovered

lemma Over.moves {p : Nat} {e : Epoch} {selected uncovered : List Int}
    (hover : Over p e selected uncovered h) (hmoves : Moves spare h h') :
    Over p e selected uncovered h' := by
  induction hmoves with
  | refl => exact hover
  | tail _ hmove ih => exact ih.move hmove

/-! ## Any history -/

/-- A run of arbitrary calls. -/
def Calls (sha256 : List UInt8 → Hash) (spare : Nat → Nat → Nat) :
    EpochHistory → EpochHistory → Prop :=
  Run (step sha256 spare) fun _ _ => True

lemma Calls.wf (hr : Calls sha256 spare init h) : Wf h :=
  Run.inv hr wf_init fun _ _ _ _ hstep hwf => hwf.moves (moves_of_step hstep)

lemma Over.calls {p : Nat} {e : Epoch} {selected uncovered : List Int}
    (hover : Over p e selected uncovered h) (hr : Calls sha256 spare h h') :
    Over p e selected uncovered h' :=
  Run.inv hr hover fun _ _ _ _ hstep hover => hover.moves (moves_of_step hstep)

/-- An epoch without uncovered chunks. -/
lemma rejects_of_len (hid : h.store.epochs epochId = some p) (he : h.store.objects[p]? = some e)
    (hlen : e.uncovered.len = 0) :
    (∀ chunkHash, ∃ err, h.store.selectUncoveredChunk spare epochId chunkHash =
      (.error err, h.store)) ∧
    ∀ contractId providerId fileId challengeCounter roundNumber random now, ∃ err,
      h.store.generateNextChallenge sha256 spare contractId providerId fileId epochId
        challengeCounter roundNumber random now = (.error err, h.store) := by
  have hnone {q : Nat} {epoch : Epoch} {k : Nat} {chunkId : Int} :
      ¬ h.store.Selects epochId q epoch k chunkId := by
    intro hselects
    have hfound := hselects.found.symm.trans (EpochStore.find_eq_some.mpr ⟨hid, he⟩)
    cases hfound
    have hindex := hselects.index
    omega
  constructor
  · intro chunkHash
    rcases EpochStore.selectUncoveredChunk_cases spare h.store ..
      with herr | ⟨_, _, _, _, hselects, -⟩
    · exact herr
    · exact absurd hselects hnone
  · intro contractId providerId fileId challengeCounter roundNumber random now
    rcases EpochStore.generateNextChallenge_cases spare h.store ..
      with herr | ⟨_, _, _, _, hselects, -⟩
    · exact herr
    · exact absurd hselects hnone

/-- After any calls, the chunks selected from an epoch and its uncovered
chunks, in increasing order, are the chunks of the file, each once; when all
were selected the epoch gives no more. An active epoch is the latest of its
provider and file, and one that has ended stays as it is. -/
theorem epochs_cover (hr : Calls sha256 spare init h) : (∀ p e, h.store.objects[p]? = some e →
      let selected := h.selected p
      let uncovered := h.store.memory.toList e.uncovered
      uncovered.Pairwise (· < ·) ∧ selected.Nodup ∧ (∀ c ∈ selected, c ∉ uncovered) ∧
      (∀ c, c ∈ selected ∨ c ∈ uncovered ↔ 0 ≤ c ∧ c < e.totalChunks.toInt) ∧
      e.challengeCounter.toNat = selected.length ∧
      (e.challengeCounter.toNat : Int) + e.uncovered.len = e.totalChunks.toInt ∧
      ((selected.length : Int) = e.totalChunks.toInt →
        (∀ c, 0 ≤ c ∧ c < e.totalChunks.toInt → c ∈ selected) ∧
        ∀ epochId, h.store.epochs epochId = some p →
          (∀ chunkHash, ∃ err, h.store.selectUncoveredChunk spare epochId chunkHash =
            (.error err, h.store)) ∧
          ∀ contractId providerId fileId challengeCounter roundNumber random now, ∃ err,
            h.store.generateNextChallenge sha256 spare contractId providerId fileId epochId
              challengeCounter roundNumber random now = (.error err, h.store))) ∧
    (∀ epochId p e, h.store.epochs epochId = some p → h.store.objects[p]? = some e →
      e.status = .active →
      ∀ q f, h.store.objects[q]? = some f → f.key = e.key → q ≤ p ∧
        ∀ epochId', h.store.epochs epochId' = some q → f.status = .active → q = p) ∧
    ∀ p e, h.store.objects[p]? = some e → e.status = .ended →
      ∀ h', Calls sha256 spare h h' → h'.store.objects[p]? = some e ∧ h'.selected p = h.selected p ∧
        h'.store.memory.toList e.uncovered = h.store.memory.toList e.uncovered := by
  have hwf := hr.wf
  refine ⟨fun p e he => ?_, fun epochId p e hid he hactive q f hf hkey => ?_,
    fun p e he hended h' hr' => ?_⟩
  · have hcovered := hwf.covered he
    have hlen := hcovered.length_add
    have hpos := Int64.lt_iff_toInt_lt.mp hcovered.total
    have hzero : (0 : Int64).toInt = 0 := rfl
    have hcounter := hcovered.counter
    obtain ⟨hnodup, -, hdisjoint⟩ := nodup_append.mp hcovered.nodup
    refine ⟨hcovered.sorted, hnodup, fun c hc hu => hdisjoint c hc c hu rfl,
      fun c => hcovered.mem_iff, hcounter, by omega, fun hall => ?_⟩
    have hempty : e.uncovered.len = 0 := by omega
    refine ⟨fun c hc => ?_, fun epochId hid => rejects_of_len hid he hempty⟩
    rcases hcovered.mem_iff.mpr hc with hsel | hunc
    · exact hsel
    · rw [eq_nil_of_length_eq_zero ((Memory.length_toList ..).trans hempty)] at hunc
      cases hunc
  · refine ⟨(hwf.latest hid he hactive).2 hf hkey, fun epochId' hid' hactive' => ?_⟩
    exact Nat.le_antisymm ((hwf.latest hid he hactive).2 hf hkey)
      ((hwf.latest hid' hf hactive').2 he hkey.symm)
  · have hover : Over p e (h.selected p) (h.store.memory.toList e.uncovered) h :=
      ⟨hwf, he, hended, rfl, rfl⟩
    obtain ⟨-, hobject, -, hselected, huncovered⟩ := hover.calls hr'
    exact ⟨hobject, hselected, huncovered⟩

/-- Both chunks of a file are selected, and a second epoch begins. -/
def twoChunks : List EpochCall :=
  let epochId := EpochStore.epochIdOf (.ofList 16 [])
  [.createEpoch [1] [2] 2 (some (.ofList 16 [])) 0, .selectUncoveredChunk epochId [1],
    .selectUncoveredChunk epochId [1], .startNextEpoch [1] [2] (some (.ofList 16 [7])) 9]

theorem epochs_cover_two :
    ∃ (h : EpochHistory) (e : Epoch), Calls (fun _ => .ofList 32 []) (fun _ _ => 0) init h ∧
      h.store.objects[0]? = some e ∧ e.status = .ended ∧ h.selected 0 = [1, 0] ∧
      ∀ c, c ∈ h.selected 0 ∨ c ∈ h.store.memory.toList e.uncovered ↔
        0 ≤ c ∧ c < e.totalChunks.toInt := by
  have hr : Calls (fun _ => .ofList 32 []) (fun _ _ => 0) init _ := Run.of_execute twoChunks rfl
  obtain ⟨-, -, -, hall, -⟩ := (epochs_cover hr).1 0 _ rfl
  exact ⟨_, _, hr, rfl, rfl, rfl, hall⟩

end EpochHistory

end Cipher.Availability
