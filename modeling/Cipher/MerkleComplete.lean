import Cipher.Merkle
import Mathlib.Data.List.Forall2

/-!
# The proofs of a tree are accepted

What the slices of a tree hold is compared with the levels of the list of its
leaves (`MerkleTrees.levels`). The `append` that makes a level even writes
behind its last node or to a new array; the levels are on arrays of their own,
so each still holds its nodes afterwards, and `GenerateProof` leaves the tree
as it found it (`Represents.generateProof`). Hence every proof is the path in
the list, whatever proofs were made before.
-/

namespace Cipher.Availability

open Bytes Binary Go Content Slices MerkleTrees Transition List Option

variable (sha256 : List UInt8 → Hash) (spare : Nat → Nat → Nat) {i : Nat}

/-! ## One level -/

/-- A level with the last node of an odd one once more. -/
def padded (xs : List Hash) : List Hash :=
  if xs.length % 2 ≠ 0 then xs ++ xs.getLast?.toList else xs

lemma length_padded (xs : List Hash) : (padded xs).length = 2 * ((xs.length + 1) / 2) := by
  rw [padded]
  split
  · cases hlast : xs.getLast? with
    | none => simp_all
    | some x =>
      simp only [toList_some, length_append, length_singleton]
      omega
  · omega

lemma getElem?_padded {xs : List Hash} (hi : i < xs.length) : (padded xs)[i]? = xs[i]? := by
  rw [padded]
  split
  · exact getElem?_append_left hi
  · rfl

lemma getElem?_padded_succ {xs : List Hash} (hi : i < xs.length) (heven : i % 2 = 0) :
    (padded xs)[i + 1]? = (xs[i + 1]?).or xs[i]? := by
  rcases Nat.lt_or_ge .. with hlt | hge
  · rw [getElem?_padded hlt, getElem?_eq_getElem hlt, some_or]
  · have hlen : i + 1 = xs.length := by omega
    rw [padded, if_pos (by omega), hlen, getElem?_append_right (Nat.le_refl _), Nat.sub_self,
      getElem?_eq_none (Nat.le_refl _), none_or, getLast?_eq_getElem?, ← hlen,
      Nat.add_sub_cancel, getElem?_eq_getElem hi]
    rfl

lemma sibling_eq_padded {xs : List Hash} (hi : i < xs.length) :
    sibling xs i = (padded xs)[if i % 2 = 0 then i + 1 else i - 1]? := by
  rw [sibling]
  split
  · rename_i heven
    rw [getElem?_padded_succ hi heven]
  · rw [getElem?_padded (by omega)]

variable {m : Memory Hash} {s t : Slice} {xs zs : List Hash}

lemma pad_holds (h : m.Holds s xs) : ∃ m' s', pad spare m s = some (m', s')
    ∧ m'.Holds s' (padded xs) ∧ m.unused ≤ m'.unused
    ∧ ∀ {t zs}, m.Holds t zs → Memory.Apart t s → m'.Holds t zs := by
  rw [pad, padded, ← h.len_eq]
  split
  · rename_i hodd
    obtain ⟨last, hlast⟩ : ∃ x, xs.getLast? = some x := by
      have hne : xs ≠ [] := by
        rintro rfl
        exact hodd (by rw [h.len_eq]; rfl)
      exact ⟨_, getLast?_eq_some_getLast hne⟩
    have hread : m.read s (s.len - 1) = some last := by
      rw [h.read_eq, h.len_eq, ← getLast?_eq_getElem?, hlast]
    rw [hread, hlast]
    exact ⟨_, _, rfl, h.append [last], Memory.unused_le_append .., fun ht hapart =>
      ht.append_apart h.room hapart [last]⟩
  · exact ⟨m, s, rfl, h, Nat.le_refl _, fun ht _ => ht⟩

/-- The first `k` pairs of a level are combined. -/
structure Paired (m₀ : Memory Hash) (nodes : List Hash) (k : Nat) (st : Memory Hash × Slice) :
    Prop where
  holds : st.1.Holds st.2 ((up (hashPair sha256) nodes).take k)
  fresh : st.2.cap = 0 ∨ m₀.unused ≤ st.2.array
  unused : m₀.unused ≤ st.1.unused
  frame : ∀ {t zs}, m₀.Holds t zs → st.1.Holds t zs

lemma apart_of_fresh {m₀ : Memory Hash} (ht : m₀.Holds t zs)
    (hs : s.cap = 0 ∨ m₀.unused ≤ s.array) : Memory.Apart t s := by
  rcases hs with hcap | hfresh
  · exact .inl hcap
  rcases ht.exists_array with hcap | hlt
  · exact .inr (.inl (Nat.le_zero.mp (hcap ▸ ht.room)))
  · exact Memory.apart_of_ne (by omega)

variable {k : Nat}

lemma Paired.addParent {m₀ : Memory Hash}
    (hp : m₀.Holds p (padded xs)) (h : Paired sha256 m₀ xs k st) (hk : k < (xs.length + 1) / 2) :
    ∃ st', addParent sha256 spare p st k = some st' ∧ Paired sha256 m₀ xs (k + 1) st' := by
  have hlen := length_padded xs
  obtain ⟨left, hleft⟩ : ∃ x, (padded xs)[2 * k]? = some x :=
    ⟨_, getElem?_eq_getElem (by omega)⟩
  obtain ⟨right, hright⟩ : ∃ x, (padded xs)[2 * k + 1]? = some x :=
    ⟨_, getElem?_eq_getElem (by omega)⟩
  have hnode : (up (hashPair sha256) xs)[k]? = some (hashPair sha256 left right) := by
    have hlt : 2 * k < xs.length := by omega
    rw [getElem?_padded hlt] at hleft
    rw [getElem?_padded_succ hlt (by omega), hleft] at hright
    rw [up, getElem?_map, getElem?_paired, hleft]
    cases hnext : xs[2 * k + 1]? with
    | none =>
      rw [hnext] at hright
      cases hright
      rfl
    | some y =>
      rw [hnext] at hright
      cases hright
      rfl
  refine ⟨st.1.append spare st.2 [hashPair sha256 left right], ?_, ?_⟩
  · rw [Availability.addParent, (h.frame hp).read_eq, (h.frame hp).read_eq, hleft, hright]
    rfl
  · refine ⟨?_, ?_, h.unused.trans (Memory.unused_le_append ..), fun ht =>
      (h.frame ht).append_apart h.holds.room (apart_of_fresh ht h.fresh) _⟩
    · rw [take_add_one, hnode]
      exact h.holds.append _
    · have hunused := h.unused
      rcases Memory.array_append spare st.1 st.2 [hashPair sha256 left right]
        with harray | ⟨harray, hroom⟩
      · exact .inr (by omega)
      · rcases h.fresh with hcap | hfresh
        · rw [hcap] at hroom
          exact absurd hroom (by simp)
        · exact .inr (harray ▸ hfresh)

lemma nextLevel_holds (hp : m.Holds p (padded xs)) :
    ∃ m' next, nextLevel sha256 spare m p = some (m', next)
      ∧ Paired sha256 m xs ((xs.length + 1) / 2) (m', next) := by
  have hloop : ∀ k ≤ (xs.length + 1) / 2, ∃ st,
      (List.range k).foldlM (Availability.addParent sha256 spare p) (m, Slice.empty) = some st
        ∧ Paired sha256 m xs k st := by
    intro k
    induction k with
    | zero =>
      intro _
      exact ⟨_, rfl, Memory.holds_empty m, .inl rfl, Nat.le_refl _, id⟩
    | succ k ih =>
      intro hk
      obtain ⟨st, hst, hpaired⟩ := ih (by omega)
      obtain ⟨st', hstep, hpaired'⟩ := hpaired.addParent sha256 spare hp hk
      refine ⟨st', ?_, hpaired'⟩
      rw [range_succ, foldlM_append, hst, bind_eq_bind, bind_some, foldlM_cons, hstep]
      rfl
  obtain ⟨⟨m', next⟩, hfold, hpaired⟩ := hloop _ (Nat.le_refl _)
  have hlen : (p.len + 1) / 2 = (xs.length + 1) / 2 := by
    rw [hp.len_eq, length_padded]
    omega
  exact ⟨m', next, by rw [nextLevel, hlen, hfold], hpaired⟩

/-! ## The tree -/

lemma Paired.next {next : Slice} (h : Paired sha256 m xs ((xs.length + 1) / 2) (m', next)) :
    m'.Holds next (up (hashPair sha256) xs) := by
  have hlen := length_up (hashPair sha256) xs
  rw [← take_of_length_le (Nat.le_of_eq hlen)]
  exact h.holds

/-- The next level is made on an array of its own, and what is apart from the
level is left alone. -/
lemma level_holds (hs : m.Holds s xs) (hlen : 1 < xs.length) : ∃ m₁ p m₂ next,
    pad spare m s = some (m₁, p) ∧ nextLevel sha256 spare m₁ p = some (m₂, next)
      ∧ m₂.Holds next (up (hashPair sha256) xs) ∧ m.unused ≤ next.array ∧ m.unused ≤ m₂.unused
      ∧ ∀ {t zs}, m.Holds t zs → Memory.Apart t s → m₂.Holds t zs ∧ Memory.Apart t next := by
  obtain ⟨m₁, p, hpad, hp, hunused, hframe⟩ := pad_holds spare hs
  obtain ⟨m₂, next, hnext, hpaired⟩ := nextLevel_holds sha256 spare hp
  have hholds := hpaired.next sha256
  have hcap : next.cap ≠ 0 := by
    have hroom := hholds.room
    have hlength := hholds.len_eq
    rw [length_up] at hlength
    omega
  have hfresh : m₁.unused ≤ next.array := hpaired.fresh.resolve_left hcap
  refine ⟨m₁, p, m₂, next, hpad, hnext, hholds, hunused.trans hfresh,
    hunused.trans hpaired.unused, fun ht hapart => ?_⟩
  have ht₁ := hframe ht hapart
  exact ⟨hpaired.frame ht₁, apart_of_fresh ht₁ (.inr hfresh)⟩

/-- The slices are views of the levels from `xs` on, each in a later array. -/
structure Built (m : Memory Hash) (slices : List Slice) (k : Nat) (xs : List Hash) : Prop where
  holds : List.Forall₂ m.Holds slices (levels (hashPair sha256) k xs)
  ordered : slices.Pairwise fun s t => s.array < t.array

lemma buildLevels_built (hs : m.Holds s xs) (hxs : xs ≠ [])
    (hfuel : depth xs.length < fuel) (before : List Slice) : ∃ m' last news,
      buildLevels sha256 spare fuel m s before = some (m', last, before ++ news)
      ∧ Built sha256 m' (s :: news) (depth xs.length + 1) xs
      ∧ (∀ n ∈ news, m.unused ≤ n.array)
      ∧ m'.Holds last ((up (hashPair sha256))^[depth xs.length] xs)
      ∧ ∀ {t zs}, m.Holds t zs → Memory.Apart t s → m'.Holds t zs := by
  induction fuel generalizing m s xs before with
  | zero => omega
  | succ fuel ih =>
    have hpos : 0 < xs.length := length_pos_iff.mpr hxs
    rw [buildLevels]
    split
    · rename_i hlen
      rw [hs.len_eq] at hlen
      have hdepth := depth_length_up (hashPair sha256) hlen
      obtain ⟨m₁, p, m₂, next, hpad, hnext, hholds, hfresh, hunused, hframe⟩ :=
        level_holds sha256 spare hs hlen
      have hne : up (hashPair sha256) xs ≠ [] :=
        ne_nil_of_length_pos (by rw [length_up]; omega)
      obtain ⟨m₃, last, news, hbuild, hbuilt, hnews, hlast, hframe₃⟩ :=
        ih hholds hne (by omega) _
      have hkeep : ∀ {t zs}, m.Holds t zs → Memory.Apart t s → m₃.Holds t zs := by
        intro t zs ht hapart
        obtain ⟨ht₂, hapart₂⟩ := hframe ht hapart
        exact hframe₃ ht₂ hapart₂
      have hlater : ∀ n ∈ next :: news, m.unused ≤ n.array := by
        refine forall_mem_cons.mpr ⟨hfresh, fun n hn => ?_⟩
        exact hunused.trans (hnews n hn)
      refine ⟨m₃, last, next :: news, ?_, ⟨?_, ?_⟩, hlater, ?_, hkeep⟩
      · rw [hpad, bind_eq_bind, bind_some]
        dsimp only
        rw [hnext, bind_some]
        rw [hbuild, append_assoc, singleton_append]
      · rw [hdepth]
        exact .cons (hkeep hs (Memory.apart_self s)) hbuilt.holds
      · refine pairwise_cons.mpr ⟨fun n hn => ?_, hbuilt.ordered⟩
        exact Nat.lt_of_lt_of_le (hs.array_lt hpos) (hlater n hn)
      · rw [hdepth]
        exact hlast
    · rename_i hlen
      rw [hs.len_eq] at hlen
      have hone : xs.length = 1 := by omega
      rw [hone]
      refine ⟨m, s, [], by rw [append_nil], ⟨?_, ?_⟩, ?_, hs, fun ht _ => ht⟩
      · exact .cons hs .nil
      · exact pairwise_singleton _ _
      · rintro n ⟨⟩

/-- The tree has the levels above its leaves, on arrays of their own. -/
structure Represents (m : Memory Hash) (t : MerkleTree) (leaves : List Hash) : Prop where
  built : Built sha256 m t.levels (depth leaves.length + 1) leaves
  holds : m.Holds t.leaves leaves
  mem : t.leaves ∈ t.levels
  root : MerkleTrees.root (hashPair sha256) leaves = some t.root

/-- What `NewMerkleTree` and `BuildMerkleTreeFromChunks` take for leaves. -/
def checkLeaves (leafHashes : List (List UInt8)) : Except MerkleError (List Hash) :=
  if leafHashes.length = 0 then .error .noLeaves else copyLeaves 0 leafHashes

lemma map_val_copyLeaves (h : copyLeaves i hs = .ok hashes) : hashes.map Subtype.val = hs := by
  induction hs generalizing i hashes with
  | nil =>
    cases h
    rfl
  | cons x hs ih =>
    rw [copyLeaves] at h
    split at h
    · cases h
    · rename_i hlen
      cases hrest : copyLeaves (i + 1) hs with
      | error e =>
        rw [hrest] at h
        cases h
      | ok rest =>
        rw [hrest] at h
        cases h
        rw [map_cons, ih hrest, Block.val_ofList (not_not.mp hlen)]

lemma copyLeaves_ok (h : ∀ x ∈ hs, x.length = 32) (i : Nat) :
    ∃ hashes, copyLeaves i hs = .ok hashes := by
  induction hs generalizing i with
  | nil => exact ⟨[], rfl⟩
  | cons x hs ih =>
    obtain ⟨hx, hrest⟩ := forall_mem_cons.mp h
    obtain ⟨hashes, hhashes⟩ := ih hrest (i + 1)
    rw [copyLeaves, if_neg (not_not.mpr hx), hhashes]
    exact ⟨_, rfl⟩

lemma checkLeaves_ok (hne : hs ≠ []) (h : ∀ x ∈ hs, x.length = 32) :
    ∃ leaves, checkLeaves hs = .ok leaves := by
  rw [checkLeaves, if_neg (mt eq_nil_of_length_eq_zero hne)]
  exact copyLeaves_ok h 0

variable {leaves : List Hash} {leafHashes : List (List UInt8)}

lemma map_val_checkLeaves (h : checkLeaves hs = .ok leaves) : leaves.map Subtype.val = hs := by
  rw [checkLeaves] at h
  split at h
  · cases h
  · exact map_val_copyLeaves h

lemma checkLeaves_map_val (h : leaves ≠ []) :
    checkLeaves (leaves.map Subtype.val) = .ok leaves := by
  have hlen : ∀ x ∈ leaves.map Subtype.val, x.length = 32 := by
    intro x hx
    obtain ⟨leaf, -, rfl⟩ := mem_map.mp hx
    exact leaf.property
  obtain ⟨leaves', h'⟩ := checkLeaves_ok (mt map_eq_nil_iff.mp h) hlen
  rw [h', map_injective_iff.mpr Subtype.val_injective (map_val_checkLeaves h')]

/-- `NewMerkleTree` does not fail on leaves that it accepts, and makes the
tree of these leaves. -/
lemma newMerkleTree_represents (h : checkLeaves leafHashes = .ok leaves) (m : Memory Hash) :
    ∃ t m', newMerkleTree sha256 spare leafHashes m = some (.ok t, m')
      ∧ Represents sha256 m' t leaves := by
  rw [checkLeaves] at h
  split at h
  · cases h
  rename_i hne
  have hlen : leaves.length = leafHashes.length := by
    rw [← map_val_copyLeaves h, length_map]
  have hleaves : leaves ≠ [] := ne_nil_of_length_pos (by omega)
  have hmake := Memory.holds_make m leaves
  rw [newMerkleTree, if_neg hne, h]
  dsimp only
  split
  · rename_i hone
    obtain ⟨leaf, rfl⟩ := length_eq_one_iff.mp hone
    rw [hmake.read_eq]
    refine ⟨_, _, rfl, ⟨?_, pairwise_singleton _ _⟩, hmake, mem_singleton_self _, ?_⟩
    · exact .cons hmake .nil
    · rfl
  · obtain ⟨m', last, news, hbuild, hbuilt, -, hlast, hframe⟩ :=
      buildLevels_built sha256 spare hmake hleaves (Nat.lt_succ_of_le (depth_le _))
        [(m.make leaves).2]
    obtain ⟨root, hroot⟩ := length_eq_one_iff.mp (length_iterate_up (hashPair sha256) hleaves)
    rw [hroot] at hlast
    rw [hmake.len_eq, hbuild, bind_eq_bind, bind_some]
    rw [hlast.read_eq]
    refine ⟨_, _, rfl, hbuilt, hframe hmake (Memory.apart_self _), mem_cons_self, ?_⟩
    rw [MerkleTrees.root, hroot]
    rfl

lemma newMerkleTree_of_error (h : checkLeaves leafHashes = .error e)
    (m : Memory Hash) : newMerkleTree sha256 spare leafHashes m = some (.error e, m) := by
  rw [checkLeaves] at h
  rw [newMerkleTree]
  split at h
  · rename_i hempty
    cases h
    rw [if_pos hempty]
  · rename_i hne
    rw [if_neg hne, h]

/-- Nothing but the tree of its leaves is made. -/
lemma represents_of_newMerkleTree {t : MerkleTree}
    (h : newMerkleTree sha256 spare leafHashes m = some (.ok t, m')) :
    ∃ leaves, checkLeaves leafHashes = .ok leaves ∧ Represents sha256 m' t leaves := by
  cases hleaves : checkLeaves leafHashes with
  | error e =>
    rw [newMerkleTree_of_error sha256 spare hleaves] at h
    cases h
  | ok leaves =>
    obtain ⟨t', m'', hnew, hrep⟩ := newMerkleTree_represents sha256 spare hleaves m
    rw [hnew] at h
    cases h
    exact ⟨leaves, rfl, hrep⟩

lemma root_of_newMerkleTree {t : MerkleTree}
    (h : newMerkleTree sha256 spare (leaves.map Subtype.val) m = some (.ok t, m')) :
    MerkleTrees.root (hashPair sha256) leaves = some t.root := by
  obtain ⟨leaves', hleaves, hrep⟩ := represents_of_newMerkleTree sha256 spare h
  rw [← map_injective_iff.mpr Subtype.val_injective (map_val_checkLeaves hleaves)]
  exact hrep.root

/-! ## Proofs -/

lemma auditPath_eq (hslices : Built sha256 m slices k xs) (hi : i < xs.length) (proof : List Hash) :
    ∃ m', auditPath spare m slices i proof = some (proof ++ path (hashPair sha256) k xs i, m')
      ∧ ∀ {t zs}, m.Holds t zs → (∀ s ∈ slices, Memory.Apart t s) → m'.Holds t zs := by
  induction k generalizing m slices i xs proof with
  | zero =>
    cases hslices.holds
    exact ⟨m, by rw [auditPath, path, append_nil], fun ht _ => ht⟩
  | succ k ih =>
    obtain ⟨hholds, hordered⟩ := hslices
    cases hholds with
    | @cons s _ rest _ hs hrest =>
      obtain ⟨hfirst, hordered⟩ := pairwise_cons.mp hordered
      obtain ⟨m₁, p, hpad, hp, -, hframe₁⟩ := pad_holds spare hs
      obtain ⟨x, hx⟩ := exists_sibling hi
      have hread : m₁.read p (if i % 2 = 0 then i + 1 else i - 1) = some x := by
        rw [hp.read_eq, ← sibling_eq_padded hi, hx]
      -- the padding of one level is not seen by the others
      have hrest₁ : List.Forall₂ m₁.Holds rest (levels (hashPair sha256) k
          (up (hashPair sha256) xs)) := by
        refine List.Forall₂.imp ?_ ((List.forall₂_and_left _ _).mpr ⟨hfirst, hrest⟩)
        rintro t zs ⟨hlt, hholds⟩
        exact hframe₁ hholds (Memory.apart_of_ne hlt.ne')
      have hi' : i / 2 < (up (hashPair sha256) xs).length := by
        rw [length_up]
        omega
      obtain ⟨m₂, haudit, hframe₂⟩ := ih ⟨hrest₁, hordered⟩ hi' _
      refine ⟨m₂, ?_, fun ht hapart => ?_⟩
      · rw [auditPath, hpad, bind_eq_bind, bind_some]
        dsimp only
        rw [hread, bind_eq_bind, bind_some, haudit, path, hx, append_assoc]
        rfl
      · obtain ⟨hapart₁, hapart₂⟩ := forall_mem_cons.mp hapart
        exact hframe₂ (hframe₁ ht hapart₁) hapart₂

/-- No level of a tree sees what is appended to a level. -/
lemma Built.apart (h : Built sha256 m slices k xs) :
    ∀ s ∈ slices, ∀ t ∈ slices, Memory.Apart s t := by
  have hboth : slices.Pairwise fun s t => Memory.Apart s t ∧ Memory.Apart t s :=
    h.ordered.imp fun hlt => ⟨Memory.apart_of_ne hlt.ne, Memory.apart_of_ne hlt.ne'⟩
  have hsymm : Std.Symm fun s t => Memory.Apart s t ∧ Memory.Apart t s := ⟨fun _ _ h => h.symm⟩
  have hself : ∀ s ∈ slices, Memory.Apart s s ∧ Memory.Apart s s := fun s _ =>
    ⟨Memory.apart_self s, Memory.apart_self s⟩
  exact fun s hs t ht => (hboth.forall_of_forall hself hs ht).1

/-- `GenerateProof` returns the path in the list of leaves, and the tree is as
it was. -/
lemma Represents.generateProof {t : MerkleTree} (h : Represents sha256 m t leaves)
    (hi : i < leaves.length) :
    ∃ m', generateProof spare t i m =
        some (.ok (path (hashPair sha256) (depth leaves.length) leaves i), m')
      ∧ Represents sha256 m' t leaves := by
  have hlen := h.holds.len_eq
  have hin : ¬((i : Int) < 0 ∨ (t.leaves.len : Int) ≤ i) := by omega
  rw [Availability.generateProof, if_neg hin]
  split
  · rename_i hone
    rw [← hlen, hone]
    exact ⟨m, rfl, h⟩
  · have hlower : Built sha256 m t.levels.dropLast (depth leaves.length) leaves := by
      refine ⟨?_, h.built.ordered.sublist (dropLast_sublist _)⟩
      rw [← dropLast_levels, dropLast_eq_take, dropLast_eq_take, ← h.built.holds.length_eq]
      exact List.forall₂_take _ h.built.holds
    obtain ⟨m', haudit, hframe⟩ := auditPath_eq sha256 spare hlower hi []
    have hkeep : ∀ {s zs}, s ∈ t.levels → m.Holds s zs → m'.Holds s zs := fun hs hholds =>
      hframe hholds fun s' hs' => h.built.apart sha256 _ hs s' (mem_of_mem_dropLast hs')
    rw [Int.toNat_natCast, haudit]
    refine ⟨m', rfl, ⟨?_, h.built.ordered⟩, hkeep h.mem h.holds, h.mem, h.root⟩
    refine List.Forall₂.imp ?_ ((List.forall₂_and_left _ _).mpr ⟨fun _ hs => hs, h.built.holds⟩)
    exact fun s zs hs => hkeep hs.1 hs.2

/-- A call of `GenerateProof` with any index leaves the tree as it was. -/
lemma Represents.call {t : MerkleTree} (h : Represents sha256 m t leaves) (i : Int) :
    ∃ r m', Availability.generateProof spare t i m = some (r, m')
      ∧ Represents sha256 m' t leaves := by
  by_cases hi : i < 0 ∨ (t.leaves.len : Int) ≤ i
  · exact ⟨_, m, if_pos hi, h⟩
  · have hlen := h.holds.len_eq
    obtain ⟨m', hproof, hrep⟩ := h.generateProof sha256 spare (i := i.toNat) (by omega)
    rw [Int.toNat_of_nonneg (by omega)] at hproof
    exact ⟨_, m', hproof, hrep⟩

/-! ## Verification -/

lemma climb_map_val (x : Hash) (i : Nat) (proof : List Hash) :
    climb sha256 x.val i (proof.map Subtype.val) = some (walk (hashPair sha256) x i proof).val := by
  induction proof generalizing x i with
  | nil => rfl
  | cons s rest ih =>
    have hlen : ¬s.val.length ≠ 32 := not_not.mpr s.property
    rw [map_cons, climb, if_neg hlen, walk, ← ih, oriented]
    split <;> rfl

lemma verifyMerkleProof_path {leaf root : Hash} (hleaf : leaves[i]? = some leaf)
    (hroot : MerkleTrees.root (hashPair sha256) leaves = some root) :
    verifyMerkleProof sha256 leaf.val i
      ((path (hashPair sha256) (depth leaves.length) leaves i).map Subtype.val) root.val =
        true := by
  have hok : ¬(leaf.val.length ≠ 32 ∨ root.val.length ≠ 32 ∨ (i : Int) < 0) := by
    simp [leaf.property, root.property]
  rw [walk_path_root (hashPair sha256) hleaf] at hroot
  rw [verifyMerkleProof, if_neg hok, Int.toNat_natCast, climb_map_val, Option.some.inj hroot,
    beq_self_eq_true]

lemma Represents.calls {t : MerkleTree} (h : Represents sha256 m t leaves) (calls : List Int) :
    ∃ m', execute (fun i m => (Availability.generateProof spare t i m).map Prod.snd) calls m =
        some m'
      ∧ Represents sha256 m' t leaves := by
  induction calls generalizing m with
  | nil => exact ⟨m, rfl, h⟩
  | cons i calls ih =>
    obtain ⟨r, m₁, hcall, h₁⟩ := h.call ..
    obtain ⟨m₂, hcalls, h₂⟩ := ih h₁
    refine ⟨m₂, ?_, h₂⟩
    rw [execute, hcall, map_some, bind_some, hcalls]

/-- A tree can be built of any leaves of 32 bytes, and after any calls of
`GenerateProof` each leaf has a proof that is accepted at its index. -/
theorem merkle_complete (leafHashes : List (List UInt8)) (hne : leafHashes ≠ [])
    (hlen : ∀ leaf ∈ leafHashes, leaf.length = 32) (m : Memory Hash) :
    ∃ t m₀, newMerkleTree sha256 spare leafHashes m = some (.ok t, m₀) ∧ ∀ calls : List Int, ∃ m₁,
        execute (fun i m => (generateProof spare t i m).map Prod.snd) calls m₀ = some m₁ ∧
        ∀ (i : Nat) (leaf : List UInt8), leafHashes[i]? = some leaf →
          ∃ proof m₂, generateProof spare t i m₁ = some (.ok proof, m₂) ∧
            verifyMerkleProof sha256 leaf i (proof.map Subtype.val) t.root.val = true := by
  obtain ⟨leaves, hleaves⟩ := checkLeaves_ok hne hlen
  obtain ⟨t, m₀, hnew, hrep⟩ := newMerkleTree_represents sha256 spare hleaves m
  refine ⟨t, m₀, hnew, fun calls => ?_⟩
  obtain ⟨m₁, hcalls, hrep₁⟩ := hrep.calls ..
  refine ⟨m₁, hcalls, fun i leaf hleaf => ?_⟩
  rw [← map_val_checkLeaves hleaves, getElem?_map] at hleaf
  obtain ⟨x, hx, rfl⟩ := map_eq_some_iff.mp hleaf
  obtain ⟨hi, -⟩ := List.getElem_of_getElem? hx
  obtain ⟨m₂, hproof, -⟩ := hrep₁.generateProof sha256 spare hi
  exact ⟨_, m₂, hproof, verifyMerkleProof_path sha256 hx hrep₁.root⟩

/-- The number `n` in 32 bytes. -/
def counted (n : Nat) : Hash := ⟨beBytes 32 n, length_beBytes 32 n⟩

/-- A hash that adds one to the number in the first 32 bytes. -/
def countingHash (bs : List UInt8) : Hash := counted (beNat (bs.take 32) + 1)

/-- Three leaves, with room for two more nodes behind each level. -/
theorem merkle_complete_three : ∃ t m₀ m₁ proof m₂, newMerkleTree countingHash (fun _ _ => 2)
      [(counted 5).val, (counted 6).val, (counted 7).val] ⟨fun _ _ => counted 0, 0⟩ =
        some (.ok t, m₀) ∧
    execute (fun i m => (generateProof (fun _ _ => 2) t i m).map Prod.snd) [0, 2, 3] m₀ = some m₁ ∧
    generateProof (fun _ _ => 2) t 2 m₁ = some (.ok proof, m₂) ∧
    verifyMerkleProof countingHash (counted 7).val 2 (proof.map Subtype.val) t.root.val = true := by
  obtain ⟨t, m₀, hnew, hall⟩ := merkle_complete _ (fun _ _ => 2)
    [(counted 5).val, (counted 6).val, (counted 7).val] (by simp)
    (by simp [(counted 5).property, (counted 6).property, (counted 7).property])
    ⟨fun _ _ => counted 0, 0⟩
  obtain ⟨m₁, hcalls, hproofs⟩ := hall [0, 2, 3]
  obtain ⟨proof, m₂, hproof, hverify⟩ := hproofs 2 (counted 7).val rfl
  exact ⟨t, m₀, m₁, proof, m₂, hnew, hcalls, hproof, hverify⟩

end Cipher.Availability
