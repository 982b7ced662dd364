import Cipher.MerkleComplete

/-!
# What an accepted proof says

`VerifyMerkleProof` goes up as many levels as the proof has siblings. It knows
neither how many levels the tree has nor how many leaves. If the proof has one
sibling for each level and the index is below the number of leaves, then what
is accepted is the leaf at that index, unless two different strings were hashed
to the same value. Otherwise it need not be: a shorter proof shows an inner
node, a longer one what a leaf is the hash of, and an index beyond the leaves
is accepted for the padding, or for the leaf at the index less a power of two.
These are all the cases (`merkle_sound_iff`).
-/

namespace Cipher.Availability

open Bytes Binary Go Content Slices MerkleTrees List

variable (sha256 : List UInt8 → Hash) {proof : List (List UInt8)}

/-! ## Strings that are hashed -/

def joined (p : Hash × Hash) : List UInt8 := p.1.val ++ p.2.val

/-- What `NewMerkleTree` hashes. -/
def treeInputs (leaves : List Hash) : List (List UInt8) :=
  (combined (hashPair sha256) (depth leaves.length) leaves).map joined

/-- What `VerifyMerkleProof` hashes. -/
def proofInputs : List UInt8 → Nat → List (List UInt8) → List (List UInt8)
  | _, _, [] => []
  | current, idx, sibling :: rest =>
    let input := if idx % 2 = 0 then current ++ sibling else sibling ++ current
    input :: proofInputs (sha256 input).val (idx / 2) rest

/-- No two of the strings have the same hash. -/
def CollisionFree (inputs : List (List UInt8)) : Prop :=
  ∀ x ∈ inputs, ∀ y ∈ inputs, sha256 x = sha256 y → x = y

lemma joined_injective : Function.Injective joined := by
  rintro ⟨a, b⟩ ⟨c, d⟩ h
  obtain ⟨hleft, hright⟩ := append_inj h (a.property.trans c.property.symm)
  exact Prod.ext (Subtype.ext hleft) (Subtype.ext hright)

lemma proofInputs_map_val (x : Hash) (i : Nat) (proof : List Hash) :
    proofInputs sha256 x.val i (proof.map Subtype.val) =
      (walked (hashPair sha256) x i proof).map joined := by
  induction proof generalizing x i with
  | nil => rfl
  | cons s rest ih =>
    rw [map_cons, proofInputs, walked, map_cons, ← ih, oriented]
    split <;> rfl

/-! ## Soundness -/

lemma exists_map_val (h : ∀ bs ∈ bss, bs.length = 32) :
    ∃ hashes : List Hash, bss = hashes.map Subtype.val := by
  obtain ⟨hashes, hhashes⟩ := copyLeaves_ok h 0
  exact ⟨hashes, (map_val_copyLeaves hhashes).symm⟩

lemma length_of_climb (h : climb sha256 x i proof = some r) : ∀ s ∈ proof, s.length = 32 := by
  induction proof generalizing x i with
  | nil => rintro s ⟨⟩
  | cons s rest ih =>
    rw [climb] at h
    split at h
    · cases h
    · rename_i hlen
      exact forall_mem_cons.mpr ⟨not_not.mp hlen, ih h⟩

/-- What is accepted is a walk to the root. -/
lemma walk_of_verify {x root : Hash} (h : verifyMerkleProof sha256 x.val i proof root.val = true) :
    ∃ siblings : List Hash, proof = siblings.map Subtype.val
      ∧ walk (hashPair sha256) x i.toNat siblings = root := by
  rw [verifyMerkleProof] at h
  split at h
  · cases h
  · have hclimb := eq_of_beq h
    obtain ⟨siblings, rfl⟩ := exists_map_val (length_of_climb sha256 hclimb)
    rw [climb_map_val] at hclimb
    exact ⟨siblings, rfl, Subtype.ext (Option.some.inj hclimb)⟩

/-- A proof of the tree's depth is only accepted for the leaf at the index. -/
lemma leaf_of_verify {x root : Hash} (hroot : MerkleTrees.root (hashPair sha256) leaves = some root)
    (hdepth : proof.length = depth leaves.length) (hi : i < leaves.length)
    (hfree : CollisionFree sha256 (treeInputs sha256 leaves ++ proofInputs sha256 x.val i proof))
    (h : verifyMerkleProof sha256 x.val i proof root.val = true) : leaves[i]? = some x := by
  obtain ⟨siblings, rfl, hwalk⟩ := walk_of_verify sha256 h
  rw [length_map] at hdepth
  rw [proofInputs_map_val] at hfree
  rw [Int.toNat_natCast] at hwalk
  have hup : ((up (hashPair sha256))^[siblings.length] leaves)[i / 2 ^ siblings.length]? =
      some (walk (hashPair sha256) x i siblings) := by
    rw [hdepth, div_two_pow_depth hi, hwalk]
    exact hroot
  refine getElem?_of_walk (hashPair sha256) hi (fun p hp q hq heq => ?_) hup
  rw [hdepth] at hq
  exact joined_injective (hfree _ (mem_append_right _ (mem_map_of_mem hp)) _
    (mem_append_left _ (mem_map_of_mem hq)) heq)

/-! ## Trees of equal leaves

With a hash that counts, the tree above equal leaves has equal nodes on each
level, and a walk from an equal value of another level arrives at its root. -/

variable {a b k n : Nat}

lemma counted_inj (ha : a < 256 ^ 32) (hb : b < 256 ^ 32) (h : counted a = counted b) : a = b := by
  have hval : beNat (beBytes 32 a) = beNat (beBytes 32 b) := congrArg (fun x => beNat x.val) h
  rwa [beNat_beBytes, beNat_beBytes, Nat.mod_eq_of_lt ha, Nat.mod_eq_of_lt hb] at hval

lemma hashPair_counted (ha : a < 256 ^ 32) (b : Hash) :
    hashPair countingHash (counted a) b = counted (a + 1) := by
  change counted (beNat (beBytes 32 a) + 1) = _
  rw [beNat_beBytes, Nat.mod_eq_of_lt ha]

lemma iterate_up_counted (h : a + k ≤ 256 ^ 32) (n : Nat) :
    ∃ n', (up (hashPair countingHash))^[k] (List.replicate n (counted a)) =
      List.replicate n' (counted (a + k)) := by
  induction k generalizing a n with
  | zero => exact ⟨n, rfl⟩
  | succ k ih =>
    rw [Function.iterate_succ_apply, up_replicate, hashPair_counted (by omega)]
    obtain ⟨n', hn'⟩ := ih (a := a + 1) (by omega) _
    exact ⟨n', by rw [hn', Nat.add_right_comm, Nat.add_assoc]⟩

lemma root_counted (hn : 0 < n) (h : a + depth n ≤ 256 ^ 32) :
    MerkleTrees.root (hashPair countingHash) (List.replicate n (counted a)) =
      some (counted (a + depth n)) := by
  have hne : List.replicate n (counted a) ≠ [] := ne_nil_of_length_pos (by simpa using hn)
  have hone := length_iterate_up (hashPair countingHash) hne
  obtain ⟨n', hn'⟩ := iterate_up_counted h n
  rw [length_replicate, hn', length_replicate] at hone
  rw [MerkleTrees.root, length_replicate, hn', hone]
  rfl

lemma walk_counted (h : a + k ≤ 256 ^ 32) (i : Nat) :
    walk (hashPair countingHash) (counted a) i ((List.range' a k).map counted) =
      counted (a + k) := by
  induction k generalizing a i with
  | zero => rfl
  | succ k ih =>
    rw [range'_succ, map_cons, walk, oriented, ite_self, hashPair_counted (by omega),
      ih (by omega), Nat.add_right_comm, Nat.add_assoc]

lemma mem_combined_counted (h : a + k ≤ 256 ^ 32) (n : Nat) :
    ∀ p ∈ combined (hashPair countingHash) k (List.replicate n (counted a)),
      ∃ b, b < a + k ∧ p = (counted b, counted b) := by
  induction k generalizing a n with
  | zero => rintro p ⟨⟩
  | succ k ih =>
    intro p hp
    rcases mem_append.mp hp with hp | hp
    · rw [paired_replicate] at hp
      exact ⟨a, by omega, eq_of_mem_replicate hp⟩
    · rw [up_replicate, hashPair_counted (by omega)] at hp
      obtain ⟨b, hb, rfl⟩ := ih (by omega) _ p hp
      exact ⟨b, by omega, rfl⟩

lemma mem_walked_counted (h : a + k ≤ 256 ^ 32) (i : Nat) :
    ∀ p ∈ walked (hashPair countingHash) (counted a) i ((List.range' a k).map counted),
      ∃ b, b < a + k ∧ p = (counted b, counted b) := by
  induction k generalizing a i with
  | zero => rintro p ⟨⟩
  | succ k ih =>
    intro p hp
    rw [range'_succ, map_cons, walked, oriented, ite_self, hashPair_counted (by omega)] at hp
    rcases mem_cons.mp hp with rfl | hp
    · exact ⟨a, by omega, rfl⟩
    · obtain ⟨b, hb, rfl⟩ := ih (by omega) _ p hp
      exact ⟨b, by omega, rfl⟩

lemma mem_treeInputs_counted (ha : a + depth n < 256 ^ 32) :
    ∀ x ∈ treeInputs countingHash (List.replicate n (counted a)),
      ∃ c, c + 1 < 256 ^ 32 ∧ x = joined (counted c, counted c) := by
  intro x hx
  obtain ⟨p, hp, rfl⟩ := mem_map.mp hx
  rw [length_replicate] at hp
  obtain ⟨c, hc, rfl⟩ := mem_combined_counted ha.le n p hp
  exact ⟨c, by omega, rfl⟩

lemma collisionFree_of_counted
    (hmem : ∀ x ∈ inputs, ∃ c, c + 1 < 256 ^ 32 ∧ x = joined (counted c, counted c)) :
    CollisionFree countingHash inputs := by
  intro x hx y hy hxy
  obtain ⟨c, hc, rfl⟩ := hmem x hx
  obtain ⟨d, hd, rfl⟩ := hmem y hy
  have hnext : counted (c + 1) = counted (d + 1) := by
    rw [← hashPair_counted (by omega) _, ← hashPair_counted (by omega) _]
    exact hxy
  rw [Nat.succ.inj (counted_inj hc hd hnext)]

/-- These trees and walks are free of collisions. -/
lemma collisionFree_counted (ha : a + depth n < 256 ^ 32) (hb : b + k < 256 ^ 32) (i : Nat) :
    CollisionFree countingHash (treeInputs countingHash (List.replicate n (counted a)) ++
      proofInputs countingHash (counted b).val i
        (((List.range' b k).map counted).map Subtype.val)) := by
  refine collisionFree_of_counted fun x hx => ?_
  rw [proofInputs_map_val] at hx
  rcases mem_append.mp hx with hx | hx
  · exact mem_treeInputs_counted ha x hx
  · obtain ⟨p, hp, rfl⟩ := mem_map.mp hx
    obtain ⟨c, hc, rfl⟩ := mem_walked_counted hb.le i p hp
    exact ⟨c, by omega, rfl⟩

/-- The walk is accepted if it ends on the level of the root. -/
lemma verify_counted (hn : 0 < n) (htop : a + depth n = b + k) (hbound : b + k < 256 ^ 32)
    (i : Nat) (spare : Nat → Nat → Nat) (m : Memory Hash) :
    ∃ t m', newMerkleTree countingHash spare ((List.replicate n (counted a)).map Subtype.val) m =
        some (.ok t, m')
      ∧ verifyMerkleProof countingHash (counted b).val i
        (((List.range' b k).map counted).map Subtype.val) t.root.val = true := by
  have hne : List.replicate n (counted a) ≠ [] := ne_nil_of_length_pos (by simpa using hn)
  obtain ⟨t, m', hnew, hrep⟩ :=
    newMerkleTree_represents countingHash spare (checkLeaves_map_val hne) m
  have hroot := hrep.root
  rw [root_counted hn (by omega)] at hroot
  refine ⟨t, m', hnew, ?_⟩
  rw [verifyMerkleProof, if_neg (by simp [(counted b).property, t.root.property]), climb_map_val,
    walk_counted hbound.le, ← Option.some.inj hroot, htop, beq_self_eq_true]

lemma map_ofList_map_val (leaves : List Hash) :
    (leaves.map Subtype.val).map (Block.ofList 32) = leaves := by
  rw [map_map]
  exact map_id'' Block.ofList_val leaves

/-! ## When an accepted hash is the leaf -/

/-- A hash accepted with a proof of `k` siblings at index `i` is the leaf
there, for every tree of `n` leaves and every hash function without a collision
on what is hashed, exactly if `k` is the depth and `i` is below `n`. -/
theorem merkle_sound_iff (n k i : Nat) (hn : 0 < n) (hlen : n < 2 ^ 63) (hk : k < 2 ^ 63) :
    (∀ (sha256 : List UInt8 → Hash) (spare : Nat → Nat → Nat) (leafHashes : List (List UInt8))
        (m m' : Memory Hash) (t : MerkleTree) (h : List UInt8) (proof : List (List UInt8)),
      leafHashes.length = n → newMerkleTree sha256 spare leafHashes m = some (.ok t, m') →
      h.length = 32 → proof.length = k →
      CollisionFree sha256 (treeInputs sha256 (leafHashes.map (Block.ofList 32)) ++
        proofInputs sha256 h i proof) →
      verifyMerkleProof sha256 h i proof t.root.val = true →
      i < n ∧ leafHashes[i]? = some h) ↔
    k = depth n ∧ i < n := by
  constructor
  · -- a tree of equal leaves, and a walk to its root from `k` levels below
    intro hsound
    have hdepth := depth_le n
    obtain ⟨a, b, htop, hbound⟩ : ∃ a b, a + depth n = b + k ∧ b + k < 2 ^ 63 :=
      ⟨k - depth n, depth n - k, by omega, by omega⟩
    have hbig : 2 ^ 63 < 256 ^ 32 := by norm_num
    obtain ⟨t, m', hnew, hverify⟩ := verify_counted hn htop (hbound.trans hbig) i (fun _ _ => 0)
      ⟨fun _ _ => counted 0, 0⟩
    obtain ⟨hi, hleaf⟩ := hsound _ (fun _ _ => 0) _ _ m' t (counted b).val _ (by simp)
      hnew (counted b).property (by simp)
      (by rw [map_ofList_map_val]; exact collisionFree_counted (by omega) (by omega) i) hverify
    rw [getElem?_map, getElem?_replicate_of_lt hi] at hleaf
    have hab : a = b := counted_inj (by omega) (by omega) (Subtype.ext (Option.some.inj hleaf))
    exact ⟨by omega, hi⟩
  · rintro ⟨rfl, hi⟩ sha256 spare leafHashes m m' t h proof hlength hnew hh hproof hfree hverify
    refine ⟨hi, ?_⟩
    obtain ⟨leaves, hleaves, hrep⟩ := represents_of_newMerkleTree sha256 spare hnew
    obtain rfl := map_val_checkLeaves hleaves
    rw [length_map] at hlength
    rw [map_ofList_map_val] at hfree
    have hleaf := leaf_of_verify sha256 (x := ⟨h, hh⟩) hrep.root (by rw [hproof, hlength])
      (hlength ▸ hi) hfree hverify
    rw [getElem?_map, hleaf, Option.map_some]

/-- Three leaves, the leaf at index 2 and its two siblings. -/
theorem merkle_sound_iff_three :
    (∀ (sha256 : List UInt8 → Hash) (spare : Nat → Nat → Nat) (leafHashes : List (List UInt8))
        (m m' : Memory Hash) (t : MerkleTree) (h : List UInt8) (proof : List (List UInt8)),
      leafHashes.length = 3 → newMerkleTree sha256 spare leafHashes m = some (.ok t, m') →
      h.length = 32 → proof.length = 2 →
      CollisionFree sha256 (treeInputs sha256 (leafHashes.map (Block.ofList 32)) ++
        proofInputs sha256 h 2 proof) →
      verifyMerkleProof sha256 h 2 proof t.root.val = true →
      2 < 3 ∧ leafHashes[2]? = some h) ↔
    2 = depth 3 ∧ 2 < 3 :=
  merkle_sound_iff 3 2 2 (by decide) (by decide) (by decide)

/-- Two leaves: the root is accepted as the leaf at index 0 with no siblings,
and a leaf at index 2 with one. -/
theorem merkle_unsound : ∃ t m',
    newMerkleTree countingHash (fun _ _ => 0) [(counted 5).val, (counted 5).val]
      ⟨fun _ _ => counted 0, 0⟩ = some (.ok t, m') ∧
    (CollisionFree countingHash (treeInputs countingHash [counted 5, counted 5] ++
        proofInputs countingHash t.root.val 0 []) ∧
      verifyMerkleProof countingHash t.root.val 0 [] t.root.val = true ∧
      [(counted 5).val, (counted 5).val][0]? ≠ some t.root.val) ∧
    (CollisionFree countingHash (treeInputs countingHash [counted 5, counted 5] ++
        proofInputs countingHash (counted 5).val 2 [(counted 5).val]) ∧
      verifyMerkleProof countingHash (counted 5).val 2 [(counted 5).val] t.root.val = true) := by
  refine ⟨_, _, rfl, ⟨?_, ?_, ?_⟩, ?_, ?_⟩
  · exact collisionFree_counted (a := 5) (b := 6) (n := 2) (k := 0) (by decide) (by decide) 0
  · decide
  · decide
  · exact collisionFree_counted (a := 5) (b := 5) (n := 2) (k := 1) (by decide) (by decide) 2
  · decide

/-! ## The root and the list of leaves -/

lemma iterate_up_of_root {x : Hash} (hne : leaves ≠ [])
    (hroot : MerkleTrees.root (hashPair sha256) leaves = some x) :
    (up (hashPair sha256))^[depth leaves.length] leaves = [x] := by
  obtain ⟨r, hr⟩ := length_eq_one_iff.mp (length_iterate_up (hashPair sha256) hne)
  rw [MerkleTrees.root, hr] at hroot
  cases hroot
  exact hr

/-- **The root determines the leaves** among the lists of one length. -/
theorem leaves_of_root (sha256 : List UInt8 → Hash) (spare spare' : Nat → Nat → Nat)
    {xs ys : List Hash} (hxs : xs ≠ []) (hys : ys ≠ []) (hlength : xs.length = ys.length)
    (hfree : CollisionFree sha256 (treeInputs sha256 xs ++ treeInputs sha256 ys))
    {m m' n n' : Memory Hash} {t u : MerkleTree}
    (ht : newMerkleTree sha256 spare (xs.map Subtype.val) m = some (.ok t, m'))
    (hu : newMerkleTree sha256 spare' (ys.map Subtype.val) n = some (.ok u, n'))
    (hroot : t.root = u.root) : xs = ys := by
  have hx := iterate_up_of_root sha256 hxs (root_of_newMerkleTree sha256 spare ht)
  have hy := iterate_up_of_root sha256 hys (root_of_newMerkleTree sha256 spare' hu)
  rw [← hlength, ← hroot] at hy
  refine eq_of_iterate_up (hashPair sha256) hlength (fun p hp q hq heq => ?_) (hx.trans hy.symm)
  rw [hlength] at hq
  exact joined_injective (hfree _ (mem_append_left _ (mem_map_of_mem hp)) _
    (mem_append_right _ (mem_map_of_mem hq)) heq)

theorem leaves_of_root_two : ∃ t m', newMerkleTree countingHash (fun _ _ => 0)
    [(counted 5).val, (counted 5).val] ⟨fun _ _ => counted 0, 0⟩ = some (.ok t, m') ∧
    List.replicate 2 (counted 5) = [counted 5, counted 5] := by
  refine ⟨_, _, rfl, leaves_of_root countingHash (fun _ _ => 0) (fun _ _ => 0) nofun nofun rfl ?_
    (m := ⟨fun _ _ => counted 0, 0⟩) rfl (n := ⟨fun _ _ => counted 0, 0⟩) rfl rfl⟩
  exact collisionFree_of_counted fun x hx => (mem_append.mp hx).elim
    (@mem_treeInputs_counted 5 2 (by decide) x) (@mem_treeInputs_counted 5 2 (by decide) x)

/-- Three and four equal leaves, each the hash of a string, have one root. -/
theorem root_of_two_lists : ∃ t m' u n',
    newMerkleTree countingHash (fun _ _ => 0) ((List.replicate 3 (counted 5)).map Subtype.val)
      ⟨fun _ _ => counted 0, 0⟩ = some (.ok t, m') ∧
    newMerkleTree countingHash (fun _ _ => 0) ((List.replicate 4 (counted 5)).map Subtype.val)
      ⟨fun _ _ => counted 0, 0⟩ = some (.ok u, n') ∧ t.root = u.root ∧
    counted 5 = countingHash (joined (counted 4, counted 4)) ∧
    CollisionFree countingHash (joined (counted 4, counted 4) ::
      (treeInputs countingHash (List.replicate 3 (counted 5)) ++
        treeInputs countingHash (List.replicate 4 (counted 5)))) := by
  refine ⟨_, _, _, _, rfl, rfl, rfl, rfl, collisionFree_of_counted fun x hx => ?_⟩
  rcases mem_cons.mp hx with rfl | hx
  · exact ⟨4, by decide, rfl⟩
  · exact (mem_append.mp hx).elim (@mem_treeInputs_counted 5 3 (by decide) x)
      (@mem_treeInputs_counted 5 4 (by decide) x)

end Cipher.Availability
