import Mathlib.Algebra.Group.Nat.Defs
import Mathlib.Data.Nat.Log
import Mathlib.Logic.Function.Iterate
import Mathlib.Tactic.Common

/-!
# Hash trees over a list

The nodes of a level are paired from the left, the last one of an odd level
with itself, and a pair is one node of the next level. `path` collects what a
node is paired with on its way up, and `walk` goes up from any value with any
siblings.

A node with its own path arrives at the tree's node above it (`walk_path`).
Conversely, a walk that arrives at the node that many levels above a position
of the list began with the element there, provided that no pair combined on
the way collides with one of the tree (`getElem?_of_walk`). The number of
levels is what the statement is about: a walk that is shorter or longer says
nothing about the list.
-/

namespace MerkleTrees

open List Option

variable {D : Type}

/-! ## Levels -/

/-- The pairs of a level. -/
def paired : List D → List (D × D)
  | a :: b :: rest => (a, b) :: paired rest
  | [a] => [(a, a)]
  | [] => []

variable (h : D → D → D)

/-- The next level. -/
def up (xs : List D) : List D := (paired xs).map fun p => h p.1 p.2

/-- A level and the next ones, `k` in all. -/
def levels : Nat → List D → List (List D)
  | 0, _ => []
  | k + 1, xs => xs :: levels k (up h xs)

/-- How many levels there are above `n` nodes. -/
def depth (n : Nat) : Nat := Nat.clog 2 n

lemma length_paired (xs : List D) : (paired xs).length = (xs.length + 1) / 2 := by
  fun_induction paired xs with
  | case1 a b rest ih =>
    simp only [length_cons, ih]
    omega
  | case2 a => simp
  | case3 => simp

lemma getElem?_paired (xs : List D) (k : Nat) :
    (paired xs)[k]? = (xs[2 * k]?).map fun a => (a, (xs[2 * k + 1]?).getD a) := by
  induction k generalizing xs with
  | zero =>
    match xs with
    | [] => rfl
    | [a] => rfl
    | a :: b :: rest => rfl
  | succ k ih =>
    match xs with
    | [] => rfl
    | [a] => rfl
    | a :: b :: rest => exact ih rest

@[simp] lemma length_up (xs : List D) : (up h xs).length = (xs.length + 1) / 2 := by
  rw [up, length_map, length_paired]

lemma paired_replicate (n : Nat) (x : D) :
    paired (List.replicate n x) = List.replicate ((n + 1) / 2) (x, x) := by
  refine eq_replicate_iff.mpr ⟨by rw [length_paired, length_replicate], fun p hp => ?_⟩
  obtain ⟨k, hk⟩ := mem_iff_getElem?.mp hp
  rw [getElem?_paired] at hk
  obtain ⟨a, ha, rfl⟩ := map_eq_some_iff.mp hk
  obtain rfl := eq_of_mem_replicate (mem_of_getElem? ha)
  cases hb : (List.replicate n a)[2 * k + 1]? with
  | none => rfl
  | some b =>
    obtain rfl := eq_of_mem_replicate (mem_of_getElem? hb)
    rfl

lemma up_replicate (n : Nat) (x : D) :
    up h (List.replicate n x) = List.replicate ((n + 1) / 2) (h x x) := by
  rw [up, paired_replicate, map_replicate]

lemma dropLast_levels (k : Nat) (xs : List D) : (levels h (k + 1) xs).dropLast = levels h k xs := by
  induction k generalizing xs with
  | zero => rfl
  | succ k ih =>
    change xs :: (levels h (k + 1) (up h xs)).dropLast = xs :: levels h k (up h xs)
    rw [ih]

lemma depth_of_two_le {n : Nat} (hn : 2 ≤ n) : depth n = depth ((n + 1) / 2) + 1 :=
  Nat.clog_of_two_le Nat.one_lt_two hn

variable {xs : List D} {i : Nat}

lemma depth_length_up (hxs : 2 ≤ xs.length) : depth xs.length = depth (up h xs).length + 1 := by
  rw [depth_of_two_le hxs, length_up]

lemma depth_le (n : Nat) : depth n ≤ n := Nat.clog_le_of_le_pow Nat.lt_two_pow_self.le

lemma div_two_pow_depth {n : Nat} (hi : i < n) : i / 2 ^ depth n = 0 :=
  Nat.div_eq_of_lt (hi.trans_le (Nat.le_pow_clog Nat.one_lt_two n))

lemma length_iterate_up (hxs : xs ≠ []) : ((up h)^[depth xs.length] xs).length = 1 := by
  induction hn : xs.length using Nat.strongRecOn generalizing xs with
  | _ n ih =>
    have hpos := length_pos_iff.mpr hxs
    rcases Nat.lt_or_ge n 2 with hlt | hge
    · obtain rfl : n = 1 := by omega
      exact hn
    · have hup : (up h xs).length = (n + 1) / 2 := by rw [length_up, hn]
      rw [depth_of_two_le hge, ← hup]
      exact ih _ (by omega) (ne_nil_of_length_pos (by omega)) rfl

/-- The one node of the uppermost level. -/
def root (xs : List D) : Option D := ((up h)^[depth xs.length] xs)[0]?

/-! ## Walks -/

def oriented (i : Nat) (x s : D) : D × D := if i % 2 = 0 then (x, s) else (s, x)

/-- Up from `x` at position `i`, with the siblings that are given. -/
def walk : D → Nat → List D → D
  | x, _, [] => x
  | x, i, s :: rest =>
    walk (h (oriented i x s).1 (oriented i x s).2) (i / 2) rest

/-- What the node at position `i` is paired with. -/
def sibling (xs : List D) (i : Nat) : Option D :=
  if i % 2 = 0 then (xs[i + 1]?).or xs[i]? else xs[i - 1]?

/-- The siblings on the way up, `k` levels. -/
def path : Nat → List D → Nat → List D
  | 0, _, _ => []
  | k + 1, xs, i => (sibling xs i).toList ++ path k (up h xs) (i / 2)

lemma exists_sibling (hi : i < xs.length) : ∃ s, sibling xs i = some s := by
  rw [sibling]
  split
  · rw [getElem?_eq_getElem hi]
    cases xs[i + 1]? with
    | none => exact ⟨_, rfl⟩
    | some s => exact ⟨s, rfl⟩
  · exact ⟨_, getElem?_eq_getElem (by omega)⟩

variable {x : D} {ys : List D}

/-- A node and its sibling are the pair above them. -/
lemma getElem?_paired_of_sibling {s : D} (hx : xs[i]? = some x) (hs : sibling xs i = some s) :
    (paired xs)[i / 2]? = some (oriented i x s) := by
  rw [getElem?_paired]
  rw [sibling] at hs
  rw [oriented]
  split at hs
  · rename_i heven
    have hi : 2 * (i / 2) = i := by omega
    rw [hi, hx, if_pos heven]
    rw [hx] at hs
    cases hnext : xs[i + 1]? with
    | none =>
      rw [hnext] at hs
      cases hs
      rfl
    | some y =>
      rw [hnext] at hs
      cases hs
      rfl
  · rename_i hodd
    have hi : 2 * (i / 2) = i - 1 := by omega
    have hi' : i - 1 + 1 = i := by omega
    rw [hi, hi', hs, hx, if_neg hodd]
    rfl

lemma length_path (hi : i < xs.length) (k : Nat) : (path h k xs i).length = k := by
  induction k generalizing xs i with
  | zero => rfl
  | succ k ih =>
    obtain ⟨s, hs⟩ := exists_sibling hi
    have hup : i / 2 < (up h xs).length := by
      rw [length_up]
      omega
    rw [path, hs, toList_some, singleton_append, length_cons, ih hup]

/-- With its own siblings a node arrives at the node above it. -/
lemma walk_path (hx : xs[i]? = some x) (k : Nat) :
    ((up h)^[k] xs)[i / 2 ^ k]? = some (walk h x i (path h k xs i)) := by
  induction k generalizing xs i x with
  | zero =>
    rw [Nat.pow_zero, Nat.div_one]
    exact hx
  | succ k ih =>
    obtain ⟨hi, -⟩ := List.getElem_of_getElem? hx
    obtain ⟨s, hs⟩ := exists_sibling hi
    have hparent : (up h xs)[i / 2]? = some (h (oriented i x s).1 (oriented i x s).2) := by
      rw [up, getElem?_map, getElem?_paired_of_sibling hx hs, map_some]
    rw [path, hs, toList_some, singleton_append, Nat.pow_succ', ← Nat.div_div_eq_div_mul]
    exact ih hparent

/-- The walk to the root. -/
lemma walk_path_root (hx : xs[i]? = some x) :
    root h xs = some (walk h x i (path h (depth xs.length) xs i)) := by
  obtain ⟨hi, -⟩ := List.getElem_of_getElem? hx
  have hwalk := walk_path h hx (depth xs.length)
  rwa [div_two_pow_depth hi] at hwalk

/-! ## Collisions -/

/-- The pairs that are combined on a walk. -/
def walked : D → Nat → List D → List (D × D)
  | _, _, [] => []
  | x, i, s :: rest =>
    oriented i x s :: walked (h (oriented i x s).1 (oriented i x s).2) (i / 2) rest

/-- The pairs that are combined in the `k` levels above a list. -/
def combined : Nat → List D → List (D × D)
  | 0, _ => []
  | k + 1, xs => paired xs ++ combined k (up h xs)

/-- What arrives where the node at a position arrives began as that node. -/
lemma getElem?_of_walk {proof : List D} (hi : i < xs.length)
    (hcoll : ∀ p ∈ walked h x i proof, ∀ q ∈ combined h proof.length xs,
      h p.1 p.2 = h q.1 q.2 → p = q)
    (hwalk : ((up h)^[proof.length] xs)[i / 2 ^ proof.length]? = some (walk h x i proof)) :
    xs[i]? = some x := by
  induction proof generalizing xs i x with
  | nil =>
    rw [length_nil, Nat.pow_zero, Nat.div_one] at hwalk
    exact hwalk
  | cons s rest ih =>
    have hup : i / 2 < (up h xs).length := by
      rw [length_up]
      omega
    rw [length_cons, Nat.pow_succ', ← Nat.div_div_eq_div_mul] at hwalk
    have hparent := ih hup (fun p hp q hq => hcoll p (mem_cons_of_mem _ hp) q
      (mem_append_right _ hq)) hwalk
    -- the tree's pair at this place is the one the walk began with
    rw [up, getElem?_map] at hparent
    obtain ⟨q, hq, hpq⟩ := map_eq_some_iff.mp hparent
    obtain rfl := hcoll _ mem_cons_self q (mem_append_left _ (mem_of_getElem? hq)) hpq.symm
    rw [getElem?_paired] at hq
    obtain ⟨a, ha, heq⟩ := map_eq_some_iff.mp hq
    rw [oriented] at heq
    split at heq
    · cases heq
      rwa [show 2 * (i / 2) = i by omega] at ha
    · rw [show 2 * (i / 2) + 1 = i by omega, getElem?_eq_getElem hi] at heq
      cases heq
      exact getElem?_eq_getElem hi

lemma eq_of_paired (hlength : xs.length = ys.length) (hpairs : paired xs = paired ys) :
    xs = ys := by
  induction xs using paired.induct generalizing ys with
  | case1 a b rest ih =>
    match ys, hlength with
    | c :: d :: rest', hlength =>
      obtain ⟨hfirst, hrest⟩ := cons.inj hpairs
      cases hfirst
      rw [ih (by simpa using hlength) hrest]
  | case2 a =>
    match ys, hlength with
    | [b], _ =>
      cases hpairs
      rfl
  | case3 => exact (length_eq_zero_iff.mp hlength.symm).symm

/-- Lists of one length under the same level are equal. -/
lemma eq_of_iterate_up {k : Nat} (hlength : xs.length = ys.length)
    (hcoll : ∀ p ∈ combined h k xs, ∀ q ∈ combined h k ys, h p.1 p.2 = h q.1 q.2 → p = q)
    (hlevel : (up h)^[k] xs = (up h)^[k] ys) : xs = ys := by
  induction k generalizing xs ys with
  | zero => exact hlevel
  | succ k ih =>
    have hup : up h xs = up h ys := ih (by rw [length_up, length_up, hlength])
      (fun p hp q hq => hcoll p (mem_append_right _ hp) q (mem_append_right _ hq)) hlevel
    refine eq_of_paired hlength (ext_getElem? fun i => ?_)
    have hi := congrArg (·[i]?) hup
    simp only [up, getElem?_map] at hi
    cases hp : (paired xs)[i]? with
    | none =>
      rw [hp] at hi
      exact (map_eq_none_iff.mp hi.symm).symm
    | some p =>
      rw [hp] at hi
      obtain ⟨q, hq, hpq⟩ := map_eq_some_iff.mp hi.symm
      rw [hq, hcoll p (mem_append_left _ (mem_of_getElem? hp)) q
        (mem_append_left _ (mem_of_getElem? hq)) hpq.symm]

end MerkleTrees
