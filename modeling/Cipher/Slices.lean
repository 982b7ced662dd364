import Mathlib.Tactic.Common

/-!
# Slices

A slice is a view of an array: where it starts, how many elements it has and
how many there is room for. Several slices may be views of one array.
`append` writes behind the last element when there is room, into the array
that the other slices see; else the elements go to a new array. How much room
a new array has is the runtime's choice (`spare`).

A slice is left alone by an `append` to another if they are `Apart`: not on
the same array, or ending no later.

Objects that maps have pointers to are a list, and a pointer is an index: a
new object is put at the end, and an object is changed in its place.
-/

namespace Slices

open List Option

/-- Arrays by their number. -/
structure Memory (α : Type) where
  cells : Nat → Nat → α
  /-- No array has this number or a greater one. -/
  unused : Nat

structure Slice where
  array : Nat
  offset : Nat
  len : Nat
  cap : Nat
deriving DecidableEq, Repr

def Slice.empty : Slice := ⟨0, 0, 0, 0⟩

/-- `s[:k]`. -/
def Slice.take (s : Slice) (k : Nat) : Slice := { s with len := k }

/-- `s[k:]`. -/
def Slice.drop (s : Slice) (k : Nat) : Slice := ⟨s.array, s.offset + k, s.len - k, s.cap - k⟩

namespace Memory

variable {α : Type}

/-- The elements of a slice. -/
def toList (m : Memory α) (s : Slice) : List α :=
  (List.range s.len).map fun i => m.cells s.array (s.offset + i)

/-- An index out of range is a panic. -/
def read (m : Memory α) (s : Slice) (i : Nat) : Option α :=
  if i < s.len then some (m.cells s.array (s.offset + i)) else none

/-- Writes the elements to an array from a position on. -/
def write (m : Memory α) (array start : Nat) (xs : List α) : Memory α :=
  { m with cells := fun a j =>
      if a = array ∧ start ≤ j then (xs[j - start]?).getD (m.cells a j) else m.cells a j }

/-- A new array with these elements. -/
def make (m : Memory α) (xs : List α) : Memory α × Slice :=
  ({ (m.write m.unused 0 xs) with unused := m.unused + 1 }, ⟨m.unused, 0, xs.length, xs.length⟩)

def append (spare : Nat → Nat → Nat) (m : Memory α) (s : Slice) (xs : List α) : Memory α × Slice :=
  if s.len + xs.length ≤ s.cap then
    (m.write s.array (s.offset + s.len) xs, { s with len := s.len + xs.length })
  else
    let moved := m.make (m.toList s ++ xs)
    (moved.1, { moved.2 with cap := moved.2.cap + spare s.cap moved.2.len })

/-- `append(s[:k], s[k+1:]...)`: takes out one element. -/
def remove (spare : Nat → Nat → Nat) (m : Memory α) (s : Slice) (k : Nat) : Memory α × Slice :=
  m.append spare (s.take k) (m.toList (s.drop (k + 1)))

/-! ## Elements -/

variable {m : Memory α} {s t : Slice} {xs ys zs : List α} {spare : Nat → Nat → Nat}

@[simp] lemma length_toList (m : Memory α) (s : Slice) : (m.toList s).length = s.len := by
  simp [toList]

lemma getElem?_toList (m : Memory α) (s : Slice) (i : Nat) : (m.toList s)[i]? = m.read s i := by
  rw [toList, getElem?_map, read]
  split
  · rename_i hi
    rw [getElem?_range hi, map_some]
  · rename_i hi
    rw [getElem?_eq_none (by rw [length_range]; exact Nat.le_of_not_lt hi), map_none]

lemma cells_write_of_ne {array start a j : Nat} (h : a ≠ array ∨ j < start) :
    (m.write array start xs).cells a j = m.cells a j := by
  refine if_neg ?_
  rintro ⟨rfl, hle⟩
  rcases h with h | h
  · exact h rfl
  · omega

lemma cells_write {array start i : Nat} {x : α} (h : xs[i]? = some x) :
    (m.write array start xs).cells array (start + i) = x := by
  have hin : array = array ∧ start ≤ start + i := ⟨rfl, Nat.le_add_right _ _⟩
  change (if _ then _ else _) = _
  rw [if_pos hin, Nat.add_sub_cancel_left, h, getD_some]

lemma cells_write_nil (array start a j : Nat) :
    (m.write array start ([] : List α)).cells a j = m.cells a j := by
  change (if _ then _ else _) = _
  split <;> rfl

/-- Two memories agree on the elements of a slice. -/
lemma toList_congr {m' : Memory α}
    (h : ∀ i < s.len, m'.cells s.array (s.offset + i) = m.cells s.array (s.offset + i)) :
    m'.toList s = m.toList s :=
  map_congr_left fun i hi => h i (mem_range.mp hi)

/-- The slice has room for its elements, in an array that exists, and these
are its elements. -/
structure Holds (m : Memory α) (s : Slice) (xs : List α) : Prop where
  room : s.len ≤ s.cap
  exists_array : s.cap = 0 ∨ s.array < m.unused
  elems : m.toList s = xs

lemma Holds.len_eq (h : m.Holds s xs) : s.len = xs.length := by
  rw [← h.elems, length_toList]

lemma Holds.read_eq (h : m.Holds s xs) (i : Nat) : m.read s i = xs[i]? := by
  rw [← h.elems, getElem?_toList]

/-- A slice with elements is on an array that exists. -/
lemma Holds.array_lt (h : m.Holds s xs) (hxs : 0 < xs.length) : s.array < m.unused := by
  have hroom := h.room
  have hlen := h.len_eq
  rcases h.exists_array with hcap | hlt
  · omega
  · exact hlt

/-- A memory with more arrays that agrees on the elements. -/
lemma Holds.mono {m' : Memory α} (h : m.Holds s xs) (hunused : m.unused ≤ m'.unused)
    (hcells : ∀ i < s.len, m'.cells s.array (s.offset + i) = m.cells s.array (s.offset + i)) :
    m'.Holds s xs :=
  ⟨h.room, h.exists_array.imp_right fun hlt => Nat.lt_of_lt_of_le hlt hunused,
    (toList_congr hcells).trans h.elems⟩

lemma holds_empty (m : Memory α) : m.Holds Slice.empty [] := ⟨Nat.le_refl 0, .inl rfl, rfl⟩

/-! ## New arrays -/

lemma toList_write_append {array start : Nat} {cap : Nat} :
    (m.write array start xs).toList ⟨array, start, xs.length, cap⟩ = xs := by
  refine ext_getElem? fun i => ?_
  rw [getElem?_toList, read]
  split
  · rename_i hi
    obtain ⟨x, hx⟩ : ∃ x, xs[i]? = some x := ⟨_, getElem?_eq_getElem hi⟩
    rw [cells_write hx, hx]
  · rename_i hi
    exact (getElem?_eq_none (Nat.le_of_not_lt hi)).symm

lemma holds_make (m : Memory α) (xs : List α) : (m.make xs).1.Holds (m.make xs).2 xs := by
  refine ⟨Nat.le_refl _, .inr (Nat.lt_succ_self _), ?_⟩
  exact toList_write_append (m := m)

lemma Holds.make (h : m.Holds t zs) (xs : List α) : (m.make xs).1.Holds t zs := by
  refine h.mono (Nat.le_succ _) fun i hi => cells_write_of_ne (.inl ?_)
  intro heq
  have hroom := h.room
  rcases h.exists_array with hcap | hlt <;> omega

/-! ## Appending -/

/-- What is appended to `s` is not seen by `t`. -/
def Apart (t s : Slice) : Prop :=
  s.cap = 0 ∨ t.len = 0 ∨ t.array ≠ s.array ∨ t.offset + t.len ≤ s.offset + s.len

lemma apart_self (s : Slice) : Apart s s := .inr (.inr (.inr (Nat.le_refl _)))

lemma apart_of_ne (h : t.array ≠ s.array) : Apart t s := .inr (.inr (.inl h))

lemma append_of_le (h : s.len + xs.length ≤ s.cap) : m.append spare s xs =
      (m.write s.array (s.offset + s.len) xs, { s with len := s.len + xs.length }) := if_pos h

lemma append_of_lt (h : s.cap < s.len + xs.length) :
    m.append spare s xs = ((m.make (m.toList s ++ xs)).1,
      { (m.make (m.toList s ++ xs)).2 with
        cap := (m.make (m.toList s ++ xs)).2.cap +
          spare s.cap (m.make (m.toList s ++ xs)).2.len }) :=
  if_neg (Nat.not_le.mpr h)

lemma Holds.append (h : m.Holds s xs) (ys : List α) :
    (m.append spare s ys).1.Holds (m.append spare s ys).2 (xs ++ ys) := by
  rcases Nat.lt_or_ge .. with hcap | hcap
  · rw [append_of_lt hcap, h.elems]
    obtain ⟨hroom, hexists, helems⟩ := holds_make ..
    exact ⟨Nat.le_add_right_of_le hroom, .inr (Nat.lt_succ_self _), helems⟩
  · rw [append_of_le hcap]
    refine ⟨hcap, h.exists_array, ext_getElem? fun i => ?_⟩
    rw [getElem?_toList, read, ← h.elems]
    dsimp only
    rcases Nat.lt_or_ge i s.len with hi | hi
    · rw [if_pos (by omega), cells_write_of_ne (.inr (by omega)),
        getElem?_append_left (by simpa using hi), getElem?_toList, read, if_pos hi]
    · rw [getElem?_append_right (by simpa using hi), length_toList]
      split
      · obtain ⟨y, hy⟩ : ∃ y, ys[i - s.len]? = some y :=
          ⟨_, getElem?_eq_getElem (by omega)⟩
        have hpos : s.offset + i = s.offset + s.len + (i - s.len) := by omega
        rw [hpos, cells_write hy, hy]
      · exact (getElem?_eq_none (by omega)).symm

/-- Frame: what is apart stays as it is. -/
lemma Holds.append_apart (h : m.Holds t zs) (hs : s.len ≤ s.cap) (hapart : Apart t s)
    (ys : List α) : (m.append spare s ys).1.Holds t zs := by
  rcases Nat.lt_or_ge .. with hcap | hcap
  · rw [append_of_lt hcap]
    exact h.make _
  · rw [append_of_le hcap]
    refine h.mono (Nat.le_refl _) fun i hi => ?_
    rcases hapart with hzero | hempty | hne | hle
    · obtain rfl : ys = [] := eq_nil_of_length_eq_zero (by omega)
      exact cells_write_nil ..
    · omega
    · exact cells_write_of_ne (.inl hne)
    · exact cells_write_of_ne (.inr (by omega))

lemma unused_le_append (m : Memory α) (s : Slice) (xs : List α) :
    m.unused ≤ (m.append spare s xs).1.unused := by
  rw [append]
  split
  · exact Nat.le_refl _
  · exact Nat.le_succ _

/-- A slice that was appended to is where it was or in a new array. -/
lemma array_append (spare : Nat → Nat → Nat) (m : Memory α) (s : Slice) (xs : List α) :
    (m.append spare s xs).2.array = m.unused ∨
      ((m.append spare s xs).2.array = s.array ∧ s.len + xs.length ≤ s.cap) := by
  rw [append]
  split
  · rename_i hcap
    exact .inr ⟨rfl, hcap⟩
  · exact .inl rfl

/-! ## Removing -/

lemma toList_take {k : Nat} (hk : k ≤ s.len) : m.toList (s.take k) = (m.toList s).take k := by
  rw [toList, toList, ← map_take, take_range, Nat.min_eq_left hk]
  rfl

lemma toList_drop (m : Memory α) (s : Slice) (k : Nat) :
    m.toList (s.drop k) = (m.toList s).drop k := by
  refine ext_getElem? fun i => ?_
  rw [getElem?_drop, getElem?_toList, getElem?_toList, read, read, Slice.drop]
  dsimp only
  rw [Nat.add_assoc]
  split
  · rw [if_pos (by omega)]
  · rw [if_neg (by omega)]

/-- There is always room for what is left. -/
lemma remove_eq {k : Nat} (hk : k < s.len) (hroom : s.len ≤ s.cap) :
    m.remove spare s k = (m.write s.array (s.offset + k) (m.toList (s.drop (k + 1))),
      { s with len := s.len - 1 }) := by
  have hlen : (m.toList (s.drop (k + 1))).length = s.len - (k + 1) := length_toList ..
  rw [remove, append_of_le (by rw [hlen]; change k + _ ≤ s.cap; omega), hlen]
  change (_, { s with len := k + (s.len - (k + 1)) }) = _
  rw [show k + (s.len - (k + 1)) = s.len - 1 by omega]
  rfl

lemma Holds.remove (h : m.Holds s xs) {k : Nat} (hk : k < xs.length) :
    (m.remove spare s k).1.Holds { s with len := s.len - 1 } (xs.eraseIdx k) := by
  have hlen := h.len_eq
  have hroom := h.room
  have htake : m.Holds (s.take k) (xs.take k) :=
    ⟨Nat.le_trans (Nat.le_of_lt (hlen ▸ hk)) hroom, h.exists_array, by
      rw [toList_take (by omega), h.elems]⟩
  have happend : (m.remove spare s k).1.Holds (m.remove spare s k).2
      (xs.take k ++ m.toList (s.drop (k + 1))) := htake.append _
  rw [toList_drop, h.elems, ← eraseIdx_eq_take_drop_succ] at happend
  rw [remove_eq (hlen ▸ hk) hroom] at happend ⊢
  exact happend

lemma Holds.remove_of_ne (h : m.Holds t zs) {k : Nat} (hk : k < s.len) (hroom : s.len ≤ s.cap)
    (hne : t.array ≠ s.array) : (m.remove spare s k).1.Holds t zs := by
  rw [remove_eq hk hroom]
  exact h.mono (Nat.le_refl _) fun i _ => cells_write_of_ne (.inl hne)

end Memory

/-! ## Objects -/

section Objects

variable {α : Type} {objects : List α} {p q : Nat} {x y z : α}

/-- What is found through a pointer. -/
lemma pointer_eq_some {pointer : Option Nat} :
    (pointer.bind fun p => (objects[p]?).map fun x => (p, x)) = some (p, x) ↔
      pointer = some p ∧ objects[p]? = some x := by
  rw [bind_eq_some_iff]
  constructor
  · rintro ⟨q, hq, hobj⟩
    obtain ⟨y, hy, heq⟩ := map_eq_some_iff.mp hobj
    cases heq
    exact ⟨hq, hy⟩
  · rintro ⟨hp, hx⟩
    exact ⟨p, hp, by rw [hx, map_some]⟩

lemma getElem?_concat_of_some (y : α) (h : objects[p]? = some x) : (objects ++ [y])[p]? = some x :=
  (List.getElem?_append_left (List.getElem_of_getElem? h).1).trans h

lemma getElem?_concat_eq_some :
    (objects ++ [y])[p]? = some x ↔ objects[p]? = some x ∨ (p = objects.length ∧ x = y) := by
  constructor
  · intro h
    rcases Nat.lt_or_ge .. with hlt | hge
    · exact .inl ((getElem?_append_left hlt).symm.trans h)
    · rw [getElem?_append_right hge] at h
      obtain ⟨hlt, rfl⟩ := List.getElem_of_getElem? h
      have hlt : p - objects.length < 1 := hlt
      exact .inr ⟨by omega, getElem_singleton _⟩
  · rintro (h | ⟨rfl, rfl⟩)
    · exact getElem?_concat_of_some y h
    · exact getElem?_concat_length

lemma getElem?_set_eq_some (h : objects[p]? = some x) :
    (objects.set p y)[q]? = some z ↔ (q = p ∧ z = y) ∨ (q ≠ p ∧ objects[q]? = some z) := by
  by_cases hqp : q = p
  · subst hqp
    rw [List.getElem?_set_self (List.getElem_of_getElem? h).1, Option.some.injEq]
    constructor
    · exact fun heq => .inl ⟨rfl, heq.symm⟩
    · rintro (⟨-, rfl⟩ | ⟨hne, -⟩)
      · rfl
      · exact absurd rfl hne
  · rw [getElem?_set_ne (Ne.symm hqp)]
    constructor
    · exact fun heq => .inr ⟨hqp, heq⟩
    · rintro (⟨heq, -⟩ | ⟨-, heq⟩)
      · exact absurd heq hqp
      · exact heq

end Objects

end Slices
