import Mathlib.Data.Finset.Card
import Mathlib.Data.List.Nodup
import Mathlib.Data.List.Basic

/-!
# Making up a number

Some elements are held, a number of them is wanted, and those that are
missing are taken from a list, the first ones that are not held (`topUp`).
If the list is long enough this makes up the number, and it is monotone in
the following sense: when more is held, nothing is taken that was not taken
before (`topUp_anti`).
-/

namespace Selection

open List Finset

variable {α : Type} [DecidableEq α] {xs : List α} {k : Nat} {held held' : Finset α}

/-- The first elements of the list that are not held, as many as are
missing. -/
def topUp (xs : List α) (k : Nat) (held : Finset α) : List α :=
  (xs.filter fun x => decide (x ∉ held)).take (k - held.card)

lemma mem_of_mem_topUp {x : α} (h : x ∈ topUp xs k held) : x ∈ xs ∧ x ∉ held := by
  simpa using mem_of_mem_take h

section

variable (hnodup : xs.Nodup)

include hnodup

lemma nodup_topUp : (topUp xs k held).Nodup :=
  (hnodup.filter _).take

section

variable (henough : k ≤ xs.length)

include henough

lemma length_topUp (held : Finset α) : (topUp xs k held).length = k - held.card := by
  have hheld : (xs.filter fun x => decide (x ∈ held)).length ≤ held.card := by
    rw [← toFinset_card_of_nodup (hnodup.filter _)]
    refine card_le_card fun x hx => ?_
    simp only [mem_toFinset, mem_filter, decide_eq_true_eq] at hx
    exact hx.2
  have hsplit := length_eq_length_filter_add (l := xs) fun x => decide (x ∈ held)
  simp only [← decide_not] at hsplit
  rw [topUp, length_take]
  omega

/-- The number is made up. -/
lemma le_card_union_topUp : k ≤ (held ∪ (topUp xs k held).toFinset).card := by
  have hdisjoint : Disjoint held (topUp xs k held).toFinset := by
    refine disjoint_left.mpr fun x hx htaken => ?_
    exact (mem_of_mem_topUp (mem_toFinset.mp htaken)).2 hx
  rw [card_union_of_disjoint hdisjoint, toFinset_card_of_nodup (nodup_topUp hnodup),
    length_topUp hnodup henough held]
  omega

/-- When more is held, enough is left of what was taken. -/
lemma le_length_filter_topUp (hsub : held ⊆ held') :
    k - held'.card ≤ ((topUp xs k held).filter fun x => decide (x ∉ held')).length := by
  have hfilter : ((topUp xs k held).filter fun x => decide (x ∉ held')).toFinset =
      (topUp xs k held).toFinset \ held' := by
    ext x
    simp
  rw [← toFinset_card_of_nodup ((nodup_topUp hnodup).filter _), hfilter]
  have hmono : held ∪ (topUp xs k held).toFinset ⊆ (topUp xs k held).toFinset ∪ held' := by
    rw [union_comm]
    exact union_subset_union_right hsub
  have hcard : k ≤ ((topUp xs k held).toFinset \ held').card + held'.card := by
    rw [card_sdiff_add_card]
    exact (le_card_union_topUp hnodup henough).trans (card_le_card hmono)
  omega

lemma topUp_anti (hsub : held ⊆ held') : topUp xs k held' ⊆ topUp xs k held := by
  have hleft := le_length_filter_topUp hnodup henough hsub
  have hfilter : (xs.filter fun x => decide (x ∉ held')) =
      (xs.filter fun x => decide (x ∉ held)).filter fun x => decide (x ∉ held') := by
    rw [List.filter_filter]
    refine filter_congr fun x _ => ?_
    by_cases hx : x ∈ held
    · simp [hx, hsub hx]
    · simp [hx]
  intro x hx
  rw [topUp] at hleft
  rw [topUp, hfilter, ← take_append_drop (k - held.card)
    (xs.filter fun x => decide (x ∉ held)), filter_append,
    take_append_of_le_length hleft] at hx
  exact mem_of_mem_filter (mem_of_mem_take hx)

end

end

end Selection
