import Mathlib.Algebra.BigOperators.Group.Multiset.Basic
import Mathlib.Algebra.Order.BigOperators.Group.Multiset
import Mathlib.Tactic.Abel

/-!
# Tokens that move from place to place

A system in which a fixed number of tokens lie in various places has a step
that moves one token, perhaps changing it, or moves none. `Moved` says so of
the multiset of all tokens and of the books that are kept along with them
(`γ`). What is conserved, what holds of every token and what a weight does
in a step then follows from what one move does.
-/

namespace Tokens

open Multiset

variable {α β γ : Type}

/-- The sum over a list of which one entry is replaced. -/
lemma sum_map_set {M : Type} [AddCommMonoid M] (f : α → M) {l : List α} {i : Nat} {x : α}
    (h : l[i]? = some x) : ∃ rest, (l.map f).sum = f x + rest ∧
      ∀ y, ((l.set i y).map f).sum = f y + rest := by
  induction l generalizing i with
  | nil => cases h
  | cons head l ih =>
    cases i with
    | zero =>
      cases h
      exact ⟨(l.map f).sum, rfl, fun _ => rfl⟩
    | succ i =>
      obtain ⟨rest, hsum, hset⟩ := ih h
      refine ⟨f head + rest, ?_, fun y => ?_⟩
      · rw [List.map_cons, List.sum_cons, hsum, add_left_comm]
      · rw [List.set_cons_succ, List.map_cons, List.sum_cons, hset y, add_left_comm]

lemma mem_sum_map {f : β → Multiset α} {l : List β} {x : α} :
    x ∈ (l.map f).sum ↔ ∃ b ∈ l, x ∈ f b := by
  induction l with
  | nil => simp
  | cons b l ih => simp [ih]

/-- All tokens stay where they are and the books as they are, or one token
is replaced in a way that `move` allows. -/
inductive Moved (move : α → γ → α → γ → Prop) (before : Multiset α) (g : γ) (after : Multiset α)
    (g' : γ) : Prop where
  | still (htokens : after = before) (hbooks : g' = g)
  | moved (x y : α) (rest : Multiset α) (hbefore : before = x ::ₘ rest)
      (hafter : after = y ::ₘ rest) (hmove : move x g y g')

variable {move : α → γ → α → γ → Prop} {before after : Multiset α} {g g' : γ}

/-- What no move changes about a token is conserved. -/
lemma Moved.map_eq (h : Moved move before g after g') (f : α → β)
    (hf : ∀ x y, move x g y g' → f y = f x) : after.map f = before.map f := by
  cases h with
  | still htokens => rw [htokens]
  | moved x y rest hbefore hafter hmove =>
    rw [hbefore, hafter, map_cons, map_cons, hf x y hmove]

/-- A property of tokens alone. -/
lemma Moved.forall_mem {P : α → Prop} (h : Moved move before g after g')
    (hmove : ∀ x y, move x g y g' → P x → P y) (hbefore : ∀ x ∈ before, P x) :
    ∀ x ∈ after, P x := by
  cases h with
  | still htokens =>
    rw [htokens]
    exact hbefore
  | moved x y rest hx hy hmoved =>
    subst hx hy
    obtain ⟨hself, hrest⟩ := forall_mem_cons.mp hbefore
    exact forall_mem_cons.mpr ⟨hmove x y hmoved hself, hrest⟩

/-- A property of tokens, in view of the books: it must come along with a
token that is moved, and stay with all tokens that have another key. -/
lemma Moved.forall {P : γ → α → Prop} (h : Moved move before g after g') (key : α → β)
    (hkeys : (before.map key).Nodup) (hbefore : ∀ x ∈ before, P g x)
    (hmove : ∀ x y, move x g y g' → P g x → P g' y)
    (hstay : ∀ x y z, move x g y g' → key z ≠ key x → P g z → P g' z) :
    ∀ x ∈ after, P g' x := by
  cases h with
  | still htokens hbooks =>
    rw [htokens, hbooks]
    exact hbefore
  | moved x y rest hx hy hmoved =>
    subst hx hy
    obtain ⟨hself, hrest⟩ := forall_mem_cons.mp hbefore
    refine forall_mem_cons.mpr ⟨hmove x y hmoved hself, fun z hz => ?_⟩
    refine hstay x y z hmoved (fun heq => ?_) (hrest z hz)
    rw [map_cons, nodup_cons] at hkeys
    exact hkeys.1 (heq ▸ mem_map_of_mem key hz)

/-- What a move pays for by the weight of its token is bounded. -/
lemma Moved.sum_le (h : Moved move before g after g') (weight : α → Nat) (cost : γ → Nat)
    (hmove : ∀ x y, x ∈ before → move x g y g' → weight y + cost g' ≤ weight x + cost g) :
    (after.map weight).sum + cost g' ≤ (before.map weight).sum + cost g := by
  cases h with
  | still htokens hbooks => rw [htokens, hbooks]
  | moved x y rest hx hy hmoved =>
    subst hx hy
    have hle := hmove x y (mem_cons_self ..) hmoved
    rw [map_cons, map_cons, sum_cons, sum_cons]
    omega

end Tokens
