import Mathlib.Tactic.Common

/-!
# Systems that take one action after the other

A system is a function from an action and a state to the next state; an
action that is not possible in a state has none. A `Run` is a finite
sequence of actions, each of which meets a condition in the state it is
taken in, so that runs of arbitrary actions and runs with a restriction
are the same thing. `Run.inv` is the induction over runs, and `execute`
makes concrete ones.

What is `Inevitably` so is so after finitely many actions, whichever are
taken, and as long as it is not there is one to take.
-/

namespace Transition

variable {σ α : Type} {step : α → σ → Option σ} {ok : α → σ → Prop} {s₀ s s' : σ}

inductive Run (step : α → σ → Option σ) (ok : α → σ → Prop) (s₀ : σ) : σ → Prop where
  | refl : Run step ok s₀ s₀
  | tail {s s' : σ} {a : α} (hr : Run step ok s₀ s) (hok : ok a s) (hstep : step a s = some s') :
      Run step ok s₀ s'

/-- What every action keeps holds along every run. -/
lemma Run.inv {I : σ → Prop} (hr : Run step ok s₀ s) (hinit : I s₀)
    (hkeep : ∀ a s s', ok a s → step a s = some s' → I s → I s') : I s := by
  induction hr with
  | refl => exact hinit
  | tail hr hok hstep ih => exact hkeep _ _ _ hok hstep ih

/-- The state after a list of actions. -/
def execute (step : α → σ → Option σ) : List α → σ → Option σ
  | [], s => some s
  | a :: as, s => (step a s).bind (execute step as)

lemma execute_append (as bs : List α) (s : σ) :
    execute step (as ++ bs) s = (execute step as s).bind (execute step bs) := by
  induction as generalizing s with
  | nil => rfl
  | cons a as ih =>
    rw [execute, Option.bind_assoc]
    exact congrArg _ (funext ih)

lemma Run.execute {as : List α} (hok : ∀ a ∈ as, ∀ s, ok a s) :
    ∀ {s : σ}, Run step ok s₀ s → execute step as s = some s' → Run step ok s₀ s' := by
  induction as with
  | nil =>
    intro s hr h
    cases h
    exact hr
  | cons a as ih =>
    intro s hr h
    obtain ⟨hfirst, hrest⟩ := List.forall_mem_cons.mp hok
    obtain ⟨s₁, hs₁, hexec⟩ := Option.bind_eq_some_iff.mp h
    exact ih hrest (.tail hr (hfirst s) hs₁) hexec

lemma Run.of_execute (as : List α) (h : Transition.execute step as s₀ = some s) :
    Run step (fun _ _ => True) s₀ s :=
  .execute (fun _ _ _ => trivial) .refl h

/-! ## What must happen -/

inductive Inevitably (step : α → σ → Option σ) (ok : α → σ → Prop) (P : σ → Prop) : σ → Prop where
  | now {s : σ} (h : P s) : Inevitably step ok P s
  | later {s : σ} (henabled : ∃ a s', ok a s ∧ step a s = some s')
      (hall : ∀ a s', ok a s → step a s = some s' → Inevitably step ok P s') :
      Inevitably step ok P s

/-- A measure that every action lowers, in a system that is never stuck. -/
lemma inevitably_of_measure {P I : σ → Prop} (measure : σ → Nat)
    (henabled : ∀ s, I s → ¬ P s → ∃ a s', ok a s ∧ step a s = some s')
    (hlower : ∀ a s s', I s → ok a s → step a s = some s' → I s' ∧ measure s' < measure s)
    {s : σ} (hs : I s) : Inevitably step ok P s := by
  induction hn : measure s using Nat.strongRecOn generalizing s with
  | _ n ih =>
    by_cases hP : P s
    · exact .now hP
    · refine .later (henabled s hs hP) fun a s' hok hstep => ?_
      obtain ⟨hs', hlt⟩ := hlower a s s' hs hok hstep
      exact ih _ (hn ▸ hlt) hs' rfl

end Transition
