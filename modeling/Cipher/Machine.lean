import Mathlib.Data.List.Basic

/-!
# Sequential components and their runs

A component whose operations are serialised (by a lock, say) is a step
function: an operation and a state give a reply and a new state, whether
the reply is an error or not. A `Trace` is a finite run of it, with one
`Event` per operation, newest first.

`Trace.inv` is the induction that properties of whole runs go through.
The invariant may speak about the events so far, which is how a state is
compared with the history that led to it.
-/

namespace Machine

open List

/-- An operation, the state it was called in and the reply it gave. -/
structure Event (α σ β : Type) where
  op : α
  before : σ
  reply : β

variable {α σ β : Type}

inductive Trace (step : α → σ → β × σ) (s₀ : σ) : List (Event α σ β) → σ → Prop where
  | nil : Trace step s₀ [] s₀
  | snoc (h : Trace step s₀ evs s) (a : α) :
      Trace step s₀ (⟨a, s, (step a s).1⟩ :: evs) (step a s).2

variable {step : α → σ → β × σ} {s₀ s : σ}

/-- What every operation keeps holds after every run. -/
lemma Trace.inv {I : List (Event α σ β) → σ → Prop} (hinit : I [] s₀)
    (hstep : ∀ evs s a, I evs s → I (⟨a, s, (step a s).1⟩ :: evs) (step a s).2)
    {evs : List (Event α σ β)} (h : Trace step s₀ evs s) : I evs s := by
  induction h with
  | nil => exact hinit
  | snoc _ a ih => exact hstep _ _ a ih

/-- The events and the final state of a list of operations. -/
def run (step : α → σ → β × σ) (s₀ : σ) (ops : List α) : List (Event α σ β) × σ :=
  ops.foldl (fun r a => (⟨a, r.2, (step a r.2).1⟩ :: r.1, (step a r.2).2)) ([], s₀)

lemma trace_run (step : α → σ → β × σ) (s₀ : σ) (ops : List α) :
    Trace step s₀ (run step s₀ ops).1 (run step s₀ ops).2 := by
  have hfold : ∀ (ops : List α) (r : List (Event α σ β) × σ), Trace step s₀ r.1 r.2 →
      Trace step s₀ (ops.foldl (fun r a => (⟨a, r.2, (step a r.2).1⟩ :: r.1, (step a r.2).2)) r).1
        (ops.foldl (fun r a => (⟨a, r.2, (step a r.2).1⟩ :: r.1, (step a r.2).2)) r).2 := by
    intro ops
    induction ops with
    | nil => intro r h; exact h
    | cons a ops ih => intro r h; exact ih _ (h.snoc a)
  exact hfold ops _ .nil

/-- Every event of a run is one step from the run before it. -/
lemma Trace.split {post pre : List (Event α σ β)} {e : Event α σ β}
    (h : Trace step s₀ (post ++ e :: pre) s) :
    Trace step s₀ pre e.before ∧ e.reply = (step e.op e.before).1 := by
  induction post generalizing s with
  | nil =>
    cases h with
    | snoc h a => exact ⟨h, rfl⟩
  | cons e' post ih =>
    cases h with
    | snoc h a => exact ih h

/-- The run goes on from there. -/
lemma Trace.later {post pre : List (Event α σ β)} {e : Event α σ β}
    (h : Trace step s₀ (post ++ e :: pre) s) : Trace step (step e.op e.before).2 post s := by
  induction post generalizing s with
  | nil =>
    cases h with
    | snoc h a => exact .nil
  | cons e' post ih =>
    cases h with
    | snoc h a => exact (ih h).snoc a

/-! ## Numbered logs

A log has an entry or a gap at each place, and an entry knows its place. -/

/-- Entries stand one after the other in the log, with no gap in between,
exactly if their numbers do. -/
lemma infix_log_iff {α : Type} {log : List (Option α)} {number : α → Nat}
    (hlog : ∀ i a, log[i]? = some (some a) → number a = i + 1) {l : List α}
    (hmem : ∀ a ∈ l, some a ∈ log) :
    l.map some <:+: log ↔ l.IsChain fun a b => number b = number a + 1 := by
  constructor
  · intro hinfix
    obtain ⟨k, hlength, hat⟩ := infix_iff_getElem?.mp hinfix
    have hnumber (i : Nat) (hi : i < l.length) : number l[i] = i + k + 1 := by
      refine hlog _ _ ?_
      rw [hat i (by rwa [length_map]), getElem_map]
    refine isChain_iff_getElem.mpr fun i hi => ?_
    rw [hnumber i (by omega), hnumber (i + 1) hi]
    omega
  · intro hchain
    cases l with
    | nil => exact nil_infix
    | cons a rest =>
      obtain ⟨k, hk⟩ := mem_iff_getElem?.mp (hmem a (mem_cons_self ..))
      have hfirst := hlog k a hk
      have hnumber : ∀ (i : Nat) (hi : i < (a :: rest).length),
          number (a :: rest)[i] = i + k + 1 := by
        intro i
        induction i with
        | zero =>
          intro _
          rw [getElem_cons_zero, hfirst, Nat.zero_add]
        | succ i ih =>
          intro hi
          rw [isChain_iff_getElem.mp hchain i hi, ih (by omega)]
          omega
      have hat (i : Nat) (hi : i < (a :: rest).length) :
          log[i + k]? = some (some (a :: rest)[i]) := by
        obtain ⟨j, hj⟩ := mem_iff_getElem?.mp (hmem _ (getElem_mem hi))
        have hplace : j = i + k := by
          have := hlog j _ hj
          rw [hnumber i hi] at this
          omega
        rwa [hplace] at hj
      refine infix_iff_getElem?.mpr ⟨k, ?_, fun i hi => ?_⟩
      · have hlast := hat rest.length (by rw [length_cons]; omega)
        obtain ⟨hlt, -⟩ := List.getElem_of_getElem? hlast
        rw [length_map, length_cons]
        omega
      · rw [length_map] at hi
        rw [hat i hi, getElem_map]

end Machine
