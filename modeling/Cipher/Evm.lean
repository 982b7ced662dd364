import Mathlib.Algebra.BigOperators.Group.Finset.Piecewise
import Mathlib.Data.Fintype.BigOperators
import Mathlib.Logic.Relation
import Cipher.Bytes

/-!
# Contract calls that hand control away

The part of the EVM that the contracts of this development depend on,
independent of any particular contract.

A contract call is a `Prog`: it ends in a state, it reverts, or it
calls an outside account and continues once that account has returned.
While the outside account is in control it may call back, any number of
times and to any depth, and it may fail, which undoes everything that
happened since control was handed to it. `Config` is the call stack
that results, `Step` one move of it, `Run` a finite sequence of moves.

Reverted work leaves no trace, so a configuration carries only the calls
that are still in effect (`Point.past`), each with the state it was made
in. Properties of whole runs are predicates on such points, and
`Run.ok` is the one induction they all go through: a predicate indexed
by what the suspended calls still have to do.
-/

namespace Evm

open Function List Finset

/-! ## Machine words -/

abbrev Address := BitVec 160

abbrev Bytes32 := BitVec 256

instance fintypeBitVec (n : Nat) : Fintype (BitVec n) :=
  Fintype.ofEquiv (Fin (2 ^ n)) ⟨BitVec.ofFin, BitVec.toFin, fun _ => rfl, fun _ => rfl⟩

export Bytes (beNat)

/-- The 32 bytes of a `uint256`, most significant first. -/
def word (n : Nat) : List UInt8 := Bytes.beBytes 32 n

/-- `abi.encode` of values that each take one word. -/
def abiEncode (ns : List Nat) : List UInt8 := ns.flatMap word

/-- `a + b` on `uint64`: reverts instead of wrapping around. -/
def add64 (a b : Nat) : Option Nat := if a + b < 2 ^ 64 then some (a + b) else none

/-- `a + b` on `uint256`: reverts instead of wrapping around. -/
def add256 (a b : Nat) : Option Nat := if a + b < 2 ^ 256 then some (a + b) else none

/-- `a - b` on `uint256`: reverts instead of wrapping around. -/
def sub256 (a b : Nat) : Option Nat := if b ≤ a then some (a - b) else none

/-- `a * b` on `uint256`: reverts instead of wrapping around. -/
def mul256 (a b : Nat) : Option Nat := if a * b < 2 ^ 256 then some (a * b) else none

/-- Half the order of secp256k1, the largest `s` of a canonical signature. -/
def halfOrder : Nat := 0x7fffffffffffffffffffffffffffffff5d576e7357a4501ddfe92f46681b20a0

variable {a b n : Nat}

lemma add64_eq_some : add64 a b = some n ↔ a + b < 2 ^ 64 ∧ n = a + b := by
  unfold add64
  split <;> simp_all [eq_comm]

lemma add256_eq_some : add256 a b = some n ↔ a + b < 2 ^ 256 ∧ n = a + b := by
  unfold add256
  split <;> simp_all [eq_comm]

lemma add256_of_lt (h : a + b < 2 ^ 256) : add256 a b = some (a + b) := if_pos h

lemma sub256_eq_some : sub256 a b = some n ↔ b ≤ a ∧ n = a - b := by
  unfold sub256
  split <;> simp_all [eq_comm]

/-- Writing one entry of a mapping changes a sum over the mapping by that
entry alone. -/
lemma sum_update {κ β : Type} [Fintype κ] [DecidableEq κ] (f : β → Nat) (g : κ → β)
    (i : κ) (v : β) :
    ∑ j, f (update g i v j) + f (g i) = ∑ j, f (g j) + f v := by
  have hcomp : ∀ j, f (update g i v j) = update (fun j => f (g j)) i (f v) j := by
    intro j
    by_cases h : j = i
    · subst h; simp
    · simp [h]
  simp only [hcomp]
  rw [sum_update_of_mem (mem_univ i), ← erase_eq, ← add_sum_erase _ (fun j => f (g j)) (mem_univ i)]
  omega

/-! ## Programs -/

/-- The part of a transaction's environment a contract reads. -/
structure Msg where
  sender : Address
  value : Nat
  timestamp : Nat
  number : Nat
deriving DecidableEq, Repr

/-- A contract call, from its start or from where it was resumed. In
`call`, `entry` is the state the callee starts in, `before` the one that
is restored if it fails, and `k` the rest of the call, given whether the
callee succeeded and the state it left. -/
inductive Prog (σ ε : Type) where
  | done (s : σ)
  | revert (e : ε)
  | call (entry before : σ) (callee : Address) (k : Bool → σ → Prog σ ε)

variable {σ τ ε ε' α ι : Type}

/-- The result if every callee accepts and none of them calls back. -/
def Prog.accepted : Prog σ ε → Option σ
  | .done s => some s
  | .revert _ => none
  | .call entry _ _ k => (k true entry).accepted

/-- One piece of code after the other. -/
def Prog.bind : Prog σ ε → (σ → Prog σ ε) → Prog σ ε
  | .done s, k => k s
  | .revert e, _ => .revert e
  | .call entry before callee k', k => .call entry before callee fun sent s => (k' sent s).bind k

/-- A call of a contract whose state is a part of a larger one. The rest of
the state is whatever it is when control comes back. -/
def Prog.embed (get : τ → σ) (set : τ → σ → τ) (err : ε → ε') : τ → Prog σ ε → Prog τ ε'
  | t, .done s => .done (set t s)
  | _, .revert e => .revert (err e)
  | t, .call entry before callee k =>
    .call (set t entry) (set t before) callee fun sent t' =>
      (k sent (get t')).embed get set err t'

/-- What is left of a call once its payee has returned. -/
def Prog.afterCall (e : ε) (k : σ → Prog σ ε) (callSuccess : Bool) (s : σ) : Prog σ ε :=
  if !callSuccess then .revert e else k s

/-- `payable(payee).call{value: amount}("")` and the check of its result. The
contract has no receive function, so a transfer to itself fails like one
it cannot afford. -/
def Prog.pay (self payee : Address) (amount : Nat) (balance : σ → Nat) (debit : σ → Nat → σ)
    (e : ε) (s : σ) (k : σ → Prog σ ε) : Prog σ ε :=
  if payee = self ∨ balance s < amount then .revert e
  else .call (debit s amount) s payee (afterCall e k)

lemma Prog.pay_bind {self payee : Address} {amount : Nat} {balance : σ → Nat}
    {debit : σ → Nat → σ} {e : ε} {s : σ} {k f : σ → Prog σ ε} :
    (pay self payee amount balance debit e s k).bind f =
      pay self payee amount balance debit e s fun s => (k s).bind f := by
  unfold pay
  split
  · rfl
  · simp only [Prog.bind, Prog.call.injEq, true_and]
    funext callSuccess s
    cases callSuccess <;> rfl

variable {p : Prop} {e : ε} {prog : Prog σ ε} {k : σ → Prog σ ε}

/-- What is true of a revert is true of a program behind a check if it is
true of the program. -/
lemma Prog.guard {motive : Prog σ ε → Prop} (hrevert : ∀ e, motive (.revert e)) [Decidable p]
    (h : ¬p → motive prog) : motive (if p then .revert e else prog) := by
  by_cases hp : p
  · rw [if_pos hp]
    exact hrevert e
  · rw [if_neg hp]
    exact h hp

lemma Prog.guard_bind {motive : Prog σ ε → Prop} (hrevert : ∀ e, motive (.revert e)) [Decidable p]
    (h : ¬p → motive (prog.bind k)) : motive (Prog.bind (if p then .revert e else prog) k) :=
  Prog.guard (motive := fun prog => motive (prog.bind k)) hrevert h

/-- `prog` makes its checks and goes on as `result`; it reverts exactly if
`P` fails. -/
def Prog.Checks (P : Prop) (result prog : Prog σ ε) : Prop :=
  (P ∧ prog = result) ∨ (¬P ∧ ∃ e, prog = .revert e)

section Checks

variable {P : Prop} {result prog : Prog σ ε}

lemma Prog.Checks.pass (h : P) : Checks P result result := .inl ⟨h, rfl⟩

lemma Prog.Checks.fail {e : ε} (h : ¬P) : Checks P result (.revert e) := .inr ⟨h, e, rfl⟩

lemma Prog.Checks.eq (h : Checks P result prog) (hP : P) : prog = result := by
  rcases h with ⟨-, heq⟩ | ⟨hnot, -⟩
  · exact heq
  · exact absurd hP hnot

lemma Prog.Checks.of_ne_revert (h : Checks P result prog) (hne : ∀ e, prog ≠ .revert e) : P := by
  rcases h with ⟨hP, -⟩ | ⟨-, e, heq⟩
  · exact hP
  · exact absurd heq (hne e)

/-- What is true of a revert is true of `prog` if it is true of `result`. -/
lemma Prog.Checks.elim {motive : Prog σ ε → Prop} (h : Checks P result prog)
    (hrevert : ∀ e, motive (.revert e)) (hresult : P → motive result) : motive prog := by
  rcases h with ⟨hP, rfl⟩ | ⟨-, e, rfl⟩
  · exact hresult hP
  · exact hrevert e

/-- What cannot be met reverts. -/
lemma Prog.Checks.reverts (h : Checks P result prog) (hnot : ¬P) : ∃ e, prog = .revert e := by
  rcases h with ⟨hP, -⟩ | ⟨-, hrevert⟩
  · exact absurd hP hnot
  · exact hrevert

variable {p q : Prop} {e : ε}

lemma Prog.Checks.guard [Decidable p] (hp : P → ¬p) (h : ¬p → Checks P result prog) :
    Checks P result (if p then .revert e else prog) := by
  by_cases hcase : p
  · rw [if_pos hcase]
    exact .fail fun hP => hp hP hcase
  · rw [if_neg hcase]
    exact h hcase

lemma Prog.Checks.guard_bind [Decidable p] {k : σ → Prog σ ε} (hp : P → ¬p)
    (h : ¬p → Checks P result (prog.bind k)) :
    Checks P result (Prog.bind (if p then .revert e else prog) k) := by
  have hbind : Prog.bind (if p then .revert e else prog) k
      = if p then .revert e else prog.bind k := by
    split <;> rfl
  rw [hbind]
  exact .guard hp h

/-- Arithmetic that reverts if it has no result. -/
lemma Prog.Checks.checked {β : Type} {f : β → Option Nat} {x : β} {a : Nat} {k : Nat → Prog σ ε}
    (hf : ∀ {n : Nat}, f x = some n ↔ q ∧ n = a) (hq : P → q) (h : q → Checks P result (k a)) :
    Checks P result (match f x with | none => .revert e | some n => k n) := by
  split
  · rename_i hnone
    exact .fail fun hP => nomatch hnone.symm.trans (hf.mpr ⟨hq hP, rfl⟩)
  · rename_i n hsome
    obtain ⟨hq, rfl⟩ := hf.mp hsome
    exact h hq

lemma Prog.Checks.checked_bind {β : Type} {f : β → Option Nat} {x : β} {a : Nat}
    {k : Nat → Prog σ ε} {k' : σ → Prog σ ε} (hf : ∀ {n : Nat}, f x = some n ↔ q ∧ n = a)
    (hq : P → q) (h : q → Checks P result ((k a).bind k')) :
    Checks P result (Prog.bind (match f x with | none => .revert e | some n => k n) k') := by
  have hbind : Prog.bind (match f x with | none => .revert e | some n => k n) k'
      = match f x with | none => .revert e | some n => (k n).bind k' := by
    split <;> rfl
  rw [hbind]
  exact .checked hf hq h

/-- The checks of a payment. -/
structure Affordable (sender payee : Address) (amount balance : Nat) : Prop where
  payee : payee ≠ sender
  funded : amount ≤ balance

lemma Prog.Checks.pay {self payee : Address} {amount : Nat} {balance : σ → Nat}
    {debit : σ → Nat → σ} {s : σ} {k : σ → Prog σ ε}
    (hp : P → Affordable self payee amount (balance s))
    (h : Affordable self payee amount (balance s) →
      Checks P result (.call (debit s amount) s payee (afterCall e k))) :
    Checks P result (pay self payee amount balance debit e s k) := by
  refine .guard (fun hP => not_or.mpr ⟨(hp hP).payee, not_lt.mpr (hp hP).funded⟩) fun hfails => ?_
  obtain ⟨hpayee, hbalance⟩ := not_or.mp hfails
  exact h ⟨hpayee, not_lt.mp hbalance⟩

/-- A check made first. -/
lemma Prog.Checks.and [Decidable p] (hq : q ↔ ¬p) (h : Checks P result prog) :
    Checks (q ∧ P) result (if p then .revert e else prog) := by
  refine .guard (fun hqP => hq.mp hqP.1) fun hp => ?_
  rcases h with ⟨hP, rfl⟩ | ⟨hP, e', rfl⟩
  · exact .pass ⟨hq.mpr hp, hP⟩
  · exact .fail fun hqP => hP hqP.2

lemma Prog.Checks.embed {get : τ → σ} {set : τ → σ → τ} {err : ε → ε'} {t : τ}
    (h : Checks P result prog) :
    Checks P (result.embed get set err t) (prog.embed get set err t) := by
  rcases h with ⟨hP, rfl⟩ | ⟨hP, e, rfl⟩
  · exact .inl ⟨hP, rfl⟩
  · exact .inr ⟨hP, err e, rfl⟩

end Checks

/-- What a call does itself, from where it gets control to where it ends or
hands control over, is in `R`. What callees do is not looked at. -/
def Prog.Own (R : σ → σ → Prop) : σ → Prog σ ε → Prop
  | s, .done s' => R s s'
  | _, .revert _ => True
  | s, .call entry before _ k => R s entry ∧ R s before ∧ ∀ sent s', (k sent s').Own R s'

variable {R : σ → σ → Prop}

/-- A check that reverts. -/
lemma Prog.Own.guard {s : σ} [Decidable p] (h : ¬p → prog.Own R s) :
    (if p then .revert e else prog : Prog σ ε).Own R s :=
  Prog.guard (motive := fun prog => prog.Own R s) (fun _ => trivial) h

lemma Prog.Checks.own {P : Prop} {result : Prog σ ε} {s : σ} (h : Checks P result prog)
    (hresult : P → result.Own R s) : prog.Own R s :=
  h.elim (motive := fun prog => prog.Own R s) (fun _ => trivial) hresult

lemma Prog.Own.mono {R' : σ → σ → Prop} (hR : ∀ s s', R s s' → R' s s') :
    ∀ {s : σ}, prog.Own R s → prog.Own R' s := by
  induction prog with
  | done s' => intro s h; exact hR s s' h
  | revert e => intro s h; trivial
  | call entry before callee k ih =>
    rintro s ⟨hentry, hbefore, hk⟩
    exact ⟨hR s entry hentry, hR s before hbefore, fun sent s' => ih sent s' (hk sent s')⟩

section Own

variable {R : σ → σ → Prop} (htrans : ∀ a b c, R a b → R b c → R a c)

include htrans

/-- A stretch may start earlier. -/
lemma Prog.Own.after {s s' : σ} (hs : R s s') {prog : Prog σ ε} (h : prog.Own R s') :
    prog.Own R s := by
  cases prog with
  | done s'' => exact htrans _ _ _ hs h
  | revert e => trivial
  | call entry before callee k =>
    obtain ⟨hentry, hbefore, hk⟩ := h
    exact ⟨htrans _ _ _ hs hentry, htrans _ _ _ hs hbefore, hk⟩

lemma Prog.Own.bind {k : σ → Prog σ ε} (hk : ∀ s, (k s).Own R s) {prog : Prog σ ε} :
    ∀ {s : σ}, prog.Own R s → (prog.bind k).Own R s := by
  induction prog with
  | done s' => intro s h; exact Own.after htrans h (hk s')
  | revert e => intro s h; trivial
  | call entry before callee k' ih =>
    rintro s ⟨hentry, hbefore, hk'⟩
    exact ⟨hentry, hbefore, fun sent s' => ih sent s' (hk' sent s')⟩

end Own

/-- A call of another contract writes that contract's part of the state. -/
lemma own_embed {R : τ → τ → Prop} {get : τ → σ} {set : τ → σ → τ} {err : ε → ε'}
    (hset : ∀ t s, R t (set t s)) : ∀ {t : τ}, (prog.embed get set err t).Own R t := by
  induction prog with
  | done s => intro t; exact hset t s
  | revert e => intro t; trivial
  | call entry before callee k ih =>
    intro t
    exact ⟨hset .., hset .., fun sent t' => ih sent (get t')⟩

/-- What a called contract's own stretches do, seen from outside. -/
lemma Prog.Own.embed {R' : τ → τ → Prop} {get : τ → σ} {set : τ → σ → τ} {err : ε → ε'}
    (hset : ∀ t s, R (get t) s → R' t (set t s)) :
    ∀ {t : τ}, prog.Own R (get t) → (prog.embed get set err t).Own R' t := by
  induction prog with
  | done s => intro t h; exact hset t s h
  | revert e => intro t h; trivial
  | call entry before callee k ih =>
    rintro t ⟨hentry, hbefore, hk⟩
    exact ⟨hset t entry hentry, hset t before hbefore,
      fun sent t' => ih sent (get t') (hk sent (get t'))⟩

/-! ## Configurations -/

/-- A state together with the calls in effect, newest first, each with the
state in which it was made. -/
structure Point (σ α : Type) where
  state : σ
  past : List (α × σ)

/-- A call waiting for its callee: where it started, where its callee's
failure leads back to, and how it goes on. -/
structure Frame (σ ε α : Type) where
  start : Point σ α
  before : Point σ α
  callee : Address
  k : Bool → σ → Prog σ ε

/-- An entry of the call stack: a suspended call of the contract, or a
call among outside accounts, which may also be undone. -/
inductive Pending (σ ε α : Type) where
  | contract (f : Frame σ ε α)
  | foreign (p : Point σ α)

def Pending.IsForeign : Pending σ ε α → Prop
  | .contract _ => False
  | .foreign _ => True

structure Config (σ ε α : Type) where
  now : Point σ α
  stack : List (Pending σ ε α)

/-- No call of the contract is in progress. -/
def Config.Idle (c : Config σ ε α) : Prop := ∀ x ∈ c.stack, x.IsForeign

/-- The configuration a call leads to that started at `start` and goes on
with the given program. -/
def resume (start : Point σ α) (past : List (α × σ)) (st : List (Pending σ ε α)) :
    Prog σ ε → Config σ ε α
  | .done s => ⟨⟨s, past⟩, st⟩
  | .revert _ => ⟨start, st⟩
  | .call entry before callee k =>
    ⟨⟨entry, past⟩, .contract ⟨start, ⟨before, past⟩, callee, k⟩ :: st⟩

section Steps

variable (exec : α → σ → Prog σ ε) (adm : α → Point σ α → Prop)

/-- One move of the call stack. `adm` restricts the calls that are made;
it is `fun _ _ => True` for a run of arbitrary calls. -/
inductive Step : Config σ ε α → Config σ ε α → Prop where
  | invoke (a : α) (c : Config σ ε α) (h : adm a c.now) :
      Step c (resume c.now ((a, c.now.state) :: c.now.past) c.stack (exec a c.now.state))
  | accept (p : Point σ α) (f : Frame σ ε α) (st : List (Pending σ ε α)) :
      Step ⟨p, .contract f :: st⟩ (resume f.start p.past st (f.k true p.state))
  | reject (p : Point σ α) (f : Frame σ ε α) (st : List (Pending σ ε α)) :
      Step ⟨p, .contract f :: st⟩ (resume f.start f.before.past st (f.k false f.before.state))
  | abort (p : Point σ α) (f : Frame σ ε α) (st : List (Pending σ ε α)) :
      Step ⟨p, .contract f :: st⟩ ⟨f.start, st⟩
  | enter (c : Config σ ε α) : Step c ⟨c.now, .foreign c.now :: c.stack⟩
  | leave (p q : Point σ α) (st : List (Pending σ ε α)) :
      Step ⟨p, .foreign q :: st⟩ ⟨p, st⟩
  | rollback (p q : Point σ α) (st : List (Pending σ ε α)) :
      Step ⟨p, .foreign q :: st⟩ ⟨q, st⟩

abbrev Run := Relation.ReflTransGen (Step exec adm)

end Steps

/-! ## The invariant rule

`J i p` says that `p` is in order while the suspended calls still have
`i` to do. `Ensures J Q past prog` says that a program ends in `Q`,
provided each callee leaves the outstanding work it was entered with;
`Keeps J i` that it ends with the work outstanding that it started
with. -/

def Ensures (J : ι → Point σ α → Prop) (Q : Point σ α → Prop) :
    List (α × σ) → Prog σ ε → Prop
  | past, .done s => Q ⟨s, past⟩
  | _, .revert _ => True
  | past, .call entry before _ k =>
    Ensures J Q past (k false before)
      ∧ ∃ j, J j ⟨entry, past⟩ ∧ ∀ p, J j p → Ensures J Q p.past (k true p.state)

abbrev Keeps (J : ι → Point σ α → Prop) (i : ι) (past : List (α × σ)) (prog : Prog σ ε) : Prop :=
  Ensures J (J i) past prog

variable {P : Point σ α → Prop} {J : ι → Point σ α → Prop}

/-- A property that the own stretches of a call keep, and that holds
whenever a callee returns, holds when the call ends. -/
lemma Prog.Own.ensures (hR : ∀ s s' past, R s s' → P ⟨s, past⟩ → P ⟨s', past⟩) :
    ∀ {s : σ} {past : List (α × σ)}, prog.Own R s → P ⟨s, past⟩ →
      Ensures (fun (_ : Unit) => P) P past prog := by
  induction prog with
  | done s' => intro s past h hs; exact hR s s' past h hs
  | revert e => intro s past h hs; trivial
  | call entry before callee k ih =>
    rintro s past ⟨hentry, hbefore, hk⟩ hs
    have hfail := hR s before past hbefore hs
    exact ⟨ih false before (hk ..) hfail, (), hR s entry past hentry hs,
      fun p hp => ih true p.state (hk true p.state) hp⟩

/-- The second piece starts where the first one ends. -/
lemma Ensures.bind {Q Q' : Point σ α → Prop} (hk : ∀ p, Q p → Ensures J Q' p.past (k p.state)) :
    ∀ {past : List (α × σ)}, Ensures J Q past prog → Ensures J Q' past (prog.bind k) := by
  induction prog with
  | done s => intro past h; exact hk _ h
  | revert e => intro past h; trivial
  | call entry before callee k' ih =>
    rintro past ⟨hfalse, j, hj, htrue⟩
    exact ⟨ih false before hfalse, j, hj, fun p hp => ih true p.state (htrue p hp)⟩

/-- The stack is in order below a configuration with `i` outstanding; `i₀`
is what is outstanding when no call is in progress. -/
def StackOk (J : ι → Point σ α → Prop) (i₀ : ι) : ι → List (Pending σ ε α) → Prop
  | i, [] => i = i₀
  | i, .foreign q :: st => J i q ∧ StackOk J i₀ i st
  | j, .contract f :: st =>
    ∃ i, J i f.start ∧ Keeps J i f.before.past (f.k false f.before.state)
      ∧ (∀ p, J j p → Keeps J i p.past (f.k true p.state)) ∧ StackOk J i₀ i st

def Config.Ok (J : ι → Point σ α → Prop) (i₀ : ι) (c : Config σ ε α) : Prop :=
  ∃ i, J i c.now ∧ StackOk J i₀ i c.stack

variable {i₀ : ι}

lemma resume_ok {i : ι} {start : Point σ α} {past : List (α × σ)} {st : List (Pending σ ε α)}
    (hstart : J i start) (hst : StackOk J i₀ i st) (hk : Keeps J i past prog) :
    (resume start past st prog).Ok J i₀ := by
  cases prog with
  | done s => exact ⟨i, hk, hst⟩
  | revert e => exact ⟨i, hstart, hst⟩
  | call entry before callee k =>
    obtain ⟨hfalse, j, hj, htrue⟩ := hk
    exact ⟨j, hj, i, hstart, hfalse, htrue, hst⟩

variable {exec : α → σ → Prog σ ε} {adm : α → Point σ α → Prop} {c c' : Config σ ε α}

section

variable (hexec : ∀ i p a, adm a p → J i p → Keeps J i ((a, p.state) :: p.past) (exec a p.state))

include hexec

lemma Step.ok (hs : Step exec adm c c') (h : c.Ok J i₀) : c'.Ok J i₀ := by
  cases hs with
  | invoke a c ha =>
    obtain ⟨i, hnow, hst⟩ := h
    exact resume_ok hnow hst (hexec i c.now a ha hnow)
  | accept p f st =>
    obtain ⟨j, hnow, i, hstart, -, htrue, hst⟩ := h
    exact resume_ok hstart hst (htrue p hnow)
  | reject p f st =>
    obtain ⟨j, hnow, i, hstart, hfalse, -, hst⟩ := h
    exact resume_ok hstart hst hfalse
  | abort p f st =>
    obtain ⟨j, hnow, i, hstart, -, -, hst⟩ := h
    exact ⟨i, hstart, hst⟩
  | enter c =>
    obtain ⟨i, hnow, hst⟩ := h
    exact ⟨i, hnow, hnow, hst⟩
  | leave p q st =>
    obtain ⟨i, hnow, -, hst⟩ := h
    exact ⟨i, hnow, hst⟩
  | rollback p q st =>
    obtain ⟨i, -, hq, hst⟩ := h
    exact ⟨i, hq, hst⟩

/-- **The invariant rule.** What every call keeps holds along every run,
re-entrant calls and undone calls included. -/
theorem Run.ok (hr : Run exec adm c c') (h : c.Ok J i₀) : c'.Ok J i₀ := by
  induction hr with
  | refl => exact h
  | tail _ hs ih => exact hs.ok hexec ih

end

/-- The rule for a property that holds whatever is outstanding. -/
lemma Run.always (hexec : ∀ p a, adm a p → P p →
      Ensures (fun (_ : Unit) => P) P ((a, p.state) :: p.past) (exec a p.state))
    (hr : Run exec adm c c') (hstack : c.stack = []) (h : P c.now) : P c'.now := by
  have hok : c'.Ok (fun (_ : Unit) => P) () :=
    Run.ok (fun _ p a ha hp => hexec p a ha hp) hr ⟨(), h, by rw [hstack]; rfl⟩
  obtain ⟨-, hp, -⟩ := hok
  exact hp

lemma StackOk.idle : ∀ {i : ι} {st : List (Pending σ ε α)}, StackOk J i₀ i st →
      (∀ x ∈ st, x.IsForeign) → i = i₀
  | _, [], h, _ => h
  | _, .foreign _ :: _, h, hf => h.2.idle fun x hx => hf x (mem_cons_of_mem _ hx)
  | _, .contract _ :: _, _, hf => (hf _ (mem_cons_self ..)).elim

/-- Between calls nothing is outstanding. -/
lemma Config.Ok.idle (h : c.Ok J i₀) (hidle : c.Idle) : J i₀ c.now := by
  obtain ⟨i, hnow, hst⟩ := h
  rw [← hst.idle hidle]
  exact hnow

/-! ## The calls in effect -/

/-- Every call in effect was made in a state with `P`, and did not revert. -/
def InEffect (exec : α → σ → Prog σ ε) (P : Point σ α → Prop) : List (α × σ) → Prop
  | [] => True
  | (a, s) :: past => P ⟨s, past⟩ ∧ (∀ e, exec a s ≠ .revert e) ∧ InEffect exec P past

lemma InEffect.of_append {r : α × σ} {earlier later : List (α × σ)}
    (h : InEffect exec P (later ++ r :: earlier)) :
    P ⟨r.2, earlier⟩ ∧ ∀ e, exec r.1 r.2 ≠ .revert e := by
  induction later with
  | nil =>
    obtain ⟨hP, hdone, -⟩ := h
    exact ⟨hP, hdone⟩
  | cons x later ih =>
    obtain ⟨-, -, hpast⟩ := h
    exact ih hpast

lemma InEffect.of_mem {past : List (α × σ)} (h : InEffect exec P past) {r : α × σ}
    (hr : r ∈ past) : ∃ earlier, P ⟨r.2, earlier⟩ ∧ ∀ e, exec r.1 r.2 ≠ .revert e := by
  obtain ⟨later, earlier, rfl⟩ := append_of_mem hr
  exact ⟨earlier, h.of_append⟩

/-- A property of the calls in effect can be carried along. -/
lemma Ensures.and_past {Q : List (α × σ) → Prop} :
    ∀ {past : List (α × σ)}, Ensures (fun (_ : Unit) => P) P past prog → Q past →
      Ensures (fun (_ : Unit) (p : Point σ α) => P p ∧ Q p.past) (fun p => P p ∧ Q p.past)
        past prog := by
  induction prog with
  | done s => intro past h hpast; exact ⟨h, hpast⟩
  | revert e => intro past h hpast; trivial
  | call entry before callee k ih =>
    rintro past ⟨hfalse, j, hj, htrue⟩ hpast
    exact ⟨ih false before hfalse hpast, j, ⟨hj, hpast⟩,
      fun p hp => ih true p.state (htrue p hp.1) hp.2⟩

/-- The rule for a property that holds whatever is outstanding, with the
calls in effect. -/
lemma Run.inEffect (hexec : ∀ p a, adm a p → P p →
      Ensures (fun (_ : Unit) => P) P ((a, p.state) :: p.past) (exec a p.state))
    (hr : Run exec adm c c') (hstack : c.stack = []) (hpast : c.now.past = []) (h : P c.now) :
    P c'.now ∧ InEffect exec P c'.now.past := by
  refine Run.always (P := fun p => P p ∧ InEffect exec P p.past) ?_ hr hstack ⟨h, ?_⟩
  · rintro p a ha ⟨hp, heffect⟩
    by_cases hrevert : ∃ e, exec a p.state = .revert e
    · obtain ⟨e, heq⟩ := hrevert
      rw [heq]
      trivial
    · exact (hexec p a ha hp).and_past ⟨hp, not_exists.mp hrevert, heffect⟩
  · rw [hpast]
    trivial

/-- What the own stretches of calls do to the state, they have done since
any call in effect. -/
lemma Run.since (hrefl : ∀ s, R s s) (htrans : ∀ a b c, R a b → R b c → R a c)
    (hown : ∀ a s, (exec a s).Own R s) (hr : Run exec adm c c') (hstack : c.stack = [])
    (hpast : c.now.past = []) :
    (∀ r ∈ c'.now.past, R r.2 c'.now.state)
      ∧ InEffect exec (fun p => ∀ r ∈ p.past, R r.2 p.state) c'.now.past := by
  refine Run.inEffect (P := fun p => ∀ r ∈ p.past, R r.2 p.state) (fun p a _ hp => ?_)
    hr hstack hpast ?_
  · refine (hown ..).ensures (fun s s' past hs h r hr => htrans _ _ _ (h r hr) hs) ?_
    exact forall_mem_cons.mpr ⟨hrefl p.state, hp⟩
  · rw [hpast]
    exact fun r hr => by cases hr

/-! ## Calls that are not interrupted -/

/-- A call whose callees all accept and do not call back leads from one
idle configuration to the next. -/
lemma run_of_accepted {p : Point σ α} {st : List (Pending σ ε α)} {a : α} {s' : σ} (ha : adm a p)
    (h : (exec a p.state).accepted = some s') :
    Run exec adm ⟨p, st⟩ ⟨⟨s', (a, p.state) :: p.past⟩, st⟩ := by
  have key : ∀ (prog : Prog σ ε) (past : List (α × σ)), prog.accepted = some s' →
      Run exec adm (resume p past st prog) ⟨⟨s', past⟩, st⟩ := by
    intro prog
    induction prog with
    | done s =>
      intro past h
      cases h
      exact .refl
    | revert e => intro past h; cases h
    | call entry before callee k ih =>
      intro past h
      exact .head (.accept ..) (ih true entry past h)
  exact .head (.invoke a _ ha) (key _ _ h)

/-- Calls made one after the other, each accepted by its callees. -/
inductive Calls (exec : α → σ → Prog σ ε) (adm : α → Point σ α → Prop) :
    Point σ α → List α → Point σ α → Prop where
  | nil (p : Point σ α) : Calls exec adm p [] p
  | cons {p q : Point σ α} {a : α} {as : List α} {s' : σ} (ha : adm a p)
      (h : (exec a p.state).accepted = some s')
      (hrest : Calls exec adm ⟨s', (a, p.state) :: p.past⟩ as q) : Calls exec adm p (a :: as) q

/-- The calls one after the other, if each is admitted and accepted. -/
def acceptedAll (exec : α → σ → Prog σ ε) (adm : α → Point σ α → Prop)
    [∀ a p, Decidable (adm a p)] : List α → Point σ α → Option (Point σ α)
  | [], p => some p
  | a :: as, p =>
    if adm a p then (exec a p.state).accepted.bind fun s' =>
      acceptedAll exec adm as ⟨s', (a, p.state) :: p.past⟩
    else none

lemma calls_of_accepted {exec : α → σ → Prog σ ε} {adm : α → Point σ α → Prop}
    [∀ a p, Decidable (adm a p)] {q : Point σ α} : ∀ {as : List α} {p : Point σ α},
    acceptedAll exec adm as p = some q → Calls exec adm p as q
  | [], _, h => by
    cases h
    exact .nil _
  | _ :: _, _, h => by
    obtain ⟨hadm, h⟩ := Option.ite_none_right_eq_some.mp h
    obtain ⟨s', haccepted, hrest⟩ := Option.bind_eq_some_iff.mp h
    exact .cons hadm haccepted (calls_of_accepted hrest)

/-- Restrictions that do not depend on the state can be checked afterwards. -/
lemma Calls.restrict {p q : Point σ α} {as : List α} (h : Calls exec (fun _ _ => True) p as q)
    (hadm : ∀ a ∈ as, ∀ p, adm a p) : Calls exec adm p as q := by
  induction h with
  | nil p => exact .nil p
  | cons _ h _ ih =>
    obtain ⟨hfirst, hrest⟩ := forall_mem_cons.mp hadm
    exact .cons (hfirst _) h (ih hrest)

lemma Calls.run {exec : α → σ → Prog σ ε} {adm : α → Point σ α → Prop} {p q : Point σ α}
    {as : List α} (h : Calls exec adm p as q) (st : List (Pending σ ε α)) :
    Run exec adm ⟨p, st⟩ ⟨q, st⟩ := by
  induction h with
  | nil p => exact .refl
  | cons ha h _ ih => exact (run_of_accepted ha h).trans ih

lemma Run.of_accepted {exec : α → σ → Prog σ ε} {adm : α → Point σ α → Prop}
    [∀ a p, Decidable (adm a p)] {p q : Point σ α} (as : List α)
    (h : acceptedAll exec adm as p = some q) : Run exec adm ⟨p, []⟩ ⟨q, []⟩ :=
  (calls_of_accepted h).run []

/-! ## Two systems side by side

Callees that do not call back accept a payment or refuse it. A call then
has one outcome, so two systems can be compared call by call. -/

/-- How a call ends if no callee calls back: the state, and the payments
that were accepted. It is `none` for a revert. -/
def Prog.outcome (accepts : Address → Bool) (balance : σ → Nat) :
    Prog σ ε → Option (σ × List (Address × Nat))
  | .done s => some (s, [])
  | .revert _ => none
  | .call entry before callee k =>
    if accepts callee then
      ((k true entry).outcome accepts balance).map fun r =>
        (r.1, (callee, balance before - balance entry) :: r.2)
    else (k false before).outcome accepts balance

/-- Both fail, or both succeed with the same result and in related states. -/
abbrev Agree {β : Type} (R : σ → τ → Prop) : Option (σ × β) → Option (τ × β) → Prop :=
  Option.Rel fun x y => R x.1 y.1 ∧ x.2 = y.2

section Agree

variable {R : σ → τ → Prop} {P P' : Prop} {accepts : Address → Bool} {balance : σ → Nat}
  {balance' : τ → Nat} {prog : Prog σ ε} {prog' : Prog τ ε'}

lemma Prog.Checks.outcome_eq_none {result : Prog σ ε} (h : Checks P result prog)
    (hresult : P → result.outcome accepts balance = none) :
    prog.outcome accepts balance = none := by
  rcases h with ⟨hP, rfl⟩ | ⟨-, e, rfl⟩
  · exact hresult hP
  · rfl

/-- Two calls that make the same checks agree if they agree afterwards. -/
lemma Prog.Checks.agree {result : Prog σ ε} {result' : Prog τ ε'} (h : Checks P result prog)
    (h' : Checks P' result' prog') (hP : P ↔ P')
    (hresult : P → Agree R (result.outcome accepts balance) (result'.outcome accepts balance')) :
    Agree R (prog.outcome accepts balance) (prog'.outcome accepts balance') := by
  rcases h with ⟨hpass, rfl⟩ | ⟨hfail, e, rfl⟩
  · rw [h'.eq (hP.mp hpass)]
    exact hresult hpass
  · rcases h' with ⟨hpass, -⟩ | ⟨-, e', rfl⟩
    · exact absurd (hP.mpr hpass) hfail
    · exact .none

/-- Two calls that check, pay and end. Their checks need to agree only for
a payee that accepts, as the calls fail if the payee refuses. -/
lemma Prog.Checks.agree_of_payment {entry before : σ} {entry' before' : τ} {payee : Address}
    {k : Bool → σ → Prog σ ε} {k' : Bool → τ → Prog τ ε'} {s : σ} {t : τ} {e : ε} {e' : ε'}
    (h : Checks P (.call entry before payee k) prog)
    (h' : Checks P' (.call entry' before' payee k') prog')
    (hfail : k false before = .revert e) (hfail' : k' false before' = .revert e')
    (hend : k true entry = .done s) (hend' : k' true entry' = .done t)
    (hP : accepts payee = true → (P ↔ P'))
    (hpaid : P → balance before - balance entry = balance' before' - balance' entry')
    (hR : P → R s t) :
    Agree R (prog.outcome accepts balance) (prog'.outcome accepts balance') := by
  cases haccepts : accepts payee with
  | false =>
    rw [h.outcome_eq_none fun _ => by simp [outcome, haccepts, hfail],
      h'.outcome_eq_none fun _ => by simp [outcome, haccepts, hfail']]
    exact .none
  | true =>
    refine h.agree h' (hP haccepts) fun hpass => ?_
    simp only [outcome, haccepts, if_true, hend, hend', Option.map_some]
    exact .some ⟨hR hpass, by rw [hpaid hpass]⟩

end Agree

/-- Calls one after the other: what each of them yields, and the state in
the end. A failed call leaves the state as it is. -/
def replay {β : Type} (step : α → σ → Option (σ × β)) : List α → σ → List (Option β) × σ
  | [], s => ([], s)
  | a :: as, s =>
    match step a s with
    | none => (none :: (replay step as s).1, (replay step as s).2)
    | some (s', r) => (some r :: (replay step as s').1, (replay step as s').2)

/-- **Lockstep.** Systems that agree on every call yield the same on every
sequence of calls and stay related. -/
theorem replay_agree {β : Type} {R : σ → τ → Prop} {step : α → σ → Option (σ × β)}
    {step' : α → τ → Option (τ × β)} {as : List α}
    (hstep : ∀ a ∈ as, ∀ s t, R s t → Agree R (step a s) (step' a t)) :
    ∀ {s : σ} {t : τ}, R s t → (replay step as s).1 = (replay step' as t).1
        ∧ R (replay step as s).2 (replay step' as t).2 := by
  induction as with
  | nil => intro s t h; exact ⟨rfl, h⟩
  | cons a as ih =>
    intro s t h
    obtain ⟨hfirst, hrest⟩ := forall_mem_cons.mp hstep
    have hagree := hfirst s t h
    unfold replay
    generalize step a s = x at hagree ⊢
    generalize step' a t = y at hagree ⊢
    cases hagree with
    | none =>
      obtain ⟨hyields, hend⟩ := ih hrest h
      exact ⟨congrArg (none :: ·) hyields, hend⟩
    | @some x y hxy =>
      obtain ⟨hyields, hend⟩ := ih hrest hxy.1
      exact ⟨congrArg₂ _ (congrArg some hxy.2) hyields, hend⟩

end Evm
