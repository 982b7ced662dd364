import Mathlib.Algebra.Order.BigOperators.Group.Finset
import Cipher.ProviderRegistry

/-!
# The accounts of the provider registry

Every wei in the registry is somebody's stake or has been slashed, and
what a provider withdraws is what one earlier request of theirs fixed.
`Outcome` lists what a call can come to, the invariant is proved about it
once, and both the accounting and the end of the unbonding period are
read off.
-/

namespace Cipher.ProviderRegistry

open Evm

/-! ## What a call does -/

/-- The amount that a request fixes. -/
def requested (tx : Tx) (w : World) : Option Nat :=
  match tx.call with
  | .requestUnstake => some (w.providers tx.msg.sender).stake
  | .requestPartialUnstake amount => some amount
  | _ => none

/-- What a call does that ends at once. -/
inductive Effect (tx : Tx) (w : World) : World → Prop where
  | admin (hcall : tx.call ≠ .withdrawStake) (hnone : requested tx w = none)
      : Effect tx w { w with authorizedSlashers := slashers }
  | register (hcall : tx.call = .registerProvider)
      (hmin : minProviderStake ≤ (w.providers tx.msg.sender).stake + tx.msg.value) :
      Effect tx w (((w.credit tx.msg.value).setProvider tx.msg.sender
        { w.providers tx.msg.sender with
          stake := (w.providers tx.msg.sender).stake + tx.msg.value, registered := true }).emit
        (.providerRegistered tx.msg.sender
          ((w.providers tx.msg.sender).stake + tx.msg.value)))
  | request {amount : Nat} (hamount : requested tx w = some amount)
      (hregistered : (w.providers tx.msg.sender).registered = true)
      (hpos : (w.providers tx.msg.sender).stake ≠ 0 → amount ≠ 0) :
      Effect tx w ((w.setProvider tx.msg.sender
        { w.providers tx.msg.sender with
          pendingUnstakeAmount := amount
          unstakeReleaseBlock := tx.msg.number + unbondingPeriod }).emit
        (.providerUnstakeRequested tx.msg.sender (tx.msg.number + unbondingPeriod) amount))
  | slash {amount : Nat} {reasonId : Bytes32} (hcall : tx.call ≠ .withdrawStake)
      (hnone : requested tx w = none) (hle : amount ≤ (w.providers provider).stake) :
      Effect tx w ((w.setProvider provider ((w.providers provider).reduce amount)).emit
        (.providerSlashed provider amount reasonId))

/-- The checks of `withdrawStake`. -/
structure Withdrawable (d : Deployment) (m : Msg) (w : World) : Prop where
  unlocked : w.locked = false
  pending : (w.providers m.sender).unstakeReleaseBlock ≠ 0
  due : (w.providers m.sender).unstakeReleaseBlock ≤ m.number
  some : (w.providers m.sender).pendingUnstakeAmount ≠ 0
  covered : (w.providers m.sender).pendingUnstakeAmount ≤ (w.providers m.sender).stake
  affordable : Affordable d.self m.sender (w.providers m.sender).pendingUnstakeAmount w.balance

/-- The state in which the provider gets control. -/
def World.withdrawn (m : Msg) (w : World) : World :=
  { w with locked := true }.setProvider m.sender
    { (w.providers m.sender).reduce (w.providers m.sender).pendingUnstakeAmount with
      pendingUnstakeAmount := 0, unstakeReleaseBlock := 0 }

/-- What is left of a withdrawal once the provider has returned. -/
def afterTransfer (provider : Address) (amount : Nat) : Bool → World → Prog World Error :=
  Prog.afterCall .transferFailed fun w =>
    .done { w.emit (.providerStakeWithdrawn provider amount) with locked := false }

lemma withdrawStake_checks (d : Deployment) (m : Msg) (w : World) :
    let amount := (w.providers m.sender).pendingUnstakeAmount
    Prog.Checks (Withdrawable d m w) (.call ((w.withdrawn m).debit amount) (w.withdrawn m) m.sender
        (afterTransfer m.sender amount))
      (withdrawStake d m w) := by
  intro amount
  refine .guard (fun h => by simp [h.unlocked]) fun hlocked => ?_
  refine .guard (fun h => h.pending) fun hpending => ?_
  refine .guard (fun h => not_lt.mpr h.due) fun hdue => ?_
  refine .guard (fun h => not_or.mpr ⟨h.some, not_lt.mpr h.covered⟩) fun hamount => ?_
  obtain ⟨hsome, hcovered⟩ := not_or.mp hamount
  refine .pay (fun h => h.affordable) fun haffordable => ?_
  exact .pass ⟨by simpa using hlocked, hpending, not_lt.mp hdue, hsome, not_lt.mp hcovered,
    haffordable⟩

/-- The programs `exec` can come up with. -/
inductive Outcome (d : Deployment) (tx : Tx) (w : World) : Prog World Error → Prop where
  | revert (e : Error) : Outcome d tx w (.revert e)
  | quiet (heffect : Effect tx w w₁) : Outcome d tx w (.done w₁)
  | withdraw (hcall : tx.call = .withdrawStake) (h : Withdrawable d tx.msg w) :
      Outcome d tx w (.call
        ((w.withdrawn tx.msg).debit (w.providers tx.msg.sender).pendingUnstakeAmount)
        (w.withdrawn tx.msg) tx.msg.sender
        (afterTransfer tx.msg.sender (w.providers tx.msg.sender).pendingUnstakeAmount))

section Outcomes

variable {d : Deployment} {tx : Tx} {w : World} {amount : Nat} {m : Msg}

lemma request_outcome (hamount : requested tx w = some amount)
    (hregistered : (w.providers tx.msg.sender).registered = true)
    (hpos : (w.providers tx.msg.sender).stake ≠ 0 → amount ≠ 0)
    (hblock : add256 tx.msg.number unbondingPeriod = some unstakeReleaseBlock) :
    Outcome d tx w (.done ((w.setProvider tx.msg.sender
      { w.providers tx.msg.sender with
        pendingUnstakeAmount := amount, unstakeReleaseBlock }).emit
      (.providerUnstakeRequested tx.msg.sender unstakeReleaseBlock amount))) := by
  obtain ⟨-, rfl⟩ := add256_eq_some.mp hblock
  exact .quiet (.request hamount hregistered hpos)

/-- A check leaves the outcome open, as it may revert. -/
lemma Outcome.guard [Decidable p]
    (h : ¬p → Outcome d tx w prog) : Outcome d tx w (if p then .revert e else prog) :=
  Prog.guard .revert h

lemma setSlasher_outcome :
    Outcome d ⟨m, .setSlasher slasher authorized⟩ w (setSlasher m slasher authorized w) :=
  .guard fun _ => .quiet (.admin (by simp) rfl)

lemma registerProvider_outcome :
    Outcome d ⟨m, .registerProvider⟩ w (registerProvider m (w.credit m.value)) := by
  unfold registerProvider
  dsimp only
  split
  · exact .revert _
  · rename_i stake hadd
    obtain ⟨-, rfl⟩ := add256_eq_some.mp hadd
    exact .guard fun hmin => .quiet (.register rfl (not_lt.mp hmin))

lemma requestUnstake_outcome : Outcome d ⟨m, .requestUnstake⟩ w (requestUnstake m w) := by
  refine .guard fun hregistered => .guard fun _ => ?_
  split
  · exact .revert _
  · rename_i hblock
    exact request_outcome rfl (by simpa using hregistered) id hblock

lemma requestPartialUnstake_outcome :
    Outcome d ⟨m, .requestPartialUnstake amount⟩ w (requestPartialUnstake m amount w) := by
  refine .guard fun hregistered => .guard fun _ => .guard fun hamount => .guard fun _ => ?_
  split
  · exact .revert _
  · rename_i hblock
    obtain ⟨hpos, -⟩ := not_or.mp hamount
    exact request_outcome rfl (by simpa using hregistered) (fun _ => hpos) hblock

lemma withdrawStake_outcome : Outcome d ⟨m, .withdrawStake⟩ w (withdrawStake d m w) := by
  exact (withdrawStake_checks ..).elim .revert fun h => .withdraw rfl h

lemma slashProvider_outcome : Outcome d ⟨m, .slashProvider provider amount reasonId⟩ w
      (dispatch d m w (.slashProvider provider amount reasonId)) := by
  simp only [dispatch, slashProvider]
  split
  · exact .revert _
  rename_i hok
  split at hok
  · cases hok
  split at hok
  · cases hok
    exact .quiet (.admin (by simp) rfl)
  · cases hok
    refine .quiet (.slash (by simp) rfl ?_)
    split <;> omega

lemma exec_outcome (d : Deployment) (tx : Tx) (w : World) : Outcome d tx w (exec d tx w) := by
  refine .guard fun hvalid => ?_
  obtain ⟨-, hvalue⟩ := not_or.mp hvalid
  obtain ⟨m, call⟩ := tx
  -- Only `registerProvider` takes value.
  have hcredit : call.payable = false → w.credit m.value = w := by
    intro hpayable
    have hzero : m.value = 0 := by simpa [hpayable] using hvalue
    simp [World.credit, hzero]
  cases call with
  | setSlasher slasher authorized =>
    rw [hcredit rfl]
    exact setSlasher_outcome
  | registerProvider => exact registerProvider_outcome
  | requestUnstake =>
    rw [hcredit rfl]
    exact requestUnstake_outcome
  | requestPartialUnstake amount =>
    rw [hcredit rfl]
    exact requestPartialUnstake_outcome
  | withdrawStake =>
    rw [hcredit rfl]
    exact withdrawStake_outcome
  | slashProvider provider amount reasonId =>
    rw [hcredit rfl]
    exact slashProvider_outcome

end Outcomes

/-! ## The invariant -/

def Event.slashed : Event → Nat
  | .providerSlashed _ amount _ => amount
  | _ => 0

/-- All that has ever been slashed. -/
def slashedTotal (log : List Event) : Nat := (log.map Event.slashed).sum

@[simp] lemma slashedTotal_cons (e : Event) (log : List Event) :
    slashedTotal (e :: log) = e.slashed + slashedTotal log := List.sum_cons

/-- All stakes together. -/
def staked (providers : Address → Provider) : Nat := ∑ a, (providers a).stake

lemma stake_le_staked (providers : Address → Provider) (a : Address) :
    (providers a).stake ≤ staked providers :=
  Finset.single_le_sum (f := fun a => (providers a).stake) (fun _ _ => Nat.zero_le _)
    (Finset.mem_univ a)

def Regular (p : Provider) : Prop := p.registered = true ↔ minProviderStake ≤ p.stake

lemma Regular.reduce (h : Regular p) (amount : Nat) : Regular (p.reduce amount) := by
  unfold Regular Provider.reduce at *
  dsimp only
  split
  · simp only [Bool.false_eq_true, false_iff]
    omega
  · rw [h]
    omega

/-- A request of `a` for the amount, due at the block, that no withdrawal
has followed. -/
def Outstanding (a : Address) (amount block : Nat) (past : List (Tx × World)) : Prop :=
  ∃ later request earlier, past = later ++ request :: earlier
    ∧ request.1.msg.sender = a ∧ requested request.1 request.2 = some amount
    ∧ request.1.msg.number + unbondingPeriod = block
    ∧ ∀ r ∈ later, r.1.call = .withdrawStake → r.1.msg.sender ≠ a

lemma Outstanding.cons (h : Outstanding a amount block past) {r : Tx × World}
    (hr : r.1.call = .withdrawStake → r.1.msg.sender ≠ a) :
    Outstanding a amount block (r :: past) := by
  obtain ⟨later, request, earlier, rfl, hsender, hamount, hblock, hlater⟩ := h
  exact ⟨r :: later, request, earlier, rfl, hsender, hamount, hblock,
    List.forall_mem_cons.mpr ⟨hr, hlater⟩⟩

/-- A pending unstake goes back to a request. -/
def Backed (past : List (Tx × World)) (a : Address) (p : Provider) : Prop :=
  p.unstakeReleaseBlock ≠ 0 → p.pendingUnstakeAmount ≠ 0
    ∧ Outstanding a p.pendingUnstakeAmount p.unstakeReleaseBlock past

lemma Backed.cons (h : Backed past a p) {r : Tx × World}
    (hr : r.1.call = .withdrawStake → r.1.msg.sender ≠ a) : Backed (r :: past) a p := by
  intro hpending
  obtain ⟨hpos, hrequest⟩ := h hpending
  exact ⟨hpos, hrequest.cons hr⟩

structure Inv (p : Point World Tx) : Prop where
  funds : p.state.balance = staked p.state.providers + slashedTotal p.state.log
  regular : ∀ a, Regular (p.state.providers a)
  backed : ∀ a, Backed p.past a (p.state.providers a)

lemma inv_init (owner : Address) : Inv ⟨World.init owner, []⟩ where
  funds := by simp [World.init, staked, slashedTotal, blank]
  regular := fun _ => by simp [World.init, Regular, blank, minProviderStake]
  backed := fun _ hpending => absurd rfl hpending

variable {w : World} {tx : Tx} {d : Deployment}

/-- Writing one provider, and the money that goes with it. -/
lemma Inv.setProvider (h : Inv ⟨w, past⟩)
    (hproviders : w₁.providers = Function.update w.providers a p)
    (hfunds : w₁.balance + (w.providers a).stake + slashedTotal w.log
      = w.balance + p.stake + slashedTotal w₁.log) (hregular : Regular p)
    (hbacked : Backed past₁ a p)
    (hpast : ∀ b, b ≠ a → Backed past b (w.providers b) → Backed past₁ b (w.providers b)) :
    Inv ⟨w₁, past₁⟩ where
  funds := by
    have hsum := sum_update Provider.stake w.providers a p
    have hold := h.funds
    simp only [staked] at hold ⊢
    rw [hproviders]
    omega
  regular := by
    simp only [hproviders]
    exact (Function.forall_update_iff _ (p := fun _ => Regular)).mpr
      ⟨hregular, fun b _ => h.regular b⟩
  backed := by
    simp only [hproviders]
    exact (Function.forall_update_iff _ (p := Backed past₁)).mpr
      ⟨hbacked, fun b hb => hpast b hb (h.backed b)⟩

lemma Effect.inv (heffect : Effect tx w w₁) (h : Inv ⟨w, past⟩) : Inv ⟨w₁, (tx, w) :: past⟩ := by
  cases heffect with
  | admin hcall hnone =>
    exact ⟨h.funds, h.regular, fun a => (h.backed a).cons fun heq => absurd heq hcall⟩
  | register hcall hmin =>
    have hother : ∀ b, Backed past b (w.providers b) →
        Backed ((tx, w) :: past) b (w.providers b) := fun b hb =>
      hb.cons fun heq => by rw [hcall] at heq; cases heq
    refine h.setProvider rfl ?_ ⟨fun _ => hmin, fun _ => rfl⟩ ?_ fun b _ => hother b
    · simp only [World.credit, World.setProvider, World.emit, slashedTotal_cons, Event.slashed]
      omega
    · exact hother _ (h.backed _)
  | @request amount hamount hregistered hpos =>
    have hstake := (h.regular _).mp hregistered
    refine h.setProvider rfl ?_ (h.regular _) ?_ fun b hb hold => ?_
    · simp only [World.setProvider, World.emit, slashedTotal_cons, Event.slashed]
      omega
    · refine fun _ => ⟨hpos fun hzero => ?_, [], (tx, w), past, rfl, rfl, hamount, rfl, ?_⟩
      · rw [hzero] at hstake
        exact absurd hstake (by decide)
      · exact fun r hr => by cases hr
    · exact hold.cons fun _ => hb.symm
  | @slash provider amount reasonId hcall hnone hle =>
    have hother : ∀ b, Backed past b (w.providers b) →
        Backed ((tx, w) :: past) b (w.providers b) := fun b hb =>
      hb.cons fun heq => absurd heq hcall
    refine h.setProvider rfl ?_ ((h.regular provider).reduce amount) ?_ fun b _ => hother b
    · simp only [World.setProvider, World.emit, Provider.reduce, slashedTotal_cons, Event.slashed]
      omega
    · exact hother provider (h.backed provider)

/-- The provider who withdraws gets control with the accounts in order. -/
lemma Withdrawable.inv (hok : Withdrawable d tx.msg w) (h : Inv ⟨w, past⟩) :
    Inv ⟨(w.withdrawn tx.msg).debit (w.providers tx.msg.sender).pendingUnstakeAmount,
      (tx, w) :: past⟩ := by
  have hcovered := hok.covered
  have hfunded := hok.affordable.funded
  refine h.setProvider rfl ?_ ((h.regular _).reduce _) ?_ fun b hb hold => ?_
  · simp only [World.debit, World.withdrawn, World.setProvider, Provider.reduce]
    omega
  · exact fun hpending => absurd rfl hpending
  · exact hold.cons fun _ => hb.symm

lemma exec_keeps (d : Deployment) (p : Point World Tx) (tx : Tx) (h : Inv p) :
    Ensures (fun (_ : Unit) => Inv) Inv ((tx, p.state) :: p.past) (exec d tx p.state) := by
  have hout := exec_outcome d tx p.state
  generalize exec d tx p.state = prog at hout ⊢
  cases hout with
  | revert e => trivial
  | quiet heffect => exact heffect.inv h
  | withdraw hcall hok =>
    refine ⟨trivial, (), hok.inv h, fun q hq => ⟨hq.funds.trans ?_, hq.regular, hq.backed⟩⟩
    simp [World.emit, Event.slashed]

def start (owner : Address) : Config World Error Tx := ⟨⟨World.init owner, []⟩, []⟩

/-- Every configuration of every run is in order, and so was every state in
which a call in effect was made. -/
lemma run_inv (hr : Run (exec d) (fun _ _ => True) (start owner) c) :
    Inv c.now ∧ InEffect (exec d) Inv c.now.past :=
  Run.inEffect (fun p tx _ hp => exec_keeps d p tx hp) hr rfl rfl (inv_init owner)

/-- A withdrawal in effect passed its checks. -/
lemma withdrawal_outcome (hcall : tx.call = .withdrawStake) (hdone : ∀ e, exec d tx w ≠ .revert e) :
    Withdrawable d tx.msg w ∧ exec d tx w = .call
      ((w.withdrawn tx.msg).debit (w.providers tx.msg.sender).pendingUnstakeAmount)
      (w.withdrawn tx.msg) tx.msg.sender
      (afterTransfer tx.msg.sender (w.providers tx.msg.sender).pendingUnstakeAmount) := by
  have hout := exec_outcome d tx w
  generalize exec d tx w = prog at hout hdone ⊢
  cases hout with
  | revert e => exact absurd rfl (hdone e)
  | quiet heffect =>
    have hnone : requested tx w = none := by rw [requested, hcall]
    cases heffect with
    | admin hother => exact absurd hcall hother
    | register hother => rw [hcall] at hother; cases hother
    | request hamount => rw [hnone] at hamount; cases hamount
    | slash hother => exact absurd hcall hother
  | withdraw _ hok => exact ⟨hok, rfl⟩

/-- **Stakes are accounted for**, in every configuration of every run. The
contract holds the stakes and what was slashed; a provider is registered
exactly if their stake is high enough; and every withdrawal in effect pays
what a request of the same provider fixed, at least the unbonding period
earlier and with no other withdrawal of theirs in between. -/
theorem stakes_accounted (d : Deployment) (owner : Address) (c : Config World Error Tx)
    (hr : Run (exec d) (fun _ _ => True) (start owner) c) :
    let w := c.now.state
    w.balance = ∑ a, (w.providers a).stake + slashedTotal w.log
      ∧ (∀ a, (w.providers a).registered = true ↔ minProviderStake ≤ (w.providers a).stake)
      ∧ ∀ later tx v earlier, c.now.past = later ++ (tx, v) :: earlier → tx.call = .withdrawStake →
        ∃ amount, (∃ entry before k, exec d tx v = .call entry before tx.msg.sender k
            ∧ before.balance = v.balance ∧ entry.balance + amount = before.balance)
          ∧ ∃ between request older, earlier = between ++ request :: older
            ∧ request.1.msg.sender = tx.msg.sender
            ∧ requested request.1 request.2 = some amount
            ∧ request.1.msg.number + unbondingPeriod ≤ tx.msg.number
            ∧ ∀ r ∈ between, r.1.call = .withdrawStake → r.1.msg.sender ≠ tx.msg.sender := by
  obtain ⟨hinv, heffect⟩ := run_inv hr
  refine ⟨hinv.funds, hinv.regular, fun later tx v earlier hpast hcall => ?_⟩
  rw [hpast] at heffect
  obtain ⟨hthen, hdone⟩ := heffect.of_append
  obtain ⟨hok, heq⟩ := withdrawal_outcome hcall hdone
  obtain ⟨-, between, request, older, hsplit, hsender, hamount, hblock, hbetween⟩ :=
    hthen.backed _ hok.pending
  refine ⟨_, ⟨_, _, _, heq, rfl, Nat.sub_add_cancel hok.affordable.funded⟩, between, request, older,
    hsplit, hsender, hamount, ?_, hbetween⟩
  rw [hblock]
  exact hok.due

def sample : Deployment := ⟨0x4e6⟩

/-- A transaction of the provider, account 2. -/
def byProvider (value number : Nat) (call : Call) : Tx := ⟨⟨2, value, 0, number⟩, call⟩

/-- The provider takes out half of their stake. -/
def halfOut : List Tx :=
  [byProvider (2 * 10 ^ 18) 10 .registerProvider,
    byProvider 0 100 (.requestPartialUnstake (10 ^ 18)), byProvider 0 7300 .withdrawStake]

set_option maxRecDepth 8192

theorem stakes_accounted_half : ∃ c, Run (exec sample) (fun _ _ => True) (start 9) c
      ∧ c.now.past.map (·.1) = halfOut.reverse
      ∧ c.now.state.balance = 10 ^ 18
      ∧ c.now.state.balance
        = ∑ a, (c.now.state.providers a).stake + slashedTotal c.now.state.log := by
  have hrun : Run (exec sample) (fun _ _ => True) (start 9) _ := .of_accepted halfOut rfl
  obtain ⟨hfunds, -, -⟩ := stakes_accounted sample 9 _ hrun
  exact ⟨_, hrun, rfl, rfl, hfunds⟩

/-! ## The end of the unbonding period -/

lemma Effect.locked (h : Effect tx w w₁) : w₁.locked = w.locked := by
  cases h <;> rfl

/-- Between calls the lock is free. -/
lemma run_unlocked (hr : Run (exec d) (fun _ _ => True) (start owner) c) (hidle : c.Idle) :
    c.now.state.locked = false := by
  let J : Bool → Point World Tx → Prop := fun locked p => p.state.locked = locked
  have hkeeps : ∀ locked p tx, True → J locked p →
      Keeps J locked ((tx, p.state) :: p.past) (exec d tx p.state) := by
    intro locked p tx _ hp
    have hout := exec_outcome d tx p.state
    generalize exec d tx p.state = prog at hout ⊢
    cases hout with
    | revert e => trivial
    | quiet heffect => exact heffect.locked.trans hp
    | withdraw hcall hok =>
      obtain rfl : false = locked := hok.unlocked.symm.trans hp
      exact ⟨trivial, true, rfl, fun q hq => rfl⟩
  exact (Run.ok hkeeps hr ⟨false, rfl, rfl⟩).idle hidle

lemma exec_withdrawStake (d : Deployment) {m : Msg} (hvalue : m.value = 0) (w : World) :
    exec d ⟨m, .withdrawStake⟩ w = withdrawStake d m w := by
  have hcredit : w.credit m.value = w := by simp [World.credit, hvalue]
  unfold exec
  rw [if_neg (by simp [Call.inRange, hvalue]), hcredit]
  rfl

/-- A request for more than is left cannot be withdrawn. -/
lemma withdrawStake_uncovered {m : Msg} (hvalue : m.value = 0)
    (h : (w.providers m.sender).stake < (w.providers m.sender).pendingUnstakeAmount) :
    ∃ e, exec d ⟨m, .withdrawStake⟩ w = .revert e := by
  rw [exec_withdrawStake d hvalue]
  exact (withdrawStake_checks ..).reverts fun hok => absurd hok.covered (not_le.mpr h)

/-- **When unbonding ends.** In every idle configuration of every run, a
provider whose request is due is paid what it is for, which is something, exactly
if no slash has left less stake than that. -/
theorem unbonding_ends_iff (d : Deployment) (owner : Address) (c : Config World Error Tx)
    (hr : Run (exec d) (fun _ _ => True) (start owner) c) (hidle : c.Idle) (m : Msg)
    (hvalue : m.value = 0) (hpayee : m.sender ≠ d.self)
    (hpending : (c.now.state.providers m.sender).unstakeReleaseBlock ≠ 0)
    (hdue : (c.now.state.providers m.sender).unstakeReleaseBlock ≤ m.number) :
    let p := c.now.state.providers m.sender
    (∃ entry before k w', exec d ⟨m, .withdrawStake⟩ c.now.state = .call entry before m.sender k
        ∧ entry.balance + p.pendingUnstakeAmount = c.now.state.balance
        ∧ k true entry = .done w' ∧ w'.balance = entry.balance
        ∧ 0 < p.pendingUnstakeAmount)
      ↔ p.pendingUnstakeAmount ≤ p.stake := by
  intro p
  obtain ⟨hinv, -⟩ := run_inv hr
  rw [exec_withdrawStake d hvalue]
  have hchecks := withdrawStake_checks d m c.now.state
  constructor
  · rintro ⟨entry, before, k, w', hcall, -⟩
    refine (hchecks.of_ne_revert fun e heq => ?_).covered
    rw [heq] at hcall
    cases hcall
  · intro hcovered
    obtain ⟨hpos, -⟩ := hinv.backed m.sender hpending
    have hstaked := stake_le_staked c.now.state.providers m.sender
    have hfunded : p.pendingUnstakeAmount ≤ c.now.state.balance :=
      (hcovered.trans hstaked).trans (hinv.funds ▸ Nat.le_add_right ..)
    rw [hchecks.eq ⟨run_unlocked hr hidle, hpending, hdue, hpos, hcovered, hpayee, hfunded⟩]
    exact ⟨_, _, _, _, rfl, Nat.sub_add_cancel hfunded, rfl, rfl, Nat.pos_of_ne_zero hpos⟩

/-- The provider wants all of their stake back. -/
def allOut : List Tx :=
  [⟨⟨9, 0, 0, 5⟩, .setSlasher 5 true⟩, byProvider (10 ^ 18) 10 .registerProvider,
    byProvider 0 100 .requestUnstake]

theorem unbonding_ends_iff_unslashed : ∃ c, Run (exec sample) (fun _ _ => True) (start 9) c
      ∧ c.now.past.map (·.1) = allOut.reverse
      ∧ ∃ entry before k w', exec sample (byProvider 0 7300 .withdrawStake) c.now.state
          = .call entry before 2 k
        ∧ entry.balance + 10 ^ 18 = c.now.state.balance
        ∧ k true entry = .done w' ∧ w'.balance = entry.balance ∧ 0 < 10 ^ 18 := by
  have hrun : Run (exec sample) (fun _ _ => True) (start 9) _ := .of_accepted allOut rfl
  refine ⟨_, hrun, rfl, ?_⟩
  refine (unbonding_ends_iff sample 9 _ hrun (fun x hx => by cases hx) _
    rfl (by decide) ?_ ?_).mpr ?_
  all_goals decide

/-- A fifth of it is slashed meanwhile. -/
def slashing : Tx := ⟨⟨5, 0, 0, 200⟩, .slashProvider 2 (2 * 10 ^ 17) 0⟩

/-- The rest of the stake can be withdrawn at no block at all. -/
theorem unbonding_stuck : ∃ c, Run (exec sample) (fun _ _ => True) (start 9) c
      ∧ c.now.past.map (·.1) = (allOut ++ [slashing]).reverse
      ∧ c.Idle
      ∧ c.now.state.providers 2 = ⟨8 * 10 ^ 17, 7300, 10 ^ 18, false⟩
      ∧ ∀ number, ∃ e, exec sample (byProvider 0 number .withdrawStake) c.now.state
        = .revert e := by
  refine ⟨_, .of_accepted (allOut ++ [slashing]) rfl, rfl, (fun x hx => by cases hx), rfl,
    fun number => ?_⟩
  exact withdrawStake_uncovered rfl (by decide : 8 * 10 ^ 17 < 10 ^ 18)

end Cipher.ProviderRegistry
