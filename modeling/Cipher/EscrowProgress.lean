import Mathlib.Algebra.Order.BigOperators.Group.Finset
import Cipher.EscrowSolvency
import Cipher.EscrowLifecycle

/-!
# Calls that go through

The converse of `exec_outcome`: a call whose guards hold is executed as
its `Move` says, provided the payees accept what they are paid
(`Move.accepted`). The two together make `Move` an exact account of the
contract.

The contract can always afford what a move owes, so what a party can
achieve by calls of their own is a matter of walking the automaton:
`Walk` is a sequence of moves on one agreement together with the
transfers it owes, and `Walk.calls` executes it. Conversely `stuck` says
that an agreement without a move for the calls that are made stays as
it is. `funds_recoverable` combines walks into what each party can get
out of an agreement on their own.
-/

namespace Cipher.Escrow

open Evm List

/-! ## One call -/

/-- The world a move on agreement `id` leaves when everybody accepts. -/
def World.after (w : World) (tx : Tx) (id : Bytes32) (ag' : EscrowAgreement)
    (evs : List Event) : World :=
  { agreements := Function.update w.agreements id ag'
    latestPaymentStates := recorded w.latestPaymentStates tx.call
    nextContractNonce := w.nextContractNonce
    balance := w.balance + tx.msg.value - amounts (due tx w.toStorage)
    log := evs ++ w.log
    ledger := (due tx w.toStorage).reverse ++ w.ledger }

section

variable (w : World) (t : Transfer)

/-- What `_sendValue` leaves when the payee accepts. -/
def World.send : World := if t.amount = 0 then w else w.pay t

@[simp] lemma World.send_toStorage : (w.send t).toStorage = w.toStorage := by
  unfold World.send
  split <;> rfl

@[simp] lemma World.send_balance : (w.send t).balance = w.balance - t.amount := by
  unfold World.send
  split
  · omega
  · rfl

@[simp] lemma World.send_log : (w.send t).log = w.log := by
  unfold World.send
  split <;> rfl

@[simp] lemma World.send_ledger : (w.send t).ledger = nonzero [t] ++ w.ledger := by
  unfold World.send
  rw [nonzero_cons]
  split <;> rfl

end

variable {d : Deployment} {w : World} {c : Call} {id : Bytes32}

lemma sendValue_accepted {t : Transfer}
    (hself : t.recipient ≠ d.self) (hle : t.amount ≤ w.balance) :
    (sendValue d t w k).accepted = (k (w.send t)).accepted := by
  unfold sendValue World.send
  by_cases h0 : t.amount = 0
  · rw [if_pos h0, if_pos h0]
  · rw [if_neg h0, if_neg h0, if_neg (by simp [hself, hle])]
    rfl

lemma reverse_nonzero (t : Transfer) : (nonzero [t]).reverse = nonzero [t] := by
  rw [nonzero_cons]
  split <;> rfl

lemma reverse_nonzero_pair (t₁ t₂ : Transfer) :
    (nonzero [t₁, t₂]).reverse = nonzero [t₂] ++ nonzero [t₁] := by
  have hsplit : nonzero [t₁, t₂] = nonzero [t₁] ++ nonzero [t₂] := filter_append [t₁] [t₂]
  rw [hsplit, reverse_append, reverse_nonzero, reverse_nonzero]

/-- The parties of an agreement are outside accounts. -/
def Outside (d : Deployment) (ag : EscrowAgreement) : Prop :=
  ag.publisher ≠ d.self ∧ ag.provider ≠ d.self

lemma exec_eq_dispatch {m : Msg} (hrange : c.inRange = true)
    (hv : c.payable = false → m.value = 0) :
    exec d ⟨m, c⟩ w = dispatch d m (w.credit m.value) c := by
  unfold exec
  rw [if_neg]
  simp only [hrange, not_or, not_and_or, ne_eq, not_not]
  refine ⟨by simp, ?_⟩
  cases hp : c.payable with
  | false => exact .inr (hv hp)
  | true => exact .inl (by simp)

lemma withAgreement_eq (hag : w.agreements id = ag) (hex : ag.exists' = true) :
    withAgreement w id k = k ag := by
  unfold withAgreement
  rw [hag, if_neg (by simp [hex])]

/-- A function that pays nobody ends in the world its move says. -/
lemma World.after_quiet (w : World) (tx : Tx) (id : Bytes32) (ag' : EscrowAgreement)
    (evs : List Event) (hdue : due tx w.toStorage = []) :
    w.after tx id ag' evs =
      { w.credit tx.msg.value with
        agreements := Function.update w.agreements id ag'
        latestPaymentStates := recorded w.latestPaymentStates tx.call
        log := evs ++ w.log } := by
  simp [World.after, World.credit, hdue]

/-- A function that makes one payment does, too. Events may be emitted
before the payment and after it. -/
lemma pay_accepted (w : World) (tx : Tx) (id : Bytes32) (ag' : EscrowAgreement) (t : Transfer)
    (evs evs' : List Event) (hself : t.recipient ≠ d.self) (hle : t.amount ≤ w.balance)
    (hv : tx.msg.value = 0) (hdue : due tx w.toStorage = nonzero [t])
    (hrec : recorded w.latestPaymentStates tx.call = w.latestPaymentStates) :
    (sendValue d t { (w.credit tx.msg.value).setAgreement id ag' with log := evs' ++ w.log }
        fun w' => .done { w' with log := evs ++ w'.log }).accepted
      = some (w.after tx id ag' (evs ++ evs')) := by
  rw [sendValue_accepted hself (by simpa [World.credit, World.setAgreement, hv] using hle)]
  refine congrArg some (World.ext ?_ ?_ ?_ ?_ ?_ ?_)
  · simp [World.after, World.setAgreement]
  · simp [World.after, World.setAgreement, hrec]
  · simp [World.after, World.setAgreement]
  · simp [World.after, World.setAgreement, World.credit, hdue, amounts_nonzero]
  · simp [World.after]
  · simp [World.after, World.setAgreement, World.credit, hdue, reverse_nonzero]

lemma refundPublisher_accepted {m : Msg} (hag : w.agreements id = ag)
    (hex : ag.exists' = true) (hsender : m.sender = ag.publisher)
    (hstate : ag.state = .failed ∨ ag.state = .terminated ∨ Expired m ag) (hout : Outside d ag)
    (hbal : ag.escrowBalance ≤ w.balance) (hv : m.value = 0) :
    ∃ evs, (refundPublisher d m id (w.credit m.value)).accepted
      = some (w.after ⟨m, .refundPublisher id⟩ id
        { ag with escrowBalance := 0, state := .refunded } evs) := by
  have hcred : (w.credit m.value).agreements id = ag := hag
  -- A refund of an expired agreement logs its termination first.
  have hpay : ∀ evs', (sendValue d ⟨id, .refund, ag.publisher, ag.escrowBalance⟩
      { (w.credit m.value).setAgreement id
        { ag with escrowBalance := 0, state := .refunded } with log := evs' ++ w.log }
      fun w' => .done { w' with log := [] ++ w'.log }).accepted
      = some (w.after ⟨m, .refundPublisher id⟩ id
        { ag with escrowBalance := 0, state := .refunded } evs') := by
    intro evs'
    exact pay_accepted w ⟨m, .refundPublisher id⟩ id _ _ [] evs' hout.1 hbal hv
      (by simp [due, Call.target, payouts, hag]) rfl
  unfold refundPublisher
  rw [withAgreement_eq hcred hex]
  rcases hstate with hstate | hstate | ⟨hstate, hfits, hwindow, hhas⟩
  · refine ⟨[], Eq.trans ?_ (hpay [])⟩
    simp [hstate, hsender, World.setAgreement]
    rfl
  · refine ⟨[], Eq.trans ?_ (hpay [])⟩
    simp [hstate, hsender, World.setAgreement]
    rfl
  · refine ⟨[.contractTerminated id], Eq.trans ?_ (hpay _)⟩
    simp [hstate, hsender, hhas, hwindow, add64_eq_some.mpr ⟨hfits, rfl⟩, World.setAgreement,
      World.emit]
    rfl

lemma settleContract_accepted {m : Msg} {ps : PaymentState}
    (hag : w.agreements id = ag) (hex : ag.exists' = true) (hstate : ag.state = .active)
    (hhas : ag.hasPaymentState = true) (hseq : ps.sequence = ag.latestSequence)
    (hcum : ps.cumulativePayment = ag.latestCumulativePayment) (hid : ps.contractID = id)
    (hle : ag.latestCumulativePayment ≤ ag.escrowBalance) (hout : Outside d ag)
    (hbal : ag.latestCumulativePayment + (ag.escrowBalance - ag.latestCumulativePayment)
      ≤ w.balance) (hv : m.value = 0) :
    (settleContract d id ps (w.credit m.value)).accepted
      = some (w.after ⟨m, .settleContract id ps⟩ id
        { ag with escrowBalance := 0, state := .settled }
        [.contractSettled id ag.latestCumulativePayment
          (ag.escrowBalance - ag.latestCumulativePayment)]) := by
  have hdue : due ⟨m, .settleContract id ps⟩ w.toStorage
      = nonzero (payouts ag (.settleContract id ps)) := by
    simp [due, Call.target, hag]
  simp only [payouts] at hdue
  have hcred : (w.credit m.value).agreements id = ag := hag
  unfold settleContract
  rw [withAgreement_eq hcred hex, if_neg (by simp [hstate, hhas]),
    if_neg (by simp [hseq, hcum, hid]), if_neg (by omega)]
  rw [sendValue_accepted (by simpa [World.setAgreement] using hout.2)
    (by simp [World.setAgreement, World.credit]; omega)]
  rw [sendValue_accepted]
  · refine congrArg some (World.ext ?_ ?_ ?_ ?_ ?_ ?_)
    · simp [World.after, World.setAgreement]
    · simp [World.after, World.setAgreement, recorded]
    · simp [World.after, World.setAgreement]
    · simp [World.after, World.setAgreement, World.emit, World.credit, hdue, amounts_nonzero]
      omega
    · simp [World.after, World.setAgreement, World.emit, World.credit]
    · simp [World.after, World.setAgreement, World.emit, World.credit, hdue, reverse_nonzero_pair]
  · simpa [World.setAgreement] using hout.1
  · simp only [World.send_balance, World.setAgreement, World.credit]
    omega

/-- **A call whose guards hold goes through.** -/
theorem Move.accepted (h : Move d m c (w.agreements id) ag')
    (htarget : c.target = some id) (hex : (w.agreements id).exists' = true)
    (hrange : c.inRange = true) (hv : c.payable = false → m.value = 0)
    (hout : Outside d (w.agreements id))
    (hbal : amounts (payouts (w.agreements id) c) ≤ w.balance) :
    ∃ evs, (exec d ⟨m, c⟩ w).accepted = some (w.after ⟨m, c⟩ id ag' evs) := by
  rw [exec_eq_dispatch hrange hv]
  generalize hag : w.agreements id = ag at h hex hout hbal
  have hcred : (w.credit m.value).agreements id = ag := hag
  cases h with obtain rfl := Option.some.inj htarget
  | @fund id' ag hsender hstate hvalue =>
    refine ⟨[.escrowFunded id' m.value], ?_⟩
    simp only [dispatch, fundEscrow]
    rw [withAgreement_eq hcred hex, if_neg (by simp [hsender, hstate, hvalue])]
    rfl
  | @deposit id' ag hsender hstate hnone hreq hvalue =>
    refine ⟨[.collateralDeposited id' m.value], ?_⟩
    simp only [dispatch, depositCollateral]
    rw [withAgreement_eq hcred hex, if_neg (by simp [hsender, hstate]), if_neg (by simp [hnone]),
      if_neg (by simp [hreq, hvalue])]
    rfl
  | @activate id' ag hsender hstate hescrow hcoll hdeadline =>
    refine ⟨[.contractActivated id' (m.timestamp % 2 ^ 64 + ag.duration)], ?_⟩
    simp only [dispatch, activateContract]
    rw [withAgreement_eq hcred hex, if_neg (by tauto), if_neg (by simp [hstate, hescrow]),
      if_neg (by omega), add64_eq_some.mpr ⟨hdeadline, rfl⟩]
    rfl
  | @submit id' ag ps hin hstate hfits hwindow hok hsig =>
    refine ⟨[.paymentStateAccepted id' ps.sequence ps.cumulativePayment], ?_⟩
    simp only [dispatch, submitPaymentState]
    rw [withAgreement_eq hcred hex, if_neg (by simp [hstate]), add64_eq_some.mpr ⟨hfits, rfl⟩]
    simp only
    rw [if_neg (by omega), if_neg (by simp [hok]), if_neg (by simp [hsig])]
    rfl
  | @settle id' ag ps hstate hhas hseq hcum hid hle =>
    exact ⟨_, settleContract_accepted hag hex hstate hhas hseq hcum hid hle hout
      (by simpa [amounts, payouts] using hbal) (hv rfl)⟩
  | @refund id' ag hsender hstate =>
    exact refundPublisher_accepted hag hex hsender hstate hout
      (by simpa [amounts, payouts] using hbal) (hv rfl)
  | @giveBack id' ag hstate hcoll =>
    refine ⟨[], ?_⟩
    simp only [dispatch, returnCollateral]
    rw [withAgreement_eq hcred hex, if_neg (by tauto)]
    refine pay_accepted w ⟨m, .returnCollateral id'⟩ id' _ _ [] [] ?_ ?_ (hv rfl) ?_ rfl
    · simpa [World.setAgreement] using hout.2
    · simpa [amounts, payouts] using hbal
    · simp [due, Call.target, payouts, hag, World.setAgreement]
  | @mark id' ag reason hsender hstate hreason =>
    refine ⟨[.failureMarked id' reason], ?_⟩
    simp only [dispatch, markFailure]
    rw [withAgreement_eq hcred hex, if_neg (by simp [hsender, hstate, hreason])]
    rfl
  | @dispute id' ag ps hin hsender hstate hok hsig =>
    refine ⟨[.failureDisputed id' ps.sequence], ?_⟩
    simp only [dispatch, disputeFailure]
    rw [withAgreement_eq hcred hex, if_neg (by simp [hstate]), if_neg (by simp [hsender]),
      if_neg (by simp [hok]), if_neg (by simp [hsig])]
    rfl
  | @slash id' ag penalty hsender hstate hpenalty =>
    refine ⟨[.collateralSlashed id' (penaltyAmount ag.collateral penalty)], ?_⟩
    simp only [dispatch, slashCollateral]
    rw [withAgreement_eq hcred hex, if_neg (by simp [hsender, hstate, hpenalty]),
      if_neg (Nat.not_lt.mpr (penaltyAmount_le ..))]
    refine pay_accepted w ⟨m, .slashCollateral id' penalty⟩ id' _ _ [_] [] ?_ ?_ (hv rfl) ?_ rfl
    · simpa [World.setAgreement] using hout.1
    · simpa [amounts, payouts] using hbal
    · simp [due, Call.target, payouts, hag, World.setAgreement]
  | @terminate id' ag hexp =>
    obtain ⟨hstate, hfits, hwindow, hhas⟩ := hexp
    refine ⟨[.contractTerminated id'], ?_⟩
    simp only [dispatch, terminateExpiredContract]
    rw [withAgreement_eq hcred hex, if_neg (by simp [hstate]), add64_eq_some.mpr ⟨hfits, rfl⟩]
    simp only
    rw [if_neg (by omega), if_neg (by simp [hhas])]
    rfl

/-! ## Walks -/

/-- The balance covers what any one agreement holds. -/
lemma Inv.affords (h : Inv d pend p) (id : Bytes32) :
    held (p.state.agreements id) ≤ p.state.balance := by
  have hone : held (p.state.agreements id) ≤ ∑ id', held (p.state.agreements id') :=
    Finset.single_le_sum (f := fun id' => held (p.state.agreements id'))
      (fun _ _ => Nat.zero_le _) (Finset.mem_univ id)
  have := h.balance
  omega

lemma Move.outside (h : Move d m c ag ag') (hout : Outside d ag) : Outside d ag' := by
  have hterms := h.terms
  simp only [EscrowAgreement.terms, Prod.mk.injEq] at hterms
  unfold Outside
  rw [hterms.1, hterms.2.1]
  exact hout

/-- Moves on agreement `id` one after the other, with the transfers they
owe. None of the calls brings value along. -/
inductive Walk (d : Deployment) (id : Bytes32) :
    EscrowAgreement → List Tx → List Transfer → EscrowAgreement → Prop where
  | nil (ag) : Walk d id ag [] [] ag
  | cons {m call ag ag' ag'' txs ts} (hmove : Move d m call ag ag')
      (htarget : call.target = some id) (hrange : call.inRange = true) (hv : m.value = 0)
      (hrest : Walk d id ag' txs ts ag'') :
      Walk d id ag (⟨m, call⟩ :: txs) (nonzero (payouts ag call) ++ ts) ag''

/-- **Walks can be walked.** From any configuration of any run. -/
theorem Walk.calls (h : Walk d id ag txs ts ag') :
    ∀ {c : Config World Error Tx}, Run (exec d) (NoCollision d) start c →
      c.now.state.agreements id = ag → ag.exists' = true → Outside d ag →
      ∃ q, Calls (exec d) (NoCollision d) c.now txs q ∧ q.state.agreements id = ag'
        ∧ q.state.ledger = ts.reverse ++ c.now.state.ledger := by
  induction h with
  | nil ag =>
    intro c hr hag hex hout
    exact ⟨c.now, .nil _, hag, rfl⟩
  | @cons m call ag ag' ag'' txs ts hmove htarget hrange hv hrest ih =>
    intro c hr hag hex hout
    obtain ⟨pend, hinv, -⟩ := run_ok hr
    subst hag
    have hheld := hmove.held (hinv.linked.sound id).1 (fun _ => hv)
    have hafford := hinv.affords id
    obtain ⟨evs, hacc⟩ := hmove.accepted htarget hex hrange (fun _ => hv) hout (by omega)
    have hadm : NoCollision d ⟨m, call⟩ c.now := by
      intro provider fileID reward periods duration rulesHash coll hcall
      rw [show call = _ from hcall] at htarget
      cases htarget
    have hstep : Run (exec d) (NoCollision d) c ⟨⟨_, _⟩, c.stack⟩ := run_of_accepted hadm hacc
    have hdue : due ⟨m, call⟩ c.now.state.toStorage = nonzero (payouts _ call) :=
      due_target htarget
    obtain ⟨q, hcalls, hag', hledger⟩ := ih (hr.trans hstep) (by simp [World.after])
      (hmove.exists'.trans hex) (hmove.outside hout)
    refine ⟨q, .cons hadm hacc hcalls, hag', ?_⟩
    rw [hledger]
    simp [World.after, hdue]

/-- A walk pays the parties of the agreement and nobody else. -/
lemma Walk.recipients (h : Walk d id ag txs ts ag') :
    ∀ t ∈ ts, t.recipient = ag.publisher ∨ t.recipient = ag.provider := by
  induction h with
  | nil ag => intro t ht; cases ht
  | @cons m call ag ag' ag'' txs ts hmove htarget hrange hv hrest ih =>
    intro t ht
    rw [mem_append] at ht
    rcases ht with hnow | hlater
    · have hpayee := (payouts_spec (mem_filter.mp hnow).1).2
      cases hp : t.purpose <;> simp_all [payee]
    · have hterms := hmove.terms
      simp only [EscrowAgreement.terms, Prod.mk.injEq] at hterms
      rw [← hterms.1, ← hterms.2.1]
      exact ih t hlater

/-- From `p`, calls that `who` makes in order from time `now` on lead to
transfers of `amount` in total among those that `f` selects, all to the
parties of agreement `id`. -/
def CanReclaim (d : Deployment) (p : Point World Tx) (who : Address) (now : Nat) (id : Bytes32)
    (f : Transfer → Bool) (amount : Nat) : Prop :=
  ∃ txs ts q, (∀ tx ∈ txs, tx.msg.sender = who ∧ now ≤ tx.msg.timestamp
      ∧ tx.msg.timestamp < 2 ^ 64)
    ∧ txs.Pairwise (fun a b => a.msg.timestamp ≤ b.msg.timestamp)
    ∧ Calls (exec d) (NoCollision d) p txs q
    ∧ q.state.ledger = ts ++ p.state.ledger
    ∧ (∀ t ∈ ts, t.recipient = (p.state.agreements id).publisher
      ∨ t.recipient = (p.state.agreements id).provider)
    ∧ amounts (ts.filter f) = amount

/-- The same for a walk from the agreement `ag`. -/
def Reclaims (d : Deployment) (id : Bytes32) (who : Address) (f : Transfer → Bool) (now : Nat)
    (ag : EscrowAgreement) (amount : Nat) : Prop :=
  ∃ txs ts ag', Walk d id ag txs ts ag'
    ∧ (∀ tx ∈ txs, tx.msg.sender = who ∧ now ≤ tx.msg.timestamp ∧ tx.msg.timestamp < 2 ^ 64)
    ∧ txs.Pairwise (fun a b => a.msg.timestamp ≤ b.msg.timestamp)
    ∧ amounts (ts.filter f) = amount

lemma Reclaims.canReclaim {c : Config World Error Tx}
    (h : Reclaims d id who f now (c.now.state.agreements id) amount)
    (hr : Run (exec d) (NoCollision d) start c) (hex : (c.now.state.agreements id).exists' = true)
    (hout : Outside d (c.now.state.agreements id)) : CanReclaim d c.now who now id f amount := by
  obtain ⟨txs, ts, ag', hwalk, hwho, htime, rfl⟩ := h
  obtain ⟨q, hcalls, -, hledger⟩ := hwalk.calls hr rfl hex hout
  refine ⟨txs, ts.reverse, q, hwho, htime, hcalls, hledger, ?_, ?_⟩
  · intro t ht
    exact hwalk.recipients t (mem_reverse.mp ht)
  · rw [filter_reverse]
    exact ((reverse_perm _).map _).sum_eq

/-! ## What each party can get on their own -/

section Walks

variable {d : Deployment} {id : Bytes32} {who : Address}
  {now : Nat} {ag : EscrowAgreement}

lemma Reclaims.done : Reclaims d id who f now ag 0 :=
  ⟨[], [], ag, .nil ag, nofun, .nil, rfl⟩

/-- One more call in front, made at a time of the caller's choice. -/
lemma Reclaims.step (time : Nat) (hmove : Move d ⟨who, 0, time, 0⟩ call ag ag')
    (htarget : call.target = some id) (hrange : call.inRange = true) (hle : now ≤ time)
    (hlt : time < 2 ^ 64) (hrest : Reclaims d id who f time ag' amount) :
    Reclaims d id who f now ag (amounts ((payouts ag call).filter f) + amount) := by
  obtain ⟨txs, ts, ag'', hwalk, hwho, htime, rfl⟩ := hrest
  refine ⟨_, _, ag'', .cons hmove htarget hrange rfl hwalk, ?_, ?_, ?_⟩
  · intro tx htx
    rcases mem_cons.mp htx with rfl | htx
    · exact ⟨rfl, hle, hlt⟩
    · exact ⟨(hwho tx htx).1, hle.trans (hwho tx htx).2.1, (hwho tx htx).2.2⟩
  · exact .cons (fun tx htx => (hwho tx htx).2.1) htime
  · rw [filter_append, amounts_append, nonzero_filter, amounts_nonzero]

/-- A failed or terminated agreement: the publisher takes the refund. -/
lemma reclaims_refund (hnow : now < 2 ^ 64) (hstate : ag.state = .failed ∨ ag.state = .terminated) :
    Reclaims d id ag.publisher (rewardOf id) now ag ag.escrowBalance := by
  have hmove : Move d ⟨ag.publisher, 0, now, 0⟩ (.refundPublisher id) ag _ :=
    .refund rfl (hstate.imp_right .inl)
  have h := Reclaims.step (f := rewardOf id) now hmove rfl rfl le_rfl hnow .done
  simpa [payouts, rewardOf] using h

/-- An active one: the publisher marks it failed first. -/
lemma reclaims_mark (hnow : now < 2 ^ 64) (hstate : ag.state = .active) :
    Reclaims d id ag.publisher (rewardOf id) now ag ag.escrowBalance := by
  have hmove : Move d ⟨ag.publisher, 0, now, 0⟩ (.markFailure id .other) ag _ :=
    .mark rfl hstate (by decide)
  have h := Reclaims.step (f := rewardOf id) now hmove rfl rfl le_rfl hnow
    (reclaims_refund hnow (.inl rfl))
  simpa [payouts] using h

/-- A funded one with the collateral in place: the publisher activates it
first. -/
lemma reclaims_activate (hs : Sound ag) (hnow : now < 2 ^ 64) (hstate : ag.state = .funded)
    (hcoll : ag.collateralRequired ≤ ag.collateral) (hfits : now + ag.duration < 2 ^ 64) :
    Reclaims d id ag.publisher (rewardOf id) now ag ag.escrowBalance := by
  have hesc := hs.holds (by rw [hstate]; rfl)
  have hmove : Move d ⟨ag.publisher, 0, now, 0⟩ (.activateContract id) ag _ :=
    .activate (.inl rfl) hstate hesc hcoll (by rwa [Nat.mod_eq_of_lt hnow])
  have h := Reclaims.step (f := rewardOf id) now hmove rfl rfl le_rfl hnow (reclaims_mark hnow rfl)
  simpa [payouts] using h

/-- `t` returns collateral of agreement `id` to `who`. -/
def returnsTo (id : Bytes32) (who : Address) (t : Transfer) : Bool :=
  t.contractID = id && t.purpose = .collateralReturn && t.recipient = who

/-- Once the agreement is over the provider takes the collateral back. -/
lemma reclaims_return (hnow : now < 2 ^ 64)
    (hstate : ag.state = .settled ∨ ag.state = .terminated ∨ ag.state = .refunded) :
    Reclaims d id who (returnsTo id ag.provider) now ag ag.collateral := by
  by_cases hcoll : ag.collateral = 0
  · rw [hcoll]
    exact .done
  · have hmove : Move d ⟨who, 0, now, 0⟩ (.returnCollateral id) ag _ := .giveBack hstate hcoll
    have h := Reclaims.step (f := returnsTo id ag.provider) now hmove rfl rfl le_rfl hnow .done
    simpa [payouts, returnsTo] using h

/-- The voucher on record, as far as `settleContract` looks at it. -/
def onRecord (id : Bytes32) (ag : EscrowAgreement) : PaymentState :=
  { emptyPaymentState with
    contractID := id
    sequence := ag.latestSequence
    cumulativePayment := ag.latestCumulativePayment }

/-- With a voucher on record anybody may settle. -/
lemma reclaims_settle (hs : Sound ag) (hnow : now < 2 ^ 64) (hstate : ag.state = .active)
    (hhas : ag.hasPaymentState = true) :
    Reclaims d id who (returnsTo id ag.provider) now ag ag.collateral := by
  have hesc := hs.holds (by rw [hstate]; rfl)
  have hmove : Move d ⟨who, 0, now, 0⟩ (.settleContract id (onRecord id ag)) ag _ :=
    .settle hstate hhas rfl rfl rfl (hesc ▸ hs.cum)
  have hrange : (Call.settleContract id (onRecord id ag)).inRange = true := by
    simp only [Call.inRange, PaymentState.inRange, Bool.and_eq_true, decide_eq_true_eq]
    exact ⟨⟨⟨⟨hs.range.1, Nat.two_pow_pos _⟩, hs.range.2⟩, Nat.two_pow_pos _⟩, Nat.two_pow_pos _⟩
  have h := Reclaims.step (f := returnsTo id _) now hmove rfl hrange le_rfl hnow
    (reclaims_return hnow (.inl rfl))
  simpa [payouts, returnsTo] using h

/-- Without one the agreement can be terminated after the settlement
window. -/
lemma reclaims_terminate (hstate : ag.state = .active) (hhas : ag.hasPaymentState = false)
    (hnow : now < 2 ^ 64) (hfits : ag.deadline + settlementWindow + 1 < 2 ^ 64) :
    Reclaims d id who (returnsTo id ag.provider) now ag ag.collateral := by
  have htime : max now (ag.deadline + settlementWindow + 1) < 2 ^ 64 := max_lt hnow hfits
  have hmove : Move d ⟨who, 0, max now (ag.deadline + settlementWindow + 1), 0⟩
      (.terminateExpiredContract id) ag _ :=
    .terminate ⟨hstate, by omega, by show _ < max _ _; omega, hhas⟩
  have h := Reclaims.step (f := returnsTo id _) _ hmove rfl rfl (le_max_left _ _) htime
    (reclaims_return htime (.inr (.inl rfl)))
  simpa [payouts] using h

/-- A funded agreement is activated by the provider and then left to
expire. -/
lemma reclaims_expire (hs : Sound ag) (hcoll : 0 < ag.collateral) (hstate : ag.state = .funded)
    (hfits : now + ag.duration + settlementWindow + 1 < 2 ^ 64) :
    Reclaims d id ag.provider (returnsTo id ag.provider) now ag ag.collateral := by
  have hnow : now < 2 ^ 64 := by omega
  have hesc := hs.holds (by rw [hstate]; rfl)
  have hreq : ag.collateralRequired ≤ ag.collateral := by
    rcases hs.funded hstate with h0 | hall
    · omega
    · exact hall.ge
  have hmove : Move d ⟨ag.provider, 0, now, 0⟩ (.activateContract id) ag _ :=
    .activate (.inr rfl) hstate hesc hreq (by rw [Nat.mod_eq_of_lt hnow]; omega)
  have h := Reclaims.step (f := returnsTo id _) now hmove rfl rfl le_rfl hnow
    (reclaims_terminate rfl (hs.early (.inr hstate)) hnow
      (by rw [Nat.mod_eq_of_lt hnow]; exact hfits))
  simpa [payouts] using h

end Walks

/-- **No permanently locked funds**, except where the contract means it.
From every configuration of every run: the publisher gets the escrow of
an agreement paid out by calls of their own, unless it is funded and the
provider has not put up the collateral; the provider gets the collateral
back, unless the agreement has been marked failed. Where a deadline is
still to be computed or to be waited for, it has to stay in the range of
`uint64`. -/
theorem funds_recoverable (d : Deployment) (c : Config World Error Tx)
    (hr : Run (exec d) (NoCollision d) start c) (id : Bytes32)
    (hout : Outside d (c.now.state.agreements id)) (now : Nat) (hnow : now < 2 ^ 64) :
    let ag := c.now.state.agreements id
    (0 < ag.escrowBalance → (ag.state = .funded → ag.collateralRequired ≤ ag.collateral
          ∧ now + ag.duration < 2 ^ 64) →
        CanReclaim d c.now ag.publisher now id (rewardOf id) ag.escrowBalance)
      ∧ (0 < ag.collateral → ag.state ≠ .failed →
        (ag.state = .funded → now + ag.duration + settlementWindow + 1 < 2 ^ 64) →
        (ag.state = .active → ag.hasPaymentState = false →
          ag.deadline + settlementWindow + 1 < 2 ^ 64) →
        CanReclaim d c.now ag.provider now id (returnsTo id ag.provider) ag.collateral) := by
  obtain ⟨pend, hinv, -⟩ := run_ok hr
  obtain ⟨hs, hblank⟩ := hinv.linked.sound id
  have hex : 0 < held (c.now.state.agreements id) → (c.now.state.agreements id).exists' = true := by
    intro hpos
    by_contra hno
    rw [hblank (by simpa using hno)] at hpos
    exact absurd hpos (by decide)
  refine ⟨fun hpos hfunded => ?_, fun hpos hfailed hfunded hactive => ?_⟩
  · refine Reclaims.canReclaim ?_ hr (hex (by unfold held; omega)) hout
    have hesc := hs.escrow
    cases hstate : (c.now.state.agreements id).state with
    | funded =>
      obtain ⟨hcoll, hfits⟩ := hfunded hstate
      exact reclaims_activate hs hnow hstate hcoll hfits
    | active => exact reclaims_mark hnow hstate
    | failed => exact reclaims_refund hnow (.inl hstate)
    | terminated => exact reclaims_refund hnow (.inr hstate)
    | created | settled | refunded =>
      simp only [hstate, ContractState.holdsReward] at hesc
      simp at hesc
      omega
  · refine Reclaims.canReclaim ?_ hr (hex (by unfold held; omega)) hout
    cases hstate : (c.now.state.agreements id).state with
    | created => exact absurd (hs.created hstate) (by omega)
    | funded => exact reclaims_expire hs hpos hstate (hfunded hstate)
    | active =>
      cases hhas : (c.now.state.agreements id).hasPaymentState with
      | true => exact reclaims_settle hs hnow hstate hhas
      | false => exact reclaims_terminate hstate hhas hnow (hactive hstate hhas)
    | failed => exact absurd hstate hfailed
    | settled => exact reclaims_return hnow (.inl hstate)
    | refunded => exact reclaims_return hnow (.inr (.inr hstate))
    | terminated => exact reclaims_return hnow (.inr (.inl hstate))

set_option maxRecDepth 8192

/-- An active agreement without a voucher, with 10 in escrow and 5 of
collateral. -/
theorem funds_recoverable_active : ∃ c, Run (exec sample) (NoCollision sample) start c
      ∧ CanReclaim sample c.now 1 1004 1 (rewardOf 1) 10
      ∧ CanReclaim sample c.now 2 1004 1 (returnsTo 1 2) 5 := by
  have hrun : Run (exec sample) (NoCollision sample) start _ :=
    run_sample [txCreate 5, txFund, txDeposit, txActivate] (by decide) rfl
  have h := funds_recoverable sample _ hrun 1 ⟨by decide, by decide⟩ 1004 (by decide)
  exact ⟨_, hrun, h.1 (by decide) nofun,
    h.2 (by decide) (by decide) nofun (fun _ _ => by decide)⟩

/-! ## Where the funds are locked -/

lemma keeps_sendValue_storage {P : Storage → Prop} {t : Transfer} {past : History}
    (hw : P w.toStorage)
    (hk : ∀ p : Point World Tx, P p.state.toStorage →
      Keeps (fun (_ : Unit) p => P p.state.toStorage) () p.past (k p.state)) :
    Keeps (fun (_ : Unit) p => P p.state.toStorage) () past (sendValue d t w k) := by
  unfold sendValue
  split_ifs
  · exact hk ⟨w, past⟩ hw
  · exact trivial
  · exact ⟨trivial, (), hw, hk⟩

/-- A property of the storage that every admitted effect keeps holds along
every run of admitted calls. -/
lemma run_storage {P : Storage → Prop} {Q : Tx → Prop}
    (hkeep : ∀ tx s s', Q tx → Effect d tx s s' → P s → P s') {c c' : Config World Error Tx}
    (hr : Run (exec d) (fun tx p => NoCollision d tx p ∧ Q tx) c c') (hstack : c.stack = [])
    (h : P c.now.state.toStorage) : P c'.now.state.toStorage := by
  refine Run.always (P := fun p => P p.state.toStorage) ?_ hr hstack h
  intro p tx hadm hp
  have hout := exec_outcome d tx p.state hadm.1
  generalize exec d tx p.state = prog at hout ⊢
  cases hout with
  | revert e => exact trivial
  | quiet heff hbal hled hdue => exact hkeep _ _ _ hadm.2 heff hp
  | pay evs heff hbal hled hdue =>
    exact keeps_sendValue_storage (hkeep _ _ _ hadm.2 heff hp) fun q hq => hq
  | settle evs hcall heff hbal hled hdue =>
    exact keeps_sendValue_storage (hkeep _ _ _ hadm.2 heff hp) fun q hq =>
      keeps_sendValue_storage hq fun q' hq' => hq'

/-- An agreement that none of the admitted calls can move stays as it is. -/
lemma stuck {Q : Tx → Prop} {c c' : Config World Error Tx}
    (hr : Run (exec d) (fun tx p => NoCollision d tx p ∧ Q tx) c c') (hstack : c.stack = [])
    (hex : (c.now.state.agreements id).exists' = true)
    (hno : ∀ tx ag', Q tx → tx.call.target = some id →
      ¬Move d tx.msg tx.call (c.now.state.agreements id) ag') :
    c'.now.state.agreements id = c.now.state.agreements id := by
  refine run_storage (P := fun s => s.agreements id = c.now.state.agreements id) ?_ hr hstack rfl
  intro tx s s' hq heff hs
  rcases heff.at id with ⟨-, heq⟩ | ⟨htarget, -, hmove⟩ | ⟨-, hnot, -⟩
  · rw [heq, hs]
  · rw [hs] at hmove
    exact absurd hmove (hno tx _ hq htarget)
  · rw [hs, hex] at hnot
    cases hnot

/-- The only ways on from a funded agreement. -/
lemma Move.from_funded (h : Move d m c ag ag') (hstate : ag.state = .funded) :
    m.sender = ag.provider ∨ (ag.collateralRequired ≤ ag.collateral
      ∧ m.timestamp % 2 ^ 64 + ag.duration < 2 ^ 64) := by
  cases h with
  | deposit hsender => exact .inl hsender
  | activate _ _ _ hcoll hdeadline => exact .inr ⟨hcoll, hdeadline⟩
  | terminate hexp => rw [hexp.1] at hstate; cases hstate
  | refund _ hstate' => rcases hstate' with h | h | ⟨h, -⟩ <;> rw [h] at hstate <;> cases hstate
  | giveBack hstate' => rcases hstate' with h | h | h <;> rw [h] at hstate <;> cases hstate
  | _ => simp_all

section Stuck

variable {c c' : Config World Error Tx}

/-- Without the provider, a funded agreement does not move while its collateral
is missing or its duration takes the deadline out of range. -/
lemma funded_stuck {Q : Tx → Prop} (hr : Run (exec d) (fun tx p => NoCollision d tx p ∧ Q tx) c c')
    (hstack : c.stack = []) (hex : (c.now.state.agreements id).exists' = true)
    (hstate : (c.now.state.agreements id).state = .funded)
    (hno : ∀ tx, Q tx → tx.msg.sender ≠ (c.now.state.agreements id).provider ∧
      ((c.now.state.agreements id).collateralRequired ≤ (c.now.state.agreements id).collateral →
        2 ^ 64 ≤ tx.msg.timestamp % 2 ^ 64 + (c.now.state.agreements id).duration)) :
    c'.now.state.agreements id = c.now.state.agreements id := by
  refine stuck hr hstack hex ?_
  intro tx ag' hq _ hmove
  rcases hmove.from_funded hstate with hsender | ⟨hcoll, hdeadline⟩
  · exact (hno tx hq).1 hsender
  · exact absurd hdeadline (Nat.not_lt.mpr ((hno tx hq).2 hcoll))

/-- The provider alone, without a newer voucher, cannot move a failed
agreement. -/
lemma failed_stuck (hr : Run (exec d) (fun tx p => NoCollision d tx p ∧ tx.msg.sender = who
      ∧ ∀ ps, tx.call ≠ .disputeFailure id ps) c c')
    (hstack : c.stack = []) (hex : (c.now.state.agreements id).exists' = true)
    (hpub : who ≠ (c.now.state.agreements id).publisher)
    (hstate : (c.now.state.agreements id).state = .failed) :
    c'.now.state.agreements id = c.now.state.agreements id := by
  refine stuck hr hstack hex ?_
  rintro ⟨m, call⟩ ag' ⟨hsender, hno⟩ htarget hmove
  cases hmove with
  | dispute =>
    cases htarget
    exact hno _ rfl
  | refund hsender' => exact hpub (hsender.symm.trans hsender')
  | slash hsender' => exact hpub (hsender.symm.trans hsender')
  | giveBack hstate' => rcases hstate' with h | h | h <;> rw [h] at hstate <;> cases hstate
  | terminate hexp => rw [hexp.1] at hstate; cases hstate
  | _ => simp_all

end Stuck

/-- Funds that one party cannot get out: 10 in escrow while the provider
never puts up the collateral; 5 of collateral once the publisher has
marked the agreement failed and nothing newer was signed; and 10 in
escrow with a duration of `2 ^ 64 - 1`. -/
theorem funds_locked : (∃ c, Run (exec sample) (NoCollision sample) start c ∧ c.stack = []
        ∧ (c.now.state.agreements 1).escrowBalance = 10
        ∧ ∀ c', Run (exec sample) (fun tx p => NoCollision sample tx p ∧ tx.msg.sender = 1) c c' →
          (c'.now.state.agreements 1).escrowBalance = 10)
      ∧ (∃ c, Run (exec sample) (NoCollision sample) start c ∧ c.stack = []
        ∧ (c.now.state.agreements 1).collateral = 5
        ∧ ∀ c', Run (exec sample) (fun tx p => NoCollision sample tx p ∧ tx.msg.sender = 2
            ∧ ∀ ps, tx.call ≠ .disputeFailure 1 ps) c c' →
          (c'.now.state.agreements 1).collateral = 5)
      ∧ (∃ c, Run (exec sample) (NoCollision sample) start c ∧ c.stack = []
        ∧ (c.now.state.agreements 1).escrowBalance = 10
        ∧ ∀ c', Run (exec sample) (fun tx p => NoCollision sample tx p ∧ tx.msg.sender = 1
            ∧ tx.msg.timestamp < 2 ^ 64 ∧ 2 ^ 64 ≤ tx.msg.timestamp + (2 ^ 64 - 1)) c c' →
          (c'.now.state.agreements 1).escrowBalance = 10) := by
  have hfunded : Run (exec sample) (NoCollision sample) start _ :=
    run_sample [txCreate 5, txFund] (by decide) rfl
  have hfailed : Run (exec sample) (NoCollision sample) start _ :=
    run_sample [txCreate 5, txFund, txDeposit, txActivate,
        byPublisher 0 1004 (.markFailure 1 .availabilityFailure)] (by decide) rfl
  have hlong : Run (exec sample) (NoCollision sample) start _ :=
    run_sample [byPublisher 0 1000 (.createContract 2 7 10 1 (2 ^ 64 - 1) 0 0), txFund]
      (by decide) rfl
  refine ⟨⟨_, hfunded, rfl, rfl, fun c' hr => ?_⟩,
    ⟨_, hfailed, rfl, rfl, fun c' hr => ?_⟩, ⟨_, hlong, rfl, rfl, fun c' hr => ?_⟩⟩
  · refine congrArg _ (funded_stuck hr rfl rfl rfl fun tx hsender => ⟨?_, ?_⟩)
    · rw [hsender]
      decide
    · exact fun hcoll => absurd hcoll (by decide)
  · exact congrArg _ (failed_stuck hr rfl rfl (by decide) rfl)
  · refine congrArg _ (funded_stuck hr rfl rfl rfl fun tx htx => ⟨?_, fun _ => ?_⟩)
    · rw [htx.1]
      decide
    · rw [Nat.mod_eq_of_lt htx.2.1]
      exact htx.2.2

end Cipher.Escrow
