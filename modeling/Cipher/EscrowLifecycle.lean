import Mathlib.Algebra.Order.BigOperators.Group.List
import Mathlib.Algebra.Order.Group.Nat
import Cipher.EscrowHistory

/-!
# The lifecycle of an agreement

Properties of one agreement over a whole run. They are read off its
linked history: `Took p tx s s'` picks a call in effect at `p` together
with the storage before and after it, and `Linked.reward` and
`Linked.collateral` account for every transfer made for the agreement
by the state it is in now.
-/

namespace Cipher.Escrow

open Evm List

/-! ## Calls in effect -/

/-- The storage a call left: the next call was made in it, or it is the
present one. -/
def stateAfter (post : History) (s : Storage) : Storage :=
  (post.getLast?.map fun r => r.2.toStorage).getD s

/-- Among the calls in effect at `p`, `tx` took the storage from `s` to
`s'`. -/
def Took (p : Point World Tx) (tx : Tx) (s s' : Storage) : Prop :=
  ∃ post w pre, p.past = post ++ (tx, w) :: pre ∧ s = w.toStorage
    ∧ s' = stateAfter post p.state.toStorage

/-- A linked history splits at each of its calls. -/
lemma Linked.split : ∀ {post : History} {s : Storage}, Linked d (post ++ (tx, w) :: pre) s →
      Effect d tx w.toStorage (stateAfter post s) ∧ Linked d pre w.toStorage
  | [], _, h => h
  | [_], _, ⟨_, h⟩ => h
  | _ :: r :: post, s, ⟨_, h⟩ => by
    have hlast : ∀ x : Tx × World, stateAfter (x :: r :: post) s
        = stateAfter (r :: post) x.2.toStorage := by
      intro x
      simp only [stateAfter, getLast?_cons_cons]
      rw [getLast?_eq_some_getLast (cons_ne_nil r post)]
      rfl
    rw [hlast]
    exact Linked.split h

variable {d : Deployment} {p : Point World Tx} {tx : Tx} {s s' : Storage}

lemma Took.effect (h : Inv d pend p) (ht : Took p tx s s') :
    Effect d tx s s' ∧ ∃ pre, Linked d pre s := by
  obtain ⟨post, w, pre, hpast, rfl, rfl⟩ := ht
  have hlink := h.linked
  rw [hpast] at hlink
  obtain ⟨heff, hpre⟩ := hlink.split
  exact ⟨heff, pre, hpre⟩

/-! ## Vouchers -/

/-- The call presents the voucher `ps` for agreement `id`. -/
def Call.presents (c : Call) (id : Bytes32) (ps : PaymentState) : Prop :=
  c = .submitPaymentState id ps ∨ c = .disputeFailure id ps

/-- What is on record about the vouchers of an agreement. -/
def EscrowAgreement.vouchers (ag : EscrowAgreement) : Nat × Nat × Bool :=
  (ag.latestSequence, ag.latestCumulativePayment, ag.hasPaymentState)

variable {m : Msg} {c : Call} {ag : EscrowAgreement} {id : Bytes32}

/-- A move either presents a newer voucher, on an agreement that is not
terminated, or leaves the record alone. -/
lemma Move.voucher (h : Move d m c ag ag') (htarget : c.target = some id) :
    (∃ ps, c.presents id ps ∧ ag.state ≠ .terminated ∧ ag.latestSequence < ps.sequence
        ∧ ag.latestCumulativePayment ≤ ps.cumulativePayment
        ∧ ag'.vouchers = (ps.sequence, ps.cumulativePayment, true))
      ∨ ((∀ ps, ¬c.presents id ps) ∧ ag'.vouchers = ag.vouchers) := by
  cases h with
  | @submit id' ag ps hrange hstate hfits hwindow hok hsig =>
    cases htarget
    obtain ⟨hseq, hcum, -⟩ := voucherOk_next hok
    exact .inl ⟨ps, .inl rfl, by simp [hstate], hseq, hcum, rfl⟩
  | @dispute id' ag ps hrange hsender hstate hok hsig =>
    cases htarget
    obtain ⟨hseq, hcum, -⟩ := voucherOk_next hok
    exact .inl ⟨ps, .inr rfl, by simp [hstate], hseq, hcum, rfl⟩
  | _ => exact .inr ⟨by simp [Call.presents], rfl⟩

/-- The same for the whole storage, and for any agreement that exists. -/
lemma Effect.voucher (h : Effect d tx s s') (hex : (s.agreements id).exists' = true) :
    (∃ ps, tx.call.presents id ps ∧ (s.agreements id).state ≠ .terminated
        ∧ (s.agreements id).latestSequence < ps.sequence
        ∧ (s.agreements id).latestCumulativePayment ≤ ps.cumulativePayment
        ∧ (s'.agreements id).vouchers = (ps.sequence, ps.cumulativePayment, true))
      ∨ ((∀ ps, ¬tx.call.presents id ps)
        ∧ (s'.agreements id).vouchers = (s.agreements id).vouchers) := by
  rcases h.at id with ⟨hne, heq⟩ | ⟨htarget, -, hmove⟩ | ⟨-, hno, -⟩
  · refine .inr ⟨fun ps hps => hne ?_, by rw [heq]⟩
    rcases hps with hps | hps <;> rw [hps] <;> rfl
  · exact hmove.voucher htarget
  · rw [hex] at hno; cases hno

/-! ## The reward -/

/-- The transfers by which the reward has left the escrow of an agreement. -/
def rewardPayouts (id : Bytes32) (ag : EscrowAgreement) : List Transfer :=
  match ag.state with
  | .settled =>
    [⟨id, .providerPayment, ag.provider, ag.latestCumulativePayment⟩,
      ⟨id, .publisherRefund, ag.publisher, ag.reward - ag.latestCumulativePayment⟩]
  | .refunded => [⟨id, .refund, ag.publisher, ag.reward⟩]
  | _ => []

/-- `t` moves reward of the agreement `id`. -/
def rewardOf (id : Bytes32) (t : Transfer) : Bool :=
  t.contractID = id && (t.purpose = .providerPayment || t.purpose = .publisherRefund
    || t.purpose = .refund)

/-- `t` moves collateral of the agreement `id`. -/
def collateralOf (id : Bytes32) (t : Transfer) : Bool :=
  t.contractID = id && (t.purpose = .collateralReturn || t.purpose = .slash)

lemma filter_due_other (hf : ∀ t, f t = true → t.contractID = id)
    (hne : tx.call.target ≠ some id) : (due tx s).filter f = [] := by
  rw [filter_eq_nil_iff]
  intro t ht hft
  rw [← hf t hft] at hne
  exact hne (mem_due ht).1

variable {t : Transfer}

lemma rewardOf_id (h : rewardOf id t = true) : t.contractID = id := by
  simp only [rewardOf, Bool.and_eq_true, decide_eq_true_eq] at h
  exact h.1

lemma collateralOf_id (h : collateralOf id t = true) : t.contractID = id := by
  simp only [collateralOf, Bool.and_eq_true, decide_eq_true_eq] at h
  exact h.1

lemma dues_cons (tx : Tx) (w : World) (past : History) :
    dues ((tx, w) :: past) = due tx w.toStorage ++ dues past := rfl

lemma due_target (h : tx.call.target = some id) :
    due tx s = nonzero (payouts (s.agreements id) tx.call) := by
  rw [due, h]

lemma nonzero_filter (f : Transfer → Bool) (ts : List Transfer) :
    (nonzero ts).filter f = nonzero (ts.filter f) := by
  simp only [nonzero, filter_filter]
  exact filter_congr fun t _ => Bool.and_comm ..

/-- A move that pays out reward is the one that ends the agreement. -/
lemma Move.reward (h : Move d m c ag ag') (hs : Sound ag) (htarget : c.target = some id) :
    nonzero ((payouts ag c).filter (rewardOf id)) ++ nonzero (rewardPayouts id ag)
      = nonzero (rewardPayouts id ag') := by
  cases h with
  | fund hsender hstate hvalue => simp [payouts, rewardPayouts, hstate, nonzero]
  | deposit hsender hstate hnone hreq hvalue => simp [payouts, rewardPayouts, hstate, nonzero]
  | activate hsender hstate hesc hcoll hdeadline => simp [payouts, rewardPayouts, hstate, nonzero]
  | submit hrange hstate hfits hwindow hok hsig =>
    simp [payouts, rewardPayouts, hstate, nonzero, EscrowAgreement.record]
  | settle hstate hhas hseq hcum hid hle =>
    cases htarget
    have hesc := hs.holds (by rw [hstate]; rfl)
    simp [payouts, rewardPayouts, rewardOf, hstate, hesc, nonzero]
  | @refund id' ag hsender hstate =>
    obtain rfl := Option.some.inj htarget
    have hesc : ag.escrowBalance = ag.reward := by
      refine hs.holds ?_
      rcases hstate with hstate | hstate | ⟨hstate, -⟩ <;> rw [hstate] <;> rfl
    have hnone : rewardPayouts id' ag = [] := by
      rcases hstate with hstate | hstate | ⟨hstate, -, -, -⟩ <;> simp [rewardPayouts, hstate]
    rw [hnone]
    simp [payouts, rewardPayouts, rewardOf, hesc, nonzero]
  | giveBack hstate hcoll => simp [payouts, rewardPayouts, rewardOf, nonzero]
  | mark hsender hstate hreason => simp [payouts, rewardPayouts, hstate, nonzero]
  | dispute hrange hsender hstate hok hsig => simp [payouts, rewardPayouts, hstate, nonzero]
  | slash hsender hstate hpenalty => simp [payouts, rewardPayouts, rewardOf, hstate, nonzero]
  | terminate hexp => simp [payouts, rewardPayouts, hexp.1, nonzero]

/-- **The reward leaves the escrow once.** The transfers of reward that a
history owes are those of the state the agreement is in. -/
theorem Linked.reward (id : Bytes32) : ∀ {past : History} {s : Storage}, Linked d past s →
      (dues past).filter (rewardOf id) = nonzero (rewardPayouts id (s.agreements id))
  | [], s, h => by
    obtain rfl : s = World.init.toStorage := h
    rfl
  | (tx, w) :: past, s, ⟨heff, hlink⟩ => by
    rw [dues_cons, filter_append, Linked.reward id hlink]
    rcases heff.at id with ⟨hne, heq⟩ | ⟨htarget, -, hmove⟩ |
      ⟨hnone, hno, provider, fileID, reward, periods, duration, rulesHash, coll, -, -, -, heq⟩
    · rw [filter_due_other (fun _ => rewardOf_id) hne, heq, nil_append]
    · rw [due_target htarget, nonzero_filter]
      exact hmove.reward (hlink.sound id).1 htarget
    · rw [filter_due_other (fun _ => rewardOf_id) (by simp [hnone]), heq, (hlink.sound id).2 hno]
      rfl

/-! ## The collateral -/

/-- The collateral deposited for the agreement `id`. -/
def deposited (id : Bytes32) (past : History) : Nat :=
  ((past.filter fun r => r.1.call = .depositCollateral id).map (·.1.msg.value)).sum

lemma deposited_cons (id : Bytes32) (tx : Tx) (w : World) (past : History) :
    deposited id ((tx, w) :: past)
      = (if tx.call = .depositCollateral id then tx.msg.value else 0) + deposited id past := by
  by_cases h : tx.call = .depositCollateral id <;> simp [deposited, h]

lemma Move.collateral (h : Move d m c ag ag') (htarget : c.target = some id) :
    amounts ((payouts ag c).filter (collateralOf id)) + ag'.collateral
      = ag.collateral + if c = .depositCollateral id then m.value else 0 := by
  cases h with
  | deposit hsender hstate hnone hreq hvalue =>
    cases htarget
    simp [payouts, hnone]
  | @slash id' ag penalty hsender hstate hpenalty =>
    cases htarget
    have := penaltyAmount_le ag.collateral penalty
    simp [payouts, collateralOf, amounts]
    omega
  | giveBack hstate hcoll =>
    cases htarget
    simp [payouts, collateralOf, amounts]
  | settle | refund => simp [payouts, collateralOf, amounts]
  | fund | activate | submit | mark | dispute | terminate =>
    simp [payouts, amounts, EscrowAgreement.record]

/-- **Collateral is conserved.** What slashing and returning took out and
what is left is what was deposited. -/
theorem Linked.collateral (id : Bytes32) : ∀ {past : History} {s : Storage}, Linked d past s →
      amounts ((dues past).filter (collateralOf id)) + (s.agreements id).collateral
        = deposited id past
  | [], s, h => by
    obtain rfl : s = World.init.toStorage := h
    rfl
  | (tx, w) :: past, s, ⟨heff, hlink⟩ => by
    have hold := Linked.collateral id hlink
    have hsplit : amounts ((dues ((tx, w) :: past)).filter (collateralOf id))
        = amounts ((due tx w.toStorage).filter (collateralOf id))
          + amounts ((dues past).filter (collateralOf id)) := by
      rw [dues_cons, filter_append]
      simp [amounts]
    have hnot : tx.call.target ≠ some id → tx.call ≠ .depositCollateral id := by
      rintro hne hc
      exact hne (by rw [hc]; rfl)
    rw [hsplit, deposited_cons]
    rcases heff.at id with ⟨hne, heq⟩ | ⟨htarget, -, hmove⟩ |
      ⟨hnone, hno, provider, fileID, reward, periods, duration, rulesHash, coll, -, -, -, heq⟩
    · rw [filter_due_other (fun _ => collateralOf_id) hne, heq, if_neg (hnot hne), amounts_nil]
      omega
    · have hone := hmove.collateral htarget
      rw [due_target htarget, nonzero_filter, amounts_nonzero]
      omega
    · have hne : tx.call.target ≠ some id := by simp [hnone]
      have hblank := (hlink.sound id).2 hno
      rw [hblank] at hold
      rw [filter_due_other (fun _ => collateralOf_id) hne, heq, if_neg (hnot hne), amounts_nil]
      simp only [newAgreement, emptyAgreement] at *
      omega

/-! ## The lifecycle -/

lemma Effect.paymentStates (h : Effect d tx s s') (hno : ∀ ps, ¬tx.call.presents id ps) :
    s'.latestPaymentStates id = s.latestPaymentStates id := by
  cases h with
  | create => rfl
  | move htarget hex hmove hv =>
    generalize tx.call = call at hno
    cases call with
    | submitPaymentState id' ps =>
      refine Function.update_of_ne (fun heq => hno ps (.inl ?_)) _ _
      rw [heq]
    | disputeFailure id' ps =>
      refine Function.update_of_ne (fun heq => hno ps (.inr ?_)) _ _
      rw [heq]
    | _ => rfl

/-- What an effect does to the record of vouchers of an agreement. -/
lemma Effect.record (h : Effect d tx s s') (hex : (s.agreements id).exists' = true) :
    (s.agreements id).latestCumulativePayment ≤ (s'.agreements id).latestCumulativePayment
      ∧ (∀ ps, tx.call.presents id ps →
          (s.agreements id).latestSequence < (s'.agreements id).latestSequence)
      ∧ ((s.agreements id).state = .terminated →
          (s'.agreements id).vouchers = (s.agreements id).vouchers
            ∧ s'.latestPaymentStates id = s.latestPaymentStates id) := by
  rcases h.voucher hex with ⟨ps, -, hstate, hseq, hcum, hrec⟩ | ⟨hno, hrec⟩
  · simp only [EscrowAgreement.vouchers, Prod.mk.injEq] at hrec
    refine ⟨hrec.2.1 ▸ hcum, fun _ _ => hrec.1 ▸ hseq, fun hterm => absurd hterm hstate⟩
  · have hkeep := hrec
    simp only [EscrowAgreement.vouchers, Prod.mk.injEq] at hkeep
    exact ⟨Nat.le_of_eq hkeep.2.1.symm, fun ps hps => absurd hps (hno ps),
      fun _ => ⟨hrec, h.paymentStates hno⟩⟩

/-- The refund that `settleContract` computes never underflows. -/
lemma settle_no_panic (d : Deployment) {w : World} (hs : Sound (w.agreements id)) (m : Msg)
    (ps : PaymentState) : exec d ⟨m, .settleContract id ps⟩ w ≠ .revert .panic := by
  have hesc : (w.agreements id).state = .active →
      ¬(w.agreements id).escrowBalance < (w.agreements id).latestCumulativePayment := by
    intro hstate
    have hall := hs.holds (by rw [hstate]; rfl)
    have := hs.cum
    omega
  have hsend : ∀ (t : Transfer) (w : World) (k : World → Prog World Error),
      (∀ w, k w ≠ .revert .panic) → sendValue d t w k ≠ .revert .panic := by
    intro t w k hk
    unfold sendValue
    split_ifs
    · exact hk w
    · simp
    · simp
  unfold exec
  split_ifs
  · simp
  · show settleContract d id ps (w.credit m.value) ≠ .revert .panic
    unfold settleContract withAgreement
    dsimp only
    split_ifs with hex hstate hps hlt
    · simp
    · simp
    · simp
    · simp only [ne_eq, not_or, not_not] at hstate
      exact absurd hlt (hesc hstate.1)
    · exact hsend _ _ _ fun w' => hsend _ _ _ fun w'' => by simp

/-- **The lifecycle of an agreement**, in any configuration of any run:
what the escrow holds in each state; the record of vouchers, over all
calls in effect; the transfers of reward, which are those of one
settlement or of one refund; and the collateral. `pend` is what calls in
progress have yet to pay. -/
theorem agreement_lifecycle (d : Deployment) (c : Config World Error Tx)
    (hr : Run (exec d) (NoCollision d) start c) (id : Bytes32) :
    let ag := c.now.state.agreements id
    (ag.state = .funded ∨ ag.state = .active ∨ ag.state = .failed ∨ ag.state = .terminated →
        ag.escrowBalance = ag.reward)
      ∧ (ag.state = .created ∨ ag.state = .settled ∨ ag.state = .refunded → ag.escrowBalance = 0)
      ∧ ag.latestCumulativePayment ≤ ag.reward
      ∧ (∀ tx s s', Took c.now tx s s' → (s.agreements id).exists' = true →
        (s.agreements id).latestCumulativePayment ≤ (s'.agreements id).latestCumulativePayment
          ∧ (∀ ps, tx.call.presents id ps →
              (s.agreements id).latestSequence < (s'.agreements id).latestSequence)
          ∧ ((s.agreements id).state = .terminated →
              (s'.agreements id).vouchers = (s.agreements id).vouchers
                ∧ s'.latestPaymentStates id = s.latestPaymentStates id))
      ∧ (∀ m ps, exec d ⟨m, .settleContract id ps⟩ c.now.state ≠ .revert .panic)
      ∧ ∃ pend, (c.Idle → pend = [])
        ∧ ((c.now.state.ledger ++ pend).filter (rewardOf id)).Perm (nonzero (rewardPayouts id ag))
        ∧ amounts (c.now.state.ledger.filter (collateralOf id))
            + amounts (pend.filter (collateralOf id)) + ag.collateral
          = deposited id c.now.past := by
  obtain ⟨pend, hinv, hst⟩ := run_ok hr
  obtain ⟨hs, -⟩ := hinv.linked.sound id
  refine ⟨fun h => ?_, fun h => ?_, hs.cum, fun tx s s' ht hexs => ?_,
    fun m ps => settle_no_panic d hs m ps, pend, fun hidle => hst.idle hidle, ?_, ?_⟩
  · refine hs.holds ?_
    rcases h with h | h | h | h <;> rw [h] <;> rfl
  · have := hs.escrow
    rcases h with h | h | h <;> simpa [h, ContractState.holdsReward] using this
  · exact (ht.effect hinv).1.record hexs
  · rw [← hinv.linked.reward id]
    exact hinv.paid.filter _
  · have hcoll := hinv.linked.collateral id
    have hperm : amounts ((c.now.state.ledger ++ pend).filter (collateralOf id))
        = amounts ((dues c.now.past).filter (collateralOf id)) :=
      ((hinv.paid.filter _).map _).sum_eq
    rw [filter_append] at hperm
    simp only [amounts, map_append, sum_append] at *
    omega

set_option maxRecDepth 8192

/-- A settled agreement: the reward of 10 went out as 4 and 6. -/
theorem agreement_lifecycle_settled : ∃ c, Run (exec sample) (NoCollision sample) start c
      ∧ (c.now.state.agreements 1).state = .settled
      ∧ (c.now.state.agreements 1).escrowBalance = 0 := by
  have hrun : Run (exec sample) (NoCollision sample) start _ :=
    run_sample [txCreate 5, txFund, txDeposit, txActivate,
        byProvider 0 1004 (.submitPaymentState 1 (sampleVoucher 1 4)),
        byProvider 0 1005 (.settleContract 1 (sampleVoucher 1 4))] (by decide) rfl
  exact ⟨_, hrun, rfl,
    (agreement_lifecycle sample _ hrun 1).2.1 (.inr (.inl rfl))⟩

/-! ## Recorded vouchers -/

/-- `t` pays the provider of `id` for its service. -/
def paysProvider (id : Bytes32) (t : Transfer) : Bool :=
  t.contractID = id && t.purpose = .providerPayment

/-- Whenever the reward of an agreement with a recorded voucher left the
escrow, the provider got at least what the voucher was good for. -/
def Honoured (p : Point World Tx) (id : Bytes32) : Prop :=
  ∀ tx s s', Took p tx s s' → (s.agreements id).hasPaymentState = true →
    0 < (s.agreements id).escrowBalance → (s'.agreements id).escrowBalance = 0 →
    (s.agreements id).latestCumulativePayment
      ≤ amounts (p.state.ledger.filter (paysProvider id))

/-- A call that empties the escrow is a settlement or a refund. -/
lemma Effect.leaves (h : Effect d tx s s') (hs : Sound (s.agreements id))
    (hex : (s.agreements id).exists' = true) (hhas : 0 < (s.agreements id).escrowBalance)
    (hgone : (s'.agreements id).escrowBalance = 0) :
    (∃ ps, tx.call = .settleContract id ps) ∨ tx.call = .refundPublisher id := by
  rcases h.at id with ⟨-, heq⟩ | ⟨htarget, -, hmove⟩ | ⟨-, hno, -⟩
  · rw [heq] at hgone; omega
  · obtain ⟨m, call⟩ := tx
    generalize s.agreements id = ag at hmove hhas hs
    generalize s'.agreements id = ag' at hmove hgone
    cases hmove with
    | settle => exact .inl ⟨_, by rw [Option.some.inj htarget]⟩
    | refund => exact .inr (by rw [Option.some.inj htarget])
    | fund hsender hstate hvalue =>
      have hnone : ag.escrowBalance = 0 := by
        simpa [hstate, ContractState.holdsReward] using hs.escrow
      omega
    | _ =>
      simp only [EscrowAgreement.record] at hgone
      omega
  · rw [hex] at hno; cases hno

lemma Move.refunded (h : Move d m (.refundPublisher id) ag ag') (hs : Sound ag) :
    ag.escrowBalance = ag.reward ∧ ag'.escrowBalance = 0 := by
  cases h with
  | refund hsender hstate =>
    refine ⟨?_, rfl⟩
    refine hs.holds ?_
    rcases hstate with hstate | hstate | ⟨hstate, -⟩ <;> rw [hstate] <;> rfl

lemma Took.due_mem (ht : Took p tx s s') (hdue : t ∈ due tx s) : t ∈ dues p.past := by
  obtain ⟨post, w, pre, hpast, rfl, -⟩ := ht
  exact mem_dues.mpr ⟨tx, w, by simp [hpast], hdue⟩

lemma le_amounts (h : t ∈ ts) : t.amount ≤ amounts ts :=
  le_sum_of_mem (mem_map_of_mem h)

/-- A settlement pays what is on record. -/
lemma Inv.settled_pays (h : Inv d [] p) (ht : Took p tx s s')
    (hcall : tx.call = .settleContract id ps) :
    (s.agreements id).latestCumulativePayment
      ≤ amounts (p.state.ledger.filter (paysProvider id)) := by
  by_cases hzero : (s.agreements id).latestCumulativePayment = 0
  · omega
  · have htarget : tx.call.target = some id := by rw [hcall]; rfl
    have hdue : (⟨id, .providerPayment, (s.agreements id).provider,
        (s.agreements id).latestCumulativePayment⟩ : Transfer) ∈ due tx s := by
      rw [due_target htarget, hcall]
      simp [payouts, nonzero, hzero]
    have hmem := h.paid.mem_iff.mpr (ht.due_mem hdue)
    rw [append_nil] at hmem
    exact le_amounts (mem_filter.mpr ⟨hmem, by simp [paysProvider]⟩)

/-- Once the publisher has been refunded the provider gets nothing. -/
lemma Inv.refunded_pays (h : Inv d [] p) (ht : Took p tx s s')
    (hcall : tx.call = .refundPublisher id) (hesc : (s.agreements id).escrowBalance ≠ 0) :
    p.state.ledger.filter (paysProvider id) = [] := by
  have hreward := h.linked.reward id
  have htarget : tx.call.target = some id := by rw [hcall]; rfl
  have hdue : (⟨id, .refund, (s.agreements id).publisher, (s.agreements id).escrowBalance⟩ :
      Transfer) ∈ (dues p.past).filter (rewardOf id) := by
    refine mem_filter.mpr ⟨ht.due_mem ?_, by simp [rewardOf]⟩
    rw [due_target htarget, hcall]
    simp [payouts, nonzero, hesc]
  rw [filter_eq_nil_iff]
  intro t hmem hpays
  simp only [paysProvider, Bool.and_eq_true, decide_eq_true_eq] at hpays
  have hpaid : t ∈ (dues p.past).filter (rewardOf id) := by
    refine mem_filter.mpr ⟨h.paid.mem_iff.mp (by simpa using hmem), ?_⟩
    simp [rewardOf, hpays.1, hpays.2]
  -- The two transfers belong to different states of the agreement.
  rw [hreward, nonzero, mem_filter] at hdue hpaid
  unfold rewardPayouts at hdue hpaid
  split at hdue
  · simp at hdue
  · rename_i hstate
    simp only [hstate, mem_singleton] at hpaid
    rw [hpaid.1] at hpays
    simp at hpays
  · simp at hdue

/-- **When vouchers are honoured**: exactly in the runs in which no
refund was made on an agreement with a voucher on record that was good
for something. -/
theorem voucher_honoured_iff (d : Deployment) (c : Config World Error Tx)
    (hr : Run (exec d) (NoCollision d) start c) (hidle : c.Idle) (id : Bytes32) :
    Honoured c.now id ↔ ∀ tx s s', Took c.now tx s s' → tx.call = .refundPublisher id →
      (s.agreements id).latestCumulativePayment = 0 := by
  have hinv := (run_ok hr).idle hidle
  constructor
  · intro hhon tx s s' ht hcall
    obtain ⟨heff, pre, hpre⟩ := ht.effect hinv
    have hs := (hpre.sound id).1
    by_contra hcum
    have hhas : (s.agreements id).hasPaymentState = true := by
      by_contra hno
      exact hcum (hs.noVoucher (by simpa using hno)).1
    rcases heff.at id with ⟨hne, -⟩ | ⟨-, -, hmove⟩ | ⟨hnone, -⟩
    · exact hne (by rw [hcall]; rfl)
    · rw [hcall] at hmove
      obtain ⟨hall, hgone⟩ := hmove.refunded hs
      have hcap := hs.cum
      have hle := hhon tx s s' ht hhas (by omega) hgone
      rw [hinv.refunded_pays ht hcall (by omega), amounts_nil] at hle
      omega
    · rw [hcall] at hnone; cases hnone
  · intro hnone tx s s' ht hhas hpos hgone
    obtain ⟨heff, pre, hpre⟩ := ht.effect hinv
    obtain ⟨hs, hblank⟩ := hpre.sound id
    have hex : (s.agreements id).exists' = true := by
      by_contra hno
      rw [hblank (by simpa using hno)] at hpos
      exact absurd hpos (by simp [emptyAgreement])
    rcases heff.leaves hs hex hpos hgone with ⟨ps, hcall⟩ | hcall
    · exact hinv.settled_pays ht hcall
    · rw [hnone tx s s' ht hcall]
      exact Nat.zero_le _

/-- The same agreement, settled. -/
theorem voucher_honoured_settled : ∃ c, Run (exec sample) (NoCollision sample) start c ∧ c.Idle
      ∧ (c.now.state.agreements 1).hasPaymentState = true
      ∧ (Honoured c.now 1 ↔ ∀ tx s s', Took c.now tx s s' → tx.call = .refundPublisher 1 →
        (s.agreements 1).latestCumulativePayment = 0) := by
  have hrun : Run (exec sample) (NoCollision sample) start _ :=
    run_sample [txCreate 5, txFund, txDeposit, txActivate,
        byProvider 0 1004 (.submitPaymentState 1 (sampleVoucher 1 4)),
        byProvider 0 1005 (.settleContract 1 (sampleVoucher 1 4))] (by decide) rfl
  have hidle : ∀ x ∈ ([] : List (Pending World Error Tx)), x.IsForeign := by simp
  exact ⟨_, hrun, hidle, rfl, voucher_honoured_iff sample _ hrun hidle 1⟩

/-- The publisher alone takes everything back: after a voucher over 4 has
been recorded, `markFailure` and `refundPublisher` pay them the whole
reward. -/
theorem voucher_not_honoured : ∃ c, Run (exec sample) (NoCollision sample) start c ∧ c.Idle
      ∧ (∀ r ∈ c.now.past, r.1.msg.sender = (c.now.state.agreements 1).publisher)
      ∧ (c.now.state.agreements 1).hasPaymentState = true
      ∧ (c.now.state.agreements 1).latestCumulativePayment = 4
      ∧ (c.now.state.agreements 1).state = .refunded
      ∧ c.now.state.ledger = [⟨1, .refund, 1, 10⟩]
      ∧ ¬Honoured c.now 1 := by
  have hrun : Run (exec sample) (NoCollision sample) start _ :=
    run_sample [txCreate 0, txFund, txActivate,
        byPublisher 0 1004 (.submitPaymentState 1 (sampleVoucher 1 4)),
        byPublisher 0 1005 (.markFailure 1 .availabilityFailure),
        byPublisher 0 1006 (.refundPublisher 1)] (by decide) rfl
  have hidle : ∀ x ∈ ([] : List (Pending World Error Tx)), x.IsForeign := by simp
  refine ⟨_, hrun, hidle, ?_, rfl, rfl, rfl, rfl, fun hhon => ?_⟩
  · simp only [forall_mem_cons]
    exact ⟨rfl, rfl, rfl, rfl, rfl, rfl, by simp [World.init]⟩
  · have hle := hhon _ _ _ ⟨[], _, _, rfl, rfl, rfl⟩ rfl (by decide) rfl
    exact absurd hle (by decide)

end Cipher.Escrow
