import Cipher.EscrowHistory

/-!
# Solvency of the escrow contract

Each move of an agreement conserves money: what the agreement holds
afterwards, together with what the move owes, is what it held before
and what came in. Summed over all agreements and over a history this is
`Linked.held`; with the run invariant it pins the balance down to what
the agreements hold plus what suspended calls have not paid yet.
-/

namespace Cipher.Escrow

open Evm List

/-- The ETH an agreement accounts for. -/
def held (ag : EscrowAgreement) : Nat := ag.escrowBalance + ag.collateral

lemma Move.held (h : Move d m c ag ag') (hs : Sound ag) (hv : c.payable = false → m.value = 0) :
    Escrow.held ag' + amounts (payouts ag c) = Escrow.held ag + m.value := by
  cases h with
  | fund hsender hstate hvalue =>
    have := hs.escrow
    simp_all [Escrow.held, payouts, amounts, ContractState.holdsReward]
    omega
  | deposit hsender hstate hnone hreq hvalue =>
    simp [Escrow.held, payouts, amounts, hnone]
  | activate | submit | mark | dispute | terminate =>
    simp [Escrow.held, payouts, amounts, EscrowAgreement.record, hv rfl]
  | settle hstate hhas hseq hcum hid hle =>
    simp only [Escrow.held, payouts, amounts, map_cons, map_nil, sum_cons, sum_nil, hv rfl]
    omega
  | refund hsender hstate =>
    simp [Escrow.held, payouts, amounts, hv rfl]
    omega
  | giveBack hstate hcoll =>
    simp [Escrow.held, payouts, amounts, hv rfl]
  | slash hsender hstate hpenalty =>
    rename_i id penalty
    have := penaltyAmount_le ag.collateral penalty
    simp only [Escrow.held, payouts, amounts, map_cons, map_nil, sum_cons, sum_nil, hv rfl]
    omega

lemma Effect.held (h : Effect d tx s s') (hs : ∀ id, Sound (s.agreements id))
    (hblank : ∀ id, (s.agreements id).exists' = false → s.agreements id = emptyAgreement) :
    ∑ id, Escrow.held (s'.agreements id) + amounts (due tx s)
      = ∑ id, Escrow.held (s.agreements id) + tx.msg.value := by
  cases h with
  | @create m provider fileID reward periods duration rulesHash collateralRequired s hnew hp hr hd
      hv =>
      have hsum := sum_update Escrow.held s.agreements
        (newContractID d m.sender provider fileID s.nextContractNonce)
        (newAgreement m provider fileID reward periods duration rulesHash collateralRequired)
      rw [hblank _ hnew] at hsum
      simp only [Escrow.held, newAgreement, emptyAgreement] at hsum
      simp only [Escrow.held, due, Call.target, amounts, map_nil, sum_nil, newAgreement]
      omega
  | @move tx s id ag' htarget hex hmove hv =>
    have hsum := sum_update Escrow.held s.agreements id ag'
    have hone := hmove.held (hs id) hv
    rw [due, htarget]
    simp only [amounts_nonzero]
    omega

lemma Linked.held : ∀ {past : History} {s : Storage}, Linked d past s →
      ∑ id, Escrow.held (s.agreements id) + amounts (dues past) = values past
  | [], s, h => by
    obtain rfl : s = World.init.toStorage := h
    simp [World.init, emptyAgreement, Escrow.held, dues, amounts, values]
  | (tx, w) :: past, s, ⟨heff, hlink⟩ => by
    have hstep := heff.held (fun id => (hlink.sound id).1) (fun id => (hlink.sound id).2)
    have hold := Linked.held hlink
    have hcons : amounts (dues ((tx, w) :: past))
        = amounts (due tx w.toStorage) + amounts (dues past) := by
      simp [dues, amounts]
    have hval : values ((tx, w) :: past) = tx.msg.value + values past := by
      simp [values]
    omega

/-- The balance is what the agreements hold and what is still to be paid. -/
lemma Inv.balance (h : Inv d pend p) :
    p.state.balance = ∑ id, held (p.state.agreements id) + amounts pend := by
  have hheld := h.linked.held
  have hfunds := h.funds
  have hperm : amounts (p.state.ledger ++ pend) = amounts (dues p.past) :=
    (h.paid.map _).sum_eq
  simp only [amounts, map_append, sum_append] at *
  omega

/-- The sum over the agreements that were created. -/
lemma Inv.sum_created (h : Inv d pend p) : ∑ id with (p.state.agreements id).exists' = true,
        ((p.state.agreements id).escrowBalance + (p.state.agreements id).collateral)
      = ∑ id, held (p.state.agreements id) := by
  refine Finset.sum_filter_of_ne fun id _ hne => ?_
  by_contra hno
  rw [(h.linked.sound id).2 (by simpa using hno)] at hne
  exact hne rfl

/-- **Solvency.** Whenever no call is in progress the contract holds
exactly the escrows and collaterals of all agreements ever created, and
at every other moment, in particular when a payee calls back, it holds
at least that much. -/
theorem escrow_solvent (d : Deployment) (c : Config World Error Tx)
    (hr : Run (exec d) (NoCollision d) start c) :
    (c.Idle → c.now.state.balance
        = ∑ id with (c.now.state.agreements id).exists' = true,
            ((c.now.state.agreements id).escrowBalance + (c.now.state.agreements id).collateral))
      ∧ ∑ id with (c.now.state.agreements id).exists' = true,
            ((c.now.state.agreements id).escrowBalance + (c.now.state.agreements id).collateral)
          ≤ c.now.state.balance := by
  have hok := run_ok hr
  refine ⟨fun hidle => ?_, ?_⟩
  · have hinv := hok.idle hidle
    rw [hinv.sum_created, hinv.balance, amounts_nil, Nat.add_zero]
  · obtain ⟨pend, hinv, -⟩ := hok
    rw [hinv.sum_created, hinv.balance]
    omega

set_option maxRecDepth 8192 in
/-- An active agreement with its reward of 10 and its collateral of 5. -/
theorem escrow_solvent_active : ∃ c, Run (exec sample) (NoCollision sample) start c ∧ c.Idle
      ∧ 15 = ∑ id with (c.now.state.agreements id).exists' = true,
          ((c.now.state.agreements id).escrowBalance
            + (c.now.state.agreements id).collateral) := by
  have hrun : Run (exec sample) (NoCollision sample) start _ :=
    run_sample [txCreate 5, txFund, txDeposit, txActivate] (by decide) rfl
  have hidle : ∀ x ∈ ([] : List (Pending World Error Tx)), x.IsForeign := by simp
  exact ⟨_, hrun, hidle, (escrow_solvent sample _ hrun).1 hidle⟩

end Cipher.Escrow
