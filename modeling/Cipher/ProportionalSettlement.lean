import Cipher.Contracts
import Mathlib.Algebra.Order.Ring.Int

/-!
# Proportional settlement

`CalculateSettlement` releases the share of the funded amount that the
successful results have in all results. It multiplies before it divides, in
64 bits, so the product can wrap. Dividing does not undo that: the quotient
is off by far more than the rounding. The amounts are right if and only if
the product of the funded amount and the number of successes fits.
-/

namespace Cipher.Availability

open Bytes Binary Go Content Transition List

/-! ## Division in 64 bits -/

/-- A quotient by a length is no larger than what is divided, so only the
rounding is that of the machine. -/
lemma toInt_div_ofNat (a : Int64) (hpos : 0 < n) (hn : n < 2 ^ 63) :
    (a / Int64.ofNat n).toInt = a.toInt.tdiv n := by
  have hle := a.le_toInt
  have hlt := a.toInt_lt
  have hn' : (0 : Int) < n := Int.natCast_pos.mpr hpos
  have hquotient := Int.mul_tdiv_add_tmod a.toInt n
  have hrest := Int.tmod_lt_of_pos a.toInt hn'
  have hrest' := Int.lt_tmod_of_pos a.toInt hn'
  rw [Int64.toInt_div, Int64.toInt_ofNat_of_lt hn]
  refine Int.bmod_eq_of_le ?_ ?_
  · by_contra hneg
    have hfar : (n : Int) * a.toInt.tdiv n ≤ n * (-(2 ^ 63) - 1) :=
      mul_le_mul_of_nonneg_left (by omega) hn'.le
    omega
  · by_contra hneg
    have hfar : (n : Int) * 2 ^ 63 ≤ n * a.toInt.tdiv n :=
      mul_le_mul_of_nonneg_left (by omega) hn'.le
    omega

/-- The product is divided as it should be if and only if it does not
wrap. -/
lemma toInt_mul_div_eq_iff {a : Int64} (ha : 0 ≤ a.toInt) (hpos : 0 < n)
    (hsn : s ≤ n) (hn : n < 2 ^ 63) :
    (a * Int64.ofNat s / Int64.ofNat n).toInt = a.toInt * s / n ↔ a.toInt * s < 2 ^ 63 := by
  have hproduct : 0 ≤ a.toInt * s := mul_nonneg ha (Int.natCast_nonneg s)
  have hn' : (0 : Int) < n := Int.natCast_pos.mpr hpos
  rw [toInt_div_ofNat _ hpos hn, Int64.toInt_mul, Int64.toInt_ofNat_of_lt (by omega)]
  generalize a.toInt * s = product at hproduct
  constructor
  · intro heq
    by_contra hlarge
    -- both the product and what is left of it lie within `n` of one multiple of `n`
    have hwrapped := Int.mul_tdiv_add_tmod (product.bmod (2 ^ 64)) n
    have hwrapped' := Int.lt_tmod_of_pos (product.bmod (2 ^ 64)) hn'
    have hexact := Int.mul_ediv_add_emod product n
    have hexact' := Int.emod_lt_of_pos product hn'
    rw [heq] at hwrapped
    rw [Int.bmod_def] at hwrapped hwrapped'
    omega
  · intro hfits
    rw [Int.bmod_eq_of_le (by omega) (by omega), Int.tdiv_eq_ediv_of_nonneg hproduct]

/-! ## The settlement -/

/-- The share of the successes in the funded amount, rounded down. -/
def proportion (fundedAmount : Int64) (results : List ChallengeResult) : Int :=
  fundedAmount.toInt * results.countP (·.succeeded) / results.length

/-- What a settlement of the funded amount is to be. -/
structure Proportional (fundedAmount : Int64) (results : List ChallengeResult)
    (settlement : SettlementState) : Prop where
  successful : settlement.successfulProofs.toInt = results.countP (·.succeeded)
  failed : settlement.failedProofs.toInt = results.length - results.countP (·.succeeded)
  released : settlement.releasedAmount.toInt = proportion fundedAmount results
  nonneg : 0 ≤ settlement.releasedAmount.toInt
  bounded : settlement.releasedAmount.toInt ≤ fundedAmount.toInt
  total : settlement.releasedAmount.toInt + settlement.withheldAmount.toInt = fundedAmount.toInt
  monotone : ∀ fewer settlement', fewer.length = results.length →
    fewer.countP (·.succeeded) ≤ results.countP (·.succeeded) →
    calculateSettlement fundedAmount fewer = .ok settlement' →
    settlement'.releasedAmount.toInt ≤ settlement.releasedAmount.toInt
  completed : settlement.status = .completed ↔
    results.countP (·.succeeded) = results.length

/-- What `calculateSettlement` has checked, and what it returns. -/
structure Calculated (fundedAmount : Int64) (results : List ChallengeResult)
    (settlement : SettlementState) : Prop where
  funded : 0 < fundedAmount.toInt
  nonempty : 0 < results.length
  successful : settlement.successfulProofs = Int64.ofNat (results.countP (·.succeeded))
  failed : settlement.failedProofs = Int64.ofNat (results.countP (!·.succeeded))
  released : settlement.releasedAmount =
    fundedAmount * Int64.ofNat (results.countP (·.succeeded)) / Int64.ofNat results.length
  withheld : settlement.withheldAmount = fundedAmount - settlement.releasedAmount
  completed : settlement.status = .completed ↔ settlement.withheldAmount = 0
  finalizedAt : settlement.finalizedAt = none

variable {fundedAmount : Int64} {results : List ChallengeResult}

lemma calculateSettlement_eq_ok (h : calculateSettlement fundedAmount results = .ok settlement) :
    Calculated fundedAmount results settlement := by
  rw [calculateSettlement] at h
  split at h
  · cases h
  rename_i hfunded
  split at h
  · cases h
  rename_i hresults
  cases h
  rw [Int64.le_iff_toInt_le] at hfunded
  refine ⟨not_le.mp hfunded, Nat.pos_of_ne_zero hresults, rfl, rfl, rfl, rfl, ?_, rfl⟩
  split <;> simp_all

lemma exists_calculateSettlement (hfunded : 0 < fundedAmount) (hresults : results ≠ []) :
    ∃ settlement, calculateSettlement fundedAmount results = .ok settlement := by
  have hlength : results.length ≠ 0 := fun h => hresults (eq_nil_of_length_eq_zero h)
  rw [calculateSettlement, if_neg (Int64.not_le.mpr hfunded), if_neg hlength]
  exact ⟨_, rfl⟩

lemma proportion_nonneg (hfunded : 0 < fundedAmount.toInt) : 0 ≤ proportion fundedAmount results :=
  Int.ediv_nonneg (mul_nonneg hfunded.le (Int.natCast_nonneg _)) (Int.natCast_nonneg _)

lemma proportion_le (hfunded : 0 < fundedAmount.toInt) (hresults : 0 < results.length) :
    proportion fundedAmount results ≤ fundedAmount.toInt := by
  refine Int.ediv_le_of_le_mul (Int.natCast_pos.mpr hresults) ?_
  exact mul_le_mul_of_nonneg_left (Int.ofNat_le.mpr countP_le_length) hfunded.le

lemma proportion_eq_funded_iff (hfunded : 0 < fundedAmount.toInt) (hresults : 0 < results.length) :
    proportion fundedAmount results = fundedAmount.toInt ↔
      results.countP (·.succeeded) = results.length := by
  have hlength : 0 < (results.length : Int) := Int.natCast_pos.mpr hresults
  have hcount : results.countP (·.succeeded) ≤ results.length := countP_le_length
  constructor
  · intro heq
    by_contra hne
    have hless : fundedAmount.toInt * results.countP (·.succeeded) <
        fundedAmount.toInt * results.length :=
      mul_lt_mul_of_pos_left (Int.ofNat_lt.mpr (lt_of_le_of_ne hcount hne)) hfunded
    exact (Int.ediv_lt_of_lt_mul hlength hless).ne heq
  · intro hall
    rw [proportion, hall]
    exact Int.mul_ediv_cancel _ hlength.ne'

lemma proportion_mono {fewer : List ChallengeResult} (hfunded : 0 < fundedAmount.toInt)
    (hresults : 0 < results.length) (hlength : fewer.length = results.length)
    (hfewer : fewer.countP (·.succeeded) ≤ results.countP (·.succeeded)) :
    proportion fundedAmount fewer ≤ proportion fundedAmount results := by
  rw [proportion, hlength]
  refine Int.ediv_le_ediv (Int.natCast_pos.mpr hresults) ?_
  exact mul_le_mul_of_nonneg_left (Int.ofNat_le.mpr hfewer) hfunded.le

/-- The share is released if and only if the product does not wrap. -/
lemma released_eq_proportion_iff (hlength : results.length < 2 ^ 63)
    (h : calculateSettlement fundedAmount results = .ok settlement) :
    settlement.releasedAmount.toInt = proportion fundedAmount results ↔
      fundedAmount.toInt * results.countP (·.succeeded) < 2 ^ 63 := by
  have hcalculated := calculateSettlement_eq_ok h
  rw [hcalculated.released]
  exact toInt_mul_div_eq_iff hcalculated.funded.le hcalculated.nonempty countP_le_length hlength

/-- A slice has fewer than `2 ^ 63` elements. -/
lemma proportional_of_fits (hlength : results.length < 2 ^ 63)
    (h : calculateSettlement fundedAmount results = .ok settlement)
    (hfits : fundedAmount.toInt * results.countP (·.succeeded) < 2 ^ 63) :
    Proportional fundedAmount results settlement := by
  have hcalculated := calculateSettlement_eq_ok h
  have hfunded := hcalculated.funded
  have hpos := hcalculated.nonempty
  have hreleased := (released_eq_proportion_iff hlength h).mpr hfits
  have hsplit := length_eq_countP_add_countP (·.succeeded) (l := results)
  have hnonneg : 0 ≤ proportion fundedAmount results := proportion_nonneg hfunded
  have hle := proportion_le hfunded hpos
  have hlt := fundedAmount.toInt_lt
  have hrest : settlement.withheldAmount.toInt =
      fundedAmount.toInt - proportion fundedAmount results := by
    rw [hcalculated.withheld, Int64.toInt_sub, hreleased]
    exact Int.bmod_eq_of_le (by omega) (by omega)
  refine ⟨?_, ?_, hreleased, by omega, by omega, by omega, ?_, ?_⟩
  · rw [hcalculated.successful, Int64.toInt_ofNat_of_lt (by omega)]
  · simp only [Bool.not_eq_true, Bool.decide_eq_false] at hsplit
    rw [hcalculated.failed, Int64.toInt_ofNat_of_lt (by omega)]
    omega
  · intro fewer settlement' hsame hfewer h'
    have hfits' : fundedAmount.toInt * fewer.countP (·.succeeded) < 2 ^ 63 :=
      (mul_le_mul_of_nonneg_left (Int.ofNat_le.mpr hfewer) hfunded.le).trans_lt hfits
    rw [hreleased, (released_eq_proportion_iff (hsame ▸ hlength) h').mpr hfits']
    exact proportion_mono hfunded hpos hsame hfewer
  · rw [hcalculated.completed, ← proportion_eq_funded_iff hfunded hpos, ← Int64.toInt_inj,
      Int64.toInt_zero]
    omega

/-- A settlement of a positive amount over some results is proportional if
and only if the product of the amount and the successes fits. -/
theorem settlement_proportional_iff {fundedAmount : Int64} {results : List ChallengeResult}
    (hfunded : 0 < fundedAmount.toInt) (hresults : results ≠ [])
    (hlength : results.length < 2 ^ 63) :
    ∃ settlement, calculateSettlement fundedAmount results = .ok settlement ∧
      (Proportional fundedAmount results settlement ↔
        fundedAmount.toInt * results.countP (·.succeeded) < 2 ^ 63) := by
  obtain ⟨settlement, h⟩ :=
    exists_calculateSettlement (Int64.lt_iff_toInt_lt.mpr hfunded) hresults
  exact ⟨settlement, h, fun hp => (released_eq_proportion_iff hlength h).mp hp.released,
    proportional_of_fits hlength h⟩

/-- Results with the given outcomes. -/
def outcomes (os : List Bool) : List ChallengeResult := os.map fun o => ⟨[], o, 0⟩

theorem settlement_proportional_two_of_three : ∃ settlement,
    calculateSettlement 100 (outcomes [true, false, true]) = .ok settlement ∧
      Proportional 100 (outcomes [true, false, true]) settlement ∧
      settlement.releasedAmount = 66 := by
  have hfunded : 0 < (100 : Int64).toInt := by decide
  have hresults : outcomes [true, false, true] ≠ [] := cons_ne_nil _ _
  obtain ⟨settlement, h, hiff⟩ := settlement_proportional_iff hfunded hresults (by decide)
  refine ⟨settlement, h, hiff.mpr (by decide), ?_⟩
  cases h
  decide

/-- Ten successes of ten over `10 ^ 18` units: less than nothing is
released, and the settlement does not count as completed. -/
theorem settlement_not_proportional : ∃ settlement,
    calculateSettlement (10 ^ 18) (outcomes (List.replicate 10 true)) = .ok settlement ∧
      settlement.releasedAmount = -844674407370955161 ∧ settlement.status = .withheld ∧
      ¬ Proportional (10 ^ 18) (outcomes (List.replicate 10 true)) settlement := by
  refine ⟨_, rfl, by decide, by decide, fun hp => ?_⟩
  exact absurd hp.nonneg (by decide)

end Cipher.Availability
