import Cipher.EscrowProgress

/-!
# Overturned failures

`markFailure` opens a phase of an agreement in which the publisher may
slash the collateral, and which a `disputeFailure` of the provider ends.
The history of such a phase is the stretch `mid` of calls between the
two. `Linked.failing` follows the agreement through it;
`dispute_restores_iff` compares the collateral at its two ends.
-/

namespace Cipher.Escrow

open Evm

/-- None of the calls took collateral from agreement `id` by slashing. -/
def NoSlash (id : Bytes32) (mid : History) : Prop :=
  ∀ r ∈ mid, ∀ penalty, r.1.call = .slashCollateral id penalty →
    (r.2.agreements id).collateral = 0

variable {id : Bytes32} {d : Deployment}

lemma noSlash_cons : NoSlash id (r :: mid) ↔
      (∀ penalty, r.1.call = .slashCollateral id penalty → (r.2.agreements id).collateral = 0)
        ∧ NoSlash id mid := by
  simp [NoSlash]

/-- Slashing takes something whenever there is something. -/
lemma slash_lt (hpenalty : penalty ≠ 0) (hcoll : collateral ≠ 0) :
    collateral - penaltyAmount collateral penalty < collateral := by
  unfold penaltyAmount
  split <;> omega

/-- A failed agreement is slashed, refunded or disputed. -/
lemma Move.from_failed (h : Move d m c ag ag') (htarget : c.target = some id)
    (hstate : ag.state = .failed) :
    (∃ penalty, c = .slashCollateral id penalty ∧ ag'.state = .failed
        ∧ ag'.collateral ≤ ag.collateral ∧ (ag'.collateral = ag.collateral ↔ ag.collateral = 0))
      ∨ ag'.state = .refunded ∨ ∃ ps, c = .disputeFailure id ps := by
  cases h with
  | @slash id' ag penalty hsender hstate' hpenalty =>
    cases htarget
    refine .inl ⟨penalty, rfl, hstate, Nat.sub_le _ _, ?_⟩
    constructor
    · intro heq
      by_contra hcoll
      have := slash_lt hpenalty hcoll
      dsimp only at heq
      omega
    · intro h0
      show ag.collateral - _ = ag.collateral
      omega
  | refund => exact .inr (.inl rfl)
  | @dispute id' ag ps =>
    cases htarget
    exact .inr (.inr ⟨ps, rfl⟩)
  | terminate hexp => rw [hexp.1] at hstate; cases hstate
  | giveBack hstate' => rcases hstate' with h | h | h <;> rw [h] at hstate <;> cases hstate
  | _ => simp_all

/-- A refunded agreement stays refunded. -/
lemma Move.from_refunded (h : Move d m c ag ag') (hstate : ag.state = .refunded) :
    ag'.state = .refunded := by
  cases h with
  | giveBack => exact hstate
  | terminate hexp => rw [hexp.1] at hstate; cases hstate
  | refund => rfl
  | _ => simp_all

/-- **The failing phase.** As long as no dispute succeeds, an agreement
marked failed is still failed, with its collateral reduced by the
slashing alone, or it has been refunded. -/
theorem Linked.failing : ∀ {mid : History} {s : Storage},
      Linked d (mid ++ (⟨m₁, .markFailure id reason⟩, w₁) :: pre) s →
      (∀ r ∈ mid, ∀ ps, r.1.call ≠ .disputeFailure id ps) →
      (s.agreements id).exists' = true
        ∧ (((s.agreements id).state = .failed
            ∧ (s.agreements id).collateral ≤ (w₁.agreements id).collateral
            ∧ ((s.agreements id).collateral = (w₁.agreements id).collateral ↔ NoSlash id mid))
          ∨ (s.agreements id).state = .refunded)
  | [], s, ⟨heff, _⟩, _ => by
    rcases heff.at id with ⟨hne, -⟩ | ⟨-, hex, hmove⟩ | ⟨hnone, -⟩
    · exact absurd rfl hne
    · refine ⟨hmove.exists'.trans hex, ?_⟩
      generalize s.agreements id = ag' at hmove
      cases hmove with
      | mark => exact .inl ⟨rfl, Nat.le_refl _, by simp [NoSlash]⟩
    · cases hnone
  | (tx, w) :: mid, s, ⟨heff, hlink⟩, hmid => by
    obtain ⟨hex, hold⟩ := Linked.failing hlink fun r hr => hmid r (List.mem_cons_of_mem _ hr)
    have hno := hmid _ (List.mem_cons_self ..)
    rw [noSlash_cons]
    rcases heff.at id with ⟨hne, heq⟩ | ⟨htarget, -, hmove⟩ | ⟨-, hnot, -⟩
    · rw [heq]
      have hother : ∀ penalty, tx.call ≠ .slashCollateral id penalty := by
        intro penalty hcall
        exact hne (by rw [hcall]; rfl)
      exact ⟨hex, by simpa [hother] using hold⟩
    · refine ⟨hmove.exists'.trans hex, ?_⟩
      rcases hold with ⟨hstate, hle, hiff⟩ | hstate
      · rcases hmove.from_failed htarget hstate with
          ⟨penalty, hcall, hstate', hle', hiff'⟩ | hstate' | ⟨ps, hcall⟩
        · refine .inl ⟨hstate', hle'.trans hle, ?_⟩
          have hthis : (∀ penalty, tx.call = .slashCollateral id penalty →
              (w.agreements id).collateral = 0) ↔ (w.agreements id).collateral = 0 :=
            ⟨fun h => h penalty hcall, fun h _ _ => h⟩
          rw [hthis, ← hiff, ← hiff']
          omega
        · exact .inr hstate'
        · exact absurd hcall (hno ps)
      · exact .inr (hmove.from_refunded hstate)
    · rw [hex] at hnot
      cases hnot

lemma Move.disputed (h : Move d m (.disputeFailure id ps) ag ag') :
    ag.state = .failed ∧ ag'.state = .active ∧ ag'.hasPaymentState = true
      ∧ ag'.collateral = ag.collateral := by
  cases h with
  | dispute hrange hsender hstate => exact ⟨hstate, rfl, rfl, rfl⟩

/-- **When an overturned failure costs the provider nothing.** A dispute
just succeeded; `mid` are the calls since the `markFailure` it answers.
The collateral is what it was before, and all of it can be got back
through `returnCollateral`, exactly if the publisher did not slash it in
between. -/
theorem dispute_restores_iff (d : Deployment) (c : Config World Error Tx)
    (hr : Run (exec d) (NoCollision d) start c) (id : Bytes32) (reason : FailureReason)
    (ps : PaymentState) (m₁ m₂ : Msg) (w₁ w₂ : World) (pre mid : History)
    (hpast : c.now.past = (⟨m₂, .disputeFailure id ps⟩, w₂)
      :: (mid ++ (⟨m₁, .markFailure id reason⟩, w₁) :: pre))
    (hmid : ∀ r ∈ mid, ∀ ps', r.1.call ≠ .disputeFailure id ps')
    (hout : Outside d (c.now.state.agreements id)) (now : Nat) (hnow : now < 2 ^ 64) :
    ((c.now.state.agreements id).collateral = (w₁.agreements id).collateral
        ∧ CanReclaim d c.now (c.now.state.agreements id).provider now id
          (returnsTo id (c.now.state.agreements id).provider) (w₁.agreements id).collateral)
      ↔ ∀ r ∈ mid, ∀ penalty, r.1.call = .slashCollateral id penalty →
          (r.2.agreements id).collateral = 0 := by
  obtain ⟨pend, hinv, -⟩ := run_ok hr
  have hs := (hinv.linked.sound id).1
  have hlink := hinv.linked
  rw [hpast] at hlink
  obtain ⟨heff, hlink⟩ := hlink
  obtain ⟨hex, hfailing⟩ := hlink.failing hmid
  rcases heff.at id with ⟨hne, -⟩ | ⟨-, -, hmove⟩ | ⟨hnone, -⟩
  · exact absurd rfl hne
  · obtain ⟨hstate₂, hstate, hhas, hcoll⟩ := hmove.disputed
    have hex' : (c.now.state.agreements id).exists' = true := hmove.exists'.trans hex
    have hcan : CanReclaim d c.now (c.now.state.agreements id).provider now id
        (returnsTo id (c.now.state.agreements id).provider)
        (c.now.state.agreements id).collateral :=
      (reclaims_settle hs hnow hstate hhas).canReclaim hr hex' hout
    rcases hfailing with ⟨-, -, hiff⟩ | hrefunded
    · rw [← hcoll] at hiff
      constructor
      · exact fun h => hiff.mp h.1
      · intro hslash
        have heq := hiff.mpr hslash
        exact ⟨heq, heq ▸ hcan⟩
    · rw [hstate₂] at hrefunded
      cases hrefunded
  · cases hnone

set_option maxRecDepth 8192

/-- A failure that is overturned before anything is slashed. -/
theorem dispute_restores_all : ∃ c, Run (exec sample) (NoCollision sample) start c
      ∧ (c.now.state.agreements 1).collateral = 5
      ∧ CanReclaim sample c.now 2 1006 1 (returnsTo 1 2) 5 := by
  have hrun : Run (exec sample) (NoCollision sample) start _ :=
    run_sample [txCreate 5, txFund, txDeposit, txActivate,
        byPublisher 0 1004 (.markFailure 1 .availabilityFailure),
        byProvider 0 1005 (.disputeFailure 1 (sampleVoucher 1 4))] (by decide) rfl
  have h := (dispute_restores_iff sample _ hrun 1 .availabilityFailure
    _ _ _ _ _ _ [] rfl nofun ⟨by decide, by decide⟩ 1006 (by decide)).mpr nofun
  exact ⟨_, hrun, h.1, h.2⟩

/-- The publisher slashes everything before the provider can answer: the
dispute succeeds and the collateral is gone. -/
theorem dispute_too_late :
    ∃ c w₁ w₂ pre mid m₁ m₂, Run (exec sample) (NoCollision sample) start c ∧ c.Idle
      ∧ c.now.past = (⟨m₂, .disputeFailure 1 (sampleVoucher 1 4)⟩, w₂)
        :: (mid ++ (⟨m₁, .markFailure 1 .availabilityFailure⟩, w₁) :: pre)
      ∧ (w₁.agreements 1).collateral = 5
      ∧ (c.now.state.agreements 1).state = .active
      ∧ (c.now.state.agreements 1).collateral = 0
      ∧ c.now.state.ledger = [⟨1, .slash, 1, 5⟩] := by
  have hrun : Run (exec sample) (NoCollision sample) start _ :=
    run_sample [txCreate 5, txFund, txDeposit, txActivate,
        byPublisher 0 1004 (.markFailure 1 .availabilityFailure),
        byPublisher 0 1004 (.slashCollateral 1 5),
        byProvider 0 1005 (.disputeFailure 1 (sampleVoucher 1 4))] (by decide) rfl
  have hidle : ∀ x ∈ ([] : List (Pending World Error Tx)), x.IsForeign := by simp
  exact ⟨_, _, _, _, [_], _, _, hrun, hidle, rfl, rfl, rfl, rfl, rfl⟩

end Cipher.Escrow
