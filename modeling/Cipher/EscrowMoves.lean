import Cipher.Escrow

/-!
# What a transaction does to an agreement

The escrow contract seen as an automaton per agreement. `Move` is its
transition relation: one constructor per external function, with the
guards under which the function succeeds and the agreement it leaves.
`Effect` is the same for the whole storage, and `due` lists the
transfers a call owes.

`exec_outcome` says once what `exec` can do: revert, or write one
`Effect` and then pay what is `due`. It is the only place where the
functions of the contract are unfolded; everything proved about runs
goes through it.
-/

namespace Cipher.Escrow

open Evm Function

/-! ## The automaton -/

/-- The agreement a call is about; none for `createContract`. -/
def Call.target : Call → Option Bytes32
  | .createContract .. => none
  | .fundEscrow id | .depositCollateral id | .activateContract id | .submitPaymentState id _
  | .settleContract id _ | .refundPublisher id | .returnCollateral id | .markFailure id _
  | .disputeFailure id _ | .slashCollateral id _ | .terminateExpiredContract id => some id

/-- The settlement window of an active agreement is over and it never saw
a voucher. -/
def Expired (m : Msg) (ag : EscrowAgreement) : Prop :=
  ag.state = .active ∧ ag.deadline + settlementWindow < 2 ^ 64
    ∧ ag.deadline + settlementWindow < m.timestamp ∧ ag.hasPaymentState = false

/-- What `submitPaymentState` and `disputeFailure` write for a voucher. -/
def EscrowAgreement.record (ag : EscrowAgreement) (ps : PaymentState) : EscrowAgreement :=
  { ag with
    latestSequence := ps.sequence
    latestCumulativePayment := ps.cumulativePayment
    hasPaymentState := true }

inductive Move (d : Deployment) (m : Msg) : Call → EscrowAgreement → EscrowAgreement → Prop where
  | fund {id ag} (hsender : m.sender = ag.publisher) (hstate : ag.state = .created)
      (hvalue : m.value = ag.reward) :
      Move d m (.fundEscrow id) ag { ag with escrowBalance := m.value, state := .funded }
  | deposit {id ag} (hsender : m.sender = ag.provider) (hstate : ag.state = .funded)
      (hnone : ag.collateral = 0) (hreq : ag.collateralRequired ≠ 0)
      (hvalue : m.value = ag.collateralRequired) :
      Move d m (.depositCollateral id) ag { ag with collateral := m.value }
  | activate {id ag} (hsender : m.sender = ag.publisher ∨ m.sender = ag.provider)
      (hstate : ag.state = .funded) (hescrow : ag.escrowBalance = ag.reward)
      (hcoll : ag.collateralRequired ≤ ag.collateral)
      (hdeadline : m.timestamp % 2 ^ 64 + ag.duration < 2 ^ 64) :
      Move d m (.activateContract id) ag
        { ag with
          activatedAt := m.timestamp % 2 ^ 64
          deadline := m.timestamp % 2 ^ 64 + ag.duration
          state := .active }
  | submit {id ag ps} (hrange : ps.inRange = true) (hstate : ag.state = .active)
      (hfits : ag.deadline + settlementWindow < 2 ^ 64)
      (hwindow : m.timestamp ≤ ag.deadline + settlementWindow)
      (hok : voucherOk m id ag ps = true) (hsig : recoverPaymentSigner d ps = ag.publisher) :
      Move d m (.submitPaymentState id ps) ag (ag.record ps)
  | settle {id ag ps} (hstate : ag.state = .active) (hhas : ag.hasPaymentState = true)
      (hseq : ps.sequence = ag.latestSequence)
      (hcum : ps.cumulativePayment = ag.latestCumulativePayment) (hid : ps.contractID = id)
      (hle : ag.latestCumulativePayment ≤ ag.escrowBalance) :
      Move d m (.settleContract id ps) ag { ag with escrowBalance := 0, state := .settled }
  | refund {id ag} (hsender : m.sender = ag.publisher)
      (hstate : ag.state = .failed ∨ ag.state = .terminated ∨ Expired m ag) :
      Move d m (.refundPublisher id) ag { ag with escrowBalance := 0, state := .refunded }
  | giveBack {id ag}
      (hstate : ag.state = .settled ∨ ag.state = .terminated ∨ ag.state = .refunded)
      (hcoll : ag.collateral ≠ 0) :
      Move d m (.returnCollateral id) ag { ag with collateral := 0 }
  | mark {id ag reason} (hsender : m.sender = ag.publisher) (hstate : ag.state = .active)
      (hreason : reason ≠ FailureReason.none) :
      Move d m (.markFailure id reason) ag { ag with failureReason := reason, state := .failed }
  | dispute {id ag ps} (hrange : ps.inRange = true) (hsender : m.sender = ag.provider)
      (hstate : ag.state = .failed) (hok : voucherOk m id ag ps = true)
      (hsig : recoverPaymentSigner d ps = ag.publisher) :
      Move d m (.disputeFailure id ps) ag
        { ag.record ps with failureReason := .none, state := .active }
  | slash {id ag penalty} (hsender : m.sender = ag.publisher) (hstate : ag.state = .failed)
      (hpenalty : penalty ≠ 0) :
      Move d m (.slashCollateral id penalty) ag
        { ag with collateral := ag.collateral - penaltyAmount ag.collateral penalty }
  | terminate {id ag} (hexp : Expired m ag) :
      Move d m (.terminateExpiredContract id) ag { ag with state := .terminated }

/-- The transfers a call owes, given the agreement it was made on. -/
def payouts (ag : EscrowAgreement) : Call → List Transfer
  | .settleContract id _ =>
    [⟨id, .providerPayment, ag.provider, ag.latestCumulativePayment⟩,
      ⟨id, .publisherRefund, ag.publisher, ag.escrowBalance - ag.latestCumulativePayment⟩]
  | .refundPublisher id => [⟨id, .refund, ag.publisher, ag.escrowBalance⟩]
  | .returnCollateral id => [⟨id, .collateralReturn, ag.provider, ag.collateral⟩]
  | .slashCollateral id penalty =>
    [⟨id, .slash, ag.publisher, penaltyAmount ag.collateral penalty⟩]
  | _ => []

/-- `_sendValue` sends nothing for an amount of zero. -/
def nonzero (ts : List Transfer) : List Transfer := ts.filter (·.amount ≠ 0)

lemma nonzero_cons (t : Transfer) (ts : List Transfer) :
    nonzero (t :: ts) = if t.amount = 0 then nonzero ts else t :: nonzero ts := by
  by_cases h : t.amount = 0 <;> simp [nonzero, h]

def due (tx : Tx) (s : Storage) : List Transfer :=
  match tx.call.target with
  | none => []
  | some id => nonzero (payouts (s.agreements id) tx.call)

/-- The voucher a call puts on record. -/
def recorded (f : Bytes32 → PaymentState) : Call → Bytes32 → PaymentState
  | .submitPaymentState id ps | .disputeFailure id ps => update f id ps
  | _ => f

/-- `createContract` gets an identifier that is not in use: its hash does
not collide with an earlier one. -/
def Fresh (d : Deployment) (tx : Tx) (s : Storage) : Prop :=
  ∀ provider fileID reward periods duration rulesHash collateralRequired,
    tx.call = .createContract provider fileID reward periods duration rulesHash
      collateralRequired →
    (s.agreements (newContractID d tx.msg.sender provider fileID
      s.nextContractNonce)).exists' = false

inductive Effect (d : Deployment) : Tx → Storage → Storage → Prop where
  | create {m provider fileID reward periods duration rulesHash collateralRequired} {s : Storage}
      (hnew : (s.agreements (newContractID d m.sender provider fileID
        s.nextContractNonce)).exists' = false)
      (hprovider : provider ≠ 0) (hreward : reward ≠ 0) (hduration : duration < 2 ^ 64)
      (hvalue : m.value = 0) :
      Effect d ⟨m, .createContract provider fileID reward periods duration rulesHash
          collateralRequired⟩ s
        { s with
          agreements := update s.agreements
            (newContractID d m.sender provider fileID s.nextContractNonce)
            (newAgreement m provider fileID reward periods duration rulesHash collateralRequired)
          nextContractNonce := s.nextContractNonce + 1 }
  | move {id ag'} (htarget : tx.call.target = some id) (hex : (s.agreements id).exists' = true)
      (hmove : Move d tx.msg tx.call (s.agreements id) ag')
      (hvalue : tx.call.payable = false → tx.msg.value = 0) : Effect d tx s
        { s with
          agreements := update s.agreements id ag'
          latestPaymentStates := recorded s.latestPaymentStates tx.call }

/-! ## What `exec` does -/

/-- The programs `exec` can come up with in world `w`. `w₁` is the world
right before the first payment. -/
inductive Outcome (d : Deployment) (tx : Tx) (w : World) : Prog World Error → Prop where
  | revert (e : Error) : Outcome d tx w (.revert e)
  | quiet (heff : Effect d tx w.toStorage w₁.toStorage)
      (hbal : w₁.balance = w.balance + tx.msg.value) (hled : w₁.ledger = w.ledger)
      (hdue : due tx w.toStorage = []) : Outcome d tx w (.done w₁)
  | pay (evs : List Event) {w₁ : World} {t : Transfer}
      (heff : Effect d tx w.toStorage w₁.toStorage)
      (hbal : w₁.balance = w.balance + tx.msg.value) (hled : w₁.ledger = w.ledger)
      (hdue : due tx w.toStorage = nonzero [t]) :
      Outcome d tx w (sendValue d t w₁ fun w' => .done { w' with log := evs ++ w'.log })
  | settle (evs : List Event) {w₁ : World} {id : Bytes32} {ps : PaymentState} {payee : Address}
      {providerPayment publisherRefund : Nat}
      (hcall : tx.call = .settleContract id ps)
      (heff : Effect d tx w.toStorage w₁.toStorage)
      (hbal : w₁.balance = w.balance + tx.msg.value) (hled : w₁.ledger = w.ledger)
      (hdue : due tx w.toStorage = nonzero [⟨id, .providerPayment, payee, providerPayment⟩,
        ⟨id, .publisherRefund, (w.agreements id).publisher, publisherRefund⟩]) :
      Outcome d tx w
        (sendValue d ⟨id, .providerPayment, payee, providerPayment⟩ w₁ fun w' =>
        sendValue d ⟨id, .publisherRefund, (w'.agreements id).publisher, publisherRefund⟩ w'
        fun w'' => .done { w'' with log := evs ++ w''.log })

/-- A check leaves the outcome open, as it may revert. -/
lemma Outcome.guard [Decidable p] (h : ¬p → Outcome d tx w prog) :
    Outcome d tx w (if p then .revert e else prog) :=
  Prog.guard .revert h

lemma withAgreement_outcome {d : Deployment} {tx : Tx} {w w' : World} {id : Bytes32}
    (hk : (w'.agreements id).exists' = true → Outcome d tx w (k (w'.agreements id))) :
    Outcome d tx w (withAgreement w' id k) :=
  .guard fun h => hk (by simpa using h)

lemma penaltyAmount_le (collateral penalty : Nat) :
    penaltyAmount collateral penalty ≤ collateral := by
  unfold penaltyAmount
  split <;> omega

section Outcomes

variable (d : Deployment) (m : Msg) (id : Bytes32) (ps : PaymentState) (w : World)

lemma createContract_outcome
    (hfresh : Fresh d ⟨m, .createContract provider fileID reward periods duration rulesHash
      collateralRequired⟩ w.toStorage)
    (hduration : duration < 2 ^ 64) (hv : m.value = 0) :
    Outcome d ⟨m, .createContract provider fileID reward periods duration rulesHash
        collateralRequired⟩ w
      (createContract d m provider fileID reward periods duration rulesHash collateralRequired
        (w.credit m.value)) := by
  refine .guard fun hargs => ?_
  simp only [not_or] at hargs
  obtain ⟨hprovider, -, hreward, -, -⟩ := hargs
  cases hn : add256 (w.credit m.value).nextContractNonce 1 with
  | none => exact .revert _
  | some next =>
    obtain ⟨-, rfl⟩ := add256_eq_some.mp hn
    exact .quiet (.create (hfresh _ _ _ _ _ _ _ rfl) hprovider hreward hduration hv)
      rfl rfl rfl

lemma fundEscrow_outcome :
    Outcome d ⟨m, .fundEscrow id⟩ w (fundEscrow m id (w.credit m.value)) := by
  refine withAgreement_outcome fun hex => .guard fun h => ?_
  simp only [ne_eq, not_or, not_not] at h
  exact .quiet (.move rfl hex (.fund h.1 h.2.1 h.2.2) nofun) rfl rfl rfl

lemma depositCollateral_outcome :
    Outcome d ⟨m, .depositCollateral id⟩ w (depositCollateral m id (w.credit m.value)) := by
  refine withAgreement_outcome fun hex =>
    .guard fun hwho => .guard fun hnone => .guard fun hvalue => ?_
  simp only [ne_eq, not_or, not_not] at hwho hnone hvalue
  exact .quiet (.move rfl hex (.deposit hwho.1 hwho.2 hnone hvalue.1 hvalue.2) nofun) rfl rfl rfl

lemma activateContract_outcome (hv : m.value = 0) :
    Outcome d ⟨m, .activateContract id⟩ w (activateContract m id (w.credit m.value)) := by
  refine withAgreement_outcome fun hex =>
    .guard fun hwho => .guard fun hstate => .guard fun hcoll => ?_
  simp only [ne_eq, not_or, not_not, not_and_or, not_lt] at hwho hstate hcoll
  cases hd : add64 (m.timestamp % 2 ^ 64) ((w.credit m.value).agreements id).duration with
  | none => exact .revert _
  | some deadline =>
    obtain ⟨hlt, rfl⟩ := add64_eq_some.mp hd
    exact .quiet (.move rfl hex (.activate hwho hstate.1 hstate.2 hcoll hlt) fun _ => hv)
      rfl rfl rfl

lemma submitPaymentState_outcome (hrange : ps.inRange = true) (hv : m.value = 0) :
    Outcome d ⟨m, .submitPaymentState id ps⟩ w
      (submitPaymentState d m id ps (w.credit m.value)) := by
  refine withAgreement_outcome fun hex => .guard fun hstate => ?_
  simp only [ne_eq, not_not] at hstate
  cases hd : add64 ((w.credit m.value).agreements id).deadline settlementWindow with
  | none => exact .revert _
  | some windowEnd =>
    obtain ⟨hlt, rfl⟩ := add64_eq_some.mp hd
    refine .guard fun hwindow => .guard fun hok => .guard fun hsig => ?_
    simp only [ne_eq, not_not, not_lt, gt_iff_lt, Bool.not_eq_true', Bool.not_eq_false]
      at hwindow hok hsig
    exact .quiet (.move rfl hex (.submit hrange hstate hlt hwindow hok hsig) fun _ => hv)
      rfl rfl rfl

lemma settleContract_outcome (hv : m.value = 0) :
    Outcome d ⟨m, .settleContract id ps⟩ w (settleContract d id ps (w.credit m.value)) := by
  refine withAgreement_outcome fun hex =>
    .guard fun hstate => .guard fun hps => .guard fun hle => ?_
  simp only [ne_eq, not_or, not_not, not_lt, Bool.not_eq_true', Bool.not_eq_false] at hstate hps hle
  refine .settle [_] rfl (.move rfl hex
    (.settle hstate.1 hstate.2 hps.1 hps.2.1 hps.2.2 hle) fun _ => hv) rfl rfl ?_
  simp [due, Call.target, payouts, World.setAgreement, World.credit]

lemma refundPublisher_outcome (hv : m.value = 0) :
    Outcome d ⟨m, .refundPublisher id⟩ w (refundPublisher d m id (w.credit m.value)) := by
  refine withAgreement_outcome fun hex => ?_
  split
  · exact .revert _
  · rename_i windowEnd hwin
    by_cases hexp : ((w.credit m.value).agreements id).state = .active ∧ m.timestamp > windowEnd
        ∧ !((w.credit m.value).agreements id).hasPaymentState
    · -- An expired agreement is terminated and refunded in one go.
      simp only [hexp, and_self, if_true]
      split
      · exact .revert _
      · rename_i h
        rw [if_pos hexp.1] at hwin
        obtain ⟨hlt, rfl⟩ := add64_eq_some.mp hwin
        simp only [ne_eq, not_true, and_false, or_false, not_not] at h
        refine .pay [] (.move rfl hex (.refund h (.inr (.inr ⟨hexp.1, hlt, hexp.2.1, ?_⟩)))
          fun _ => hv) rfl rfl ?_
        · simpa using hexp.2.2
        · simp [due, Call.target, payouts, World.setAgreement, World.credit]
    · simp only [hexp, if_false]
      split
      · exact .revert _
      · rename_i h
        simp only [ne_eq, not_or, not_not, not_and_or] at h
        refine .pay [] (.move rfl hex (.refund h.1 (h.2.imp_right .inl)) fun _ => hv) rfl rfl ?_
        simp [due, Call.target, payouts, World.setAgreement, World.credit]

lemma returnCollateral_outcome (hv : m.value = 0) :
    Outcome d ⟨m, .returnCollateral id⟩ w (returnCollateral d id (w.credit m.value)) := by
  refine withAgreement_outcome fun hex => .guard fun h => ?_
  have hstate : ((w.credit m.value).agreements id).state = .settled
      ∨ ((w.credit m.value).agreements id).state = .terminated
      ∨ ((w.credit m.value).agreements id).state = .refunded := by
    simp only [not_or, not_and_or, not_not, ne_eq] at h
    exact h.1
  refine .pay [] (.move rfl hex (.giveBack hstate fun h0 => h (.inr h0)) fun _ => hv)
    rfl rfl ?_
  simp [due, Call.target, payouts, World.setAgreement, World.credit]

lemma markFailure_outcome (hv : m.value = 0) :
    Outcome d ⟨m, .markFailure id reason⟩ w (markFailure m id reason (w.credit m.value)) := by
  refine withAgreement_outcome fun hex => .guard fun h => ?_
  simp only [ne_eq, not_or, not_not] at h
  exact .quiet (.move rfl hex (.mark h.1 h.2.1 h.2.2) fun _ => hv) rfl rfl rfl

lemma disputeFailure_outcome (hrange : ps.inRange = true) (hv : m.value = 0) :
    Outcome d ⟨m, .disputeFailure id ps⟩ w (disputeFailure d m id ps (w.credit m.value)) := by
  refine withAgreement_outcome fun hex =>
    .guard fun hstate => .guard fun hwho => .guard fun hok => .guard fun hsig => ?_
  simp only [ne_eq, not_not, Bool.not_eq_true', Bool.not_eq_false] at hstate hwho hok hsig
  exact .quiet (.move rfl hex (.dispute hrange hwho hstate hok hsig) fun _ => hv) rfl rfl rfl

lemma slashCollateral_outcome (hv : m.value = 0) : Outcome d ⟨m, .slashCollateral id penalty⟩ w
      (slashCollateral d m id penalty (w.credit m.value)) := by
  refine withAgreement_outcome fun hex => .guard fun h => .guard fun _ => ?_
  simp only [ne_eq, not_or, not_not] at h
  refine .pay [_] (.move rfl hex (.slash h.1 h.2.1 h.2.2) fun _ => hv) rfl rfl ?_
  simp [due, Call.target, payouts, World.setAgreement, World.credit]

lemma terminateExpiredContract_outcome (hv : m.value = 0) :
    Outcome d ⟨m, .terminateExpiredContract id⟩ w
      (terminateExpiredContract m id (w.credit m.value)) := by
  refine withAgreement_outcome fun hex => .guard fun hstate => ?_
  simp only [ne_eq, not_not] at hstate
  cases hd : add64 ((w.credit m.value).agreements id).deadline settlementWindow with
  | none => exact .revert _
  | some windowEnd =>
    obtain ⟨hlt, rfl⟩ := add64_eq_some.mp hd
    refine .guard fun hwindow => .guard fun hhas => ?_
    simp only [not_le, Bool.not_eq_true] at hwindow hhas
    exact .quiet (.move rfl hex (.terminate ⟨hstate, hlt, hwindow, hhas⟩) fun _ => hv)
      rfl rfl rfl

end Outcomes

/-- **What a transaction can do.** It reverts, or it writes one effect to
the storage and then pays what is due. -/
theorem exec_outcome (d : Deployment) (tx : Tx) (w : World) (hfresh : Fresh d tx w.toStorage) :
    Outcome d tx w (exec d tx w) := by
  obtain ⟨m, c⟩ := tx
  unfold exec
  split
  · exact .revert _
  · rename_i hdec
    simp only [not_or, not_and_or, ne_eq, not_not, Bool.not_eq_true', Bool.not_eq_false] at hdec
    obtain ⟨hrange, hpay⟩ := hdec
    have hv : c.payable = false → m.value = 0 := fun h => hpay.resolve_left (by simp [h])
    cases c with
    | createContract provider fileID reward periods duration rulesHash collateralRequired =>
      simp only [Call.inRange, Bool.and_eq_true, decide_eq_true_eq] at hrange
      exact createContract_outcome d m w hfresh hrange.1.2 (hv rfl)
    | fundEscrow id => exact fundEscrow_outcome d m id w
    | depositCollateral id => exact depositCollateral_outcome d m id w
    | activateContract id => exact activateContract_outcome d m id w (hv rfl)
    | submitPaymentState id ps => exact submitPaymentState_outcome d m id ps w hrange (hv rfl)
    | settleContract id ps => exact settleContract_outcome d m id ps w (hv rfl)
    | refundPublisher id => exact refundPublisher_outcome d m id w (hv rfl)
    | returnCollateral id => exact returnCollateral_outcome d m id w (hv rfl)
    | markFailure id reason => exact markFailure_outcome d m id w (hv rfl)
    | disputeFailure id ps => exact disputeFailure_outcome d m id ps w hrange (hv rfl)
    | slashCollateral id penalty => exact slashCollateral_outcome d m id w (hv rfl)
    | terminateExpiredContract id => exact terminateExpiredContract_outcome d m id w (hv rfl)

end Cipher.Escrow
