import Cipher.Redeem
import Cipher.VoucherStores

/-!
# The publisher's way to a settlement

`SubmitLatestPaymentStateOnChain` and `SettleContractOnChain`: the coordinator
takes the latest voucher it has for an agreement, records it on the chain, and
settles the agreement with it. The two transactions can fail on their own.

The escrow contract accepts a voucher once. A second call of
`SettleContractOnChain` begins with the same submission, which is refused from
then on, and never gets to the second step (`settlement_resumes_iff`).
-/

namespace Cipher.OnChain

open Evm Go Geth Escrow Ethereum Redeem List
open Payment (escrowString issued PublisherCoordinator)

variable {κ : Type}

/-! ## Transactions -/

/-- Errors on the way to the chain. `payment` is an error of the payment
packages, `rpc` one of the Ethereum client. -/
inductive Error where
  | new (message : String)
  | wrap (context : String) (err : Error)
  | payment (err : Payment.Error)
  | noStoredState (escrowID : Str)
  | stateExpired (validUntil : UInt64) (now : Int)
  | rpc
deriving DecidableEq, Repr

/-- What becomes of a transaction that is sent: it does not get through, or it
is part of a block. -/
inductive Fate where
  | lost
  | mined (timestamp number : Nat)
deriving DecidableEq, Repr

/-- `Transact` estimates the gas before it sends anything, and a call that
would revert is an error. -/
def transact (d : Deployment) (sender : Address) (fate : Fate) (call : Call) (w : World) :
    Except Error Unit × World :=
  match fate with
  | .lost => (.error .rpc, w)
  | .mined timestamp number =>
    match (exec d ⟨⟨sender, 0, timestamp, number⟩, call⟩ w).accepted with
    | none => (.error .rpc, w)
    | some w' => (.ok (), w')

/-- An `EscrowSubmitter` or an `EscrowSettler`. -/
abbrev Adapter := Str → Payment.PaymentState → World → Except Error Unit × World

section

variable (g : Crypto κ Payment.Error) (d : Deployment) (sender : Address) (fate : Fate)

/-- `EscrowAdapter.SubmitPaymentState`. -/
def adapterSubmit :
    Adapter := fun contractID state w =>
  match Ethereum.submitPaymentState g contractID state with
  | .error e => (.error (.payment e), w)
  | .ok call => transact d sender fate call w

/-- `EscrowAdapter.SettleContract`. -/
def adapterSettle :
    Adapter := fun contractID state w =>
  match Ethereum.settleContract g contractID state with
  | .error e => (.error (.payment e), w)
  | .ok call => transact d sender fate call w

end

/-! ## The coordinator -/

/-- `payment.SubmitPaymentState`. -/
def submitPaymentState (submitter : Adapter) (contractID : Str) (state : Payment.PaymentState)
    (w : World) : Except Error Unit × World :=
  if contractID = [] ∨ state.contractID ≠ contractID then
    (.error (.new "matching contract ID and escrow submitter are required"), w)
  else if state.publisherSignature.length = 0 then
    (.error (.new "payment state must be signed before submission"), w)
  else submitter contractID state w

section

variable (now : Int) (submitter : Adapter)

def submitLatestPaymentStateOnChain (escrowContractID : Str)
    (c : PublisherCoordinator) (w : World) : Except Error Unit × World :=
  match c.latest escrowContractID with
  | none => (.error (.noStoredState escrowContractID), w)
  | some latest =>
    if latest.validUntil ≤ UInt64.ofInt (unixSeconds now) then
      (.error (.stateExpired latest.validUntil (unixSeconds now)), w)
    else submitPaymentState submitter escrowContractID latest w

def settleContractOnChain (settler : Option Adapter)
    (escrowContractID : Str) (c : PublisherCoordinator) (w : World) :
    Except Error Unit × World :=
  match settler with
  | none => (.error (.new "no settler configured; call SetSettler before settlement"), w)
  | some settler =>
  match c.latest escrowContractID with
  | none => (.error (.noStoredState escrowContractID), w)
  | some latest =>
    if latest.validUntil ≤ UInt64.ofInt (unixSeconds now) then
      (.error (.stateExpired latest.validUntil (unixSeconds now)), w)
    else
      match submitPaymentState submitter escrowContractID latest w with
      | (.error e, w) => (.error (.wrap "submit payment state on-chain" e), w)
      | (.ok (), w) =>
        match settler escrowContractID latest w with
        | (.error e, w) => (.error (.wrap "settle contract on-chain" e), w)
        | (.ok (), w) => (.ok (), w)

/-- The dispatcher's way there. Without a settler the voucher is submitted. -/
def submitSettlementOnChain (settler : Option Adapter)
    (availabilityContractID : Str) (disp : Payment.Dispatcher) (w : World) :
    Except Error Unit × World :=
  match disp.schedules availabilityContractID with
  | none => (.error (.payment (.scheduleNotFound availabilityContractID)), w)
  | some schedule =>
    let escrowID := escrowString schedule.escrowContractID
    match settleContractOnChain now submitter settler escrowID disp.coordinator w with
    | (.error (.new message), w) =>
      if message = "no settler configured; call SetSettler before settlement" then
        submitLatestPaymentStateOnChain now submitter escrowID disp.coordinator w
      else (.error (.new message), w)
    | r => r

end

/-! ## Repeated attempts -/

/-- A call of `SettleContractOnChain`: the time of the call, and what becomes
of its two transactions. -/
structure Attempt where
  now : Int
  submit : Fate
  settle : Fate

section Attempts

variable (g : Crypto κ Payment.Error) (d : Deployment) (sender : Address)

def Attempt.call (a : Attempt) (id : Bytes32) (c : PublisherCoordinator) (w : World) :
    Except Error Unit × World :=
  settleContractOnChain a.now (adapterSubmit g d sender a.submit)
    (some (adapterSettle g d sender a.settle)) (escrowString id) c w

/-- One call after the other. -/
def attempts (id : Bytes32) (c : PublisherCoordinator) (as : List Attempt) (w : World) : World :=
  as.foldl (fun w a => (a.call g d sender id c w).2) w

end Attempts

/-- The first submission that gets through comes with a settlement that does. -/
def CarriesThrough : List Attempt → Prop
  | [] => False
  | a :: rest =>
    match a.submit, a.settle with
    | .lost, _ => CarriesThrough rest
    | .mined _ _, .lost => False
    | .mined _ _, .mined _ _ => True

/-- The attempt is made before the voucher expires, and its submission is
mined while the contract still takes it. -/
structure InTime (ag : EscrowAgreement) (v : Payment.PaymentState) (a : Attempt) : Prop where
  clock : UInt64.ofInt (unixSeconds a.now) < v.validUntil
  submit : ∀ timestamp number, a.submit = .mined timestamp number →
    timestamp ≤ v.validUntil.toNat ∧ timestamp ≤ ag.deadline + settlementWindow

/-- The voucher is newer than what the agreement has on record. -/
def Acceptable (ag : EscrowAgreement) (v : Payment.PaymentState) : Prop :=
  ag.latestSequence < v.sequence.toNat
    ∧ ag.latestCumulativePayment ≤ v.cumulativePayment.toNat

/-- The voucher is what the agreement has on record. -/
def Accepted (ag : EscrowAgreement) (v : Payment.PaymentState) : Prop :=
  ag.hasPaymentState = true ∧ ag.latestSequence = v.sequence.toNat
    ∧ ag.latestCumulativePayment = v.cumulativePayment.toNat

/-- In `cfg`, agreement `id` is active, and the coordinator's latest voucher for
it is one that the contract can read. -/
structure Standing (g : Crypto κ Payment.Error) (d : Deployment) (c : PublisherCoordinator)
    (id : Bytes32) (v : Payment.PaymentState) (cfg : Config World Escrow.Error Tx) : Prop where
  run : Run (exec d) (NoCollision d) start cfg
  latest : c.latest (escrowString id) = some v
  redeemable : Redeemable g d (cfg.now.state.agreements id) id v
  active : (cfg.now.state.agreements id).state = .active

/-- The settlement window has an end, and the parties are accounts of their own. -/
structure Settleable (g : Crypto κ Payment.Error) (d : Deployment) (c : PublisherCoordinator)
    (id : Bytes32) (v : Payment.PaymentState) (cfg : Config World Escrow.Error Tx) : Prop
    extends Standing g d c id v cfg where
  fits : (cfg.now.state.agreements id).deadline + settlementWindow < 2 ^ 64
  outside : Outside d (cfg.now.state.agreements id)

section Proof

variable {g : Crypto κ Payment.Error} {d : Deployment} {sender : Address}
  {c : PublisherCoordinator} {id : Bytes32} {v : Payment.PaymentState} {w : World}

lemma transact_none {call : Call} (fate : Fate) (h : ∀ m, (exec d ⟨m, call⟩ w).accepted = none) :
    transact d sender fate call w = (.error .rpc, w) := by
  cases fate with
  | lost => rfl
  | mined timestamp number => rw [transact, h]

variable {m : Msg} {cfg : Config World Escrow.Error Tx}

/-- The contract refuses a voucher that is not newer, and every voucher once
the agreement is over. -/
lemma submit_refused {ps : Escrow.PaymentState}
    (h : (w.agreements id).state ≠ .active ∨ ps.sequence ≤ (w.agreements id).latestSequence) :
    (exec d ⟨m, .submitPaymentState id ps⟩ w).accepted = none := by
  unfold exec
  split
  · rfl
  simp only [dispatch, Escrow.submitPaymentState, withAgreement]
  split
  · rfl
  split
  · rfl
  rename_i hactive
  split
  · rfl
  split
  · rfl
  split
  · rfl
  · rename_i hok
    have hnext := (voucherOk_next (by simpa using hok)).1
    rcases h with h | h
    · exact absurd h hactive
    · exact absurd hnext (Nat.not_lt.mpr h)

/-- A call in time is one transaction after the other. -/
lemma Attempt.call_eq {a : Attempt} (hred : Redeemable g d ag id v)
    (hlatest : c.latest (escrowString id) = some v)
    (hclock : UInt64.ofInt (unixSeconds a.now) < v.validUntil) :
    (a.call g d sender id c w).2
      = match transact d sender a.submit (.submitPaymentState id (toSolidity g v)) w with
        | (.error _, w') => w'
        | (.ok (), w') =>
          (transact d sender a.settle (.settleContract id (toSolidity g v)) w').2 := by
  have hlength : v.publisherSignature.length = 65 := by
    have hconv := hred.converts
    unfold convertPaymentStateToSolidity at hconv
    dsimp only at hconv
    split at hconv
    · cases hconv
    · rename_i hbad
      simp only [not_or, not_not] at hbad
      exact hbad.2.2.2.1
  have hsubmit (w : World) : submitPaymentState (adapterSubmit g d sender a.submit)
      (escrowString id) v w
      = transact d sender a.submit (.submitPaymentState id (toSolidity g v)) w := by
    unfold submitPaymentState
    rw [if_neg, if_neg (by rw [hlength]; decide), adapterSubmit, Ethereum.submitPaymentState,
      hred.voucherCall]
    rintro (hnil | hne)
    · exact cons_ne_nil _ _ hnil
    · exact hne hred.contractID
  have hsettle (w : World) : adapterSettle g d sender a.settle (escrowString id) v w
      = transact d sender a.settle (.settleContract id (toSolidity g v)) w := by
    rw [adapterSettle, Ethereum.settleContract, hred.voucherCall]
  unfold Attempt.call settleContractOnChain
  rw [hlatest]
  dsimp only
  rw [if_neg (UInt64.not_le.mpr hclock), hsubmit]
  cases transact d sender a.submit (.submitPaymentState id (toSolidity g v)) w with
  | mk r w' =>
    cases r with
    | error e => rfl
    | ok r =>
      dsimp only
      rw [hsettle]
      cases transact d sender a.settle (.settleContract id (toSolidity g v)) w' with
      | mk r' w'' => cases r' <;> rfl

lemma Attempt.call_expired {a : Attempt} (hlatest : c.latest (escrowString id) = some v)
    (hclock : v.validUntil ≤ UInt64.ofInt (unixSeconds a.now)) :
    (a.call g d sender id c w).2 = w := by
  unfold Attempt.call settleContractOnChain
  rw [hlatest]
  dsimp only
  rw [if_pos hclock]

variable (sender) in
/-- Where the submission is refused, calls have no effect. -/
lemma attempts_refused (hred : Redeemable g d ag id v)
    (hlatest : c.latest (escrowString id) = some v)
    (hrefused : (w.agreements id).state ≠ .active
      ∨ v.sequence.toNat ≤ (w.agreements id).latestSequence) (as : List Attempt) :
    attempts g d sender id c as w = w := by
  induction as with
  | nil => rfl
  | cons a rest ih =>
    have hcall : (a.call g d sender id c w).2 = w := by
      by_cases hclock : v.validUntil ≤ UInt64.ofInt (unixSeconds a.now)
      · exact a.call_expired hlatest hclock
      · rw [a.call_eq hred hlatest (UInt64.not_le.mp hclock),
          transact_none _ fun m => submit_refused hrefused]
    rw [attempts, foldl_cons, hcall]
    exact ih

lemma exists_of_active (hrun : Run (exec d) (NoCollision d) start cfg)
    (hactive : (cfg.now.state.agreements id).state = .active) :
    (cfg.now.state.agreements id).exists' = true := by
  obtain ⟨pend, hinv, -⟩ := run_ok hrun
  by_contra hno
  rw [(hinv.linked.sound id).2 (by simpa using hno)] at hactive
  cases hactive

/-- A voucher in time passes the contract's checks. -/
lemma Standing.voucherOk (h : Standing g d c id v cfg)
    (hacceptable : Acceptable (cfg.now.state.agreements id) v)
    (hvalid : m.timestamp ≤ v.validUntil.toNat) :
    Escrow.voucherOk m id (cfg.now.state.agreements id) (toSolidity g v) = true := by
  have hred := h.redeemable
  simp only [Escrow.voucherOk, isNextPaymentState, Bool.and_eq_true, decide_eq_true_eq,
    Bool.not_eq_true', decide_eq_false_iff_not]
  exact ⟨⟨⟨⟨hred.id_eq, hred.publisher⟩, hred.provider⟩, Nat.not_lt.mpr hvalid⟩,
    ⟨hacceptable.1, hacceptable.2⟩, hred.reward⟩

/-- A submission in time is recorded. -/
lemma Settleable.records (h : Settleable g d c id v cfg) (hvalue : m.value = 0)
    (hacceptable : Acceptable (cfg.now.state.agreements id) v)
    (hvalid : m.timestamp ≤ v.validUntil.toNat)
    (hwindow : m.timestamp ≤ (cfg.now.state.agreements id).deadline + settlementWindow) :
    ∃ w', (exec d ⟨m, .submitPaymentState id (toSolidity g v)⟩ cfg.now.state).accepted = some w'
      ∧ w'.agreements id = (cfg.now.state.agreements id).record (toSolidity g v)
      ∧ w'.balance = cfg.now.state.balance := by
  have hmove : Move d m (.submitPaymentState id (toSolidity g v)) (cfg.now.state.agreements id) _ :=
    .submit (toSolidity_inRange g v) h.active h.fits hwindow
      (h.toStanding.voucherOk hacceptable hvalid) h.redeemable.signed
  obtain ⟨evs, haccepted⟩ := hmove.accepted rfl (exists_of_active h.run h.active)
    (toSolidity_inRange g v) (fun _ => hvalue) h.outside (Nat.zero_le _)
  refine ⟨_, haccepted, Function.update_self .., ?_⟩
  rw [World.after_quiet _ _ _ _ _ rfl]
  simp [World.credit, hvalue]

/-- A settlement goes through once the voucher is on record. -/
lemma Settleable.settles (h : Settleable g d c id v cfg) (hvalue : m.value = 0) {w' : World}
    (hrecord : w'.agreements id = (cfg.now.state.agreements id).record (toSolidity g v))
    (hbalance : w'.balance = cfg.now.state.balance) :
    ∃ w'', (exec d ⟨m, .settleContract id (toSolidity g v)⟩ w').accepted = some w''
      ∧ (w''.agreements id).state = .settled := by
  obtain ⟨pend, hinv, -⟩ := run_ok h.run
  have hsound := (hinv.linked.sound id).1
  have hescrow := hsound.holds (by rw [h.active]; rfl)
  have hafford := hinv.affords id
  generalize hag : w'.agreements id = ag at hrecord
  subst hrecord
  have hmove : Move d m (.settleContract id (toSolidity g v)) (w'.agreements id)
      { w'.agreements id with escrowBalance := 0, state := .settled } := by
    rw [hag]
    exact .settle h.active rfl rfl rfl h.redeemable.id_eq (hescrow ▸ h.redeemable.reward)
  have hpays : amounts (payouts (w'.agreements id) (.settleContract id (toSolidity g v)))
      ≤ w'.balance := by
    have hreward : v.cumulativePayment.toNat ≤ _ := h.redeemable.reward
    rw [hag]
    simp only [payouts, amounts, EscrowAgreement.record, toSolidity, map_cons, map_nil,
      sum_cons, sum_nil]
    unfold held at hafford
    omega
  obtain ⟨evs, haccepted⟩ := hmove.accepted rfl (by rw [hag]; exact exists_of_active h.run h.active)
    (toSolidity_inRange g v) (fun _ => hvalue) (by rw [hag]; exact h.outside) hpays
  exact ⟨_, haccepted, by simp [World.after]⟩

/-- With a settler there is always an attempt, and its errors say which step
they are from. -/
lemma settleContractOnChain_ne_new {now : Int} {submitter settler : Adapter} {key : Str}
    {message : String} {w' : World} :
    settleContractOnChain now submitter (some settler) key c w ≠ (.error (.new message), w') := by
  intro h
  unfold settleContractOnChain at h
  dsimp only at h
  split at h
  · cases h
  split at h
  · cases h
  split at h
  · cases h
  split at h
  · cases h
  · cases h

/-- The dispatcher's method settles the agreement of the contract's schedule. -/
lemma submitSettlement_eq {disp : Payment.Dispatcher} (hs : disp.schedules cid = some s) :
    submitSettlementOnChain now submitter (some settler) cid disp w
      = settleContractOnChain now submitter (some settler) (escrowString s.escrowContractID)
        disp.coordinator w := by
  unfold submitSettlementOnChain
  rw [hs]
  dsimp only
  split
  · rename_i hnew
    exact absurd hnew settleContractOnChain_ne_new
  · rfl

/-- **Settlement in two steps.** As long as the voucher is not on record, calls
settle the agreement exactly if the first of them that gets the voucher recorded
also settles. Once it is on record, no call has an effect: neither after a call
that lost its second transaction, nor if the provider has submitted the voucher.
The dispatcher's method makes the same calls. -/
theorem settlement_resumes_iff (g : Crypto κ Payment.Error) (d : Deployment)
    (c : PublisherCoordinator) (id : Bytes32) (v : Payment.PaymentState)
    (cfg : Config World Escrow.Error Tx) (h : Settleable g d c id v cfg) (sender : Address) :
    let w := cfg.now.state
    let ag := w.agreements id
    (Acceptable ag v → ∀ as, (∀ a ∈ as, InTime ag v a) →
      (((attempts g d sender id c as w).agreements id).state = .settled ↔ CarriesThrough as))
    ∧ (Accepted ag v → ∀ as, attempts g d sender id c as w = w)
    ∧ (∀ (a : Attempt) disp cid s w', disp.coordinator = c → disp.schedules cid = some s →
      s.escrowContractID = id →
      submitSettlementOnChain a.now (adapterSubmit g d sender a.submit)
        (some (adapterSettle g d sender a.settle)) cid disp w' = a.call g d sender id c w') := by
  intro w ag
  refine ⟨?_, ?_, ?_⟩
  · intro hacceptable as htimes
    induction as with
    | nil =>
      refine iff_of_false (fun hsettled => ?_) not_false
      cases h.active.symm.trans hsettled
    | cons a rest ih =>
      rw [forall_mem_cons] at htimes
      obtain ⟨hclock, hsubmit⟩ := htimes.1
      obtain ⟨now, submit, settle⟩ := a
      rw [attempts, foldl_cons, Attempt.call_eq h.redeemable h.latest hclock]
      cases submit with
      | lost => exact ih htimes.2
      | mined timestamp number =>
        obtain ⟨hvalid, hwindow⟩ := hsubmit _ number rfl
        obtain ⟨w', haccepted, hrecord, hbalance⟩ :=
          h.records (m := ⟨sender, 0, timestamp, number⟩) rfl hacceptable hvalid hwindow
        have hsequence : (w'.agreements id).latestSequence = v.sequence.toNat := by
          rw [hrecord]
          rfl
        rw [transact, haccepted]
        dsimp only
        cases settle with
        | lost =>
          refine iff_of_false (fun hsettled => ?_) not_false
          have hrest := attempts_refused sender h.redeemable h.latest (.inr hsequence.ge) rest
          rw [transact, ← attempts, hrest, hrecord] at hsettled
          cases h.active.symm.trans hsettled
        | mined timestamp' number' =>
          obtain ⟨w'', haccepted', hsettled⟩ :=
            h.settles (m := ⟨sender, 0, timestamp', number'⟩) rfl hrecord hbalance
          refine iff_of_true ?_ trivial
          rw [transact, haccepted']
          dsimp only
          rw [← attempts, attempts_refused sender h.redeemable h.latest (.inl ?_)]
          · exact hsettled
          · rw [hsettled]
            decide
  · rintro ⟨-, hsequence, -⟩ as
    exact attempts_refused sender h.redeemable h.latest (.inr hsequence.ge) as
  · rintro a disp cid s w' rfl hs rfl
    exact submitSettlement_eq hs

end Proof

/-! ## Sample settlements -/

/-- Agreement 1 is made, funded and activated. -/
def activated : Point World Tx :=
  [txCreate 0, txFund, txActivate].foldl (fun p tx =>
    ⟨(exec sample tx p.state).accepted.getD p.state, (tx, p.state) :: p.past⟩) ⟨World.init, []⟩

set_option maxRecDepth 8192

lemma activated_run : Run (exec sample) (NoCollision sample) start ⟨activated, []⟩ :=
  run_sample [txCreate 0, txFund, txActivate] (by decide) rfl

/-- A call at second 5000. -/
def attemptAt (submit settle : Fate) : Attempt := ⟨5000 * 1000000000, submit, settle⟩

lemma attemptAt_inTime (settle : Fate) (hsubmit : submit = .lost ∨ submit = .mined 5000 0) :
    InTime (activated.state.agreements 1) (redeemVoucher 3 8) (attemptAt submit settle) := by
  refine ⟨?_, fun timestamp number hmined => ?_⟩
  · show UInt64.ofInt (unixSeconds (5000 * 1000000000)) < 5001
    decide
  · rcases hsubmit with rfl | rfl
    · cases hmined
    · obtain ⟨rfl, rfl⟩ := Fate.mined.inj hmined
      decide

lemma activated_settleable :
    Settleable sampleGeth sample redeemRun.2.coordinator 1 (redeemVoucher 3 8) ⟨activated, []⟩
      ∧ Acceptable (activated.state.agreements 1) (redeemVoucher 3 8) := by
  obtain ⟨sch, hid, -, -, h⟩ := redeemRun_redemption activated_run rfl rfl rfl rfl
    (nil_sublist _) rfl
  have hissued : redeemVoucher 3 8 ∈ issued [9] redeemRun.1 := by
    exact mem_cons_of_mem _ (mem_singleton_self _)
  have hred := h.redeemable sampleGeth_agrees ⟨rfl, rfl⟩ hissued
  rw [hid] at hred
  exact ⟨⟨⟨activated_run, rfl, hred, rfl⟩, by decide, by decide, by decide⟩, by decide, by decide⟩

/-- The second call gets both of its transactions through. -/
theorem settlement_second : ((attempts sampleGeth sample 1 1 redeemRun.2.coordinator
      [attemptAt .lost .lost, attemptAt (.mined 5000 0) (.mined 5000 0)]
      activated.state).agreements 1).state = .settled := by
  obtain ⟨h, hacceptable⟩ := activated_settleable
  refine ((settlement_resumes_iff _ sample _ 1 _ _ h 1).1 hacceptable _ ?_).mpr trivial
  simp only [forall_mem_cons]
  exact ⟨attemptAt_inTime _ (.inl rfl), attemptAt_inTime _ (.inr rfl), nofun⟩

/-- The first call loses its settlement, and the agreement is still active
after two calls that lose nothing. -/
theorem settlement_stuck :
    Settleable sampleGeth sample redeemRun.2.coordinator 1 (redeemVoucher 3 8) ⟨activated, []⟩
    ∧ Acceptable (activated.state.agreements 1) (redeemVoucher 3 8)
    ∧ ((attempts sampleGeth sample 1 1 redeemRun.2.coordinator
        [attemptAt (.mined 5000 0) .lost, attemptAt (.mined 5000 0) (.mined 5000 0),
          attemptAt (.mined 5000 0) (.mined 5000 0)] activated.state).agreements 1).state
      = .active :=
  ⟨activated_settleable.1, activated_settleable.2, rfl⟩

end Cipher.OnChain
