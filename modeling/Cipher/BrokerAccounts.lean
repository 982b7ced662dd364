import Cipher.BrokerChecks

/-!
# The books of the original broker

Between calls the broker's ether should be the stakes and what the
channels still hold. Every function keeps that, the payments included,
with one exception: `withdrawStake` pays first and writes the stake off
afterwards, and `registerProvider` does not look at the lock. What a
provider adds to their stake while it is being paid out to them is
written off with it and is on nobody's account from then on (`lost`).

The books are kept with the provider who is being paid as an index, as
the stake of that provider is the part of the books that the balance no
longer covers.
-/

namespace Cipher.Broker

open Bytes Evm Raffle Function
open PaymentChannel (Channel Sound held)

/-! ## The payment in progress -/

/-- The functions that hold the lock while they pay. -/
def Call.pays : Call → Bool
  | .withdrawStake | .withdrawChannel _ | .claimWinningTicket .. | .settleRound .. => true
  | _ => false

/-- The provider whose stake is being paid out. The call that holds the
lock is the newest of those that take it. -/
def withdrawing (p : Point World Tx) : Option Address :=
  if p.state.locked then
    match p.past.find? fun r => r.1.call.pays with
    | some r => if r.1.call = .withdrawStake then some r.1.msg.sender else none
    | none => none
  else none

/-- A provider adds to the stake that is being paid out to them. -/
def Restakes (tx : Tx) (p : Point World Tx) : Prop :=
  tx.call = .registerProvider ∧ tx.msg.value ≠ 0 ∧ withdrawing p = some tx.msg.sender

instance decidableRestakes (tx : Tx) (p : Point World Tx) : Decidable (Restakes tx p) :=
  inferInstanceAs (Decidable (_ ∧ _ ∧ _))

/-- What such calls have brought in. -/
def lost : List (Tx × World) → Nat
  | [] => 0
  | (tx, w) :: past => (if Restakes tx ⟨w, past⟩ then tx.msg.value else 0) + lost past

lemma lost_eq_zero_iff : lost past = 0 ↔ ∀ later tx w earlier, past = later ++ (tx, w) :: earlier →
      ¬Restakes tx ⟨w, earlier⟩ := by
  induction past with
  | nil => simp [lost]
  | cons r past ih =>
    obtain ⟨tx, w⟩ := r
    simp only [lost, Nat.add_eq_zero_iff, ih]
    constructor
    · rintro ⟨hfirst, hrest⟩ later tx' w' earlier hsplit hrestakes
      cases later with
      | nil =>
        obtain ⟨⟨rfl, rfl⟩, rfl⟩ : (tx = tx' ∧ w = w') ∧ past = earlier := by
          simpa using hsplit
        rw [if_pos hrestakes] at hfirst
        exact hrestakes.2.1 hfirst
      | cons x later =>
        obtain ⟨-, hsplit⟩ := List.cons.inj hsplit
        exact hrest later tx' w' earlier hsplit hrestakes
    · intro h
      exact ⟨if_neg (h [] tx w past rfl), fun later tx' w' earlier hsplit =>
        h ((tx, w) :: later) tx' w' earlier (congrArg _ hsplit)⟩

lemma withdrawing_of_unlocked {p : Point World Tx} (h : p.state.locked = false) :
    withdrawing p = none := by
  simp [withdrawing, h]

variable {tx : Tx} {w : World}

/-- Calls that do not take the lock leave the payment in progress as it is. -/
lemma withdrawing_quiet {w₁ : World} (hquiet : tx.call.pays = false)
    (hlocked : w₁.locked = w.locked) :
    withdrawing ⟨w₁, (tx, w) :: past⟩ = withdrawing ⟨w, past⟩ := by
  simp [withdrawing, hlocked, hquiet]

lemma withdrawing_cons {w₁ : World} (hpays : tx.call.pays = true) (hlocked : w₁.locked = true) :
    withdrawing ⟨w₁, (tx, w) :: past⟩
      = if tx.call = .withdrawStake then some tx.msg.sender else none := by
  simp [withdrawing, hlocked, hpays]

/-! ## What a call does -/

/-- What is left of a stake's withdrawal once the provider has returned. -/
def afterUnstake (provider : Address) (amount : Nat) : Bool → World → Prog World Error :=
  Prog.afterCall .transferFailed fun w => .done { (w.setProvider provider ⟨0, 0, false⟩).emit
    (.providerStakeWithdrawn provider amount) with locked := false }

/-- The programs `exec` can come up with, as far as the books go. -/
inductive Outcome (tx : Tx) (w : World) : Prog World Error → Prop where
  | revert (e : Error) : Outcome tx w (.revert e)
  | stake (hquiet : tx.call.pays = false) (hcall : tx.msg.value ≠ 0 → tx.call = .registerProvider)
      (hstake : p.stake = (w.providers tx.msg.sender).stake + tx.msg.value) :
      Outcome tx w (.done (((w.credit tx.msg.value).setProvider tx.msg.sender p).emit event))
  | channel (hquiet : tx.call.pays = false) (hcall : tx.call ≠ .registerProvider)
      (hheld : Sound (w.channels key) →
        Sound ch ∧ held ch = held (w.channels key) + tx.msg.value) :
      Outcome tx w (.done (((w.credit tx.msg.value).setChannel key ch).emit event))
  | round {key : Bytes32} {round : Settlement.Round} {event : Event}
      (hquiet : tx.call.pays = false) (hcall : tx.call ≠ .registerProvider) :
      Outcome tx w (.done ((w.setRound key round).emit event))
  | unstake (hcall : tx.call = .withdrawStake) (hlocked : w.locked = false)
      (hfunded : (w.providers tx.msg.sender).stake ≤ w.balance) :
      Outcome tx w (.call
        ({ w with locked := true }.debit (w.providers tx.msg.sender).stake)
        { w with locked := true } tx.msg.sender
        (afterUnstake tx.msg.sender (w.providers tx.msg.sender).stake))
  | pay {w₁ : World} {key : Bytes32} {ch : Channel} {payee : Address} {amount : Nat}
      {event : Event} (hpays : tx.call.pays = true) (hcall : tx.call ≠ .withdrawStake)
      (hlocked : w.locked = false) (hlocked₁ : w₁.locked = true)
      (hproviders : w₁.providers = w.providers) (hbalance : w₁.balance = w.balance)
      (hchannels : w₁.channels = update w.channels key ch)
      (hheld : Sound (w.channels key) → Sound ch ∧ held ch + amount = held (w.channels key))
      (hfunded : amount ≤ w.balance) :
      Outcome tx w (.call (w₁.debit amount) w₁ payee (afterTransfer event))

section Outcomes

variable {d : Deployment} {w : World}

/-- A check leaves the outcome open, as it may revert. -/
lemma Outcome.guard [Decidable p]
    (h : ¬p → Outcome tx w prog) : Outcome tx w (if p then .revert e else prog) :=
  Prog.guard .revert h

lemma registerProvider_outcome :
    Outcome ⟨m, .registerProvider⟩ w (registerProvider m (w.credit m.value)) := by
  unfold registerProvider
  dsimp only
  split
  · exact .revert _
  rename_i stake hadd
  obtain ⟨-, rfl⟩ := add256_eq_some.mp hadd
  split
  · exact .revert _
  · exact .stake rfl (fun _ => rfl) rfl

lemma requestUnstake_outcome (hvalue : m.value = 0) :
    Outcome ⟨m, .requestUnstake⟩ w (requestUnstake m (w.credit m.value)) := by
  refine .guard fun _ => .guard fun _ => ?_
  split
  · exact .revert _
  · exact .stake rfl (fun h => absurd hvalue h) (by simp [hvalue, World.credit])

lemma withdrawStake_outcome : Outcome ⟨m, .withdrawStake⟩ w (withdrawStake d m w) := by
  refine .guard fun hlocked => ?_
  refine Prog.guard_bind .revert fun _ => ?_
  refine Prog.guard_bind .revert fun _ => ?_
  rw [transfer, Prog.pay_bind]
  refine .guard fun hpayable => ?_
  obtain ⟨-, hbalance⟩ := not_or.mp hpayable
  exact .unstake rfl (by simpa using hlocked) (not_lt.mp hbalance)

lemma deposit_outcome {call : Call}
    (hquiet : call.pays = false) (hcall : call ≠ .registerProvider) :
    Outcome ⟨m, call⟩ w (deposit d m recipient event (w.credit m.value)) := by
  refine (deposit_checks ..).elim .revert fun _ => ?_
  refine .channel hquiet hcall fun hsound => ?_
  simp only [Sound, held, World.credit] at hsound ⊢
  omega

/-- A payout books the amount on the channel and then pays it. -/
lemma payout_outcome {call : Call}
    {w₁ : World} (hpays : call.pays = true) (hcall : call ≠ .withdrawStake)
    (hlocked : w.locked = false) (hlocked₁ : w₁.locked = true)
    (hproviders : w₁.providers = w.providers) (hbalance : w₁.balance = w.balance)
    (hchannels : w₁.channels = w.channels) :
    Outcome ⟨m, call⟩ w ((payout d sender recipient payee amount event w₁).bind fun w =>
      .done { w with locked := false }) := by
  refine (payout_checks ..).elim .revert fun hpay => ?_
  have hcovered := hpay.covered
  have hfunded := hpay.affordable.funded
  rw [hchannels] at hcovered
  rw [hbalance] at hfunded
  refine .pay hpays hcall hlocked hlocked₁ hproviders hbalance
    (congrArg (update · _ _) hchannels) (fun hsound => ?_) hfunded
  rw [hchannels]
  simp only [Sound, held] at hsound hcovered ⊢
  omega

lemma withdrawChannel_outcome :
    Outcome ⟨m, .withdrawChannel recipient⟩ w (withdrawChannel d m recipient w) := by
  refine (withdrawChannel_checks ..).elim .revert fun h => ?_
  refine .pay rfl (by simp) h.unlocked rfl rfl rfl rfl (fun hsound => ?_) h.affordable.funded
  simp only [Sound, held] at hsound ⊢
  omega

lemma claimWinningTicket_outcome : Outcome ⟨m, .claimWinningTicket ticket senderSig secret⟩ w
      (claimWinningTicket d m ticket senderSig secret w) := by
  refine .guard fun hlocked => ?_
  refine Prog.guard_bind .revert fun _ => ?_
  refine Prog.guard_bind .revert fun _ => ?_
  cases recoverSigner d (ticketHash d ticket) senderSig with
  | error e => exact .revert _
  | ok signer =>
    refine Prog.guard_bind .revert fun _ => ?_
    refine Prog.guard_bind .revert fun _ => ?_
    cases add256 ticket.creationBlock confirmationDelay with
    | none => exact .revert _
    | some targetBlock =>
      refine Prog.guard_bind .revert fun _ => ?_
      cases add256 ticket.creationBlock maxBlockhashWindow with
      | none => exact .revert _
      | some lastBlock =>
        refine Prog.guard_bind .revert fun _ => ?_
        refine Prog.guard_bind .revert fun _ => ?_
        refine Prog.guard_bind .revert fun _ => ?_
        exact payout_outcome rfl (by simp) (by simpa using hlocked) rfl rfl rfl rfl

lemma settleRound_outcome : Outcome ⟨m, .settleRound ticket senderSig secret⟩ w
      (settleRound d m ticket senderSig secret w) := by
  refine (settleRound_checks ..).elim .revert fun h => ?_
  have hcovered := h.payable.covered
  refine .pay rfl (by simp) h.unlocked rfl rfl rfl rfl (fun hsound => ?_)
    h.payable.affordable.funded
  simp only [Sound, held, World.setRound] at hsound hcovered ⊢
  omega

end Outcomes

lemma exec_outcome (d : Deployment) (tx : Tx) (w : World) : Outcome tx w (exec d tx w) := by
  refine .guard fun hvalid => ?_
  obtain ⟨-, hvalue⟩ := not_or.mp hvalid
  obtain ⟨m, call⟩ := tx
  have hzero : call.payable = false → m.value = 0 := fun hpayable => by
    simpa [hpayable] using hvalue
  have hcredit : call.payable = false → w.credit m.value = w := fun hpayable => by
    simp [World.credit, hzero hpayable]
  cases call with
  | registerProvider => exact registerProvider_outcome
  | requestUnstake => exact requestUnstake_outcome (hzero rfl)
  | withdrawStake =>
    rw [hcredit rfl]
    exact withdrawStake_outcome
  | openChannel recipient => exact deposit_outcome rfl (by simp)
  | depositToChannel recipient => exact deposit_outcome rfl (by simp)
  | initiateChannelUnlock recipient =>
    refine (initiateChannelUnlock_checks d m (w.credit m.value) recipient).elim .revert fun _ => ?_
    refine .channel rfl (by simp) fun hsound => ⟨hsound, ?_⟩
    rw [show m.value = 0 from hzero rfl]
    rfl
  | withdrawChannel recipient =>
    rw [hcredit rfl]
    exact withdrawChannel_outcome
  | claimWinningTicket ticket senderSig secret =>
    rw [hcredit rfl]
    exact claimWinningTicket_outcome
  | commitRoundSecret sender roundId tau faceValue recipientRandHash =>
    rw [hcredit rfl]
    exact (commitRoundSecret_checks ..).elim .revert fun _ => .round rfl (by simp)
  | settleRound ticket senderSig secret =>
    rw [hcredit rfl]
    exact settleRound_outcome

/-! ## The invariant -/

section

variable (providers : Address → Provider)

/-- All stakes together. -/
@[irreducible] def staked : Nat := ∑ a, (providers a).stake

section

variable (channels : Bytes32 → Channel)

/-- What the channels hold. -/
@[irreducible] def deposited : Nat := ∑ key, held (channels key)

lemma staked_eq : staked providers = ∑ a, (providers a).stake := by
  unfold staked
  rfl

lemma deposited_eq : deposited channels = ∑ key, held (channels key) := by
  unfold deposited
  rfl

lemma staked_update (a : Address) (p : Provider) :
    staked (update providers a p) + (providers a).stake = staked providers + p.stake := by
  rw [staked_eq, staked_eq]
  exact sum_update ..

lemma deposited_update (key : Bytes32) (ch : Channel) :
    deposited (update channels key ch) + held (channels key)
      = deposited channels + held ch := by
  rw [deposited_eq, deposited_eq]
  exact sum_update held ..

end

/-- The stake that is being paid, and still on the books. -/
def owed : Option Address → Nat
  | none => 0
  | some provider => (providers provider).stake

end

structure Books (provider : Option Address) (p : Point World Tx) : Prop where
  paying : withdrawing p = provider
  sound : ∀ key, Sound (p.state.channels key)
  funds : staked p.state.providers + deposited p.state.channels + lost p.past
    = p.state.balance + owed p.state.providers provider

lemma staked_init : staked World.init.providers = 0 := by
  rw [staked_eq]
  exact Finset.sum_eq_zero fun _ _ => rfl

lemma deposited_init : deposited World.init.channels = 0 := by
  rw [deposited_eq]
  exact Finset.sum_eq_zero fun _ _ => rfl

lemma Books.of_empty (hlocked : w.locked = false) (hsound : ∀ key, Sound (w.channels key))
    (hfunds : staked w.providers + deposited w.channels = w.balance) : Books none ⟨w, []⟩ where
  paying := withdrawing_of_unlocked hlocked
  sound := hsound
  funds := by simp only [lost, owed, hfunds]

lemma books_init : Books none ⟨World.init, []⟩ := by
  refine .of_empty rfl (fun _ => Nat.zero_le _) ?_
  rw [staked_init, deposited_init]
  rfl

lemma sound_setChannel (h : ∀ key, Sound (w.channels key))
    (hch : Sound ch) (k : Bytes32) : Sound (update w.channels key ch k) :=
  (Function.forall_update_iff _ (p := fun _ => Sound)).mpr ⟨hch, fun k _ => h k⟩ k

/-- Only a registration is a restake. -/
lemma lost_cons_of_ne (hcall : tx.call ≠ .registerProvider) :
    lost ((tx, w) :: past) = lost past := by
  rw [lost, if_neg fun h => hcall h.1, Nat.zero_add]

/-- A stake that grows is on the books, and lost if it is the one being
paid. -/
lemma owed_stake (past : List (Tx × World)) {p : Provider}
    (hcall : tx.msg.value ≠ 0 → tx.call = .registerProvider)
    (hstake : p.stake = (w.providers tx.msg.sender).stake + tx.msg.value) :
    owed (update w.providers tx.msg.sender p) (withdrawing ⟨w, past⟩) + lost past
      = owed w.providers (withdrawing ⟨w, past⟩) + lost ((tx, w) :: past) := by
  by_cases hself : withdrawing ⟨w, past⟩ = some tx.msg.sender
  · have hlost : lost ((tx, w) :: past) = tx.msg.value + lost past := by
      by_cases hvalue : tx.msg.value = 0
      · simp [lost, hvalue]
      · rw [lost, if_pos ⟨hcall hvalue, hvalue, hself⟩]
    rw [hself]
    simp only [owed, update_self]
    omega
  · have hlost : lost ((tx, w) :: past) = lost past := by
      rw [lost, if_neg fun h => hself h.2.2, Nat.zero_add]
    rw [hlost]
    cases hprovider : withdrawing ⟨w, past⟩ with
    | none => rfl
    | some provider =>
      have hne : provider ≠ tx.msg.sender := fun h => hself (by rw [hprovider, h])
      simp [owed, hne]

lemma exec_keeps (d : Deployment) (provider : Option Address) (p : Point World Tx) (tx : Tx)
    (h : Books provider p) :
    Keeps Books provider ((tx, p.state) :: p.past) (exec d tx p.state) := by
  obtain ⟨w, past⟩ := p
  obtain ⟨rfl, hsound, hfunds⟩ := h
  have hout := exec_outcome d tx w
  dsimp only at hsound hfunds hout ⊢
  generalize exec d tx w = prog at hout ⊢
  cases hout with
  | revert e => trivial
  | @stake p' event hquiet hcall hstake =>
    refine ⟨withdrawing_quiet hquiet rfl, hsound, ?_⟩
    have hsum := staked_update w.providers tx.msg.sender p'
    have howed := owed_stake past hcall hstake
    simp only [World.emit, World.setProvider, World.credit]
    omega
  | @channel key ch event hquiet hcall hheld =>
    obtain ⟨hch, hheld⟩ := hheld (hsound key)
    refine ⟨withdrawing_quiet hquiet rfl, sound_setChannel hsound hch, ?_⟩
    have hsum := deposited_update w.channels key ch
    simp only [World.emit, World.setChannel, World.credit, lost_cons_of_ne hcall]
    omega
  | round hquiet hcall =>
    refine ⟨withdrawing_quiet hquiet rfl, hsound, ?_⟩
    simp only [World.emit, World.setRound, lost_cons_of_ne hcall]
    exact hfunds
  | unstake hcall hlocked hfunded =>
    rw [withdrawing_of_unlocked hlocked] at hfunds ⊢
    refine ⟨trivial, some tx.msg.sender, ⟨?_, hsound, ?_⟩, fun q hq => ?_⟩
    · rw [withdrawing_cons (by rw [hcall]; rfl) rfl, if_pos hcall]
    · simp only [World.debit, lost_cons_of_ne (show tx.call ≠ .registerProvider by simp [hcall])]
      simp only [owed] at hfunds ⊢
      omega
    · have hsum := staked_update q.state.providers tx.msg.sender ⟨0, 0, false⟩
      have hq' := hq.funds
      refine ⟨withdrawing_of_unlocked rfl, hq.sound, ?_⟩
      simp only [World.emit, World.setProvider]
      simp only [owed] at hq' hsum ⊢
      omega
  | @pay w₁ key ch payee amount event hpays hcall hlocked hlocked₁ hproviders hbalance hchannels
      hheld hfunded =>
      obtain ⟨hch, hheld⟩ := hheld (hsound key)
      rw [withdrawing_of_unlocked hlocked] at hfunds ⊢
      refine ⟨trivial, none, ⟨?_, ?_, ?_⟩, fun q hq => ?_⟩
      · rw [withdrawing_cons hpays (show (w₁.debit amount).locked = true from hlocked₁),
          if_neg hcall]
      · simp only [World.debit, hchannels]
        exact sound_setChannel hsound hch
      · have hsum := deposited_update w.channels key ch
        have hquiet : tx.call ≠ .registerProvider := fun h => by rw [h] at hpays; cases hpays
        simp only [World.debit, hproviders, hchannels, hbalance, lost_cons_of_ne hquiet]
        omega
      · exact ⟨withdrawing_of_unlocked rfl, hq.sound, hq.funds⟩

def start : Config World Error Tx := ⟨⟨World.init, []⟩, []⟩

/-- Between calls the balance is what is booked and what has been lost. -/
lemma run_books (hr : Run (exec d) (fun _ _ => True) start c) (hidle : c.Idle) :
    Books none c.now := by
  have hstart : start.Ok Books none := ⟨none, books_init, rfl⟩
  have hok := Run.ok (fun provider p tx _ h => exec_keeps d provider p tx h) hr hstart
  exact hok.idle hidle

lemma Books.balance_eq_iff (h : Books none p) :
    p.state.balance = ∑ a, (p.state.providers a).stake + ∑ key, held (p.state.channels key)
      ↔ lost p.past = 0 := by
  have hfunds := h.funds
  rw [← staked_eq, ← deposited_eq]
  simp only [owed] at hfunds
  omega

/-- **The books balance** exactly if nobody adds to a stake that is being
paid out to them: in every run of arbitrary calls, re-entrant and undone
ones included, whenever no call is in progress. -/
theorem balance_eq_books_iff (d : Deployment) (c : Config World Error Tx)
    (hr : Run (exec d) (fun _ _ => True) start c) (hidle : c.Idle) :
    let w := c.now.state
    (∀ key, (w.channels key).settledAmount + (w.channels key).withdrawnAmount
        ≤ (w.channels key).totalDeposited)
      ∧ (w.balance = ∑ a, (w.providers a).stake
          + ∑ key, ((w.channels key).totalDeposited - (w.channels key).settledAmount
            - (w.channels key).withdrawnAmount)
        ↔ ∀ later tx v earlier, c.now.past = later ++ (tx, v) :: earlier →
          ¬Restakes tx ⟨v, earlier⟩) := by
  have hbooks := run_books hr hidle
  exact ⟨hbooks.sound, hbooks.balance_eq_iff.trans lost_eq_zero_iff⟩

/-- No function that follows looks at a hash. -/
def bookSample : Deployment := ⟨0xb40, 1, fun _ => 0, fun _ _ _ _ => 0, fun _ => 0⟩

/-- A transaction of the provider, account 2. -/
def byProvider (value number : Nat) (call : Call) : Tx := ⟨⟨2, value, 0, number⟩, call⟩

lemma idle_nil : ∀ x ∈ ([] : List (Pending World Error Tx)), x.IsForeign :=
  fun x hx => by cases hx

/-- A provider leaves and comes back. -/
def comeback : List Tx :=
  [byProvider (10 ^ 18) 10 .registerProvider, byProvider 0 100 .requestUnstake,
    byProvider 0 7300 .withdrawStake, byProvider (2 * 10 ^ 18) 7301 .registerProvider]

set_option maxRecDepth 8192

theorem balance_eq_books_comeback : ∃ c, Run (exec bookSample) (fun _ _ => True) start c ∧ c.Idle
      ∧ c.now.past.map (·.1) = comeback.reverse ∧ c.now.state.balance = 2 * 10 ^ 18
      ∧ c.now.state.balance = ∑ a, (c.now.state.providers a).stake
        + ∑ key, ((c.now.state.channels key).totalDeposited
          - (c.now.state.channels key).settledAmount
          - (c.now.state.channels key).withdrawnAmount) := by
  have hrun : Run (exec bookSample) (fun _ _ => True) start _ := .of_accepted comeback rfl
  obtain ⟨-, hiff⟩ := balance_eq_books_iff _ _ hrun idle_nil
  exact ⟨_, hrun, idle_nil, rfl, rfl, hiff.mpr (lost_eq_zero_iff.mp rfl)⟩

/-- While their stake is being paid out, the provider adds one wei to it. -/
def restaked : List Tx :=
  [byProvider (10 ^ 18) 10 .registerProvider, byProvider 0 100 .requestUnstake,
    byProvider 0 7300 .withdrawStake, byProvider 1 7300 .registerProvider]

lemma restaked_run : ∃ c, Run (exec bookSample) (fun _ _ => True) start c ∧ c.Idle
    ∧ c.now.past.map (·.1) = restaked.reverse ∧ c.now.state.balance = 1
    ∧ lost c.now.past = 1 := by
  have hstaked : Run (exec bookSample) (fun _ _ => True) start _ :=
    .of_accepted (restaked.take 2) rfl
  have hrun := (hstaked.tail (.invoke (byProvider 0 7300 .withdrawStake) _ trivial)).tail
    (.invoke (byProvider 1 7300 .registerProvider) _ trivial)
  exact ⟨_, hrun.tail (.accept ..), idle_nil, rfl, rfl, rfl⟩

/-- The wei is in the contract, and on nobody's account. -/
theorem restaked_lost : ∃ c, Run (exec bookSample) (fun _ _ => True) start c ∧ c.Idle
    ∧ c.now.past.map (·.1) = restaked.reverse ∧ c.now.state.balance = 1
    ∧ ∑ a, (c.now.state.providers a).stake + ∑ key, ((c.now.state.channels key).totalDeposited
        - (c.now.state.channels key).settledAmount
        - (c.now.state.channels key).withdrawnAmount) = 0 := by
  obtain ⟨c, hrun, hidle, hpast, hbalance, hlost⟩ := restaked_run
  have hfunds := (run_books hrun hidle).funds
  rw [hbalance, hlost, staked_eq, deposited_eq] at hfunds
  exact ⟨c, hrun, hidle, hpast, hbalance, Nat.add_right_cancel hfunds⟩

end Cipher.Broker
