import Cipher.PaymentChannel

/-!
# What the channel functions check

Each function that moves the money of a channel makes its checks and then
goes on in one way: it ends, or it hands control to a payee. The lemmas
here say exactly when, and how (`Prog.Checks`).
-/

namespace Cipher.PaymentChannel

open Evm

/-- What is left in a channel. -/
def held (ch : Channel) : Nat := ch.totalDeposited - ch.settledAmount - ch.withdrawnAmount

/-- A channel has not paid out more than it got. -/
def Sound (ch : Channel) : Prop := ch.settledAmount + ch.withdrawnAmount ≤ ch.totalDeposited

lemma remaining_eq_some {ch : Channel} {n : Nat} :
    ch.remaining = some n ↔ Sound ch ∧ n = held ch := by
  unfold Channel.remaining Sound held
  constructor
  · intro h
    obtain ⟨a, ha, hn⟩ := Option.bind_eq_some_iff.mp h
    obtain ⟨hle, rfl⟩ := sub256_eq_some.mp ha
    obtain ⟨hle', rfl⟩ := sub256_eq_some.mp hn
    exact ⟨by omega, rfl⟩
  · rintro ⟨hle, rfl⟩
    exact Option.bind_eq_some_iff.mpr ⟨_, sub256_eq_some.mpr ⟨by omega, rfl⟩,
      sub256_eq_some.mpr ⟨by omega, rfl⟩⟩

/-- What is left of a call once its payee has returned. -/
def afterTransfer (event : Event) : Bool → World → Prog World Error :=
  Prog.afterCall .transferFailed fun w => .done { w.emit event with locked := false }

variable (d : Deployment) (m : Msg) (w : World)

/-! ## Deposits and announcements -/

/-- The checks of `openChannel` and `depositToChannel`. -/
structure Depositable (recipient : Address) : Prop where
  unpaused : w.paused = false
  value : m.value ≠ 0
  inRange : (w.channels (getChannelKey d m.sender recipient)).totalDeposited + m.value < 2 ^ 256

section

variable (recipient : Address)

def World.deposited : World :=
  let key := getChannelKey d m.sender recipient
  w.setChannel key
    { w.channels key with totalDeposited := (w.channels key).totalDeposited + m.value }

lemma deposit_checks (event : Address → Address → Nat → Event) :
    Prog.Checks (Depositable d m w recipient)
      (.done ((w.deposited d m recipient).emit (event m.sender recipient m.value)))
      (deposit d m recipient event w) := by
  refine .guard (fun h => by simp [h.unpaused]) fun hpaused => ?_
  refine .guard (fun h => h.value) fun hvalue => ?_
  refine .checked add256_eq_some (fun h => h.inRange) fun hrange => ?_
  exact .pass ⟨by simpa using hpaused, hvalue, hrange⟩

/-- The checks of `initiateChannelUnlock`. -/
structure Unlockable (recipient : Address) : Prop where
  unpaused : w.paused = false
  fresh : (w.channels (getChannelKey d m.sender recipient)).unlockBlock = 0
  inRange : m.number + channelUnlockPeriod < 2 ^ 256

def World.unlocking : World :=
  let key := getChannelKey d m.sender recipient
  w.setChannel key { w.channels key with unlockBlock := m.number + channelUnlockPeriod }

lemma initiateChannelUnlock_checks :
    Prog.Checks (Unlockable d m w recipient) (.done ((w.unlocking d m recipient).emit
        (.channelUnlockInitiated m.sender recipient (m.number + channelUnlockPeriod))))
      (initiateChannelUnlock d m recipient w) := by
  refine .guard (fun h => by simp [h.unpaused]) fun hpaused => ?_
  refine .guard (fun h => not_not.mpr h.fresh) fun hfresh => ?_
  split
  · rename_i hnone
    exact .fail fun h => by rw [add256_of_lt h.inRange] at hnone; cases hnone
  rename_i unlockBlock hadd
  obtain ⟨hrange, rfl⟩ := add256_eq_some.mp hadd
  exact .pass ⟨by simpa using hpaused, not_not.mp hfresh, hrange⟩

/-! ## Payments -/

/-- The checks of `withdrawChannel`. -/
structure Withdrawable (ch : Channel) : Prop where
  unlocked : w.locked = false
  unpaused : w.paused = false
  announced : ch.unlockBlock ≠ 0
  due : ch.unlockBlock ≤ m.number
  sound : Sound ch
  some : held ch ≠ 0
  inRange : ch.withdrawnAmount + held ch < 2 ^ 256
  affordable : Affordable d.self m.sender (held ch) w.balance

/-- The state in which the client gets control. -/
def World.withdrawn : World :=
  let key := getChannelKey d m.sender recipient
  { w with locked := true }.setChannel key
    { w.channels key with
      withdrawnAmount := (w.channels key).withdrawnAmount + held (w.channels key) }

end

lemma withdrawChannel_checks (recipient : Address) :
    let ch := w.channels (getChannelKey d m.sender recipient)
    Prog.Checks (Withdrawable d m w ch)
      (.call ((w.withdrawn d m recipient).debit (held ch)) (w.withdrawn d m recipient) m.sender
        (afterTransfer (.channelWithdrawn m.sender recipient (held ch))))
      (withdrawChannel d m recipient w) := by
  intro ch
  refine .guard (fun h => by simp [h.unlocked]) fun hlocked => ?_
  refine .guard_bind (fun h => by simp [h.unpaused]) fun hpaused => ?_
  refine .guard_bind (fun h => h.announced) fun hannounced => ?_
  refine .guard_bind (fun h => not_lt.mpr h.due) fun hdue => ?_
  refine .checked_bind remaining_eq_some (fun h => h.sound) fun hsound => ?_
  refine .guard_bind (fun h => h.some) fun hsome => ?_
  refine .checked_bind add256_eq_some (fun h => h.inRange) fun hrange => ?_
  rw [transfer, Prog.pay_bind]
  refine .pay (fun h => h.affordable) fun haffordable => ?_
  exact .pass ⟨by simpa using hlocked, by simpa using hpaused, hannounced, not_lt.mp hdue, hsound,
    hsome, hrange, haffordable⟩

/-- The checks of `payoutProvider`. -/
structure Payable (recipient : Address) (amount : Nat) (ch : Channel) : Prop where
  authorized : w.authorizedPayoutEngine m.sender = true
  unlocked : w.locked = false
  unpaused : w.paused = false
  sound : Sound ch
  covered : amount ≤ held ch
  inRange : ch.settledAmount + amount < 2 ^ 256
  affordable : Affordable d.self recipient amount w.balance

/-- The state in which the provider gets control. -/
def World.paid (sender recipient : Address) (amount : Nat) : World :=
  let key := getChannelKey d sender recipient
  { w with locked := true }.setChannel key
    { w.channels key with settledAmount := (w.channels key).settledAmount + amount }

/-- **An order to pay** is booked before the provider gets control, and
nothing is booked afterwards; or one of the checks fails. -/
theorem payoutProvider_checks (sender recipient : Address) (amount : Nat) :
    Prog.Checks (Payable d m w recipient amount (w.channels (getChannelKey d sender recipient)))
      (.call ((w.paid d sender recipient amount).debit amount) (w.paid d sender recipient amount)
        recipient (afterTransfer (.channelPayoutExecuted sender recipient amount)))
      (payoutProvider d m sender recipient amount w) := by
  refine .guard (fun h => by simp [h.authorized]) fun hauth => ?_
  refine .guard (fun h => by simp [h.unlocked]) fun hlocked => ?_
  refine .guard_bind (fun h => by simp [h.unpaused]) fun hpaused => ?_
  refine .checked_bind remaining_eq_some (fun h => h.sound) fun hsound => ?_
  refine .guard_bind (fun h => not_lt.mpr h.covered) fun hle => ?_
  refine .checked_bind add256_eq_some (fun h => h.inRange) fun hrange => ?_
  rw [transfer, Prog.pay_bind]
  refine .pay (fun h => h.affordable) fun haffordable => ?_
  exact .pass ⟨by simpa using hauth, by simpa using hlocked, by simpa using hpaused, hsound,
    not_lt.mp hle, hrange, haffordable⟩

end Cipher.PaymentChannel
