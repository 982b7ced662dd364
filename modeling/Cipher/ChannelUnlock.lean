import Cipher.ChannelAccounts

/-!
# The unlock window

A client announces the end of a channel with `initiateChannelUnlock` and
may withdraw `CHANNEL_UNLOCK_PERIOD` blocks later. Nothing ever resets
`unlockBlock`: a channel is unlocked once (`Linked.unlocked`), and what
is deposited afterwards can be withdrawn without a new announcement.
`WindowKept` is the property one expects of a history, and
`Linked.windowKept_iff` says which deposits break it.
-/

namespace Cipher.PaymentChannel

open Evm List

/-! ## Calls about a channel -/

section

variable (d : Deployment) (key : Bytes32)

def Deposits (tx : Tx) : Prop :=
  tx.call.key d tx.msg.sender = some key ∧ tx.call.payable = true

def Unlocks (tx : Tx) : Prop :=
  tx.call.key d tx.msg.sender = some key ∧ ∃ recipient, tx.call = .initiateChannelUnlock recipient

def Withdraws (tx : Tx) : Prop :=
  tx.call.key d tx.msg.sender = some key ∧ ∃ recipient, tx.call = .withdrawChannel recipient

/-- Each withdrawal in the history comes a full unlock period after an
announcement, and nothing was deposited since that announcement. -/
def WindowKept (past : History) : Prop :=
  ∀ post tx w pre, past = post ++ (tx, w) :: pre → Withdraws d key tx →
    ∃ mid tx' w' old, pre = mid ++ (tx', w') :: old ∧ Unlocks d key tx'
      ∧ tx'.msg.number + channelUnlockPeriod ≤ tx.msg.number
      ∧ ∀ r ∈ mid, ¬Deposits d key r.1

end

/-! ## Histories -/

section Histories

variable {d : Deployment} {key : Bytes32} {tx : Tx}

lemma Linked.split :
    ∀ {post : History} {chs : Bytes32 → Channel}, Linked d (post ++ (tx, w) :: pre) chs →
      (∃ chs', Effect d tx w.toStorage chs') ∧ Linked d pre w.channels
  | [], chs, ⟨heff, hlink⟩ => ⟨⟨chs, heff⟩, hlink⟩
  | _ :: _, _, ⟨_, hlink⟩ => Linked.split hlink

/-- An effect on a channel is one move on it. -/
lemma Effect.at (h : Effect d tx s chs) (key : Bytes32) :
    (tx.call.key d tx.msg.sender ≠ some key ∧ chs key = s.channels key)
      ∨ (tx.call.key d tx.msg.sender = some key
        ∧ Move tx.msg tx.call (s.channels key) (chs key)) := by
  cases h with
  | admin hkey hvalue => exact .inl ⟨by simp [hkey], rfl⟩
  | @move key' ch' hkey hmove hvalue =>
    by_cases heq : key = key'
    · subst heq
      exact .inr ⟨hkey, by simpa using hmove⟩
    · refine .inl ⟨fun h => heq ?_, Function.update_of_ne heq _ _⟩
      exact (Option.some.inj (hkey.symm.trans h)).symm

/-- The unlock block is written once. -/
lemma Move.unlockBlock (h : Move m c ch ch') : ch'.unlockBlock = ch.unlockBlock
      ∨ (ch.unlockBlock = 0 ∧ (∃ recipient, c = .initiateChannelUnlock recipient)
        ∧ ch'.unlockBlock = m.number + channelUnlockPeriod) := by
  cases h with
  | unlock hnone => exact .inr ⟨hnone, ⟨_, rfl⟩, rfl⟩
  | deposit | withdraw | payout => exact .inl rfl

lemma Effect.unlockBlock (h : Effect d tx s chs) (key : Bytes32) :
    (chs key).unlockBlock = (s.channels key).unlockBlock
      ∨ ((s.channels key).unlockBlock = 0 ∧ Unlocks d key tx
        ∧ (chs key).unlockBlock = tx.msg.number + channelUnlockPeriod) := by
  rcases h.at key with ⟨-, heq⟩ | ⟨hkey, hmove⟩
  · exact .inl (by rw [heq])
  · rcases hmove.unlockBlock with hsame | ⟨hzero, hcall, hnew⟩
    · exact .inl hsame
    · exact .inr ⟨hzero, ⟨hkey, hcall⟩, hnew⟩

/-- **A channel is unlocked once**, and stays so. -/
theorem Linked.unlocked : ∀ {past : History} {chs : Bytes32 → Channel}, Linked d past chs →
      (chs key).unlockBlock ≠ 0 →
      ∃ mid tx w old, past = mid ++ (tx, w) :: old ∧ Unlocks d key tx
        ∧ (chs key).unlockBlock = tx.msg.number + channelUnlockPeriod
        ∧ ∀ r ∈ mid, (r.2.channels key).unlockBlock ≠ 0
  | [], chs, h, hne => by
    obtain rfl : chs = fun _ => blank := h
    exact absurd rfl hne
  | (tx, w) :: past, chs, ⟨heff, hlink⟩, hne => by
    rcases heff.unlockBlock key with hsame | ⟨-, hunlock, hnew⟩
    · rw [hsame] at hne
      obtain ⟨mid, tx', w', old, rfl, hunlock, hblock, hmid⟩ := Linked.unlocked hlink hne
      refine ⟨(tx, w) :: mid, tx', w', old, rfl, hunlock, hsame.trans hblock, ?_⟩
      rw [forall_mem_cons]
      exact ⟨hne, hmid⟩
    · exact ⟨[], tx, w, past, rfl, hunlock, hnew, by simp⟩

/-- Before it is unlocked, it has never been. -/
lemma Linked.locked : ∀ {past : History} {chs : Bytes32 → Channel}, Linked d past chs →
      (chs key).unlockBlock = 0 → ∀ r ∈ past, (r.2.channels key).unlockBlock = 0
  | [], _, _, _, r, hr => by cases hr
  | (tx, w) :: past, chs, ⟨heff, hlink⟩, hzero, r, hr => by
    have hw : (w.channels key).unlockBlock = 0 := by
      rcases heff.unlockBlock key with hsame | ⟨hw, -, -⟩
      · rw [← hsame]; exact hzero
      · exact hw
    rcases mem_cons.mp hr with rfl | hr
    · exact hw
    · exact Linked.locked hlink hw r hr

lemma Effect.move_at (h : Effect d tx s chs) (hkey : tx.call.key d tx.msg.sender = some key) :
    Move tx.msg tx.call (s.channels key) (chs key) := by
  rcases h.at key with ⟨hne, -⟩ | ⟨-, hmove⟩
  · exact absurd hkey hne
  · exact hmove

lemma Effect.withdraws (h : Effect d tx s chs) (hw : Withdraws d key tx) :
    (s.channels key).unlockBlock ≠ 0 ∧ (s.channels key).unlockBlock ≤ tx.msg.number := by
  obtain ⟨hkey, recipient, hcall⟩ := hw
  have hmove := h.move_at hkey
  rw [hcall] at hmove
  generalize chs key = ch' at hmove
  cases hmove with
  | deposit hpayable => cases hpayable
  | withdraw hinit hover => exact ⟨hinit, hover⟩

lemma Effect.unlocks (h : Effect d tx s chs) (hu : Unlocks d key tx) :
    (s.channels key).unlockBlock = 0 := by
  obtain ⟨hkey, recipient, hcall⟩ := hu
  have hmove := h.move_at hkey
  rw [hcall] at hmove
  generalize chs key = ch' at hmove
  cases hmove with
  | deposit hpayable => cases hpayable
  | unlock hnone => exact hnone

/-- The window is kept exactly if no withdrawal comes after a deposit into
a channel that had already been unlocked. -/
lemma Linked.windowKept_iff (hlink : Linked d past chs) :
    WindowKept d key past ↔ ∀ post tx w pre, past = post ++ (tx, w) :: pre →
      Withdraws d key tx → ∀ r ∈ pre, Deposits d key r.1 → (r.2.channels key).unlockBlock = 0 := by
  constructor
  · rintro hkept post tx w pre rfl hw r hr hdep
    obtain ⟨mid, tx', w', old, rfl, hunlock, -, hmid⟩ := hkept post tx w pre rfl hw
    obtain ⟨-, hpre⟩ := hlink.split
    obtain ⟨⟨chs', heff⟩, hold⟩ := hpre.split
    rcases mem_append.mp hr with hr | hr
    · exact absurd hdep (hmid r hr)
    · rcases mem_cons.mp hr with rfl | hr
      · exact heff.unlocks hunlock
      · exact hold.locked (heff.unlocks hunlock) r hr
  · rintro hnone post tx w pre rfl hw
    obtain ⟨⟨chs', heff⟩, hpre⟩ := hlink.split
    obtain ⟨hinit, hover⟩ := heff.withdraws hw
    obtain ⟨mid, tx', w', old, rfl, hunlock, hblock, hmid⟩ := hpre.unlocked hinit
    refine ⟨mid, tx', w', old, rfl, hunlock, by omega, fun r hr hdep => ?_⟩
    exact hmid r hr (hnone post tx w _ rfl hw r (mem_append_left _ hr) hdep)

end Histories

/-- **The unlock window.** In every configuration of every run, the
withdrawals in effect have kept the window of a channel exactly if none
of them comes after a deposit that was made once an unlock of the
channel had been initiated. -/
theorem unlock_window_iff (d : Deployment) (owner : Address) (c : Config World Error Tx)
    (hr : Run (exec d) (fun _ _ => True) (start owner) c) (key : Bytes32) :
    WindowKept d key c.now.past ↔ ∀ post tx w pre, c.now.past = post ++ (tx, w) :: pre →
      Withdraws d key tx → ∀ r ∈ pre, Deposits d key r.1 → (r.2.channels key).unlockBlock = 0 :=
  (run_inv hr).linked.windowKept_iff

/-- A channel opened, unlocked and, a period later, emptied. -/
def oneCycle : List Tx :=
  [byClient 10 100 (.openChannel 2), byClient 0 100 (.initiateChannelUnlock 2),
    byClient 0 7300 (.withdrawChannel 2)]

set_option maxRecDepth 8192

theorem unlock_window_one_cycle : ∃ c, Run (exec sample) (fun _ _ => True) (start 9) c
      ∧ c.now.past.map (·.1) = oneCycle.reverse
      ∧ c.now.state.log.head? = some (.channelWithdrawn 1 2 10)
      ∧ WindowKept sample sampleKey c.now.past := by
  have hrun : Run (exec sample) (fun _ _ => True) (start 9) _ := .of_accepted oneCycle rfl
  refine ⟨_, hrun, rfl, rfl, (unlock_window_iff sample 9 _ hrun _).mpr ?_⟩
  intro post tx w pre hpast _ r hr hdep
  have hmem := mem_append_right post (mem_cons_of_mem (tx, w) hr)
  rw [← hpast] at hmem
  -- The deposit is the oldest of the three calls.
  rcases mem_cons.mp hmem with rfl | hmem
  · cases hdep.2
  rcases mem_cons.mp hmem with rfl | hmem
  · cases hdep.2
  rcases mem_cons.mp hmem with rfl | hmem
  · rfl
  · cases hmem

/-- The client deposits 5 more and withdraws them in the same block. -/
theorem unlock_window_broken : ∃ c, Run (exec sample) (fun _ _ => True) (start 9) c
      ∧ c.now.past.map (·.1) = (oneCycle ++ [byClient 5 7300 (.depositToChannel 2),
        byClient 0 7300 (.withdrawChannel 2)]).reverse
      ∧ c.now.state.log.head? = some (.channelWithdrawn 1 2 5)
      ∧ ¬WindowKept sample sampleKey c.now.past := by
  have hrun : Run (exec sample) (fun _ _ => True) (start 9) _ :=
    .of_accepted (oneCycle ++ [byClient 5 7300 (.depositToChannel 2),
      byClient 0 7300 (.withdrawChannel 2)]) rfl
  refine ⟨_, hrun, rfl, rfl, fun hkept => ?_⟩
  have hzero := (run_inv hrun).linked.windowKept_iff.mp hkept [] _ _ _ rfl
    ⟨rfl, 2, rfl⟩ _ (mem_cons_self ..) ⟨rfl, rfl⟩
  exact absurd hzero (by decide)

end Cipher.PaymentChannel
