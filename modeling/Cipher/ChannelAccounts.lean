import Cipher.ChannelChecks

/-!
# The books of the payment channels

`Move` is what a call does to the one channel it is about, and
`exec_outcome` says once what a transaction can do: revert, or write one
`Effect` and then pay somebody. A payee finds the books already
adjusted, so whatever they do while they are in control, deposits
included, starts from a state in order: `Inv` holds in every
configuration of every run, and says that the channels were reached by
the calls in effect one after the other and that the balance is what
the channels hold.
-/

namespace Cipher.PaymentChannel

open Evm Function

/-! ## What a call does -/

/-- The key of the channel a call is about. -/
def Call.key (d : Deployment) (caller : Address) : Call → Option Bytes32
  | .setPayoutEngine .. | .pause | .unpause => none
  | .openChannel recipient | .depositToChannel recipient | .initiateChannelUnlock recipient
  | .withdrawChannel recipient => some (getChannelKey d caller recipient)
  | .payoutProvider sender recipient _ => some (getChannelKey d sender recipient)

variable {ch : Channel} {c : Call}

/-- What a call does to its channel, and when. -/
inductive Move (m : Msg) : Call → Channel → Channel → Prop where
  | deposit {call ch} (hpayable : call.payable = true) (hvalue : m.value ≠ 0) :
      Move m call ch { ch with totalDeposited := ch.totalDeposited + m.value }
  | unlock {recipient ch} (hnone : ch.unlockBlock = 0) :
      Move m (.initiateChannelUnlock recipient) ch
        { ch with unlockBlock := m.number + channelUnlockPeriod }
  | withdraw {recipient ch} (hinit : ch.unlockBlock ≠ 0) (hover : ch.unlockBlock ≤ m.number)
      (hsome : held ch ≠ 0) :
      Move m (.withdrawChannel recipient) ch
        { ch with withdrawnAmount := ch.withdrawnAmount + held ch }
  | payout {sender recipient amount ch} (hle : amount ≤ held ch) :
      Move m (.payoutProvider sender recipient amount) ch
        { ch with settledAmount := ch.settledAmount + amount }

/-- What a call pays out, given the channel it is about. -/
def payment (ch : Channel) : Call → Nat
  | .withdrawChannel _ => held ch
  | .payoutProvider _ _ amount => amount
  | _ => 0

lemma payment_of_payable (ch : Channel) (h : c.payable = true) : payment ch c = 0 := by
  cases c <;> first | rfl | cases h

/-- The channels a call leaves. -/
inductive Effect (d : Deployment) (tx : Tx) (s : Storage) : (Bytes32 → Channel) → Prop where
  | admin (hkey : tx.call.key d tx.msg.sender = none) (hvalue : tx.msg.value = 0) :
      Effect d tx s s.channels
  | move {key ch'} (hkey : tx.call.key d tx.msg.sender = some key)
      (hmove : Move tx.msg tx.call (s.channels key) ch')
      (hvalue : tx.call.payable = false → tx.msg.value = 0) :
      Effect d tx s (update s.channels key ch')

/-- The programs `exec` can come up with in world `w`. -/
inductive Outcome (d : Deployment) (tx : Tx) (w : World) : Prog World Error → Prop where
  | revert (e : Error) : Outcome d tx w (.revert e)
  | quiet (heff : Effect d tx w.toStorage w₁.channels)
      (hbal : w₁.balance = w.balance + tx.msg.value)
      (hpays : ∀ key, payment (w.channels key) tx.call = 0) : Outcome d tx w (.done w₁)
  | pay {w₁ : World} {key : Bytes32} {payee : Address} {e : Event}
      (hkey : tx.call.key d tx.msg.sender = some key)
      (heff : Effect d tx w.toStorage w₁.channels) (hbal : w₁.balance = w.balance)
      (hlocked : w.locked = false) (hvalue : tx.msg.value = 0) :
      Outcome d tx w (.call (w₁.debit (payment (w.channels key) tx.call)) w₁ payee
        (afterTransfer e))

variable {d : Deployment} {tx : Tx} {w : World}

/-- A check leaves the outcome open, as it may revert. -/
lemma Outcome.guard [Decidable p]
    (h : ¬p → Outcome d tx w prog) : Outcome d tx w (if p then .revert e else prog) :=
  Prog.guard .revert h

section Outcomes

variable (d : Deployment) (m : Msg) (w : World) (recipient : Address)

lemma deposit_outcome {call : Call}
    (hkey : call.key d m.sender = some (getChannelKey d m.sender recipient))
    (hpayable : call.payable = true) :
    Outcome d ⟨m, call⟩ w (deposit d m recipient event (w.credit m.value)) := by
  refine (deposit_checks ..).elim .revert fun h => ?_
  exact .quiet (.move hkey (.deposit hpayable h.value) (by simp [hpayable])) rfl
    fun _ => payment_of_payable _ hpayable

lemma initiateChannelUnlock_outcome (hv : m.value = 0) :
    Outcome d ⟨m, .initiateChannelUnlock recipient⟩ w
      (initiateChannelUnlock d m recipient (w.credit m.value)) := by
  refine (initiateChannelUnlock_checks ..).elim .revert fun h => ?_
  exact .quiet (.move rfl (.unlock h.fresh) fun _ => hv) rfl fun _ => rfl

lemma withdrawChannel_outcome (hv : m.value = 0) : Outcome d ⟨m, .withdrawChannel recipient⟩ w
      (withdrawChannel d m recipient (w.credit m.value)) := by
  refine (withdrawChannel_checks ..).elim .revert fun h => ?_
  exact .pay rfl (.move rfl (.withdraw h.announced h.due h.some) fun _ => hv)
    (by simp [World.withdrawn, World.setChannel, World.credit, hv]) h.unlocked hv

lemma payoutProvider_outcome (sender : Address) (amount : Nat) (hv : m.value = 0) :
    Outcome d ⟨m, .payoutProvider sender recipient amount⟩ w
      (payoutProvider d m sender recipient amount (w.credit m.value)) := by
  refine (payoutProvider_checks ..).elim .revert fun h => ?_
  exact .pay rfl (.move rfl (.payout h.covered) fun _ => hv)
    (by simp [World.paid, World.setChannel, World.credit, hv]) h.unlocked hv

end Outcomes

/-- **What a transaction can do.** It reverts, or it writes one effect to
the channels and then makes its payment. -/
theorem exec_outcome (d : Deployment) (tx : Tx) (w : World) : Outcome d tx w (exec d tx w) := by
  obtain ⟨m, c⟩ := tx
  refine .guard fun hdec => ?_
  simp only [not_or, not_and_or, ne_eq, not_not, Bool.not_eq_true', Bool.not_eq_false] at hdec
  have hv : c.payable = false → m.value = 0 := fun h => hdec.2.resolve_left (by simp [h])
  cases c with
  | setPayoutEngine engine authorized =>
    exact .guard fun _ => .quiet (.admin rfl (hv rfl)) rfl fun _ => rfl
  | pause => exact .guard fun _ => .guard fun _ => .quiet (.admin rfl (hv rfl)) rfl fun _ => rfl
  | unpause =>
    exact .guard fun _ => .guard fun _ => .quiet (.admin rfl (hv rfl)) rfl fun _ => rfl
  | openChannel recipient => exact deposit_outcome d m w _ rfl rfl
  | depositToChannel recipient => exact deposit_outcome d m w _ rfl rfl
  | initiateChannelUnlock recipient =>
    exact initiateChannelUnlock_outcome d m w _ (hv rfl)
  | withdrawChannel recipient => exact withdrawChannel_outcome d m w _ (hv rfl)
  | payoutProvider sender recipient amount =>
    exact payoutProvider_outcome d m w _ sender amount (hv rfl)

/-! ## The run invariant -/

abbrev History := List (Tx × World)

/-- The calls in effect lead from deployment to these channels. -/
def Linked (d : Deployment) : History → (Bytes32 → Channel) → Prop
  | [], chs => chs = fun _ => blank
  | (tx, w) :: past, chs => Effect d tx w.toStorage chs ∧ Linked d past w.channels

lemma Move.sound (h : Move m c ch ch') (hs : Sound ch) : Sound ch' := by
  unfold Sound at *
  cases h <;> simp only [held] at * <;> omega

lemma Effect.sound (h : Effect d tx s chs)
    (hs : ∀ key, Sound (s.channels key)) (key : Bytes32) : Sound (chs key) := by
  cases h with
  | admin => exact hs key
  | @move key' ch' hkey hmove hvalue =>
    by_cases heq : key = key'
    · subst heq
      rw [update_self]
      exact hmove.sound (hs key)
    · rw [update_of_ne heq]
      exact hs key

lemma Linked.sound :
    ∀ {past : History} {chs : Bytes32 → Channel}, Linked d past chs → ∀ key, Sound (chs key)
  | [], chs, h, key => by
    obtain rfl : chs = fun _ => blank := h
    exact Nat.le_refl 0
  | (_, _) :: _, _, ⟨heff, hlink⟩, key => heff.sound (Linked.sound hlink) key

/-- A move takes out of its channel what it pays. -/
lemma Move.held (h : Move m c ch ch') (hs : Sound ch) (hv : c.payable = false → m.value = 0) :
    PaymentChannel.held ch' + payment ch c = PaymentChannel.held ch + m.value := by
  unfold Sound at hs
  cases h with
  | deposit hpayable hvalue =>
    rw [payment_of_payable _ hpayable]
    simp only [PaymentChannel.held]
    omega
  | unlock | withdraw | payout =>
    have hzero := hv rfl
    simp only [PaymentChannel.held, payment] at *
    omega

/-- What all channels hold together. -/
def total (chs : Bytes32 → Channel) : Nat := ∑ key, held (chs key)

lemma Effect.total (h : Effect d tx s chs) (hs : ∀ key, Sound (s.channels key))
    (hpays : ∀ key, tx.call.key d tx.msg.sender = some key →
      payment (s.channels key) tx.call = amount)
    (hnone : tx.call.key d tx.msg.sender = none → amount = 0) :
    PaymentChannel.total chs + amount = PaymentChannel.total s.channels + tx.msg.value := by
  cases h with
  | admin hkey hvalue => rw [hvalue, hnone hkey]
  | @move key ch' hkey hmove hvalue =>
    have hsum := sum_update PaymentChannel.held s.channels key ch'
    have hheld := hmove.held (hs key) hvalue
    have hamount := hpays key hkey
    unfold PaymentChannel.total
    omega

/-- The channels are linked and the balance is what they hold. -/
structure Inv (d : Deployment) (p : Point World Tx) : Prop where
  linked : Linked d p.past p.state.channels
  funds : p.state.balance = total p.state.channels

lemma inv_init (d : Deployment) (owner : Address) : Inv d ⟨World.init owner, []⟩ := by
  refine ⟨rfl, ?_⟩
  simp [World.init, total, held, blank]

lemma exec_keeps (d : Deployment) (p : Point World Tx) (tx : Tx) (h : Inv d p) :
    Ensures (fun (_ : Unit) => Inv d) (Inv d) ((tx, p.state) :: p.past) (exec d tx p.state) := by
  have hsound := h.linked.sound
  have hout := exec_outcome d tx p.state
  generalize exec d tx p.state = prog at hout ⊢
  cases hout with
  | revert e => trivial
  | @quiet w₁ heff hbal hpays =>
    refine ⟨⟨heff, h.linked⟩, ?_⟩
    show w₁.balance = total w₁.channels
    have htotal := heff.total hsound (fun key _ => hpays key) (fun _ => rfl)
    have hfunds := h.funds
    omega
  | @pay w₁ key payee e hkey heff hbal hlocked hvalue =>
    have hpays : ∀ key', tx.call.key d tx.msg.sender = some key' →
        payment (p.state.channels key') tx.call = payment (p.state.channels key) tx.call := by
      intro key' hkey'
      rw [Option.some.inj (hkey.symm.trans hkey')]
    have htotal := heff.total hsound hpays fun hnone => by rw [hkey] at hnone; cases hnone
    -- the payee starts from books in order, and control comes back with books in order
    refine ⟨trivial, (), ⟨⟨heff, h.linked⟩, ?_⟩, fun q hq => ⟨hq.linked, hq.funds⟩⟩
    show w₁.balance - payment (p.state.channels key) tx.call = total w₁.channels
    have hfunds := h.funds
    omega

/-- The configuration right after deployment by `owner`. -/
def start (owner : Address) : Config World Error Tx := ⟨⟨World.init owner, []⟩, []⟩

/-- **Every configuration of every run is in order.** -/
theorem run_inv {owner : Address} {c : Config World Error Tx}
    (hr : Run (exec d) (fun _ _ => True) (start owner) c) : Inv d c.now :=
  Run.always (fun p tx _ hp => exec_keeps d p tx hp) hr rfl (inv_init d owner)

/-! ## Isolation -/

/-- What a call does itself leaves all channels but its own alone. -/
lemma exec_own (d : Deployment) (tx : Tx) (w : World)
    (hkey : tx.call.key d tx.msg.sender ≠ some key) :
    (exec d tx w).Own (fun w w' => w'.channels key = w.channels key) w := by
  have hkeep : ∀ {chs}, Effect d tx w.toStorage chs → chs key = w.channels key := by
    rintro chs (⟨-, -⟩ | @⟨key', ch', hkey', -, -⟩)
    · rfl
    · refine update_of_ne (fun heq => hkey ?_) _ _
      rw [hkey', heq]
  have hout := exec_outcome d tx w
  generalize exec d tx w = prog at hout ⊢
  cases hout with
  | revert e => trivial
  | quiet heff hbal hpays => exact hkeep heff
  | pay hkey' heff hbal hlocked hvalue =>
    refine ⟨hkeep heff, hkeep heff, fun sent w' => ?_⟩
    cases sent
    · trivial
    · rfl

/-- **Solvency and isolation.** In every configuration of every run, no
channel has paid out more than was deposited, so that its balance can be
read; the contract's balance is what the channels hold together; and a
call changes no channel but the one it is about, except through what its
payee does while in control. -/
theorem channels_solvent (d : Deployment) (owner : Address) (c : Config World Error Tx)
    (hr : Run (exec d) (fun _ _ => True) (start owner) c) :
    let w := c.now.state
    (∀ key, (w.channels key).settledAmount + (w.channels key).withdrawnAmount
        ≤ (w.channels key).totalDeposited)
      ∧ (∀ sender recipient, (channelBalance d sender recipient w.toStorage).isSome)
      ∧ w.balance = ∑ key, ((w.channels key).totalDeposited - (w.channels key).settledAmount
        - (w.channels key).withdrawnAmount)
      ∧ (∀ tx key, tx.call.key d tx.msg.sender ≠ some key →
        (exec d tx w).Own (fun w w' => w'.channels key = w.channels key) w) := by
  intro w
  have hinv := run_inv hr
  have hsound := hinv.linked.sound
  refine ⟨hsound, fun sender recipient => ?_, hinv.funds, fun tx key hkey => exec_own d tx w hkey⟩
  unfold channelBalance
  rw [remaining_eq_some.mpr ⟨hsound _, rfl⟩]
  rfl

/-! ## A sample deployment -/

def sample : Deployment where
  self := 0xc4a
  keccak256 bs := BitVec.ofNat 256 (beNat bs)

/-- The channel from account 1 to account 2. -/
def sampleKey : Bytes32 := getChannelKey sample 1 2

def origin : Point World Tx := ⟨World.init 9, []⟩

/-- A transaction of the client, account 1. -/
def byClient (value number : Nat) (c : Call) : Tx := ⟨⟨1, value, 0, number⟩, c⟩

set_option maxRecDepth 8192 in
/-- After a deposit of 10 and a payout of 4 the contract holds 6. -/
theorem channels_solvent_six : ∃ c, Run (exec sample) (fun _ _ => True) (start 9) c
      ∧ (c.now.state.channels sampleKey).settledAmount = 4
      ∧ c.now.state.balance = 6
      ∧ c.now.state.balance = ∑ key, ((c.now.state.channels key).totalDeposited
        - (c.now.state.channels key).settledAmount
        - (c.now.state.channels key).withdrawnAmount) := by
  have hrun : Run (exec sample) (fun _ _ => True) (start 9) _ :=
    .of_accepted [⟨⟨9, 0, 0, 100⟩, .setPayoutEngine 5 true⟩, byClient 10 101 (.openChannel 2),
        ⟨⟨5, 0, 0, 102⟩, .payoutProvider 1 2 4⟩] rfl
  exact ⟨_, hrun, rfl, rfl, (channels_solvent sample 9 _ hrun).2.2.1⟩

end Cipher.PaymentChannel
