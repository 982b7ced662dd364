import Cipher.RoundLifecycle
import Mathlib.Algebra.Order.BigOperators.Group.Finset

/-!
# The contracts between two transactions

What a settlement relies on without checking it, in every configuration in
which no call is in progress: the locks of the engine and of the channel
contract are free, the channel contract holds the money that its channels
promise, and a ticket that counts as used belongs to a round that is no
longer open.
-/

namespace Cipher.PaymentChannel

open Evm Function

/-! ## Solvent channels -/

/-- Every channel can pay what it holds, and the contract can pay for all. -/
structure Solvent (w : World) : Prop where
  sound : ∀ key, Sound (w.channels key)
  bounded : ∀ key, (w.channels key).totalDeposited < 2 ^ 256
  funded : total w.channels ≤ w.balance

lemma solvent_init (owner : Address) : Solvent (.init owner) where
  sound _ := Nat.le_refl 0
  bounded _ := by simp [World.init, blank]
  funded := by simp [World.init, total, held, blank]

lemma held_le_total (chs : Bytes32 → Channel) (key : Bytes32) : held (chs key) ≤ total chs :=
  Finset.single_le_sum (f := fun key => held (chs key)) (fun _ _ => Nat.zero_le _)
    (Finset.mem_univ key)

/-- A change of one channel that is paid for. -/
lemma Solvent.update {w w' : World} (h : Solvent w)
    (hchannels : w'.channels = update w.channels key ch) (hsound : Sound ch)
    (hbounded : ch.totalDeposited < 2 ^ 256)
    (hpaid : held ch + w.balance ≤ held (w.channels key) + w'.balance) : Solvent w' := by
  have hsum := sum_update held w.channels key ch
  refine ⟨fun key' => ?_, fun key' => ?_, ?_⟩
  · rw [hchannels]
    exact Function.forall_update_iff _ (fun _ c => Sound c) |>.mpr
      ⟨hsound, fun key _ => h.sound key⟩ key'
  · rw [hchannels]
    exact Function.forall_update_iff _ (fun _ (c : Channel) => c.totalDeposited < 2 ^ 256) |>.mpr
      ⟨hbounded, fun key _ => h.bounded key⟩ key'
  · have hfunded := h.funded
    rw [hchannels]
    unfold total at *
    omega

lemma Solvent.frame {w w' : World} (h : Solvent w) (hchannels : w'.channels = w.channels)
    (hbalance : w.balance ≤ w'.balance) : Solvent w' :=
  ⟨hchannels ▸ h.sound, hchannels ▸ h.bounded, (hchannels ▸ h.funded).trans hbalance⟩

/-- The two states that a payment hands over, and fails back to. -/
lemma Solvent.spend {w v : World} (h : Solvent w) {key : Bytes32} {ch : Channel} {amount : Nat}
    (hchannels : v.channels = Function.update w.channels key ch)
    (hbalance : v.balance = w.balance) (hsound : Sound ch)
    (hdeposited : ch.totalDeposited = (w.channels key).totalDeposited)
    (hheld : held ch + amount = held (w.channels key)) (hfunded : amount ≤ w.balance) :
    Solvent (v.debit amount) ∧ Solvent v := by
  have hbounded : ch.totalDeposited < 2 ^ 256 := hdeposited ▸ h.bounded key
  refine ⟨h.update hchannels hsound hbounded ?_, h.update hchannels hsound hbounded ?_⟩
  · show held ch + w.balance ≤ _ + (v.balance - amount)
    omega
  · omega

section

variable (d : Deployment)

lemma payoutProvider_solvent (m : Msg) (sender recipient : Address) (amount : Nat) (w : World) :
    (payoutProvider d m sender recipient amount w).Own (fun w w' => Solvent w → Solvent w') w := by
  refine (payoutProvider_checks ..).own fun hpayable => ?_
  have hsound := hpayable.sound
  have hcovered := hpayable.covered
  have hspend (h : Solvent w) := h.spend (v := w.paid d sender recipient amount) rfl rfl
    (by unfold Sound held at *; dsimp only; omega) rfl
    (by unfold Sound held at *; dsimp only; omega) hpayable.affordable.funded
  refine ⟨fun h => (hspend h).1, fun h => (hspend h).2, fun sent w' => ?_⟩
  exact .guard fun _ h => h.frame rfl le_rfl

lemma withdrawChannel_solvent (m : Msg) (recipient : Address) (w : World) :
    (withdrawChannel d m recipient w).Own (fun w w' => Solvent w → Solvent w') w := by
  refine (withdrawChannel_checks ..).own fun hok => ?_
  have hsound := hok.sound
  have hspend (h : Solvent w) := h.spend (v := w.withdrawn d m recipient) rfl rfl
    (by unfold Sound held at *; dsimp only; omega) rfl
    (by unfold Sound held at *; dsimp only; omega) hok.affordable.funded
  refine ⟨fun h => (hspend h).1, fun h => (hspend h).2, fun sent w' => ?_⟩
  exact .guard fun _ h => h.frame rfl le_rfl

lemma deposit_solvent (m : Msg) (recipient : Address)
    (event : Address → Address → Nat → Event) (w : World) :
    (deposit d m recipient event (w.credit m.value)).Own
      (fun w w' => Solvent w → Solvent w') w := by
  refine (deposit_checks ..).own fun hok h => ?_
  have hsound := h.sound (getChannelKey d m.sender recipient)
  refine h.update rfl (by unfold Sound at *; dsimp only [World.credit]; omega) hok.inRange ?_
  show held _ + w.balance ≤ _ + (w.balance + m.value)
  unfold held
  dsimp only [World.credit]
  omega

/-- **The channels stay solvent** in every stretch of every call. -/
theorem exec_solvent (tx : Tx) (w : World) :
    (exec d tx w).Own (fun w w' => Solvent w → Solvent w') w := by
  have htrans : ∀ a b c : World, (Solvent a → Solvent b) → (Solvent b → Solvent c) →
      Solvent a → Solvent c := fun _ _ _ hab hbc h => hbc (hab h)
  have hcredit : Solvent w → Solvent (w.credit tx.msg.value) := fun h =>
    h.frame rfl (Nat.le_add_right _ _)
  refine .guard fun _ => ?_
  cases tx.call with
  | setPayoutEngine engine authorized =>
    exact .guard fun _ h => (hcredit h).frame rfl le_rfl
  | pause => exact .guard fun _ => .guard fun _ h => (hcredit h).frame rfl le_rfl
  | unpause => exact .guard fun _ => .guard fun _ h => (hcredit h).frame rfl le_rfl
  | openChannel recipient => exact deposit_solvent ..
  | depositToChannel recipient => exact deposit_solvent ..
  | initiateChannelUnlock recipient =>
    refine (initiateChannelUnlock_checks d tx.msg _ recipient).own ?_
    exact fun _ h => (hcredit h).update rfl (h.sound _) (h.bounded _) le_rfl
  | withdrawChannel recipient =>
    exact .after htrans hcredit (withdrawChannel_solvent ..)
  | payoutProvider sender recipient amount =>
    exact .after htrans hcredit (payoutProvider_solvent ..)

/-! ## The lock of the channel contract -/

def Locked (l : Bool) (p : Point World Tx) : Prop := p.state.locked = l

/-- The lock is taken for the time of a payment. -/
lemma keeps_payment {w : World} (hw : w.locked = true) (amount : Nat) (payee : Address)
    (event : Event) (past : List (Tx × World)) :
    Keeps Locked false past (.call (w.debit amount) w payee (afterTransfer event)) :=
  ⟨trivial, true, hw, fun _ _ => rfl⟩

lemma payoutProvider_locks (m : Msg) (sender recipient : Address)
    (amount : Nat) (w : World) (past : List (Tx × World)) :
    Keeps Locked w.locked past (payoutProvider d m sender recipient amount w) := by
  refine (payoutProvider_checks ..).elim (fun _ => trivial) ?_
  intro hpayable
  rw [hpayable.unlocked]
  exact keeps_payment rfl ..

/-- Every call leaves the lock as it has found it. -/
lemma exec_locks (tx : Tx) (w : World) (past : List (Tx × World)) :
    Keeps Locked w.locked past (exec d tx w) := by
  have hrevert : ∀ e : Error, Keeps Locked w.locked past (.revert e) := fun _ => trivial
  refine Prog.guard hrevert fun _ => ?_
  cases tx.call with
  | setPayoutEngine engine authorized => exact Prog.guard hrevert fun _ => rfl
  | pause => exact Prog.guard hrevert fun _ => Prog.guard hrevert fun _ => rfl
  | unpause => exact Prog.guard hrevert fun _ => Prog.guard hrevert fun _ => rfl
  | openChannel recipient | depositToChannel recipient =>
    exact (deposit_checks ..).elim hrevert fun _ => rfl
  | initiateChannelUnlock recipient =>
    exact (initiateChannelUnlock_checks d tx.msg _ recipient).elim hrevert fun _ => rfl
  | withdrawChannel recipient =>
    refine (withdrawChannel_checks ..).elim hrevert ?_
    intro hok
    have hfree : w.locked = false := hok.unlocked
    rw [hfree]
    exact keeps_payment rfl ..
  | payoutProvider sender recipient amount =>
    exact payoutProvider_locks d tx.msg sender _ amount (w.credit _) past

end

end Cipher.PaymentChannel

namespace Cipher.Settlement

open Evm Raffle Function

/-! ## The channel contract seen from the engine -/

/-- The channel contract stays solvent. -/
def StaysSolvent (w w' : World) : Prop :=
  PaymentChannel.Solvent w.channel → PaymentChannel.Solvent w'.channel

lemma StaysSolvent.trans (a b c : World) (hab : StaysSolvent a b) (hbc : StaysSolvent b c) :
    StaysSolvent a c :=
  fun h => hbc (hab h)

lemma StaysSolvent.frame {w w' : World} (h : w'.channel = w.channel) : StaysSolvent w w' :=
  fun hsolvent => h ▸ hsolvent

lemma embed_solvent {prog : Prog PaymentChannel.World PaymentChannel.Error}
    (h : prog.Own (fun w w' => PaymentChannel.Solvent w → PaymentChannel.Solvent w') w.channel) :
    (prog.embed World.channel (fun w channel => { w with channel }) Error.channel w).Own
      StaysSolvent w := by
  refine h.embed fun w channel hstays => ?_
  exact hstays

lemma Code.solvent (h : Code d tx k₀ w prog) : prog.Own StaysSolvent w := by
  induction h with
  | revert e => trivial
  | writes h => exact .frame h.channel
  | channel w hcall => exact embed_solvent (PaymentChannel.exec_solvent ..)
  | registry w prog =>
    refine own_embed fun w registry => .frame ?_
    rfl
  | payout hact hchannel =>
    refine .after StaysSolvent.trans (.frame ?_)
      (embed_solvent (PaymentChannel.payoutProvider_solvent ..))
    exact hchannel
  | bind _ _ ih ihk => exact ih.bind StaysSolvent.trans ihk
  | locked _ _ ih =>
    refine Prog.Own.bind StaysSolvent.trans (fun w => ?_) (.after StaysSolvent.trans ?_ ih)
    · exact StaysSolvent.frame rfl
    · exact .frame rfl

/-- In every configuration of every run the channel contract can pay. -/
lemma run_solvent (hr : Run (exec d) adm (start owner) c) :
    PaymentChannel.Solvent c.now.state.channel := by
  refine Run.always (P := fun p => PaymentChannel.Solvent p.state.channel) ?_ hr rfl
    (PaymentChannel.solvent_init owner)
  intro p tx _ h
  exact (exec_code ..).solvent.ensures (fun _ _ _ hstays hp => hstays hp) h

/-! ## The locks -/

/-- The locks of the engine and of the channel contract. -/
def World.locks (w : World) : Bool × Bool := (w.engine.locked, w.channel.locked)

def Locked (i : Bool × Bool) (p : Point World Tx) : Prop := p.state.locks = i

section Locks

variable {d : Deployment} {tx : Tx}

lemma embed_channel_locks : ∀ {w : World} {past : List (Tx × World)}, w.engine.locked = e →
      Keeps PaymentChannel.Locked l [] prog → Keeps Locked (e, l) past
        (prog.embed World.channel (fun w channel => { w with channel }) Error.channel w) := by
  induction prog with
  | done s => exact fun he h => Prod.ext he h
  | revert e => exact fun _ _ => trivial
  | call entry before callee k ih =>
    rintro w past he ⟨hfalse, j, hj, htrue⟩
    refine ⟨ih false before he hfalse, (e, j), Prod.ext he hj, fun p hp => ?_⟩
    obtain ⟨hengine, hchannel⟩ := Prod.mk.inj hp
    exact ih true _ hengine (htrue ⟨p.state.channel, []⟩ hchannel)

lemma embed_registry_locks {prog : Prog ProviderRegistry.World ProviderRegistry.Error} :
    ∀ {w : World} {past : List (Tx × World)}, w.locks = i → Keeps Locked i past
      (prog.embed World.registry (fun w registry => { w with registry }) Error.registry w) := by
  induction prog with
  | done s => exact fun h => h
  | revert e => exact fun _ => trivial
  | call entry before callee k ih =>
    intro w past h
    exact ⟨ih false before h, i, h, fun p hp => ih true p.state.registry hp⟩

lemma locks_of_eq {w w' : World} (hengine : w'.engine.locked = w.engine.locked)
    (hchannel : w'.channel = w.channel) : w'.locks = w.locks :=
  congrArg₂ Prod.mk hengine (congrArg (·.locked) hchannel)

/-- **Every call leaves the locks as it has found them.** -/
theorem Code.locks (h : Code d tx k₀ w prog) :
    ∀ {past : List (Tx × World)}, Keeps Locked w.locks past prog := by
  induction h with
  | revert e => intro past; trivial
  | writes h => exact locks_of_eq h.locked h.channel
  | channel w hcall =>
    exact embed_channel_locks rfl (PaymentChannel.exec_locks _ _ _ [])
  | registry w prog => exact embed_registry_locks rfl
  | payout hact hchannel hlocked =>
    intro past
    rw [← locks_of_eq hlocked hchannel]
    exact embed_channel_locks rfl (PaymentChannel.payoutProvider_locks ..)
  | bind _ _ ih ihk =>
    intro past
    refine Ensures.bind (fun p hp => ?_) ih
    have hnext := @ihk p.state p.past
    rwa [show p.state.locks = _ from hp] at hnext
  | locked hfree _ ih =>
    intro past
    refine Ensures.bind (fun p hp => ?_) ih
    obtain ⟨-, hchannel⟩ := Prod.mk.inj hp
    exact Prod.ext hfree.symm hchannel

end Locks

/-- Between calls the locks are free. -/
lemma run_unlocked (hr : Run (exec d) adm (start owner) c) (hidle : c.Idle) :
    c.now.state.engine.locked = false ∧ c.now.state.channel.locked = false := by
  have hok := Run.ok (J := Locked) (fun _ p tx _ h => h ▸ (exec_code d tx p.state).locks) hr
    ⟨(false, false), rfl, rfl⟩
  exact Prod.mk.inj (hok.idle hidle)

/-! ## Used tickets -/

/-- A used ticket is one of `T`, and its round has been settled. -/
def Spent (d : Deployment) (T : Set RoundTicket) (k : Core) : Prop :=
  ∀ hash, k.usedTickets hash = true → ∃ ticket ∈ T, roundTicketHash d.entropy ticket = hash ∧
    ((k.rounds (roundKey d (ticketRound ticket))).status = .settled ∨
      (k.rounds (roundKey d (ticketRound ticket))).status = .voided)

/-- The tickets that are presented for settlement are in `T`. -/
def Presents (T : Set RoundTicket) (tx : Tx) (_ : Point World Tx) : Prop :=
  ∀ ticket ∈ tx.call.tickets, ticket ∈ T

/-- A round that is written was not settled, or is void afterwards. -/
lemma Spent.setRound (h : Spent d T k) {round : Round}
    (hkey : ((k.rounds key).status ≠ .settled ∧ (k.rounds key).status ≠ .voided) ∨
      round.status = .settled ∨ round.status = .voided) : Spent d T (k.setRound key round) := by
  intro hash hused
  obtain ⟨ticket, hT, hhash, hstatus⟩ := h hash hused
  refine ⟨ticket, hT, hhash, ?_⟩
  simp only [Core.setRound]
  by_cases heq : roundKey d (ticketRound ticket) = key
  · rw [heq] at hstatus ⊢
    rw [update_self]
    exact hkey.resolve_left fun hfresh => hstatus.elim hfresh.1 hfresh.2
  · rw [update_of_ne heq]
    exact hstatus

lemma Act.spent {tx : Tx} (hT : ∀ ticket ∈ tx.call.tickets, ticket ∈ T) (hact : Act d tx k₀ k k')
    (h : Spent d T k) : Spent d T k' := by
  cases hact with
  | commit hcall hparams hnew =>
    refine h.setRound (.inl ?_)
    rw [hnew]
    exact ⟨RoundStatus.noConfusion, RoundStatus.noConfusion⟩
  | @settle _ ticket hmem hopen hpending hface hunused =>
    have hsettled : Spent d T (k.setStatus (roundKey d (ticketRound ticket)) .settled) :=
      h.setRound (.inr (.inl rfl))
    intro hash hused
    simp only [Core.pay, Core.useTicket, Core.setStatus, Core.setRound] at hused
    by_cases heq : hash = roundTicketHash d.entropy ticket
    · refine ⟨ticket, hT ticket hmem, heq.symm, .inl ?_⟩
      simp only [Core.pay, Core.useTicket, Core.setStatus, Core.setRound, update_self]
    · rw [update_of_ne heq] at hused
      exact hsettled hash hused
  | mark hcall hopen =>
    refine h.setRound (.inl ?_)
    rw [hopen]
    exact ⟨RoundStatus.noConfusion, RoundStatus.noConfusion⟩
  | void => exact h.setRound (.inr (.inr rfl))
  | @expire slot hcall hopen hauth =>
    have hclosed : Spent d T (k₀.close d slot .resolvedSlashed) := h
    exact hclosed.setRound (.inr (.inr rfl))
  | install | claim | raise | respond | channel => exact h

lemma run_spent (hr : Run (exec d) (Presents T) (start owner) c) : Spent d T c.now.state.core := by
  refine Run.always (P := fun p => Spent d T p.state.core) ?_ hr rfl ?_
  · intro p tx hadm h
    exact exec_keeps (I := Spent d T) (fun hact => hact.spent hadm) _ h
  · intro hash hused
    cases hused

/-- A ticket of an open round has not been used, if its hash is its own. -/
lemma Spent.unused (h : Spent d T k)
    (hT : Set.InjOn (roundTicketHash d.entropy) T) (hticket : ticket ∈ T)
    (hopen : (k.rounds (roundKey d (ticketRound ticket))).status = .opened) :
    k.usedTickets (roundTicketHash d.entropy ticket) = false := by
  refine Bool.eq_false_of_not_eq_true fun hused => ?_
  obtain ⟨ticket', hticket', hhash, hstatus⟩ := h _ hused
  obtain rfl := hT hticket' hticket hhash
  rw [hopen] at hstatus
  rcases hstatus with hs | hs <;> cases hs

end Cipher.Settlement
