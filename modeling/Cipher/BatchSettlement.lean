import Cipher.Payouts

/-!
# Settlements in one batch

`settleRoundBatch` is a loop over `_settleRoundInternal` behind one lock, where
`settleRound` takes the lock for each ticket. With providers that take their
money and do not call back nobody sees the lock, so a batch does what the single
settlements do (`batch_sequential`). Two of them that succeed one after the other
are about different rounds and tickets, and share at most the money of a channel;
so they succeed in either order (`Passes.swap`).
-/

namespace Cipher.Settlement

open Evm Raffle Function List Option

section Batch

variable (d : Deployment) (m : Msg) (answers : Answers)

section

variable (claims : List Claim) (w : World)

def settleBatch : Option World :=
  (exec d ⟨m, .settleRoundBatch (claims.map (·.1)) (claims.map (·.2.1)) (claims.map (·.2.2)),
    answers⟩ w).accepted

def settleEach : Option World :=
  claims.foldlM (fun w x => (exec d ⟨m, .settleRound x.1 x.2.1 x.2.2, answers⟩ w).accepted) w

/-- Settlements without the lock. -/
def settleAll : Option World :=
  claims.foldlM (fun w x => (settleRoundInternal d m answers x.1 x.2.1 x.2.2 w).accepted) w

end

variable {d m answers} {x : Claim} {claims : List Claim} {w w' : World}

/-! ## The lock -/

def World.locking (w : World) (locked : Bool) : World :=
  { w with engine := { w.engine with locked } }

lemma accepted_bind (prog : Prog World Error) (k : World → Prog World Error) :
    (prog.bind k).accepted = prog.accepted.bind fun w => (k w).accepted := by
  induction prog with
  | done | revert => rfl
  | call entry before callee k' ih => exact ih ..

lemma settleAll_cons : settleAll d m answers (x :: claims) w = some w' ↔ Passes d m answers x w ∧
      settleAll d m answers claims (w.afterRound d x.1) = some w' := by
  rw [settleAll, foldlM_cons, bind_eq_bind, bind_eq_some_iff]
  simp only [settleRoundInternal_accepted, and_assoc, exists_and_left, exists_eq_left]
  rfl

lemma settleRounds_accepted :
    (settleRounds d m answers claims w).accepted = settleAll d m answers claims w := by
  induction claims generalizing w with
  | nil => rfl
  | cons x claims ih =>
    rw [settleRounds, accepted_bind]
    exact congrArg _ (funext fun _ => ih)

lemma passes_locking : Passes d m answers x (w.locking locked) ↔ Passes d m answers x w :=
  ⟨fun h => ⟨{ h.settleable with }, h.payable⟩, fun h => ⟨{ h.settleable with }, h.payable⟩⟩

lemma settleAll_locking (locked : Bool) : settleAll d m answers claims (w.locking locked) =
      (settleAll d m answers claims w).map (·.locking locked) := by
  induction claims generalizing w with
  | nil => rfl
  | cons x claims ih =>
    refine Option.ext fun w' => ?_
    have hrest : settleAll d m answers claims ((w.locking locked).afterRound d x.1) = _ :=
      ih (w := w.afterRound ..)
    simp only [settleAll_cons, hrest, map_eq_some_iff, passes_locking, and_assoc, exists_and_left]

/-! ## Batches and single settlements -/

/-- The checks of a batch before its loop. -/
structure Batchable (m : Msg) (claims : List Claim) (w : World) : Prop where
  inRange : ∀ x ∈ claims, ticketInRange x.1 = true
  value : m.value = 0
  unlocked : w.engine.locked = false
  unpaused : w.engine.paused = false

lemma settleAll_engine (h : settleAll d m answers claims w = some w') :
    w'.engine.locked = w.engine.locked := by
  induction claims generalizing w with
  | nil =>
    cases h
    rfl
  | cons x claims ih => exact ih (w := w.afterRound ..) (settleAll_cons.mp h).2

lemma batch_checks (d : Deployment) (m : Msg) (answers : Answers) (claims : List Claim)
    (w : World) :
    Prog.Checks (Batchable m claims w)
      ((settleRounds d m answers claims (w.locking true)).bind fun w => .done (w.locking false))
      (exec d ⟨m, .settleRoundBatch (claims.map (·.1)) (claims.map (·.2.1)) (claims.map (·.2.2)),
        answers⟩ w) := by
  have hzip : (claims.map (·.1)).zip ((claims.map (·.2.1)).zip (claims.map (·.2.2))) = claims := by
    rw [zip_map', zip_map']
    exact map_id _
  refine .guard (fun h => ?_) fun hcalldata => ?_
  · simpa [Call.inRange, h.value] using h.inRange
  refine .guard (fun h => by simp [h.unlocked]) fun hlocked => ?_
  refine .guard_bind (fun h => by simp [h.unpaused]) fun hpaused => ?_
  refine .guard_bind (fun _ => by simp) fun _ => ?_
  rw [hzip]
  simp [Call.inRange, Call.checksValue] at hcalldata
  exact .pass ⟨by simpa using hcalldata.1, hcalldata.2, by simpa using hlocked,
    by simpa using hpaused⟩

lemma settleBatch_eq_some : settleBatch d m answers claims w = some w' ↔
    Batchable m claims w ∧ settleAll d m answers claims w = some w' := by
  rw [settleBatch]
  rcases batch_checks .. with ⟨hadm, heq⟩ | ⟨hadm, e, heq⟩
  · rw [heq, accepted_bind, settleRounds_accepted, settleAll_locking, and_iff_right hadm]
    cases hall : settleAll d m answers claims w with
    | none => simp
    | some w₁ =>
      have hfree : (w₁.locking true).locking false = w₁ := by
        have hlocked := (settleAll_engine hall).trans hadm.unlocked
        obtain ⟨channel, registry, ⟨⟩, resolver⟩ := w₁
        obtain rfl := hlocked
        rfl
      simp [Prog.accepted, hfree]
  · rw [heq]
    exact iff_of_false (by simp [Prog.accepted]) fun h => hadm h.1

lemma settleEach_cons : settleEach d m answers (x :: claims) w = some w' ↔
    Batchable m [x] w ∧ Passes d m answers x w ∧
      settleEach d m answers claims (w.afterRound d x.1) = some w' := by
  have hfirst : ∀ w₁, (exec d ⟨m, .settleRound x.1 x.2.1 x.2.2, answers⟩ w).accepted = some w₁ ↔
      Batchable m [x] w ∧ Passes d m answers x w ∧ w₁ = w.afterRound d x.1 := by
    intro w₁
    unfold exec
    split
    · rename_i hcalldata
      refine iff_of_false (by simp [Prog.accepted]) fun ⟨h, _⟩ => ?_
      simp [Call.inRange, h.value, h.inRange x] at hcalldata
    · rename_i hcalldata
      simp [Call.inRange, Call.checksValue] at hcalldata
      refine settleRound_accepted.trans ⟨fun ⟨h, heq⟩ => ?_, fun ⟨hadm, h, heq⟩ => ?_⟩
      · exact ⟨⟨by simpa using hcalldata.1, hcalldata.2, h.unlocked, h.unpaused⟩,
          ⟨h.settleable, h.payable⟩, heq⟩
      · exact ⟨⟨hadm.unlocked, hadm.unpaused, h.settleable, h.payable⟩, heq⟩
  rw [settleEach, foldlM_cons, bind_eq_bind, bind_eq_some_iff]
  simp only [hfirst, and_assoc, exists_and_left, exists_eq_left]
  rfl

lemma settleEach_eq_some : settleEach d m answers claims w = some w' ↔
    (claims ≠ [] → Batchable m claims w) ∧ settleAll d m answers claims w = some w' := by
  induction claims generalizing w with
  | nil => simp [settleEach, settleAll]
  | cons x claims ih =>
    rw [settleEach_cons, settleAll_cons, ih]
    constructor
    · rintro ⟨hfirst, hpasses, hrest, hall⟩
      refine ⟨fun _ => { hfirst with inRange := ?_ }, hpasses, hall⟩
      refine forall_mem_cons.mpr ⟨hfirst.inRange x mem_cons_self, fun y hy => ?_⟩
      exact (hrest (ne_nil_of_mem hy)).inRange y hy
    · rintro ⟨hadm, hpasses, hall⟩
      have hadm := hadm (cons_ne_nil _ _)
      obtain ⟨hx, hrange⟩ := forall_mem_cons.mp hadm.inRange
      exact ⟨{ hadm with inRange := by simpa using hx }, hpasses,
        fun _ => ⟨hrange, hadm.value, hadm.unlocked, hadm.unpaused⟩, hall⟩

/-! ## The order of the settlements -/

/-- A state without what records the order of things. -/
def World.unordered (w : World) : World :=
  { w with
    channel := { w.channel with log := [] }
    engine := { w.engine with log := [], writes := [], payouts := [] } }

/-- The same balances and states, after the same payouts. -/
def Alike (w w' : World) : Prop :=
  w.unordered = w'.unordered ∧ w.engine.payouts.Perm w'.engine.payouts

lemma passes_unordered : Passes d m answers x w.unordered ↔ Passes d m answers x w :=
  ⟨fun h => ⟨{ h.settleable with }, { h.payable with affordable := { h.payable.affordable with } }⟩,
    fun h => ⟨{ h.settleable with },
      { h.payable with affordable := { h.payable.affordable with } }⟩⟩

lemma Alike.settle (h : Alike w w') (hpasses : Passes d m answers x w) :
    Passes d m answers x w' ∧ Alike (w.afterRound d x.1) (w'.afterRound d x.1) := by
  obtain ⟨hstate, hpayouts⟩ := h
  refine ⟨passes_unordered.mp (hstate ▸ passes_unordered.mpr hpasses), ?_, ?_⟩
  · have hafter := congrArg (fun w : World => (w.afterRound d x.1).unordered) hstate
    exact hafter
  · have hdisputes := congrArg (fun w : World => w.resolver.disputes) hstate
    change w.resolver.disputes = w'.resolver.disputes at hdisputes
    change (⟨.normal, x.1, w.resolver.disputes⟩ :: w.engine.payouts).Perm _
    rw [hdisputes]
    exact hpayouts.cons _

/-- A payment in the books of the channels. -/
def pay (f : Bytes32 → PaymentChannel.Channel) (key : Bytes32) (amount : Nat) :
    Bytes32 → PaymentChannel.Channel :=
  update f key { f key with settledAmount := (f key).settledAmount + amount }

/-- A channel that the payment can be booked in. -/
def Covers (ch : PaymentChannel.Channel) (amount : Nat) : Prop :=
  PaymentChannel.Sound ch ∧ amount ≤ PaymentChannel.held ch ∧ ch.settledAmount + amount < 2 ^ 256

section Books

lemma Covers.swap (ha : Covers (f k) a) (hb : Covers (pay f k a k') b) :
    Covers (f k') b ∧ Covers (pay f k' b k) a := by
  by_cases hk : k' = k
  · subst hk
    simp only [pay, update_self, Covers, PaymentChannel.Sound, PaymentChannel.held] at ha hb ⊢
    omega
  · rw [pay, update_of_ne hk] at hb
    rw [pay, update_of_ne (Ne.symm hk)]
    exact ⟨hb, ha⟩

lemma pay_comm : pay (pay f k a) k' b = pay (pay f k' b) k a := by
  by_cases hk : k' = k
  · subst hk
    simp [pay, Nat.add_right_comm]
  · simp only [pay, update_of_ne hk, update_of_ne (Ne.symm hk)]
    exact update_comm (Ne.symm hk) ..

end Books

/-- Two settlements that succeed in one order succeed in the other. -/
lemma Passes.swap (hx : Passes d m answers x w) (hy : Passes d m answers y (w.afterRound d x.1)) :
    Passes d m answers y w ∧ Passes d m answers x (w.afterRound d y.1) ∧
      Alike ((w.afterRound d x.1).afterRound d y.1) ((w.afterRound d y.1).afterRound d x.1) := by
  have hround : roundKey d (ticketRound y.1) ≠ roundKey d (ticketRound x.1) := by
    intro heq
    have hopen : (update w.engine.rounds _ _ _ : Round).status = .opened := hy.settleable.opened
    rw [heq, update_self] at hopen
    cases hopen
  have hticket : roundTicketHash d.entropy y.1 ≠ roundTicketHash d.entropy x.1 := by
    intro heq
    have hunused : update w.engine.usedTickets _ true _ = false := hy.settleable.unused
    rw [heq, update_self] at hunused
    cases hunused
  have hrounds : (w.afterRound d x.1).engine.rounds (roundKey d (ticketRound y.1)) =
      w.engine.rounds (roundKey d (ticketRound y.1)) := update_of_ne hround _ _
  have hrounds' : (w.afterRound d y.1).engine.rounds (roundKey d (ticketRound x.1)) =
      w.engine.rounds (roundKey d (ticketRound x.1)) := update_of_ne hround.symm _ _
  have hused : (w.afterRound d x.1).engine.usedTickets (roundTicketHash d.entropy y.1) =
      w.engine.usedTickets (roundTicketHash d.entropy y.1) := update_of_ne hticket _ _
  have hused' : (w.afterRound d y.1).engine.usedTickets (roundTicketHash d.entropy x.1) =
      w.engine.usedTickets (roundTicketHash d.entropy x.1) := update_of_ne hticket.symm _ _
  obtain ⟨hsx, hpx⟩ := hx
  obtain ⟨hsy, hpy⟩ := hy
  rw [hrounds] at hsy
  have hcovers : Covers (w.channel.channels _) _ := ⟨hpx.sound, hpx.covered, hpx.inRange⟩
  obtain ⟨hcovers, hcovers'⟩ := hcovers.swap ⟨hpy.sound, hpy.covered, hpy.inRange⟩
  have hfunded : y.1.faceValue ≤ w.channel.balance - x.1.faceValue := hpy.affordable.funded
  have hfunded' := hpx.affordable.funded
  refine ⟨⟨{ hsy with unused := hused ▸ hsy.unused }, ?_⟩, ⟨?_, ?_⟩, ?_, ?_⟩
  · exact ⟨hpx.authorized, hpx.unlocked, hpx.unpaused, hcovers.1, hcovers.2.1, hcovers.2.2,
      hpy.affordable.payee, by omega⟩
  · rw [hrounds']
    exact { hsx with unused := hused'.trans hsx.unused }
  · refine ⟨hpx.authorized, rfl, hpx.unpaused, hcovers'.1, hcovers'.2.1, hcovers'.2.2,
      hpx.affordable.payee, ?_⟩
    change x.1.faceValue ≤ w.channel.balance - y.1.faceValue
    omega
  · let F (channels : Bytes32 → PaymentChannel.Channel) (balance : Nat) (rounds : Bytes32 → Round)
        (usedTickets : Bytes32 → Bool) : World :=
      { w with
        channel := { w.channel with channels, balance, log := [], locked := false }
        engine := { w.engine with rounds, usedTickets, log := [], writes := [], payouts := [] } }
    change F (pay (pay _ _ _) _ _) (w.channel.balance - _ - _)
      (update (update w.engine.rounds _ _) _
        { (w.afterRound d x.1).engine.rounds _ with status := _ }) (update (update _ _ _) _ _) =
      F (pay (pay _ _ _) _ _) (w.channel.balance - _ - _) (update (update w.engine.rounds _ _) _
        { (w.afterRound d y.1).engine.rounds _ with status := _ }) (update (update _ _ _) _ _)
    rw [pay_comm, Nat.sub_right_comm, hrounds, hrounds', update_comm hround, update_comm hticket]
  · exact .swap ..

lemma Alike.settleAll (halike : Alike w₁ w₂) (h : settleAll d m answers claims w₁ = some w₁') :
    ∃ w₂', Settlement.settleAll d m answers claims w₂ = some w₂' ∧ Alike w₁' w₂' := by
  induction claims generalizing w₁ w₂ with
  | nil => exact ⟨w₂, rfl, Option.some.inj h ▸ halike⟩
  | cons x claims ih =>
    obtain ⟨hpasses, hrest⟩ := settleAll_cons.mp h
    obtain ⟨hpasses', halike'⟩ := halike.settle hpasses
    obtain ⟨w₂', hall, hend⟩ := ih halike' hrest
    exact ⟨w₂', settleAll_cons.mpr ⟨hpasses', hall⟩, hend⟩

lemma settleAll_perm {claims claims' : List Claim} (hperm : claims.Perm claims')
    (h : settleAll d m answers claims w = some w') :
    ∃ w'', settleAll d m answers claims' w = some w'' ∧ Alike w' w'' := by
  induction hperm generalizing w w' with
  | nil => exact ⟨w', h, rfl, .refl _⟩
  | cons x _ ih =>
    obtain ⟨hpasses, hrest⟩ := settleAll_cons.mp h
    obtain ⟨w'', hall, halike⟩ := ih hrest
    exact ⟨w'', settleAll_cons.mpr ⟨hpasses, hall⟩, halike⟩
  | swap x y claims =>
    obtain ⟨hy, hrest⟩ := settleAll_cons.mp h
    obtain ⟨hx, hrest⟩ := settleAll_cons.mp hrest
    obtain ⟨hx, hy, halike⟩ := hy.swap hx
    obtain ⟨w'', hall, halike⟩ := halike.settleAll hrest
    exact ⟨w'', settleAll_cons.mpr ⟨hx, settleAll_cons.mpr ⟨hy, hall⟩⟩, halike⟩
  | trans _ _ ih₁ ih₂ =>
    obtain ⟨w₁, h₁, halike₁⟩ := ih₁ h
    obtain ⟨w₂, h₂, halike₂⟩ := ih₂ h₁
    exact ⟨w₂, h₂, halike₁.1.trans halike₂.1, halike₁.2.trans halike₂.2⟩

/-- **A batch is settled like its tickets one after the other**, if there are
any. If it succeeds it succeeds in every order, with the same balances and
states. -/
theorem batch_sequential (d : Deployment) (m : Msg) (answers : Answers) (claims : List Claim)
    (w : World) :
    (claims ≠ [] → settleBatch d m answers claims w = settleEach d m answers claims w) ∧
    ∀ claims' w', claims.Perm claims' → settleBatch d m answers claims w = some w' →
      ∃ w'', settleBatch d m answers claims' w = some w'' ∧ Alike w' w'' := by
  refine ⟨fun hne => Option.ext fun w' => ?_, fun claims' w' hperm h => ?_⟩
  · rw [settleBatch_eq_some, settleEach_eq_some, forall_prop_of_true hne]
  · obtain ⟨hadm, hall⟩ := settleBatch_eq_some.mp h
    obtain ⟨w'', hall', halike⟩ := settleAll_perm hperm hall
    refine ⟨w'', settleBatch_eq_some.mpr ⟨{ hadm with inRange := fun x hx => ?_ }, hall'⟩, halike⟩
    exact hadm.inRange x (hperm.mem_iff.mpr hx)

end Batch

def pausedWorld : World :=
  { World.init 9 with engine := { (World.init 9).engine with paused := true } }

/-- An empty batch is rejected while the engine is paused. -/
theorem empty_batch_rejected :
    settleBatch drawSample ⟨1, 0, 0, 120⟩ (fun _ _ => none) [] pausedWorld = none ∧
      settleEach drawSample ⟨1, 0, 0, 120⟩ (fun _ _ => none) [] pausedWorld = some pausedWorld :=
  ⟨rfl, rfl⟩

end Cipher.Settlement
