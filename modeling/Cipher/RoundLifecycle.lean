import Cipher.DisputeCount

/-!
# The lifecycle of a round

`voidRound` writes `Voided` without looking at the round, so that a
settled round stays settled rests on both contracts: a round with an open
dispute is never settled, because the resolver counts its open disputes,
and a dispute is opened only on an open round. `Inv` says so, `Act.inv`
that every act keeps it, and the lifecycle is read off the list of
writes.
-/

namespace Cipher.Settlement

open Evm Function List

/-! ## Rounds over time -/

inductive Edge : RoundStatus → RoundStatus → Prop where
  | commit : Edge .uncommitted .opened
  | settle : Edge .opened .settled
  | fallback : Edge .opened .partialFallback
  | void : Edge .opened .voided
  | voidFallback : Edge .partialFallback .voided

/-- The terms of a round, which are set by its commit. -/
def Round.terms (r : Round) : Nat × Nat × Bytes32 × Nat :=
  (r.tau, r.faceValue, r.recipientRandHash, r.commitBlock)

/-- A write that repeats the round, or moves its status along an edge and,
but for the commit, nothing else. -/
def Allowed (old new : Round) : Prop :=
  new = old ∨ (Edge old.status new.status ∧ (old.status ≠ .uncommitted → new.terms = old.terms))

/-- The writes to `key`, newest first, lead from the blank round to `r`. -/
def Traced (key : Bytes32) : List RoundWrite → Round → Prop
  | [], r => r = blankRound
  | x :: rest, r => if x.key = key then r = x.new ∧ Traced key rest x.old else Traced key rest r

/-- The lifecycle of the round at `key`. -/
structure Lifecycle (key : Bytes32) (e : Engine) : Prop where
  traced : Traced key e.writes (e.rounds key)
  moves : ∀ x ∈ e.writes, x.key = key →
    x.new.status = x.old.status ∨ Edge x.old.status x.new.status
  final : ∀ x ∈ e.writes, x.key = key →
    x.old.status = .settled ∨ x.old.status = .voided → x.new = x.old
  terms : ∀ x ∈ e.writes, x.key = key → x.old.status ≠ .uncommitted → x.new.terms = x.old.terms

/-- The statuses a round can have while it is disputed. -/
def Disputable (status : RoundStatus) : Prop :=
  status = .opened ∨ status = .partialFallback ∨ status = .voided

/-- Voiding a disputable round is allowed; a voided one stays as it is. -/
lemma Disputable.void {r : Round} (h : Disputable r.status) :
    Allowed r { r with status := .voided } := by
  rcases h with hs | hs | hs
  · exact .inr ⟨hs ▸ .void, fun _ => rfl⟩
  · exact .inr ⟨hs ▸ .voidFallback, fun _ => rfl⟩
  · exact .inl (hs ▸ rfl)

lemma Allowed.moves (h : Allowed old new) :
    new.status = old.status ∨ Edge old.status new.status := by
  rcases h with rfl | ⟨hedge, -⟩
  · exact .inl rfl
  · exact .inr hedge

lemma Allowed.final (h : Allowed old new)
    (hfinal : old.status = .settled ∨ old.status = .voided) : new = old := by
  rcases h with rfl | ⟨hedge, -⟩
  · rfl
  · rcases hfinal with hs | hs <;> rw [hs] at hedge <;> cases hedge

lemma Allowed.terms (h : Allowed old new) (hcommitted : old.status ≠ .uncommitted) :
    new.terms = old.terms := by
  rcases h with rfl | ⟨-, hterms⟩
  · rfl
  · exact hterms hcommitted

variable {d : Deployment} {tx : Tx}

/-- **A committed round stays committed**, with its terms. -/
theorem Act.committed (hact : Act d tx k₀ k k') (h : (k.rounds key).status ≠ .uncommitted) :
    (k'.rounds key).status ≠ .uncommitted ∧ (k'.rounds key).terms = (k.rounds key).terms := by
  have hstatus : ∀ {key' : Bytes32} {status : RoundStatus}, status ≠ .uncommitted →
      ((k.setStatus key' status).rounds key).status ≠ .uncommitted
        ∧ ((k.setStatus key' status).rounds key).terms = (k.rounds key).terms := by
    intro key' status hne
    simp only [Core.setStatus, Core.setRound]
    by_cases heq : key = key'
    · subst heq
      rw [update_self]
      exact ⟨hne, rfl⟩
    · rw [update_of_ne heq]
      exact ⟨h, rfl⟩
  cases hact with
  | commit hcall hparams hnew =>
    have hne : key ≠ _ := fun heq => h (heq ▸ hnew)
    simp only [Core.setRound, update_of_ne hne]
    exact ⟨h, trivial⟩
  | settle | mark | void | expire => exact hstatus (by decide)
  | install | claim | raise | respond | channel => exact ⟨h, rfl⟩

/-! ## The invariant -/

/-- Storage keys of the slots in `S` do not collide. -/
structure NoCollision (d : Deployment) (S : Finset Slot) : Prop where
  slots : ∀ x ∈ S, ∀ y ∈ S, disputeKey d x = disputeKey d y → x = y
  rounds : ∀ x ∈ S, ∀ y ∈ S, roundKey d x.round = roundKey d y.round → x.round = y.round

structure Inv (d : Deployment) (S : Finset Slot) (owner : Address) (k : Core) : Prop where
  owner_eq : k.owner = owner
  resolver : k.disputeResolver = 0 ∨ k.disputeResolver = d.resolver
  early : k.disputeResolver ≠ d.resolver → ∀ key, (k.rounds key).status = .uncommitted
  count : ∀ key, k.pendingDisputeCount key = (openSlots d S k key).card
  disputed : ∀ x ∈ S, (k.disputes (disputeKey d x)).status = .opened →
    Disputable (k.rounds (roundKey d x.round)).status
  traced : ∀ key, Traced key k.writes (k.rounds key)
  allowed : ∀ x ∈ k.writes, Allowed x.old x.new

section Steps

variable {d : Deployment} {S : Finset Slot} {owner : Address} {k : Core} {key : Bytes32}
  {round : Round}

lemma Traced.write (h : Traced key k.writes (k.rounds key)) :
    Traced key (k.setRound key' round).writes ((k.setRound key' round).rounds key) := by
  simp only [Core.setRound, Traced]
  by_cases heq : key' = key
  · subst heq
    rw [if_pos rfl, update_self]
    exact ⟨rfl, h⟩
  · rw [if_neg heq, update_of_ne (Ne.symm heq)]
    exact h

lemma Inv.write (h : Inv d S owner k) (hallowed : Allowed (k.rounds key) round) :
    (∀ key', Traced key' (k.setRound key round).writes ((k.setRound key round).rounds key')) ∧
      ∀ x ∈ (k.setRound key round).writes, Allowed x.old x.new :=
  ⟨fun key' => (h.traced key').write, forall_mem_cons.mpr ⟨hallowed, h.allowed⟩⟩

/-- What is known of the engine and its resolver: a disputed round has a status
in `P`, and before the resolver is installed every round has one in `E`. -/
structure Wired (d : Deployment) (S : Finset Slot) (owner : Address) (E P : RoundStatus → Prop)
    (k : Core) : Prop where
  owner_eq : k.owner = owner
  resolver : k.disputeResolver = 0 ∨ k.disputeResolver = d.resolver
  early : k.disputeResolver ≠ d.resolver → ∀ key, E (k.rounds key).status
  counted : Counted d S k
  disputed : ∀ x ∈ S, (k.disputes (disputeKey d x)).status = .opened →
    P (k.rounds (roundKey d x.round)).status

section

variable {E P : RoundStatus → Prop} (h : Wired d S owner E P k)

include h

lemma Wired.installed (hstatus : ¬ E (k.rounds key).status) : k.disputeResolver = d.resolver := by
  by_contra hne
  exact hstatus (h.early hne key)

/-- Writing a round, unless it is disputed and gets a status out of `P`, or
there is no resolver and it gets one out of `E`. -/
lemma Wired.setRound (hearly : k.disputeResolver = d.resolver ∨ E round.status)
    (hdisputed : ∀ x ∈ S, roundKey d x.round = key →
      (k.disputes (disputeKey d x)).status = .opened → P round.status) :
    Wired d S owner E P (k.setRound key round) := by
  refine { h with early := fun hne key' => ?_, disputed := fun x hx hopen => ?_ }
  · simp only [Core.setRound]
    by_cases heq : key' = key
    · rw [heq, update_self]
      exact hearly.resolve_left hne
    · rw [update_of_ne heq]
      exact h.early hne key'
  · simp only [Core.setRound]
    by_cases heq : roundKey d x.round = key
    · rw [heq, update_self]
      exact hdisputed x hx heq hopen
    · rw [update_of_ne heq]
      exact h.disputed x hx hopen

/-- Changing a dispute, with the count of its round. -/
lemma Wired.setDispute (hS : ApartKeys d S) (hslot : slot ∈ S)
    (hcounted : Counted d S ((k.setDispute (disputeKey d slot) dispute).setPending
      (roundDisputeKey d slot.round) n))
    (hround : dispute.status = .opened → P (k.rounds (roundKey d slot.round)).status) :
    Wired d S owner E P ((k.setDispute (disputeKey d slot) dispute).setPending
      (roundDisputeKey d slot.round) n) := by
  refine { h with counted := hcounted, disputed := fun x hx hopen => ?_ }
  rcases opened_setDispute hS hx hslot hopen with ⟨rfl, hnew⟩ | hopen
  · exact hround hnew
  · exact h.disputed x hx hopen

/-- The engine asks the resolver, which counts no open dispute. -/
lemma Wired.quiet {id : RoundId} (hd : d.resolver ≠ 0)
    (hinstalled : k.disputeResolver = d.resolver) (hpending : k.disputeResolver ≠ 0 →
      k.disputeResolver = d.resolver → k.pendingDisputeCount (roundDisputeKey d id) = 0)
    (hx : x ∈ S) (hround : x.round = id) :
    (k.disputes (disputeKey d x)).status ≠ .opened := by
  intro hdisputed
  have hzero := hpending (hinstalled ▸ hd) hinstalled
  rw [← hround] at hzero
  exact absurd hzero (h.counted.pos hx hdisputed).ne'

end

end Steps

/-! ## Runs -/

/-- The calls of a run in which the dispute resolver is installed before
the first commit and never changed. The resolver itself calls the engine
only from `resolveExpiredDispute`, hence no transaction comes from its
address; `S` holds the slots that are settled or disputed. -/
structure Admitted (d : Deployment) (S : Finset Slot) (owner : Address) (tx : Tx)
    (p : Point World Tx) : Prop where
  outside : tx.msg.sender ≠ d.resolver
  tickets : ∀ ticket ∈ tx.call.tickets, ticketSlot ticket ∈ S
  disputed : ∀ slot, tx.call.disputed tx.msg.sender = some slot → slot ∈ S
  install : ∀ disputeResolver, tx.call = .setDisputeResolver disputeResolver →
    tx.msg.sender = owner → disputeResolver = d.resolver
  commit : tx.call.IsCommit → p.state.engine.disputeResolver = d.resolver

/-- The resolver that a call installs. -/
def Call.installed : Call → Option Address
  | .setDisputeResolver disputeResolver => some disputeResolver
  | _ => none

lemma Call.all_installed {c : Call} {p : Address → Prop} [DecidablePred p] :
    c.installed.all (p ·) = true ↔
      ∀ disputeResolver, c = .setDisputeResolver disputeResolver → p disputeResolver := by
  cases c <;> simp [installed]

instance (d : Deployment) (S : Finset Slot) (owner : Address) (tx : Tx) (p : Point World Tx) :
    Decidable (Admitted d S owner tx p) :=
  decidable_of_iff (tx.msg.sender ≠ d.resolver
      ∧ (∀ ticket ∈ tx.call.tickets, ticketSlot ticket ∈ S)
      ∧ (∀ slot ∈ tx.call.disputed tx.msg.sender, slot ∈ S)
      ∧ tx.call.installed.all (fun r => tx.msg.sender = owner → r = d.resolver)
      ∧ (tx.call.IsCommit → p.state.engine.disputeResolver = d.resolver))
    ⟨fun ⟨houtside, htickets, hdisputed, hinstall, hcommit⟩ =>
      ⟨houtside, htickets, hdisputed, Call.all_installed.mp hinstall, hcommit⟩,
      fun h => ⟨h.outside, h.tickets, h.disputed, Call.all_installed.mpr h.install, h.commit⟩⟩

/-- `voidRound` is not called before a dispute resolver is installed. -/
def VoidsLate (tx : Tx) (p : Point World Tx) : Prop :=
  tx.call.IsVoid → p.state.engine.disputeResolver ≠ 0

instance (tx : Tx) (p : Point World Tx) : Decidable (VoidsLate tx p) :=
  inferInstanceAs (Decidable (_ → _))

/-- Every act keeps the wiring: none opens a round without a resolver, and what
becomes of a disputed round is in `P`. -/
lemma Act.wired {E P : RoundStatus → Prop} (hd : d.resolver ≠ 0) (hS : NoCollision d S)
    (hadm : Admitted d S owner tx p) (hact : Act d tx p.state.core k k') (hE : ¬ E .opened)
    (hopened : P .opened) (hvoided : P .voided)
    (hmark : ∀ id, tx.call.marked tx.msg.sender = some id → ∀ x ∈ S,
      roundKey d x.round = roundKey d id →
        (p.state.core.disputes (disputeKey d x)).status = .opened → P .partialFallback)
    (hvoid : E .voided ∨ VoidsLate tx p ∧ ∀ status, P status → ¬ E status)
    (h : Wired d S owner E P k) : Wired d S owner E P k' := by
  have hcounted : Counted d S k' := hact.counted hS.slots hadm.disputed h.counted
  cases hact with
  | install hcall hauth =>
    obtain rfl := hadm.install _ hcall (hauth.trans h.owner_eq)
    exact { h with resolver := .inr rfl, early := fun hne => absurd rfl hne }
  | @commit sender roundId tau faceValue hash hcall hparams hnew =>
    have hcommit : tx.call.IsCommit := ⟨sender, roundId, tau, faceValue, hash, hcall⟩
    exact h.setRound (.inl (hadm.commit hcommit)) fun _ _ _ _ => hopened
  | @settle _ ticket hmem hopen hpending hface hunused =>
    have hinstalled := h.installed (hopen ▸ hE)
    refine { h.setRound (.inl hinstalled) fun x hx hkey hdisputed => ?_ with }
    have hround := hS.rounds x hx _ (hadm.tickets ticket hmem) hkey
    exact absurd hdisputed (h.quiet hd hinstalled hpending hx hround)
  | claim | channel => exact { h with }
  | @mark id hcall hopen => exact h.setRound (.inl (h.installed (hopen ▸ hE))) (hmark id hcall)
  | void hcall hauth =>
    refine h.setRound (.inr (hvoid.resolve_right ?_)) fun _ _ _ _ => hvoided
    -- A call from outside does not come from the resolver.
    rintro ⟨hlate, -⟩
    have hset := hlate ⟨_, _, _, _, hcall⟩
    exact hadm.outside ((hauth hset).trans (h.resolver.resolve_left hset))
  | @raise slot dispute hcall hnone hround hopen =>
    exact h.setDispute hS.slots (hadm.disputed slot hcall) hcounted fun _ => hround ▸ hopened
  | @respond slot hcall hopen =>
    exact h.setDispute hS.slots (hadm.disputed slot hcall) hcounted fun heq => by cases heq
  | @expire slot hcall hopen hauth =>
    have hslot : slot ∈ S := hadm.disputed slot (by rw [hcall]; rfl)
    have hclosed : Wired d S owner E P (p.state.core.close d slot .resolvedSlashed) :=
      h.setDispute hS.slots hslot hcounted fun heq => by cases heq
    refine hclosed.setRound ?_ fun _ _ _ _ => hvoided
    rcases hvoid with hearly | ⟨-, hlate⟩
    · exact .inr hearly
    · exact .inl (h.installed (hlate _ (h.disputed slot hslot hopen)))

/-- **Every act keeps the invariant.** -/
theorem Act.inv (hd : d.resolver ≠ 0)
    (hS : NoCollision d S) (hadm : Admitted d S owner tx p) (hlate : VoidsLate tx p)
    (hact : Act d tx p.state.core k k') (h : Inv d S owner k) : Inv d S owner k' := by
  have hcommitted : ∀ status, Disputable status → status ≠ .uncommitted := by
    rintro status (rfl | rfl | rfl) <;> decide
  have hbefore : Wired d S owner (· = .uncommitted) Disputable k :=
    ⟨h.owner_eq, h.resolver, h.early, h.count, h.disputed⟩
  have hwired := hact.wired hd hS hadm nofun (.inl rfl) (.inr (.inr rfl))
    (fun _ _ _ _ _ _ => .inr (.inl rfl)) (.inr ⟨hlate, hcommitted⟩) hbefore
  have hwrites : (∀ key, Traced key k'.writes (k'.rounds key)) ∧
      ∀ x ∈ k'.writes, Allowed x.old x.new := by
    cases hact with
    | commit hcall hparams hnew =>
      exact h.write (.inr ⟨hnew ▸ .commit, fun hne => absurd hnew hne⟩)
    | settle hmem hopen => exact h.write (.inr ⟨hopen ▸ .settle, fun _ => rfl⟩)
    | mark hcall hopen => exact h.write (.inr ⟨hopen ▸ .fallback, fun _ => rfl⟩)
    | void hcall hauth =>
      -- A call from outside does not come from the resolver.
      have hset := hlate ⟨_, _, _, _, hcall⟩
      exact absurd ((hauth hset).trans (h.resolver.resolve_left hset)) hadm.outside
    | @expire slot hcall hopen hauth =>
      have hslot : slot ∈ S := hadm.disputed slot (by rw [hcall]; rfl)
      exact h.write (Disputable.void (h.disputed slot hslot hopen))
    | _ => exact ⟨h.traced, h.allowed⟩
  exact ⟨hwired.owner_eq, hwired.resolver, hwired.early, hwired.counted, hwired.disputed,
    hwrites.1, hwrites.2⟩

lemma init_inv (d : Deployment) (S : Finset Slot) (owner : Address) :
    Inv d S owner (World.init owner).core where
  owner_eq := rfl
  resolver := .inl rfl
  early := fun _ _ => rfl
  count := init_counted d S owner
  disputed := fun _ _ hopen => by cases hopen
  traced := fun _ => rfl
  allowed := fun _ hx => by cases hx

lemma run_inv (hd : d.resolver ≠ 0) (hS : NoCollision d S)
    (hr : Run (exec d) (fun tx p => Admitted d S owner tx p ∧ VoidsLate tx p) (start owner) c) :
    Inv d S owner c.now.state.core := by
  refine Run.always (P := fun p => Inv d S owner p.state.core) ?_ hr rfl (init_inv d S owner)
  rintro p tx ⟨hadm, hlate⟩ h
  exact exec_keeps (fun hact => hact.inv hd hS hadm hlate) _ h

/-- **The round state machine.** Let the resolver be installed before the
first commit, never be replaced, and let nobody call `voidRound` before
that. Then in every configuration of every run the writes to a round
lead along the edges from a blank round to the present one. -/
theorem round_lifecycle (d : Deployment) (hd : d.resolver ≠ 0) (S : Finset Slot)
    (hS : NoCollision d S) (owner : Address) (c : Config World Error Tx)
    (hr : Run (exec d) (fun tx p => Admitted d S owner tx p ∧ VoidsLate tx p) (start owner) c)
    (key : Bytes32) : Lifecycle key c.now.state.engine := by
  have hinv := run_inv hd hS hr
  exact ⟨hinv.traced key, fun x hx _ => (hinv.allowed x hx).moves,
    fun x hx _ => (hinv.allowed x hx).final, fun x hx _ => (hinv.allowed x hx).terms⟩

lemma sample_noCollision : NoCollision sample {sampleSlot} where
  slots := by
    intro x hx y hy _
    rw [Finset.mem_singleton.mp hx, Finset.mem_singleton.mp hy]
  rounds := by
    intro x hx y hy _
    rw [Finset.mem_singleton.mp hx, Finset.mem_singleton.mp hy]

set_option maxRecDepth 8192

/-- A round that is committed, marked and, after a lost dispute, voided. -/
theorem round_lifecycle_lost : ∃ c, Run (exec sample)
        (fun tx p => Admitted sample {sampleSlot} 9 tx p ∧ VoidsLate tx p) (start 9) c
      ∧ c.now.past.map (·.1.call) = ((wiring ++ lostDispute).map (·.call)).reverse
      ∧ c.now.state.engine.writes.map (fun x => (x.old.status, x.new.status))
        = [(.partialFallback, .voided), (.opened, .partialFallback), (.uncommitted, .opened)]
      ∧ Lifecycle (roundKey sample ⟨1, 2, 3⟩) c.now.state.engine := by
  have hrun : Run (exec sample) (fun tx p => Admitted sample {sampleSlot} 9 tx p ∧
      VoidsLate tx p) (start 9) _ :=
    .of_accepted (wiring ++ lostDispute) rfl
  exact ⟨_, hrun, rfl, rfl,
    round_lifecycle sample (by decide) _ sample_noCollision 9 _ hrun _⟩

/-- Before the resolver is installed, account 5 voids a round that nobody
has committed; the provider can then no longer commit it. -/
theorem round_voided_early : ∃ c, Run (exec sample) (Admitted sample {sampleSlot} 9) (start 9) c
      ∧ c.now.state.engine.disputeResolver = sample.resolver
      ∧ exec sample (sampleTx 2 100 (.commitRoundSecret 1 3 10 5 77)) c.now.state
        = .revert (.engine .roundAlreadyCommitted)
      ∧ ¬Lifecycle (roundKey sample ⟨1, 2, 3⟩) c.now.state.engine := by
  refine ⟨_, .of_accepted [sampleTx 5 80 (.voidRound 1 2 3 0),
    sampleTx 9 90 (.setDisputeResolver 0x4e5)] rfl, rfl, rfl, fun hcycle => ?_⟩
  rcases hcycle.moves _ (mem_cons_self ..) rfl with hsame | hedge
  · cases hsame
  · cases hedge

end Cipher.Settlement
