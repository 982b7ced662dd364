import Cipher.SettlementMoves

/-!
# Counting open disputes

The resolver keeps, for each round, the number of its open disputes, so
that the engine can ask whether there is one. `Counted` says that the
numbers are right; raising a dispute and closing one are the only acts
that change either side of it.
-/

namespace Cipher.Settlement

open Bytes Evm Function Finset

/-! ## Open slots -/

section

variable (d : Deployment) (S : Finset Slot)

/-- The slots with an open dispute whose round is counted under `key`. -/
def openSlots (k : Core) (key : Bytes32) : Finset Slot :=
  S.filter fun x =>
    roundDisputeKey d x.round = key ∧ (k.disputes (disputeKey d x)).status = .opened

/-- The slots of `S` are stored under different keys. -/
def ApartKeys : Prop :=
  ∀ x ∈ S, ∀ y ∈ S, disputeKey d x = disputeKey d y → x = y

/-- The count of every round is the number of its open slots. -/
def Counted (k : Core) : Prop :=
  ∀ key, k.pendingDisputeCount key = (openSlots d S k key).card

end

section Steps

variable {d : Deployment} {S : Finset Slot} {k : Core} {x slot : Slot}

lemma mem_openSlots : x ∈ openSlots d S k key ↔ x ∈ S ∧ roundDisputeKey d x.round = key
      ∧ (k.disputes (disputeKey d x)).status = .opened :=
  mem_filter

section

variable (hS : ApartKeys d S)

include hS

lemma disputes_update (hx : x ∈ S) (hslot : slot ∈ S) (dispute : Dispute) :
    (k.setDispute (disputeKey d slot) dispute).disputes (disputeKey d x)
      = if x = slot then dispute else k.disputes (disputeKey d x) := by
  simp only [Core.setDispute]
  by_cases heq : x = slot
  · rw [if_pos heq, heq, update_self]
  · rw [if_neg heq, update_of_ne fun hkey => heq (hS x hx slot hslot hkey)]

/-- A dispute that is open after a change is the changed one, or was open. -/
lemma opened_setDispute (hx : x ∈ S) (hslot : slot ∈ S)
    (h : ((k.setDispute (disputeKey d slot) dispute).disputes (disputeKey d x)).status = .opened) :
    (x = slot ∧ dispute.status = .opened) ∨ (k.disputes (disputeKey d x)).status = .opened := by
  rw [disputes_update hS hx hslot] at h
  by_cases heq : x = slot
  · rw [if_pos heq] at h
    exact .inl ⟨heq, h⟩
  · rw [if_neg heq] at h
    exact .inr h

lemma mem_openSlots_setDispute (hslot : slot ∈ S) :
    x ∈ openSlots d S (k.setDispute (disputeKey d slot) dispute) key ↔
      if x = slot then roundDisputeKey d slot.round = key ∧ dispute.status = .opened
      else x ∈ openSlots d S k key := by
  rw [mem_openSlots]
  by_cases heq : x = slot
  · subst heq
    rw [disputes_update hS hslot hslot]
    simp [hslot]
  · rw [if_neg heq, mem_openSlots]
    refine and_congr_right fun hx => ?_
    rw [disputes_update hS hx hslot, if_neg heq]

lemma openSlots_raise (hslot : slot ∈ S) (hopen : dispute.status = .opened) :
    openSlots d S (k.setDispute (disputeKey d slot) dispute) (roundDisputeKey d slot.round)
      = insert slot (openSlots d S k (roundDisputeKey d slot.round)) := by
  ext x
  rw [mem_openSlots_setDispute hS hslot]
  by_cases heq : x = slot <;> simp [heq, hopen]

lemma openSlots_close (hslot : slot ∈ S) (hclosed : dispute.status ≠ .opened) (key : Bytes32) :
    openSlots d S (k.setDispute (disputeKey d slot) dispute) key
      = (openSlots d S k key).erase slot := by
  ext x
  rw [mem_openSlots_setDispute hS hslot]
  by_cases heq : x = slot <;> simp [heq, hclosed]

lemma openSlots_other (hslot : slot ∈ S) (hkey : key ≠ roundDisputeKey d slot.round) :
    openSlots d S (k.setDispute (disputeKey d slot) dispute) key = openSlots d S k key := by
  ext x
  rw [mem_openSlots_setDispute hS hslot]
  by_cases heq : x = slot
  · simp [heq, mem_openSlots, hkey.symm]
  · rw [if_neg heq]

end

/-- Changing a dispute, with the count of its round. -/
lemma Counted.setDispute (h : Counted d S k) (hS : ApartKeys d S) (hslot : slot ∈ S)
    (hcount : n = (openSlots d S (k.setDispute (disputeKey d slot) dispute)
      (roundDisputeKey d slot.round)).card) :
    Counted d S ((k.setDispute (disputeKey d slot) dispute).setPending
      (roundDisputeKey d slot.round) n) := by
  intro key
  by_cases hkey : key = roundDisputeKey d slot.round
  · subst hkey
    simp only [Core.setPending, update_self]
    exact hcount
  · simp only [Core.setPending, update_of_ne hkey]
    calc k.pendingDisputeCount key = (openSlots d S k key).card := h key
      _ = _ := congrArg Finset.card (openSlots_other hS hslot hkey).symm

/-- Closing an open dispute takes it out of the count. -/
lemma Counted.close (h : Counted d S k) (hS : ApartKeys d S) (hslot : slot ∈ S)
    (hopen : (k.disputes (disputeKey d slot)).status = .opened)
    (hstatus : status ≠ .opened) : Counted d S (k.close d slot status) := by
  refine h.setDispute hS hslot ?_
  have hmem := mem_openSlots.mpr ⟨hslot, rfl, hopen⟩
  rw [openSlots_close hS hslot hstatus, card_erase_of_mem hmem, h]

/-- An open dispute is counted. -/
lemma Counted.pos (h : Counted d S k) (hslot : slot ∈ S)
    (hopen : (k.disputes (disputeKey d slot)).status = .opened) :
    0 < k.pendingDisputeCount (roundDisputeKey d slot.round) := by
  rw [h]
  exact card_pos.mpr ⟨slot, mem_openSlots.mpr ⟨hslot, rfl, hopen⟩⟩

/-- **Every act keeps the counts right.** -/
theorem Act.counted {tx : Tx} (hS : ApartKeys d S)
    (hdisputed : ∀ slot, tx.call.disputed tx.msg.sender = some slot → slot ∈ S)
    (hact : Act d tx k₀ k k') (h : Counted d S k) : Counted d S k' := by
  cases hact with
  | @raise slot dispute hcall hnone hround hopen =>
    have hslot := hdisputed slot hcall
    refine h.setDispute hS hslot ?_
    have hnotMem : slot ∉ openSlots d S k (roundDisputeKey d slot.round) := by
      intro hmem
      obtain ⟨-, -, hwas⟩ := mem_openSlots.mp hmem
      rw [hnone] at hwas
      cases hwas
    rw [openSlots_raise hS hslot hopen, card_insert_of_notMem hnotMem, h]
  | @respond slot hcall hopen => exact h.close hS (hdisputed slot hcall) hopen (by decide)
  | @expire slot hcall hopen hauth =>
    have hslot : slot ∈ S := hdisputed slot (by rw [hcall]; rfl)
    exact h.close hS hslot hopen (by decide)
  | _ => exact h

end Steps

/-! ## Runs -/

/-- The contracts right after deployment, with no call in progress. -/
def start (owner : Address) : Config World Error Tx := ⟨⟨World.init owner, []⟩, []⟩

lemma init_counted (d : Deployment) (S : Finset Slot) (owner : Address) :
    Counted d S (World.init owner).core := by
  intro key
  have hnone : openSlots d S (World.init owner).core key = ∅ := by
    refine filter_eq_empty_iff.mpr fun x _ => ?_
    rintro ⟨-, hopen⟩
    cases hopen
  rw [hnone]
  rfl

/-- A call that disputes nothing outside `S`. -/
def DisputesIn (S : Finset Slot) (tx : Tx) (_ : Point World Tx) : Prop :=
  ∀ slot, tx.call.disputed tx.msg.sender = some slot → slot ∈ S

instance (S : Finset Slot) (tx : Tx) (p : Point World Tx) : Decidable (DisputesIn S tx p) :=
  inferInstanceAs (Decidable (∀ slot ∈ tx.call.disputed tx.msg.sender, slot ∈ S))

lemma run_counted (hS : ApartKeys d S) (hr : Run (exec d) (DisputesIn S) (start owner) c) :
    Counted d S c.now.state.core := by
  refine Run.always (P := fun p => Counted d S p.state.core) ?_ hr rfl (init_counted d S owner)
  intro p tx hin h
  exact exec_keeps (fun hact => hact.counted hS hin) _ h

/-- The chunks of a round with an open dispute. -/
def openIndices (d : Deployment) (S : Finset Slot) (id : RoundId) (r : Resolver) : Finset Nat :=
  (S.filter fun x => x.round = id ∧ getDisputeStatus d x r = .opened).image Slot.localIndex

/-- The count of `id` is not used for another round. -/
def OwnCount (d : Deployment) (S : Finset Slot) (id : RoundId) : Prop :=
  ∀ x ∈ S, roundDisputeKey d x.round = roundDisputeKey d id → x.round = id

lemma card_openIndices {d : Deployment} {S : Finset Slot} {id : RoundId}
    (hid : OwnCount d S id) (w : World) :
    (openIndices d S id w.resolver).card
      = (openSlots d S w.core (roundDisputeKey d id)).card := by
  have hinj : ∀ x ∈ S.filter fun x => x.round = id ∧ getDisputeStatus d x w.resolver = .opened,
      ∀ y ∈ S.filter fun x => x.round = id ∧ getDisputeStatus d x w.resolver = .opened,
      x.localIndex = y.localIndex → x = y := by
    intro x hx y hy hindex
    obtain ⟨-, hx, -⟩ := mem_filter.mp hx
    obtain ⟨-, hy, -⟩ := mem_filter.mp hy
    obtain ⟨xround, xindex⟩ := x
    obtain ⟨yround, yindex⟩ := y
    obtain rfl : xround = id := hx
    obtain rfl : yround = xround := hy
    obtain rfl : xindex = yindex := hindex
    rfl
  rw [openIndices, card_image_of_injOn hinj]
  congr 1
  refine filter_congr fun x hx => and_congr_left fun _ => ?_
  constructor
  · rintro rfl
    rfl
  · exact hid x hx

/-- **The count of a round is the number of its open disputes**, in every
configuration of every run. Hence the resolver reports a pending dispute
exactly if there is one, and whenever a dispute can be closed there is
something to count down. -/
theorem pending_count (d : Deployment) (S : Finset Slot) (hS : ApartKeys d S) (owner : Address)
    (c : Config World Error Tx) (hr : Run (exec d) (DisputesIn S) (start owner) c)
    (id : RoundId) (hid : OwnCount d S id) :
    let r := c.now.state.resolver
    r.pendingDisputeCount (roundDisputeKey d id) = (openIndices d S id r).card
      ∧ (isDisputePending d id r = true
        ↔ ∃ x ∈ S, x.round = id ∧ getDisputeStatus d x r = .opened)
      ∧ ∀ x ∈ S, x.round = id → getDisputeStatus d x r = .opened →
        0 < r.pendingDisputeCount (roundDisputeKey d id) := by
  have hcounted := run_counted hS hr
  have hcount : c.now.state.resolver.pendingDisputeCount (roundDisputeKey d id)
      = (openIndices d S id c.now.state.resolver).card :=
    (hcounted _).trans (card_openIndices hid _).symm
  have hpos : ∀ x ∈ S, x.round = id → getDisputeStatus d x c.now.state.resolver = .opened →
      0 < c.now.state.resolver.pendingDisputeCount (roundDisputeKey d id) := by
    rintro x hx rfl hopen
    exact hcounted.pos hx hopen
  refine ⟨hcount, ?_, hpos⟩
  rw [isDisputePending, decide_eq_true_iff]
  constructor
  · intro hpending
    rw [hcount] at hpending
    obtain ⟨i, hi⟩ := card_pos.mp hpending
    obtain ⟨x, hx, -⟩ := mem_image.mp hi
    obtain ⟨hmem, hround, hopen⟩ := mem_filter.mp hx
    exact ⟨x, hmem, hround, hopen⟩
  · rintro ⟨x, hx, hround, hopen⟩
    exact hpos x hx hround hopen

/-! ## A sample deployment -/

def sample : Deployment where
  channel := 0xc4a
  registry := 0x4e6
  engine := 0xe60
  resolver := 0x4e5
  entropy :=
    { self := 0xe47, chainid := 1, keccak256 := fun bs => BitVec.ofNat 256 (beNat bs),
      ecrecover := fun _ _ _ _ => 0, blockHash := fun _ => 0 }

/-- The first ticket of round 3 between client 1 and provider 2. -/
def sampleSlot : Slot := ⟨⟨1, 2, 3⟩, 0⟩

def sampleTx (sender : Address) (number : Nat) (call : Call) : Tx :=
  { msg := ⟨sender, 0, 0, number⟩, call }

/-- The owner, account 9, installs the resolver and lets it slash. -/
def wiring : List Tx :=
  [sampleTx 9 90 (.setDisputeResolver 0x4e5), sampleTx 9 91 (.registry (.setSlasher 0x4e5 true))]

/-- The provider commits the round, the client disputes a chunk of it, and
the provider never answers but falls back to single tickets. -/
def lostDispute : List Tx :=
  [sampleTx 2 100 (.commitRoundSecret 1 3 10 5 77), sampleTx 1 110 (.raiseChunkDispute 2 3 0 88),
    sampleTx 2 3701 (.markRoundPartial 1 3), sampleTx 5 3702 (.resolveExpiredDispute 1 2 3 0)]

/-- Two chunks are disputed, and the provider answers for the first. -/
def twoDisputes : List Tx :=
  [sampleTx 2 100 (.commitRoundSecret 1 3 10 5 77), sampleTx 1 110 (.raiseChunkDispute 2 3 0 88),
    sampleTx 1 111 (.raiseChunkDispute 2 3 1 88), sampleTx 2 120 (.respondToDispute 1 3 0 [7] [] 7)]

set_option maxRecDepth 8192 in
theorem pending_count_two :
    let S : Finset Slot := {⟨⟨1, 2, 3⟩, 0⟩, ⟨⟨1, 2, 3⟩, 1⟩}
    ∃ c, Run (exec sample) (DisputesIn S) (start 9) c
      ∧ c.now.past.map (·.1.call) = (twoDisputes.map (·.call)).reverse
      ∧ c.now.state.resolver.pendingDisputeCount (roundDisputeKey sample ⟨1, 2, 3⟩) = 1
      ∧ (openIndices sample S ⟨1, 2, 3⟩ c.now.state.resolver).card = 1 := by
  intro S
  have hrun : Run (exec sample) (DisputesIn S) (start 9) _ := .of_accepted twoDisputes rfl
  have hapart : ApartKeys sample S := by unfold ApartKeys; decide
  have hown : OwnCount sample S ⟨1, 2, 3⟩ := by unfold OwnCount; decide
  obtain ⟨hcount, -, -⟩ := pending_count sample S hapart 9 _ hrun ⟨1, 2, 3⟩ hown
  exact ⟨_, hrun, rfl, rfl, hcount.symm⟩

end Cipher.Settlement
