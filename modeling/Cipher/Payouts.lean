import Cipher.DisputeCount

/-!
# Payouts of a round

A round pays out either once, for the ticket that was drawn, or in
fallback mode, for any number of tickets. The two ways keep separate
records of the tickets they have paid, so that no ticket is paid in both
is left to the status of the round, which is part of every ticket.

Three invariants of the acts are put together: `Priced` says where the
face value of a round comes from, `Booked` that the books of the channel
contract are the list of payouts, and `Paid` what the payouts have in
common with the present state of their rounds.
-/

namespace Cipher.Settlement

open Bytes Evm Raffle Function List

/-! ## The price of a round -/

/-- The write by which a round was committed. -/
def RoundWrite.Commits (x : RoundWrite) : Prop :=
  x.old.status = .uncommitted ∧ x.new.status = .opened

/-- An open round has been committed, and a round that has been committed
once keeps its face value. -/
structure Priced (k : Core) : Prop where
  once : ∀ x ∈ k.writes, x.Commits →
    (k.rounds x.key).status ≠ .uncommitted ∧ (k.rounds x.key).faceValue = x.new.faceValue
  opened : ∀ key, (k.rounds key).status = .opened → ∃ x ∈ k.writes, x.key = key ∧ x.Commits

section Steps

variable {d : Deployment} {tx : Tx} {k₀ k k' : Core}

lemma Priced.commit (h : Priced k) {round : Round}
    (hnew : (k.rounds key).status = .uncommitted) (hopen : round.status = .opened) :
    Priced (k.setRound key round) where
  once := by
    intro x hx hcommits
    simp only [Core.setRound]
    rcases mem_cons.mp hx with rfl | hx
    · rw [update_self, hopen]
      exact ⟨by decide, rfl⟩
    · -- A round that is still uncommitted has no earlier commit.
      obtain ⟨hcommitted, hface⟩ := h.once x hx hcommits
      have hne : x.key ≠ key := by
        rintro rfl
        exact hcommitted hnew
      rw [update_of_ne hne]
      exact ⟨hcommitted, hface⟩
  opened := by
    intro key' hopened
    by_cases hkey : key' = key
    · exact ⟨_, mem_cons_self .., hkey.symm, hnew, hopen⟩
    · simp only [Core.setRound, update_of_ne hkey] at hopened
      obtain ⟨x, hx, hcommits⟩ := h.opened key' hopened
      exact ⟨x, mem_cons_of_mem _ hx, hcommits⟩

lemma Priced.setStatus (h : Priced k)
    (hstatus : status ≠ .opened ∧ status ≠ .uncommitted) : Priced (k.setStatus key status) where
  once := by
    intro x hx hcommits
    simp only [Core.setStatus, Core.setRound]
    rcases mem_cons.mp hx with rfl | hx
    · exact absurd hcommits.2 hstatus.1
    · obtain ⟨hcommitted, hface⟩ := h.once x hx hcommits
      by_cases hkey : x.key = key
      · rw [hkey, update_self]
        exact ⟨hstatus.2, hkey ▸ hface⟩
      · rw [update_of_ne hkey]
        exact ⟨hcommitted, hface⟩
  opened := by
    intro key' hopened
    simp only [Core.setStatus, Core.setRound] at hopened
    by_cases hkey : key' = key
    · rw [hkey, update_self] at hopened
      exact absurd hopened hstatus.1
    · rw [update_of_ne hkey] at hopened
      obtain ⟨x, hx, hcommits⟩ := h.opened key' hopened
      exact ⟨x, mem_cons_of_mem _ hx, hcommits⟩

lemma Act.priced (hact : Act d tx k₀ k k') (h : Priced k) : Priced k' := by
  cases hact with
  | commit hcall hparams hnew => exact h.commit hnew rfl
  | @settle _ ticket _ _ _ _ _ =>
    have hsettled : Priced (k.setStatus (roundKey d (ticketRound ticket)) .settled) :=
      h.setStatus (by decide)
    exact ⟨hsettled.once, hsettled.opened⟩
  | mark | void => exact h.setStatus (by decide)
  | @expire slot _ _ _ =>
    have hclosed : Priced (k₀.close d slot .resolvedSlashed) := ⟨h.once, h.opened⟩
    exact hclosed.setStatus (by decide)
  | install | claim | raise | respond | channel => exact ⟨h.once, h.opened⟩

/-! ## The books -/

/-- What the payouts of a channel add up to. -/
def paidTo (d : Deployment) (payouts : List Payout) (key : Bytes32) : Nat :=
  (payouts.map fun p =>
    if getChannelKey d p.ticket.sender p.ticket.recipient = key then p.ticket.faceValue else 0).sum

lemma paidTo_cons (p : Payout) (payouts : List Payout) (key : Bytes32) :
    paidTo d (p :: payouts) key = paidTo d payouts key
      + if getChannelKey d p.ticket.sender p.ticket.recipient = key then p.ticket.faceValue
        else 0 := by
  rw [paidTo, Nat.add_comm]
  rfl

/-- The engine is the only payout engine, and the channels have paid what
it ordered. -/
structure Booked (d : Deployment) (owner : Address) (k : Core) : Prop where
  owner_eq : k.books.owner = owner
  engines : ∀ a, k.books.engines a = true → a = d.engine
  settled : ∀ key, k.books.settled key = paidTo d k.payouts key

/-- The calls of a run in which the engine at `d.engine` is the only one the
owner authorises. Being a contract, it does not send transactions; `T`
holds the tickets that are presented. -/
structure SoleEngine (d : Deployment) (T : Set RoundTicket) (owner : Address) (tx : Tx)
    (_ : Point World Tx) : Prop where
  outside : tx.msg.sender ≠ d.engine
  authorize : ∀ engine, tx.call = .channel (.setPayoutEngine engine true) →
    tx.msg.sender = owner → engine = d.engine
  settled : ∀ ticket ∈ tx.call.tickets, ticket ∈ T
  claimed : ∀ ticket, tx.call.claimed = some ticket → ticket ∈ T

lemma Booked.pay (h : Booked d owner k) (mode : Mode)
    (ticket : RoundTicket) : Booked d owner (k.pay d mode ticket) where
  owner_eq := h.owner_eq
  engines := h.engines
  settled := by
    intro key
    simp only [Core.pay, PaymentChannel.Books.pay, paidTo_cons]
    by_cases hkey : getChannelKey d ticket.sender ticket.recipient = key
    · rw [hkey, update_self, if_pos rfl, h.settled]
    · rw [update_of_ne (Ne.symm hkey), if_neg hkey, Nat.add_zero, h.settled]

lemma Act.booked
    (hadm : SoleEngine d T owner tx p) (hact : Act d tx k₀ k k') (h : Booked d owner k) :
    Booked d owner k' := by
  cases hact with
  | settle =>
    refine Booked.pay ?_ ..
    exact ⟨h.owner_eq, h.engines, h.settled⟩
  | claim =>
    refine Booked.pay ?_ ..
    exact ⟨h.owner_eq, h.engines, h.settled⟩
  | @channel _ c books hcall hbooking =>
    cases hbooking with
    | same => exact h
    | @authorize engine authorized hset hauth =>
      refine ⟨h.owner_eq, fun a ha => ?_, h.settled⟩
      by_cases heq : a = engine
      · subst heq
        simp only [update_self] at ha
        subst ha hset
        exact hadm.authorize a hcall (hauth.trans h.owner_eq)
      · simp only [update_of_ne heq] at ha
        exact h.engines a ha
    | payout _ hauth => exact absurd (h.engines _ hauth) hadm.outside
  | _ => exact ⟨h.owner_eq, h.engines, h.settled⟩

/-! ## Payouts and rounds -/

/-- The key of the round that a payout was for. -/
def Payout.key (d : Deployment) (p : Payout) : Bytes32 := roundKey d (ticketRound p.ticket)

/-- The statuses of a round that has paid in the given mode. -/
def Mode.After : Mode → RoundStatus → Prop
  | .normal, status => status = .settled ∨ status = .voided
  | .fallback, status => status = .partialFallback ∨ status = .voided

lemma Mode.After.not_fresh {mode : Mode} (h : mode.After status) :
    status ≠ .uncommitted ∧ status ≠ .opened := by
  cases mode with
  | normal => rcases h with rfl | rfl <;> decide
  | fallback => rcases h with rfl | rfl <;> decide

lemma Mode.After.voided (mode : Mode) : mode.After .voided := by
  cases mode with
  | normal => exact .inr rfl
  | fallback => exact .inr rfl

/-- Only fallback payouts share a round. -/
def Exclusive (d : Deployment) (p q : Payout) : Prop :=
  p.key d = q.key d → p.mode = .fallback ∧ q.mode = .fallback

structure Paid (d : Deployment) (T : Set RoundTicket) (k : Core) : Prop where
  tickets : ∀ p ∈ k.payouts, p.ticket ∈ T
  status : ∀ p ∈ k.payouts, p.mode.After (k.rounds (p.key d)).status
  used : ∀ p ∈ k.payouts, p.mode = .fallback →
    k.usedFallbackTickets (roundTicketHash d.entropy p.ticket) = true
  committed : ∀ p ∈ k.payouts, p.mode = .normal →
    ∃ x ∈ k.writes, x.key = p.key d ∧ x.Commits ∧ x.new.faceValue = p.ticket.faceValue
  exclusive : k.payouts.Pairwise (Exclusive d)
  nodup : (k.payouts.map fun p => roundTicketHash d.entropy p.ticket).Nodup

variable {T : Set RoundTicket}

/-- A round that is new or open has paid nothing. -/
lemma Paid.unpaid (h : Paid d T k)
    (hfresh : (k.rounds key).status = .uncommitted ∨ (k.rounds key).status = .opened) :
    ∀ p ∈ k.payouts, p.key d ≠ key := by
  rintro p hp rfl
  obtain ⟨hnew, hopen⟩ := (h.status p hp).not_fresh
  exact hfresh.elim hnew hopen

/-- Writing a round keeps the invariant if the round has paid nothing, or
becomes void. -/
lemma Paid.setRound (h : Paid d T k) {round : Round}
    (hkey : (∀ p ∈ k.payouts, p.key d ≠ key) ∨ round.status = .voided) :
    Paid d T (k.setRound key round) where
  tickets := h.tickets
  status := by
    intro p hp
    simp only [Core.setRound]
    by_cases heq : p.key d = key
    · rw [heq, update_self, hkey.resolve_left fun hne => hne p hp heq]
      exact .voided p.mode
    · rw [update_of_ne heq]
      exact h.status p hp
  used := h.used
  committed := by
    intro p hp hmode
    obtain ⟨x, hx, hcommits⟩ := h.committed p hp hmode
    exact ⟨x, mem_cons_of_mem _ hx, hcommits⟩
  exclusive := h.exclusive
  nodup := h.nodup

/-- One more payout. -/
lemma Paid.pay (h : Paid d T k) {mode : Mode} (hticket : ticket ∈ T)
    (hstatus : mode.After (k.rounds (roundKey d (ticketRound ticket))).status)
    (hused : mode = .fallback → k.usedFallbackTickets (roundTicketHash d.entropy ticket) = true)
    (hcommitted : mode = .normal → ∃ x ∈ k.writes, x.key = roundKey d (ticketRound ticket)
      ∧ x.Commits ∧ x.new.faceValue = ticket.faceValue)
    (hexclusive : ∀ p ∈ k.payouts, roundKey d (ticketRound ticket) = p.key d →
      mode = .fallback ∧ p.mode = .fallback)
    (hnew : ∀ p ∈ k.payouts,
      roundTicketHash d.entropy p.ticket ≠ roundTicketHash d.entropy ticket) :
    Paid d T (k.pay d mode ticket) where
  tickets := forall_mem_cons.mpr ⟨hticket, h.tickets⟩
  status := forall_mem_cons.mpr ⟨hstatus, h.status⟩
  used := forall_mem_cons.mpr ⟨hused, h.used⟩
  committed := forall_mem_cons.mpr ⟨hcommitted, h.committed⟩
  exclusive := pairwise_cons.mpr ⟨hexclusive, h.exclusive⟩
  nodup := by
    refine nodup_cons.mpr ⟨fun hmem => ?_, h.nodup⟩
    obtain ⟨p, hp, heq⟩ := mem_map.mp hmem
    exact hnew p hp heq

/-- A payout with the same hash was for the same ticket, hence for the same
round. -/
lemma Paid.key_of_hash (h : Paid d T k) (hT : Set.InjOn (roundTicketHash d.entropy) T)
    (hticket : ticket ∈ T) (hp : p ∈ k.payouts)
    (hhash : roundTicketHash d.entropy p.ticket = roundTicketHash d.entropy ticket) :
    p.key d = roundKey d (ticketRound ticket) := by
  rw [Payout.key, hT (h.tickets p hp) hticket hhash]

/-- Marking a ticket as used. -/
lemma Paid.useFallbackTicket (h : Paid d T k) (hash : Bytes32) :
    Paid d T (k.useFallbackTicket hash) where
  tickets := h.tickets
  status := h.status
  used := by
    intro p hp hmode
    simp only [Core.useFallbackTicket]
    by_cases heq : roundTicketHash d.entropy p.ticket = hash
    · rw [heq, update_self]
    · rw [update_of_ne heq]
      exact h.used p hp hmode
  committed := h.committed
  exclusive := h.exclusive
  nodup := h.nodup

/-- **Every act keeps payouts apart.** -/
theorem Act.paid (hT : Set.InjOn (roundTicketHash d.entropy) T) (hadm : SoleEngine d T owner tx p)
    (hact : Act d tx k₀ k k') (hpriced : Priced k) (h : Paid d T k) : Paid d T k' := by
  cases hact with
  | commit hcall hparams hnew => exact h.setRound (.inl (h.unpaid (.inl hnew)))
  | @settle _ ticket hmem hopen hpending hface hunused =>
    have hticket := hadm.settled ticket hmem
    have hunpaid := h.unpaid (.inr hopen)
    have hsettled : Paid d T ((k.setStatus (roundKey d (ticketRound ticket)) .settled).useTicket
        (roundTicketHash d.entropy ticket)) := { h.setRound (.inl hunpaid) with }
    obtain ⟨x, hx, hkey, hcommits⟩ := hpriced.opened _ hopen
    refine hsettled.pay hticket (.inl ?_) (fun hmode => by cases hmode) (fun _ => ?_) ?_ ?_
    · simp only [Core.useTicket, Core.setStatus, Core.setRound, update_self]
    · have hprice := (hpriced.once x hx hcommits).2
      rw [hkey] at hprice
      exact ⟨x, mem_cons_of_mem _ hx, hkey, hcommits, hprice.symm.trans hface.symm⟩
    · exact fun q hq heq => absurd heq.symm (hunpaid q hq)
    · exact fun q hq hhash => hunpaid q hq (h.key_of_hash hT hticket hq hhash)
  | @claim _ ticket hcall hfallback hunused =>
    have hticket := hadm.claimed ticket hcall
    -- A round in fallback mode has not paid normally.
    have hmode : ∀ q ∈ k.payouts, q.key d = roundKey d (ticketRound ticket) →
        q.mode = .fallback := by
      intro q hq hkey
      have hafter := h.status q hq
      rw [hkey, hfallback] at hafter
      cases hm : q.mode with
      | normal =>
        rw [hm] at hafter
        rcases hafter with hs | hs <;> cases hs
      | fallback => rfl
    refine (h.useFallbackTicket _).pay hticket (.inl hfallback) (fun _ => ?_)
      (fun hnormal => by cases hnormal) ?_ ?_
    · simp only [Core.useFallbackTicket, update_self]
    · exact fun q hq hkey => ⟨rfl, hmode q hq hkey.symm⟩
    · intro q hq hhash
      have hwas := h.used q hq (hmode q hq (h.key_of_hash hT hticket hq hhash))
      rw [hhash, hunused] at hwas
      cases hwas
  | mark hcall hopen => exact h.setRound (.inl (h.unpaid (.inr hopen)))
  | void => exact h.setRound (.inr rfl)
  | @expire slot hcall hopen hauth =>
    have hclosed : Paid d T (k₀.close d slot .resolvedSlashed) := { h with }
    exact hclosed.setRound (.inr rfl)
  | install | raise | respond | channel => exact { h with }

end Steps

/-! ## Runs -/

lemma run_payouts {d : Deployment} (hT : Set.InjOn (roundTicketHash d.entropy) T)
    (hr : Run (exec d) (SoleEngine d T owner) (start owner) c) :
    Priced c.now.state.core ∧ Booked d owner c.now.state.core ∧ Paid d T c.now.state.core := by
  refine Run.always (P := fun p =>
    Priced p.state.core ∧ Booked d owner p.state.core ∧ Paid d T p.state.core) ?_ hr rfl ?_
  · intro p tx hadm h
    refine exec_keeps (I := fun k => Priced k ∧ Booked d owner k ∧ Paid d T k) ?_ _ h
    rintro k k' hact ⟨hpriced, hbooked, hpaid⟩
    exact ⟨hact.priced hpriced, hact.booked hadm hbooked, hact.paid hT hadm hpriced hpaid⟩
  · refine ⟨⟨?_, ?_⟩, ⟨rfl, ?_, fun _ => rfl⟩, ?_⟩
    · intro x hx
      cases hx
    · intro key hopened
      cases hopened
    · intro a ha
      cases ha
    · constructor
      case exclusive => exact .nil
      case nodup => exact .nil
      all_goals
        intro p hp
        cases hp

/-- **Exclusive payouts.** Let ticket hashes not collide, and let the engine
be the channels' only payout engine. Then in every configuration of every
run the channels have paid exactly the engine's payouts, a normal payout
is of the face value that the round was committed with, rounds with a
normal payout have no other, and no ticket has been paid twice. -/
theorem payouts_exclusive (d : Deployment) (T : Set RoundTicket)
    (hT : Set.InjOn (roundTicketHash d.entropy) T) (owner : Address) (c : Config World Error Tx)
    (hr : Run (exec d) (SoleEngine d T owner) (start owner) c) :
    let w := c.now.state
    (∀ key, (w.channel.channels key).settledAmount = paidTo d w.engine.payouts key)
      ∧ (∀ p ∈ w.engine.payouts, p.mode = .normal →
        p.ticket.faceValue = (w.engine.rounds (p.key d)).faceValue
          ∧ ∃ x ∈ w.engine.writes, x.key = p.key d ∧ x.Commits
            ∧ x.new.faceValue = p.ticket.faceValue)
      ∧ w.engine.payouts.Pairwise (Exclusive d)
      ∧ (w.engine.payouts.map fun p => roundTicketHash d.entropy p.ticket).Nodup := by
  obtain ⟨hpriced, hbooked, hpaid⟩ := run_payouts hT hr
  refine ⟨hbooked.settled, fun p hp hmode => ?_, hpaid.exclusive, hpaid.nodup⟩
  obtain ⟨x, hx, hkey, hcommits, hface⟩ := hpaid.committed p hp hmode
  obtain ⟨-, hprice⟩ := hpriced.once x hx hcommits
  rw [hkey, hface] at hprice
  exact ⟨hprice.symm, x, hx, hkey, hcommits, hface⟩

/-! ## A sample of both modes -/

/-- All signatures are the client's, and every recent block has a hash. -/
def drawSample : Deployment :=
  { sample with
    entropy := { sample.entropy with ecrecover := fun _ _ _ _ => 1, blockHash := fun _ => 1 } }

def sampleSig : List UInt8 := List.replicate 65 0

/-- The ticket that round 3 draws, and one of round 4. -/
def drawnTicket : RoundTicket := ⟨1, 2, 3, 3, 5, 100, 0⟩

def oddsTicket : RoundTicket := ⟨1, 2, 4, 0, 5, 100, 1⟩

/-- The owner authorises the engine, and the client funds a channel. -/
def funding : List Tx :=
  [sampleTx 9 90 (.channel (.setPayoutEngine 0xe60 true)),
    { msg := ⟨1, 20, 0, 95⟩, call := .channel (.openChannel 2) }]

/-- Round 3 is settled, and round 4 falls back when the client leaves. -/
def bothModes : List Tx :=
  [sampleTx 2 100 (.commitRoundSecret 1 3 10 5 77), sampleTx 2 101 (.commitRoundSecret 1 4 10 5 77),
    sampleTx 2 120 (.settleRound drawnTicket sampleSig 77),
    sampleTx 1 121 (.channel (.initiateChannelUnlock 2)), sampleTx 2 122 (.markRoundPartial 1 4),
    sampleTx 2 123 (.claimFallbackTicket oddsTicket sampleSig 77)]

/-- The hash of the sample deployment keeps the last word of its input. -/
lemma keccak256_drawSample (bs : List UInt8) (n : Nat) :
    drawSample.entropy.keccak256 (bs ++ word n) = BitVec.ofNat 256 n := by
  apply BitVec.eq_of_toNat_eq
  show (BitVec.ofNat 256 (beNat (bs ++ beBytes 32 n))).toNat = _
  rw [beNat_append, beNat_beBytes, length_beBytes, BitVec.toNat_ofNat, BitVec.toNat_ofNat,
    show (256 : Nat) ^ 32 = 2 ^ 256 by norm_num, Nat.mul_add_mod_self_right, Nat.mod_mod]

lemma roundTicketHash_drawSample (ticket : RoundTicket) :
    roundTicketHash drawSample.entropy ticket = BitVec.ofNat 256 ticket.senderNonce := by
  rw [roundTicketHash, hashTypedData, typedDataBytes, keccak256_drawSample, BitVec.ofNat_toNat]
  simp only [roundTicketBytes, abiEncode, flatMap_cons, flatMap_nil, append_nil]
  simp only [← append_assoc]
  exact keccak256_drawSample _ _

lemma bothModes_soleEngine (tx : Tx) (htx : tx ∈ funding ++ bothModes) (p : Point World Tx) :
    SoleEngine drawSample {drawnTicket, oddsTicket} 9 tx p := by
  have houtside : ∀ tx ∈ funding ++ bothModes, tx.msg.sender ≠ drawSample.engine := by decide
  have hdrawn : ∀ tx ∈ funding ++ bothModes, ∀ t ∈ tx.call.tickets, t = drawnTicket := by decide
  have hodds : ∀ tx ∈ funding ++ bothModes, ∀ t ∈ tx.call.claimed, t = oddsTicket := by decide
  have hengine : ∀ tx ∈ funding ++ bothModes, ∀ engine,
      tx.call = .channel (.setPayoutEngine engine true) → engine = drawSample.engine := by
    simp [funding, bothModes, sampleTx, drawSample, sample]
  exact ⟨houtside tx htx, fun engine hcall _ => hengine tx htx engine hcall,
    fun t ht => .inl (hdrawn tx htx t ht), fun t ht => .inr (hodds tx htx t ht)⟩

set_option maxRecDepth 8192 in
theorem payouts_exclusive_bothModes :
    ∃ c, Run (exec drawSample) (SoleEngine drawSample {drawnTicket, oddsTicket} 9) (start 9) c
      ∧ c.now.past.map (·.1.call) = ((funding ++ bothModes).map (·.call)).reverse
      ∧ c.now.state.engine.payouts.map (fun p => (p.mode, p.ticket))
        = [(.fallback, oddsTicket), (.normal, drawnTicket)]
      ∧ c.now.state.engine.payouts.Pairwise (Exclusive drawSample) := by
  have hcalls : Calls (exec drawSample) (fun _ _ => True) ⟨World.init 9, []⟩
      (funding ++ bothModes) _ :=
    calls_of_accepted rfl
  have hrun := (hcalls.restrict bothModes_soleEngine).run []
  have hT : Set.InjOn (roundTicketHash drawSample.entropy) {drawnTicket, oddsTicket} := by
    rintro t (rfl | rfl) u (rfl | rfl) hhash
    · rfl
    · simp [roundTicketHash_drawSample, drawnTicket, oddsTicket] at hhash
    · simp [roundTicketHash_drawSample, drawnTicket, oddsTicket] at hhash
    · rfl
  obtain ⟨-, -, hexclusive, -⟩ := payouts_exclusive drawSample _ hT 9 _ hrun
  exact ⟨_, hrun, rfl, rfl, hexclusive⟩

end Cipher.Settlement
