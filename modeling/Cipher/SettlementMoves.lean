import Cipher.ChannelBooks
import Cipher.SettlementChecks

/-!
# What a call can do to rounds and disputes

The lifecycle of a round is decided by a few components of the state, the
`Core`. `Act` lists the changes a transaction can make to them, each with
the checks that went before it, and `Code` how the code of a transaction is
put together from them, from payouts and from calls of the other contracts.
Every stretch of code between two hand-overs is a sequence of acts
(`exec_own`), so invariants over rounds and disputes are proved about `Act`
alone.
-/

namespace Cipher.Settlement

open Evm Raffle Function List

/-! ## The core -/

structure Core where
  rounds : Bytes32 → Round
  writes : List RoundWrite
  disputeResolver : Address
  owner : Address
  disputes : Bytes32 → Dispute
  pendingDisputeCount : Bytes32 → Nat
  usedTickets : Bytes32 → Bool
  usedFallbackTickets : Bytes32 → Bool
  payouts : List Payout
  books : PaymentChannel.Books

def World.core (w : World) : Core :=
  ⟨w.engine.rounds, w.engine.writes, w.engine.disputeResolver, w.engine.owner,
    w.resolver.disputes, w.resolver.pendingDisputeCount, w.engine.usedTickets,
    w.engine.usedFallbackTickets, w.engine.payouts, w.channel.books⟩

namespace Core

section

variable (k : Core) (key : Bytes32)

def setRound (round : Round) : Core :=
  { k with
    rounds := update k.rounds key round
    writes := ⟨key, k.rounds key, round⟩ :: k.writes }

def setStatus (status : RoundStatus) : Core :=
  k.setRound key { k.rounds key with status }

def setDispute (dispute : Dispute) : Core :=
  { k with disputes := update k.disputes key dispute }

def setPending (n : Nat) : Core :=
  { k with pendingDisputeCount := update k.pendingDisputeCount key n }

end

def useTicket (k : Core) (hash : Bytes32) : Core :=
  { k with usedTickets := update k.usedTickets hash true }

def useFallbackTicket (k : Core) (hash : Bytes32) : Core :=
  { k with usedFallbackTickets := update k.usedFallbackTickets hash true }

/-- A payout is put on record and booked in its channel. -/
def pay (k : Core) (d : Deployment) (mode : Mode) (ticket : RoundTicket) : Core :=
  { k with
    payouts := ⟨mode, ticket, k.disputes⟩ :: k.payouts
    books := k.books.pay (getChannelKey d ticket.sender ticket.recipient) ticket.faceValue }

/-- A dispute ends: it gets its final status and is no longer counted. -/
def close (k : Core) (d : Deployment) (slot : Slot) (status : DisputeStatus) : Core :=
  (k.setDispute (disputeKey d slot) { k.disputes (disputeKey d slot) with status }).setPending
    (roundDisputeKey d slot.round) (k.pendingDisputeCount (roundDisputeKey d slot.round) - 1)

end Core

lemma core_release (d : Deployment) (slot : Slot) (status : DisputeStatus) (w : World) :
    World.core { w with
      resolver := (w.resolver.setDispute (disputeKey d slot)
        { w.resolver.disputes (disputeKey d slot) with status }).release
        (roundDisputeKey d slot.round) }
      = w.core.close d slot status := by
  unfold Resolver.release
  split
  · rfl
  · rename_i hzero
    have hcount : w.resolver.pendingDisputeCount (roundDisputeKey d slot.round) = 0 := by
      simpa [Resolver.setDispute] using hzero
    simp only [World.core, Core.close, Core.setPending, Core.setDispute, Resolver.setDispute,
      hcount, Core.mk.injEq, true_and]
    rw [Nat.sub_eq_zero_of_le (by omega), ← hcount, update_eq_self]
    exact ⟨rfl, trivial⟩

/-! ## Slots and acts -/

def ticketSlot (ticket : RoundTicket) : Slot := ⟨ticketRound ticket, ticket.localIndex⟩

/-- The tickets a call wants to settle. -/
def Call.tickets : Call → List RoundTicket
  | .settleRound ticket _ _ => [ticket]
  | .settleRoundBatch tickets _ _ => tickets
  | _ => []

/-- The ticket a call claims in fallback mode. -/
def Call.claimed : Call → Option RoundTicket
  | .claimFallbackTicket ticket _ _ => some ticket
  | _ => none

/-- The slot of a call to the dispute resolver. -/
def Call.disputed (sender : Address) : Call → Option Slot
  | .raiseChunkDispute recipient roundId localIndex _ =>
    some ⟨⟨sender, recipient, roundId⟩, localIndex⟩
  | .respondToDispute client roundId localIndex _ _ _ =>
    some ⟨⟨client, sender, roundId⟩, localIndex⟩
  | .resolveExpiredDispute client recipient roundId localIndex =>
    some ⟨⟨client, recipient, roundId⟩, localIndex⟩
  | _ => none

def Call.IsCommit (c : Call) : Prop :=
  ∃ sender roundId tau faceValue hash, c = .commitRoundSecret sender roundId tau faceValue hash

def Call.IsVoid (c : Call) : Prop :=
  ∃ sender recipient roundId reason, c = .voidRound sender recipient roundId reason

instance (c : Call) : Decidable c.IsCommit := by
  cases c
  case commitRoundSecret => exact isTrue ⟨_, _, _, _, _, rfl⟩
  all_goals exact isFalse fun ⟨_, _, _, _, _, h⟩ => by cases h

instance (c : Call) : Decidable c.IsVoid := by
  cases c
  case voidRound => exact isTrue ⟨_, _, _, _, rfl⟩
  all_goals exact isFalse fun ⟨_, _, _, _, h⟩ => by cases h

/-- The round a provider marks as partial. -/
def Call.marked (sender : Address) : Call → Option RoundId
  | .markRoundPartial client roundId => some ⟨client, sender, roundId⟩
  | _ => none

/-- One change of the core by a transaction that was made when the core was
`k₀`. Settlements and claims may come later, after the payees of earlier
tickets have had control; everything else happens at once. -/
inductive Act (d : Deployment) (tx : Tx) (k₀ : Core) : Core → Core → Prop where
  | install (hcall : tx.call = .setDisputeResolver disputeResolver)
      (hauth : tx.msg.sender = k₀.owner) : Act d tx k₀ k₀ { k₀ with disputeResolver }
  | commit {hash : Bytes32} (hcall : tx.call = .commitRoundSecret sender roundId tau faceValue hash)
      (hparams : tau ≠ 0 ∧ tau ≤ maxRoundSize ∧ faceValue ≠ 0)
      (hnew : (k₀.rounds (roundKey d ⟨sender, tx.msg.sender, roundId⟩)).status = .uncommitted) :
      Act d tx k₀ k₀ (k₀.setRound (roundKey d ⟨sender, tx.msg.sender, roundId⟩)
        ⟨tau, faceValue, hash, tx.msg.number, .opened⟩)
  | settle {ticket : RoundTicket} (hmem : ticket ∈ tx.call.tickets)
      (hopen : (k.rounds (roundKey d (ticketRound ticket))).status = .opened)
      (hpending : k.disputeResolver ≠ 0 → k.disputeResolver = d.resolver →
        k.pendingDisputeCount (roundDisputeKey d (ticketRound ticket)) = 0)
      (hface : ticket.faceValue = (k.rounds (roundKey d (ticketRound ticket))).faceValue)
      (hunused : k.usedTickets (roundTicketHash d.entropy ticket) = false) : Act d tx k₀ k
        (((k.setStatus (roundKey d (ticketRound ticket)) .settled).useTicket
          (roundTicketHash d.entropy ticket)).pay d .normal ticket)
  | claim {ticket : RoundTicket} (hcall : tx.call.claimed = some ticket)
      (hfallback : (k.rounds (roundKey d (ticketRound ticket))).status = .partialFallback)
      (hunused : k.usedFallbackTickets (roundTicketHash d.entropy ticket) = false) : Act d tx k₀ k
        ((k.useFallbackTicket (roundTicketHash d.entropy ticket)).pay d .fallback
          ticket)
  | mark {id : RoundId} (hcall : tx.call.marked tx.msg.sender = some id)
      (hopen : (k₀.rounds (roundKey d id)).status = .opened) :
      Act d tx k₀ k₀ (k₀.setStatus (roundKey d id) .partialFallback)
  | void {id : RoundId} {reason : Bytes32}
      (hcall : tx.call = .voidRound id.sender id.recipient id.roundId reason)
      (hauth : k₀.disputeResolver ≠ 0 → tx.msg.sender = k₀.disputeResolver) :
      Act d tx k₀ k₀ (k₀.setStatus (roundKey d id) .voided)
  | raise (hcall : tx.call.disputed tx.msg.sender = some slot)
      (hnone : (k₀.disputes (disputeKey d slot)).status = .none)
      (hround : (k₀.rounds (roundKey d slot.round)).status = .opened)
      (hopen : dispute.status = .opened) :
      Act d tx k₀ k₀ ((k₀.setDispute (disputeKey d slot) dispute).setPending
        (roundDisputeKey d slot.round) (k₀.pendingDisputeCount (roundDisputeKey d slot.round) + 1))
  | respond (hcall : tx.call.disputed tx.msg.sender = some slot)
      (hopen : (k₀.disputes (disputeKey d slot)).status = .opened) :
      Act d tx k₀ k₀ (k₀.close d slot .resolvedHonest)
  | expire (hcall : tx.call = .resolveExpiredDispute slot.round.sender slot.round.recipient
        slot.round.roundId slot.localIndex)
      (hopen : (k₀.disputes (disputeKey d slot)).status = .opened)
      (hauth : k₀.disputeResolver ≠ 0 → d.resolver = k₀.disputeResolver) : Act d tx k₀ k₀
        ((k₀.close d slot .resolvedSlashed).setStatus (roundKey d slot.round) .voided)
  | channel {c : PaymentChannel.Call} {books : PaymentChannel.Books} (hcall : tx.call = .channel c)
      (hbooking : PaymentChannel.Booking d.channels ⟨tx.msg, c⟩ k.books books) :
      Act d tx k₀ k { k with books }

/-- A sequence of acts, between two worlds. -/
def Acts (d : Deployment) (tx : Tx) (k₀ : Core) (w w' : World) : Prop :=
  Relation.ReflTransGen (Act d tx k₀) w.core w'.core

/-- What else the engine knows of a ticket that it pays when the core is `k`.
A claim is paid at once, or not at all. -/
def Due (d : Deployment) (tx : Tx) (k₀ k : Core) (ticket : RoundTicket) : Mode → Prop
  | .normal => ticket.localIndex < (k.rounds (roundKey d (ticketRound ticket))).tau
  | .fallback => k.rounds = k₀.rounds ∧ ∃ senderSig secret,
      tx.call = .claimFallbackTicket ticket senderSig secret ∧
      recoverSigner d.entropy (roundTicketHash d.entropy ticket) senderSig = .ok ticket.sender

/-- An act that pays only what is due. -/
structure Deed (d : Deployment) (tx : Tx) (k₀ k k' : Core) : Prop where
  act : Act d tx k₀ k k'
  due : ∀ mode ticket, k'.payouts = ⟨mode, ticket, k.disputes⟩ :: k.payouts →
    Due d tx k₀ k ticket mode

def Deeds (d : Deployment) (tx : Tx) (k₀ : Core) (w w' : World) : Prop :=
  Relation.ReflTransGen (Deed d tx k₀) w.core w'.core

/-! ## The code as acts -/

section Own

variable {d : Deployment} {tx : Tx} {k₀ : Core} {w : World}

lemma Deeds.trans (a b c : World) (hab : Deeds d tx k₀ a b) (hbc : Deeds d tx k₀ b c) :
    Deeds d tx k₀ a c :=
  Relation.ReflTransGen.trans hab hbc

lemma Deeds.frame {w' : World} (h : w'.core = w.core) : Deeds d tx k₀ w w' := by
  unfold Deeds
  rw [h]

lemma Deeds.single {w' : World} (hdeed : Deed d tx k₀ w.core k) (h : w'.core = k) :
    Deeds d tx k₀ w w' := by
  unfold Deeds
  rw [h]
  exact .single hdeed

/-- An act that pays nothing. -/
lemma Act.deed (hact : Act d tx k₀ k k') (hpayouts : k'.payouts = k.payouts) : Deed d tx k₀ k k' :=
  ⟨hact, fun _ _ hpaid => absurd (hpaid.symm.trans hpayouts) (cons_ne_self _ _)⟩

/-- Writes that concern neither the channel contract nor the engine's lock
and its payouts. -/
structure Quiet (d : Deployment) (tx : Tx) (k₀ : Core) (w w' : World) : Prop where
  deeds : Deeds d tx k₀ w w'
  channel : w'.channel = w.channel
  locked : w'.engine.locked = w.engine.locked
  payouts : w'.engine.payouts = w.engine.payouts

/-- The code of a transaction that was made when the core was `k₀`, or a part
of it that gets control in a given state. -/
inductive Code (d : Deployment) (tx : Tx) (k₀ : Core) : World → Prog World Error → Prop where
  | revert {w : World} (e : Error) : Code d tx k₀ w (.revert e)
  | writes {w w' : World} (h : Quiet d tx k₀ w w') : Code d tx k₀ w (.done w')
  | channel (w : World) {c : PaymentChannel.Call} (hcall : tx.call = .channel c) :
      Code d tx k₀ w ((PaymentChannel.exec d.channels ⟨tx.msg, c⟩ w.channel).embed World.channel
        (fun w channel => { w with channel }) .channel w)
  | registry (w : World) (prog : Prog ProviderRegistry.World ProviderRegistry.Error) :
      Code d tx k₀ w
        (prog.embed World.registry (fun w registry => { w with registry }) .registry w)
  | payout {w w' : World} {mode : Mode} {ticket : RoundTicket}
      (hact : Act d tx k₀ w.core (w'.core.pay d mode ticket)) (hchannel : w'.channel = w.channel)
      (hlocked : w'.engine.locked = w.engine.locked)
      (hpayouts : w'.engine.payouts = w.engine.payouts) (hdue : Due d tx k₀ w.core ticket mode) :
      Code d tx k₀ w (payoutProvider d tx.msg mode ticket w')
  | bind {w : World} {prog : Prog World Error} {k : World → Prog World Error}
      (h : Code d tx k₀ w prog) (hk : ∀ w, Code d tx k₀ w (k w)) : Code d tx k₀ w (prog.bind k)
  | locked {w : World} {body : Prog World Error} (hfree : w.engine.locked = false)
      (h : Code d tx k₀ { w with engine := { w.engine with locked := true } } body) :
      Code d tx k₀ w
        (body.bind fun w => .done { w with engine := { w.engine with locked := false } })

lemma Code.guard [Decidable p]
    (h : ¬p → Code d tx k₀ w prog) : Code d tx k₀ w (if p then .revert e else prog) :=
  Prog.guard (motive := Code d tx k₀ w) .revert h

lemma Code.single {w' : World} (hact : Act d tx k₀ w.core k) (h : w'.core = k)
    (hchannel : w'.channel = w.channel) (hlocked : w'.engine.locked = w.engine.locked)
    (hpayouts : w'.engine.payouts = w.engine.payouts) : Code d tx k₀ w (.done w') :=
  .writes ⟨.single (hact.deed ((congrArg Core.payouts h).symm.trans hpayouts)) h, hchannel, hlocked,
    hpayouts⟩

/-- An event is written last. -/
lemma Code.emit (h : Code d tx k₀ w prog) (event : EngineEvent) :
    Code d tx k₀ w (prog.bind fun w => .done { w with engine := w.engine.emit event }) :=
  .bind h fun _ => .writes ⟨.frame rfl, rfl, rfl, rfl⟩

lemma nonReentrant_code (h : ∀ w', w'.engine.rounds = w.engine.rounds → Code d tx k₀ w' (body w')) :
    Code d tx k₀ w (nonReentrant w body) :=
  .guard fun hfree => .locked (Bool.eq_false_of_not_eq_true hfree) (h _ rfl)

lemma disputePending_false {answers : Answers} {id : RoundId}
    (h : disputePending d answers id w = some false) (hset : w.engine.disputeResolver ≠ 0)
    (hours : w.engine.disputeResolver = d.resolver) :
    w.resolver.pendingDisputeCount (roundDisputeKey d id) = 0 := by
  rw [disputePending, if_neg hset, if_pos hours] at h
  simpa [isDisputePending] using h

lemma settleRoundInternal_code (hmem : ticket ∈ tx.call.tickets)
    (senderSig : List UInt8) (secret : Bytes32) (w : World) :
    Code d tx k₀ w (settleRoundInternal d tx.msg tx.answers ticket senderSig secret w) := by
  refine (settleRoundInternal_checks ..).elim .revert ?_
  intro h
  refine .emit (.payout ?_ ?_ ?_ ?_ ?_) _
  · exact .settle hmem h.opened (disputePending_false h.quiet) h.price h.unused
  · rfl
  · rfl
  · rfl
  · exact h.index

lemma settleRounds_code (hmem : ∀ c ∈ claims, c.1 ∈ tx.call.tickets) :
    ∀ w, Code d tx k₀ w (settleRounds d tx.msg tx.answers claims w) := by
  induction claims with
  | nil => exact fun w => .writes ⟨.frame rfl, rfl, rfl, rfl⟩
  | cons c rest ih =>
    obtain ⟨hfirst, hrest⟩ := forall_mem_cons.mp hmem
    exact fun w => .bind (settleRoundInternal_code hfirst _ _ w) (ih hrest)

lemma claimFallbackTicket_code (hcall : tx.call = .claimFallbackTicket ticket senderSig secret)
    (w : World) :
    Code d tx w.core w (claimFallbackTicket d tx.msg ticket senderSig secret w) := by
  refine nonReentrant_code fun w' hrounds => .guard fun _ => ?_
  refine .guard fun hfallback => .guard fun hunused => ?_
  split
  · exact .revert _
  rename_i signer hsigner
  refine .guard fun hsigned => .guard fun _ => ?_
  split
  · exact .revert _
  refine .guard fun _ => .guard fun _ => .emit (.payout ?_ ?_ ?_ ?_ ?_) _
  · have hclaimed : tx.call.claimed = some ticket := by rw [hcall]; rfl
    exact .claim hclaimed (not_not.mp hfallback) (Bool.eq_false_of_not_eq_true hunused)
  · rfl
  · rfl
  · rfl
  · rw [← not_not.mp hsigned] at hsigner
    exact ⟨hrounds, senderSig, secret, hcall, hsigner⟩

section Disputes

lemma raiseChunkDispute_code
    (hcall : tx.call = .raiseChunkDispute recipient roundId localIndex evidenceHash) (w : World) :
    Code d tx w.core w
      (raiseChunkDispute d tx.msg recipient roundId localIndex evidenceHash w) := by
  unfold raiseChunkDispute
  dsimp only
  refine .guard fun hnone => .guard fun hround => ?_
  split
  · exact .revert _
  split
  · exact .revert _
  rename_i hcount
  obtain ⟨-, rfl⟩ := add256_eq_some.mp hcount
  have hslot : tx.call.disputed tx.msg.sender
      = some ⟨⟨tx.msg.sender, recipient, roundId⟩, localIndex⟩ := by rw [hcall]; rfl
  exact .single (.raise hslot (not_not.mp hnone) (not_not.mp hround) rfl) rfl rfl rfl rfl

lemma respondToDispute_code
    (hcall : tx.call = .respondToDispute sender roundId localIndex chunk merkleProof merkleRoot)
    (w : World) :
    Code d tx w.core w
      (respondToDispute d tx.msg sender roundId localIndex chunk merkleProof merkleRoot w) := by
  refine .guard fun hopen => .guard fun _ => .guard fun _ => ?_
  have hslot : tx.call.disputed tx.msg.sender
      = some ⟨⟨sender, tx.msg.sender, roundId⟩, localIndex⟩ := by rw [hcall]; rfl
  exact .single (.respond hslot (not_not.mp hopen)) (core_release d _ .resolvedHonest w) rfl rfl rfl

lemma resolveExpiredDispute_code
    (hcall : tx.call = .resolveExpiredDispute sender recipient roundId localIndex) (w : World) :
    Code d tx w.core w (resolveExpiredDispute d tx.msg sender recipient roundId localIndex w) := by
  unfold resolveExpiredDispute
  dsimp only
  refine .guard fun hopen => .guard fun _ => ?_
  split
  · exact .revert _
  split
  · exact .revert _
  -- The engine either refuses the resolver, or the round is voided.
  refine Prog.guard_bind .revert fun hauth => ?_
  let slot : Slot := ⟨⟨sender, recipient, roundId⟩, localIndex⟩
  have hexpire : Act d tx w.core w.core
      ((w.core.close d slot .resolvedSlashed).setStatus (roundKey d slot.round) .voided) :=
    .expire hcall (not_not.mp hopen) fun hset => not_not.mp fun hne => hauth ⟨hset, hne⟩
  refine .single hexpire ?_ rfl rfl rfl
  rw [← core_release]
  rfl

lemma markRoundPartial_code (hcall : tx.call = .markRoundPartial sender roundId) (w : World) :
    Code d tx w.core w (markRoundPartial d tx.msg sender roundId w) := by
  refine .guard fun _ => ?_
  refine .guard fun hopen => ?_
  split
  · exact .revert _
  have hmarked : tx.call.marked tx.msg.sender = some ⟨sender, tx.msg.sender, roundId⟩ := by
    rw [hcall]; rfl
  exact .guard fun _ => .single (.mark hmarked (not_not.mp hopen)) rfl rfl rfl rfl

end Disputes

lemma exec_code (d : Deployment) (tx : Tx) (w : World) : Code d tx w.core w (exec d tx w) := by
  refine .guard fun _ => ?_
  generalize hcall : tx.call = call
  cases call with
  | channel c => exact .channel w hcall
  | registry c => exact .registry w _
  | setDisputeResolver disputeResolver =>
    exact .guard fun howner =>
      .single (.install hcall (not_not.mp howner)) rfl rfl rfl rfl
  | pause => exact .guard fun _ => .guard fun _ => .writes ⟨.frame rfl, rfl, rfl, rfl⟩
  | unpause => exact .guard fun _ => .guard fun _ => .writes ⟨.frame rfl, rfl, rfl, rfl⟩
  | commitRoundSecret sender roundId tau faceValue hash =>
    exact (commitRoundSecret_checks ..).elim .revert
      fun h => .single (.commit hcall h.params h.fresh) rfl rfl rfl rfl
  | settleRound ticket senderSig secret =>
    refine nonReentrant_code fun w _ => .guard fun _ => settleRoundInternal_code ?_ _ _ w
    rw [hcall]
    exact mem_singleton_self ticket
  | settleRoundBatch tickets senderSigs secrets =>
    refine nonReentrant_code fun w _ => .guard fun _ => .guard fun _ =>
      settleRounds_code (fun c hc => ?_) w
    rw [hcall]
    exact (of_mem_zip hc).1
  | markRoundPartial sender roundId => exact markRoundPartial_code hcall w
  | claimFallbackTicket ticket senderSig secret =>
    exact claimFallbackTicket_code hcall w
  | voidRound sender recipient roundId reason =>
    refine .guard fun hauth => ?_
    have hvoid : Act d tx w.core w.core
        (w.core.setStatus (roundKey d ⟨sender, recipient, roundId⟩) .voided) :=
      .void hcall fun hset => not_not.mp fun hne => hauth ⟨hset, hne⟩
    exact .single hvoid rfl rfl rfl rfl
  | raiseChunkDispute recipient roundId localIndex evidenceHash =>
    exact raiseChunkDispute_code hcall w
  | respondToDispute sender roundId localIndex chunk merkleProof merkleRoot =>
    exact respondToDispute_code hcall w
  | resolveExpiredDispute sender recipient roundId localIndex =>
    exact resolveExpiredDispute_code hcall w

/-- A payout is one deed together with what was written just before it. -/
lemma payoutProvider_deeds {w₀ : World} (hdeed : Deed d tx k₀ w₀.core (w.core.pay d mode ticket)) :
    (payoutProvider d m mode ticket w).Own (Deeds d tx k₀) w₀ := by
  refine (Prog.Checks.embed (PaymentChannel.payoutProvider_checks _
    { m with sender := d.engine, value := 0 } w.channel ..)).own fun _ => ?_
  let channel := w.channel.paid d.channels ticket.sender ticket.recipient ticket.faceValue
  have hbooks : channel.books = w.channel.books.pay
      (getChannelKey d ticket.sender ticket.recipient) ticket.faceValue :=
    PaymentChannel.books_settle ..
  have hpaid : ∀ c : PaymentChannel.World, c.books = channel.books → Deeds d tx k₀ w₀ { w with
        channel := c
        engine := w.engine.record ⟨mode, ticket, w.resolver.disputes⟩ } := by
    intro c hc
    refine .single hdeed ?_
    simp only [World.core, hc, hbooks]
    rfl
  refine ⟨hpaid _ rfl, hpaid _ rfl, fun sent w' => ?_⟩
  cases sent with
  | false => trivial
  | true => exact Deeds.frame rfl

lemma Code.deeds (h : Code d tx k₀ w prog) : prog.Own (Deeds d tx k₀) w := by
  induction h with
  | revert e => trivial
  | writes h => exact h.deeds
  | @channel w c hcall =>
    refine (PaymentChannel.exec_books ..).embed ?_
    exact fun w channel hbooking => .single (Act.deed (.channel hcall hbooking) rfl) rfl
  | registry w prog =>
    refine own_embed fun w registry => .frame ?_
    rfl
  | @payout w w' mode ticket hact hchannel hlocked hpayouts hdue =>
    refine payoutProvider_deeds ⟨hact, fun mode' ticket' hpaid => ?_⟩
    obtain ⟨rfl, rfl, -⟩ := Payout.mk.inj (List.cons.inj hpaid).1
    exact hdue
  | bind _ _ ih ihk => exact ih.bind Deeds.trans ihk
  | locked _ _ ih =>
    refine Prog.Own.bind Deeds.trans (fun w => ?_) (.after Deeds.trans ?_ ih)
    · exact Deeds.frame rfl
    · exact .frame rfl

end Own

/-- **Every transaction is a sequence of acts** on rounds and disputes,
however its payees use the control they get. -/
theorem exec_own (d : Deployment) (tx : Tx) (w : World) : (exec d tx w).Own (Acts d tx w.core) w :=
  (exec_code ..).deeds.mono fun _ _ => Relation.ReflTransGen.mono (fun _ _ => Deed.act) _ _

section Keeps

variable {d : Deployment} {tx : Tx} {w : World} {I : Core → Prop}

/-- What every deed keeps, every call keeps. -/
lemma exec_keeps_deeds (hdeed : ∀ {k k'}, Deed d tx w.core k k' → I k → I k')
    (past : List (Tx × World)) (h : I w.core) :
    Ensures (fun (_ : Unit) (p : Point World Tx) => I p.state.core) (fun p => I p.state.core)
      past (exec d tx w) := by
  refine (exec_code ..).deeds.ensures (fun s s' past hdeeds hs => ?_) h
  have hall : ∀ {k k'}, Relation.ReflTransGen (Deed d tx w.core) k k' → I k → I k' := by
    intro k k' hdeeds hk
    induction hdeeds with
    | refl => exact hk
    | tail _ hlast ih => exact hdeed hlast ih
  exact hall hdeeds hs

lemma exec_keeps (hact : ∀ {k k'}, Act d tx w.core k k' → I k → I k')
    (past : List (Tx × World)) (h : I w.core) :
    Ensures (fun (_ : Unit) (p : Point World Tx) => I p.state.core) (fun p => I p.state.core)
      past (exec d tx w) :=
  exec_keeps_deeds (fun hdeed => hact hdeed.act) past h

end Keeps

end Cipher.Settlement
