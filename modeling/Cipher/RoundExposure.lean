import Cipher.RoundWinner

/-!
# What a round can cost

A settlement compares the ticket with the terms of its round, a claim in
fallback mode does not. If every ticket that is claimed has the face value
of its round and an index below its size, then so has every ticket that is
paid; and since a ticket is claimed once, a round whose client has signed
one ticket for each index costs no more than all its tickets together.
-/

namespace Cipher.Settlement

open Evm Raffle Function List

/-! ## Rounds that can pay -/

/-- A round that can pay has been committed. -/
def Backed (k : Core) : Prop :=
  ∀ key, (k.rounds key).status = .opened ∨ (k.rounds key).status = .partialFallback →
    ∃ x ∈ k.writes, x.key = key ∧ x.Commits

section Steps

variable {d : Deployment} {tx : Tx} {k₀ k k' : Core}

lemma Backed.setRound (h : Backed k) {round : Round}
    (hkey : round.status = .opened ∨ round.status = .partialFallback →
      RoundWrite.Commits ⟨key, k.rounds key, round⟩ ∨ (k.rounds key).status = .opened) :
    Backed (k.setRound key round) := by
  intro key' hpays
  simp only [Core.setRound] at hpays ⊢
  by_cases heq : key' = key
  · subst heq
    rw [update_self] at hpays
    rcases hkey hpays with hcommits | hopen
    · exact ⟨_, mem_cons_self .., rfl, hcommits⟩
    · obtain ⟨x, hx, hcommits⟩ := h key' (.inl hopen)
      exact ⟨x, mem_cons_of_mem _ hx, hcommits⟩
  · rw [update_of_ne heq] at hpays
    obtain ⟨x, hx, hcommits⟩ := h key' hpays
    exact ⟨x, mem_cons_of_mem _ hx, hcommits⟩

lemma Act.backed (hact : Act d tx k₀ k k') (h : Backed k) : Backed k' := by
  have hclosed : ∀ (k : Core) (key : Bytes32) (status : RoundStatus), Backed k →
      status ≠ .opened ∧ status ≠ .partialFallback → Backed (k.setStatus key status) :=
    fun _ _ _ h hne => h.setRound fun hpays => (hpays.elim hne.1 hne.2).elim
  cases hact with
  | commit hcall hparams hnew => exact h.setRound fun _ => .inl ⟨hnew, rfl⟩
  | @settle _ ticket =>
    exact hclosed k _ .settled h (by decide)
  | mark hcall hopen => exact h.setRound fun _ => .inr hopen
  | void => exact hclosed _ _ .voided h (by decide)
  | @expire slot =>
    exact hclosed _ _ .voided h (by decide)
  | install | claim | raise | respond | channel => exact h

/-! ## Payouts within the terms of their rounds -/

/-- A ticket of `S` is claimed if it is signed, and what is claimed of a
round in fallback mode is within its terms. -/
structure ClaimsWithin (d : Deployment) (S : Set RoundTicket) (tx : Tx) (p : Point World Tx) :
    Prop where
  signed : ∀ ticket senderSig secret, tx.call = .claimFallbackTicket ticket senderSig secret →
    recoverSigner d.entropy (roundTicketHash d.entropy ticket) senderSig = .ok ticket.sender →
    ticket ∈ S
  terms : ∀ ticket, tx.call.claimed = some ticket →
    let round := p.state.engine.rounds (roundKey d (ticketRound ticket))
    round.status = .partialFallback →
      ticket.faceValue = round.faceValue ∧ ticket.localIndex < round.tau

/-- A payout is within the terms that the round was committed with. -/
def Payout.Within (d : Deployment) (writes : List RoundWrite) (p : Payout) : Prop :=
  ∃ x ∈ writes, x.key = p.key d ∧ x.Commits ∧ p.ticket.faceValue = x.new.faceValue ∧
    p.ticket.localIndex < x.new.tau

structure Exposed (d : Deployment) (S : Set RoundTicket) (k : Core) : Prop where
  within : ∀ p ∈ k.payouts, p.Within d k.writes
  claimed : ∀ p ∈ k.payouts, p.mode = .fallback →
    p.ticket ∈ S ∧ k.usedFallbackTickets (roundTicketHash d.entropy p.ticket) = true
  once : ((k.payouts.filter (·.mode = .fallback)).map (·.ticket)).Nodup

variable {S : Set RoundTicket}

/-- Acts that pay nothing. -/
lemma Exposed.frame (h : Exposed d S k) (hwrites : k.writes ⊆ k'.writes)
    (hused : k'.usedFallbackTickets = k.usedFallbackTickets)
    (hpayouts : k'.payouts = k.payouts) : Exposed d S k' where
  within := by
    rw [hpayouts]
    intro p hp
    obtain ⟨x, hx, hx'⟩ := h.within p hp
    exact ⟨x, hwrites hx, hx'⟩
  claimed := by
    rw [hpayouts, hused]
    exact h.claimed
  once := by
    rw [hpayouts]
    exact h.once

/-- The commit of a round that pays has the terms that the ticket was
compared with. -/
lemma Backed.within (hbacked : Backed k) (hoffered : Offered k)
    (hpays : (k.rounds (roundKey d (ticketRound ticket))).status = .opened ∨
      (k.rounds (roundKey d (ticketRound ticket))).status = .partialFallback)
    (hface : ticket.faceValue = (k.rounds (roundKey d (ticketRound ticket))).faceValue)
    (hindex : ticket.localIndex < (k.rounds (roundKey d (ticketRound ticket))).tau) (mode : Mode) :
    Payout.Within d k.writes ⟨mode, ticket, k.disputes⟩ := by
  obtain ⟨x, hx, hkey, hcommits⟩ := hbacked _ hpays
  obtain ⟨-, -, hterms⟩ := hoffered x hx hcommits
  rw [hkey] at hterms
  have htau : (k.rounds (roundKey d (ticketRound ticket))).tau = x.new.tau :=
    congrArg Prod.fst hterms
  have hvalue : (k.rounds (roundKey d (ticketRound ticket))).faceValue = x.new.faceValue :=
    congrArg (fun t => t.2.1) hterms
  exact ⟨x, hx, hkey, hcommits, hface.trans hvalue, hindex.trans_eq htau⟩

lemma Deed.exposed (hadm : ClaimsWithin d S tx p)
    (hdeed : Deed d tx p.state.core k k') (hbacked : Backed k) (hoffered : Offered k)
    (h : Exposed d S k) : Exposed d S k' := by
  obtain ⟨hact, hdue⟩ := hdeed
  cases hact with
  | @settle _ ticket hmem hopen hpending hface hunused =>
    have hindex : Due d tx _ k ticket .normal := hdue .normal ticket rfl
    have hwithin := hbacked.within hoffered (.inl hopen) hface hindex .normal
    have hold : Exposed d S ((k.setStatus (roundKey d (ticketRound ticket)) .settled).useTicket
        (roundTicketHash d.entropy ticket)) :=
      h.frame (subset_cons_self _ _) rfl rfl
    obtain ⟨x, hx, hx'⟩ := hwithin
    exact ⟨forall_mem_cons.mpr ⟨⟨x, mem_cons_of_mem _ hx, hx'⟩, hold.within⟩,
      forall_mem_cons.mpr ⟨(by rintro ⟨⟩), hold.claimed⟩, h.once⟩
  | @claim _ ticket hcall hfallback hunused =>
    obtain ⟨hrounds, senderSig, secret, hclaim, hsigned⟩ := hdue .fallback ticket rfl
    have hterms := hadm.terms ticket hcall
    rw [show p.state.engine.rounds = k.rounds from hrounds.symm] at hterms
    obtain ⟨hface, hindex⟩ := hterms hfallback
    refine ⟨forall_mem_cons.mpr ⟨?_, h.within⟩, forall_mem_cons.mpr ⟨fun _ => ?_, ?_⟩,
      nodup_cons.mpr ⟨fun hmem => ?_, h.once⟩⟩
    · exact hbacked.within hoffered (.inr hfallback) hface hindex .fallback
    · exact ⟨hadm.signed ticket _ secret hclaim hsigned, update_self ..⟩
    · intro q hq hmode
      obtain ⟨hS, hused⟩ := h.claimed q hq hmode
      refine ⟨hS, ?_⟩
      simp only [Core.pay, Core.useFallbackTicket]
      by_cases heq : roundTicketHash d.entropy q.ticket = roundTicketHash d.entropy ticket
      · rw [heq, update_self]
      · rw [update_of_ne heq]
        exact hused
    · -- a ticket that has been claimed before is marked as used
      obtain ⟨q, hq, heq⟩ := mem_map.mp hmem
      obtain ⟨hq, hmode⟩ := mem_filter.mp hq
      have hused := (h.claimed q hq (of_decide_eq_true hmode)).2
      rw [heq, hunused] at hused
      cases hused
  | commit | mark | void | expire => exact h.frame (subset_cons_self _ _) rfl rfl
  | install | raise | respond | channel => exact h.frame (fun _ hx => hx) rfl rfl

end Steps

lemma run_exposed (hr : Run (exec d) (ClaimsWithin d S) (start owner) c) :
    Exposed d S c.now.state.core := by
  have hall : Backed c.now.state.core ∧ Offered c.now.state.core ∧
      Exposed d S c.now.state.core := by
    refine Run.always (P := fun p => Backed p.state.core ∧ Offered p.state.core ∧
      Exposed d S p.state.core) (fun p tx hadm h => ?_) hr rfl ?_
    · refine exec_keeps_deeds (I := fun k => Backed k ∧ Offered k ∧ Exposed d S k) ?_ _ h
      rintro k k' hdeed ⟨hbacked, hoffered, hexposed⟩
      exact ⟨hdeed.act.backed hbacked, hdeed.act.offered hoffered,
        hdeed.exposed hadm hbacked hoffered hexposed⟩
    · refine ⟨fun key hpays => ?_, fun x hx => ?_, fun p hp => ?_, fun p hp => ?_, .nil⟩
      · rcases hpays with hs | hs <;> cases hs
      all_goals contradiction
  exact hall.2.2

/-! ## The cost of a round -/

/-- The payouts of a round in fallback mode. -/
def fallbackPayouts (id : RoundId) (payouts : List Payout) : List Payout :=
  payouts.filter fun p => p.mode = .fallback ∧ ticketRound p.ticket = id

/-- The client has signed at most one ticket for each index of a round. -/
def OnePerIndex (S : Set RoundTicket) : Prop :=
  ∀ t ∈ S, ∀ t' ∈ S, ticketRound t = ticketRound t' → t.localIndex = t'.localIndex → t = t'

lemma Exposed.length_le {d : Deployment} {S : Set RoundTicket} {k : Core} (h : Exposed d S k)
    (hS : OnePerIndex S) {id : RoundId}
    (hindex : ∀ p ∈ k.payouts, ticketRound p.ticket = id → p.ticket.localIndex < tau) :
    (fallbackPayouts id k.payouts).length ≤ tau := by
  have hmem : ∀ p ∈ fallbackPayouts id k.payouts,
      p ∈ k.payouts ∧ p.mode = .fallback ∧ ticketRound p.ticket = id := by
    intro p hp
    obtain ⟨hp, hkind⟩ := mem_filter.mp hp
    exact ⟨hp, of_decide_eq_true hkind⟩
  have hsublist : (fallbackPayouts id k.payouts).Sublist
      (k.payouts.filter (·.mode = .fallback)) := by
    refine monotone_filter_right _ fun p hp => ?_
    exact decide_eq_true (of_decide_eq_true hp).1
  have htickets : ((fallbackPayouts id k.payouts).map (·.ticket)).Nodup :=
    (hsublist.map _).nodup h.once
  have hindices : ((fallbackPayouts id k.payouts).map (·.ticket.localIndex)).Nodup := by
    rw [show (fallbackPayouts id k.payouts).map (·.ticket.localIndex)
      = ((fallbackPayouts id _).map (·.ticket)).map (·.localIndex) from (map_map ..).symm]
    refine htickets.map_on fun t ht t' ht' heq => ?_
    obtain ⟨p, hp, rfl⟩ := mem_map.mp ht
    obtain ⟨q, hq, rfl⟩ := mem_map.mp ht'
    obtain ⟨hp, hpmode, hpround⟩ := hmem p hp
    obtain ⟨hq, hqmode, hqround⟩ := hmem q hq
    exact hS _ (h.claimed p hp hpmode).1 _ (h.claimed q hq hqmode).1 (hpround.trans hqround.symm)
      heq
  have hrange : (fallbackPayouts id k.payouts).map (·.ticket.localIndex) ⊆ List.range tau := by
    intro i hi
    obtain ⟨p, hp, rfl⟩ := mem_map.mp hi
    obtain ⟨hp, -, hround⟩ := hmem p hp
    exact mem_range.mpr (hindex p hp hround)
  simpa using hindices.length_le_of_subset hrange

/-- **Payouts respect the committed terms**, in every configuration of every
run in which the claims do; and if the client signs at most one ticket for
each index, the fallback payouts of a round cost at most `tau` tickets. -/
theorem payouts_within_terms (d : Deployment) (S : Set RoundTicket) (owner : Address)
    (c : Config World Error Tx) (hr : Run (exec d) (ClaimsWithin d S) (start owner) c) :
    let engine := c.now.state.engine
    (∀ p ∈ engine.payouts, p.Within d engine.writes) ∧
      (OnePerIndex S → ∀ id, ∀ x ∈ engine.writes, x.key = roundKey d id → x.Commits →
        ((fallbackPayouts id engine.payouts).map (·.ticket.faceValue)).sum
          ≤ x.new.tau * x.new.faceValue) := by
  have hexposed := run_exposed hr
  have hoffered := run_offered hr
  refine ⟨hexposed.within, fun hS id x hx hkey hcommits => ?_⟩
  -- every commit of the round has the terms that the round still has
  have hterms : ∀ p ∈ c.now.state.engine.payouts, ticketRound p.ticket = id →
      p.ticket.faceValue = x.new.faceValue ∧ p.ticket.localIndex < x.new.tau := by
    rintro p hp rfl
    obtain ⟨y, hy, hykey, hycommits, hface, hindex⟩ := hexposed.within p hp
    have hsame : y.new.terms = x.new.terms := by
      rw [← (hoffered y hy hycommits).2.2, ← (hoffered x hx hcommits).2.2, hykey, hkey]
      rfl
    have htau : y.new.tau = x.new.tau := congrArg Prod.fst hsame
    have hvalue : y.new.faceValue = x.new.faceValue := congrArg (fun t => t.2.1) hsame
    exact ⟨hface.trans hvalue, hindex.trans_eq htau⟩
  have hlength := hexposed.length_le hS fun p hp hround => (hterms p hp hround).2
  calc ((fallbackPayouts id c.now.state.engine.payouts).map (·.ticket.faceValue)).sum
      ≤ (fallbackPayouts id c.now.state.engine.payouts).length * x.new.faceValue := by
        refine (sum_le_card_nsmul _ x.new.faceValue fun v hv => ?_).trans (by simp)
        obtain ⟨p, hp, rfl⟩ := mem_map.mp hv
        obtain ⟨hp, hkind⟩ := mem_filter.mp hp
        exact (hterms p hp (of_decide_eq_true hkind).2).1.le
    _ ≤ x.new.tau * x.new.faceValue := Nat.mul_le_mul_right _ hlength

lemma claimsWithin_of_none {tx : Tx} (h : tx.call.claimed = none) : ClaimsWithin d S tx p where
  signed ticket senderSig secret hcall := by rw [hcall] at h; cases h
  terms ticket hclaimed := by rw [h] at hclaimed; cases hclaimed

set_option maxRecDepth 8192

theorem payouts_within_terms_bothModes :
    ∃ c, Run (exec drawSample) (ClaimsWithin drawSample {oddsTicket}) (start 9) c
      ∧ c.now.past.map (·.1.call) = ((funding ++ bothModes).map (·.call)).reverse
      ∧ (∀ p ∈ c.now.state.engine.payouts, p.Within drawSample c.now.state.engine.writes)
      ∧ (∀ id, ∀ x ∈ c.now.state.engine.writes, x.key = roundKey drawSample id → x.Commits →
        ((fallbackPayouts id c.now.state.engine.payouts).map (·.ticket.faceValue)).sum
          ≤ x.new.tau * x.new.faceValue)
      ∧ ((fallbackPayouts ⟨1, 2, 4⟩ c.now.state.engine.payouts).map (·.ticket.faceValue)).sum
        = 5 := by
  have hcalls : Calls (exec drawSample) (ClaimsWithin drawSample {oddsTicket})
      ⟨World.init 9, []⟩ (funding ++ bothModes) _ :=
    .cons (claimsWithin_of_none rfl) rfl <| .cons (claimsWithin_of_none rfl) rfl <|
    .cons (claimsWithin_of_none rfl) rfl <| .cons (claimsWithin_of_none rfl) rfl <|
    .cons (claimsWithin_of_none rfl) rfl <| .cons (claimsWithin_of_none rfl) rfl <|
    .cons (claimsWithin_of_none rfl) rfl <|
    .cons ⟨fun _ _ _ hcall _ => by cases hcall; rfl,
      fun _ hclaimed _ => by cases hclaimed; decide⟩ rfl <| .nil _
  have hone : OnePerIndex {oddsTicket} := by
    rintro t rfl t' rfl - -
    rfl
  obtain ⟨hwithin, hcost⟩ := payouts_within_terms _ _ 9 _ (hcalls.run [])
  exact ⟨_, hcalls.run [], rfl, hwithin, hcost hone, rfl⟩

/-- A ticket of round 4 with an index and a face value of its own. -/
def largeTicket : RoundTicket := ⟨1, 2, 4, 7, 15, 100, 1⟩

/-- Round 4 has two tickets of 5. One claim costs the client 15. -/
theorem fallback_exceeds_terms : ∃ c, Run (exec drawSample) (fun _ _ => True) (start 9) c
      ∧ (c.now.state.engine.rounds (roundKey drawSample ⟨1, 2, 4⟩)).terms = (2, 5, 77, 101)
      ∧ recoverSigner drawSample.entropy (roundTicketHash drawSample.entropy largeTicket) sampleSig
        = .ok largeTicket.sender
      ∧ c.now.state.engine.payouts.map (fun p => (p.mode, p.ticket)) = [(.fallback, largeTicket)]
      ∧ PaymentChannel.channelBalance drawSample.channels 1 2 c.now.state.channel.toStorage
        = some 5 := by
  have hrun : Run (exec drawSample) (fun _ _ => True) (start 9) _ :=
    .of_accepted (funding ++ [sampleTx 2 101 (.commitRoundSecret 1 4 2 5 77),
        sampleTx 1 121 (.channel (.initiateChannelUnlock 2)),
        sampleTx 2 122 (.markRoundPartial 1 4),
        sampleTx 2 123 (.claimFallbackTicket largeTicket sampleSig 77)]) rfl
  exact ⟨_, hrun, rfl, rfl, rfl, rfl⟩

end Cipher.Settlement
