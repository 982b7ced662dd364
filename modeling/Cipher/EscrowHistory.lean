import Cipher.EscrowMoves

/-!
# Histories of the escrow contract

Every function of the contract writes its storage before it pays
anybody, so re-entrant calls do not interleave with it: the storage of
any configuration is reached from deployment by the calls in effect, one
`Effect` after the other (`Linked`), and the transfers made so far are
those that these calls owe, less what suspended calls have not paid yet
(`Inv`). `run_ok` establishes this for every run.

What is left to do for a property of the contract is an induction over
a linked history, with one `Move` per step. The first such inductions
are here: the terms of an agreement never change, and each agreement is
`Sound` for its state.
-/

namespace Cipher.Escrow

open Evm List

/-! ## Linked histories -/

abbrev History := List (Tx × World)

/-- The calls in effect lead from deployment to this storage. -/
def Linked (d : Deployment) : History → Storage → Prop
  | [], s => s = World.init.toStorage
  | (tx, w) :: past, s => Effect d tx w.toStorage s ∧ Linked d past w.toStorage

/-- All transfers the calls of a history owe. -/
def dues (past : History) : List Transfer := past.flatMap fun r => due r.1 r.2.toStorage

def amounts (ts : List Transfer) : Nat := (ts.map (·.amount)).sum

/-- All value the calls of a history brought in. -/
def values (past : History) : Nat := (past.map (·.1.msg.value)).sum

@[simp] lemma amounts_nil : amounts [] = 0 := rfl

@[simp] lemma amounts_cons (t : Transfer) (ts : List Transfer) :
    amounts (t :: ts) = t.amount + amounts ts := by
  simp [amounts]

@[simp] lemma amounts_append (ts ts' : List Transfer) :
    amounts (ts ++ ts') = amounts ts + amounts ts' := by
  simp [amounts]

lemma amounts_nonzero (ts : List Transfer) : amounts (nonzero ts) = amounts ts := by
  induction ts with
  | nil => rfl
  | cons t ts ih =>
    rw [nonzero_cons, amounts_cons, ← ih]
    split
    · omega
    · rw [amounts_cons]

lemma mem_dues : t ∈ dues past ↔ ∃ tx w, (tx, w) ∈ past ∧ t ∈ due tx w.toStorage := by
  simp [dues, mem_flatMap]

/-! ## One agreement at a time -/

variable {d : Deployment} {tx : Tx}

/-- What an effect does to the agreement `id`: nothing, one move, or its
creation. -/
lemma Effect.at (h : Effect d tx s s') (id : Bytes32) :
    (tx.call.target ≠ some id ∧ s'.agreements id = s.agreements id)
      ∨ (tx.call.target = some id ∧ (s.agreements id).exists' = true
          ∧ Move d tx.msg tx.call (s.agreements id) (s'.agreements id))
      ∨ (tx.call.target = none ∧ (s.agreements id).exists' = false
          ∧ ∃ provider fileID reward periods duration rulesHash collateralRequired,
              provider ≠ 0 ∧ reward ≠ 0 ∧ duration < 2 ^ 64
              ∧ s'.agreements id = newAgreement tx.msg provider fileID reward periods duration
                  rulesHash collateralRequired) := by
  cases h with
  | @create m provider fileID reward periods duration rulesHash collateralRequired s hnew hp hr hd
      hv =>
      by_cases hid : id = newContractID d m.sender provider fileID s.nextContractNonce
      · subst hid
        exact .inr (.inr ⟨rfl, hnew, provider, fileID, reward, periods, duration, rulesHash,
          collateralRequired, hp, hr, hd, by simp⟩)
      · exact .inl ⟨by simp [Call.target], by simp [hid]⟩
  | @move tx s id' ag' htarget hex hmove hv =>
    by_cases hid : id = id'
    · subst hid
      exact .inr (.inl ⟨htarget, hex, by simpa using hmove⟩)
    · refine .inl ⟨fun h => hid ?_, by simp [hid]⟩
      exact (Option.some.inj (htarget.symm.trans h)).symm

/-- What the two parties agreed on. -/
def EscrowAgreement.terms (ag : EscrowAgreement) :
    Address × Address × Bytes32 × Bytes32 × Nat × Nat × Nat × Nat :=
  (ag.publisher, ag.provider, ag.fileID, ag.rulesHash, ag.reward, ag.collateralRequired,
    ag.periods, ag.duration)

variable {c : Call} {ag : EscrowAgreement}

lemma Move.terms (h : Move d m c ag ag') : ag'.terms = ag.terms := by
  cases h <;> rfl

lemma Move.exists' (h : Move d m c ag ag') : ag'.exists' = ag.exists' := by
  cases h <;> rfl

/-- A created agreement stays, on the same terms. -/
lemma Effect.terms {s' : Storage} (h : Effect d tx s s') {id : Bytes32}
    (hex : (s.agreements id).exists' = true) :
    (s'.agreements id).exists' = true ∧ (s'.agreements id).terms = (s.agreements id).terms := by
  rcases h.at id with ⟨-, heq⟩ | ⟨-, -, hmove⟩ | ⟨-, hno, -⟩
  · rw [heq]; exact ⟨hex, rfl⟩
  · exact ⟨hmove.exists'.trans hex, hmove.terms⟩
  · rw [hex] at hno; cases hno

/-- Transfers go to the party their purpose names. -/
def payee (ag : EscrowAgreement) : Purpose → Address
  | .providerPayment | .collateralReturn => ag.provider
  | .publisherRefund | .refund | .slash => ag.publisher

lemma payee_congr (h : ag'.terms = ag.terms) (p : Purpose) : payee ag' p = payee ag p := by
  simp only [EscrowAgreement.terms, Prod.mk.injEq] at h
  cases p <;> simp [payee, h.1, h.2.1]

lemma payouts_spec (h : t ∈ payouts ag c) :
    c.target = some t.contractID ∧ t.recipient = payee ag t.purpose := by
  cases c <;> simp only [payouts, mem_cons, not_mem_nil, or_false] at h
  case settleContract id ps => rcases h with rfl | rfl <;> exact ⟨rfl, rfl⟩
  all_goals subst h; exact ⟨rfl, rfl⟩

lemma mem_due (h : t ∈ due tx s) :
    tx.call.target = some t.contractID ∧ t ∈ payouts (s.agreements t.contractID) tx.call := by
  unfold due at h
  split at h
  · cases h
  · rename_i id htarget
    have hmem := (mem_filter.mp h).1
    have hid := (payouts_spec hmem).1
    rw [htarget] at hid
    cases hid
    exact ⟨htarget, hmem⟩

/-- A transfer that is due goes to a party of an agreement that exists. -/
lemma Linked.payee : ∀ {past : History} {s : Storage}, Linked d past s → t ∈ dues past →
      (s.agreements t.contractID).exists' = true
        ∧ t.recipient = Escrow.payee (s.agreements t.contractID) t.purpose
  | [], _, _, ht => by simp [dues] at ht
  | (tx, w) :: past, s, ⟨heff, hlink⟩, ht => by
    have hw : (w.agreements t.contractID).exists' = true
        ∧ t.recipient = Escrow.payee (w.agreements t.contractID) t.purpose := by
      rw [dues, flatMap_cons, mem_append] at ht
      rcases ht with hnow | hold
      · obtain ⟨htarget, hmem⟩ := mem_due hnow
        refine ⟨?_, (payouts_spec hmem).2⟩
        rcases heff.at t.contractID with ⟨hne, -⟩ | ⟨-, hex, -⟩ | ⟨hnone, -, -⟩
        · exact absurd htarget hne
        · exact hex
        · rw [htarget] at hnone; cases hnone
      · exact Linked.payee hlink hold
    obtain ⟨hex, hterms⟩ := heff.terms hw.1
    exact ⟨hex, hw.2.trans (payee_congr hterms _).symm⟩

/-! ## The run invariant -/

/-- `pend` is what the suspended calls still have to pay. -/
structure Inv (d : Deployment) (pend : List Transfer) (p : Point World Tx) : Prop where
  linked : Linked d p.past p.state.toStorage
  paid : (p.state.ledger ++ pend).Perm (dues p.past)
  funds : p.state.balance + amounts p.state.ledger = values p.past

/-- Calls in a run of the contract: `createContract` never hits an
identifier in use. -/
def NoCollision (d : Deployment) (tx : Tx) (p : Point World Tx) : Prop :=
  Fresh d tx p.state.toStorage

/-- The configuration right after deployment. -/
def start : Config World Error Tx := ⟨⟨World.init, []⟩, []⟩

lemma inv_init (d : Deployment) : Inv d [] ⟨World.init, []⟩ :=
  ⟨rfl, .refl _, rfl⟩

/-- What a call writes puts its payments on the list of those outstanding. -/
lemma Inv.effect {w₁ : World} (h : Inv d pend p) (heff : Effect d tx p.state.toStorage w₁.toStorage)
    (hbal : w₁.balance = p.state.balance + tx.msg.value) (hled : w₁.ledger = p.state.ledger) :
    Inv d (due tx p.state.toStorage ++ pend) ⟨w₁, (tx, p.state) :: p.past⟩ where
  linked := ⟨heff, h.linked⟩
  paid := by
    have hperm : (p.state.ledger ++ (due tx p.state.toStorage ++ pend)).Perm
        (due tx p.state.toStorage ++ (p.state.ledger ++ pend)) := by
      rw [← append_assoc, ← append_assoc]
      exact perm_append_comm.append_right pend
    rw [hled]
    exact hperm.trans (h.paid.append_left _)
  funds := by
    have := h.funds
    simp only [values, map_cons, sum_cons] at *
    rw [hled]
    omega

lemma Inv.pay (h : Inv d (t :: pend) ⟨w, past⟩) (hle : t.amount ≤ w.balance) :
    Inv d pend ⟨w.pay t, past⟩ where
  linked := h.linked
  paid := perm_middle.symm.trans h.paid
  funds := by
    have := h.funds
    simp only [World.pay, amounts, map_cons, sum_cons] at *
    omega

/-- `_sendValue` pays one of the outstanding transfers. -/
lemma keeps_sendValue (h : Inv d (nonzero [t] ++ pend) ⟨w, past⟩)
    (hk : ∀ p, Inv d pend p → Keeps (Inv d) i p.past (k p.state)) :
    Keeps (Inv d) i past (sendValue d t w k) := by
  unfold sendValue
  by_cases h0 : t.amount = 0
  · rw [if_pos h0]
    exact hk _ (by simpa [nonzero, h0] using h)
  · rw [if_neg h0]
    have h' : Inv d (t :: pend) ⟨w, past⟩ := by simpa [nonzero, h0] using h
    split
    · exact trivial
    · rename_i hself
      simp only [not_or, not_lt] at hself
      exact ⟨trivial, pend, h'.pay hself.2, hk⟩

lemma Inv.log (h : Inv d pend p) (log : List Event) :
    Inv d pend ⟨{ p.state with log := log }, p.past⟩ :=
  ⟨h.linked, h.paid, h.funds⟩

lemma exec_keeps (d : Deployment) (pend : List Transfer) (p : Point World Tx) (tx : Tx)
    (hfresh : NoCollision d tx p) (h : Inv d pend p) :
    Keeps (Inv d) pend ((tx, p.state) :: p.past) (exec d tx p.state) := by
  have hout := exec_outcome d tx p.state hfresh
  generalize exec d tx p.state = prog at hout ⊢
  cases hout with
  | revert e => exact trivial
  | quiet heff hbal hled hdue =>
    have h' := h.effect heff hbal hled
    rw [hdue] at h'
    exact h'
  | pay evs heff hbal hled hdue =>
    have h' := h.effect heff hbal hled
    rw [hdue] at h'
    exact keeps_sendValue h' fun q hq => hq.log _
  | @settle evs w₁ id ps payee providerPayment publisherRefund hcall heff hbal hled hdue =>
    have h' := h.effect heff hbal hled
    have hsplit : ∀ t₁ t₂ : Transfer, nonzero [t₁, t₂] = nonzero [t₁] ++ nonzero [t₂] :=
      fun t₁ t₂ => filter_append [t₁] [t₂]
    rw [hdue, hsplit, append_assoc] at h'
    refine keeps_sendValue h' fun q hq => ?_
    -- The publisher is read again after the provider has been in control.
    by_cases h0 : publisherRefund = 0
    · subst h0
      exact (hq.log _ : Inv ..)
    · have hmem : (⟨id, .publisherRefund, (p.state.agreements id).publisher,
          publisherRefund⟩ : Transfer) ∈ dues q.past :=
        hq.paid.mem_iff.mp (by simp [nonzero, h0])
      have hpub := (hq.linked.payee hmem).2
      simp only [Escrow.payee] at hpub
      rw [hpub] at hq
      exact keeps_sendValue hq fun q' hq' => hq'.log _

/-- **Every configuration of every run is in order.** -/
theorem run_ok {c : Config World Error Tx} (hr : Run (exec d) (NoCollision d) start c) :
    c.Ok (Inv d) [] :=
  Run.ok (exec_keeps d) hr ⟨[], inv_init d, rfl⟩

/-! ## Sound agreements -/

/-- The states in which an agreement holds its reward. -/
def ContractState.holdsReward : ContractState → Bool
  | .funded | .active | .failed | .terminated => true
  | .created | .settled | .refunded => false

/-- What holds of an agreement at every point of every history. -/
structure Sound (ag : EscrowAgreement) : Prop where
  escrow : ag.escrowBalance = if ag.state.holdsReward then ag.reward else 0
  cum : ag.latestCumulativePayment ≤ ag.reward
  range : ag.latestSequence < 2 ^ 64 ∧ ag.latestCumulativePayment < 2 ^ 256
  noVoucher : ag.hasPaymentState = false →
    ag.latestCumulativePayment = 0 ∧ ag.latestSequence = 0
  early : ag.state = .created ∨ ag.state = .funded → ag.hasPaymentState = false
  terminated : ag.state = .terminated → ag.hasPaymentState = false
  settled : ag.state = .settled → ag.hasPaymentState = true
  created : ag.state = .created → ag.collateral = 0
  funded : ag.state = .funded → ag.collateral = 0 ∨ ag.collateral = ag.collateralRequired

lemma Sound.empty : Sound emptyAgreement := by
  constructor <;> simp [emptyAgreement, ContractState.holdsReward]

lemma voucherOk_next {id : Bytes32} (h : voucherOk m id ag ps = true) :
    ag.latestSequence < ps.sequence ∧ ag.latestCumulativePayment ≤ ps.cumulativePayment
      ∧ ps.cumulativePayment ≤ ag.reward := by
  simp only [voucherOk, isNextPaymentState, Bool.and_eq_true, decide_eq_true_eq] at h
  exact ⟨h.2.1.1, h.2.1.2, h.2.2⟩

lemma Sound.holds (hs : Sound ag) (hstate : ag.state.holdsReward = true) :
    ag.escrowBalance = ag.reward := by
  rw [hs.escrow, if_pos hstate]

/-- A voucher on record keeps an agreement sound once it is active. -/
lemma Sound.record {ag : EscrowAgreement} (hs : Sound ag)
    (hstate : ag.state = .active ∨ ag.state = .failed) {m : Msg} {id : Bytes32}
    {ps : PaymentState} (hrange : ps.inRange = true) (hok : voucherOk m id ag ps = true) :
    Sound (ag.record ps) := by
  obtain ⟨-, -, hle⟩ := voucherOk_next hok
  simp only [PaymentState.inRange, Bool.and_eq_true, decide_eq_true_eq] at hrange
  obtain ⟨⟨⟨⟨hseq, -⟩, hcum⟩, -⟩, -⟩ := hrange
  refine { hs with cum := hle, range := ⟨hseq, hcum⟩, noVoucher := nofun, early := ?_,
                   terminated := ?_, settled := fun _ => rfl }
  · intro hearly
    rcases hstate with h | h <;> rcases hearly with h' | h' <;> cases h.symm.trans h'
  · intro hterm
    rcases hstate with h | h <;> cases h.symm.trans hterm

lemma Move.sound (h : Move d m c ag ag') (hs : Sound ag) : Sound ag' := by
  cases h with
  | fund hsender hstate hvalue =>
    exact { hs with
      escrow := hvalue
      early := fun _ => hs.early (.inl hstate)
      terminated := nofun
      settled := nofun
      created := nofun
      funded := fun _ => .inl (hs.created hstate) }
  | deposit hsender hstate hnone hreq hvalue =>
    refine { hs with created := ?_, funded := fun _ => .inr hvalue }
    intro hcreated
    cases hstate.symm.trans hcreated
  | activate hsender hstate hesc hcoll hdeadline =>
    exact { hs with
      escrow := hesc, early := nofun, terminated := nofun, settled := nofun,
      created := nofun, funded := nofun }
  | submit hrange hstate hfits hwindow hok hsig => exact hs.record (.inl hstate) hrange hok
  | settle hstate hhas hseq hcum hid hle =>
    exact { hs with
      escrow := rfl, early := nofun, terminated := nofun, settled := fun _ => hhas,
      created := nofun, funded := nofun }
  | refund hsender hstate =>
    exact { hs with
      escrow := rfl, early := nofun, terminated := nofun, settled := nofun,
      created := nofun, funded := nofun }
  | giveBack hstate hcoll =>
    exact { hs with created := fun _ => rfl, funded := fun _ => .inl rfl }
  | mark hsender hstate hreason =>
    have hesc := hs.holds (by rw [hstate]; rfl)
    exact { hs with
      escrow := hesc, early := nofun, terminated := nofun, settled := nofun,
      created := nofun, funded := nofun }
  | dispute hrange hsender hstate hok hsig =>
    have hesc := hs.holds (by rw [hstate]; rfl)
    have hrecord := hs.record (.inr hstate) hrange hok
    exact { hrecord with
      escrow := hesc, early := nofun, terminated := nofun, settled := nofun,
      created := nofun, funded := nofun }
  | slash hsender hstate hpenalty =>
    refine { hs with created := ?_, funded := ?_ }
    · intro hcreated
      cases hstate.symm.trans hcreated
    · intro hfunded
      cases hstate.symm.trans hfunded
  | terminate hexp =>
    obtain ⟨hstate, -, -, hhas⟩ := hexp
    have hesc := hs.holds (by rw [hstate]; rfl)
    exact { hs with
      escrow := hesc, early := nofun, terminated := fun _ => hhas, settled := nofun,
      created := nofun, funded := nofun }

lemma Sound.new (m : Msg) (provider : Address) (fileID : Bytes32)
    (reward periods duration : Nat) (rulesHash : Bytes32) (collateralRequired : Nat) :
    Sound (newAgreement m provider fileID reward periods duration rulesHash
      collateralRequired) := by
  constructor <;> simp [newAgreement, ContractState.holdsReward]

/-- Agreements are sound throughout a history, and those not created are
blank. -/
lemma Linked.sound :
    ∀ {past : History} {s : Storage}, Linked d past s → ∀ id, Sound (s.agreements id)
      ∧ ((s.agreements id).exists' = false → s.agreements id = emptyAgreement)
  | [], s, h, id => by
    obtain rfl : s = World.init.toStorage := h
    exact ⟨.empty, fun _ => rfl⟩
  | (tx, w) :: past, s, ⟨heff, hlink⟩, id => by
    obtain ⟨hs, hblank⟩ := Linked.sound hlink id
    rcases heff.at id with ⟨-, heq⟩ | ⟨-, hex, hmove⟩ |
      ⟨-, -, provider, fileID, reward, periods, duration, rulesHash, coll, -, -, -, heq⟩
    · rw [heq]; exact ⟨hs, hblank⟩
    · refine ⟨hmove.sound hs, fun hno => ?_⟩
      rw [hmove.exists', hex] at hno
      cases hno
    · rw [heq]
      exact ⟨.new .., fun hno => by simp [newAgreement] at hno⟩

/-! ## A sample deployment

The transactions below are the inputs at which the theorems of this
development are tried out. The stand-in for the hash keeps the nonce in
its argument, and the stand-in for signature recovery reads the signer
from `r`. -/

def sample : Deployment where
  self := 0xe5c
  chainid := 1
  keccak256 bs := BitVec.ofNat 256 (beNat bs + 1)
  ecrecover _ _ r _ := BitVec.ofNat 160 r

/-- A transaction of the publisher, account 1. -/
def byPublisher (value timestamp : Nat) (c : Call) : Tx := ⟨⟨1, value, timestamp, 0⟩, c⟩

/-- A transaction of the provider, account 2. -/
def byProvider (value timestamp : Nat) (c : Call) : Tx := ⟨⟨2, value, timestamp, 0⟩, c⟩

/-- Creates agreement 1 with a reward of 10 and a duration of 100. -/
def txCreate (collateralRequired : Nat) : Tx :=
  byPublisher 0 1000 (.createContract 2 7 10 1 100 0 collateralRequired)

def txFund : Tx := byPublisher 10 1001 (.fundEscrow 1)

def txDeposit : Tx := byProvider 5 1002 (.depositCollateral 1)

def txActivate : Tx := byPublisher 0 1003 (.activateContract 1)

def sampleVoucher (sequence cumulativePayment : Nat) : PaymentState where
  contractID := 1
  publisher := 1
  provider := 2
  sequence := sequence
  period := sequence
  cumulativePayment := cumulativePayment
  lastChallengeID := 0
  validUntil := 5000
  status := 1
  signature := word 1 ++ word 0 ++ [27]

def Call.creates : Call → Bool
  | .createContract .. => true
  | _ => false

/-- Only the first call creates an agreement. -/
lemma run_sample : ∀ txs : List Tx, (∀ tx ∈ txs.tail, tx.call.creates = false) →
    acceptedAll (exec sample) (fun _ _ => True) txs ⟨World.init, []⟩ = some p →
    Run (exec sample) (NoCollision sample) start ⟨p, []⟩
  | [], _, h => by
    cases h
    exact .refl
  | tx :: txs, hlater, h => by
    obtain ⟨s, haccepted, hrest⟩ := Option.bind_eq_some_iff.mp h
    refine (Calls.cons (fun _ _ _ _ _ _ _ _ => rfl) haccepted
      ((calls_of_accepted hrest).restrict ?_)).run []
    intro tx htx _ _ _ _ _ _ _ _ hcall
    have hnot := hlater tx htx
    rw [hcall] at hnot
    cases hnot

end Cipher.Escrow
