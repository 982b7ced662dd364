import Cipher.EscrowProgress
import Cipher.Ethereum
import Cipher.Vouchers

/-!
# Vouchers from issue to settlement

The off-chain side and the chain put together: a dispatcher issues
vouchers for an escrow agreement, somebody presents some of them, and
the agreement is settled with the last one.

The chain remembers the last voucher presented (`Linked.latest`), and
any voucher issued after it supersedes it, so a submission can only fail
for reasons of time. The settlement then pays what the last voucher is
worth, which is what the passes up to it have earned.
-/

namespace Cipher.Escrow

open Evm List Option

/-! ## The last voucher presented -/

/-- The voucher a call presents for agreement `id`. -/
def voucherFor (id : Bytes32) : Call → Option PaymentState
  | .submitPaymentState id' ps | .disputeFailure id' ps => if id' = id then some ps else none
  | _ => none

/-- The vouchers presented for agreement `id`, newest first. -/
def presented (id : Bytes32) (past : History) : List PaymentState :=
  past.filterMap fun r => voucherFor id r.1.call

variable {id : Bytes32} {ps : PaymentState}

lemma voucherFor_eq_some : voucherFor id c = some ps ↔ c.presents id ps := by
  cases c <;> simp [voucherFor, Call.presents]

lemma presented_cons (id : Bytes32) (tx : Tx) (w : World) (past : History) :
    presented id ((tx, w) :: past) = (voucherFor id tx.call).toList ++ presented id past := by
  unfold presented
  rw [filterMap_cons]
  cases voucherFor id tx.call <;> rfl

/-- What is on record after these vouchers have been presented. -/
def recordOf : List PaymentState → Nat × Nat × Bool
  | [] => (0, 0, false)
  | ps :: _ => (ps.sequence, ps.cumulativePayment, true)

/-- **The record is the last voucher presented.** -/
theorem Linked.latest (id : Bytes32) : ∀ {past : History} {s : Storage}, Linked d past s →
      (s.agreements id).vouchers = recordOf (presented id past)
  | [], s, h => by
    obtain rfl : s = World.init.toStorage := h
    rfl
  | (tx, w) :: past, s, ⟨heff, hlink⟩ => by
    have hold := Linked.latest id hlink
    have hquiet : (∀ ps, ¬tx.call.presents id ps) →
        presented id ((tx, w) :: past) = presented id past := by
      intro hno
      rw [presented_cons, eq_none_iff_forall_ne_some.mpr fun ps hps =>
        hno ps (voucherFor_eq_some.mp hps)]
      rfl
    by_cases hex : (w.agreements id).exists' = true
    · rcases heff.voucher hex with ⟨ps, hps, -, -, -, hrec⟩ | ⟨hno, hrec⟩
      · rw [hrec, presented_cons, voucherFor_eq_some.mpr hps]
        rfl
      · rw [hrec, hold, hquiet hno]
    · -- Nothing is presented for an agreement that does not exist.
      have hblank := (hlink.sound id).2 (by simpa using hex)
      have hnew : (s.agreements id).vouchers = (w.agreements id).vouchers := by
        rcases heff.at id with ⟨-, heq⟩ | ⟨-, hex', -⟩ |
          ⟨-, -, provider, fileID, reward, periods, duration, rulesHash, coll, -, -, -, heq⟩
        · rw [heq]
        · exact absurd hex' hex
        · rw [heq, hblank]
          rfl
      rw [hnew, hold, hquiet]
      rintro ps hps
      rcases heff.at id with ⟨hne, -⟩ | ⟨-, hex', -⟩ | ⟨hnone, -⟩
      · exact hne (by rcases hps with hps | hps <;> rw [hps] <;> rfl)
      · exact hex hex'
      · rcases hps with hps | hps <;> rw [hps] at hnone <;> cases hnone

/-! ## After a settlement -/

variable {d : Deployment} {m : Msg}

lemma Move.from_settled (h : Move d m c ag ag') (hstate : ag.state = .settled) (id : Bytes32) :
    ag'.state = .settled ∧ rewardPayouts id ag' = rewardPayouts id ag := by
  cases h with
  | giveBack => exact ⟨hstate, by simp [rewardPayouts, hstate]⟩
  | refund _ hstate' => rcases hstate' with h | h | ⟨h, -⟩ <;> rw [h] at hstate <;> cases hstate
  | terminate hexp => rw [hexp.1] at hstate; cases hstate
  | _ => simp_all

/-- A settled agreement stays settled. -/
lemma Linked.settled (id : Bytes32) :
    ∀ {post : History} {s : Storage}, Linked d (post ++ (tx, w) :: pre) s →
      ∀ {ts : List Transfer}, (∀ s', Effect d tx w.toStorage s' →
        (s'.agreements id).exists' = true ∧ (s'.agreements id).state = .settled
          ∧ rewardPayouts id (s'.agreements id) = ts) →
      (s.agreements id).exists' = true ∧ (s.agreements id).state = .settled
        ∧ rewardPayouts id (s.agreements id) = ts
  | [], s, h, ts, hset => hset s h.1
  | (tx', w') :: post, s, ⟨heff, hlink⟩, ts, hset => by
    obtain ⟨hex, hstate, hpay⟩ := Linked.settled id hlink hset
    refine ⟨(heff.terms hex).1, ?_⟩
    rcases heff.at id with ⟨-, heq⟩ | ⟨-, -, hmove⟩ | ⟨-, hno, -⟩
    · rw [heq]
      exact ⟨hstate, hpay⟩
    · obtain ⟨hstate', hpay'⟩ := hmove.from_settled hstate id
      exact ⟨hstate', hpay'.trans hpay⟩
    · rw [hex] at hno
      cases hno

lemma Move.settled (h : Move d m (.settleContract id ps) ag ag') :
    ag' = { ag with escrowBalance := 0, state := .settled } := by
  cases h with
  | settle => rfl

/-- The two transfers of a settlement that pays the provider `n`. -/
def settlement (id : Bytes32) (ag : EscrowAgreement) (n : Nat) : List Transfer :=
  nonzero [⟨id, .providerPayment, ag.provider, n⟩,
    ⟨id, .publisherRefund, ag.publisher, ag.reward - n⟩]

/-- Once a settlement is over, the reward has gone where it said,
whatever the payees did in between and whatever happened since. -/
lemma Inv.settlement (h : Inv d [] p)
    (ht : Took p tx s s') (hcall : tx.call = .settleContract id ps) :
    (p.state.ledger.filter (rewardOf id)).Perm
      (settlement id (s.agreements id) (s.agreements id).latestCumulativePayment) := by
  obtain ⟨post, w, pre, hpast, rfl, -⟩ := ht
  have hlink := h.linked
  have hpaid := h.paid.filter (rewardOf id)
  rw [append_nil, hlink.reward id] at hpaid
  rw [hpast] at hlink
  have hset := hlink.settled id fun s' heff => by
    rcases heff.at id with ⟨hne, -⟩ | ⟨-, hex, hmove⟩ | ⟨hnone, -⟩
    · exact absurd (by rw [hcall]; rfl) hne
    · rw [hcall] at hmove
      rw [hmove.settled]
      exact ⟨hex, rfl, rfl⟩
    · rw [hcall] at hnone
      cases hnone
  rw [hset.2.2] at hpaid
  exact hpaid

/-- A voucher that is in order is accepted, unless the end of the
settlement window is out of the range of `uint64`. -/
lemma submit_done_iff {w : World} (hrange : ps.inRange = true) (hv : m.value = 0)
    (hex : (w.agreements id).exists' = true) (hstate : (w.agreements id).state = .active)
    (hwindow : m.timestamp ≤ (w.agreements id).deadline + settlementWindow)
    (hok : voucherOk m id (w.agreements id) ps = true)
    (hsig : recoverPaymentSigner d ps = (w.agreements id).publisher) :
    (∃ w', exec d ⟨m, .submitPaymentState id ps⟩ w = .done w')
      ↔ (w.agreements id).deadline + settlementWindow < 2 ^ 64 := by
  have hcred : (w.credit m.value).agreements id = w.agreements id := rfl
  have hin : (Call.submitPaymentState id ps).inRange = true := hrange
  rw [exec_eq_dispatch hin fun _ => hv]
  simp only [dispatch, submitPaymentState]
  rw [withAgreement_eq hcred hex, if_neg (by simp [hstate])]
  by_cases hfits : (w.agreements id).deadline + settlementWindow < 2 ^ 64
  · rw [add64_eq_some.mpr ⟨hfits, rfl⟩]
    simp only
    rw [if_neg (by omega), if_neg (by simp [hok]), if_neg (by simp [hsig])]
    exact ⟨fun _ => hfits, fun _ => ⟨_, rfl⟩⟩
  · have hpanic : add64 (w.agreements id).deadline settlementWindow = none := by
      unfold add64
      rw [if_neg hfits]
    rw [hpanic]
    refine ⟨?_, fun h => absurd h hfits⟩
    rintro ⟨w', hdone⟩
    cases hdone

end Cipher.Escrow

namespace Cipher.Redeem

open Evm Go Geth Escrow Ethereum
open Payment (issued escrowString addressString Served SignedFor OnlySigns Supersedes)

variable {κ : Type}

/-- Vouchers for an agreement and what has become of them: a dispatcher
has issued vouchers for contract `cid` on the terms `sch`, with a signer
that holds the key of the publisher, for results that all name the
provider; in `c` the agreement is active, and the vouchers presented for
it so far are `sub`, in the order of issue. -/
structure Redemption (g : Crypto κ Payment.Error) (d : Deployment) (signer : Signer κ)
    (cid : Str) (sch : Payment.PaymentSchedule) (evs : List Payment.Event)
    (c : Config World Escrow.Error Tx) (sub : List Payment.PaymentState) : Prop where
  issuer : ∃ cr coordinator signerKey opts d₀ disp,
    Payment.newAvailabilityPaymentDispatcher coordinator signerKey opts = .ok d₀
      ∧ Payment.Trace cr d₀ evs disp ∧ disp.schedules cid = some sch
  run : Run (exec d) (NoCollision d) start c
  served : ∀ e ∈ evs, Served (signer.sign g) cid
    (c.now.state.agreements sch.escrowContractID).provider e
  signer : g.pubkeyToAddress signer.privateKey
    = (c.now.state.agreements sch.escrowContractID).publisher
  reward : sch.maxPayment.toNat ≤ (c.now.state.agreements sch.escrowContractID).reward
  active : (c.now.state.agreements sch.escrowContractID).state = .active
  some_issued : sub.Sublist (issued cid evs)
  submitted : sub.map (convertPaymentStateToSolidity g sch.escrowContractID)
    = (presented sch.escrowContractID c.now.past).reverse.map .ok

section Redemption

variable {g : Crypto κ Payment.Error} {d : Deployment} {signer : Signer κ} {cid : Str}
  {sch : Payment.PaymentSchedule} {evs : List Payment.Event} {c : Config World Escrow.Error Tx}
  {sub : List Payment.PaymentState} {v : Payment.PaymentState}

lemma Redemption.vouched (h : Redemption g d signer cid sch evs c sub) :
    Payment.Vouched (SignedFor (signer.sign g) sch.escrowContractID
        (c.now.state.agreements sch.escrowContractID).provider) sch.maxPayment.toNat
      sch.paymentPerPass.toNat (Payment.dispatched cid evs) := by
  obtain ⟨cr, coordinator, signerKey, opts, d₀, disp, hnew, ht, hs⟩ := h.issuer
  have honly : OnlySigns (signer.sign g) := fun _ _ => Signer.sign_only
  exact Payment.trace_vouched honly hnew ht h.served hs

/-- Vouchers supersede each other in the order of issue. -/
lemma Redemption.ordered (h : Redemption g d signer cid sch evs c sub) :
    (issued cid evs).Pairwise fun u v => Supersedes v u :=
  List.pairwise_reverse.mpr h.vouched.ordered

/-- An issued voucher as the contract sees it. -/
structure Redeemable (g : Crypto κ Payment.Error) (d : Deployment) (ag : EscrowAgreement)
    (id : Bytes32) (v : Payment.PaymentState) : Prop where
  contractID : v.contractID = escrowString id
  converts : convertPaymentStateToSolidity g id v = .ok (toSolidity g v)
  id_eq : (toSolidity g v).contractID = id
  publisher : (toSolidity g v).publisher = ag.publisher
  provider : (toSolidity g v).provider = ag.provider
  signed : recoverPaymentSigner d (toSolidity g v) = ag.publisher
  reward : v.cumulativePayment.toNat ≤ ag.reward
  positive : 0 < v.sequence.toNat

lemma Redemption.redeemable (h : Redemption g d signer cid sch evs c sub) (hg : Agrees g d)
    (hfor : signer.For d) (hv : v ∈ issued cid evs) :
    Redeemable g d (c.now.state.agreements sch.escrowContractID) sch.escrowContractID v := by
  obtain ⟨⟨⟨state, hsign⟩, hid, hprov⟩, hpos, -, hcum⟩ :=
    h.vouched.bound v (List.mem_reverse.mp hv)
  obtain ⟨hconv, hsigner, hpub⟩ := sign_redeemable hg hfor hsign
  have hhash : hexToHash v.contractID = sch.escrowContractID := by
    rw [hid]
    exact hexToHash_hexString _
  have haddr : hexToAddress v.provider
      = (c.now.state.agreements sch.escrowContractID).provider := by
    rw [hprov]
    exact hexToAddress_hexString _
  have hmax := h.reward
  rw [hhash] at hconv
  exact ⟨hid, hconv, hhash, hpub.trans h.signer, haddr, hsigner.trans h.signer, by omega, hpos⟩

lemma Redeemable.voucherCall {ag : EscrowAgreement} {id : Bytes32}
    (h : Redeemable g d ag id v) (call : Bytes32 → PaymentState → Call) :
    Ethereum.voucherCall g call (escrowString id) v = .ok (call id (toSolidity g v)) := by
  have hhash : hexToHash (escrowString id) = id := hexToHash_hexString id
  unfold Ethereum.voucherCall
  rw [if_neg (by simp [h.contractID]), hhash]
  simp only
  rw [h.converts]

lemma toSolidity_inRange (g : Crypto κ Payment.Error) (v : Payment.PaymentState) :
    (toSolidity g v).inRange = true := by
  have hcum : v.cumulativePayment.toNat < 2 ^ 256 :=
    v.cumulativePayment.toNat_lt.trans (by decide)
  simp only [PaymentState.inRange, Bool.and_eq_true]
  exact ⟨⟨⟨⟨decide_eq_true v.sequence.toNat_lt, decide_eq_true v.period.toNat_lt⟩,
    decide_eq_true hcum⟩, decide_eq_true v.validUntil.toNat_lt⟩, decide_eq_true (UInt8.toNat_lt _)⟩

section

variable (h : Redemption g d signer cid sch evs c sub) (hg : Agrees g d) (hfor : signer.For d)

include h hg hfor

/-- What the agreement has on record is the last voucher of `sub`. -/
lemma Redemption.latest : (c.now.state.agreements sch.escrowContractID).vouchers
      = recordOf ((sub.getLast?.map (toSolidity g)).toList) := by
  obtain ⟨pend, hinv, -⟩ := run_ok h.run
  rw [hinv.linked.latest _]
  have hsubmitted := congrArg List.reverse h.submitted
  rw [← List.map_reverse, ← List.map_reverse, List.reverse_reverse] at hsubmitted
  rw [← List.head?_reverse]
  have hmem : ∀ u ∈ sub.reverse, u ∈ issued cid evs :=
    fun u hu => h.some_issued.subset (List.mem_reverse.mp hu)
  cases hsub : sub.reverse with
  | nil =>
    rw [hsub, List.map_nil, eq_comm, List.map_eq_nil_iff] at hsubmitted
    rw [hsubmitted]
    rfl
  | cons u rest =>
    rw [hsub] at hsubmitted hmem
    obtain ⟨ps, past, hpast, hps, -⟩ := List.map_eq_cons_iff.mp hsubmitted.symm
    have hconv := (h.redeemable hg hfor (hmem u (List.mem_cons_self ..))).converts
    rw [hconv] at hps
    rw [hpast, Except.ok.inj hps]
    rfl

/-- A voucher issued after those of `sub` is the next one for the
agreement. -/
lemma Redemption.next (hv : (sub ++ [v]).Sublist (issued cid evs)) {m : Msg}
    (hvalid : m.timestamp ≤ v.validUntil.toNat) :
    voucherOk m sch.escrowContractID (c.now.state.agreements sch.escrowContractID)
      (toSolidity g v) = true := by
  have hlatest := h.latest hg hfor
  have hmem := List.mem_append_right sub (List.mem_singleton_self v)
  have hred := h.redeemable hg hfor (hv.subset hmem)
  have hnext : (c.now.state.agreements sch.escrowContractID).latestSequence < v.sequence.toNat
      ∧ (c.now.state.agreements sch.escrowContractID).latestCumulativePayment
        ≤ v.cumulativePayment.toNat := by
    cases hlast : sub.getLast? with
    | none =>
      simp only [hlast, Option.map_none, Option.toList_none, recordOf, EscrowAgreement.vouchers,
        Prod.mk.injEq] at hlatest
      exact ⟨by rw [hlatest.1]; exact hred.positive, by rw [hlatest.2.1]; exact Nat.zero_le _⟩
    | some u =>
      simp only [hlast, Option.map_some, Option.toList_some, recordOf, EscrowAgreement.vouchers,
        Prod.mk.injEq, toSolidity] at hlatest
      have hpair := (List.pairwise_append.mp (h.ordered.sublist hv)).2.2 u
        (List.mem_of_getLast? hlast) v (List.mem_singleton_self v)
      rw [hlatest.1, hlatest.2.1]
      exact hpair
  have hreward := hred.reward
  simp only [voucherOk, isNextPaymentState, Bool.and_eq_true, decide_eq_true_eq,
    Bool.not_eq_true', decide_eq_false_iff_not]
  refine ⟨⟨⟨⟨hred.id_eq, hred.publisher⟩, hred.provider⟩, ?_⟩, ⟨hnext.1, hnext.2⟩, hreward⟩
  exact Nat.not_lt.mpr hvalid

/-- A settlement with the last voucher of `sub` is a move of the
agreement, and pays what the voucher is worth. -/
lemma Redemption.settles (hlast : sub.getLast? = some v) (m : Msg) :
    let ag := c.now.state.agreements sch.escrowContractID
    ag.escrowBalance = ag.reward
      ∧ ag.latestCumulativePayment = v.cumulativePayment.toNat
      ∧ Move d m (.settleContract sch.escrowContractID (toSolidity g v)) ag
          { ag with escrowBalance := 0, state := .settled } := by
  intro ag
  obtain ⟨pend, hinv, -⟩ := run_ok h.run
  have hs := (hinv.linked.sound sch.escrowContractID).1
  have hesc : ag.escrowBalance = ag.reward := hs.holds (by rw [h.active]; rfl)
  have hlatest := h.latest hg hfor
  simp only [hlast, Option.map_some, Option.toList_some, recordOf, EscrowAgreement.vouchers,
    Prod.mk.injEq] at hlatest
  have hred := h.redeemable hg hfor (h.some_issued.subset (List.mem_of_getLast? hlast))
  refine ⟨hesc, hlatest.2.1, .settle h.active hlatest.2.2 hlatest.1.symm hlatest.2.1.symm
    hred.id_eq ?_⟩
  exact hesc ▸ hs.cum

end

end Redemption

/-- **Vouchers redeem.** A voucher issued after those presented so far,
submitted in time, is accepted exactly if the end of the settlement
window is a `uint64`. A settlement with the last voucher presented goes
through if the parties take their money, and however it goes, once it is
in effect and over it has paid what the first `i + 1` passes have earned
to the provider and the rest of the reward to the publisher, where the
voucher is the `i`-th that was issued. -/
theorem vouchers_redeem_iff (g : Crypto κ Payment.Error) (d : Deployment) (hg : Agrees g d)
    (signer : Signer κ) (hfor : signer.For d) (cid : Str) (sch : Payment.PaymentSchedule)
    (evs : List Payment.Event) (c : Config World Escrow.Error Tx)
    (sub : List Payment.PaymentState) (h : Redemption g d signer cid sch evs c sub) :
    let id := sch.escrowContractID
    let ag := c.now.state.agreements id
    (∀ v m, (sub ++ [v]).Sublist (issued cid evs) → m.value = 0 →
        m.timestamp ≤ ag.deadline + settlementWindow → m.timestamp ≤ v.validUntil.toNat →
        ∃ call, Ethereum.submitPaymentState g (escrowString id) v = .ok call
          ∧ ((∃ w, exec d ⟨m, call⟩ c.now.state = .done w)
            ↔ ag.deadline + settlementWindow < 2 ^ 64))
      ∧ (∀ v i m, sub.getLast? = some v → (issued cid evs)[i]? = some v → m.value = 0 →
        ∃ call, Ethereum.settleContract g (escrowString id) v = .ok call
          ∧ let n := min sch.maxPayment.toNat (sch.paymentPerPass.toNat * (i + 1))
            (Outside d ag → ∃ q, Calls (exec d) (NoCollision d) c.now [⟨m, call⟩] q
              ∧ q.state.ledger = (settlement id ag n).reverse ++ c.now.state.ledger)
            ∧ ∀ c' s', Run (exec d) (NoCollision d) start c' → c'.Idle →
              Took c'.now ⟨m, call⟩ c.now.state.toStorage s' →
              (c'.now.state.ledger.filter (rewardOf id)).Perm (settlement id ag n)) := by
  intro id ag
  obtain ⟨pend, hinv, -⟩ := run_ok h.run
  obtain ⟨hsound, hblank⟩ := hinv.linked.sound id
  have hex : ag.exists' = true := by
    by_contra hno
    have hactive := h.active
    rw [hblank (by simpa using hno)] at hactive
    cases hactive
  refine ⟨fun v m hsub hv hwindow hvalid => ?_, fun v i m hlast hissued hv => ?_⟩
  · have hred := h.redeemable hg hfor
      (hsub.subset (List.mem_append_right _ (List.mem_singleton_self v)))
    refine ⟨.submitPaymentState id (toSolidity g v), ?_, ?_⟩
    · exact hred.voucherCall _
    · exact submit_done_iff (toSolidity_inRange g v) hv hex h.active hwindow
        (h.next hg hfor hsub hvalid) hred.signed
  · have hred := h.redeemable hg hfor (h.some_issued.subset (List.mem_of_getLast? hlast))
    obtain ⟨hesc, hcum, hmove⟩ := h.settles hg hfor hlast m
    have hamount := h.vouched.amount hissued
    refine ⟨.settleContract id (toSolidity g v), ?_, ?_, ?_⟩
    · exact hred.voucherCall _
    · intro hout
      have hwalk : Walk d id ag [⟨m, .settleContract id (toSolidity g v)⟩] _ _ :=
        .cons hmove rfl (toSolidity_inRange g v) hv (.nil _)
      obtain ⟨q, hcalls, -, hledger⟩ := hwalk.calls h.run rfl hex hout
      refine ⟨q, hcalls, ?_⟩
      rw [hledger, List.append_nil]
      simp only [payouts]
      rw [hesc, hcum, hamount]
      rfl
    · intro c' s' hr' hidle htook
      have hperm := ((run_ok hr').idle hidle).settlement htook rfl
      rw [hcum, hamount] at hperm
      exact hperm

/-! ## A sample redemption -/

/-- Keys of the publisher, account 1, and signatures with the signer in
`r`, as `sample` recovers it. -/
def sampleGeth : Crypto Unit Payment.Error where
  keccak256Hash := sample.keccak256
  pubkeyToAddress _ := 1
  pack args := .ok (abiEncode (args.map (·.value)))
  sign _ _ := .ok (word 1 ++ word 0 ++ [0])

lemma sampleGeth_agrees : Agrees sampleGeth sample where
  hash _ := rfl
  packs _ _ := rfl
  signs _ _ sig h := by
    cases h
    refine ⟨word 1, word 0, 0, rfl, rfl, rfl, .inl rfl, by decide, ?_⟩
    show BitVec.ofNat 160 (beNat (word 1)) = 1
    decide

def sampleSigner : Signer Unit := ⟨(), 0xe5c, 1⟩

/-- The signer, at second 5000. -/
def redeemEnv : Payment.Env := ⟨5000 * 1000000000, sampleSigner.sign sampleGeth⟩

def redeemCoordinator : Payment.PublisherCoordinator :=
  { Payment.sampleCoordinator with publisherID := addressString 1 }

def redeemDispatcher : Payment.Dispatcher :=
  { Payment.sampleDispatcher with coordinator := redeemCoordinator }

/-- Contract 9 pays 4 for each pass, up to 10. Peer 5 is the provider,
account 2. -/
def redeemOps : List Payment.Op :=
  [.registerContractSchedule [9] 1 4 10, .registerProvider [5] 2,
    .dispatchAvailabilityResult redeemEnv (Payment.sampleResult 1 .pass),
    .dispatchAvailabilityResult redeemEnv (Payment.sampleResult 2 .fail),
    .dispatchAvailabilityResult redeemEnv (Payment.sampleResult 3 .pass)]

def redeemRun : List Payment.Event × Payment.Dispatcher :=
  Machine.run (Payment.step Payment.sampleCrypto) redeemDispatcher redeemOps

/-- The voucher of a dispatch of `redeemOps`; the challenges are numbered
like the dispatches. -/
def redeemVoucher (sequence : UInt8) (cumulativePayment : UInt64) : Payment.PaymentState where
  contractID := escrowString 1
  publisher := addressString 1
  provider := addressString 2
  sequence := sequence.toUInt64
  period := 1
  cumulativePayment := cumulativePayment
  lastChallengeID := [sequence]
  validUntil := 5001
  status := .pass
  publisherSignature := word 1 ++ word 0 ++ [27]

set_option maxRecDepth 8192

lemma redeemRun_issued : issued [9] redeemRun.1 = [redeemVoucher 1 4, redeemVoucher 3 8] := rfl

lemma redeemRun_schedule : ∃ sch, redeemRun.2.schedules [9] = some sch
    ∧ sch.escrowContractID = 1 ∧ sch.maxPayment = 10 ∧ sch.paymentPerPass = 4 :=
  ⟨_, rfl, rfl, rfl, rfl⟩

lemma redeemRun_served : ∀ e ∈ redeemRun.1, Served (sampleSigner.sign sampleGeth) [9] 2 e := by
  have hregister : ∀ op d reply, (∀ env result, op ≠ .dispatchAvailabilityResult env result) →
      Served (sampleSigner.sign sampleGeth) [9] 2 ⟨op, d, reply⟩ :=
    fun op d reply hop env result heq => absurd heq (hop env result)
  simp only [redeemRun, redeemOps, Machine.run, List.foldl_cons, List.foldl_nil,
    List.forall_mem_cons]
  refine ⟨?_, ?_, ?_, hregister _ _ _ nofun, hregister _ _ _ nofun, by simp⟩
  all_goals
    intro env result hop _
    cases hop
    exact ⟨rfl, rfl⟩

/-- The sample run redeems with whatever happens on the chain, as long as
agreement 1 is the one it was made for. -/
lemma redeemRun_redemption {sub : List Payment.PaymentState}
    (hr : Run (exec sample) (NoCollision sample) start c)
    (hprovider : (c.now.state.agreements 1).provider = 2)
    (hpublisher : (c.now.state.agreements 1).publisher = 1)
    (hreward : (c.now.state.agreements 1).reward = 10)
    (hactive : (c.now.state.agreements 1).state = .active)
    (hsub : sub.Sublist [redeemVoucher 1 4, redeemVoucher 3 8])
    (hsubmitted : sub.map (convertPaymentStateToSolidity sampleGeth 1)
      = (presented 1 c.now.past).reverse.map .ok) :
    ∃ sch, sch.escrowContractID = 1 ∧ sch.maxPayment = 10 ∧ sch.paymentPerPass = 4
      ∧ Redemption sampleGeth sample sampleSigner [9] sch redeemRun.1 c sub := by
  obtain ⟨sch, hsch, hid, hmax, hper⟩ := redeemRun_schedule
  refine ⟨sch, hid, hmax, hper, ?_⟩
  constructor
  case issuer =>
    exact ⟨_, redeemCoordinator, List.replicate 64 0, [1], redeemDispatcher, _, rfl,
      Machine.trace_run .., hsch⟩
  case run => exact hr
  case served => rw [hid, hprovider]; exact redeemRun_served
  case signer => rw [hid, hpublisher]; rfl
  case reward => rw [hid, hreward, hmax]; decide
  case active => rw [hid]; exact hactive
  case some_issued => rw [redeemRun_issued]; exact hsub
  case submitted => rw [hid]; exact hsubmitted

/-- After the first voucher has been submitted, the second is accepted, and
a settlement with the first pays 4 of 10. -/
theorem vouchers_redeem_sample :
    ∃ sch c, Redemption sampleGeth sample sampleSigner [9] sch redeemRun.1 c [redeemVoucher 1 4]
      ∧ (∃ call w, Ethereum.submitPaymentState sampleGeth (escrowString 1) (redeemVoucher 3 8)
          = .ok call ∧ exec sample ⟨⟨2, 0, 1005, 0⟩, call⟩ c.now.state = .done w)
      ∧ ∃ call q, Ethereum.settleContract sampleGeth (escrowString 1) (redeemVoucher 1 4) = .ok call
          ∧ Calls (exec sample) (NoCollision sample) c.now [⟨⟨2, 0, 1005, 0⟩, call⟩] q
          ∧ q.state.ledger = [⟨1, .publisherRefund, 1, 6⟩, ⟨1, .providerPayment, 2, 4⟩] := by
  have hrun : Run (exec sample) (NoCollision sample) start _ :=
    run_sample [txCreate 0, txFund, txActivate, byProvider 0 1004
        (.submitPaymentState 1 (toSolidity sampleGeth (redeemVoucher 1 4)))] (by decide) rfl
  obtain ⟨sch, hid, hmax, hper, h⟩ := redeemRun_redemption hrun rfl rfl rfl rfl
    (List.Sublist.cons_cons _ (List.nil_sublist _)) rfl
  obtain ⟨hsubmit, hsettle⟩ :=
    vouchers_redeem_iff _ sample sampleGeth_agrees _ ⟨rfl, rfl⟩ [9] sch _ _ _ h
  simp only [hid, hmax, hper] at hsubmit hsettle
  obtain ⟨call, hcall, hdone⟩ := hsubmit _ ⟨2, 0, 1005, 0⟩
    (by rw [redeemRun_issued]; exact List.Sublist.refl _) rfl (by decide) (by decide)
  obtain ⟨w, hw⟩ := hdone.mpr (by decide)
  obtain ⟨call', hcall', hpays, -⟩ := hsettle _ 0 ⟨2, 0, 1005, 0⟩ rfl
    (by rw [redeemRun_issued]; rfl) rfl
  obtain ⟨q, hq, hledger⟩ := hpays ⟨by decide, by decide⟩
  exact ⟨sch, _, h, ⟨call, w, hcall, hw⟩, call', q, hcall', hq, hledger⟩

/-- With a duration close to `2 ^ 64` the agreement becomes active, and no
voucher is ever accepted: the end of the settlement window overflows. -/
theorem voucher_rejected :
    ∃ sch c, Redemption sampleGeth sample sampleSigner [9] sch redeemRun.1 c []
      ∧ ∃ call,
        Ethereum.submitPaymentState sampleGeth (escrowString 1) (redeemVoucher 1 4) = .ok call
        ∧ 1004 ≤ (c.now.state.agreements 1).deadline ∧ 1004 ≤ (redeemVoucher 1 4).validUntil.toNat
        ∧ exec sample ⟨⟨2, 0, 1004, 0⟩, call⟩ c.now.state = .revert .panic := by
  have hrun : Run (exec sample) (NoCollision sample) start _ :=
    run_sample [byPublisher 0 1000 (.createContract 2 7 10 1 (2 ^ 64 - 2000) 0 0), txFund,
      txActivate] (by decide) rfl
  obtain ⟨sch, -, -, -, h⟩ := redeemRun_redemption hrun rfl rfl rfl rfl
    (List.nil_sublist _) rfl
  exact ⟨sch, _, h, .submitPaymentState .., rfl, by decide, by decide, rfl⟩

/-! ## The bytes of a voucher -/

/-- **Go and Solidity hash the same voucher.** What `paymentStateDigest` packs for
a voucher is what the contract encodes for the converted one. The hash of
it is then prefixed in the same way on both sides. -/
theorem voucher_bytes_agree {κ : Type} (g : Crypto κ Payment.Error) (d : Deployment)
    (hpacks : g.PacksAbi) (hkeccak : ∀ data, g.keccak256Hash data = d.keccak256 data)
    (state : Payment.PaymentState) (digest : Bytes32) (ps : PaymentState)
    (hdigest : Ethereum.paymentStateDigest g d.self d.chainid state = .ok digest)
    (hconvert : convertPaymentStateToSolidity g (hexToHash state.contractID) state = .ok ps) :
    (∃ packed, g.pack (paymentStateArguments g d.self d.chainid state) = .ok packed
        ∧ digest = g.keccak256Hash packed
        ∧ packed = paymentStateBytes d ps
        ∧ Escrow.paymentStateDigest d ps = d.keccak256 packed)
      ∧ textMessage (word digest.toNat) = signedMessage (Escrow.paymentStateDigest d ps)
      ∧ textHash g (word digest.toNat)
        = word (signedMessageHash d (Escrow.paymentStateDigest d ps)).toNat := by
  obtain rfl := convertPaymentStateToSolidity_ok hconvert
  obtain ⟨packed, hpacked, rfl, -, -⟩ := paymentStateDigest_ok hdigest
  have hbytes : packed = paymentStateBytes d (toSolidity g state) := by
    rw [pack_paymentStateArguments hpacks] at hpacked
    exact (Except.ok.inj hpacked).symm
  have hhash : g.keccak256Hash packed = Escrow.paymentStateDigest d (toSolidity g state) := by
    rw [hkeccak, hbytes]
    rfl
  refine ⟨⟨packed, hpacked, rfl, hbytes, ?_⟩, ?_, ?_⟩
  · rw [hbytes]
    rfl
  · rw [hhash, textMessage_eq]
  · rw [hhash, textHash_eq hkeccak]

/-- The first voucher of `redeemOps` on agreement 1. -/
theorem voucher_bytes_first :
    ∃ digest, Ethereum.paymentStateDigest sampleGeth 0xe5c 1 (redeemVoucher 1 4) = .ok digest
      ∧ textMessage (word digest.toNat) = signedMessage
        (Escrow.paymentStateDigest sample (toSolidity sampleGeth (redeemVoucher 1 4))) := by
  have hagree := voucher_bytes_agree sampleGeth sample (fun _ _ => rfl) (fun _ => rfl)
    (redeemVoucher 1 4) _ _ rfl rfl
  exact ⟨_, rfl, hagree.2.1⟩

end Cipher.Redeem
