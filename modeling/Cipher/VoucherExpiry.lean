import Cipher.OnChainSettlement

/-!
# How long a voucher lasts

A coordinator gives its vouchers a day. The escrow contract takes vouchers for a
day after the deadline of the agreement. So a voucher lasts until then if it was
issued at or after the deadline, and one that was issued before it does not.

The coordinator refuses to submit a voucher in the last second in which the
contract would still take it. That makes no difference only if the contract
refuses the voucher in that second for being late itself.
-/

namespace Cipher.OnChain

open Evm Go Geth Escrow Ethereum Redeem List
open Payment (escrowString addressString PublisherCoordinator SignedOnly voucherIn)

variable {κ : Type} {g : Crypto κ Payment.Error} {d : Deployment}
  {id : Bytes32} {v : Payment.PaymentState} {cfg : Config World Escrow.Error Tx}

/-- One day. -/
def defaultTTL : Int := 24 * 3600 * 1000000000

lemma unixSeconds_add_defaultTTL (t : Int) :
    unixSeconds (t + defaultTTL) = unixSeconds t + 86400 := by
  unfold unixSeconds defaultTTL
  omega

/-! ## The contract's side -/

/-- When the contract refuses the newest voucher of an active agreement. -/
lemma Standing.refused_iff (h : Standing g d c id v cfg)
    (hacceptable : Acceptable (cfg.now.state.agreements id) v) {m : Msg} (hvalue : m.value = 0) :
    (exec d ⟨m, .submitPaymentState id (toSolidity g v)⟩ cfg.now.state).accepted = none
      ↔ v.validUntil.toNat < m.timestamp
        ∨ (cfg.now.state.agreements id).deadline + settlementWindow < m.timestamp
        ∨ 2 ^ 64 ≤ (cfg.now.state.agreements id).deadline + settlementWindow := by
  have hcred : (cfg.now.state.credit m.value).agreements id = cfg.now.state.agreements id := rfl
  have hrange : (Call.submitPaymentState id (toSolidity g v)).inRange = true :=
    toSolidity_inRange g v
  rw [exec_eq_dispatch hrange fun _ => hvalue]
  simp only [dispatch, Escrow.submitPaymentState]
  rw [withAgreement_eq hcred (exists_of_active h.run h.active), if_neg (by simp [h.active])]
  by_cases hfits : (cfg.now.state.agreements id).deadline + settlementWindow < 2 ^ 64
  · rw [add64_eq_some.mpr ⟨hfits, rfl⟩]
    dsimp only
    split
    · rename_i hlate
      exact iff_of_true rfl (.inr (.inl hlate))
    rename_i hwindow
    split
    · rename_i hbad
      refine iff_of_true rfl (.inl ?_)
      by_contra hvalid
      rw [h.voucherOk hacceptable (Nat.not_lt.mp hvalid)] at hbad
      cases hbad
    rename_i hok
    rw [if_neg (by simp [h.redeemable.signed])]
    refine iff_of_false (Option.some_ne_none _) ?_
    rintro (hexpired | hlate | hover)
    · simp only [Bool.not_eq_true', Bool.not_eq_false] at hok
      simp only [Escrow.voucherOk, Bool.and_eq_true, Bool.not_eq_true', decide_eq_false_iff_not]
        at hok
      exact hok.1.2 hexpired
    · exact hwindow hlate
    · exact absurd hfits (Nat.not_lt.mpr hover)
  · have hpanic : add64 (cfg.now.state.agreements id).deadline settlementWindow = none := by
      unfold add64
      rw [if_neg hfits]
    rw [hpanic]
    exact iff_of_true rfl (.inr (.inr (Nat.not_lt.mp hfits)))

/-! ## The coordinator's side -/

/-- When the coordinator says that its latest voucher has expired. -/
lemma submitLatest_expired_iff (hlatest : c.latest (escrowString id) = some v) :
    (submitLatestPaymentStateOnChain now (adapterSubmit g d sender fate) (escrowString id) c w).1
        = .error (.stateExpired v.validUntil (unixSeconds now))
      ↔ v.validUntil ≤ UInt64.ofInt (unixSeconds now) := by
  unfold submitLatestPaymentStateOnChain
  rw [hlatest]
  dsimp only
  split
  · rename_i hexpired
    exact iff_of_true rfl hexpired
  · rename_i hvalid
    refine iff_of_false (fun herr => ?_) hvalid
    unfold submitPaymentState adapterSubmit transact at herr
    split at herr
    · cases herr
    split at herr
    · cases herr
    split at herr
    · cases herr
    split at herr
    · cases herr
    split at herr
    · cases herr
    · cases herr

/-- What a coordinator writes on a voucher. -/
lemma validUntil_eq {cr : Payment.Crypto} {publisherID : Str}
    {coordinator : PublisherCoordinator}
    (hcoordinator : Payment.newPublisherCoordinator publisherID = .ok coordinator)
    {signerKey : List UInt8} {opts : List UInt32} {d₀ disp : Payment.Dispatcher}
    (hnew : Payment.newAvailabilityPaymentDispatcher coordinator signerKey opts = .ok d₀)
    {evs : List Payment.Event} (ht : Payment.Trace cr d₀ evs disp)
    (hunset : ∀ e ∈ evs, ∀ ttl, e.op ≠ .setPaymentStateTTL ttl)
    (hsigns : ∀ e ∈ evs, SignedOnly e) {e : Payment.Event} (he : e ∈ evs) {env : Payment.Env}
    {result : Payment.AvailabilityResult} (hop : e.op.input = some (env, result))
    (hv : voucherIn e = some v) {issued : Nat} (hissued : unixSeconds env.now = issued)
    (hrange : issued + 86400 < 2 ^ 64) : v.validUntil.toNat = issued + 86400 := by
  obtain ⟨env', result', cum, seq, escrow, provider, hop', hsigned⟩ :=
    Payment.voucher_signed ht he hv
  obtain ⟨rfl, rfl⟩ := Prod.mk.inj (Option.some.inj (hop'.symm.trans hop))
  obtain ⟨signature, rfl⟩ := hsigns e he _ _ hop' _ _ hsigned.sign
  have httl : e.before.coordinator.paymentStateTTL = defaultTTL := by
    obtain ⟨post, pre, rfl⟩ := append_of_mem he
    have hpre := Payment.trace_ttl ht.split.1 fun e' he' =>
      hunset e' (mem_append_right _ (mem_cons_of_mem _ he'))
    obtain ⟨-, k, -, rfl⟩ := Payment.new_eq hnew
    unfold Payment.newPublisherCoordinator at hcoordinator
    split at hcoordinator
    · cases hcoordinator
    · cases hcoordinator
      exact hpre
  show (UInt64.ofInt (unixSeconds (env'.now + e.before.coordinator.paymentStateTTL))).toNat = _
  rw [httl, unixSeconds_add_defaultTTL, hissued]
  exact toNat_ofInt hrange

/-- **The lifetime of a voucher.** A voucher that a new coordinator issued in
second `issued` is not expired before the settlement window ends exactly if the
deadline had been reached. The coordinator refuses the newest voucher as expired
only when the contract refuses it too, exactly if the deadline was over (or if the
end of the window is out of range, and the contract refuses every voucher). -/
theorem voucher_lifetime_iff (g : Crypto κ Payment.Error) (d : Deployment) (cr : Payment.Crypto)
    (publisherID : Str) (coordinator : PublisherCoordinator)
    (hcoordinator : Payment.newPublisherCoordinator publisherID = .ok coordinator)
    (signerKey : List UInt8) (opts : List UInt32) (d₀ disp : Payment.Dispatcher)
    (hnew : Payment.newAvailabilityPaymentDispatcher coordinator signerKey opts = .ok d₀)
    (evs : List Payment.Event) (ht : Payment.Trace cr d₀ evs disp)
    (hunset : ∀ e ∈ evs, ∀ ttl, e.op ≠ .setPaymentStateTTL ttl)
    (hsigns : ∀ e ∈ evs, SignedOnly e) (e : Payment.Event) (he : e ∈ evs) (env : Payment.Env)
    (result : Payment.AvailabilityResult) (hop : e.op.input = some (env, result))
    (v : Payment.PaymentState) (hv : voucherIn e = some v) (issued : Nat)
    (hissued : unixSeconds env.now = issued) (hrange : issued + 86400 < 2 ^ 64) (id : Bytes32)
    (cfg : Config World Escrow.Error Tx) (h : Standing g d disp.coordinator id v cfg)
    (hacceptable : Acceptable (cfg.now.state.agreements id) v) :
    let ag := cfg.now.state.agreements id
    (toSolidity g v).validUntil = issued + 86400
    ∧ ((∀ t, issued ≤ t → t ≤ ag.deadline + settlementWindow → t ≤ (toSolidity g v).validUntil)
      ↔ ag.deadline ≤ issued)
    ∧ ((∀ now sender fate m, m.value = 0 → m.timestamp < 2 ^ 64 → unixSeconds now = m.timestamp →
        (submitLatestPaymentStateOnChain now (adapterSubmit g d sender fate) (escrowString id)
          disp.coordinator cfg.now.state).1
          = .error (.stateExpired v.validUntil (unixSeconds now)) →
        (exec d ⟨m, .submitPaymentState id (toSolidity g v)⟩ cfg.now.state).accepted = none)
      ↔ ag.deadline < issued ∨ 2 ^ 64 ≤ ag.deadline + settlementWindow) := by
  intro ag
  have hvalid := validUntil_eq hcoordinator hnew ht hunset hsigns he hop hv hissued hrange
  have hwindow : settlementWindow = 86400 := rfl
  refine ⟨hvalid, ?_, ?_⟩
  · show (∀ t, issued ≤ t → t ≤ ag.deadline + settlementWindow → t ≤ v.validUntil.toNat) ↔ _
    constructor
    · intro hlasts
      by_contra hearly
      -- The last second of the window, and the voucher is gone by then.
      have := hlasts _ (by omega) (Nat.le_refl _)
      omega
    · intro hdeadline t _ ht
      omega
  · constructor
    · intro hagree
      by_contra hearly
      rw [not_or, Nat.not_le] at hearly
      -- In the last second of its life the voucher is refused by one side only.
      have hlast : unixSeconds ((issued + 86400 : Nat) * 1000000000) = (issued + 86400 : Nat) :=
        Int.mul_ediv_cancel _ (by decide)
      have hrefused := hagree _ 0 .lost
        ⟨0, 0, issued + 86400, 0⟩ rfl hrange hlast ((submitLatest_expired_iff h.latest).mpr ?_)
      · rcases (h.refused_iff hacceptable rfl).mp hrefused with hexpired | hlate | hover
        · rw [hvalid] at hexpired
          exact absurd hexpired (Nat.lt_irrefl _)
        · have hlate : ag.deadline + settlementWindow < issued + 86400 := hlate
          omega
        · exact absurd hearly.2 (Nat.not_lt.mpr hover)
      · rw [hlast, UInt64.le_iff_toNat_le, toNat_ofInt hrange, hvalid]
    · intro hlate now sender fate m hvalue htime hnow hexpired
      rw [submitLatest_expired_iff h.latest, hnow, UInt64.le_iff_toNat_le,
        toNat_ofInt htime] at hexpired
      refine (h.refused_iff hacceptable hvalue).mpr ?_
      rcases hlate with hlate | hover
      · have hover : ag.deadline + settlementWindow < m.timestamp := by omega
        exact .inr (.inl hover)
      · exact .inr (.inr hover)

/-! ## Sample vouchers -/

/-- The publisher's coordinator as it is made, and a dispatcher for it. -/
def publisherCoordinator : PublisherCoordinator :=
  ⟨addressString 1, defaultTTL, Payment.newRegistry, fun _ => none⟩

def publisherDispatcher : Payment.Dispatcher :=
  ⟨publisherCoordinator, fun _ => none, List.replicate 64 0, 1⟩

/-- A challenge of contract 9 is passed in second `s`. -/
def passAt (s : Nat) : List Payment.Op :=
  [.registerContractSchedule [9] 1 4 10, .registerProvider [5] 2,
    .dispatchAvailabilityResult ⟨s * 1000000000, sampleSigner.sign sampleGeth⟩
      (Payment.sampleResult 1 .pass)]

def passRun (s : Nat) : List Payment.Event × Payment.Dispatcher :=
  Machine.run (Payment.step Payment.sampleCrypto) publisherDispatcher (passAt s)

/-- The voucher for it. -/
def passVoucher (validUntil : UInt64) : Payment.PaymentState :=
  { redeemVoucher 1 4 with validUntil := validUntil }

set_option maxRecDepth 8192 in
lemma passRun_early : Standing sampleGeth sample (passRun 1050).2.coordinator 1
    (passVoucher 87450) ⟨activated, []⟩ :=
  ⟨activated_run, rfl, ⟨rfl, rfl, by decide, by decide, by decide, rfl, by decide, by decide⟩, rfl⟩

set_option maxRecDepth 8192 in
lemma passRun_late : Standing sampleGeth sample (passRun 2000).2.coordinator 1
    (passVoucher 88400) ⟨activated, []⟩ :=
  ⟨activated_run, rfl, ⟨rfl, rfl, by decide, by decide, by decide, rfl, by decide, by decide⟩, rfl⟩

lemma passRun_signs (s : Nat) : ∀ e ∈ (passRun s).1, SignedOnly e
    ∧ ∀ ttl, e.op ≠ .setPaymentStateTTL ttl := by
  simp only [passRun, passAt, Machine.run, foldl_cons, foldl_nil, forall_mem_cons]
  refine ⟨⟨fun _ _ h => ?_, fun _ h => ?_⟩, ⟨fun _ _ h => ?_, fun _ h => ?_⟩,
    ⟨fun _ _ h => ?_, fun _ h => ?_⟩, by simp⟩
  -- only the dispatch has a signer, and no operation sets a lifetime
  all_goals cases h
  exact fun _ _ => Signer.sign_only

set_option maxRecDepth 8192 in
/-- A voucher of second 2000, when the deadline of second 1103 is over. -/
theorem voucher_lasts : (∀ t, 2000 ≤ t → t ≤ 1103 + settlementWindow →
      t ≤ (toSolidity sampleGeth (passVoucher 88400)).validUntil)
    ∧ (exec sample ⟨⟨2, 0, 88400, 0⟩, .submitPaymentState 1
      (toSolidity sampleGeth (passVoucher 88400))⟩ activated.state).accepted = none := by
  have ht : Payment.Trace Payment.sampleCrypto publisherDispatcher (passRun 2000).1
      (passRun 2000).2 := Machine.trace_run ..
  have hsigns := passRun_signs 2000
  obtain ⟨e, rest, hevs, hop, hv⟩ : ∃ e rest, (passRun 2000).1 = e :: rest
      ∧ e.op.input = some (⟨2000 * 1000000000, sampleSigner.sign sampleGeth⟩,
        Payment.sampleResult 1 .pass)
      ∧ voucherIn e = some (passVoucher 88400) := ⟨_, _, rfl, rfl, rfl⟩
  have he : e ∈ (passRun 2000).1 := by
    rw [hevs]
    exact mem_cons_self ..
  obtain ⟨-, hlasts, hagree⟩ := voucher_lifetime_iff sampleGeth sample Payment.sampleCrypto
    (addressString 1) publisherCoordinator rfl (List.replicate 64 0) [1] publisherDispatcher _ rfl
    _ ht (fun e he => (hsigns e he).2) (fun e he => (hsigns e he).1) e he _ _ hop _ hv 2000 rfl
    (by decide) 1 ⟨activated, []⟩ passRun_late ⟨by decide, by decide⟩
  refine ⟨hlasts.mpr (by decide), hagree.mpr (.inl (by decide)) (88400 * 1000000000) 0 .lost
    ⟨2, 0, 88400, 0⟩ rfl (by decide) rfl rfl⟩

set_option maxRecDepth 8192 in
/-- A voucher of second 1050 has expired when there is still a minute left to
submit it, and in its last second the coordinator refuses to submit it while the
contract would accept it. -/
theorem voucher_expires :
    Payment.newPublisherCoordinator (addressString 1) = .ok publisherCoordinator
    ∧ Payment.Trace Payment.sampleCrypto publisherDispatcher (passRun 1050).1 (passRun 1050).2
    ∧ Standing sampleGeth sample (passRun 1050).2.coordinator 1 (passVoucher 87450) ⟨activated, []⟩
    ∧ (activated.state.agreements 1).deadline + settlementWindow = 87503
    ∧ (exec sample ⟨⟨2, 0, 87451, 0⟩, .submitPaymentState 1
        (toSolidity sampleGeth (passVoucher 87450))⟩ activated.state).accepted = none
    ∧ (submitLatestPaymentStateOnChain (87450 * 1000000000)
        (adapterSubmit sampleGeth sample 1 (.mined 87450 0)) (escrowString 1)
        (passRun 1050).2.coordinator activated.state).1 = .error (.stateExpired 87450 87450)
    ∧ (exec sample ⟨⟨2, 0, 87450, 0⟩, .submitPaymentState 1
        (toSolidity sampleGeth (passVoucher 87450))⟩ activated.state).accepted.isSome = true :=
  ⟨rfl, Machine.trace_run .., passRun_early, rfl, rfl, rfl, rfl⟩

end Cipher.OnChain
