import Cipher.FailRecords

/-!
# Streaks of failures

Which lists of fail records `VerifyFailStreak` accepts: of the records a
dispatcher issued for one contract, those that were dispatched one after the
other and name one provider (`fail_streak_exact`). The evidence that comes with
a slash-eligible result consists of such records, but each names the provider
of its own result. It stands up if the results of a contract all name the same
provider, and not otherwise (`slash_evidence_iff`).
-/

namespace Cipher.Payment

open Evm Go List

/-! ## Tampering -/

/-- A record in which something other than the time is altered: what it claims,
under the signature it has, or the signature. -/
inductive Tampered (rec : FailRecord) : FailRecord → Prop where
  | claim (hclaim : ¬rec.SameClaim rec')
      (hsignature : rec'.publisherSignature = rec.publisherSignature) : Tampered rec rec'
  | signature (hne : signature ≠ rec.publisherSignature) :
      Tampered rec { rec with publisherSignature := signature }

/-- Signatures cannot be forged: whoever presents `rec` has the signature from
one of the records that were signed, if it is good for it. Different digests
have different signatures, and no two of the payloads have the same digest. -/
structure Unforgeable (sc : Scheme) (signerKey : List UInt8) (signed : List FailRecord)
    (rec : FailRecord) : Prop where
  genuine : sc.ed25519Verify (sc.publicKey signerKey) (failRecordDigest sc rec)
      rec.publisherSignature = true →
    ∃ s ∈ signed, failRecordDigest sc s = failRecordDigest sc rec
      ∧ s.publisherSignature = rec.publisherSignature
  distinct : ∀ s ∈ signed, ∀ t ∈ signed, s.publisherSignature = t.publisherSignature →
    failRecordDigest sc s = failRecordDigest sc t
  collisionFree : ∀ s ∈ signed, ∀ t ∈ rec :: signed,
    failRecordDigest sc s = failRecordDigest sc t →
      buildFailRecordPayload s = buildFailRecordPayload t

/-- All records name the same provider. -/
def OneProvider (records : List FailRecord) : Prop :=
  ∀ rec ∈ records, ∀ rec' ∈ records, rec.providerEthAddress = rec'.providerEthAddress

lemma oneProvider_iff : OneProvider records
      ↔ records.IsChain fun prev rec => rec.providerEthAddress = prev.providerEthAddress := by
  have htrans : IsTrans FailRecord fun prev rec =>
      rec.providerEthAddress = prev.providerEthAddress := ⟨fun _ _ _ h h' => h'.trans h⟩
  have hsymm : Std.Symm fun prev rec : FailRecord =>
      rec.providerEthAddress = prev.providerEthAddress := ⟨fun _ _ => Eq.symm⟩
  rw [isChain_iff_pairwise]
  constructor
  · exact fun h => pairwise_of_forall_mem_list fun rec hrec rec' hrec' => h rec' hrec' rec hrec
  · intro h rec hrec rec' hrec'
    have hall := h.forall_of_forall (by simp)
    exact hall hrec' hrec

section Streaks

variable {sc : Scheme} {signerKey : List UInt8} {coordinator : PublisherCoordinator}
  {opts : List UInt32} {d₀ d : Dispatcher} {evs : List Event} {cid : Str} {rec : FailRecord}

section

variable (hnew : newAvailabilityPaymentDispatcher coordinator signerKey opts = .ok d₀)
  (ht : Trace sc.toCrypto d₀ evs d)

include hnew ht

/-- A record that is accepted is one that was signed, but for its time. -/
lemma sameClaim_of_verify (hsized : rec.Sized)
    (hunforgeable : Unforgeable sc signerKey (failRecords evs) rec)
    (h : verifyFailRecord sc rec (sc.publicKey signerKey) = true) :
    ∃ s ∈ failRecords evs, s.SameClaim rec ∧ s.publisherSignature = rec.publisherSignature
      ∧ failRecordDigest sc s = failRecordDigest sc rec := by
  obtain ⟨s, hs, hdigest, hsignature⟩ :=
    hunforgeable.genuine (ed25519Verify_of_verifyFailRecord h)
  have hpayload := hunforgeable.collisionFree s hs rec (mem_cons_self ..) hdigest
  obtain ⟨_, _, _, _, _, rfl⟩ := failRecords_issued hnew ht hs
  exact ⟨_, hs, (FailRecord.sameClaim_of_payload (sized_issuedRecord ..) hsized hpayload).1,
    hsignature, hdigest⟩

/-- A record that was tampered with is not accepted. -/
lemma Tampered.rejected (htampered : Tampered rec rec') (hmem : rec ∈ failRecords evs)
    (hsized : rec'.Sized)
    (hunforgeable : Unforgeable sc signerKey (failRecords evs) rec') :
    verifyFailRecord sc rec' (sc.publicKey signerKey) = false := by
  by_contra hne
  have haccepted := Bool.eq_true_of_not_eq_false hne
  obtain ⟨s, hs, hclaim', hsignature', hdigest'⟩ :=
    sameClaim_of_verify hnew ht hsized hunforgeable haccepted
  obtain ⟨_, _, _, _, _, rfl⟩ := failRecords_issued hnew ht hmem
  obtain ⟨_, _, _, _, _, rfl⟩ := failRecords_issued hnew ht hs
  cases htampered with
  | claim hclaim hsignature =>
    -- The signature is that of the record itself, so it is good for that only.
    have hdigest := hunforgeable.distinct _ hs _ hmem (hsignature'.trans hsignature)
    have hpayload :=
      hunforgeable.collisionFree _ hs _ (mem_cons_of_mem _ hmem) hdigest
    obtain ⟨hsame, -⟩ := FailRecord.sameClaim_of_payload (sized_issuedRecord ..)
      (sized_issuedRecord ..) hpayload
    exact hclaim ⟨hsame.escrow.symm.trans hclaim'.escrow,
      hsame.provider.symm.trans hclaim'.provider, hsame.challenge.symm.trans hclaim'.challenge,
      hsame.period.symm.trans hclaim'.period, hsame.sequence.symm.trans hclaim'.sequence⟩
  | signature hother =>
    refine hother (hsignature'.symm.trans ?_)
    rw [signature_issuedRecord]
    exact congrArg _ hdigest'

end

/-- The records of a contract that stand one after the other in its history
are those that are accepted as a streak. -/
lemma verify_iff_consecutive (hsc : sc.Correct)
    (hnew : newAvailabilityPaymentDispatcher coordinator signerKey opts = .ok d₀)
    (ht : Trace sc.toCrypto d₀ evs d) (hne : records ≠ [])
    (hissued : ∀ rec ∈ records, some rec ∈ outcomes cid evs) :
    verifyFailStreak sc records (sc.publicKey signerKey) = true
      ↔ records.map some <:+: outcomes cid evs
        ∧ OneProvider records := by
  have hattests := trace_attests hnew ht
  obtain ⟨hkey, -⟩ := new_signerKey hnew
  -- The contract has a schedule, since something was dispatched for it.
  obtain ⟨s, hs⟩ : ∃ s, d.schedules cid = some s := by
    obtain ⟨rec, hrec⟩ := exists_mem_of_ne_nil _ hne
    cases hs : d.schedules cid with
    | some s => exact ⟨s, rfl⟩
    | none =>
      have hmem := hissued rec hrec
      rw [outcomes, hattests.booked.none cid hs] at hmem
      cases hmem
  have hat {i : Nat} {rec : FailRecord} (hi : (outcomes cid evs)[i]? = some (some rec)) :=
    (hattests.attested cid s hs).at hi
  have hnumber : ∀ i rec, (outcomes cid evs)[i]? = some (some rec) →
      rec.sequence.toNat = i + 1 := by
    intro i rec hi
    obtain ⟨provider, result, sequence, now, hsequence, rfl⟩ := hat hi
    exact hsequence
  have hmade : ∀ rec ∈ records, rec.escrowContractID = escrowString s.escrowContractID
      ∧ verifyFailRecord sc rec (sc.publicKey signerKey) = true := by
    intro rec hrec
    obtain ⟨i, hi⟩ := mem_iff_getElem?.mp (hissued rec hrec)
    obtain ⟨provider, result, sequence, now, -, rfl⟩ := hat hi
    exact ⟨rfl, verify_issuedRecord hsc hkey ..⟩
  rw [verifyFailStreak_iff, Machine.infix_log_iff hnumber hissued, oneProvider_iff]
  constructor
  · rintro ⟨-, -, hchain⟩
    refine ⟨hchain.imp fun prev rec h => ?_, hchain.imp fun prev rec h => h.provider⟩
    rw [h.sequence, toNat_succ h.bounded]
  · rintro ⟨hnumbers, hproviders⟩
    refine ⟨hne, fun rec hrec => (hmade rec hrec).2, ?_⟩
    rw [isChain_iff_getElem] at hnumbers hproviders ⊢
    intro i hi
    have hnext := hnumbers i hi
    have hbounded : records[i].sequence ≠ maxUint64 := by
      intro hmax
      have hlt := records[i + 1].sequence.toNat_lt
      rw [hnext, hmax] at hlt
      exact absurd hlt (by decide)
    refine ⟨?_, hproviders i hi, hbounded, ?_⟩
    · rw [(hmade _ (getElem_mem hi)).1, (hmade _ (getElem_mem (by omega))).1]
    · exact UInt64.toNat_inj.mp (hnext.trans (toNat_succ hbounded).symm)

/-- **Fail streaks.** Of records that were issued for one contract, the
publisher's key accepts those that were dispatched one after the other, with
no passed challenge in between, and that name one provider. After tampering
with any record it accepts none, and every record that it does accept in a
list is one that was issued, but for its time. -/
theorem fail_streak_exact (sc : Scheme) (hsc : sc.Correct) (coordinator : PublisherCoordinator)
    (signerKey : List UInt8) (opts : List UInt32) (d₀ d : Dispatcher) (evs : List Event)
    (hnew : newAvailabilityPaymentDispatcher coordinator signerKey opts = .ok d₀)
    (ht : Trace sc.toCrypto d₀ evs d) (cid : Str) (records : List FailRecord) (hne : records ≠ [])
    (hissued : ∀ rec ∈ records, some rec ∈ outcomes cid evs) :
    (verifyFailStreak sc records (sc.publicKey signerKey) = true
      ↔ records.map some <:+: outcomes cid evs ∧ OneProvider records)
    ∧ (∀ front rec back rec', records = front ++ rec :: back → Tampered rec rec' → rec'.Sized →
      Unforgeable sc signerKey (failRecords evs) rec' →
      verifyFailStreak sc (front ++ rec' :: back) (sc.publicKey signerKey) = false)
    ∧ ∀ records', verifyFailStreak sc records' (sc.publicKey signerKey) = true →
      ∀ rec ∈ records', rec.Sized → Unforgeable sc signerKey (failRecords evs) rec →
        ∃ s ∈ failRecords evs, s.SameClaim rec
          ∧ s.publisherSignature = rec.publisherSignature := by
  refine ⟨verify_iff_consecutive hsc hnew ht hne hissued, ?_, ?_⟩
  · intro front rec back rec' heq htampered hsized hunforgeable
    have hmem : rec ∈ failRecords evs := by
      refine mem_failRecords (hissued rec ?_)
      rw [heq]
      exact mem_append_right _ (mem_cons_self ..)
    have hrejected := htampered.rejected hnew ht hmem hsized hunforgeable
    by_contra haccepted
    obtain ⟨-, hall, -⟩ := verifyFailStreak_iff.mp (Bool.eq_true_of_not_eq_false haccepted)
    have hrec' := hall rec' (mem_append_right _ (mem_cons_self ..))
    rw [hrejected] at hrec'
    cases hrec'
  · intro records' haccepted rec hrec hsized hunforgeable
    obtain ⟨-, hall, -⟩ := verifyFailStreak_iff.mp haccepted
    obtain ⟨s, hs, hclaim, hsignature, -⟩ :=
      sameClaim_of_verify hnew ht hsized hunforgeable (hall rec hrec)
    exact ⟨s, hs, hclaim, hsignature⟩

end Streaks

/-! ## Evidence -/

/-- The provider that a dispatch names, in the voucher or in the fail record. -/
def DispatchResult.provider (out : DispatchResult) : Str :=
  match out.kind with
  | .pass => out.paymentState.provider
  | .fail => out.failRecord.providerEthAddress

/-- The vouchers of this event come from a signer that only signs. -/
def Signs (e : Event) : Prop :=
  ∀ env result, e.op = .dispatchAvailabilityResult env result → OnlySigns env.sign

/-- If this event is a successful dispatch for `cid`, then its result names a
provider that is bound to `address`. -/
def Names (cid : Str) (address : Address) (e : Event) : Prop :=
  ∀ env result out, e.op = .dispatchAvailabilityResult env result →
    e.reply = .dispatched (.ok out) → result.contractID = cid →
    e.before.coordinator.bindings.providers result.providerID = some address

/-- A dispatch names the provider of its own result. -/
lemma dispatch_names (h : (dispatchAvailabilityResult cr env result d).1 = .ok out)
    (honly : OnlySigns env.sign) :
    ∃ address, d.coordinator.bindings.providers result.providerID = some address
      ∧ out.provider = addressString address
      ∧ (result.result = .fail → out.kind = .fail) := by
  have hmoves := dispatch_moves cr env result d
  generalize dispatchAvailabilityResult cr env result d = r at h hmoves
  cases hmoves with cases h
  | @advance s _ _ _ hs hadvance =>
    cases hadvance with
    | pass hnew hseq hresult hsign =>
      have hout := createAndSign_outcome env result (nextCumulativePayment s) (s.sequence + 1)
        d.coordinator
      rw [hsign] at hout
      cases hout with
      | ok hescrow hprovider hok =>
        obtain ⟨signature, rfl⟩ := honly _ _ hok
        refine ⟨_, hprovider, rfl, fun hfail => ?_⟩
        rw [hresult] at hfail
        cases hfail
    | fail hnew hseq hresult hprovider hrecord =>
      exact ⟨_, hprovider, congrArg FailRecord.providerEthAddress hrecord, fun _ => rfl⟩

/-- The last failures of a history are the end of what became of it. -/
lemma trailing_suffix (hist : Dispatches) (k : Nat) :
    (((trailing hist).take k).map (·.2.failRecord)).reverse.map some
      <:+ hist.reverse.map failRecordOf := by
  have htake := take_prefix k (trailing hist)
  have hwhile : trailing hist <+: hist := takeWhile_prefix _
  have hfirst := htake.trans hwhile
  have hrecords : ((trailing hist).take k).map failRecordOf
      = ((trailing hist).take k).map fun x => some x.2.failRecord := by
    refine map_congr_left fun x hx => ?_
    have hfail := mem_takeWhile_imp (mem_of_mem_take hx)
    rw [failRecordOf, if_pos (by simpa using hfail)]
  have hlast := reverse_suffix.mpr (hfirst.map failRecordOf)
  rw [hrecords] at hlast
  simpa only [map_reverse, map_map, Function.comp_def] using hlast

/-- The evidence of a dispatch: the last `k` outcomes, all of them failures. -/
lemma evidence_of_booked (hbooked : Booked evs d)
    (h : (dispatchAvailabilityResult cr env result d).1 = .ok out)
    (heligible : out.slashEligible = true) :
    out.slashEvidence.length = d.failureThreshold.toNat
      ∧ out.slashEvidence.map some
        <:+ ((result, out) :: dispatched result.contractID evs).reverse.map failRecordOf := by
  have hmoves := dispatch_moves cr env result d
  generalize dispatchAvailabilityResult cr env result d = r at h hmoves
  cases hmoves with
  | error e => cases h
  | @advance s _ _ _ hs hadvance =>
    have heq := Except.ok.inj h
    cases hadvance with
    | pass =>
      rw [← heq] at heligible
      cases heligible
    | fail hnew hseq hresult hprovider hrecord =>
      have hacc := hbooked.some _ s hs
      have hsequence : out.failRecord.sequence = s.sequence + 1 := by
        rw [← heq]
        exact congrArg FailRecord.sequence hrecord
      have hcount : nextCount s ≥ d.failureThreshold := by
        rw [← heq] at heligible
        exact of_decide_eq_true heligible
      have hevidence : out.slashEvidence
          = (s.failed d.failureThreshold.toNat out.failRecord result.challengeID).failStreak := by
        rw [← heq]
        exact if_pos (decide_eq_true hcount)
      have hlast := (hacc.eligible_iff rfl).mp hcount
      rw [hevidence, (hacc.fail hbooked.threshold hresult hseq hnew hsequence).streak]
      refine ⟨?_, trailing_suffix _ _⟩
      rw [trailing_cons, if_pos hresult]
      simp only [length_reverse, length_map, length_take, length_cons]
      omega

section Runs

variable {d₀ d : Dispatcher} {evs : List Event} {cid : Str}
  {x : AvailabilityResult × DispatchResult}

section

variable (ht : Trace cr d₀ evs d)

include ht

/-- The event behind a dispatch of the history. -/
lemma dispatched_event (hx : x ∈ dispatched cid evs) :
    ∃ post e pre env, evs = post ++ e :: pre ∧ e.op = .dispatchAvailabilityResult env x.1
      ∧ e.reply = .dispatched (.ok x.2) ∧ x.1.contractID = cid ∧ Trace cr d₀ pre e.before
      ∧ (dispatchAvailabilityResult cr env x.1 e.before).1 = .ok x.2 := by
  obtain ⟨e, he, env, hop, hreply, hcid⟩ := mem_dispatched.mp hx
  obtain ⟨post, pre, rfl⟩ := append_of_mem he
  obtain ⟨hpre, hstep⟩ := ht.split
  rw [hop] at hstep
  exact ⟨post, e, pre, env, rfl, hop, hreply, hcid, hpre,
    Reply.dispatched.inj (hstep.symm.trans hreply)⟩

/-- What a successful dispatch for `cid` names is the provider of its result. -/
lemma event_names (hsigns : ∀ e ∈ evs, Signs e) (he : e ∈ evs)
    (hop : e.op = .dispatchAvailabilityResult env result)
    (hreply : e.reply = .dispatched (.ok out)) (hcid : result.contractID = cid) :
    (result, out) ∈ dispatched cid evs
      ∧ ∃ address, e.before.coordinator.bindings.providers result.providerID = some address
        ∧ out.provider = addressString address ∧ (result.result = .fail → out.kind = .fail) := by
  obtain ⟨post, pre, hsplit⟩ := append_of_mem he
  subst hsplit
  have hstep := ht.split.2
  rw [hop] at hstep
  exact ⟨mem_dispatched.mpr ⟨e, he, env, hop, hreply, hcid⟩,
    dispatch_names (Reply.dispatched.inj (hstep.symm.trans hreply)) (hsigns e he _ _ hop)⟩

/-- If all that was issued for `cid` names one provider, the results name
providers that are bound to one address. -/
lemma names_of_one_provider (hsigns : ∀ e ∈ evs, Signs e)
    (hsame : ∀ x ∈ dispatched cid evs, ∀ y ∈ dispatched cid evs, x.2.provider = y.2.provider) :
    ∃ address, ∀ e ∈ evs, Names cid address e := by
  by_cases hempty : dispatched cid evs = []
  · refine ⟨0, fun e he env result out hop hreply hcid => ?_⟩
    have hmem := (event_names ht hsigns he hop hreply hcid).1
    rw [hempty] at hmem
    cases hmem
  · obtain ⟨x, hx⟩ := exists_mem_of_ne_nil _ hempty
    obtain ⟨e, he, env, hop, hreply, hcid⟩ := mem_dispatched.mp hx
    obtain ⟨-, address, -, hprovider, -⟩ := event_names ht hsigns he hop hreply hcid
    refine ⟨address, fun e' he' env' result out hop' hreply' hcid' => ?_⟩
    obtain ⟨hmem, address', hbound, hprovider', -⟩ := event_names ht hsigns he' hop' hreply' hcid'
    have heq : addressString address' = addressString address := by
      rw [← hprovider', ← hprovider]
      exact hsame _ hmem _ hx
    rw [hbound, addressString_inj heq]

/-- And then all of it names that address. -/
lemma provider_of_names (hsigns : ∀ e ∈ evs, Signs e)
    (hnames : ∀ e ∈ evs, Names cid address e) (hx : x ∈ dispatched cid evs) :
    x.2.provider = addressString address ∧ (x.1.result = .fail → x.2.kind = .fail) := by
  obtain ⟨e, he, env, hop, hreply, hcid⟩ := mem_dispatched.mp hx
  obtain ⟨-, address', hbound, hprovider, hkind⟩ := event_names ht hsigns he hop hreply hcid
  cases hbound.symm.trans (hnames e he env _ _ hop hreply hcid)
  exact ⟨hprovider, hkind⟩

end

variable {sc : Scheme} {signerKey : List UInt8} {coordinator : PublisherCoordinator}
  {opts : List UInt32}

/-- The evidence that comes with a dispatch is complete, it consists of
dispatches of the contract, and it is accepted if it names one provider. -/
lemma evidence_verifies_iff (hsc : sc.Correct)
    (hnew : newAvailabilityPaymentDispatcher coordinator signerKey opts = .ok d₀)
    (ht : Trace sc.toCrypto d₀ evs d) (hx : x ∈ dispatched cid evs)
    (heligible : x.2.slashEligible = true) :
    x.2.slashEvidence.length = d₀.failureThreshold.toNat
      ∧ (verifyFailStreak sc x.2.slashEvidence (sc.publicKey signerKey) = true
        ↔ OneProvider x.2.slashEvidence)
      ∧ ∀ rec ∈ x.2.slashEvidence, some rec ∈ outcomes cid evs := by
  obtain ⟨post, e, pre, env, rfl, hop, hreply, hcid, hpre, hok⟩ := dispatched_event ht hx
  have hbooked := (trace_attests hnew hpre).booked
  obtain ⟨hlength, hsuffix⟩ := evidence_of_booked hbooked hok heligible
  have hnext := hpre.snoc (.dispatchAvailabilityResult env x.1)
  have houtcomes : outcomes cid (⟨.dispatchAvailabilityResult env x.1, e.before,
      (step sc.toCrypto (.dispatchAvailabilityResult env x.1) e.before).1⟩ :: pre)
      = ((x.1, x.2) :: dispatched x.1.contractID pre).reverse.map failRecordOf := by
    rw [outcomes, dispatched_cons]
    simp only [step, hok, dispatchOf, hcid, if_true, Option.toList_some, singleton_append]
  rw [← houtcomes] at hsuffix
  have hissued : ∀ rec ∈ x.2.slashEvidence, some rec ∈ outcomes cid _ := fun rec hrec =>
    hsuffix.subset (mem_map_of_mem hrec)
  have hne : x.2.slashEvidence ≠ [] := by
    intro hnil
    have hpos := hbooked.threshold
    rw [hnil] at hlength
    exact absurd hlength (Nat.ne_of_lt hpos)
  refine ⟨hlength.trans (congrArg (·.2.toNat) (trace_options hpre)), ?_, fun rec hrec => ?_⟩
  · rw [verify_iff_consecutive hsc hnew hnext hne hissued]
    exact and_iff_right hsuffix.isInfix
  · -- What the contract has come to since then stands behind it.
    obtain ⟨y, hy, hrecord⟩ := mem_map.mp (hissued rec hrec)
    refine mem_map.mpr ⟨y, mem_reverse.mpr ?_, hrecord⟩
    have hlater : dispatched cid (post ++ e :: pre) = dispatched cid post
        ++ dispatched cid (e :: pre) := filterMap_append ..
    have hevent : e = ⟨.dispatchAvailabilityResult env x.1, e.before,
        (step sc.toCrypto (.dispatchAvailabilityResult env x.1) e.before).1⟩ := by
      rw [← hop, ← ht.split.2]
    rw [hlater, hevent]
    exact mem_append_right _ (mem_reverse.mp hy)

/-- **Slash evidence.** Evidence always has as many records as the threshold
says, and it is accepted exactly if they name one provider. All evidence for a
contract is accepted, and all its vouchers and fail records name one provider,
exactly if the results that were dispatched for it name providers that are
bound to one address. -/
theorem slash_evidence_iff (sc : Scheme) (hsc : sc.Correct) (coordinator : PublisherCoordinator)
    (signerKey : List UInt8) (opts : List UInt32) (d₀ d : Dispatcher) (evs : List Event)
    (hnew : newAvailabilityPaymentDispatcher coordinator signerKey opts = .ok d₀)
    (ht : Trace sc.toCrypto d₀ evs d) (hsigns : ∀ e ∈ evs, Signs e) (cid : Str) :
    let evidenced := fun x : AvailabilityResult × DispatchResult => x.2.slashEligible = true →
      x.2.slashEvidence.length = d₀.failureThreshold.toNat
        ∧ verifyFailStreak sc x.2.slashEvidence (sc.publicKey signerKey) = true
    (∀ x ∈ dispatched cid evs, x.2.slashEligible = true →
      x.2.slashEvidence.length = d₀.failureThreshold.toNat
        ∧ (verifyFailStreak sc x.2.slashEvidence (sc.publicKey signerKey) = true
          ↔ OneProvider x.2.slashEvidence))
    ∧ ((∀ x ∈ dispatched cid evs, evidenced x)
        ∧ (∀ x ∈ dispatched cid evs, ∀ y ∈ dispatched cid evs, x.2.provider = y.2.provider)
      ↔ ∃ address, ∀ e ∈ evs, Names cid address e) := by
  intro evidenced
  refine ⟨fun x hx heligible => ?_, ?_, ?_⟩
  · obtain ⟨hlength, hverifies, -⟩ := evidence_verifies_iff hsc hnew ht hx heligible
    exact ⟨hlength, hverifies⟩
  · rintro ⟨-, hsame⟩
    exact names_of_one_provider ht hsigns hsame
  · rintro ⟨address, hnames⟩
    have hall {x} (hx : x ∈ dispatched cid evs) := provider_of_names ht hsigns hnames hx
    refine ⟨fun x hx heligible => ?_, fun x hx y hy => (hall hx).1.trans (hall hy).1.symm⟩
    obtain ⟨hlength, hverifies, hissued⟩ := evidence_verifies_iff hsc hnew ht hx heligible
    have hrecords : ∀ rec ∈ x.2.slashEvidence, rec.providerEthAddress = addressString address := by
      intro rec hrec
      obtain ⟨y, hy, hrecord⟩ := mem_map.mp (hissued rec hrec)
      obtain ⟨hprovider, hkind⟩ := hall (mem_reverse.mp hy)
      unfold failRecordOf at hrecord
      split at hrecord
      · rename_i hfail
        rw [DispatchResult.provider, hkind hfail] at hprovider
        rw [← Option.some.inj hrecord]
        exact hprovider
      · cases hrecord
    exact ⟨hlength, hverifies.mpr fun rec hrec rec' hrec' =>
      (hrecords rec hrec).trans (hrecords rec' hrec').symm⟩

end Runs

/-! ## Sample runs -/

/-- The last 64 bytes of a message. -/
def lastBytes (message : List UInt8) : List UInt8 :=
  (List.replicate 64 0 ++ message).drop message.length

/-- A scheme that signs with the end of the message. -/
def tagScheme : Scheme where
  sha256 message := message
  ed25519Sign _ message := lastBytes message
  publicKey _ := List.replicate 32 0
  ed25519Verify _ message signature := signature = lastBytes message

lemma tagScheme_verify_iff :
    tagScheme.ed25519Verify pub message signature = true ↔ signature = lastBytes message :=
  decide_eq_true_iff

lemma tagScheme_correct : tagScheme.Correct where
  length_publicKey _ _ := rfl
  length_sign _ message _ := by
    show (lastBytes message).length = 64
    rw [lastBytes, length_drop, length_append, length_replicate, Nat.add_sub_cancel]
  verify_sign _ _ _ := tagScheme_verify_iff.mpr rfl

def tagKey : List UInt8 := List.replicate 64 0

/-- Two failures are enough. -/
def streakDispatcher : Dispatcher := ⟨sampleCoordinator, fun _ => none, tagKey, 2⟩

/-- A failure of contract 9 that a peer is held responsible for. -/
def failureOf (peer challengeID : UInt8) : AvailabilityResult :=
  ⟨[9], [peer], 1, [challengeID], .fail⟩

/-- Peers 5 and 6 have accounts of their own. The first failure is of peer 5,
the second of the one given. -/
def streakOps (peer : UInt8) : List Op :=
  [.registerContractSchedule [9] 7 4 10, .registerProvider [5] 3, .registerProvider [6] 4,
    .dispatchAvailabilityResult sampleEnv (failureOf 5 1),
    .dispatchAvailabilityResult sampleEnv (failureOf peer 2)]

def streakRun (peer : UInt8) : List Event × Dispatcher :=
  Machine.run (step tagScheme.toCrypto) streakDispatcher (streakOps peer)

/-- The record of a failure of `streakOps`. -/
def streakRecord (provider : Address) (peer number : UInt8) : FailRecord :=
  issuedRecord tagScheme.toCrypto tagKey 7 provider (failureOf peer number) number.toUInt64 0

set_option maxRecDepth 8192

lemma streakRun_trace (peer : UInt8) :
    Trace tagScheme.toCrypto streakDispatcher (streakRun peer).1 (streakRun peer).2 :=
  Machine.trace_run ..

lemma streakRun_outcomes : outcomes [9] (streakRun 5).1
    = [some (streakRecord 3 5 1), some (streakRecord 3 5 2)] := rfl

/-- Two failures in a row are a streak, and not with another number on the
first. -/
theorem fail_streak_two : verifyFailStreak tagScheme [streakRecord 3 5 1, streakRecord 3 5 2]
        (tagScheme.publicKey tagKey) = true
      ∧ verifyFailStreak tagScheme [{ streakRecord 3 5 1 with sequence := 9 }, streakRecord 3 5 2]
        (tagScheme.publicKey tagKey) = false := by
  obtain ⟨hiff, htampered, -⟩ := fail_streak_exact _ tagScheme_correct _
    tagKey [2] streakDispatcher _ _ rfl (streakRun_trace 5) [9]
    [streakRecord 3 5 1, streakRecord 3 5 2] (cons_ne_nil _ _) (by rw [streakRun_outcomes]; simp)
  refine ⟨hiff.mpr ⟨?_, ?_⟩, htampered [] _ _ _ rfl (.claim ?_ rfl) ?_ ⟨?_, ?_, ?_⟩⟩
  · exact infix_rfl
  · have hprovider : ∀ rec ∈ [streakRecord 3 5 1, streakRecord 3 5 2],
        rec.providerEthAddress = addressString 3 := by
      intro rec hrec
      rcases mem_pair.mp hrec with rfl | rfl <;> rfl
    exact fun rec hrec rec' hrec' => (hprovider rec hrec).trans (hprovider rec' hrec').symm
  · intro hsame
    exact absurd hsame.sequence (by decide)
  · exact ⟨(length_escrowString 7).trans_lt (by decide),
      (length_addressString 3).trans_lt (by decide)⟩
  · intro hverify
    exact absurd (tagScheme_verify_iff.mp hverify) (by decide)
  · intro s hs t ht hsignature
    rcases mem_pair.mp hs with rfl | rfl <;> rcases mem_pair.mp ht with rfl | rfl
    · rfl
    · exact absurd hsignature (by decide)
    · exact absurd hsignature (by decide)
    · rfl
  · exact fun s _ t _ hdigest => hdigest

lemma streakRun_signs (peer : UInt8) : ∀ e ∈ (streakRun peer).1, Signs e := by
  have hregister : ∀ op d reply, (∀ env result, op ≠ .dispatchAvailabilityResult env result) →
      Signs ⟨op, d, reply⟩ := fun op d reply hop env result heq => absurd heq (hop env result)
  have hsample : OnlySigns sampleEnv.sign := fun state signed h => ⟨[1], (Except.ok.inj h).symm⟩
  simp only [streakRun, streakOps, Machine.run, foldl_cons, foldl_nil, forall_mem_cons]
  refine ⟨?_, ?_, hregister _ _ _ nofun, hregister _ _ _ nofun, hregister _ _ _ nofun, by simp⟩
  all_goals
    intro env result hop
    cases hop
    exact hsample

/-- Two failures of one peer are evidence. -/
theorem slash_evidence_two : ∃ x ∈ dispatched [9] (streakRun 5).1, x.2.slashEligible = true
    ∧ x.2.slashEvidence.length = 2
    ∧ verifyFailStreak tagScheme x.2.slashEvidence (tagScheme.publicKey tagKey) = true := by
  have hiff := (slash_evidence_iff _ tagScheme_correct _ tagKey [2]
    streakDispatcher _ _ rfl (streakRun_trace 5) (streakRun_signs 5) [9]).2
  have hnames : ∃ address, ∀ e ∈ (streakRun 5).1, Names [9] address e := by
    have hregister : ∀ op d reply, (∀ env result, op ≠ .dispatchAvailabilityResult env result) →
        Names [9] 3 ⟨op, d, reply⟩ := fun op d reply hop env result out heq =>
          absurd heq (hop env result)
    refine ⟨3, ?_⟩
    simp only [streakRun, streakOps, Machine.run, foldl_cons, foldl_nil, forall_mem_cons]
    refine ⟨?_, ?_, hregister _ _ _ nofun, hregister _ _ _ nofun, hregister _ _ _ nofun, by simp⟩
    all_goals
      intro env result out hop _ _
      cases hop
      rfl
  obtain ⟨x, rest, hhist, heligible⟩ : ∃ x rest, dispatched [9] (streakRun 5).1 = x :: rest
      ∧ x.2.slashEligible = true := ⟨_, _, rfl, rfl⟩
  have hx : x ∈ dispatched [9] (streakRun 5).1 := by
    rw [hhist]
    exact mem_cons_self ..
  exact ⟨x, hx, heligible, (hiff.mpr hnames).1 x hx heligible⟩

/-- With the second failure on another peer, the result is as eligible, and
the evidence is not accepted. -/
theorem slash_evidence_rejected :
    Trace tagScheme.toCrypto streakDispatcher (streakRun 6).1 (streakRun 6).2
    ∧ newAvailabilityPaymentDispatcher sampleCoordinator tagKey [2] = .ok streakDispatcher
    ∧ ∃ x ∈ dispatched [9] (streakRun 6).1, x.2.slashEligible = true
      ∧ x.2.slashEvidence = [streakRecord 3 5 1, streakRecord 4 6 2]
      ∧ verifyFailStreak tagScheme x.2.slashEvidence (tagScheme.publicKey tagKey) = false := by
  obtain ⟨x, rest, hhist, heligible, hevidence⟩ : ∃ x rest,
      dispatched [9] (streakRun 6).1 = x :: rest ∧ x.2.slashEligible = true
      ∧ x.2.slashEvidence = [streakRecord 3 5 1, streakRecord 4 6 2] := ⟨_, _, rfl, rfl, rfl⟩
  refine ⟨streakRun_trace 6, rfl, x, ?_, heligible, hevidence, ?_⟩
  · rw [hhist]
    exact mem_cons_self ..
  · rw [hevidence]
    by_contra haccepted
    obtain ⟨-, -, hchain⟩ := verifyFailStreak_iff.mp (Bool.eq_true_of_not_eq_false haccepted)
    have hprovider := (isChain_cons_cons.mp hchain).1.provider
    exact absurd (addressString_inj hprovider) (by decide)

end Cipher.Payment
