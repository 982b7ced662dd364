import Cipher.Vouchers

/-!
# Fail records and what they prove

`VerifyFailRecord` and `VerifyFailStreak`: the checks that anybody with the
publisher's key can make on the records a dispatcher hands out for failed
challenges.

Passed and failed results of a contract are numbered together, so that two
records with consecutive numbers have no passed challenge between them. What
is signed is the hash of a payload, and the payload determines every field but
the signature and, up to the width of the number, the time.
-/

namespace Cipher.Payment

open Evm Go List

/-! ## Verification -/

/-- The signature scheme with its public side. -/
structure Scheme extends Crypto where
  publicKey : List UInt8 → List UInt8
  ed25519Verify : List UInt8 → List UInt8 → List UInt8 → Bool

def ed25519PublicKeySize : Nat := 32

def ed25519SignatureSize : Nat := 64

/-- Genuine signatures are accepted. -/
structure Scheme.Correct (sc : Scheme) : Prop where
  length_publicKey : ∀ key, key.length = ed25519PrivateKeySize →
    (sc.publicKey key).length = ed25519PublicKeySize
  length_sign : ∀ key message, key.length = ed25519PrivateKeySize →
    (sc.ed25519Sign key message).length = ed25519SignatureSize
  verify_sign : ∀ key message, key.length = ed25519PrivateKeySize →
    sc.ed25519Verify (sc.publicKey key) message (sc.ed25519Sign key message) = true

/-- What is signed. -/
def failRecordDigest (sc : Scheme) (rec : FailRecord) : List UInt8 :=
  sc.sha256 (buildFailRecordPayload rec)

def verifyFailRecord (sc : Scheme) (rec : FailRecord) (publisherPubKey : List UInt8) : Bool :=
  if publisherPubKey.length ≠ ed25519PublicKeySize then false
  else if rec.publisherSignature.length ≠ ed25519SignatureSize then false
  else sc.ed25519Verify publisherPubKey (failRecordDigest sc rec) rec.publisherSignature

/-- The loop of `VerifyFailStreak` behind its first record. -/
def verifyFollowing (sc : Scheme) (publisherPubKey : List UInt8) :
    FailRecord → List FailRecord → Bool
  | _, [] => true
  | prev, rec :: rest =>
    if !verifyFailRecord sc rec publisherPubKey then false
    else if rec.escrowContractID ≠ prev.escrowContractID
        ∨ rec.providerEthAddress ≠ prev.providerEthAddress ∨ prev.sequence = maxUint64
        ∨ rec.sequence ≠ prev.sequence + 1 then false
    else verifyFollowing sc publisherPubKey rec rest

def verifyFailStreak (sc : Scheme) (records : List FailRecord) (publisherPubKey : List UInt8) :
    Bool :=
  match records with
  | [] => false
  | rec :: rest =>
    if !verifyFailRecord sc rec publisherPubKey then false
    else verifyFollowing sc publisherPubKey rec rest

/-- `rec` may stand behind `prev` in a streak. -/
structure Follows (prev rec : FailRecord) : Prop where
  escrow : rec.escrowContractID = prev.escrowContractID
  provider : rec.providerEthAddress = prev.providerEthAddress
  bounded : prev.sequence ≠ maxUint64
  sequence : rec.sequence = prev.sequence + 1

section Verification

variable {sc : Scheme}

lemma ed25519Verify_of_verifyFailRecord {rec : FailRecord}
    (h : verifyFailRecord sc rec pub = true) :
    sc.ed25519Verify pub (failRecordDigest sc rec) rec.publisherSignature = true := by
  unfold verifyFailRecord at h
  split at h
  · cases h
  split at h
  · cases h
  · exact h

lemma verifyFollowing_iff {prev : FailRecord} : verifyFollowing sc pub prev records = true
      ↔ (∀ rec ∈ records, verifyFailRecord sc rec pub = true)
        ∧ (prev :: records).IsChain Follows := by
  induction records generalizing prev with
  | nil => exact iff_of_true rfl ⟨nofun, .singleton _⟩
  | cons rec rest ih =>
    rw [verifyFollowing, isChain_cons_cons, forall_mem_cons]
    split
    · rename_i hrec
      simp only [Bool.not_eq_true'] at hrec
      simp [hrec]
    rename_i hrec
    simp only [Bool.not_eq_true', Bool.not_eq_false] at hrec
    split
    · rename_i hbad
      refine iff_of_false Bool.false_ne_true fun h => ?_
      obtain ⟨hescrow, hprovider, hbounded, hsequence⟩ := h.2.1
      rcases hbad with h | h | h | h
      · exact h hescrow
      · exact h hprovider
      · exact hbounded h
      · exact h hsequence
    · rename_i hgood
      simp only [not_or, not_not] at hgood
      obtain ⟨hescrow, hprovider, hbounded, hsequence⟩ := hgood
      rw [ih]
      exact ⟨fun h => ⟨⟨hrec, h.1⟩, ⟨hescrow, hprovider, hbounded, hsequence⟩, h.2⟩,
        fun h => ⟨h.1.2, h.2.2⟩⟩

/-- A streak is accepted if it is not empty, every record is, and each
follows the one before. -/
lemma verifyFailStreak_iff : verifyFailStreak sc records pub = true
      ↔ records ≠ [] ∧ (∀ rec ∈ records, verifyFailRecord sc rec pub = true)
        ∧ records.IsChain Follows := by
  cases records with
  | nil => exact iff_of_false Bool.false_ne_true fun h => h.1 rfl
  | cons rec rest =>
    rw [verifyFailStreak, forall_mem_cons]
    split
    · rename_i hrec
      simp only [Bool.not_eq_true'] at hrec
      simp [hrec]
    · rename_i hrec
      simp only [Bool.not_eq_true', Bool.not_eq_false] at hrec
      rw [verifyFollowing_iff]
      exact ⟨fun h => ⟨cons_ne_nil _ _, ⟨hrec, h.1⟩, h.2⟩, fun h => ⟨h.2.1.2, h.2.2⟩⟩

end Verification

/-! ## The payload -/

lemma appendString_eq (buf : List UInt8) (s : Str) : appendString buf s = buf ++ framed s := by
  rw [appendString, appendUint64, framed, append_assoc]

lemma buildFailRecordPayload_eq (rec : FailRecord) : buildFailRecordPayload rec
      = framed failRecordDomainTag ++ (framed rec.escrowContractID
        ++ (framed rec.providerEthAddress ++ (framed rec.challengeID
          ++ (beBytes 8 rec.period.toNat ++ (beBytes 8 rec.sequence.toNat
            ++ beBytes 8 (UInt64.ofInt rec.issuedAt).toNat))))) := by
  simp only [buildFailRecordPayload, appendString_eq, appendUint64, append_assoc, nil_append]

/-- The identifiers are not too long for their length to be written down. -/
structure FailRecord.Sized (rec : FailRecord) : Prop where
  escrow : rec.escrowContractID.length < 2 ^ 64
  provider : rec.providerEthAddress.length < 2 ^ 64

/-- The fields that are signed, apart from the time. -/
structure FailRecord.SameClaim (rec rec' : FailRecord) : Prop where
  escrow : rec.escrowContractID = rec'.escrowContractID
  provider : rec.providerEthAddress = rec'.providerEthAddress
  challenge : rec.challengeID = rec'.challengeID
  period : rec.period = rec'.period
  sequence : rec.sequence = rec'.sequence

/-- **The payload determines what it is about.** -/
theorem FailRecord.sameClaim_of_payload {rec rec' : FailRecord} (hsized : rec.Sized)
    (hsized' : rec'.Sized) (h : buildFailRecordPayload rec = buildFailRecordPayload rec') :
    rec.SameClaim rec' ∧ UInt64.ofInt rec.issuedAt = UInt64.ofInt rec'.issuedAt := by
  rw [buildFailRecordPayload_eq, buildFailRecordPayload_eq] at h
  have h := append_cancel_left h
  obtain ⟨hescrow, h⟩ := framed_append_inj hsized.escrow hsized'.escrow h
  obtain ⟨hprovider, h⟩ := framed_append_inj hsized.provider hsized'.provider h
  -- From here the rest has a fixed length, whatever the challenge is called.
  obtain ⟨hchallenge, h⟩ := append_inj' h (by simp only [length_append, Bytes.length_beBytes])
  obtain ⟨hperiod, h⟩ := uint64_append_inj h
  obtain ⟨hsequence, h⟩ := uint64_append_inj h
  obtain ⟨hissued, -⟩ := uint64_append_inj (congrArg (· ++ []) h)
  exact ⟨⟨hescrow, hprovider, framed_inj hchallenge, hperiod, hsequence⟩, hissued⟩

/-! ## Records of a dispatcher -/

/-- What a dispatch of a failed result hands out. -/
lemma dispatch_issued (h : (dispatchAvailabilityResult cr env result d).1 = .ok out)
    (hfail : result.result = .fail) :
    ∃ s provider, d.schedules result.contractID = some s
      ∧ d.coordinator.bindings.providers result.providerID = some provider
      ∧ out.failRecord = issuedRecord cr d.signerKey s.escrowContractID provider result
          (s.sequence + 1) env.now := by
  have hmoves := dispatch_moves cr env result d
  generalize dispatchAvailabilityResult cr env result d = r at h hmoves
  cases hmoves with
  | error e => cases h
  | advance hs hadvance hcoordinator =>
    cases h
    cases hadvance with
    | pass hnew hseq hresult hsign =>
      rw [hresult] at hfail
      cases hfail
    | fail hnew hseq hresult hprovider hrecord => exact ⟨_, _, hs, hprovider, hrecord⟩

section Issued

variable {sc : Scheme} {signerKey : List UInt8}

lemma length_escrowString (escrow : Bytes32) : (escrowString escrow).length = 66 := by
  simp [escrowString, hexString, Geth.length_hexEncode]

lemma length_addressString (address : Address) : (addressString address).length = 42 := by
  simp [addressString, hexString, Geth.length_hexEncode]

lemma sized_issuedRecord (cr : Crypto) (escrow : Bytes32) (provider : Address)
    (result : AvailabilityResult) (sequence : UInt64) (now : Int) :
    (issuedRecord cr signerKey escrow provider result sequence now).Sized := by
  constructor
  · exact (length_escrowString escrow).trans_lt (by decide)
  · exact (length_addressString provider).trans_lt (by decide)

lemma signature_issuedRecord (escrow : Bytes32) (provider : Address)
    (result : AvailabilityResult) (sequence : UInt64) (now : Int) :
    (issuedRecord sc.toCrypto signerKey escrow provider result sequence now).publisherSignature
      = sc.ed25519Sign signerKey (failRecordDigest sc
        (issuedRecord sc.toCrypto signerKey escrow provider result sequence now)) :=
  rfl

lemma verify_issuedRecord (hsc : sc.Correct) (hkey : signerKey.length = ed25519PrivateKeySize)
    (escrow : Bytes32) (provider : Address) (result : AvailabilityResult) (sequence : UInt64)
    (now : Int) :
    verifyFailRecord sc (issuedRecord sc.toCrypto signerKey escrow provider result sequence now)
      (sc.publicKey signerKey) = true := by
  rw [verifyFailRecord, signature_issuedRecord, if_neg (by simp [hsc.length_publicKey _ hkey]),
    if_neg (by simp [hsc.length_sign _ _ hkey])]
  exact hsc.verify_sign _ _ hkey

end Issued

/-! ## Records of a trace -/

/-- The fail record of a dispatch, or a gap where the challenge was passed. -/
def failRecordOf (x : AvailabilityResult × DispatchResult) : Option FailRecord :=
  if x.1.result = .fail then some x.2.failRecord else none

/-- What became of the dispatches of a contract, oldest first. -/
def outcomes (cid : Str) (evs : List Event) : List (Option FailRecord) :=
  (dispatched cid evs).reverse.map failRecordOf

/-- The fail record that an event hands out, for whichever contract. -/
def failRecordIn (e : Event) : Option FailRecord :=
  match e.op, e.reply with
  | .dispatchAvailabilityResult _ result, .dispatched (.ok out) => failRecordOf (result, out)
  | _, _ => none

/-- All records handed out. -/
def failRecords (evs : List Event) : List FailRecord := evs.filterMap failRecordIn

/-- The fail records of a history are signed and numbered by their place. -/
def Attested (cr : Crypto) (signerKey : List UInt8) (escrow : Bytes32) : Dispatches → Prop
  | [] => True
  | x :: hist =>
    (x.1.result = .fail → ∃ provider sequence now, sequence.toNat = hist.length + 1
      ∧ x.2.failRecord = issuedRecord cr signerKey escrow provider x.1 sequence now)
    ∧ Attested cr signerKey escrow hist

lemma Attested.at (h : Attested cr signerKey escrow hist)
    (hi : (hist.reverse.map failRecordOf)[i]? = some (some record)) :
    ∃ provider result sequence now, sequence.toNat = i + 1
      ∧ record = issuedRecord cr signerKey escrow provider result sequence now := by
  induction hist with
  | nil => cases hi
  | cons x hist ih =>
    obtain ⟨hx, hrest⟩ := h
    rw [reverse_cons, map_append, getElem?_append] at hi
    split at hi
    · exact ih hrest hi
    · -- The last dispatch stands at the end.
      rename_i hlast
      rw [length_map, length_reverse] at hi hlast
      obtain ⟨hlt, hrecord⟩ := List.getElem_of_getElem? hi
      simp only [map_cons, map_nil, length_singleton] at hlt
      have hplace : i = hist.length := by omega
      subst hplace
      simp only [Nat.sub_self, map_cons, getElem_cons_zero, failRecordOf] at hrecord
      split at hrecord
      · rename_i hfail
        obtain ⟨provider, sequence, now, hsequence, heq⟩ := hx hfail
        exact ⟨provider, x.1, sequence, now, hsequence, (Option.some.inj hrecord).symm.trans heq⟩
      · cases hrecord

/-- Every contract's records are in order, and the key is the same all along. -/
structure Attests (cr : Crypto) (signerKey : List UInt8) (evs : List Event) (d : Dispatcher) :
    Prop where
  booked : Booked evs d
  key : d.signerKey = signerKey
  attested : ∀ cid s, d.schedules cid = some s →
    Attested cr signerKey s.escrowContractID (dispatched cid evs)

section Traces

/-- What a dispatcher is made with. -/
def Dispatcher.options (d : Dispatcher) : List UInt8 × UInt32 := (d.signerKey, d.failureThreshold)

lemma step_options (op : Op) (d : Dispatcher) : (step cr op d).2.options = d.options := by
  cases op with
  | registerContractSchedule cid escrow perPass max =>
    show (registerContractSchedule cid escrow perPass max d).2.options = d.options
    unfold registerContractSchedule
    split_ifs
    · rfl
    · rfl
    · rfl
    · split
      · rfl
      · split <;> rfl
  | dispatchAvailabilityResult env result =>
    show (dispatchAvailabilityResult cr env result d).2.options = d.options
    have hmoves := dispatch_moves cr env result d
    generalize dispatchAvailabilityResult cr env result d = r at hmoves
    cases hmoves <;> rfl
  | _ => rfl

lemma trace_options (ht : Trace cr d₀ evs d) : d.options = d₀.options :=
  ht.inv (I := fun _ d => d.options = d₀.options) rfl fun _ d op h => (step_options op d).trans h

lemma new_signerKey (h : newAvailabilityPaymentDispatcher coordinator signerKey opts = .ok d₀) :
    signerKey.length = ed25519PrivateKeySize ∧ d₀.signerKey = signerKey := by
  obtain ⟨hlength, k, -, rfl⟩ := new_eq h
  exact ⟨hlength, rfl⟩

section

variable (hnew : newAvailabilityPaymentDispatcher coordinator signerKey opts = .ok d₀)
  (ht : Trace cr d₀ evs d)

include hnew ht

/-- **Every trace is attested.** -/
theorem trace_attests : Attests cr signerKey evs d := by
  obtain ⟨hbooked, hnone⟩ := booked_new hnew
  have hkey {evs : List Event} {d : Dispatcher} (ht : Trace cr d₀ evs d) :
      d.signerKey = signerKey := (congrArg Prod.fst (trace_options ht)).trans (new_signerKey hnew).2
  refine ⟨trace_booked hbooked ht, hkey ht, fun cid s hs => ?_⟩
  refine trace_histories (P := fun hist s => Attested cr signerKey s.escrowContractID hist)
    (A := fun _ => True) hbooked hnone (fun _ _ _ _ => trivial) ?_ ht (fun _ _ => trivial) hs
  intro evs d env result out s s' ht _ _ hs hadvance h
  cases hadvance with
  | pass hnew hseq hresult hsign =>
    refine ⟨fun hfail => ?_, h⟩
    rw [hresult] at hfail
    cases hfail
  | @fail provider record hnew hseq hresult hprovider hrecord =>
    refine ⟨fun _ => ⟨provider, s.sequence + 1, env.now, ?_, hkey ht ▸ hrecord⟩, h⟩
    rw [toNat_succ hseq, ((trace_booked hbooked ht).some _ s hs).sequence]

/-- Every record handed out is one that was signed with the key. -/
lemma failRecords_issued (hmem : record ∈ failRecords evs) : ∃ escrow provider result sequence now,
      record = issuedRecord cr signerKey escrow provider result sequence now := by
  obtain ⟨e, he, hrecord⟩ := mem_filterMap.mp hmem
  obtain ⟨post, pre, rfl⟩ := append_of_mem he
  obtain ⟨hpre, hreply⟩ := ht.split
  unfold failRecordIn at hrecord
  split at hrecord
  · rename_i env result out hop hout
    rw [hop] at hreply
    have hok : (dispatchAvailabilityResult cr env result e.before).1 = .ok out :=
      Reply.dispatched.inj (hreply.symm.trans hout)
    unfold failRecordOf at hrecord
    split at hrecord
    · rename_i hfail
      obtain ⟨s, provider, -, -, heq⟩ := dispatch_issued hok hfail
      rw [(trace_attests hnew hpre).key] at heq
      exact ⟨_, _, _, _, _, (Option.some.inj hrecord).symm.trans heq⟩
    · cases hrecord
  · cases hrecord

end

lemma mem_failRecords (h : some record ∈ outcomes cid evs) : record ∈ failRecords evs := by
  obtain ⟨x, hx, hrecord⟩ := mem_map.mp h
  obtain ⟨e, he, env, hop, hreply, -⟩ := mem_dispatched.mp (mem_reverse.mp hx)
  refine mem_filterMap.mpr ⟨e, he, ?_⟩
  rw [failRecordIn, hop, hreply]
  exact hrecord

end Traces

end Cipher.Payment
