import Cipher.FailRecords

/-!
# Vouchers under an Ed25519 key

`SignPaymentState` and `VerifyPaymentState` of the package `payment`. What is
signed is a hash over every field of a voucher but the signature. The strings go
in behind their lengths, so the bytes that are hashed determine the fields.
-/

namespace Cipher.Payment

open Evm Go

/-- A status as the string it is. -/
def AvailabilityStatus.string : AvailabilityStatus → Str
  | .pass => [0x50, 0x41, 0x53, 0x53]
  | .fail => [0x46, 0x41, 0x49, 0x4c]
  | .other status => status

/-- What `paymentStateDigest` writes to the hash, in its order. -/
def paymentStatePayload (state : PaymentState) : List UInt8 :=
  let buf := appendString [] state.contractID
  let buf := appendString buf state.publisher
  let buf := appendString buf state.provider
  let buf := appendUint64 buf state.sequence
  let buf := appendUint64 buf state.period
  let buf := appendUint64 buf state.cumulativePayment
  let buf := appendString buf state.lastChallengeID
  let buf := appendUint64 buf state.validUntil
  appendString buf state.status.string

section

variable (sc : Scheme) (state : PaymentState)

def paymentStateDigest : List UInt8 :=
  sc.sha256 (paymentStatePayload state)

def signPaymentState (publisherPrivateKey : List UInt8) : Except Error PaymentState :=
  if publisherPrivateKey.length ≠ ed25519PrivateKeySize then
    .error (.new "invalid publisher private key")
  else if state.contractID = [] ∨ state.publisher = [] ∨ state.provider = [] then
    .error (.new "payment state is incomplete")
  else
    .ok { state with
      publisherSignature := sc.ed25519Sign publisherPrivateKey (paymentStateDigest sc state) }

def verifyPaymentState (publisherPublicKey : List UInt8) : Bool :=
  publisherPublicKey.length = ed25519PublicKeySize
    && state.publisherSignature.length = ed25519SignatureSize
    && sc.ed25519Verify publisherPublicKey (paymentStateDigest sc state) state.publisherSignature

end

/-! ## Signing -/

lemma signPaymentState_ok (h : signPaymentState sc state key = .ok signed) :
    key.length = ed25519PrivateKeySize ∧ signed = { state with
      publisherSignature := sc.ed25519Sign key (paymentStateDigest sc state) } := by
  unfold signPaymentState at h
  split at h
  · cases h
  rename_i hkey
  split at h
  · cases h
  · exact ⟨not_not.mp hkey, (Except.ok.inj h).symm⟩

/-- What is signed is accepted. -/
lemma verify_signPaymentState {sc : Scheme} (hsc : sc.Correct)
    (h : signPaymentState sc state key = .ok signed) :
    verifyPaymentState sc signed (sc.publicKey key) = true := by
  obtain ⟨hkey, rfl⟩ := signPaymentState_ok h
  have hverify := hsc.verify_sign key (paymentStateDigest sc state) hkey
  simp only [verifyPaymentState, Bool.and_eq_true, decide_eq_true_eq]
  exact ⟨⟨hsc.length_publicKey _ hkey, hsc.length_sign _ _ hkey⟩, hverify⟩

/-! ## The payload -/

lemma paymentStatePayload_eq (state : PaymentState) : paymentStatePayload state
      = framed state.contractID ++ (framed state.publisher ++ (framed state.provider
        ++ (beBytes 8 state.sequence.toNat ++ (beBytes 8 state.period.toNat
          ++ (beBytes 8 state.cumulativePayment.toNat ++ (framed state.lastChallengeID
            ++ (beBytes 8 state.validUntil.toNat ++ framed state.status.string))))))) := by
  simp only [paymentStatePayload, appendString_eq, appendUint64, List.append_assoc, List.nil_append]

/-- The strings are not too long for their length to be written down. -/
structure PaymentState.Sized (state : PaymentState) : Prop where
  contractID : state.contractID.length < 2 ^ 64
  publisher : state.publisher.length < 2 ^ 64
  provider : state.provider.length < 2 ^ 64
  lastChallengeID : state.lastChallengeID.length < 2 ^ 64

/-- The fields that are signed agree. -/
structure PaymentState.SameTerms (v v' : PaymentState) : Prop where
  contractID : v.contractID = v'.contractID
  publisher : v.publisher = v'.publisher
  provider : v.provider = v'.provider
  sequence : v.sequence = v'.sequence
  period : v.period = v'.period
  cumulativePayment : v.cumulativePayment = v'.cumulativePayment
  lastChallengeID : v.lastChallengeID = v'.lastChallengeID
  validUntil : v.validUntil = v'.validUntil
  status : v.status.string = v'.status.string

/-- **The payload determines the terms of a voucher.** -/
theorem PaymentState.sameTerms_of_payload {v v' : PaymentState} (hsized : v.Sized)
    (hsized' : v'.Sized) (h : paymentStatePayload v = paymentStatePayload v') :
    v.SameTerms v' := by
  rw [paymentStatePayload_eq, paymentStatePayload_eq] at h
  obtain ⟨hcontract, h⟩ := framed_append_inj hsized.contractID hsized'.contractID h
  obtain ⟨hpublisher, h⟩ := framed_append_inj hsized.publisher hsized'.publisher h
  obtain ⟨hprovider, h⟩ := framed_append_inj hsized.provider hsized'.provider h
  obtain ⟨hsequence, h⟩ := uint64_append_inj h
  obtain ⟨hperiod, h⟩ := uint64_append_inj h
  obtain ⟨hcumulative, h⟩ := uint64_append_inj h
  obtain ⟨hchallenge, h⟩ := framed_append_inj hsized.lastChallengeID hsized'.lastChallengeID h
  obtain ⟨hvalid, h⟩ := uint64_append_inj h
  exact ⟨hcontract, hpublisher, hprovider, hsequence, hperiod, hcumulative, hchallenge, hvalid,
    framed_inj h⟩

/-- A voucher begins with an identifier of 66 characters, a fail record with
the tag of its kind. -/
lemma paymentStatePayload_ne {v : PaymentState} (hcontract : v.contractID = escrowString escrow)
    (rec : FailRecord) : paymentStatePayload v ≠ buildFailRecordPayload rec := by
  intro h
  have hlength := length_escrowString escrow
  rw [paymentStatePayload_eq, hcontract] at h
  have htag := (framed_append_inj (hlength.trans_lt (by decide)) (by decide) h).1
  rw [htag] at hlength
  exact absurd hlength (by decide)

/-- **What is signed can be read in one way only**: the bytes determine the
fields of a voucher, and those of a fail record, and are never those of both.
No signature that is good for one digest only is accepted for both. -/
theorem signed_payloads_apart (sc : Scheme) : (∀ v v' : PaymentState, v.Sized → v'.Sized →
      paymentStatePayload v = paymentStatePayload v' → v.SameTerms v') ∧
    (∀ rec rec' : FailRecord, rec.Sized → rec'.Sized →
      buildFailRecordPayload rec = buildFailRecordPayload rec' →
      rec.SameClaim rec' ∧ UInt64.ofInt rec.issuedAt = UInt64.ofInt rec'.issuedAt) ∧
    ∀ (v : PaymentState) (rec : FailRecord) (escrow : Bytes32), v.contractID = escrowString escrow →
      paymentStatePayload v ≠ buildFailRecordPayload rec ∧
      ∀ pub, v.publisherSignature = rec.publisherSignature →
        (∀ m m', sc.ed25519Verify pub m rec.publisherSignature = true →
          sc.ed25519Verify pub m' rec.publisherSignature = true → m = m') →
        (paymentStateDigest sc v = failRecordDigest sc rec →
          paymentStatePayload v = buildFailRecordPayload rec) →
        ¬(verifyPaymentState sc v pub = true ∧ verifyFailRecord sc rec pub = true) := by
  refine ⟨fun _ _ => PaymentState.sameTerms_of_payload,
    fun _ _ => FailRecord.sameClaim_of_payload, fun v rec escrow hcontract => ?_⟩
  have hne := paymentStatePayload_ne hcontract rec
  refine ⟨hne, fun pub hsignature hone hcollision ⟨hv, hrec⟩ => hne (hcollision ?_)⟩
  simp only [verifyPaymentState, Bool.and_eq_true, hsignature] at hv
  exact hone _ _ hv.2 (ed25519Verify_of_verifyFailRecord hrec)

end Cipher.Payment
