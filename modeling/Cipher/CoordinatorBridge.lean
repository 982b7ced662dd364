import Cipher.FailStreaks
import Cipher.PassPayments
import Cipher.Redeem
import Cipher.VoucherSigning

/-!
# The bridge between identities and payments

`CoordinatorBridge` builds a coordinator and a dispatcher for a publisher with an
Ed25519 key and, possibly, an Ethereum key. Its vouchers are signed with the
former. The escrow contract knows the latter only, and the adapter in front of
the contract takes signatures of another length, so that no voucher of a bridge
gets there (`bridge_vouchers_refused`).

`VerifyPaymentVoucher` is the check of whoever receives a voucher. Under an
Ed25519 key it covers the whole voucher. Under an Ethereum address it covers the
contract ID, so that one signature is good for vouchers of any amount
(`voucher_check_binds`).
-/

namespace Cipher.Bridge

open Evm Go Geth Payment
open Ethereum (convertPaymentStateToSolidity toSolidity)

variable {κ : Type}

/-! ## The bridge -/

structure CoordinatorBridgeConfig (κ : Type) where
  publisherPeerID : Str
  publisherEthKey : Option κ
  publisherEdKey : List UInt8
  failureThreshold : UInt32

structure CoordinatorBridge (κ : Type) where
  publisherID : Str
  publisherEthKey : Option κ
  publisherEdKey : List UInt8
  dispatcher : Dispatcher

def newCoordinatorBridge (cfg : CoordinatorBridgeConfig κ) :
    Except Payment.Error (CoordinatorBridge κ) :=
  if cfg.publisherPeerID = [] then .error (.new "publisher peer ID is required")
  else if cfg.publisherEdKey.length ≠ ed25519PrivateKeySize then
    .error (.new "valid publisher Ed25519 private key is required")
  else match newPublisherCoordinator cfg.publisherPeerID with
  | .error e => .error (.wrap "create publisher coordinator" e)
  | .ok pubCoord =>
    let threshold := if cfg.failureThreshold = 0 then defaultFailureThreshold
      else cfg.failureThreshold
    match newAvailabilityPaymentDispatcher pubCoord cfg.publisherEdKey [threshold] with
    | .error e => .error (.wrap "create payment dispatcher" e)
    | .ok dispatcher =>
      .ok { publisherID := cfg.publisherPeerID, publisherEthKey := cfg.publisherEthKey,
            publisherEdKey := cfg.publisherEdKey, dispatcher }

namespace CoordinatorBridge

/-- The signer that the coordinator was built with. -/
def signer (sc : Scheme) (b : CoordinatorBridge κ) (state : PaymentState) :
    Except Payment.Error PaymentState :=
  signPaymentState sc state b.publisherEdKey

/-- The address is written out and parsed again on the way. -/
def registerProvider (peerID : Str) (ethAddr : Address) (b : CoordinatorBridge κ) :
    Except Payment.Error Unit × CoordinatorBridge κ :=
  let r := Payment.registerProvider peerID ethAddr b.dispatcher.coordinator
  (r.1, { b with dispatcher := { b.dispatcher with coordinator := r.2 } })

def registerContractSchedule (contractID : Str) (escrowAgreementID : Bytes32)
    (paymentPerPass maxPayment : UInt64) (b : CoordinatorBridge κ) :
    Except Payment.Error Unit × CoordinatorBridge κ :=
  let r := Payment.registerContractSchedule contractID escrowAgreementID paymentPerPass maxPayment
    b.dispatcher
  (r.1, { b with dispatcher := r.2 })

def dispatchAvailabilityResult (sc : Scheme) (now : Int) (result : AvailabilityResult)
    (b : CoordinatorBridge κ) : Except Payment.Error DispatchResult × CoordinatorBridge κ :=
  let r := Payment.dispatchAvailabilityResult sc.toCrypto ⟨now, b.signer sc⟩ result b.dispatcher
  (r.1, { b with dispatcher := r.2 })

end CoordinatorBridge

inductive Op where
  | registerProvider (peerID : Str) (ethAddr : Address)
  | registerContractSchedule (contractID : Str) (escrowAgreementID : Bytes32)
      (paymentPerPass maxPayment : UInt64)
  | dispatchAvailabilityResult (now : Int) (result : AvailabilityResult)

inductive Reply where
  | done (r : Except Payment.Error Unit)
  | dispatched (r : Except Payment.Error DispatchResult)

def step (sc : Scheme) : Op → CoordinatorBridge κ → Reply × CoordinatorBridge κ
  | .registerProvider peerID ethAddr, b =>
    let r := b.registerProvider peerID ethAddr
    (.done r.1, r.2)
  | .registerContractSchedule contractID escrow perPass max, b =>
    let r := b.registerContractSchedule contractID escrow perPass max
    (.done r.1, r.2)
  | .dispatchAvailabilityResult now result, b =>
    let r := b.dispatchAvailabilityResult sc now result
    (.dispatched r.1, r.2)

abbrev Trace (sc : Scheme) (b₀ : CoordinatorBridge κ) :
    List (Machine.Event Op (CoordinatorBridge κ) Reply) → CoordinatorBridge κ → Prop :=
  Machine.Trace (step sc) b₀

/-! ## Vouchers of a bridge -/

section Vouchers

variable {sc : Scheme} {cfg : CoordinatorBridgeConfig κ} {b₀ b : CoordinatorBridge κ}
  {evs : List (Machine.Event Op (CoordinatorBridge κ) Reply)}

lemma newCoordinatorBridge_key (h : newCoordinatorBridge cfg = .ok b₀) :
    b₀.publisherEdKey = cfg.publisherEdKey
      ∧ cfg.publisherEdKey.length = ed25519PrivateKeySize := by
  unfold newCoordinatorBridge at h
  split at h
  · cases h
  split at h
  · cases h
  rename_i hkey
  split at h
  · cases h
  dsimp only at h
  split at h
  · cases h
  · cases h
    exact ⟨rfl, not_not.mp hkey⟩

lemma trace_key (ht : Trace sc b₀ evs b) : b.publisherEdKey = b₀.publisherEdKey := by
  refine ht.inv (I := fun _ b => b.publisherEdKey = b₀.publisherEdKey) rfl fun _ b op h => ?_
  cases op <;> exact h

/-- The voucher of a passed challenge, signed with the Ed25519 key. -/
lemma dispatch_signed {result : AvailabilityResult} (hpass : result.result = .pass)
    (h : (b.dispatchAvailabilityResult sc now result).1 = .ok out) :
    ∃ state, signPaymentState sc state b.publisherEdKey = .ok out.paymentState := by
  have h : (Payment.dispatchAvailabilityResult sc.toCrypto ⟨now, b.signer sc⟩ result
      b.dispatcher).1 = .ok out := h
  have hmoves := dispatch_moves sc.toCrypto ⟨now, b.signer sc⟩ result b.dispatcher
  generalize Payment.dispatchAvailabilityResult sc.toCrypto ⟨now, b.signer sc⟩ result b.dispatcher
    = r at h hmoves
  cases hmoves with
  | error e => cases h
  | advance hs hadvance hcoordinator =>
    cases h
    rcases hcoordinator with ⟨hfail, -⟩ | ⟨-, hsign⟩
    · rw [hpass] at hfail
      cases hfail
    · obtain ⟨escrow, provider, hsigned, -⟩ := createAndSign_signed hsign
      exact ⟨_, hsigned.sign⟩

end Vouchers

lemma convert_length_ne {g : Crypto κ Payment.Error} {id : Bytes32} {state : PaymentState}
    (h : state.publisherSignature.length ≠ 65) :
    convertPaymentStateToSolidity g id state
      = .error (.new "payment state is not Ethereum-compatible") := by
  unfold convertPaymentStateToSolidity
  rw [if_pos (.inr (.inr (.inr (.inl h))))]

/-- The contract finds no signer behind a signature of another length. -/
lemma recover_length_ne {ps : Escrow.PaymentState}
    (h : ps.signature.length ≠ 65) : Escrow.recoverPaymentSigner d ps = 0 := by
  unfold Escrow.recoverPaymentSigner
  rw [if_pos h]

/-- **No voucher of a bridge is redeemable.** Whatever keys a bridge is built
with, its vouchers are good under the Ed25519 key, the adapter refuses each of
them, and the contract finds no signer for a tuple with one of their signatures. -/
theorem bridge_vouchers_refused (sc : Scheme) (hsc : sc.Correct) (g : Crypto κ Payment.Error)
    (cfg : CoordinatorBridgeConfig κ) (b₀ b : CoordinatorBridge κ)
    (hnew : newCoordinatorBridge cfg = .ok b₀)
    (evs : List (Machine.Event Op (CoordinatorBridge κ) Reply)) (ht : Trace sc b₀ evs b)
    (now : Int) (result : AvailabilityResult) (hpass : result.result = .pass)
    (out : DispatchResult) (hout : (b.dispatchAvailabilityResult sc now result).1 = .ok out) :
    verifyPaymentState sc out.paymentState (sc.publicKey cfg.publisherEdKey) = true
      ∧ (∀ id, convertPaymentStateToSolidity g id out.paymentState
        = .error (.new "payment state is not Ethereum-compatible"))
      ∧ ∀ d ps, ps.signature = out.paymentState.publisherSignature →
        Escrow.recoverPaymentSigner d ps = 0 := by
  obtain ⟨state, hsign⟩ := dispatch_signed hpass hout
  obtain ⟨hkey, hsize⟩ := newCoordinatorBridge_key hnew
  rw [trace_key ht, hkey] at hsign
  have hlength : out.paymentState.publisherSignature.length = ed25519SignatureSize := by
    rw [(signPaymentState_ok hsign).2]
    exact hsc.length_sign _ _ hsize
  have hne : out.paymentState.publisherSignature.length ≠ 65 := by
    rw [hlength]
    decide
  exact ⟨verify_signPaymentState hsc hsign, fun id => convert_length_ne hne,
    fun d ps hps => recover_length_ne (hps ▸ hne)⟩

/-! ## The check of a receiver -/

/-- `sigToPub` is `crypto.SigToPub` followed by `crypto.PubkeyToAddress`. -/
def verifyPaymentVoucher (sc : Scheme) (g : Crypto κ Payment.Error)
    (sigToPub : Bytes32 → List UInt8 → Option Address) (voucher : PaymentState)
    (pubEdKey : List UInt8) (pubEthAddr : Address) : Bool :=
  if voucher.publisherSignature.length = 0 then false
  else if pubEdKey.length = ed25519PublicKeySize ∧ verifyPaymentState sc voucher pubEdKey then true
  else if pubEthAddr ≠ 0 ∧ voucher.publisherSignature.length = 65 then
    match sigToPub (g.keccak256Hash voucher.contractID) voucher.publisherSignature with
    | some recoveredAddr => recoveredAddr = pubEthAddr
    | none => false
  else false

/-- The escrow contract takes `addr` for the signer of the voucher. -/
def Attributed (g : Crypto κ Payment.Error) (d : Escrow.Deployment) (voucher : PaymentState)
    (addr : Address) : Prop :=
  addr ≠ 0 ∧ Escrow.recoverPaymentSigner d (toSolidity g voucher) = addr

/-- Signatures cannot be forged: one that is good under the key comes from its
owner, who has signed no two digests with it. The payloads have no collision. -/
structure Genuine (sc : Scheme) (pubEdKey : List UInt8) (signed : List (List UInt8 × List UInt8))
    (v v' : PaymentState) : Prop where
  first : sc.ed25519Verify pubEdKey (paymentStateDigest sc v) v.publisherSignature = true →
    (paymentStateDigest sc v, v.publisherSignature) ∈ signed
  second : sc.ed25519Verify pubEdKey (paymentStateDigest sc v') v'.publisherSignature = true →
    (paymentStateDigest sc v', v'.publisherSignature) ∈ signed
  distinct : ∀ x ∈ signed, ∀ y ∈ signed, x.2 = y.2 → x.1 = y.1
  collisionFree : paymentStateDigest sc v = paymentStateDigest sc v' →
    paymentStatePayload v = paymentStatePayload v'

section Check

variable {sc : Scheme} {g : Crypto κ Payment.Error}
  {sigToPub : Bytes32 → List UInt8 → Option Address} {pubEdKey : List UInt8} {addr : Address}
  {v v' : PaymentState}

lemma length_of_verify (h : verifyPaymentState sc v pubEdKey = true) :
    pubEdKey.length = ed25519PublicKeySize
      ∧ v.publisherSignature.length = ed25519SignatureSize
      ∧ sc.ed25519Verify pubEdKey (paymentStateDigest sc v) v.publisherSignature = true := by
  simp only [verifyPaymentState, Bool.and_eq_true, decide_eq_true_eq] at h
  exact ⟨h.1.1, h.1.2, h.2⟩

/-- Without an address, and for signatures of another length, the Ed25519 key
decides. -/
lemma check_ed25519 (h : addr = 0 ∨ v.publisherSignature.length ≠ 65) :
    verifyPaymentVoucher sc g sigToPub v pubEdKey addr = verifyPaymentState sc v pubEdKey := by
  unfold verifyPaymentVoucher
  rw [if_neg (c := addr ≠ 0 ∧ _) (by tauto)]
  cases hverify : verifyPaymentState sc v pubEdKey with
  | false => simp
  | true =>
    obtain ⟨hkey, hsignature, -⟩ := length_of_verify hverify
    rw [if_neg (by rw [hsignature]; decide), if_pos ⟨hkey, rfl⟩]

/-- Signatures of 65 bytes are checked against the contract ID. -/
lemma check_address (haddr : addr ≠ 0) (hlength : v.publisherSignature.length = 65) :
    verifyPaymentVoucher sc g sigToPub v pubEdKey addr = true
      ↔ sigToPub (g.keccak256Hash v.contractID) v.publisherSignature = some addr := by
  have hed : ¬(pubEdKey.length = ed25519PublicKeySize
      ∧ verifyPaymentState sc v pubEdKey = true) := by
    rintro ⟨-, hverify⟩
    have hsignature := (length_of_verify hverify).2.1
    rw [hlength] at hsignature
    exact absurd hsignature (by decide)
  unfold verifyPaymentVoucher
  rw [if_neg (by rw [hlength]; decide), if_neg hed, if_pos ⟨haddr, hlength⟩]
  cases sigToPub (g.keccak256Hash v.contractID) v.publisherSignature with
  | none => simp
  | some recovered => simp

end Check

/-- **What the check of a voucher covers.** Without an Ethereum address, and for
signatures that are not of 65 bytes, a voucher is accepted exactly if the
signature is good for it under the Ed25519 key or the contract attributes it to
the address, and vouchers under one signature agree in all terms. A signature of
65 bytes is accepted exactly if it is one of the contract ID, and then for every
voucher with that ID. -/
theorem voucher_check_binds (sc : Scheme) (g : Crypto κ Payment.Error) (d : Escrow.Deployment)
    (sigToPub : Bytes32 → List UInt8 → Option Address) (pubEdKey : List UInt8) (addr : Address)
    (v : PaymentState) :
    (addr = 0 ∨ v.publisherSignature.length ≠ 65 →
      (verifyPaymentVoucher sc g sigToPub v pubEdKey addr = true
        ↔ verifyPaymentState sc v pubEdKey = true ∨ Attributed g d v addr)
      ∧ ∀ v' signed, v'.publisherSignature = v.publisherSignature → v.Sized → v'.Sized →
        Genuine sc pubEdKey signed v v' →
        verifyPaymentVoucher sc g sigToPub v pubEdKey addr = true →
        verifyPaymentVoucher sc g sigToPub v' pubEdKey addr = true → v.SameTerms v')
    ∧ (addr ≠ 0 → v.publisherSignature.length = 65 →
      (verifyPaymentVoucher sc g sigToPub v pubEdKey addr = true
        ↔ sigToPub (g.keccak256Hash v.contractID) v.publisherSignature = some addr)
      ∧ ∀ v', v'.publisherSignature = v.publisherSignature → v'.contractID = v.contractID →
        verifyPaymentVoucher sc g sigToPub v' pubEdKey addr
          = verifyPaymentVoucher sc g sigToPub v pubEdKey addr) := by
  refine ⟨fun h => ⟨?_, ?_⟩, fun haddr hlength => ⟨check_address haddr hlength, ?_⟩⟩
  · rw [check_ed25519 h]
    refine ⟨.inl, ?_⟩
    rintro (hverify | ⟨haddr, hsigner⟩)
    · exact hverify
    · have hlength : (toSolidity g v).signature.length ≠ 65 := h.resolve_left haddr
      rw [recover_length_ne hlength] at hsigner
      exact absurd hsigner.symm haddr
  · intro v' signed hsame hsized hsized' hgenuine haccepted haccepted'
    rw [check_ed25519 h] at haccepted
    rw [check_ed25519 (hsame ▸ h)] at haccepted'
    have hmem := hgenuine.first (length_of_verify haccepted).2.2
    have hmem' := hgenuine.second (length_of_verify haccepted').2.2
    have hdigest := hgenuine.distinct _ hmem _ hmem' hsame.symm
    exact PaymentState.sameTerms_of_payload hsized hsized' (hgenuine.collisionFree hdigest)
  · intro v' hsame hcontract
    rw [Bool.eq_iff_iff, check_address haddr hlength, check_address haddr (hsame ▸ hlength), hsame,
      hcontract]

/-! ## Sample vouchers -/

/-- A bridge for peer 1 with both keys. -/
def sampleConfig : CoordinatorBridgeConfig Unit := ⟨[1], some (), tagKey, 0⟩

def sampleBridge : CoordinatorBridge Unit :=
  ⟨[1], some (), tagKey, freshDispatcher⟩

/-- Contract 9 has agreement 7, and peer 5 is account 3. -/
def sampleRegistrations : List Op :=
  [.registerContractSchedule [9] 7 4 10, .registerProvider [5] 3]

def registeredBridge : CoordinatorBridge Unit :=
  (Machine.run (step tagScheme) sampleBridge sampleRegistrations).2

set_option maxRecDepth 8192

/-- The first pass. -/
theorem bridge_voucher_first : ∃ out,
    (registeredBridge.dispatchAvailabilityResult tagScheme 0 (sampleResult 1 .pass)).1 = .ok out
      ∧ verifyPaymentState tagScheme out.paymentState (tagScheme.publicKey tagKey) = true
      ∧ convertPaymentStateToSolidity Redeem.sampleGeth 7 out.paymentState
        = .error (.new "payment state is not Ethereum-compatible") := by
  have ht : Trace tagScheme sampleBridge _ registeredBridge := Machine.trace_run ..
  obtain ⟨out, hout⟩ : ∃ out, (registeredBridge.dispatchAvailabilityResult tagScheme 0
      (sampleResult 1 .pass)).1 = .ok out := ⟨_, rfl⟩
  obtain ⟨hverify, hrefused, -⟩ := bridge_vouchers_refused _ tagScheme_correct
    _ sampleConfig _ _ rfl _ ht 0 _
    rfl out hout
  exact ⟨out, hout, hverify, hrefused 7⟩

/-- A bridge with an Ethereum key signs a voucher that the adapter does not
take. -/
theorem bridge_voucher_unredeemable : newCoordinatorBridge sampleConfig = .ok sampleBridge
    ∧ ∃ out, (registeredBridge.dispatchAvailabilityResult tagScheme 0 (sampleResult 1 .pass)).1
        = .ok out
      ∧ out.paymentState.publisherSignature.length = 64
      ∧ convertPaymentStateToSolidity Redeem.sampleGeth 7 out.paymentState
        = .error (.new "payment state is not Ethereum-compatible") :=
  ⟨rfl, _, rfl, rfl, rfl⟩

/-- A chain on which account 1 signs a hash with the hash itself. -/
def hashChain : Escrow.Deployment :=
  { Escrow.sample with ecrecover := fun hash _ r _ => if r = hash.toNat then 1 else 0 }

/-- `SigToPub` on it: the recovery byte is 0 or 1. -/
def hashSigToPub (hash : Bytes32) (sig : List UInt8) : Option Address :=
  if sig.drop 64 = [0] ∨ sig.drop 64 = [1] then
    some (hashChain.ecrecover hash 27 (beNat (sig.take 32)) (beNat ((sig.drop 32).take 32)))
  else none

/-- A voucher over `amount` with a signature of its contract ID. -/
def idSigned (amount : UInt64) : PaymentState :=
  { Redeem.redeemVoucher 1 amount with
    publisherSignature :=
      word (Redeem.sampleGeth.keccak256Hash (escrowString 1)).toNat ++ word 0 ++ [0] }

/-- The same voucher under the Ed25519 key. -/
def edSigned : PaymentState :=
  { Redeem.redeemVoucher 1 4 with
    publisherSignature := tagScheme.ed25519Sign tagKey
      (paymentStateDigest tagScheme (Redeem.redeemVoucher 1 4)) }

/-- The two signatures under the check. -/
theorem voucher_check_sample :
    verifyPaymentVoucher tagScheme Redeem.sampleGeth hashSigToPub edSigned
        (tagScheme.publicKey tagKey) 1 = true
      ∧ verifyPaymentVoucher tagScheme Redeem.sampleGeth hashSigToPub (idSigned 9) [] 1
        = verifyPaymentVoucher tagScheme Redeem.sampleGeth hashSigToPub (idSigned 4) [] 1 := by
  have hed := (voucher_check_binds tagScheme Redeem.sampleGeth hashChain hashSigToPub
    (tagScheme.publicKey tagKey) 1 edSigned).1 (.inr (by decide))
  have hid := (voucher_check_binds tagScheme Redeem.sampleGeth hashChain hashSigToPub [] 1
    (idSigned 4)).2 (by decide) rfl
  exact ⟨hed.1.mpr (.inl rfl), hid.2 _ rfl rfl⟩

/-- One signature is accepted for vouchers over 4 and over 9, and the contract
attributes neither of them to account 1. -/
theorem voucher_check_unbound : (idSigned 4).publisherSignature = (idSigned 9).publisherSignature
    ∧ verifyPaymentVoucher tagScheme Redeem.sampleGeth hashSigToPub (idSigned 4) [] 1 = true
    ∧ verifyPaymentVoucher tagScheme Redeem.sampleGeth hashSigToPub (idSigned 9) [] 1 = true
    ∧ (idSigned 4).cumulativePayment ≠ (idSigned 9).cumulativePayment
    ∧ Escrow.recoverPaymentSigner hashChain (toSolidity Redeem.sampleGeth (idSigned 4)) = 0
    ∧ Escrow.recoverPaymentSigner hashChain (toSolidity Redeem.sampleGeth (idSigned 9)) = 0 :=
  ⟨rfl, rfl, rfl, by decide, rfl, rfl⟩

end Cipher.Bridge
