import Cipher.Escrow
import Cipher.Payment

/-!
# Vouchers on their way to the chain

The Go package `ethereum`: `Signer`, which signs the digest that
`EscrowContract.sol` verifies, and the part of `EscrowAdapter` that turns
an off-chain voucher into the argument of a contract call. What the
adapter needs to send a transaction (the connection, the sender's
account) is left to the one who sends it: its functions return the call.

`sign_redeemable` is the contract between the two sides. A voucher that
the signer returned converts to one whose signer, as the escrow contract
recovers it, is the owner of the key.
-/

namespace Cipher.Ethereum

open Evm Go Geth
open Payment (AvailabilityStatus)

variable {κ : Type}

/-! ## The signer -/

structure Signer (κ : Type) where
  privateKey : κ
  escrowContract : Address
  chainID : Int

def statusCode : AvailabilityStatus → UInt8
  | .pass => 1
  | _ => 2

section

variable (g : Crypto κ Payment.Error) (escrowContract : Address) (chainID : Int)
  (state : Payment.PaymentState)

/-- What `paymentStateDigest` packs. -/
def paymentStateArguments : List AbiArg :=
  [.address escrowContract, .uint256 chainID, .bytes32 (hexToHash state.contractID),
    .address (hexToAddress state.publisher), .address (hexToAddress state.provider),
    .uint64 state.sequence, .uint64 state.period, .uint256 state.cumulativePayment.toNat,
    .bytes32 (g.keccak256Hash state.lastChallengeID), .uint64 state.validUntil,
    .uint8 (statusCode state.status)]

def paymentStateDigest : Except Payment.Error Bytes32 :=
  let contractID := hexToHash state.contractID
  let publisher := hexToAddress state.publisher
  let provider := hexToAddress state.provider
  if contractID = 0 ∨ publisher = 0 ∨ provider = 0 then
    .error (.new "contract ID, publisher, and provider must be valid Ethereum values")
  else
    match g.pack (paymentStateArguments g escrowContract chainID state) with
    | .error e => .error e
    | .ok packed => .ok (g.keccak256Hash packed)

end

namespace Signer

/-- `crypto.Sign` returns 65 bytes, the last of which is raised by 27. -/
def sign (g : Crypto κ Payment.Error) (s : Signer κ) (state : Payment.PaymentState) :
    Except Payment.Error Payment.PaymentState :=
  if state.validUntil = 0 then
    .error (.new "payment state valid-until timestamp is required for Ethereum signing")
  else
    let publisher := hexToAddress state.publisher
    if publisher = 0 ∨ publisher ≠ g.pubkeyToAddress s.privateKey then
      .error (.new "payment-state publisher must match Ethereum signer")
    else
      match paymentStateDigest g s.escrowContract s.chainID state with
      | .error e => .error e
      | .ok digest =>
        match g.sign (textHash g (word digest.toNat)) s.privateKey with
        | .error e => .error e
        | .ok signature =>
          .ok { state with publisherSignature := signature.modify 64 (· + 27) }

end Signer

/-! ## The escrow adapter -/

section

variable (g : Crypto κ Payment.Error)

def convertPaymentStateToSolidity (parsedContractID : Bytes32)
    (state : Payment.PaymentState) : Except Payment.Error Escrow.PaymentState :=
  let publisher := hexToAddress state.publisher
  let provider := hexToAddress state.provider
  if parsedContractID = 0 ∨ publisher = 0 ∨ provider = 0 ∨ state.publisherSignature.length ≠ 65
      ∨ state.validUntil = 0 then
    .error (.new "payment state is not Ethereum-compatible")
  else
    .ok {
      contractID := parsedContractID
      publisher
      provider
      sequence := state.sequence.toNat
      period := state.period.toNat
      cumulativePayment := state.cumulativePayment.toNat
      lastChallengeID := g.keccak256Hash state.lastChallengeID
      validUntil := state.validUntil.toNat
      status := (statusCode state.status).toNat
      signature := state.publisherSignature }

/-- The adapter's functions that take a voucher differ in the contract
function they call. -/
def voucherCall (call : Bytes32 → Escrow.PaymentState → Escrow.Call)
    (contractID : Str) (state : Payment.PaymentState) : Except Payment.Error Escrow.Call :=
  if contractID ≠ state.contractID then
    .error (.new "matching signed payment state and escrow adapter are required")
  else
    let parsedContractID := hexToHash contractID
    match convertPaymentStateToSolidity g parsedContractID state with
    | .error e => .error e
    | .ok solidityState => .ok (call parsedContractID solidityState)

section

variable (contractID : Str) (state : Payment.PaymentState)

def submitPaymentState : Except Payment.Error Escrow.Call :=
  voucherCall g .submitPaymentState contractID state

def settleContract : Except Payment.Error Escrow.Call :=
  voucherCall g .settleContract contractID state

end

/-! ## Signed vouchers -/

/-- Go's packages and the chain that a deployment is on agree. -/
abbrev Agrees (d : Escrow.Deployment) : Prop :=
  g.Correct d.keccak256 d.ecrecover halfOrder

/-- The signer is set up for this deployment of the escrow contract. -/
def Signer.For (s : Signer κ) (d : Escrow.Deployment) : Prop :=
  s.escrowContract = d.self ∧ s.chainID = d.chainid

/-- The argument of a contract call that a voucher is converted to. -/
def toSolidity (state : Payment.PaymentState) :
    Escrow.PaymentState where
  contractID := hexToHash state.contractID
  publisher := hexToAddress state.publisher
  provider := hexToAddress state.provider
  sequence := state.sequence.toNat
  period := state.period.toNat
  cumulativePayment := state.cumulativePayment.toNat
  lastChallengeID := g.keccak256Hash state.lastChallengeID
  validUntil := state.validUntil.toNat
  status := (statusCode state.status).toNat
  signature := state.publisherSignature

end

section Signing

variable {g : Crypto κ Payment.Error} {s : Signer κ} {d : Escrow.Deployment}

/-- A digest is the hash of the packed arguments. -/
lemma paymentStateDigest_ok (h : paymentStateDigest g escrowContract chainID state = .ok digest) :
    ∃ packed, g.pack (paymentStateArguments g escrowContract chainID state) = .ok packed
      ∧ digest = g.keccak256Hash packed
      ∧ hexToHash state.contractID ≠ 0 ∧ hexToAddress state.provider ≠ 0 := by
  unfold paymentStateDigest at h
  dsimp only at h
  split at h
  · cases h
  rename_i hzero
  simp only [not_or] at hzero
  split at h
  · cases h
  rename_i packed hpacked
  exact ⟨packed, hpacked, (Except.ok.inj h).symm, hzero.1, hzero.2.2⟩

/-- The arguments are packed to the bytes that the contract hashes. -/
lemma pack_paymentStateArguments (hg : g.PacksAbi) :
    g.pack (paymentStateArguments g d.self d.chainid state)
      = .ok (Escrow.paymentStateBytes d (toSolidity g state)) := by
  rw [hg]
  · simp [paymentStateArguments, Escrow.paymentStateBytes, toSolidity, AbiArg.value]
  · simp [paymentStateArguments, AbiArg.Nonneg]

/-- The two sides compute the same digest. -/
lemma paymentStateDigest_eq (hg : Agrees g d) (hs : s.For d)
    (h : paymentStateDigest g s.escrowContract s.chainID state = .ok digest) :
    digest = Escrow.paymentStateDigest d (toSolidity g state)
      ∧ hexToHash state.contractID ≠ 0 ∧ hexToAddress state.provider ≠ 0 := by
  obtain ⟨packed, hpacked, rfl, hid, hprov⟩ := paymentStateDigest_ok h
  rw [hs.1, hs.2, pack_paymentStateArguments hg.packs] at hpacked
  cases hpacked
  exact ⟨hg.hash _, hid, hprov⟩

/-- The message that is signed for a digest, on both sides. -/
lemma textMessage_eq (digest : Bytes32) :
    textMessage (word digest.toNat) = Escrow.signedMessage digest := by
  have hlen : (word digest.toNat).length = 32 := Bytes.length_beBytes ..
  have hprefix : messagePrefix ++ decimal 32 = Escrow.signedMessagePrefix := by decide
  unfold textMessage Escrow.signedMessage
  rw [hlen, hprefix]

/-- `accounts.TextHash` of a digest is the hash the contract recovers the
signer from. -/
lemma textHash_eq (hkeccak : ∀ data, g.keccak256Hash data = d.keccak256 data) (digest : Bytes32) :
    textHash g (word digest.toNat) = word (Escrow.signedMessageHash d digest).toNat := by
  show word (g.keccak256Hash (textMessage (word digest.toNat))).toNat = _
  rw [textMessage_eq, hkeccak]
  rfl

/-- A voucher that converts is converted to `toSolidity`. -/
lemma convertPaymentStateToSolidity_ok
    (h : convertPaymentStateToSolidity g (hexToHash state.contractID) state = .ok ps) :
    ps = toSolidity g state := by
  unfold convertPaymentStateToSolidity at h
  dsimp only at h
  split at h
  · cases h
  · exact (Except.ok.inj h).symm

/-- Signing adds a signature and changes nothing else. -/
lemma Signer.sign_only (h : s.sign g state = .ok signed) :
    ∃ signature, signed = { state with publisherSignature := signature } := by
  unfold Signer.sign at h
  dsimp only at h
  split at h
  · cases h
  split at h
  · cases h
  split at h
  · cases h
  split at h
  · cases h
  · exact ⟨_, (Except.ok.inj h).symm⟩

/-- What a signer returns, and why it signed. -/
lemma Signer.sign_ok (hg : Agrees g d) (hs : s.For d) (h : s.sign g state = .ok signed) :
    ∃ r t v, signed = { state with publisherSignature := r ++ t ++ [v + 27] }
      ∧ r.length = 32 ∧ t.length = 32 ∧ (v = 0 ∨ v = 1) ∧ beNat t ≤ halfOrder
      ∧ d.ecrecover (Escrow.signedMessageHash d (Escrow.paymentStateDigest d (toSolidity g state)))
          (27 + v.toNat) (beNat r) (beNat t) = g.pubkeyToAddress s.privateKey
      ∧ hexToAddress state.publisher = g.pubkeyToAddress s.privateKey
      ∧ hexToAddress state.publisher ≠ 0 ∧ hexToAddress state.provider ≠ 0
      ∧ hexToHash state.contractID ≠ 0 ∧ state.validUntil ≠ 0 := by
  unfold Signer.sign at h
  split at h
  · cases h
  rename_i hvalid
  dsimp only at h
  split at h
  · cases h
  rename_i hpub
  simp only [not_or, ne_eq, not_not] at hpub
  split at h
  · cases h
  rename_i digest hdigest
  obtain ⟨rfl, hid, hprov⟩ := paymentStateDigest_eq hg hs hdigest
  rw [textHash_eq hg.hash] at h
  split at h
  · cases h
  rename_i sig hsig
  obtain ⟨r, t, v, rfl, hr, ht, hv, hhalf, hrec⟩ := hg.signs _ _ _ hsig
  cases h
  rw [modify_signature hr ht]
  exact ⟨r, t, v, rfl, hr, ht, hv, hhalf, hrec, hpub.2, hpub.1, hprov, hid, hvalid⟩

/-- The contract takes a signature apart the way it was put together. -/
lemma recoverPaymentSigner_parts {ps : Escrow.PaymentState}
    (hsig : ps.signature = r ++ t ++ [v]) (hr : r.length = 32) (ht : t.length = 32)
    (hv : v.toNat = 27 ∨ v.toNat = 28) (hhalf : beNat t ≤ halfOrder) :
    Escrow.recoverPaymentSigner d ps
      = d.ecrecover (Escrow.signedMessageHash d (Escrow.paymentStateDigest d ps)) v.toNat (beNat r)
        (beNat t) := by
  obtain ⟨hfirst, hmid, hlast⟩ := signature_parts (v := v) hr ht
  unfold Escrow.recoverPaymentSigner
  rw [if_neg (by simp [hsig, hr, ht]), hsig, hfirst, hmid, hlast]
  dsimp only
  rw [if_neg (by omega : ¬v.toNat < 27), if_neg (by omega)]

/-- **A signed voucher is redeemable**: it converts, and the contract
recovers the owner of the key from it. -/
theorem sign_redeemable (hg : Agrees g d) (hs : s.For d) (h : s.sign g state = .ok signed) :
    convertPaymentStateToSolidity g (hexToHash signed.contractID) signed
        = .ok (toSolidity g signed)
      ∧ Escrow.recoverPaymentSigner d (toSolidity g signed) = g.pubkeyToAddress s.privateKey
      ∧ hexToAddress signed.publisher = g.pubkeyToAddress s.privateKey := by
  obtain ⟨r, t, v, rfl, hr, ht, hv, hhalf, hrec, hpub, hpub0, hprov0, hid0, hvalid⟩ :=
    Signer.sign_ok hg hs h
  refine ⟨?_, ?_, hpub⟩
  · unfold convertPaymentStateToSolidity
    rw [if_neg]
    · rfl
    · simp only [not_or]
      exact ⟨hid0, hpub0, hprov0, by simp [hr, ht], hvalid⟩
  · have hvee : (v + 27).toNat = 27 + v.toNat := by
      rcases hv with rfl | rfl <;> rfl
    have hcode : v.toNat = 0 ∨ v.toNat = 1 := by
      rcases hv with rfl | rfl
      · exact .inl rfl
      · exact .inr rfl
    rw [recoverPaymentSigner_parts rfl hr ht (by omega) hhalf, hvee]
    exact hrec

end Signing

end Cipher.Ethereum
