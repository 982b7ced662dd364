import Cipher.Merkle

/-!
# Answers to availability challenges

The package `verification`: what a provider answers a challenge with, and
`VerifyChallengeResponse`. It accepts an answer that repeats the identifiers
of the challenge, is in time, has a path from the chunk's hash to the root it
is given, and is signed; a time limit that is not positive and an empty key
leave out the check they are for.
-/

namespace Cipher.Availability

open Bytes Binary Go Content

structure Challenge where
  challengeId : Str
  contractId : Str
  providerId : Str
  fileId : Str
  epochId : Str
  chunkId : Int
  nonce : List UInt8
  challengeCounter : UInt64
  roundNumber : UInt64
  triggerStatus : Bool
  createdAt : Int
deriving DecidableEq

structure ChallengeResponse where
  challengeId : Str
  contractId : Str
  providerId : Str
  fileId : Str
  chunkId : Int
  chunkHash : List UInt8
  merkleProof : List (List UInt8)
  signature : List UInt8
  respondedAt : Int
deriving DecidableEq

/-- `crypto/ed25519`. A private key has 64 bytes. -/
structure Ed25519 where
  publicKey : Block 64 → List UInt8
  sign : Block 64 → List UInt8 → List UInt8
  verify : List UInt8 → List UInt8 → List UInt8 → Bool

/-- Genuine signatures are accepted. -/
structure Ed25519.Correct (ed : Ed25519) : Prop where
  length_publicKey : ∀ key, (ed.publicKey key).length = 32
  length_sign : ∀ key message, (ed.sign key message).length = 64
  verify_sign : ∀ key message, ed.verify (ed.publicKey key) message (ed.sign key message) = true

inductive VerifyError where
  | emptyChallengeId
  | challengeId | contractId | providerId | fileId | chunkId
  | deadline
  | rootLength | merkleProof
  | keySize | signatureSize | signature
deriving DecidableEq

variable (sha256 : List UInt8 → Hash) (ed : Ed25519)

def computeProofDigest (chunkHash nonce : List UInt8) (challengeId : Str) : List UInt8 :=
  (sha256 (chunkHash ++ nonce ++ challengeId)).val

/-- `(true, nil)` is `ok`; in all other cases there is an error. -/
def verifyChallengeResponse (challenge : Challenge) (response : ChallengeResponse)
    (expectedMerkleRoot providerPubKey : List UInt8) (maxTimeout : Int) :
    Except VerifyError Unit :=
  if challenge.challengeId = [] then .error .emptyChallengeId
  else if response.challengeId ≠ challenge.challengeId then .error .challengeId
  else if response.contractId ≠ challenge.contractId then .error .contractId
  else if response.providerId ≠ challenge.providerId then .error .providerId
  else if response.fileId ≠ challenge.fileId then .error .fileId
  else if response.chunkId ≠ challenge.chunkId then .error .chunkId
  else if 0 < maxTimeout ∧ challenge.createdAt + maxTimeout < response.respondedAt then
    .error .deadline
  else if expectedMerkleRoot.length ≠ 32 then .error .rootLength
  else if verifyMerkleProof sha256 response.chunkHash response.chunkId response.merkleProof
      expectedMerkleRoot = false then .error .merkleProof
  else if 0 < providerPubKey.length ∧ providerPubKey.length ≠ 32 then .error .keySize
  else if 0 < providerPubKey.length ∧ response.signature.length ≠ 64 then .error .signatureSize
  else if 0 < providerPubKey.length ∧ ed.verify providerPubKey
      (computeProofDigest sha256 response.chunkHash challenge.nonce challenge.challengeId)
      response.signature = false then .error .signature
  else .ok ()

/-- What an accepted answer has. -/
structure Accepted (challenge : Challenge) (response : ChallengeResponse)
    (expectedMerkleRoot providerPubKey : List UInt8) (maxTimeout : Int) : Prop where
  nonempty : challenge.challengeId ≠ []
  challengeId : response.challengeId = challenge.challengeId
  contractId : response.contractId = challenge.contractId
  providerId : response.providerId = challenge.providerId
  fileId : response.fileId = challenge.fileId
  chunkId : response.chunkId = challenge.chunkId
  inTime : 0 < maxTimeout → response.respondedAt ≤ challenge.createdAt + maxTimeout
  rootLength : expectedMerkleRoot.length = 32
  merkleProof : verifyMerkleProof sha256 response.chunkHash response.chunkId response.merkleProof
    expectedMerkleRoot = true
  keySize : 0 < providerPubKey.length → providerPubKey.length = 32
  signatureSize : 0 < providerPubKey.length → response.signature.length = 64
  signature : 0 < providerPubKey.length → ed.verify providerPubKey
    (computeProofDigest sha256 response.chunkHash challenge.nonce challenge.challengeId)
    response.signature = true

lemma ite_error_eq_ok {ε α : Type} {p : Prop} [Decidable p] {e : ε} {x : Except ε α} {a : α} :
    (if p then .error e else x) = .ok a ↔ ¬p ∧ x = .ok a := by
  split <;> simp_all

lemma verifyChallengeResponse_eq_ok {challenge : Challenge} {response : ChallengeResponse}
    {expectedMerkleRoot providerPubKey : List UInt8} {maxTimeout : Int} :
    verifyChallengeResponse sha256 ed challenge response expectedMerkleRoot providerPubKey
        maxTimeout = .ok () ↔
      Accepted sha256 ed challenge response expectedMerkleRoot providerPubKey maxTimeout := by
  rw [verifyChallengeResponse]
  simp only [ite_error_eq_ok, not_and, not_not, not_lt, Bool.not_eq_false, and_true]
  constructor
  · rintro ⟨h₁, h₂, h₃, h₄, h₅, h₆, h₇, h₈, h₉, h₁₀, h₁₁, h₁₂⟩
    exact ⟨h₁, h₂, h₃, h₄, h₅, h₆, h₇, h₈, h₉, h₁₀, h₁₁, h₁₂⟩
  · rintro ⟨h₁, h₂, h₃, h₄, h₅, h₆, h₇, h₈, h₉, h₁₀, h₁₁, h₁₂⟩
    exact ⟨h₁, h₂, h₃, h₄, h₅, h₆, h₇, h₈, h₉, h₁₀, h₁₁, h₁₂⟩

end Cipher.Availability
