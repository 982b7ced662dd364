import Cipher.Verification

/-!
# What the signature of an answer covers

A provider signs a hash of three strings one after the other. Only the first
has a length of its own, so a byte can move from the nonce to the ID behind
it (`digests_apart_iff`). The time of the answer is not signed, and whoever
passes the answer on can set it (`late_answer_retimed`).
-/

namespace Cipher.Availability

open Bytes Binary Go Content List

/-- What `ComputeProofDigest` hashes. -/
def proofPayload (chunkHash nonce : List UInt8) (challengeId : Str) : List UInt8 :=
  chunkHash ++ nonce ++ challengeId

section

variable {sha256 : List UInt8 → Hash} {ed : Ed25519} {challenge : Challenge}
  {response : ChallengeResponse} {root key : List UInt8} {maxTimeout : Int}

lemma payload_eq_iff {hash hash' nonce nonce' : List UInt8} {id id' : Str}
    (hlength : hash.length = hash'.length)
    (h : proofPayload hash nonce id = proofPayload hash' nonce' id') :
    (hash = hash' ∧ nonce = nonce' ∧ id = id') ↔ nonce.length = nonce'.length := by
  simp only [proofPayload, append_assoc] at h
  obtain ⟨rfl, hrest⟩ := append_inj h hlength
  refine ⟨fun hsame => congrArg length hsame.2.1, fun hnonce => ⟨rfl, ?_⟩⟩
  exact append_inj hrest hnonce

lemma Accepted.length_chunkHash (h : Accepted sha256 ed challenge response root key maxTimeout) :
    response.chunkHash.length = 32 := by
  have hproof := h.merkleProof
  unfold verifyMerkleProof at hproof
  split at hproof
  · cases hproof
  · rename_i hsizes
    exact not_not.mp (not_or.mp hsizes).1

/-- **Equal digests are of one challenge** exactly if the nonces are of one
length. The second part is about a signature that is accepted twice, where it
is good for one digest only and the two digests are no collision. -/
theorem digests_apart_iff (sha256 : List UInt8 → Hash) (ed : Ed25519) :
    (∀ hash hash' nonce nonce' id id', hash.length = 32 → hash'.length = 32 →
      proofPayload hash nonce id = proofPayload hash' nonce' id' →
      ((hash = hash' ∧ nonce = nonce' ∧ id = id') ↔ nonce.length = nonce'.length)) ∧
    ∀ c c' r r' root root' key t t', 0 < key.length →
      verifyChallengeResponse sha256 ed c r root key t = .ok () →
      verifyChallengeResponse sha256 ed c' r' root' key t' = .ok () →
      r.signature = r'.signature →
      (∀ digest digest', ed.verify key digest r.signature = true →
        ed.verify key digest' r.signature = true → digest = digest') →
      (sha256 (proofPayload r.chunkHash c.nonce c.challengeId) =
          sha256 (proofPayload r'.chunkHash c'.nonce c'.challengeId) →
        proofPayload r.chunkHash c.nonce c.challengeId =
          proofPayload r'.chunkHash c'.nonce c'.challengeId) →
      ((r.chunkHash = r'.chunkHash ∧ c.nonce = c'.nonce ∧ c.challengeId = c'.challengeId) ↔
        c.nonce.length = c'.nonce.length) := by
  refine ⟨fun _ _ _ _ _ _ hhash hhash' => payload_eq_iff (hhash.trans hhash'.symm), ?_⟩
  intro c c' r r' root root' key t t' hkey h h' hsame hbinds hsha
  have hok := (verifyChallengeResponse_eq_ok ..).mp h
  have hok' := (verifyChallengeResponse_eq_ok ..).mp h'
  refine payload_eq_iff (hok.length_chunkHash.trans hok'.length_chunkHash.symm) ?_
  exact hsha (Subtype.ext (hbinds _ _ (hok.signature hkey) (hsame ▸ hok'.signature hkey)))

/-- **Every answer that is accepted could have been late**: with a time after
the deadline it is refused for that alone. -/
theorem late_answer_retimed (htimeout : 0 < maxTimeout)
    (hok : verifyChallengeResponse sha256 ed challenge response root key maxTimeout = .ok ()) :
    ∃ late, { late with respondedAt := response.respondedAt } = response ∧
      challenge.createdAt + maxTimeout < late.respondedAt ∧
      verifyChallengeResponse sha256 ed challenge late root key maxTimeout = .error .deadline := by
  have h := (verifyChallengeResponse_eq_ok ..).mp hok
  refine ⟨{ response with respondedAt := challenge.createdAt + maxTimeout + 1 }, rfl,
    Int.lt_succ _, ?_⟩
  simp [verifyChallengeResponse, h.nonempty, h.challengeId, h.contractId, h.providerId, h.fileId,
    h.chunkId, htimeout]

end

/-- A signature is the digest and 32 zeros. -/
def plainEd : Ed25519 where
  publicKey _ := List.replicate 32 0
  sign _ digest := digest ++ List.replicate 32 0
  verify _ digest signature := signature = digest ++ List.replicate 32 0

def firstBytes (bs : List UInt8) : Hash := .ofList 32 bs

/-- A challenge of the file of one chunk, and its answer after `seconds`. -/
def challengeOf (id : Str) (nonce : List UInt8) : Challenge :=
  ⟨id, [1], [2], [3], [4], 0, nonce, 0, 0, true, 100⟩

def answerOf (id : Str) (seconds : Int) : ChallengeResponse :=
  ⟨id, [1], [2], [3], 0, List.replicate 32 7, [], List.replicate 32 7 ++ List.replicate 32 0,
    100 + seconds⟩

def checked (id : Str) (nonce : List UInt8) (seconds : Int) : Except VerifyError Unit :=
  verifyChallengeResponse firstBytes plainEd (challengeOf id nonce) (answerOf id seconds)
    (List.replicate 32 7) (List.replicate 32 0) 60

/-- The byte 1 belongs to the ID or to the nonce. -/
theorem digest_of_two_challenges :
    proofPayload (List.replicate 32 7) [] [1, 2] = proofPayload (List.replicate 32 7) [1] [2] ∧
      checked [1, 2] [] 0 = .ok () ∧ checked [2] [1] 0 = .ok () := by decide

theorem late_answer_retimed_sample : ∃ late,
    { late with respondedAt := 100 } = answerOf [1] 0 ∧ 100 + 60 < late.respondedAt ∧
      verifyChallengeResponse firstBytes plainEd (challengeOf [1] []) late (List.replicate 32 7)
        (List.replicate 32 0) 60 = .error .deadline :=
  @late_answer_retimed firstBytes plainEd (challengeOf [1] []) (answerOf [1] 0) _ _ 60
    (by decide) (by decide)

/-- The same answer, but for its time, after 61 and after 60 seconds. -/
theorem late_answer_accepted : { answerOf [1] 61 with respondedAt := 160 } = answerOf [1] 60 ∧
    checked [1] [] 61 = .error .deadline ∧ checked [1] [] 60 = .ok () := by decide

end Cipher.Availability
