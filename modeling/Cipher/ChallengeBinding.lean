import Cipher.ContractRuns
import Cipher.Possession

/-!
# What a recorded pass answers

`VerifyAndRecordChallengeResponse` takes the challenge as an argument, and of
the one that was issued the store has the ID only. So a pass is recorded for
an ID that was issued for the contract, and what else the response was checked
against is what the argument has: the chunk, the nonce and the time of the
issued challenge only if the argument has them too.
-/

namespace Cipher.Availability

open Bytes Binary Go Content Transition Function List

namespace ContractHistory

variable {sha256 : List UInt8 → Hash} {spare : Nat → Nat → Nat} {ed : Ed25519}
  {h : ContractHistory}

/-- Every ID that the store has was issued for the contract it has. -/
def Issued (h : ContractHistory) : Prop :=
  ∀ {challengeId contractId : Str}, h.store.challenges challengeId = some contractId →
    ∃ i ∈ h.issued, i.challengeId = challengeId ∧ i.contractId = contractId

lemma contractId_of_next {s : ContractStore}
    (hnext : s.Next spare contractId c randomId (.ok generated, epochs)) :
    generated.contractId = contractId := by
  cases hnext with
  | continued _ _ _ hcontract => exact hcontract
  | started _ _ _ _ _ hcontract => exact hcontract

lemma Issued.change (hissued : Issued h) (hchange : Change sha256 spare h call h') : Issued h' := by
  cases hchange with
  | @challenge contractId _ _ _ _ _ _ generated _ _ _ hnext _ =>
    intro challengeId id howner
    change update _ _ _ _ = _ at howner
    by_cases heq : challengeId = generated.challengeId
    · rw [heq, update_self] at howner
      cases howner
      exact ⟨generated, mem_append_right _ (mem_singleton_self _), heq.symm,
        contractId_of_next hnext⟩
    · rw [update_of_ne heq] at howner
      obtain ⟨i, hi, hids⟩ := hissued howner
      exact ⟨i, mem_append_left _ hi, hids⟩
  | _ => exact hissued

lemma issued_of_run (hr : Run (step sha256 spare ed) ok init h) : Issued h :=
  Run.inv (I := Issued) hr nofun fun _ _ _ _ hstep hissued =>
    hissued.change (change_of_step hstep)

end ContractHistory

/-! ## A result that was recorded -/

variable {sha256 : List UInt8 → Hash} {ed : Ed25519} {s store : ContractStore} {contractId : Str}

lemma ContractStore.recordAvailabilityResult_eq_ok
    (h : s.recordAvailabilityResult contractId challengeId result now = (.ok state, store)) :
    s.challenges challengeId = some contractId ∧ ∃ p c, s.find contractId = some (p, c) ∧
      store = s.put p (c.addResult contractId challengeId result.succeeded now) := by
  unfold recordAvailabilityResult at h
  split at h
  · cases h
  rename_i p c hfind
  split at h
  · cases h
  split at h
  · cases h
  rename_i howner
  split at h
  · cases h
  split at h
  · cases h
  cases h
  exact ⟨not_not.mp howner, p, c, hfind, rfl⟩

lemma succeeded_buildChallengeResult :
    (buildChallengeResult sha256 ed challenge response root key maxTimeout now).succeeded = true ↔
      Accepted sha256 ed challenge response root key maxTimeout := by
  rw [← verifyChallengeResponse_eq_ok, buildChallengeResult]
  cases verifyChallengeResponse sha256 ed challenge response root key maxTimeout with
  | error e => exact iff_of_false nofun nofun
  | ok => exact iff_of_true rfl rfl

namespace ContractHistory

variable {spare : Nat → Nat → Nat} {h : ContractHistory}

/-- A pass is recorded for an ID that was issued for the contract. As far as
the argument agrees with the challenge that was issued, the response proves
its chunk, is signed over its nonce, if a key is given, and came in its time,
if there is a limit. -/
theorem passed_challenge (hr : Run (step sha256 spare ed) (fun _ _ => True) init h)
    {challenge : Challenge} {response : ChallengeResponse} {root key : List UInt8}
    {maxTimeout now recordedAt : Int} {state : ContractState} {result : ChallengeResult}
    (hcall : h.store.verifyAndRecordChallengeResponse sha256 ed contractId challenge response root
      key maxTimeout now recordedAt = ((.ok state, result), store))
    (hpass : result.succeeded = true) :
    (∃ p c, h.store.find contractId = some (p, c) ∧ store.objects[p]? =
      some (c.addResult contractId challenge.challengeId true recordedAt)) ∧
    (∃ i ∈ h.issued, i.challengeId = challenge.challengeId ∧ i.contractId = contractId) ∧
    ∀ i ∈ h.issued, i.challengeId = challenge.challengeId → (challenge.chunkId = i.chunkId →
        verifyMerkleProof sha256 response.chunkHash i.chunkId response.merkleProof root = true) ∧
      (challenge.nonce = i.nonce → key ≠ [] → ed.verify key
        (computeProofDigest sha256 response.chunkHash i.nonce i.challengeId)
        response.signature = true) ∧
      (challenge.createdAt = i.createdAt → 0 < maxTimeout →
        response.respondedAt ≤ i.createdAt + maxTimeout) := by
  unfold ContractStore.verifyAndRecordChallengeResponse at hcall
  dsimp only at hcall
  split at hcall
  · cases hcall
  rename_i hrecord
  cases hcall
  obtain ⟨howner, p, c, hfind, rfl⟩ := ContractStore.recordAvailabilityResult_eq_ok hrecord
  have haccepted := succeeded_buildChallengeResult.mp hpass
  refine ⟨⟨p, c, hfind, ?_⟩, issued_of_run hr howner, fun i _ hid => ⟨?_, ?_, ?_⟩⟩
  · rw [hpass]
    exact (ContractStore.objects_put hfind).mpr (.inl ⟨rfl, rfl⟩)
  · intro hchunk
    rw [← hchunk, ← haccepted.chunkId]
    exact haccepted.merkleProof
  · intro hnonce hkey
    rw [← hnonce, hid]
    exact haccepted.signature (length_pos_iff.mpr hkey)
  · intro hcreated htimeout
    rw [← hcreated]
    exact haccepted.inTime htimeout

/-! ## Samples -/

/-- A contract for which the challenge of chunk 0 was issued at time 1, with
a nonce of zeros. -/
def sampleIssued : ContractHistory :=
  (execute (step sampleHash (fun _ _ => 0) sampleEd)
    [sampleCreate 0, .fund (sampleId 0) 10, sampleInitiate 0 0 0 1] init).getD init

lemma run_sampleIssued :
    Run (step sampleHash (fun _ _ => 0) sampleEd) (fun _ _ => True) init sampleIssued :=
  .of_execute [sampleCreate 0, .fund (sampleId 0) 10, sampleInitiate 0 0 0 1] rfl

/-- The public key of the provider. -/
def sampleKey : List UInt8 := (Block.ofList 32 [5]).val

/-- An argument with the ID that was issued. -/
def sampleArgument (chunkId : Int) (nonce : UInt8) (createdAt : Int) : Challenge :=
  { challengeId := sampleChallengeId, contractId := sampleId 0, providerId := [2], fileId := [3]
    epochId := [], chunkId, nonce := (Block.ofList 32 [nonce]).val, challengeCounter := 0
    roundNumber := 0, triggerStatus := false, createdAt }

/-- A file of two equal chunks, and the answer to such an argument. -/
def sampleLeaf : List UInt8 := (Block.ofList 32 [6]).val

def sampleAnswer (argument : Challenge) (respondedAt : Int) : ChallengeResponse :=
  { challengeId := argument.challengeId, contractId := argument.contractId
    providerId := argument.providerId, fileId := argument.fileId, chunkId := argument.chunkId
    chunkHash := sampleLeaf, merkleProof := [sampleLeaf]
    signature := (Block.ofList 64 (sampleKey ++
      computeProofDigest sampleHash sampleLeaf argument.nonce argument.challengeId)).val
    respondedAt }

/-- The issued challenge is answered in time. -/
theorem passed_challenge_sample : ∃ (i : Challenge) (result : ChallengeResult)
    (store : ContractStore), sampleIssued.issued = [i] ∧
    sampleIssued.store.verifyAndRecordChallengeResponse sampleHash sampleEd (sampleId 0)
      (sampleArgument 0 0 1) (sampleAnswer (sampleArgument 0 0 1) 5)
      (sampleHash (sampleLeaf ++ sampleLeaf)).val sampleKey 10 6 6 =
        ((.ok .active, result), store) ∧
    result.succeeded = true ∧
    ∃ j ∈ sampleIssued.issued, j.challengeId = sampleChallengeId ∧ j.contractId = sampleId 0 := by
  have hcall : sampleIssued.store.verifyAndRecordChallengeResponse sampleHash sampleEd (sampleId 0)
      (sampleArgument 0 0 1) (sampleAnswer (sampleArgument 0 0 1) 5)
      (sampleHash (sampleLeaf ++ sampleLeaf)).val sampleKey 10 6 6 = ((.ok .active, _), _) := rfl
  exact ⟨_, _, _, rfl, hcall, rfl, (passed_challenge run_sampleIssued hcall rfl).2.1⟩

/-- Chunk 1 is proved instead, for a nonce that was not issued and long after
the time. -/
theorem passed_other_challenge : ∃ (i : Challenge) (result : ChallengeResult)
    (store : ContractStore),
    Run (step sampleHash (fun _ _ => 0) sampleEd) (fun _ _ => True) init sampleIssued ∧
    sampleIssued.issued = [i] ∧ (sampleArgument 1 9 100).challengeId = i.challengeId ∧
    sampleIssued.store.verifyAndRecordChallengeResponse sampleHash sampleEd (sampleId 0)
      (sampleArgument 1 9 100) (sampleAnswer (sampleArgument 1 9 100) 105)
      (sampleHash (sampleLeaf ++ sampleLeaf)).val sampleKey 10 106 106 =
        ((.ok .active, result), store) ∧
    result.succeeded = true ∧ (sampleAnswer (sampleArgument 1 9 100) 105).chunkId ≠ i.chunkId ∧
    sampleEd.verify sampleKey (computeProofDigest sampleHash sampleLeaf i.nonce i.challengeId)
      (sampleAnswer (sampleArgument 1 9 100) 105).signature = false ∧
    i.createdAt + 10 < (sampleAnswer (sampleArgument 1 9 100) 105).respondedAt :=
  ⟨_, _, _, run_sampleIssued, rfl, by decide, rfl, by decide, by decide, by decide, by decide⟩

end ContractHistory

end Cipher.Availability
