import Cipher.Contracts

/-!
# Runs of the contract API

What any call can do to the contracts (`Change`), with the conditions under
which it does it, and what that is for the record of one contract (`Touch`).
A call that does something else does nothing. The invariants of the following
files are by cases on one of the two.

`ContractHistory` has, besides the store, the challenges that were issued and
the contracts whose settlement succeeded.
-/

namespace Cipher.Availability

open Bytes Binary Go Content Slices Transition List

inductive ContractCall where
  | create (publisherId providerId fileId : Str) (paymentAmount duration : Int64)
      (resolver : Option (Str → Str → Option Int64)) (random : Option (Block 16)) (now : Int)
  | fund (contractId : Str) (paymentAmount : Int64)
  | initiate (contractId : Str) (randomId : Option (Block 16)) (randomNonce : Option (Block 32))
      (now issuedAt : Int)
  | record (contractId challengeId : Str) (result : ChallengeResult) (now : Int)
  | verifyAndRecord (contractId : Str) (challenge : Challenge) (response : ChallengeResponse)
      (fileMerkleRoot providerPubKey : List UInt8) (maxTimeout now recordedAt : Int)
  | settle (contractId : Str) (now finalizedAt : Int)
  | terminate (contractId : Str) (now : Int)

structure ContractHistory where
  store : ContractStore
  issued : List Challenge
  settled : List Nat

namespace ContractHistory

def init : ContractHistory := ⟨.empty, [], []⟩

variable (sha256 : List UInt8 → Hash) (spare : Nat → Nat → Nat) (ed : Ed25519)

def noteIssued (h : ContractHistory) : Except ContractError Challenge × ContractStore →
    ContractHistory
  | (.ok generated, store) => { h with store, issued := h.issued ++ [generated] }
  | (.error _, store) => { h with store }

def noteSettled (h : ContractHistory) (contractId : Str) :
    Except ContractError SettlementStatus × ContractStore → ContractHistory
  | (.ok _, store) =>
    { h with store, settled := (h.store.contracts contractId).toList ++ h.settled }
  | (.error _, store) => { h with store }

def step : ContractCall → ContractHistory → Option ContractHistory
  | .create publisherId providerId fileId paymentAmount duration resolver random now, h =>
    some { h with store := (h.store.createAvailabilityContract publisherId providerId fileId
      paymentAmount duration resolver random now).2 }
  | .fund contractId paymentAmount, h =>
    some { h with store := (h.store.fundAvailabilityContract contractId paymentAmount).2 }
  | .initiate contractId randomId randomNonce now issuedAt, h =>
    some (h.noteIssued (h.store.initiate sha256 spare contractId randomId randomNonce now issuedAt))
  | .record contractId challengeId result now, h =>
    some { h with store := (h.store.recordAvailabilityResult contractId challengeId result now).2 }
  | .verifyAndRecord contractId challenge response fileMerkleRoot providerPubKey maxTimeout now
      recordedAt, h =>
    some { h with store := (h.store.verifyAndRecordChallengeResponse sha256 ed contractId challenge
      response fileMerkleRoot providerPubKey maxTimeout now recordedAt).2 }
  | .settle contractId now finalizedAt, h =>
    some (h.noteSettled contractId
      (h.store.settleAvailabilityContract contractId now finalizedAt))
  | .terminate contractId now, h =>
    some { h with store := (h.store.terminateAvailabilityContract contractId now).2 }

end ContractHistory

/-! ## Small facts -/

lemma ContractState.transition_cases (source target : ContractState) :
    (source.canTransition target = true ∧ source.transition target = .ok target) ∨
    source.canTransition target = false ∧
      source.transition target = .error (.invalidTransition source target) := by
  rw [transition]
  cases source.canTransition target with
  | false => exact .inr ⟨rfl, if_neg Bool.false_ne_true⟩
  | true => exact .inl ⟨rfl, if_pos rfl⟩

namespace AvailabilityContract

variable {c : AvailabilityContract}

/-- The states in which a challenge can be issued. -/
structure Challengeable (c : AvailabilityContract) : Prop where
  state : c.state = .agreed ∨ c.state = .active
  funded : c.fundedAmount = c.paymentAmount

/-- A contract that is challenged is active. -/
def activated (c : AvailabilityContract) : AvailabilityContract :=
  if c.state = .agreed then
    { c with state := .active, visited := c.visited ++ [.transferring, .ready, .active] }
  else c

lemma activate_eq (c : AvailabilityContract) : c.activate = (.ok (), c.activated) := by
  rw [activate, activated]
  split
  · rename_i hstate
    have hfirst : c.state.transition .transferring = .ok .transferring := by
      rw [hstate]
      rfl
    rw [advance, hfirst]
    change (Except.ok (), ((c.setState .transferring).setState .ready).setState .active) = _
    simp only [setState, append_assoc]
    rfl
  · rfl

lemma activated_eq (h : c.Challengeable) : ∃ written,
    c.activated = { c with state := .active, visited := c.visited ++ written } ∧
      (c.state = .active ∨ .active ∈ written) := by
  rw [activated]
  rcases h.state with hstate | hstate
  · rw [if_pos hstate]
    exact ⟨_, rfl, .inr (mem_of_getLast? rfl)⟩
  · rw [if_neg (by rw [hstate]; nofun)]
    refine ⟨[], ?_, .inl hstate⟩
    rw [append_nil, ← hstate]

end AvailabilityContract

namespace ContractStore

variable {s : ContractStore} {contractId : Str} {p : Nat} {contract : AvailabilityContract}

lemma find_eq_some : s.find contractId = some (p, contract) ↔
      s.contracts contractId = some p ∧ s.objects[p]? = some contract := by
  rw [find, pointer_eq_some]

/-- The objects after a record was replaced. -/
lemma objects_put (hfind : s.find contractId = some (p, contract)) :
    (s.objects.set p c')[q]? = some d ↔ (q = p ∧ d = c') ∨ (q ≠ p ∧ s.objects[q]? = some d) :=
  getElem?_set_eq_some (find_eq_some.mp hfind).2

end ContractStore

/-! ## The next challenge -/

lemma EpochStore.createChallenge_cases (spare : Nat → Nat → Nat)
    (s : EpochStore) (contractId providerId fileId : Str) (totalChunks : Int64)
    (roundNumber : UInt64) (randomId : Option (Block 16)) (randomNonce : Option (Block 32))
    (now : Int) :
    (∃ e, s.createChallenge sha256 spare contractId providerId fileId totalChunks roundNumber
      randomId randomNonce now = (.error e, s)) ∨
    ∃ r, randomId = some r ∧ 0 < totalChunks ∧
      let started := s.start (epochIdOf r) providerId fileId totalChunks now
      (∃ e, s.createChallenge sha256 spare contractId providerId fileId totalChunks roundNumber
        randomId randomNonce now = (.error e, started)) ∨
      ∃ c p epoch k, started.Selects (epochIdOf r) p epoch k c.chunkId ∧
        c.epochId = epochIdOf r ∧ c.contractId = contractId ∧ Rounded sha256 c roundNumber ∧
        s.createChallenge sha256 spare contractId providerId fileId totalChunks roundNumber
          randomId randomNonce now = (.ok c, started.take spare p epoch k) := by
  unfold createChallenge
  split
  · exact .inl ⟨_, rfl⟩
  rcases s.createEpoch_cases .. with ⟨e, he⟩ | ⟨r, hr, -, -, htotal, hok⟩
  · rw [he]
    exact .inl ⟨e, rfl⟩
  · rw [hok]
    refine .inr ⟨r, hr, htotal, ?_⟩
    exact generateNextChallenge_cases ..

/-- What there can be instead of a next challenge, or with it. -/
inductive ContractStore.Next (spare : Nat → Nat → Nat) (s : ContractStore) (contractId : Str)
    (contract : AvailabilityContract) (randomId : Option (Block 16)) :
    Except ContractError Challenge × EpochStore → Prop where
  | failed (e : ContractError) : Next spare s contractId contract randomId (.error e, s.epochs)
  | continued {p : Nat} {epoch : Epoch} {k : Nat}
      (htracked : s.activeEpochs contractId = some tracked)
      (hselects : s.epochs.Selects tracked.id p epoch k c.chunkId) (hepoch : c.epochId = tracked.id)
      (hcontract : c.contractId = contractId) :
      Next spare s contractId contract randomId (.ok c, s.epochs.take spare p epoch k)
  | startFailed (e : ContractError) (hr : randomId = some r) (htotal : 0 < contract.totalChunks) :
      Next spare s contractId contract randomId (.error e, s.epochs.start (EpochStore.epochIdOf r)
        contract.providerId contract.fileId contract.totalChunks now)
  | started {p : Nat} {epoch : Epoch} {k : Nat} {started : EpochStore} (hr : randomId = some r)
      (htotal : 0 < contract.totalChunks)
      (hstart : started = s.epochs.start (EpochStore.epochIdOf r) contract.providerId
        contract.fileId contract.totalChunks now)
      (hselects : started.Selects (EpochStore.epochIdOf r) p epoch k c.chunkId)
      (hepoch : c.epochId = EpochStore.epochIdOf r) (hcontract : c.contractId = contractId) :
      Next spare s contractId contract randomId (.ok c, started.take spare p epoch k)

lemma ContractStore.next_nextChallenge (s : ContractStore) (contractId : Str)
    (contract : AvailabilityContract)
    (randomId : Option (Block 16)) (randomNonce : Option (Block 32)) (now : Int) :
    Next spare s contractId contract randomId
      (s.nextChallenge sha256 spare contractId contract randomId randomNonce now) := by
  have hcreate (roundNumber : UInt64) : Next spare s contractId contract randomId
      ((s.epochs.createChallenge sha256 spare contractId contract.providerId contract.fileId
        contract.totalChunks roundNumber randomId randomNonce now).map
        (·.mapError .generateChallenge) id) := by
    rcases EpochStore.createChallenge_cases ..
      with ⟨e, he⟩ | ⟨r, hr, htotal, ⟨e, he⟩ | ⟨c, p, epoch, k, hselects, hepoch, hc, -, hok⟩⟩
    · rw [he]
      exact .failed _
    · rw [he]
      exact .startFailed _ hr htotal
    · rw [hok]
      exact .started hr htotal rfl hselects hepoch hc
  rw [nextChallenge]
  split
  · exact hcreate 0
  rename_i tracked htracked
  split
  · exact .failed _
  rename_i epochState _
  split
  · rcases EpochStore.generateNextChallenge_cases ..
      with ⟨e, he⟩ | ⟨c, p, epoch, k, hselects, hepoch, hc, -, hok⟩
    · rw [he]
      exact .failed _
    · rw [hok]
      exact .continued htracked hselects hepoch hc
  · exact hcreate _

/-! ## One record -/

namespace AvailabilityContract

/-- What a call can do to the record of the contract that it finds under an
ID. -/
inductive Touch (contractId : Str) (c : AvailabilityContract) :
    ContractCall → AvailabilityContract → Prop where
  | fund {call : ContractCall} (hstate : c.state = .proposed) :
      Touch contractId c call { c.setState .agreed with fundedAmount := c.paymentAmount }
  | expire {now issuedAt : Int} (hchallengeable : c.Challengeable) (hends : c.endsAt ≤ now) :
      Touch contractId c (.initiate contractId randomId randomNonce now issuedAt)
        (c.setState .expired)
  | challenge {call : ContractCall} (hchallengeable : c.Challengeable) (challengeId : Str) :
      Touch contractId c call
        { c.activated with challenges := c.activated.challenges ++ [challengeId] }
  | record {call : ContractCall} (hactive : c.state = .active) (challengeId : Str)
      (succeeded : Bool) (now : Int) (hnew : challengeId ∉ c.results.map (·.challengeId)) :
      Touch contractId c call (c.addResult contractId challengeId succeeded now)
  | settleFailed (hstate : c.state = .expired) (hresults : c.results ≠ [])
      {settlement : SettlementState}
      (hcalculate : calculateSettlement c.fundedAmount c.results = .ok settlement)
      (now finalizedAt : Int) :
      Touch contractId c (.settle contractId now finalizedAt) { c with settlement }
  | settle (hstate : c.state = .active) (hresults : c.results ≠ []) {settlement : SettlementState}
      (hcalculate : calculateSettlement c.fundedAmount c.results = .ok settlement)
      {nextState : ContractState} (hnext : nextState = .expired ∨ nextState = .completed)
      (now finalizedAt : Int) :
      Touch contractId c (.settle contractId now finalizedAt)
        { ({ c with settlement }).setState nextState with
          settlement := { settlement with finalizedAt := some finalizedAt } }
  | terminate (hstate : c.state.canTransition .terminated = true) (now : Int) :
      Touch contractId c (.terminate contractId now) { c.setState .terminated with
        settlement := { c.settlement with status := .terminated, finalizedAt := some now } }

end AvailabilityContract

/-! ## Every call -/

namespace ContractHistory

open AvailabilityContract

section

variable (h : ContractHistory)

/-- A change of one record and of nothing else. -/
def put (p : Nat) (c : AvailabilityContract) : ContractHistory :=
  { h with store := h.store.put p c }

inductive Change (sha256 : List UInt8 → Hash) (spare : Nat → Nat → Nat) (h : ContractHistory) :
    ContractCall → ContractHistory → Prop where
  | none : Change sha256 spare h call h
  | create {publisherId providerId fileId : Str} {paymentAmount duration totalChunks : Int64}
      {resolver : Option (Str → Str → Option Int64)} {random : Block 16} {now : Int}
      (hpayment : 0 < paymentAmount) :
      Change sha256 spare h
        (.create publisherId providerId fileId paymentAmount duration resolver (some random) now)
        { h with store := { h.store with
          objects := h.store.objects ++ [proposal random publisherId providerId fileId totalChunks
            paymentAmount duration now]
          contracts := Function.update h.store.contracts (contractIdOf random)
            (some h.store.objects.length) } }
  | touch {call : ContractCall} {contractId : Str} {p : Nat} {c c' : AvailabilityContract}
      (hfind : h.store.find contractId = some (p, c)) (htouch : Touch contractId c call c')
      (hkept : c'.id = c.id ∧ c'.challenges = c.challenges ∧ c'.results = c.results) :
      Change sha256 spare h call (h.put p c')
  | startFailed {contractId : Str} {randomId : Option (Block 16)} {randomNonce : Option (Block 32)}
      {now issuedAt : Int} {p : Nat} {c : AvailabilityContract} {e : ContractError}
      {epochs : EpochStore} (hfind : h.store.find contractId = some (p, c))
      (hchallengeable : c.Challengeable)
      (hnext : h.store.Next spare contractId c randomId (.error e, epochs)) :
      Change sha256 spare h (.initiate contractId randomId randomNonce now issuedAt)
        { h with store := { h.store with epochs } }
  | challenge {contractId : Str} {randomId : Option (Block 16)} {randomNonce : Option (Block 32)}
      {now issuedAt : Int} {p : Nat} {c : AvailabilityContract} {generated : Challenge}
      {epochs : EpochStore} (hfind : h.store.find contractId = some (p, c))
      (hchallengeable : c.Challengeable)
      (hnext : h.store.Next spare contractId c randomId (.ok generated, epochs))
      (hinitiate : h.store.initiate sha256 spare contractId randomId randomNonce now issuedAt =
        (.ok generated, { h.store with epochs }.register contractId p c.activated generated)) :
      Change sha256 spare h (.initiate contractId randomId randomNonce now issuedAt)
        { h with
          store := { h.store with epochs }.register contractId p c.activated generated
          issued := h.issued ++ [generated] }
  | record {call : ContractCall} {contractId challengeId : Str} {succeeded : Bool} {now : Int}
      {p : Nat} {c : AvailabilityContract}
      (hfind : h.store.find contractId = some (p, c)) (hactive : c.state = .active)
      (howner : h.store.challenges challengeId = some contractId)
      (hnew : challengeId ∉ c.results.map (·.challengeId)) :
      Change sha256 spare h call (h.put p (c.addResult contractId challengeId succeeded now))
  | settle {contractId : Str} {p : Nat} {c : AvailabilityContract}
      (hfind : h.store.find contractId = some (p, c)) (hstate : c.state = .active)
      (hresults : c.results ≠ []) {settlement : SettlementState}
      (hcalculate : calculateSettlement c.fundedAmount c.results = .ok settlement)
      {nextState : ContractState} (hnext : nextState = .expired ∨ nextState = .completed)
      (now finalizedAt : Int) : Change sha256 spare h (.settle contractId now finalizedAt)
        { h.put p { ({ c with settlement }).setState nextState with
            settlement := { settlement with finalizedAt := some finalizedAt } } with
          settled := p :: h.settled }

lemma change_create (publisherId providerId fileId : Str)
    (paymentAmount duration : Int64) (resolver : Option (Str → Str → Option Int64))
    (random : Option (Block 16)) (now : Int) : Change sha256 spare h
      (.create publisherId providerId fileId paymentAmount duration resolver random now)
      { h with store := (h.store.createAvailabilityContract publisherId providerId fileId
        paymentAmount duration resolver random now).2 } := by
  unfold ContractStore.createAvailabilityContract
  split
  · exact .none
  split
  · exact .none
  rename_i hpositive
  split
  · exact .none
  split
  · exact .none
  split
  · exact .none
  split
  · exact .none
  · exact .create (Int64.not_le.mp (not_or.mp hpositive).1)

lemma change_fund (contractId : Str) (paymentAmount : Int64) :
    Change sha256 spare h (.fund contractId paymentAmount)
      { h with store := (h.store.fundAvailabilityContract contractId paymentAmount).2 } := by
  unfold ContractStore.fundAvailabilityContract
  split
  · exact .none
  rename_i p c hfind
  split
  · exact .none
  rename_i hstate
  have hstate := not_not.mp hstate
  split
  · exact .none
  rename_i hamount
  obtain rfl := not_not.mp hamount
  have htransition : c.state.transition .agreed = .ok .agreed := by
    rw [hstate]
    rfl
  rw [htransition]
  exact .touch hfind (.fund hstate) ⟨rfl, rfl, rfl⟩

lemma change_initiate (contractId : Str) (randomId : Option (Block 16))
    (randomNonce : Option (Block 32)) (now issuedAt : Int) :
    Change sha256 spare h (.initiate contractId randomId randomNonce now issuedAt) (h.noteIssued
        (h.store.initiate sha256 spare contractId randomId randomNonce now issuedAt)) := by
  generalize hinitiate :
    h.store.initiate sha256 spare contractId randomId randomNonce now issuedAt = result
  have heq := hinitiate
  unfold ContractStore.initiate at heq
  split at heq
  · subst heq
    exact .none
  rename_i p c hfind
  split at heq
  · subst heq
    exact .none
  rename_i hguard
  obtain ⟨hstate, hfunded⟩ := not_or.mp hguard
  have hchallengeable : c.Challengeable :=
    ⟨(not_and_or.mp hstate).imp not_not.mp not_not.mp, not_not.mp hfunded⟩
  split at heq
  · subst heq
    exact .touch hfind (.expire hchallengeable ‹_›) ⟨rfl, rfl, rfl⟩
  have hnext : h.store.Next spare contractId c randomId
      (h.store.nextChallenge sha256 spare contractId c randomId randomNonce issuedAt) :=
    h.store.next_nextChallenge ..
  split at heq
  · rename_i heq'
    rw [heq'] at hnext
    subst heq
    exact .startFailed hfind hchallengeable hnext
  · rename_i generated epochs heq'
    rw [heq'] at hnext
    rw [activate_eq] at heq
    subst heq
    exact .challenge hfind hchallengeable hnext hinitiate

lemma change_record (call : ContractCall) (contractId challengeId : Str)
    (result : ChallengeResult) (now : Int) : Change sha256 spare h call
      { h with
        store := (h.store.recordAvailabilityResult contractId challengeId result now).2 } := by
  unfold ContractStore.recordAvailabilityResult
  split
  · exact .none
  rename_i p c hfind
  split
  · exact .none
  rename_i hactive
  split
  · exact .none
  rename_i howner
  split
  · exact .none
  split
  · exact .none
  rename_i hnew
  exact .record hfind (not_not.mp hactive) (not_not.mp howner) fun hmem => hnew (mem_map.mp hmem)

lemma change_settle (contractId : Str) (now finalizedAt : Int) :
    Change sha256 spare h (.settle contractId now finalizedAt) (h.noteSettled contractId
        (h.store.settleAvailabilityContract contractId now finalizedAt)) := by
  unfold ContractStore.settleAvailabilityContract
  split
  · exact .none
  rename_i p c hfind
  split
  · exact .none
  rename_i hguard
  have hstate : c.state = .active ∨ c.state = .expired :=
    (not_and_or.mp hguard).imp not_not.mp not_not.mp
  split
  · exact .none
  rename_i hlength
  have hresults : c.results ≠ [] := fun hnil => hlength (by rw [hnil]; rfl)
  split
  · exact .none
  rename_i settlement hcalculate
  have htarget : (if c.endsAt ≤ now then ContractState.expired else .completed) = .expired ∨
      (if c.endsAt ≤ now then ContractState.expired else .completed) = .completed := by
    split
    · exact .inl rfl
    · exact .inr rfl
  dsimp only
  generalize (if c.endsAt ≤ now then ContractState.expired else .completed) = target at htarget
  rcases hstate with hstate | hstate
  · have htransition : c.state.transition target = .ok target := by
      rw [hstate]
      rcases htarget with rfl | rfl <;> rfl
    obtain ⟨hp, -⟩ := ContractStore.find_eq_some.mp hfind
    rw [htransition]
    rw [noteSettled, hp]
    exact .settle hfind hstate hresults hcalculate htarget ..
  · have htransition : c.state.transition target = .error (.invalidTransition .expired target) := by
      rw [hstate]
      rcases htarget with rfl | rfl <;> rfl
    rw [htransition]
    exact .touch hfind (.settleFailed hstate hresults hcalculate ..) ⟨rfl, rfl, rfl⟩

lemma change_terminate (contractId : Str) (now : Int) :
    Change sha256 spare h (.terminate contractId now)
      { h with store := (h.store.terminateAvailabilityContract contractId now).2 } := by
  unfold ContractStore.terminateAvailabilityContract
  split
  · exact .none
  rename_i p c hfind
  split
  · exact .none
  rcases c.state.transition_cases .terminated with ⟨hcan, heq⟩ | ⟨-, heq⟩
  · rw [heq]
    exact .touch hfind (.terminate hcan now) ⟨rfl, rfl, rfl⟩
  · rw [heq]
    exact .none

end

lemma snd_verifyAndRecord (s : ContractStore) (contractId : Str) (challenge : Challenge)
    (response : ChallengeResponse) (fileMerkleRoot providerPubKey : List UInt8)
    (maxTimeout now recordedAt : Int) :
    (s.verifyAndRecordChallengeResponse sha256 ed contractId challenge response fileMerkleRoot
      providerPubKey maxTimeout now recordedAt).2 =
    (s.recordAvailabilityResult contractId challenge.challengeId (buildChallengeResult sha256 ed
      challenge response fileMerkleRoot providerPubKey maxTimeout now) recordedAt).2 := by
  unfold ContractStore.verifyAndRecordChallengeResponse
  dsimp only
  split
  · rename_i heq
    rw [heq]
  · rename_i heq
    rw [heq]

lemma change_of_step (hstep : step sha256 spare ed call h = some h') :
    Change sha256 spare h call h' := by
  cases call with cases hstep
  | create publisherId providerId fileId paymentAmount duration resolver random now =>
    exact change_create ..
  | fund contractId paymentAmount => exact change_fund ..
  | initiate contractId randomId randomNonce now issuedAt => exact change_initiate ..
  | record contractId challengeId result now => exact change_record ..
  | verifyAndRecord contractId challenge response fileMerkleRoot providerPubKey maxTimeout now
      recordedAt =>
      rw [snd_verifyAndRecord]
      exact change_record ..
  | settle contractId now finalizedAt => exact change_settle ..
  | terminate contractId now => exact change_terminate ..

/-! ## What a call does to the records -/

section

variable (hchange : Change sha256 spare h call h')

include hchange

/-- The object after a call: as before, touched, or a new one. -/
lemma Change.objects (hq : h'.store.objects[q]? = some c') :
    (∃ c, h.store.objects[q]? = some c ∧ (c' = c ∨
      ∃ contractId, h.store.find contractId = some (q, c) ∧ Touch contractId c call c')) ∨
    (q = h.store.objects.length ∧ ∃ random publisherId providerId fileId totalChunks paymentAmount
      duration now, 0 < paymentAmount ∧ c' = proposal random publisherId providerId fileId
        totalChunks paymentAmount duration now) := by
  have hset {contractId : Str} {p : Nat} {c c₁ : AvailabilityContract}
      (hfind : h.store.find contractId = some (p, c)) (htouch : Touch contractId c call c₁)
      (hq : (h.store.objects.set p c₁)[q]? = some c') :
      ∃ c, h.store.objects[q]? = some c ∧ (c' = c ∨
        ∃ contractId, h.store.find contractId = some (q, c) ∧ Touch contractId c call c') := by
    rcases (ContractStore.objects_put hfind).mp hq with ⟨rfl, rfl⟩ | ⟨-, hq⟩
    · exact ⟨c, (ContractStore.find_eq_some.mp hfind).2, .inr ⟨contractId, hfind, htouch⟩⟩
    · exact ⟨c', hq, .inl rfl⟩
  cases hchange with
  | none => exact .inl ⟨c', hq, .inl rfl⟩
  | create hpayment =>
    rcases getElem?_concat_eq_some.mp hq with hq | ⟨hlast, rfl⟩
    · exact .inl ⟨c', hq, .inl rfl⟩
    · exact .inr ⟨hlast, _, _, _, _, _, _, _, _, hpayment, rfl⟩
  | touch hfind htouch => exact .inl (hset hfind htouch hq)
  | startFailed => exact .inl ⟨c', hq, .inl rfl⟩
  | challenge hfind hchallengeable =>
    exact .inl (hset hfind (.challenge hchallengeable _) hq)
  | record hfind hactive _ hnew => exact .inl (hset hfind (.record hactive _ _ _ hnew) hq)
  | settle hfind hstate hresults hcalculate hnext =>
    exact .inl (hset hfind (.settle hstate hresults hcalculate hnext ..) hq)

lemma Change.length_le : h.store.objects.length ≤ h'.store.objects.length := by
  cases hchange with
  | create => exact length_append ▸ Nat.le_add_right _ _
  | none | startFailed => exact Nat.le_refl _
  | _ => exact Nat.le_of_eq length_set.symm

/-- No record is lost. -/
lemma Change.next_object (hp : h.store.objects[p]? = some c) :
    ∃ c', h'.store.objects[p]? = some c' ∧ (c' = c ∨
      ∃ contractId, h.store.find contractId = some (p, c) ∧ Touch contractId c call c') := by
  have hlt : p < h.store.objects.length := (List.getElem_of_getElem? hp).1
  have hp' := getElem?_eq_getElem (Nat.lt_of_lt_of_le hlt hchange.length_le)
  rcases hchange.objects hp' with ⟨c₀, hc₀, hcase⟩ | ⟨heq, -⟩
  · cases hp.symm.trans hc₀
    exact ⟨_, hp', hcase⟩
  · exact absurd heq (Nat.ne_of_lt hlt)

end

/-- What a new record has and no touch takes away, every record has. -/
lemma Change.records {I : AvailabilityContract → Prop} (hchange : Change sha256 spare h call h')
    (hnew : ∀ random publisherId providerId fileId totalChunks paymentAmount duration now,
      0 < paymentAmount → I (proposal random publisherId providerId fileId totalChunks
        paymentAmount duration now))
    (htouch : ∀ {contractId : Str} {p : Nat} {c c' : AvailabilityContract},
      h.store.find contractId = some (p, c) → I c → Touch contractId c call c' → I c')
    (hI : ∀ {p : Nat} {c : AvailabilityContract}, h.store.objects[p]? = some c → I c) {p : Nat}
    {c : AvailabilityContract} (hp : h'.store.objects[p]? = some c) : I c := by
  rcases hchange.objects hp with ⟨c₀, hc₀, rfl | ⟨_, hfind, ht⟩⟩ | ⟨-, random, publisherId,
    providerId, fileId, totalChunks, paymentAmount, duration, now, hpayment, rfl⟩
  · exact hI hc₀
  · exact htouch hfind (hI hc₀) ht
  · exact hnew _ _ _ _ _ _ _ _ hpayment

/-! ## Samples

Contracts about a file of two chunks that end at time 5. The hash of a string
is its second 32 bytes, which is where the nonce is in a digest. -/

def sampleHash (xs : List UInt8) : Hash := .ofList 32 (xs.drop 32)

def sampleStep : ContractCall → ContractHistory → Option ContractHistory :=
  step sampleHash (fun _ _ => 0) ⟨fun _ => [], fun _ _ => [], fun _ _ _ => true⟩

def sampleId (n : UInt8) : Str := contractIdOf (.ofList 16 [n])

def sampleCreate (n : UInt8) : ContractCall :=
  .create [1] [2] [3] 10 5 (some fun _ _ => some 2) (some (.ofList 16 [n])) 0

def sampleInitiate (contract epoch nonce : UInt8) (now : Int) : ContractCall :=
  .initiate (sampleId contract) (some (.ofList 16 [epoch])) (some (.ofList 32 [nonce])) now now

/-- The ID of the first challenge of the first contract. -/
def sampleChallengeId : Str :=
  challengeID sampleHash (sampleId 0) (EpochStore.epochIdOf (.ofList 16 [0])) 0
    (Block.ofList 32 [0]).val

/-- A contract with a passed challenge. -/
def samplePassed : List ContractCall :=
  [sampleCreate 0, .fund (sampleId 0) 10, sampleInitiate 0 0 0 1,
    .record (sampleId 0) (sampleChallengeId) ⟨[], true, 2⟩ 2]

end ContractHistory

end Cipher.Availability
