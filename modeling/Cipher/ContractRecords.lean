import Cipher.ContractRuns
import Mathlib.Data.List.Forall2

/-!
# The records of contracts

What holds of every record after any calls, provided that no ID is generated
twice: results and availability results go together, each challenge has at
most one result and belongs to one contract, and the amount that was funded
is the agreed one from the time of the agreement on.

The parts about one record are in `Recorded`, which every touch keeps; those
about the maps are in `Filed`.
-/

namespace Cipher.Availability

open Bytes Binary Go Content Slices Transition Function List

/-- The states in which the payment is locked. -/
def ContractState.isFunded : ContractState → Bool
  | agreed | transferring | ready | active => true
  | _ => false

structure Recorded (c : AvailabilityContract) : Prop where
  payment : 0 < c.paymentAmount
  funded : c.fundedAmount = 0 ∨ c.fundedAmount = c.paymentAmount
  locked : c.state.isFunded = true → c.fundedAmount = c.paymentAmount
  state : c.state ∈ c.visited
  active : c.results ≠ [] → .active ∈ c.visited ∧ c.fundedAmount = c.paymentAmount
  agree : List.Forall₂ (fun r a => a.challengeId = r.challengeId ∧
    (a.result = .pass ↔ r.succeeded = true)) c.results c.availabilityResults
  period : ∀ i a, c.availabilityResults[i]? = some a → a.period = UInt64.ofNat (i + 1) ∧
    a.contractId = c.id ∧ a.providerId = c.providerId
  nodup : (c.results.map (·.challengeId)).Nodup

lemma recorded_proposal (random : Block 16) (publisherId providerId fileId : Str)
    (totalChunks paymentAmount duration : Int64) (now : Int) (hpayment : 0 < paymentAmount) :
    Recorded (proposal random publisherId providerId fileId totalChunks paymentAmount duration
      now) where
  payment := hpayment
  funded := .inl rfl
  locked := nofun
  state := mem_singleton_self _
  active hne := absurd rfl hne
  agree := .nil
  period := nofun
  nodup := .nil

/-- A touch that leaves the results, with the amount and the states it has. -/
lemma Recorded.of_results {c c' : AvailabilityContract} (h : Recorded c)
    (hpayment : c'.paymentAmount = c.paymentAmount)
    (hfunded : c'.fundedAmount = c.fundedAmount ∨ c'.fundedAmount = c'.paymentAmount)
    (hlocked : c'.state.isFunded = true → c'.fundedAmount = c'.paymentAmount)
    (hstate : c'.state ∈ c'.visited) (hvisited : ∀ s ∈ c.visited, s ∈ c'.visited)
    (hresults : c'.results = c.results)
    (havailability : c'.availabilityResults = c.availabilityResults)
    (hid : c'.id = c.id) (hprovider : c'.providerId = c.providerId) : Recorded c' where
  payment := hpayment ▸ h.payment
  funded := by
    rcases hfunded with heq | heq
    · rw [heq, hpayment]
      exact h.funded
    · exact .inr heq
  locked := hlocked
  state := hstate
  active hne := by
    obtain ⟨hactive, hamount⟩ := h.active (hresults ▸ hne)
    refine ⟨hvisited _ hactive, ?_⟩
    rcases hfunded with heq | heq
    · rw [heq, hpayment, hamount]
    · exact heq
  agree := by
    rw [hresults, havailability]
    exact h.agree
  period := by
    rw [havailability, hid, hprovider]
    exact h.period
  nodup := hresults ▸ h.nodup

lemma Recorded.addResult (h : Recorded c) (hactive : c.state = .active)
    (hnew : challengeId ∉ c.results.map (·.challengeId)) (succeeded : Bool)
    (now : Int) : Recorded (c.addResult c.id challengeId succeeded now) where
  payment := h.payment
  funded := h.funded
  locked := h.locked
  state := h.state
  active _ := ⟨hactive ▸ h.state, h.locked (by rw [hactive]; rfl)⟩
  agree := by
    refine rel_append h.agree (.cons ⟨rfl, ?_⟩ .nil)
    cases succeeded with
    | false => exact iff_of_false nofun nofun
    | true => exact iff_of_true rfl rfl
  period := by
    intro i a ha
    rcases getElem?_concat_eq_some.mp ha with ha | ⟨rfl, rfl⟩
    · exact h.period i a ha
    · exact ⟨rfl, rfl, rfl⟩
  nodup := by
    change ((c.results ++ [_]).map _).Nodup
    rw [map_append]
    refine nodup_append.mpr ⟨h.nodup, nodup_singleton _, ?_⟩
    rintro x hx y hy rfl
    have heq : x = challengeId := mem_singleton.mp hy
    exact hnew (heq ▸ hx)

lemma Recorded.touch (h : Recorded c) (hid : c.id = contractId)
    (htouch : AvailabilityContract.Touch contractId c call c') : Recorded c' := by
  have hlast (states : List ContractState) (state : ContractState) : state ∈ states ++ [state] :=
    mem_append_right _ (mem_singleton_self _)
  cases htouch with
  | fund hstate =>
    exact h.of_results rfl (.inr rfl) (fun _ => rfl) (hlast _ _)
      (fun _ => mem_append_left _) rfl rfl rfl rfl
  | expire =>
    exact h.of_results rfl (.inl rfl) nofun (hlast _ _) (fun _ => mem_append_left _)
      rfl rfl rfl rfl
  | challenge hchallengeable =>
    obtain ⟨written, heq, hactive⟩ := AvailabilityContract.activated_eq hchallengeable
    rw [heq]
    refine h.of_results rfl (.inl rfl) (fun _ => hchallengeable.funded) ?_
      (fun _ => mem_append_left _) rfl rfl rfl rfl
    rcases hactive with hstate | hmem
    · exact mem_append_left _ (hstate ▸ h.state)
    · exact mem_append_right _ hmem
  | record hactive challengeId succeeded now hnew =>
    subst hid
    exact h.addResult hactive hnew ..
  | settleFailed =>
    exact h.of_results rfl (.inl rfl) h.locked h.state (fun _ hs => hs) rfl rfl rfl rfl
  | settle _ _ _ hnext =>
    refine h.of_results rfl (.inl rfl) ?_ (hlast _ _) (fun _ => mem_append_left _)
      rfl rfl rfl rfl
    rcases hnext with rfl | rfl <;> nofun
  | terminate =>
    exact h.of_results rfl (.inl rfl) nofun (hlast _ _) (fun _ => mem_append_left _)
      rfl rfl rfl rfl

/-! ## The maps -/

/-- What the map has under an ID is a record with that ID. -/
structure Named (s : ContractStore) : Prop where
  ids : ∀ {contractId : Str} {p : Nat}, s.contracts contractId = some p →
    ∃ c, s.objects[p]? = some c ∧ c.id = contractId

/-- Every record is stored under its ID, and a challenge is one of the
contract that the map has for it. -/
structure Filed (s : ContractStore) : Prop extends Named s where
  stored : ∀ {p : Nat} {c : AvailabilityContract}, s.objects[p]? = some c →
    s.contracts c.id = some p
  owner : ∀ {p : Nat} {c : AvailabilityContract} {challengeId : Str}, s.objects[p]? = some c →
    challengeId ∈ c.challenges → s.challenges challengeId = some c.id
  owned : ∀ {challengeId contractId : Str}, s.challenges challengeId = some contractId →
    ∃ p c, s.find contractId = some (p, c) ∧ challengeId ∈ c.challenges
  results : ∀ {p : Nat} {c : AvailabilityContract} {r : ChallengeResult},
    s.objects[p]? = some c → r ∈ c.results → r.challengeId ∈ c.challenges

lemma named_empty : Named .empty := ⟨nofun⟩

lemma filed_empty : Filed .empty where
  ids := nofun
  stored := nofun
  owner := nofun
  owned := nofun
  results := nofun

section Files

variable {contractId : Str} {p : Nat} {c : AvailabilityContract}

namespace Named

lemma id_eq (h : Named s) (hfind : s.find contractId = some (p, c)) : c.id = contractId := by
  obtain ⟨hp, hc⟩ := ContractStore.find_eq_some.mp hfind
  obtain ⟨c₀, hc₀, hid⟩ := h.ids hp
  cases hc.symm.trans hc₀
  exact hid

lemma put (h : Named s) (hfind : s.find contractId = some (p, c)) (hid : c'.id = c.id) :
    Named (s.put p c') := by
  refine ⟨fun {id q} hq => ?_⟩
  obtain ⟨d, hd, rfl⟩ := h.ids hq
  by_cases hqp : q = p
  · subst hqp
    cases (ContractStore.find_eq_some.mp hfind).2.symm.trans hd
    exact ⟨c', (ContractStore.objects_put hfind).mpr (.inl ⟨rfl, rfl⟩), hid⟩
  · exact ⟨d, (ContractStore.objects_put hfind).mpr (.inr ⟨hqp, hd⟩), rfl⟩

lemma create (h : Named s) (c : AvailabilityContract) : Named { s with
      objects := s.objects ++ [c]
      contracts := update s.contracts c.id (some s.objects.length) } := by
  refine ⟨fun {id q} hq => ?_⟩
  dsimp only at hq ⊢
  by_cases hid : id = c.id
  · rw [hid, update_self] at hq
    cases hq
    exact ⟨c, getElem?_concat_length, hid.symm⟩
  · rw [update_of_ne hid] at hq
    obtain ⟨d, hd, hdid⟩ := h.ids hq
    exact ⟨d, getElem?_concat_of_some c hd, hdid⟩

end Named

namespace Filed

section

variable (h : Filed s) (hfind : s.find contractId = some (p, c))

include h hfind

/-- A record in the place of another one, with a map that has what it had and
possibly challenges of the new record. -/
lemma replace {s' : ContractStore}
    (hobjects : s'.objects = s.objects.set p c') (hcontracts : s'.contracts = s.contracts)
    (hid : c'.id = c.id)
    (hkept : ∀ {challengeId id : Str}, s.challenges challengeId = some id →
      s'.challenges challengeId = some id)
    (howned : ∀ {challengeId id : Str}, s'.challenges challengeId = some id →
      s.challenges challengeId = some id ∨ (id = contractId ∧ challengeId ∈ c'.challenges))
    (hchallenges : ∀ challengeId ∈ c'.challenges, s'.challenges challengeId = some contractId)
    (hsub : ∀ challengeId ∈ c.challenges, challengeId ∈ c'.challenges)
    (hresults : ∀ r ∈ c'.results, r.challengeId ∈ c'.challenges) : Filed s' := by
  obtain ⟨hp, hc⟩ := ContractStore.find_eq_some.mp hfind
  have hlookup {q : Nat} {d : AvailabilityContract} : s'.objects[q]? = some d ↔
      (q = p ∧ d = c') ∨ (q ≠ p ∧ s.objects[q]? = some d) := by
    rw [hobjects]
    exact ContractStore.objects_put hfind
  have hfound {q : Nat} {d : AvailabilityContract} {id : Str} (hq : s.contracts id = some q)
      (hd : s'.objects[q]? = some d) : s'.find id = some (q, d) :=
    ContractStore.find_eq_some.mpr ⟨(congrFun hcontracts id).trans hq, hd⟩
  refine ⟨⟨?ids⟩, ?stored, ?owner, ?owned, ?results⟩
  case ids =>
    intro id q hq
    rw [hobjects]
    exact (h.toNamed.put hfind hid).ids ((congrFun hcontracts id).symm.trans hq)
  case stored =>
    intro q d hq
    rw [hcontracts]
    rcases hlookup.mp hq with ⟨rfl, rfl⟩ | ⟨-, hq⟩
    · rw [hid]
      exact h.stored hc
    · exact h.stored hq
  case owner =>
    intro q d challengeId hq hmem
    rcases hlookup.mp hq with ⟨rfl, rfl⟩ | ⟨-, hq⟩
    · rw [hid, h.id_eq hfind]
      exact hchallenges _ hmem
    · exact hkept (h.owner hq hmem)
  case owned =>
    intro challengeId id howner
    rcases howned howner with hold | ⟨rfl, hmem⟩
    · obtain ⟨q, d, hfind', hmem⟩ := h.owned hold
      obtain ⟨hq, hd⟩ := ContractStore.find_eq_some.mp hfind'
      by_cases hqp : q = p
      · subst hqp
        cases hc.symm.trans hd
        exact ⟨q, c', hfound hq (hlookup.mpr (.inl ⟨rfl, rfl⟩)), hsub _ hmem⟩
      · exact ⟨q, d, hfound hq (hlookup.mpr (.inr ⟨hqp, hd⟩)), hmem⟩
    · exact ⟨p, c', hfound hp (hlookup.mpr (.inl ⟨rfl, rfl⟩)), hmem⟩
  case results =>
    intro q d r hq hr
    rcases hlookup.mp hq with ⟨rfl, rfl⟩ | ⟨-, hq⟩
    · exact hresults r hr
    · exact h.results hq hr

/-- A record with the same ID and challenges. -/
lemma put (hid : c'.id = c.id) (hchallenges : c'.challenges = c.challenges)
    (hresults : ∀ r ∈ c'.results, r.challengeId ∈ c.challenges) : Filed (s.put p c') := by
  refine h.replace hfind rfl rfl hid (fun h => h) .inl (fun challengeId hmem => ?_)
    (fun _ hmem => hchallenges ▸ hmem) (fun r hr => hchallenges ▸ hresults r hr)
  rw [← h.id_eq hfind]
  exact h.owner (ContractStore.find_eq_some.mp hfind).2 (hchallenges ▸ hmem)

lemma put_of_results (hid : c'.id = c.id)
    (hchallenges : c'.challenges = c.challenges) (hresults : c'.results = c.results) :
    Filed (s.put p c') := by
  refine h.put hfind hid hchallenges fun r hr => ?_
  exact h.results (ContractStore.find_eq_some.mp hfind).2 (hresults ▸ hr)

end

/-- The epochs have no part in it. -/
lemma withEpochs (h : Filed s) (epochs : EpochStore) : Filed { s with epochs } :=
  ⟨⟨h.ids⟩, h.stored, h.owner, h.owned, h.results⟩

/-- A new contract under a new ID. -/
lemma create (h : Filed s) (hnew : s.contracts c.id = none) (hchallenges : c.challenges = [])
    (hresults : c.results = []) :
    Filed { s with
      objects := s.objects ++ [c]
      contracts := update s.contracts c.id (some s.objects.length) } := by
  have hother {d : AvailabilityContract} {q : Nat} (hq : s.objects[q]? = some d) : d.id ≠ c.id := by
    intro heq
    have hstored := h.stored hq
    rw [heq, hnew] at hstored
    cases hstored
  refine ⟨h.toNamed.create c, ?stored, ?owner, ?owned, ?results⟩
  case stored =>
    intro q d hq
    dsimp only
    rcases getElem?_concat_eq_some.mp hq with hq | ⟨rfl, rfl⟩
    · rw [update_of_ne (hother hq)]
      exact h.stored hq
    · exact update_self ..
  case owner =>
    intro q d challengeId hq hmem
    rcases getElem?_concat_eq_some.mp hq with hq | ⟨-, rfl⟩
    · exact h.owner hq hmem
    · rw [hchallenges] at hmem
      cases hmem
  case owned =>
    intro challengeId id howner
    obtain ⟨q, d, hfind, hmem⟩ := h.owned howner
    obtain ⟨hq, hd⟩ := ContractStore.find_eq_some.mp hfind
    have hid : id ≠ c.id := h.id_eq hfind ▸ hother hd
    refine ⟨q, d, ContractStore.find_eq_some.mpr ⟨?_, getElem?_concat_of_some c hd⟩, hmem⟩
    exact (update_of_ne hid ..).trans hq
  case results =>
    intro q d r hq hr
    rcases getElem?_concat_eq_some.mp hq with hq | ⟨-, rfl⟩
    · exact h.results hq hr
    · rw [hresults] at hr
      cases hr

/-- A new challenge of a contract. -/
lemma register (h : Filed s) (hfind : s.find contractId = some (p, c)) (hid : c'.id = c.id)
    (hchallenges : c'.challenges = c.challenges) (hresults : c'.results = c.results)
    {generated : Challenge} (hnew : s.challenges generated.challengeId = none) :
    Filed (s.register contractId p c' generated) := by
  obtain ⟨-, hc⟩ := ContractStore.find_eq_some.mp hfind
  have hkept {challengeId id : Str} (howner : s.challenges challengeId = some id) :
      update s.challenges generated.challengeId (some contractId) challengeId = some id := by
    have hother : challengeId ≠ generated.challengeId := by
      rintro rfl
      cases hnew.symm.trans howner
    rw [update_of_ne hother, howner]
  have hself : update s.challenges generated.challengeId (some contractId)
      generated.challengeId = some contractId := update_self ..
  refine h.replace hfind rfl rfl hid hkept (fun {challengeId id} howner => ?owned)
    (fun challengeId hmem => ?challenges) (fun _ hmem => ?sub) (fun r hr => ?results)
  case owned =>
    by_cases heq : challengeId = generated.challengeId
    · subst heq
      have hid := Option.some.inj (howner.symm.trans hself)
      exact .inr ⟨hid, mem_append_right _ (mem_singleton_self _)⟩
    · exact .inl ((update_of_ne heq ..).symm.trans howner)
  case challenges =>
    rcases mem_append.mp hmem with hold | hlast
    · have howner := h.owner hc (hchallenges ▸ hold)
      rw [h.id_eq hfind] at howner
      exact hkept howner
    · rw [mem_singleton.mp hlast]
      exact hself
  case sub => exact mem_append_left _ (hchallenges ▸ hmem)
  case results => exact mem_append_left _ (hchallenges ▸ h.results hc (hresults ▸ hr))

end Filed

end Files

/-! ## Any history -/

namespace ContractHistory

variable {sha256 : List UInt8 → Hash} {spare : Nat → Nat → Nat} {ed : Ed25519}
  {h : ContractHistory}

/-- The IDs that a call generates are not in use. -/
def FreshIds (sha256 : List UInt8 → Hash) (spare : Nat → Nat → Nat) :
    ContractCall → ContractHistory → Prop
  | .create _ _ _ _ _ _ random _, h =>
    ∀ r, random = some r → h.store.contracts (contractIdOf r) = none
  | .initiate contractId randomId randomNonce now issuedAt, h =>
    (∀ r, randomId = some r → h.store.epochs.epochs (EpochStore.epochIdOf r) = none) ∧
    ∀ generated store, h.store.initiate sha256 spare contractId randomId randomNonce now issuedAt =
      (.ok generated, store) → h.store.challenges generated.challengeId = none
  | _, _ => True

/-- What holds also when an ID is generated again. -/
structure Wf (h : ContractHistory) : Prop where
  recorded : ∀ {p : Nat} {c : AvailabilityContract}, h.store.objects[p]? = some c → Recorded c
  named : Named h.store

lemma Change.named (hchange : Change sha256 spare h call h') (hnamed : Named h.store) :
    Named h'.store := by
  cases hchange with
  | none => exact hnamed
  | create => exact hnamed.create _
  | startFailed => exact ⟨hnamed.ids⟩
  | challenge hfind hchallengeable =>
    obtain ⟨written, heq, -⟩ := AvailabilityContract.activated_eq hchallengeable
    exact ⟨(hnamed.put hfind (by rw [heq])).ids⟩
  | touch hfind _ hkept => exact hnamed.put hfind hkept.1
  | record hfind | settle hfind => exact hnamed.put hfind rfl

lemma Wf.change (hwf : Wf h) (hchange : Change sha256 spare h call h') : Wf h' where
  recorded := hchange.records recorded_proposal
    (fun hfind hrecorded htouch => hrecorded.touch (hwf.named.id_eq hfind) htouch) hwf.recorded
  named := hchange.named hwf.named

lemma wf_init : Wf init := ⟨nofun, named_empty⟩

lemma wf_of_run (hr : Run (step sha256 spare ed) ok init h) : Wf h :=
  Run.inv hr wf_init fun _ _ _ _ hstep hwf => hwf.change (change_of_step hstep)

lemma Change.filed (hchange : Change sha256 spare h call h')
    (hfresh : FreshIds sha256 spare call h) (hfiled : Filed h.store) : Filed h'.store := by
  cases hchange with
  | none => exact hfiled
  | create => exact hfiled.create (c := proposal ..) (hfresh _ rfl) rfl rfl
  | startFailed => exact hfiled.withEpochs _
  | @challenge _ _ _ _ _ _ _ _ epochs hfind hchallengeable _ hinitiate =>
    obtain ⟨written, heq, -⟩ := AvailabilityContract.activated_eq hchallengeable
    have hfiled := hfiled.withEpochs epochs
    exact hfiled.register hfind (by rw [heq]) (by rw [heq]) (by rw [heq]) (hfresh.2 _ _ hinitiate)
  | @record _ contractId challengeId succeeded now p c hfind _ howner _ =>
    obtain ⟨hp, hc⟩ := ContractStore.find_eq_some.mp hfind
    refine hfiled.put hfind rfl rfl fun r hr => ?_
    rcases mem_append.mp hr with hold | hnew
    · exact hfiled.results hc hold
    · obtain ⟨q, d, hfind', hmem⟩ := hfiled.owned howner
      cases hfind.symm.trans hfind'
      rw [mem_singleton.mp hnew]
      exact hmem
  | touch hfind _ hkept => exact hfiled.put_of_results hfind hkept.1 hkept.2.1 hkept.2.2
  | settle hfind => exact hfiled.put_of_results hfind rfl rfl rfl

lemma filed_of_run (hr : Run (step sha256 spare ed) (FreshIds sha256 spare) init h) :
    Filed h.store :=
  Run.inv (I := fun h => Filed h.store) hr filed_empty fun _ _ _ hfresh hstep hfiled =>
    (change_of_step hstep).filed hfresh hfiled

/-- After any calls whose generated IDs are new. -/
theorem contract_records (hr : Run (step sha256 spare ed) (FreshIds sha256 spare) init h) :
    (∀ (p : Nat) (c : AvailabilityContract), h.store.objects[p]? = some c →
      List.Forall₂ (fun r a => a.challengeId = r.challengeId ∧
        (a.result = .pass ↔ r.succeeded = true)) c.results c.availabilityResults ∧
      (∀ i a, c.availabilityResults[i]? = some a → a.period = UInt64.ofNat (i + 1) ∧
        a.contractId = c.id ∧ a.providerId = c.providerId) ∧
      (c.results.map (·.challengeId)).Nodup ∧ (∀ r ∈ c.results, r.challengeId ∈ c.challenges) ∧
      (c.results ≠ [] → .active ∈ c.visited) ∧
      (c.fundedAmount = 0 ∨ c.fundedAmount = c.paymentAmount) ∧
      (c.state.isFunded = true → c.fundedAmount = c.paymentAmount)) ∧
    ∀ (p q : Nat) (c d : AvailabilityContract), h.store.objects[p]? = some c →
      h.store.objects[q]? = some d → ∀ challengeId ∈ c.challenges,
        h.store.challenges challengeId = some c.id ∧ (challengeId ∈ d.challenges → p = q) := by
  have hfiled := filed_of_run hr
  constructor
  · intro p c hc
    have hrecorded := (wf_of_run hr).recorded hc
    exact ⟨hrecorded.agree, hrecorded.period, hrecorded.nodup,
      fun r hr => hfiled.results hc hr, fun hne => (hrecorded.active hne).1, hrecorded.funded,
      hrecorded.locked⟩
  · intro p q c d hc hd challengeId hmem
    have howner := hfiled.owner hc hmem
    refine ⟨howner, fun hmem' => ?_⟩
    have hid : c.id = d.id :=
      Option.some.inj (howner.symm.trans (hfiled.owner hd hmem'))
    have hstored := hfiled.stored hc
    rw [hid, hfiled.stored hd] at hstored
    exact (Option.some.inj hstored).symm

/-- A contract with one result. -/
theorem contract_records_sample : ∃ (h : ContractHistory) (c : AvailabilityContract),
    Run sampleStep (FreshIds sampleHash fun _ _ => 0) init h ∧
    h.store.objects[0]? = some c ∧ c.results.length = 1 ∧ c.availabilityResults.length = 1 ∧
    (∀ r ∈ c.results, r.challengeId ∈ c.challenges) ∧ c.fundedAmount = c.paymentAmount := by
  have hr : Run sampleStep (FreshIds sampleHash fun _ _ => 0) init _ :=
    .tail (.tail (.tail (.tail .refl (a := sampleCreate 0) (fun _ _ => rfl) rfl)
      (a := .fund (sampleId 0) 10) trivial rfl)
      (a := sampleInitiate 0 0 0 1) ⟨fun _ _ => rfl, fun _ _ _ => rfl⟩ rfl)
      (a := .record (sampleId 0) sampleChallengeId ⟨[], true, 2⟩ 2) trivial rfl
  have hrecords := (contract_records hr).1 0 _ rfl
  exact ⟨_, _, hr, rfl, rfl, rfl, hrecords.2.2.2.1, hrecords.2.2.2.2.2.2 rfl⟩

end ContractHistory

end Cipher.Availability
