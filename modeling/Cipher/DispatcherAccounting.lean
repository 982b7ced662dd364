import Mathlib.Data.List.TakeWhile
import Mathlib.Data.List.Nodup
import Mathlib.Algebra.Order.Group.Nat
import Cipher.Dispatcher

/-!
# What the dispatcher's schedules add up to

A schedule is an accumulator. `Accounts k hist s` says what it has to
hold after the dispatches `hist` that succeeded for its contract, newest
first: the payment they earned, their number, the challenges they
answered and the fails at their end. Each successful dispatch keeps
this, whether it passes (`Accounts.pass`) or fails (`Accounts.fail`),
and every other operation leaves the schedules alone, so it holds along
every trace.

`Advance` is what a successful dispatch makes of the schedule of its contract
and what it hands out, with everything that is decided on the way.
`dispatch_moves` says once what a dispatch can do, and
`createAndSign_outcome` does the same for the coordinator's part.
-/

namespace Cipher.Payment

open Evm Go Function List

/-! ## What the operations do -/

/-- The voucher `createAndSignPaymentState` hands to the signer. -/
def unsignedState (env : Env) (result : AvailabilityResult) (cumulativePayment sequence : UInt64)
    (c : PublisherCoordinator) (escrow : Bytes32) (provider : Address) : PaymentState :=
  { contractID := escrowString escrow
    publisher := c.publisherID
    provider := addressString provider
    sequence := sequence
    period := result.period
    cumulativePayment := cumulativePayment
    lastChallengeID := result.challengeID
    validUntil := UInt64.ofInt (unixSeconds (env.now + c.paymentStateTTL))
    status := .pass
    publisherSignature := [] }

/-- The coordinator fails without an effect, or it stores what it signed. -/
inductive SignOutcome (env : Env) (result : AvailabilityResult)
    (cumulativePayment sequence : UInt64) (c : PublisherCoordinator) :
    Except Error PaymentState × PublisherCoordinator → Prop where
  | error (e : Error) : SignOutcome env result cumulativePayment sequence c (.error e, c)
  | ok {escrow : Bytes32} {provider : Address} {signed : PaymentState}
      {stores : Str → Option PaymentStateStore}
      (hescrow : c.bindings.contracts result.contractID = some escrow)
      (hprovider : c.bindings.providers result.providerID = some provider)
      (hsign : env.sign (unsignedState env result cumulativePayment sequence c escrow provider)
        = .ok signed) :
      SignOutcome env result cumulativePayment sequence c (.ok signed, { c with stores })

variable {result : AvailabilityResult}

lemma createPaymentState_ok {publisherID : Str} {cumulativePayment sequence : UInt64}
    (h : createPaymentState result publisherID cumulativePayment sequence = .ok state) :
    state = { PaymentState.zero with
      contractID := result.contractID, publisher := publisherID, provider := result.providerID,
      sequence := sequence, period := result.period, cumulativePayment := cumulativePayment,
      lastChallengeID := result.challengeID, status := .pass } := by
  unfold createPaymentState at h
  split at h
  · cases h
  split at h
  · cases h
  · rename_i hpass
    simp only [ne_eq, not_not] at hpass
    rw [hpass] at h
    exact (Except.ok.inj h).symm

lemma createAndSign_outcome (env : Env) (result : AvailabilityResult)
    (cumulativePayment sequence : UInt64) (c : PublisherCoordinator) :
    SignOutcome env result cumulativePayment sequence c
      (createAndSignPaymentState env result cumulativePayment sequence c) := by
  unfold createAndSignPaymentState
  split
  · exact .error _
  split
  · exact .error _
  split
  · exact .error _
  rename_i escrow hescrow
  split
  · exact .error _
  rename_i provider hprovider
  dsimp only
  split
  · exact .error _
  split
  · exact .error _
  split
  · exact .error _
  rename_i state hcreate
  have hstate := createPaymentState_ok hcreate
  split
  · exact .error _
  rename_i signed hsign
  split
  · exact .error _
  · subst hstate
    exact .ok hescrow hprovider hsign

/-- The schedule after a passed challenge. -/
def PaymentSchedule.passed (s : PaymentSchedule) (challengeID : Str) : PaymentSchedule :=
  { s with
    sequence := s.sequence + 1
    currentCumulativePayment := nextCumulativePayment s
    processedChallenges := update s.processedChallenges challengeID true
    consecutiveFailures := 0
    failStreak := [] }

/-- One more failure, counted up to the end of the type. -/
def nextCount (s : PaymentSchedule) : UInt32 :=
  if s.consecutiveFailures < maxUint32 then s.consecutiveFailures + 1 else s.consecutiveFailures

/-- The last `k` fail records. -/
def nextStreak (k : Nat) (s : PaymentSchedule) (record : FailRecord) : List FailRecord :=
  if (s.failStreak ++ [record]).length > k
    then (s.failStreak ++ [record]).drop ((s.failStreak ++ [record]).length - k)
    else s.failStreak ++ [record]

/-- The schedule after a failed one. -/
def PaymentSchedule.failed (s : PaymentSchedule) (k : Nat) (record : FailRecord)
    (challengeID : Str) : PaymentSchedule :=
  { s with
    sequence := s.sequence + 1
    processedChallenges := update s.processedChallenges challengeID true
    consecutiveFailures := nextCount s
    failStreak := nextStreak k s record }

def Dispatcher.setSchedule (d : Dispatcher) (cid : Str) (s : PaymentSchedule) : Dispatcher :=
  { d with schedules := update d.schedules cid (some s) }

variable {cr : Crypto} {d : Dispatcher} {cid : Str}

/-! ## Fail records -/

/-- The record of a failed challenge, signed. -/
def issuedRecord (cr : Crypto) (signerKey : List UInt8) (escrow : Bytes32) (provider : Address)
    (result : AvailabilityResult) (sequence : UInt64) (now : Int) : FailRecord :=
  let unsigned : FailRecord :=
    { escrowContractID := escrowString escrow
      providerEthAddress := addressString provider
      challengeID := result.challengeID
      period := result.period
      sequence := sequence
      issuedAt := now
      publisherSignature := [] }
  { unsigned with
    publisherSignature := cr.ed25519Sign signerKey (cr.sha256 (buildFailRecordPayload unsigned)) }

lemma buildAndSignFailRecord_issued {escrow : Bytes32} {sequence : UInt64}
    (h : buildAndSignFailRecord cr env result escrow sequence d = .ok record) :
    ∃ provider, d.coordinator.bindings.providers result.providerID = some provider
      ∧ record = issuedRecord cr d.signerKey escrow provider result sequence env.now := by
  unfold buildAndSignFailRecord providerAddressFor at h
  cases hprovider : d.coordinator.bindings.providers result.providerID with
  | none =>
    rw [hprovider] at h
    cases h
  | some provider =>
    rw [hprovider] at h
    exact ⟨provider, rfl, (Except.ok.inj h).symm⟩

/-! ## Dispatches -/

/-- A successful dispatch: the schedule it found, what it hands out, and the
schedule it leaves. -/
inductive Advance (cr : Crypto) (env : Env) (result : AvailabilityResult) (d : Dispatcher) :
    PaymentSchedule → DispatchResult → PaymentSchedule → Prop where
  | pass {coordinator : PublisherCoordinator}
      (hnew : s.processedChallenges result.challengeID = false) (hseq : s.sequence ≠ maxUint64)
      (hresult : result.result = .pass)
      (hsign : createAndSignPaymentState env result (nextCumulativePayment s) (s.sequence + 1)
        d.coordinator = (.ok signed, coordinator)) : Advance cr env result d s
        { kind := .pass, paymentState := signed, failRecord := FailRecord.zero,
          consecutiveFailures := 0, slashEligible := false, slashEvidence := [] }
        (s.passed result.challengeID)
  | fail {provider : Address} {record : FailRecord}
      (hnew : s.processedChallenges result.challengeID = false) (hseq : s.sequence ≠ maxUint64)
      (hresult : result.result = .fail)
      (hprovider : d.coordinator.bindings.providers result.providerID = some provider)
      (hrecord : record = issuedRecord cr d.signerKey s.escrowContractID provider result
        (s.sequence + 1) env.now) : Advance cr env result d s
        { kind := .fail, paymentState := PaymentState.zero, failRecord := record,
          consecutiveFailures := nextCount s,
          slashEligible := decide (nextCount s ≥ d.failureThreshold),
          slashEvidence := if decide (nextCount s ≥ d.failureThreshold)
            then nextStreak d.failureThreshold.toNat s record else [] }
        (s.failed d.failureThreshold.toNat record result.challengeID)

/-- A dispatch fails without an effect, or it moves one schedule on; a
passed one takes the coordinator along. -/
inductive Moves (cr : Crypto) (env : Env) (result : AvailabilityResult) (d : Dispatcher) :
    Except Error DispatchResult × Dispatcher → Prop where
  | error (e : Error) : Moves cr env result d (.error e, d)
  | advance {out : DispatchResult} {coordinator : PublisherCoordinator}
      (hs : d.schedules result.contractID = some s) (hadvance : Advance cr env result d s out s')
      (hcoordinator : (result.result = .fail ∧ coordinator = d.coordinator)
        ∨ (result.result = .pass ∧ createAndSignPaymentState env result (nextCumulativePayment s)
          (s.sequence + 1) d.coordinator = (.ok out.paymentState, coordinator))) :
      Moves cr env result d (.ok out, { d with coordinator }.setSchedule result.contractID s')

lemma createAndSign_error
    (h : createAndSignPaymentState env result cum seq c = (.error e, c')) : c' = c := by
  have hout := createAndSign_outcome env result cum seq c
  rw [h] at hout
  cases hout
  rfl

lemma dispatch_moves (cr : Crypto) (env : Env) (result : AvailabilityResult) (d : Dispatcher) :
    Moves cr env result d (dispatchAvailabilityResult cr env result d) := by
  unfold dispatchAvailabilityResult
  split
  · exact .error _
  split
  · exact .error _
  rename_i s hs
  split
  · exact .error _
  rename_i hnew
  have hnew : s.processedChallenges result.challengeID = false := by simpa using hnew
  split
  · exact .error _
  rename_i hseq
  dsimp only
  split
  · rename_i hresult
    split
    · rename_i e coordinator heq
      rw [createAndSign_error heq]
      exact .error _
    · rename_i signed coordinator heq
      exact .advance hs (.pass hnew hseq hresult heq) (.inr ⟨hresult, heq⟩)
  · rename_i hresult
    split
    · exact .error _
    · rename_i record hrecord
      obtain ⟨provider, hprovider, heq⟩ := buildAndSignFailRecord_issued hrecord
      exact .advance hs (.fail hnew hseq hresult hprovider heq) (.inl ⟨hresult, rfl⟩)
  · exact .error _

/-- Every operation but these two leaves the schedules alone. -/
lemma step_schedules (cr : Crypto) (op : Op) (d : Dispatcher) :
    (∃ env result, op = .dispatchAvailabilityResult env result)
      ∨ (∃ cid escrow perPass max, op = .registerContractSchedule cid escrow perPass max)
      ∨ ((step cr op d).2.schedules = d.schedules
        ∧ (step cr op d).2.failureThreshold = d.failureThreshold
        ∧ ∀ r, (step cr op d).1 ≠ .dispatched r) := by
  cases op with
  | registerContractSchedule cid escrow perPass max => exact .inr (.inl ⟨_, _, _, _, rfl⟩)
  | dispatchAvailabilityResult env result => exact .inl ⟨_, _, rfl⟩
  | registerProvider | registerContract | setPaymentStateTTL | createAndSignPaymentState =>
    exact .inr (.inr ⟨rfl, rfl, by simp [step, onCoordinator]⟩)

lemma registerContract_ok (h : registerContract cid escrow c = (.ok (), c')) :
    c'.bindings.contracts cid = some escrow := by
  unfold registerContract at h
  split at h
  · cases h
  · rename_i bindings hbind
    have hbound := (bindContract_ok hbind).1
    dsimp only at h
    split at h
    · cases h
      exact hbound
    · cases h
      exact hbound

/-- A schedule starts empty, on terms that make sense, and once only. -/
lemma registerContractSchedule_outcome (cid : Str) (escrow : Bytes32) (perPass max : UInt64)
    (d : Dispatcher) :
    let r := registerContractSchedule cid escrow perPass max d
    r.2.failureThreshold = d.failureThreshold
      ∧ (r.2.schedules = d.schedules
        ∨ (d.schedules cid = none ∧ perPass ≤ max
          ∧ r.2.schedules = update d.schedules cid (some
            { paymentPerPass := perPass, maxPayment := max, currentCumulativePayment := 0,
              sequence := 0, escrowContractID := escrow, processedChallenges := fun _ => false,
              consecutiveFailures := 0, failStreak := [] })
          ∧ r.2.coordinator.bindings.contracts cid = some escrow)) := by
  intro r
  unfold r registerContractSchedule
  split
  · exact ⟨rfl, .inl rfl⟩
  split
  · exact ⟨rfl, .inl rfl⟩
  split
  · exact ⟨rfl, .inl rfl⟩
  rename_i hle
  split
  · exact ⟨rfl, .inl rfl⟩
  rename_i hnone
  split
  · exact ⟨rfl, .inl rfl⟩
  · rename_i coordinator hreg
    exact ⟨rfl, .inr ⟨hnone, UInt64.not_lt.mp hle, rfl, registerContract_ok hreg⟩⟩

/-! ## Accounts -/

/-- Successful dispatches of one contract, newest first. -/
abbrev Dispatches := List (AvailabilityResult × DispatchResult)

/-- The dispatch of a result for `cid` that an event is, if it succeeded. -/
def dispatchOf (cid : Str) (e : Event) : Option (AvailabilityResult × DispatchResult) :=
  match e.op, e.reply with
  | .dispatchAvailabilityResult _ result, .dispatched (.ok out) =>
    if result.contractID = cid then some (result, out) else none
  | _, _ => none

def dispatched (cid : Str) (evs : List Event) : Dispatches := evs.filterMap (dispatchOf cid)

lemma dispatchOf_eq_some :
    dispatchOf cid e = some x ↔ ∃ env, e.op = .dispatchAvailabilityResult env x.1
      ∧ e.reply = .dispatched (.ok x.2) ∧ x.1.contractID = cid := by
  constructor
  · intro h
    unfold dispatchOf at h
    split at h
    · rename_i env result out hop hreply
      split at h
      · rename_i hcid
        cases h
        exact ⟨env, hop, hreply, hcid⟩
      · cases h
    · cases h
  · rintro ⟨env, hop, hreply, hcid⟩
    rw [dispatchOf, hop, hreply]
    exact if_pos hcid

variable {evs : List Event}

lemma mem_dispatched :
    x ∈ dispatched cid evs ↔ ∃ e ∈ evs, ∃ env, e.op = .dispatchAvailabilityResult env x.1
      ∧ e.reply = .dispatched (.ok x.2) ∧ x.1.contractID = cid := by
  unfold dispatched
  simp only [mem_filterMap, dispatchOf_eq_some]

/-- The number of results that passed. -/
def passes (hist : Dispatches) : Nat := hist.countP fun x => x.1.result = .pass

/-- The results that failed since the last one that passed. -/
def trailing (hist : Dispatches) : Dispatches := hist.takeWhile fun x => x.1.result = .fail

/-- What a schedule holds after the dispatches `hist`; `k` is the failure
threshold. -/
structure Accounts (k : Nat) (hist : Dispatches) (s : PaymentSchedule) : Prop where
  terms : s.paymentPerPass.toNat ≤ s.maxPayment.toNat
  cumulative : s.currentCumulativePayment.toNat
    = min s.maxPayment.toNat (s.paymentPerPass.toNat * passes hist)
  sequence : s.sequence.toNat = hist.length
  processed : ∀ id, s.processedChallenges id = true ↔ id ∈ hist.map (·.1.challengeID)
  once : (hist.map (·.1.challengeID)).Nodup
  failures : s.consecutiveFailures.toNat = min (trailing hist).length (2 ^ 32 - 1)
  streak : s.failStreak = (((trailing hist).take k).map (·.2.failRecord)).reverse
  numbered : s.failStreak.map (·.sequence.toNat)
    = List.range' (s.sequence.toNat + 1 - s.failStreak.length) s.failStreak.length

lemma toNat_succ (h : n ≠ maxUint64) : (n + 1).toNat = n.toNat + 1 := by
  have hlt := UInt64.toNat_lt n
  have hne : n.toNat ≠ 2 ^ 64 - 1 := fun heq => h (UInt64.toNat_inj.mp heq)
  exact Nat.mod_eq_of_lt (by simp; omega)

/-- The capped addition neither overflows nor passes the cap. -/
lemma nextCumulativePayment_toNat {s : PaymentSchedule}
    (hle : s.currentCumulativePayment.toNat ≤ s.maxPayment.toNat) :
    (nextCumulativePayment s).toNat
      = min s.maxPayment.toNat (s.currentCumulativePayment.toNat + s.paymentPerPass.toNat) := by
  have hsub : (s.maxPayment - s.currentCumulativePayment).toNat
      = s.maxPayment.toNat - s.currentCumulativePayment.toNat :=
    UInt64.toNat_sub_of_le _ _ (UInt64.le_iff_toNat_le.mpr hle)
  have hmax := UInt64.toNat_lt s.maxPayment
  unfold nextCumulativePayment
  dsimp only
  split
  · rename_i hge
    rw [ge_iff_le, UInt64.le_iff_toNat_le] at hge
    omega
  · rename_i hlt
    rw [ge_iff_le, UInt64.le_iff_toNat_le] at hlt
    rw [UInt64.toNat_add]
    omega

lemma passes_cons (x : AvailabilityResult × DispatchResult) (hist : Dispatches) :
    passes (x :: hist) = passes hist + if x.1.result = .pass then 1 else 0 := by
  simp [passes, countP_cons]

lemma trailing_cons (x : AvailabilityResult × DispatchResult) (hist : Dispatches) :
    trailing (x :: hist) = if x.1.result = .fail then x :: trailing hist else [] := by
  by_cases h : x.1.result = .fail <;> simp [trailing, h]

section Steps

variable {k : Nat} {hist : Dispatches} {s : PaymentSchedule} {result : AvailabilityResult}

lemma Accounts.processed_cons (h : Accounts k hist s) (out : DispatchResult) (id : Str) :
    update s.processedChallenges result.challengeID true id = true
      ↔ id ∈ ((result, out) :: hist).map (·.1.challengeID) := by
  by_cases hid : id = result.challengeID
  · simp [hid]
  · simp only [update_of_ne hid, map_cons, mem_cons, hid, false_or]
    exact h.processed id

lemma Accounts.once_cons (h : Accounts k hist s) (out : DispatchResult)
    (hnew : s.processedChallenges result.challengeID = false) :
    (((result, out) :: hist).map (·.1.challengeID)).Nodup := by
  rw [map_cons, nodup_cons]
  refine ⟨fun hmem => ?_, h.once⟩
  rw [(h.processed _).mpr hmem] at hnew
  cases hnew

lemma Accounts.capped (h : Accounts k hist s) :
    s.currentCumulativePayment.toNat ≤ s.maxPayment.toNat := by
  rw [h.cumulative]
  exact Nat.min_le_left _ _

lemma Accounts.pass (h : Accounts k hist s) (out : DispatchResult)
    (hresult : result.result = .pass) (hseq : s.sequence ≠ maxUint64)
    (hnew : s.processedChallenges result.challengeID = false) :
    Accounts k ((result, out) :: hist) (s.passed result.challengeID) where
  terms := h.terms
  cumulative := by
    have hcap := h.capped
    have hnext := nextCumulativePayment_toNat hcap
    have hold := h.cumulative
    rw [passes_cons, if_pos hresult, Nat.mul_add]
    simp only [PaymentSchedule.passed]
    omega
  sequence := by
    rw [length_cons, ← h.sequence]
    exact toNat_succ hseq
  processed := h.processed_cons out
  once := h.once_cons out hnew
  failures := by
    rw [trailing_cons, if_neg (by simp [hresult])]
    rfl
  streak := by
    rw [trailing_cons, if_neg (by simp [hresult])]
    simp [PaymentSchedule.passed]
  numbered := by simp [PaymentSchedule.passed]

/-- Counting saturates. -/
lemma nextCount_toNat :
    (nextCount s).toNat = min (s.consecutiveFailures.toNat + 1) (2 ^ 32 - 1) := by
  have hmax : maxUint32.toNat = 2 ^ 32 - 1 := rfl
  have hlt := UInt32.toNat_lt s.consecutiveFailures
  unfold nextCount
  split
  · rename_i h
    rw [UInt32.lt_iff_toNat_lt] at h
    rw [UInt32.toNat_add, show (1 : UInt32).toNat = 1 from rfl]
    omega
  · rename_i h
    rw [UInt32.lt_iff_toNat_lt] at h
    omega

/-- The streak is a sliding window of `k` records. -/
lemma nextStreak_eq (hk : 0 < k) {recs : List FailRecord}
    (hstreak : s.failStreak = (recs.take k).reverse) :
    nextStreak k s record = ((record :: recs).take k).reverse := by
  obtain ⟨n, rfl⟩ : ∃ n, k = n + 1 := ⟨k - 1, by omega⟩
  unfold nextStreak
  rw [hstreak, take_succ_cons, reverse_cons]
  split
  · rename_i hlen
    simp only [length_append, length_reverse, length_take, length_singleton] at hlen
    have hrun : n < recs.length := by omega
    -- The window is full: its oldest record makes room for the new one.
    rw [take_succ_eq_append_getElem hrun, reverse_append]
    have hone : (n + 1) + 1 - (n + 1) = 1 := by omega
    simp [hone, Nat.min_eq_left hrun.le]
  · rename_i hlen
    simp only [length_append, length_reverse, length_take, length_singleton] at hlen
    rw [take_of_length_le (by omega), take_of_length_le (by omega)]

lemma nextStreak_numbered {record : FailRecord}
    (hrecord : record.sequence.toNat = s.sequence.toNat + 1)
    (hlen : s.failStreak.length ≤ s.sequence.toNat)
    (h : s.failStreak.map (·.sequence.toNat)
      = List.range' (s.sequence.toNat + 1 - s.failStreak.length) s.failStreak.length) :
    (nextStreak k s record).map (·.sequence.toNat)
      = List.range' (s.sequence.toNat + 2 - (nextStreak k s record).length)
        (nextStreak k s record).length := by
  have hall : (s.failStreak ++ [record]).map (·.sequence.toNat)
      = List.range' (s.sequence.toNat + 1 - s.failStreak.length) (s.failStreak.length + 1) := by
    rw [range'_1_concat, map_append, h]
    simp [hrecord]
    omega
  unfold nextStreak
  split
  · rw [map_drop, hall, drop_range', length_drop]
    simp only [length_append, length_singleton] at *
    congr 1
    omega
  · rw [hall]
    simp only [length_append, length_singleton]
    congr 1
    omega

lemma Accounts.streak_length (h : Accounts k hist s) :
    s.failStreak.length = min k (trailing hist).length := by
  rw [h.streak]
  simp

lemma trailing_le (hist : Dispatches) : (trailing hist).length ≤ hist.length :=
  (takeWhile_sublist _).length_le

lemma Accounts.fail (h : Accounts k hist s) {out : DispatchResult} (hk : 0 < k)
    (hresult : result.result = .fail) (hseq : s.sequence ≠ maxUint64)
    (hnew : s.processedChallenges result.challengeID = false)
    (hrecord : out.failRecord.sequence = s.sequence + 1) :
    Accounts k ((result, out) :: hist) (s.failed k out.failRecord result.challengeID) where
  terms := h.terms
  cumulative := by
    rw [passes_cons, if_neg (by simp [hresult])]
    exact h.cumulative
  sequence := by
    rw [length_cons, ← h.sequence]
    exact toNat_succ hseq
  processed := h.processed_cons out
  once := h.once_cons out hnew
  failures := by
    rw [trailing_cons, if_pos hresult]
    show (nextCount s).toNat = _
    rw [nextCount_toNat, h.failures, length_cons]
    omega
  streak := by
    have hstreak := h.streak
    rw [map_take] at hstreak
    rw [trailing_cons, if_pos hresult, map_take]
    exact nextStreak_eq hk hstreak
  numbered := by
    have hlen : s.failStreak.length ≤ s.sequence.toNat := by
      have := trailing_le hist
      rw [h.streak_length, h.sequence]
      omega
    have hnum := nextStreak_numbered (k := k) (by rw [hrecord, toNat_succ hseq]) hlen h.numbered
    show (nextStreak k s out.failRecord).map _ = List.range' ((s.sequence + 1).toNat + 1 - _) _
    rw [toNat_succ hseq]
    exact hnum

/-- A failed dispatch is flagged exactly when the last `k` results failed. -/
lemma Accounts.eligible_iff (h : Accounts k hist s) {threshold : UInt32}
    (hk : threshold.toNat = k) :
    nextCount s ≥ threshold ↔ k ≤ (trailing hist).length + 1 := by
  have hlt := UInt32.toNat_lt threshold
  rw [ge_iff_le, UInt32.le_iff_toNat_le, nextCount_toNat, h.failures]
  omega

end Steps

/-! ## Every trace -/

/-- Every schedule agrees with the dispatches of its contract, and there
are none where there is no schedule. -/
structure Booked (evs : List Event) (d : Dispatcher) : Prop where
  threshold : 0 < d.failureThreshold.toNat
  none : ∀ cid, d.schedules cid = none → dispatched cid evs = []
  some : ∀ cid s, d.schedules cid = some s →
    Accounts d.failureThreshold.toNat (dispatched cid evs) s

section

variable (h : newAvailabilityPaymentDispatcher coordinator signerKey opts = .ok d)

include h

/-- A new dispatcher has a key of the right length and no schedules; its
options decide on the threshold only. -/
lemma new_eq : signerKey.length = ed25519PrivateKeySize
      ∧ ∃ k, 0 < k.toNat ∧ d = ⟨coordinator, fun _ => none, signerKey, k⟩ := by
  have hfold : ∀ (opts : List UInt32) (k : UInt32), 0 < k.toNat →
      opts.foldlM (fun d k => withFailureThreshold k d)
          (⟨coordinator, fun _ => none, signerKey, k⟩ : Dispatcher) = .ok d →
        ∃ k, 0 < k.toNat ∧ d = ⟨coordinator, fun _ => none, signerKey, k⟩ := by
    intro opts
    induction opts with
    | nil =>
      intro k hpos h
      exact ⟨k, hpos, (Except.ok.inj h).symm⟩
    | cons k' opts ih =>
      intro k hpos h
      rw [foldlM_cons] at h
      unfold withFailureThreshold at h
      split at h
      · cases h
      · rename_i hk
        exact ih k' (Nat.pos_of_ne_zero fun h0 => hk (UInt32.toNat_inj.mp h0)) h
  unfold newAvailabilityPaymentDispatcher at h
  split at h
  · cases h
  · rename_i hkey
    have hdefault : 0 < defaultFailureThreshold.toNat := by decide
    exact ⟨not_not.mp hkey, hfold opts _ hdefault h⟩

lemma booked_new : Booked [] d ∧ ∀ cid, d.schedules cid = none := by
  obtain ⟨-, k, hpos, rfl⟩ := new_eq h
  refine ⟨⟨hpos, fun _ _ => rfl, fun cid s hs => ?_⟩, fun _ => rfl⟩
  cases hs

end

lemma dispatched_cons (cid : Str) (e : Event) (evs : List Event) :
    dispatched cid (e :: evs) = (dispatchOf cid e).toList ++ dispatched cid evs := by
  unfold dispatched
  rw [filterMap_cons]
  cases dispatchOf cid e <;> rfl

lemma dispatched_ok (cid : Str) (env : Env) (result : AvailabilityResult) (d : Dispatcher)
    (out : DispatchResult) (evs : List Event) :
    dispatched cid (⟨.dispatchAvailabilityResult env result, d, .dispatched (.ok out)⟩ :: evs)
      = if result.contractID = cid then (result, out) :: dispatched cid evs
        else dispatched cid evs := by
  rw [dispatched_cons]
  by_cases hcid : result.contractID = cid <;> simp [dispatchOf, hcid]

section

variable {evs' : List Event} {d' : Dispatcher} (h : Booked evs d)
  (hthreshold : d'.failureThreshold = d.failureThreshold)

include h hthreshold

/-- Nothing that counts has happened. -/
lemma Booked.same (hsched : d'.schedules = d.schedules)
    (hevs : ∀ cid, dispatched cid evs' = dispatched cid evs) : Booked evs' d' := by
  refine ⟨by rw [hthreshold]; exact h.threshold, fun cid hs => ?_, fun cid s hs => ?_⟩
  · rw [hevs]
    exact h.none cid (hsched ▸ hs)
  · rw [hevs, hthreshold]
    exact h.some cid s (hsched ▸ hs)

/-- One schedule has been set, and only its history may have changed. -/
lemma Booked.set (hsched : d'.schedules = update d.schedules cid (.some s))
    (hevs : ∀ other, other ≠ cid → dispatched other evs' = dispatched other evs)
    (hacc : Accounts d.failureThreshold.toNat (dispatched cid evs') s) : Booked evs' d' := by
  refine ⟨by rw [hthreshold]; exact h.threshold, fun other hs => ?_, fun other s' hs => ?_⟩
  · rw [hsched] at hs
    by_cases hcid : other = cid
    · simp [hcid] at hs
    · rw [update_of_ne hcid] at hs
      rw [hevs other hcid]
      exact h.none other hs
  · rw [hsched] at hs
    rw [hthreshold]
    by_cases hcid : other = cid
    · subst hcid
      rw [update_self, Option.some.injEq] at hs
      subst hs
      exact hacc
    · rw [update_of_ne hcid] at hs
      rw [hevs other hcid]
      exact h.some other s' hs

end

lemma Booked.dispatch (h : Booked evs d) (hmoves : Moves cr env result d r) :
    Booked (⟨.dispatchAvailabilityResult env result, d, .dispatched r.1⟩ :: evs) r.2 := by
  cases hmoves with
  | error e => exact h.same rfl rfl fun _ => rfl
  | advance hs hadvance =>
    refine h.set rfl rfl (fun other hne => ?_) ?_
    · rw [dispatched_ok, if_neg hne.symm]
    · rw [dispatched_ok, if_pos rfl]
      cases hadvance with
      | pass hnew hseq hresult => exact (h.some _ _ hs).pass _ hresult hseq hnew
      | fail hnew hseq hresult _ hrecord =>
        exact (h.some _ _ hs).fail h.threshold hresult hseq hnew (congrArg _ hrecord)

lemma dispatched_other {e : Event} (evs : List Event) (hreply : ∀ r, e.reply ≠ .dispatched r) :
    dispatched cid (e :: evs) = dispatched cid evs := by
  have hnone : dispatchOf cid e = none := by
    unfold dispatchOf
    split
    · rename_i hdone
      exact absurd hdone (hreply _)
    · rfl
  rw [dispatched_cons, hnone]
  rfl

/-- A new schedule has nothing to account for. -/
lemma Accounts.new {k : Nat} {perPass max : UInt64} (hle : perPass ≤ max) (escrow : Bytes32) :
    Accounts k []
      { paymentPerPass := perPass, maxPayment := max, currentCumulativePayment := 0,
        sequence := 0, escrowContractID := escrow, processedChallenges := fun _ => false,
        consecutiveFailures := 0, failStreak := [] } := by
  constructor <;> simp [passes, trailing, UInt64.le_iff_toNat_le.mp hle]

lemma Booked.register (h : Booked evs d) (cid : Str) (escrow : Bytes32) (perPass max : UInt64) :
    Booked evs (registerContractSchedule cid escrow perPass max d).2 := by
  obtain ⟨hthreshold, hsched | ⟨hnone, hle, hsched, -⟩⟩ := registerContractSchedule_outcome ..
  · exact h.same hthreshold hsched fun _ => rfl
  · refine h.set hthreshold hsched (fun _ _ => rfl) ?_
    rw [h.none cid hnone]
    exact .new hle escrow

lemma Booked.step (h : Booked evs d) (op : Op) :
    Booked (⟨op, d, (step cr op d).1⟩ :: evs) (step cr op d).2 := by
  rcases step_schedules cr op d with ⟨env, result, rfl⟩ | ⟨cid, escrow, perPass, max, rfl⟩ |
    ⟨hsched, hthreshold, hreply⟩
  · exact h.dispatch (dispatch_moves ..)
  · exact (h.register ..).same rfl rfl fun _ => rfl
  · exact h.same hthreshold hsched fun _ => dispatched_other _ hreply

/-- **Every trace is booked.** -/
theorem trace_booked (hinit : Booked [] d₀) (ht : Trace cr d₀ evs d) : Booked evs d :=
  ht.inv hinit fun _ _ op h => h.step op

/-- **Dispatcher accounting.** Along every trace of a new dispatcher, over
any coordinator, a schedule is what the successful dispatches of its
contract add up to, and the next dispatch either fails without an effect
or reports eligibility exactly when its result ends a run of at least
`k` failures. -/
theorem dispatcher_accounting (cr : Crypto) (coordinator : PublisherCoordinator)
    (signerKey : List UInt8) (opts : List UInt32) (d₀ d : Dispatcher) (evs : List Event)
    (hnew : newAvailabilityPaymentDispatcher coordinator signerKey opts = .ok d₀)
    (ht : Trace cr d₀ evs d) (cid : Str) (s : PaymentSchedule)
    (hs : d.schedules cid = some s) :
    let k := d.failureThreshold.toNat
    let hist := dispatched cid evs
    s.currentCumulativePayment.toNat = min s.maxPayment.toNat (s.paymentPerPass.toNat * passes hist)
      ∧ s.sequence.toNat = hist.length
      ∧ (hist.map (·.1.challengeID)).Nodup
      ∧ s.consecutiveFailures.toNat = min (trailing hist).length (2 ^ 32 - 1)
      ∧ s.failStreak = (((trailing hist).take k).map (·.2.failRecord)).reverse
      ∧ s.failStreak.length = min k (trailing hist).length
      ∧ s.failStreak.map (·.sequence.toNat)
          = List.range' (s.sequence.toNat + 1 - s.failStreak.length) s.failStreak.length
      ∧ (∀ env result out, result.contractID = cid →
          (dispatchAvailabilityResult cr env result d).1 = .ok out →
          (out.slashEligible = true ↔ k ≤ (trailing ((result, out) :: hist)).length))
      ∧ (∀ env result e, (dispatchAvailabilityResult cr env result d).1 = .error e →
          (dispatchAvailabilityResult cr env result d).2 = d) := by
  have hbooked := trace_booked (booked_new hnew).1 ht
  have hacc := hbooked.some cid s hs
  refine ⟨hacc.cumulative, hacc.sequence, hacc.once, hacc.failures, hacc.streak,
    hacc.streak_length, hacc.numbered, ?_, ?_⟩
  · rintro env result out rfl hok
    have hmoves := dispatch_moves cr env result d
    generalize dispatchAvailabilityResult cr env result d = r at hmoves hok
    rw [trailing_cons]
    cases hmoves with cases hok
    | advance hs' hadvance =>
      cases hs.symm.trans hs'
      cases hadvance with
      | pass hnew' hseq hresult =>
        have := hbooked.threshold
        rw [if_neg (by simp [hresult])]
        simp
        omega
      | fail hnew' hseq hresult =>
        rw [if_pos hresult]
        simpa using hacc.eligible_iff rfl
  · intro env result e herr
    have hmoves := dispatch_moves cr env result d
    generalize dispatchAvailabilityResult cr env result d = r at hmoves herr
    cases hmoves with
    | error e => rfl
    | advance => cases herr

/-! ## A sample run -/

def sampleCrypto : Crypto := ⟨fun m => m, fun _ m => m⟩

/-- A signer that signs with one byte, at time zero. -/
def sampleEnv : Env := ⟨0, fun ps => .ok { ps with publisherSignature := [1] }⟩

def sampleCoordinator : PublisherCoordinator :=
  ⟨[1], 1000000000, newRegistry, fun _ => none⟩

def sampleDispatcher : Dispatcher :=
  ⟨sampleCoordinator, fun _ => none, List.replicate 64 0, 1⟩

/-- A result for contract 9 by peer 5. -/
def sampleResult (challengeID : UInt8) (result : AvailabilityStatus) : AvailabilityResult :=
  ⟨[9], [5], 1, [challengeID], result⟩

/-- One pass, then one failure. -/
def sampleOps : List Op :=
  [.registerContractSchedule [9] 7 4 10, .registerProvider [5] 3,
    .dispatchAvailabilityResult sampleEnv (sampleResult 1 .pass),
    .dispatchAvailabilityResult sampleEnv (sampleResult 2 .fail)]

set_option maxRecDepth 8192 in
theorem dispatcher_accounting_two :
    ∃ evs d s, Trace sampleCrypto sampleDispatcher evs d ∧ d.schedules [9] = some s
      ∧ (dispatched [9] evs).length = 2
      ∧ s.currentCumulativePayment.toNat = min 10 (4 * passes (dispatched [9] evs)) := by
  have ht : Trace sampleCrypto sampleDispatcher _ _ := Machine.trace_run _ _ sampleOps
  exact ⟨_, _, _, ht, rfl, rfl, (dispatcher_accounting sampleCrypto sampleCoordinator
    (List.replicate 64 0) [1] sampleDispatcher _ _ rfl ht [9] _ rfl).1⟩

end Cipher.Payment
