import Cipher.RequestLinearity
import Cipher.Geth
import Cipher.Binary

/-!
# Work for a request

`VerifyPoW` puts the strings that are hashed one after the other, so one hash
can be the work for two requests (`pow_bound_iff`). How much work it has to be
is what the proof itself says, and the store takes its own time for a request,
not the one that was hashed: `demand_paid` says when the demand has cost work.
`GeneratePoW` tries one nonce after the other.
-/

namespace Cipher.Requests

open Binary Go Transition List

structure PoW where
  nonce : UInt64
  difficulty : UInt8
deriving DecidableEq

/-- `strconv.FormatInt` in base 10. -/
def formatInt (v : Int64) : Str :=
  if v.toInt < 0 then 0x2d :: Geth.decimal v.toInt.natAbs else Geth.decimal v.toInt.natAbs

/-- What is hashed. -/
def powInput (req : Request) (nonce : UInt64) : Str :=
  req.clientId ++ req.fileId ++ formatInt req.timestamp ++ Geth.decimal nonce.toNat

section

variable (sha256 : List UInt8 → Block 32)

/-- The hash of the input has so many zeros in front. -/
def Meets (difficulty : Nat) (input : Str) : Prop :=
  List.replicate difficulty 0x30 <+: hexEncode (sha256 input).val

instance (difficulty : Nat) (input : Str) : Decidable (Meets sha256 difficulty input) :=
  inferInstanceAs (Decidable (_ <+: _))

def verifyPoW (req : Request) (proof : PoW) : Bool :=
  Meets sha256 proof.difficulty.toNat (powInput req proof.nonce)

end

/-! ## What the work is for -/

lemma toNat_of_mem_toDigits {c : Char} (h : c ∈ Nat.toDigits 10 n) :
    48 ≤ c.toNat ∧ c.toNat ≤ 57 := by
  have hdigit := Nat.isDigit_of_mem_toDigits (by decide) le_rfl h
  simp only [Char.isDigit, Bool.and_eq_true, decide_eq_true_eq] at hdigit
  exact ⟨UInt32.le_iff_toNat_le.mp hdigit.1, UInt32.le_iff_toNat_le.mp hdigit.2⟩

lemma toDigits_eq (n : Nat) :
    Nat.toDigits 10 n = (Geth.decimal n).map fun b => Char.ofNat b.toNat := by
  rw [Geth.decimal, map_map]
  refine ((map_id _).symm.trans (map_congr_left fun c hc => ?_))
  have hlt : c.toNat < 256 := (toNat_of_mem_toDigits hc).2.trans_lt (by decide)
  simp [Nat.mod_eq_of_lt hlt]

lemma decimal_injective : Function.Injective Geth.decimal := by
  intro m n h
  have hdigits : Nat.toDigits 10 m = Nat.toDigits 10 n := by
    rw [toDigits_eq, h, ← toDigits_eq]
  calc
    m = Nat.ofDigitChars 10 (Nat.toDigits 10 m) 0 := Nat.ofDigitChars_ten_toDigits.symm
    _ = Nat.ofDigitChars 10 (Nat.toDigits 10 n) 0 := by rw [hdigits]
    _ = n := Nat.ofDigitChars_ten_toDigits

lemma formatInt_injective : Function.Injective formatInt := by
  intro v w h
  -- no digit is a minus sign
  have hhead : ∀ (n : Nat) (s : Str), Geth.decimal n ≠ 0x2d :: s := by
    intro n s heq
    obtain ⟨c, hc, hminus⟩ := mem_map.mp (heq ▸ mem_cons_self : 0x2d ∈ Geth.decimal n)
    have hrange := toNat_of_mem_toDigits hc
    have hvalue := congrArg UInt8.toNat hminus
    simp at hvalue
    omega
  have hvalue : v.toInt = w.toInt := by
    unfold formatInt at h
    split at h <;> split at h
    · have := decimal_injective (cons.inj h).2
      omega
    · exact absurd h.symm (hhead _ _)
    · exact absurd h (hhead _ _)
    · have := decimal_injective h
      omega
  exact Int64.toInt_inj.mp hvalue

/-- **The work is bound to a request** exactly as far as the lengths of its
fields are. -/
theorem pow_bound_iff {req req' : Request} {nonce nonce' : UInt64}
    (h : powInput req nonce = powInput req' nonce') :
    (req.clientId = req'.clientId ∧ req.fileId = req'.fileId ∧ req.timestamp = req'.timestamp ∧
        nonce = nonce') ↔
      req.clientId.length = req'.clientId.length ∧ req.fileId.length = req'.fileId.length ∧
        (formatInt req.timestamp).length = (formatInt req'.timestamp).length := by
  constructor
  · rintro ⟨hclient, hfile, htime, -⟩
    rw [hclient, hfile, htime]
    exact ⟨rfl, rfl, rfl⟩
  · rintro ⟨hclient, hfile, htime⟩
    simp only [powInput, append_assoc] at h
    obtain ⟨hclient, h⟩ := append_inj h hclient
    obtain ⟨hfile, h⟩ := append_inj h hfile
    obtain ⟨htime, h⟩ := append_inj h htime
    exact ⟨hclient, hfile, formatInt_injective htime, UInt64.toNat_inj.mp (decimal_injective h)⟩

def requestOf (clientId fileId : Str) : Request := ⟨fileId, clientId, 1, .pending⟩

theorem pow_bound_moved : powInput (requestOf [1] [2, 3]) 5 = powInput (requestOf [1, 2] [3]) 5 ∧
    ¬ ((requestOf [1] [2, 3]).clientId = (requestOf [1, 2] [3]).clientId ∧
      (requestOf [1] [2, 3]).fileId = (requestOf [1, 2] [3]).fileId ∧
      (requestOf [1] [2, 3]).timestamp = (requestOf [1, 2] [3]).timestamp ∧ (5 : UInt64) = 5) := by
  refine ⟨by decide, fun h => ?_⟩
  have hlengths := (pow_bound_iff (by decide)).mp h
  exact absurd hlengths.1 (by decide)

def zeroHash (_ : List UInt8) : Block 32 := .ofList 32 []

theorem pow_of_two_requests :
    powInput (requestOf [1] [2, 3]) 5 = powInput (requestOf [1, 2] [3]) 5 ∧
      verifyPoW zeroHash (requestOf [1] [2, 3]) ⟨5, 4⟩ = true ∧
      verifyPoW zeroHash (requestOf [1, 2] [3]) ⟨5, 4⟩ = true := by decide

/-! ## Demand -/

inductive TrackError where
  | proofOfWork
  | track (e : Error)

def validateAndTrackRequest (sha256 : List UInt8 → Block 32) (req : Request) (pow : PoW)
    (lifetime now : Int64) (s : State) : Except TrackError Request × State :=
  if !verifyPoW sha256 req pow then (.error .proofOfWork, s)
  else match s.getOrCreateRequest req.fileId req.clientId lifetime now with
    | (.error e, s) => (.error (.track e), s)
    | (.ok (trackedReq, _), s) => (.ok trackedReq, s)

/-- The store, and the requests with their work that were let through to it. -/
structure Demand where
  store : State
  submitted : List (Request × PoW)

inductive DemandCall where
  | validateAndTrackRequest (req : Request) (pow : PoW) (lifetime now : Int64)
  | other (a : Action)

def Action.creates : Action → Bool
  | .getOrCreateRequest .. => true
  | _ => false

/-- Requests come in with their work only. -/
def Demand.step (sha256 : List UInt8 → Block 32) : DemandCall → Demand → Option Demand
  | .validateAndTrackRequest req pow lifetime now, m =>
    some ⟨(validateAndTrackRequest sha256 req pow lifetime now m.store).2,
      if verifyPoW sha256 req pow then (req, pow) :: m.submitted else m.submitted⟩
  | .other a, m =>
    if a.creates then none else (Requests.step a m.store).map fun store => { m with store }

def input (x : Request × PoW) : Str := powInput x.1 x.2.nonce

/-- The work is for the request as it will be stored, is enough, and is not
the work of another client. -/
def Earnest (difficulty : Nat) : DemandCall → Demand → Prop
  | .validateAndTrackRequest req pow _ now, m => difficulty ≤ pow.difficulty.toNat ∧
    req.timestamp = now ∧ ∀ x ∈ m.submitted, x.1.clientId ≠ req.clientId →
      input x ≠ powInput req pow.nonce
  | .other _, _ => True

structure Paid (sha256 : List UInt8 → Block 32) (difficulty : Nat) (m : Demand) : Prop where
  worked : ∀ x ∈ m.submitted, Meets sha256 difficulty (input x)
  pending : ∀ p r, m.store.request p = some r → r.status = .pending → ∃ x ∈ m.submitted,
    x.1.fileId = r.fileId ∧ x.1.clientId = r.clientId ∧ x.1.timestamp = r.timestamp
  apart : ∀ x ∈ m.submitted, ∀ y ∈ m.submitted, input x = input y → x.1.clientId = y.1.clientId

section

variable {sha256 : List UInt8 → Block 32} {difficulty : Nat} {m m' : Demand} {s : State}
  {req : Request} {pow : PoW} {lifetime now : Int64}

lemma Meets.mono {n : Nat} {input : Str} (h : Meets sha256 n input) (hle : difficulty ≤ n) :
    Meets sha256 difficulty input := by
  refine .trans ⟨List.replicate (n - difficulty) 0x30, ?_⟩ h
  rw [replicate_append_replicate, Nat.add_sub_cancel' hle]

lemma validateAndTrackRequest_snd (h : verifyPoW sha256 req pow = true) :
    (validateAndTrackRequest sha256 req pow lifetime now s).2 =
      (s.getOrCreateRequest req.fileId req.clientId lifetime now).2 := by
  rw [validateAndTrackRequest, h]
  simp only [Bool.not_true, Bool.false_eq_true, if_false]
  split <;> simp [*]

lemma Paid.other {a : Action} (h : Paid sha256 difficulty m) (hstep : Step m.store a s)
    (ha : ¬ a.creates) : Paid sha256 difficulty { m with store := s } := by
  refine ⟨h.worked, fun p r hr hpending => ?_, h.apart⟩
  cases hstep with
  | quiet hquiet => exact h.pending p r ((hquiet.request p).symm.trans hr) hpending
  | added => exact absurd rfl ha
  | @left k q caller _ hcall hrecord =>
    rw [request_leave hrecord] at hr
    split at hr
    · cases hr
      exact absurd hpending caller.newStatus_ne_pending
    · exact h.pending p r hr hpending

lemma Paid.track (h : Paid sha256 difficulty m)
    (hok : Earnest difficulty (.validateAndTrackRequest req pow lifetime now) m)
    (hverified : verifyPoW sha256 req pow = true) :
    Paid sha256 difficulty ⟨(m.store.getOrCreateRequest req.fileId req.clientId lifetime now).2,
      (req, pow) :: m.submitted⟩ := by
  obtain ⟨hdifficulty, htime, hother⟩ := hok
  have hstep := step_of_getOrCreateRequest m.store req.fileId req.clientId lifetime now
  generalize (m.store.getOrCreateRequest req.fileId req.clientId lifetime now).2 = s at hstep
  have hworked : Meets sha256 pow.difficulty.toNat (input (req, pow)) := of_decide_eq_true hverified
  refine ⟨forall_mem_cons.mpr ⟨hworked.mono hdifficulty, h.worked⟩, fun p r hr hpending => ?_, ?_⟩
  · have hold (hr : m.store.request p = some r) : ∃ x ∈ (req, pow) :: m.submitted,
        x.1.fileId = r.fileId ∧ x.1.clientId = r.clientId ∧ x.1.timestamp = r.timestamp := by
      obtain ⟨x, hx, hsame⟩ := h.pending p r hr hpending
      exact ⟨x, mem_cons_of_mem _ hx, hsame⟩
    cases hstep with
    | quiet hquiet => exact hold ((hquiet.request p).symm.trans hr)
    | added hnone =>
      rw [request_add] at hr
      split at hr
      · cases hr
        exact ⟨_, mem_cons_self, rfl, rfl, htime⟩
      · exact hold hr
  · intro x hx y hy heq
    rcases mem_cons.mp hx with rfl | hx <;> rcases mem_cons.mp hy with rfl | hy
    · rfl
    · exact by_contra fun hne => hother y hy (Ne.symm hne) heq.symm
    · exact by_contra fun hne => hother x hx hne heq
    · exact h.apart x hx y hy heq

lemma Paid.step {e : DemandCall} (h : Paid sha256 difficulty m) (hok : Earnest difficulty e m)
    (hstep : m.step sha256 e = some m') : Paid sha256 difficulty m' := by
  cases e with
  | validateAndTrackRequest req pow lifetime now =>
    cases hstep
    split
    · rename_i hverified
      rw [validateAndTrackRequest_snd hverified]
      exact h.track hok hverified
    · rename_i hrefused
      rw [validateAndTrackRequest, if_pos (by simpa using hrefused)]
      exact h
  | other a =>
    obtain ⟨ha, hstep⟩ := Option.ite_none_left_eq_some.mp hstep
    obtain ⟨s, hs, rfl⟩ := Option.map_eq_some_iff.mp hstep
    exact h.other (step_cases hs) ha

end

section

variable (sha256 : List UInt8 → Block 32) (req : Request) (difficulty : UInt8)

/-- The loop of `GeneratePoW`, for so many rounds. The nonce is of 64 bits. -/
def generatePoWFrom : Nat → UInt64 → Option PoW
  | 0, _ => none
  | rounds + 1, nonce =>
    if Meets sha256 difficulty.toNat (powInput req nonce) then some ⟨nonce, difficulty⟩
    else generatePoWFrom rounds (nonce + 1)

/-- `GeneratePoW`, as long as it tries no more than so many nonces. -/
def generatePoW (tries : Nat) : Option PoW := generatePoWFrom sha256 req difficulty tries 0

/-- The round `k` of the loop tries `k`, or what is left of it. -/
lemma generatePoWFrom_eq (rounds k : Nat) :
    generatePoWFrom sha256 req difficulty rounds (.ofNat k) =
      ((range' k rounds).find? fun n =>
        Meets sha256 difficulty.toNat (powInput req (.ofNat n))).map
        fun n => ⟨.ofNat n, difficulty⟩ := by
  induction rounds generalizing k with
  | zero => rfl
  | succ rounds ih =>
    have hnext : UInt64.ofNat k + 1 = .ofNat (k + 1) := (UInt64.ofNat_add k 1).symm
    rw [generatePoWFrom, range'_succ, find?_cons, hnext, ih]
    split
    · rw [decide_eq_true ‹_›]
      rfl
    · rw [decide_eq_false ‹_›]

lemma generatePoW_eq (tries : Nat) : generatePoW sha256 req difficulty tries =
    ((range tries).find? fun n => Meets sha256 difficulty.toNat (powInput req (.ofNat n))).map
      fun n => ⟨.ofNat n, difficulty⟩ := by
  rw [range_eq_range']
  exact generatePoWFrom_eq ..

lemma generatePoW_isSome (tries : Nat) : (generatePoW sha256 req difficulty tries).isSome ↔
    ∃ nonce : UInt64, nonce.toNat < tries ∧ verifyPoW sha256 req ⟨nonce, difficulty⟩ := by
  simp only [generatePoW_eq, Option.isSome_map, find?_isSome, mem_range]
  constructor
  · rintro ⟨n, hn, hmeets⟩
    -- past 2^64 the same nonces come again
    exact ⟨.ofNat n, (Nat.mod_le _ _).trans_lt hn, hmeets⟩
  · rintro ⟨nonce, hn, hmeets⟩
    exact ⟨nonce.toNat, hn, by simpa [verifyPoW] using hmeets⟩

/-- **The work that is generated** is verified, and is the first there is. It is
found if there is any; no hash has more than 64 zeros. -/
theorem generatePoW_first (tries : Nat) :
    (∀ proof, generatePoW sha256 req difficulty tries = some proof →
      proof.difficulty = difficulty ∧ verifyPoW sha256 req proof ∧
        ∀ n < proof.nonce, ¬ verifyPoW sha256 req ⟨n, difficulty⟩) ∧
    ((generatePoW sha256 req difficulty tries).isSome ↔
      ∃ nonce : UInt64, nonce.toNat < tries ∧ verifyPoW sha256 req ⟨nonce, difficulty⟩) ∧
    (64 < difficulty → generatePoW sha256 req difficulty tries = none) := by
  refine ⟨fun proof h => ?_, generatePoW_isSome .., fun hhard => ?_⟩
  · rw [generatePoW_eq] at h
    obtain ⟨n, hn, rfl⟩ := Option.map_eq_some_iff.mp h
    obtain ⟨hmeets, -, hbefore⟩ := find?_range_eq_some.mp hn
    refine ⟨rfl, hmeets, fun nonce hlt => ?_⟩
    have hnonce := hbefore nonce.toNat ((UInt64.lt_iff_toNat_lt.mp hlt).trans_le (Nat.mod_le _ _))
    simpa [verifyPoW] using hnonce
  · refine Option.not_isSome_iff_eq_none.mp fun hsome => ?_
    obtain ⟨nonce, -, hverified⟩ := (generatePoW_isSome ..).mp hsome
    have hlen := (of_decide_eq_true hverified).length_le
    rw [length_replicate, Geth.length_hexEncode, (sha256 _).property] at hlen
    exact absurd (UInt8.lt_iff_toNat_lt.mp hhard) (not_lt.mpr hlen)

end

end Cipher.Requests
