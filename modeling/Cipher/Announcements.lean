import Mathlib.Data.Set.Card
import Cipher.ProofDigests

/-!
# Announcements of cached files

The packages `cacheAnnouncement` and `replica` behind `IngestAnnouncement`. An
announcement is signed with all of its fields, the expiry as `UnixNano` gives
it; that wraps after 2^64 nanoseconds, which a `time.Time` goes beyond
(`announcement_bound_iff`). The expiry is looked at once, when an announcement
is ingested, and its replica is counted until it is removed
(`replica_count_iff`).
-/

namespace Cipher.Requests

open Binary Go Availability List

/-- The expiry is an instant, in nanoseconds since the epoch. -/
structure CacheAnnouncement where
  providerId : Str
  fileId : Str
  merkleRoot : Str
  version : UInt64
  expiry : Int

structure SignedCacheAnnouncement where
  announcement : CacheAnnouncement
  signature : List UInt8

inductive AnnouncementError where
  | providerIdEmpty
  | fileIdEmpty
  | merkleRootEmpty
  | signature
  | expired

inductive ProviderState where
  | active
  | removed
deriving DecidableEq

structure Replica where
  providerId : Str
  fileId : Str
  version : UInt64
  state : ProviderState

/-- What is written to the buffer. -/
def CacheAnnouncement.payload (a : CacheAnnouncement) : List UInt8 :=
  framed a.providerId ++ (framed a.fileId ++ (framed a.merkleRoot ++
    (beBytes 8 (UInt64.ofInt a.expiry).toNat ++ beBytes 8 a.version.toNat)))

def buildSigningPayload (a : CacheAnnouncement) : Except AnnouncementError (List UInt8) :=
  if a.providerId = [] then .error .providerIdEmpty
  else if a.fileId = [] then .error .fileIdEmpty
  else if a.merkleRoot = [] then .error .merkleRootEmpty
  else .ok a.payload

/-- The loop of `AddOrUpdateReplica`. -/
def updateReplica (r : Replica) : List Replica → List Replica
  | [] => [r]
  | e :: rest =>
    if e.providerId = r.providerId ∧ e.fileId = r.fileId ∧ e.version = r.version then
      { e with state := r.state } :: rest
    else e :: updateReplica r rest

def addOrUpdateReplica (replicas : List Replica) (r : Replica) :
    Except AnnouncementError (List Replica) :=
  if r.providerId = [] then .error .providerIdEmpty
  else if r.fileId = [] then .error .fileIdEmpty
  else .ok (updateReplica r replicas)

section

variable (ed : Ed25519)

def signCacheAnnouncement (a : CacheAnnouncement) (privateKey : Block 64) :
    Except AnnouncementError SignedCacheAnnouncement := do
  let payload ← buildSigningPayload a
  return ⟨a, ed.sign privateKey payload⟩

def verifyCacheAnnouncement (signed : SignedCacheAnnouncement) (publicKey : List UInt8) : Bool :=
  match buildSigningPayload signed.announcement with
  | .error _ => false
  | .ok payload => ed.verify publicKey payload signed.signature

/-- `IngestAnnouncement` at the time `now`. -/
def ingestAnnouncement (replicas : List Replica) (signed : SignedCacheAnnouncement)
    (publicKey : List UInt8) (now : Int) : Except AnnouncementError (List Replica) :=
  let a := signed.announcement
  if !verifyCacheAnnouncement ed signed publicKey then .error .signature
  else if a.expiry < now then .error .expired
  else addOrUpdateReplica replicas ⟨a.providerId, a.fileId, a.version, .active⟩

end

/-! ## What a signature binds -/

/-- The strings are not too long for their length to be written down. -/
structure CacheAnnouncement.Sized (a : CacheAnnouncement) : Prop where
  providerId : a.providerId.length < 2 ^ 64
  fileId : a.fileId.length < 2 ^ 64
  merkleRoot : a.merkleRoot.length < 2 ^ 64

variable {a b : CacheAnnouncement}

lemma buildSigningPayload_ok (h : buildSigningPayload a = .ok payload) : a.payload = payload := by
  simp only [buildSigningPayload, ite_error_eq_ok] at h
  exact Except.ok.inj h.2.2.2

/-- The payload determines all but the expiry, and that up to 2^64. -/
lemma eq_of_payload (ha : a.Sized) (hb : b.Sized) (h : b.payload = a.payload) :
    b = { a with expiry := b.expiry } ∧ b.expiry % 2 ^ 64 = a.expiry % 2 ^ 64 := by
  obtain ⟨hprovider, h⟩ := framed_append_inj hb.providerId ha.providerId h
  obtain ⟨hfile, h⟩ := framed_append_inj hb.fileId ha.fileId h
  obtain ⟨hroot, h⟩ := framed_append_inj hb.merkleRoot ha.merkleRoot h
  obtain ⟨hexpiry, h⟩ := uint64_append_inj h
  obtain ⟨hversion, -⟩ := uint64_append_inj (congrArg (· ++ []) h)
  refine ⟨by rw [← hprovider, ← hfile, ← hroot, ← hversion], ?_⟩
  have hvalue := congrArg UInt64.toNat hexpiry
  simp only [UInt64.ofInt, UInt64.toNat_ofNat'] at hvalue
  omega

lemma verifyCacheAnnouncement_ok
    (h : verifyCacheAnnouncement ed ⟨a, signature⟩ publicKey = true) :
    (a.providerId ≠ [] ∧ a.fileId ≠ []) ∧ ed.verify publicKey a.payload signature = true := by
  simp only [verifyCacheAnnouncement, buildSigningPayload] at h
  split_ifs at h with hprovider hfile hroot
  exact ⟨⟨hprovider, hfile⟩, h⟩

lemma ingestAnnouncement_eq_ok : ingestAnnouncement ed replicas ⟨a, signature⟩ publicKey now =
      .ok replicas' ↔
    (verifyCacheAnnouncement ed ⟨a, signature⟩ publicKey = true ∧ now ≤ a.expiry) ∧
      updateReplica ⟨a.providerId, a.fileId, a.version, .active⟩ replicas = replicas' := by
  simp only [ingestAnnouncement, addOrUpdateReplica, ite_error_eq_ok, Except.ok.injEq, not_lt,
    Bool.not_eq_true', Bool.not_eq_false]
  constructor
  · rintro ⟨hverify, hexpiry, -, -, heq⟩
    exact ⟨⟨hverify, hexpiry⟩, heq⟩
  · rintro ⟨⟨hverify, hexpiry⟩, heq⟩
    obtain ⟨⟨hprovider, hfile⟩, -⟩ := verifyCacheAnnouncement_ok hverify
    exact ⟨hverify, hexpiry, hprovider, hfile, heq⟩

/-- **A signature binds an announcement**, and its expiry, among those that
expire less than 2^64 nanoseconds apart. -/
theorem announcement_bound_iff (ed : Ed25519) (key : Block 64) (replicas : List Replica)
    {signed : SignedCacheAnnouncement} {now : Int} {replicas' : List Replica} (ha : a.Sized)
    (hb : b.Sized)
    (hsign : signCacheAnnouncement ed a key = .ok signed)
    (hunforgeable : ∀ message, ed.verify (ed.publicKey key) message signed.signature = true →
      buildSigningPayload a = .ok message)
    (haccepted : ingestAnnouncement ed replicas ⟨b, signed.signature⟩ (ed.publicKey key) now =
      .ok replicas') :
    (b = a ∧ now ≤ a.expiry) ↔ (b.expiry - a.expiry).natAbs < 2 ^ 64 := by
  obtain ⟨⟨hverify, hnow⟩, -⟩ := ingestAnnouncement_eq_ok.mp haccepted
  have hpayload := buildSigningPayload_ok (hunforgeable _ (verifyCacheAnnouncement_ok hverify).2)
  obtain ⟨heq, hmod⟩ := eq_of_payload ha hb hpayload.symm
  constructor
  · rintro ⟨rfl, -⟩
    simp
  · intro hapart
    have hexpiry : b.expiry = a.expiry := by omega
    rw [hexpiry] at heq hnow
    exact ⟨heq, hnow⟩

/-- An announcement that expires at the epoch or 2^64 nanoseconds, about 584
years, later. -/
def expiringAt (expiry : Int) : CacheAnnouncement := ⟨[1], [2], [3], 1, expiry⟩

lemma plainEd_unforgeable (key : Block 64) {payload message : List UInt8}
    (h : plainEd.verify (plainEd.publicKey key) message (plainEd.sign key payload) = true) :
    payload = message :=
  append_cancel_right (of_decide_eq_true h)

/-- An announcement is signed and accepted, and no other that expires about
then is accepted with its signature. -/
theorem announcement_bound_now : ∃ signed replicas,
    signCacheAnnouncement plainEd (expiringAt 5) (.ofList 64 []) = .ok signed ∧
    ingestAnnouncement plainEd [] signed (plainEd.publicKey (.ofList 64 [])) 3 = .ok replicas ∧
    ∀ b : CacheAnnouncement, b.Sized → (b.expiry - 5).natAbs < 2 ^ 64 → ∀ replicas',
      ingestAnnouncement plainEd [] ⟨b, signed.signature⟩ (plainEd.publicKey (.ofList 64 [])) 3 =
        .ok replicas' → b = expiringAt 5 := by
  refine ⟨_, _, rfl, rfl, fun b hb hexpiry replicas' haccepted => ?_⟩
  have ha : (expiringAt 5).Sized := ⟨by decide, by decide, by decide⟩
  exact ((announcement_bound_iff plainEd _ [] ha hb rfl
    (fun _ h => congrArg _ (plainEd_unforgeable _ h)) haccepted).mpr hexpiry).1

theorem expiry_extended : ∃ signed replicas,
    signCacheAnnouncement plainEd (expiringAt 0) (.ofList 64 []) = .ok signed ∧
    (∀ message, plainEd.verify (plainEd.publicKey (.ofList 64 [])) message signed.signature = true →
      buildSigningPayload (expiringAt 0) = .ok message) ∧
    ingestAnnouncement plainEd [] ⟨expiringAt (2 ^ 64), signed.signature⟩
      (plainEd.publicKey (.ofList 64 [])) 1 = .ok replicas :=
  ⟨_, _, rfl, fun _ h => congrArg _ (plainEd_unforgeable _ h), rfl⟩

/-! ## Counting replicas -/

def getReplicaCount (replicas : List Replica) (fileId : Str) (version : UInt64) :
    Except AnnouncementError Nat :=
  if fileId = [] then .error .fileIdEmpty
  else .ok (replicas.countP fun r => r.fileId = fileId ∧ r.version = version ∧ r.state = .active)

def removeReplica (providerId fileId : Str) (version : UInt64) :
    List Replica → List Replica × Bool
  | [] => ([], false)
  | e :: rest =>
    if e.providerId = providerId ∧ e.fileId = fileId ∧ e.version = version ∧ e.state = .active then
      ({ e with state := .removed } :: rest, true)
    else (removeReplica providerId fileId version rest).map (e :: ·) id

inductive ReplicaCall where
  | ingest (signed : SignedCacheAnnouncement) (publicKey : List UInt8) (now : Int)
  | remove (providerId fileId : Str) (version : UInt64)

/-- The replicas after the calls, the last one first. -/
def tracked (ed : Ed25519) : List ReplicaCall → List Replica
  | [] => []
  | .ingest signed publicKey now :: calls =>
    match ingestAnnouncement ed (tracked ed calls) signed publicKey now with
    | .ok replicas => replicas
    | .error _ => tracked ed calls
  | .remove providerId fileId version :: calls =>
    (removeReplica providerId fileId version (tracked ed calls)).1

/-- An announcement of the provider for the file was ingested, is one of those
that count, and the provider has not been removed since. -/
def Live (ed : Ed25519) (counts : CacheAnnouncement → Prop) (providerId fileId : Str)
    (version : UInt64) : List ReplicaCall → Prop
  | [] => False
  | .ingest ⟨a, signature⟩ publicKey now :: calls =>
    ((verifyCacheAnnouncement ed ⟨a, signature⟩ publicKey = true ∧ now ≤ a.expiry) ∧ counts a ∧
      providerId = a.providerId ∧ fileId = a.fileId ∧ version = a.version) ∨
    Live ed counts providerId fileId version calls
  | .remove providerId' fileId' version' :: calls =>
    ¬ (providerId = providerId' ∧ fileId = fileId' ∧ version = version') ∧
      Live ed counts providerId fileId version calls

def Replica.key (r : Replica) : Str × Str × UInt64 := (r.providerId, r.fileId, r.version)

section

variable {r x : Replica} {replicas : List Replica} {key : Str × Str × UInt64}
  {providerId fileId : Str} {version : UInt64}

lemma mem_update (hr : r.state = .active) (hx : x.state = .active) :
    x ∈ updateReplica r replicas ↔ x = r ∨ x ∈ replicas := by
  fun_induction updateReplica r replicas with
  | case1 => simp
  | case2 e rest hkey =>
    cases e; cases r; cases x
    grind
  | case3 e rest hkey ih => grind

lemma mem_keys_update : key ∈ (updateReplica r replicas).map Replica.key ↔
    key = r.key ∨ key ∈ replicas.map Replica.key := by
  fun_induction updateReplica r replicas with
  | case1 => simp
  | case2 e rest hkey => simp [Replica.key, hkey]
  | case3 e rest hkey ih => grind

lemma nodup_update (h : (replicas.map Replica.key).Nodup) :
    ((updateReplica r replicas).map Replica.key).Nodup := by
  fun_induction updateReplica r replicas with
  | case1 => simp
  | case2 e rest hkey => exact h
  | case3 e rest hkey ih => grind [mem_keys_update, Replica.key]

lemma keys_remove : (removeReplica providerId fileId version replicas).1.map Replica.key =
    replicas.map Replica.key := by
  fun_induction removeReplica providerId fileId version replicas with
  | case1 => rfl
  | case2 => rfl
  | case3 e rest _ ih => exact congrArg (e.key :: ·) ih

/-- There is one replica to remove. -/
lemma mem_remove (h : (replicas.map Replica.key).Nodup) (hx : x.state = .active) :
    x ∈ (removeReplica providerId fileId version replicas).1 ↔
      x.key ≠ (providerId, fileId, version) ∧ x ∈ replicas := by
  fun_induction removeReplica providerId fileId version replicas with
  | case1 => simp
  | case2 e rest hkey => grind [Replica.key]
  | case3 e rest hkey ih => grind [Replica.key]

end

/-- A replica is active as long as it is live, whenever its announcement expires. -/
lemma tracked_ok (ed : Ed25519) (calls : List ReplicaCall) :
    ((tracked ed calls).map Replica.key).Nodup ∧ ∀ providerId fileId version,
      ⟨providerId, fileId, version, .active⟩ ∈ tracked ed calls ↔
        Live ed (fun _ => True) providerId fileId version calls := by
  induction calls with
  | nil => exact ⟨nodup_nil, fun _ _ _ => by simp [tracked, Live]⟩
  | cons call calls ih =>
    obtain ⟨hnodup, hlive⟩ := ih
    cases call with
    | ingest signed publicKey now =>
      obtain ⟨a, signature⟩ := signed
      simp only [tracked, Live, true_and]
      split
      · rename_i replicas hok
        obtain ⟨haccepted, rfl⟩ := ingestAnnouncement_eq_ok.mp hok
        refine ⟨nodup_update hnodup, fun providerId fileId version => ?_⟩
        rw [mem_update rfl rfl, hlive]
        simp only [Replica.mk.injEq, and_true, haccepted, true_and]
      · rename_i herror
        refine ⟨hnodup, fun providerId fileId version => ?_⟩
        rw [hlive, or_iff_right]
        rintro ⟨haccepted, -⟩
        cases herror.symm.trans (ingestAnnouncement_eq_ok.mpr ⟨haccepted, rfl⟩)
    | remove providerId fileId version =>
      refine ⟨keys_remove.symm ▸ hnodup, fun providerId' fileId' version' => ?_⟩
      rw [tracked, mem_remove hnodup rfl, hlive]
      simp only [Live, Replica.key, ne_eq, Prod.mk.injEq]

lemma providers_eq (ed : Ed25519) (calls : List ReplicaCall) (fileId : Str) (version : UInt64) :
    {p | Live ed (fun _ => True) p fileId version calls} =
      (((tracked ed calls).filter fun r => r.fileId = fileId ∧ r.version = version ∧
        r.state = .active).map Replica.providerId).toFinset := by
  ext p
  simp only [Set.mem_ofPred_eq, ← (tracked_ok ed calls).2, coe_toFinset, mem_map, mem_filter,
    decide_eq_true_eq]
  constructor
  · exact fun h => ⟨_, ⟨h, rfl, rfl, rfl⟩, rfl⟩
  · rintro ⟨⟨_, _, _, _⟩, ⟨h, rfl, rfl, rfl⟩, rfl⟩
    exact h

lemma getReplicaCount_tracked (ed : Ed25519) (calls : List ReplicaCall) {fileId : Str}
    (version : UInt64) (hfile : fileId ≠ []) : getReplicaCount (tracked ed calls) fileId version =
      .ok (Set.ncard {p | Live ed (fun _ => True) p fileId version calls}) := by
  have hnodup := (tracked_ok ed calls).1
  rw [getReplicaCount, if_neg hfile, providers_eq, Set.ncard_coe_finset, toFinset_card_of_nodup,
    length_map, countP_eq_length_filter]
  refine Nodup.map_on ?_ (hnodup.of_map.filter _)
  rintro r hr r' hr' heq
  simp only [mem_filter, decide_eq_true_eq] at hr hr'
  refine inj_on_of_nodup_map hnodup hr.1 hr'.1 ?_
  rw [Replica.key, Replica.key, heq, hr.2.1, hr'.2.1, hr.2.2.1, hr'.2.2.1]

lemma Live.weaken {ed : Ed25519} {counts : CacheAnnouncement → Prop} {p fileId : Str}
    {version : UInt64} {calls : List ReplicaCall} (h : Live ed counts p fileId version calls) :
    Live ed (fun _ => True) p fileId version calls := by
  induction calls with
  | nil => exact h
  | cons call calls ih =>
    cases call with
    | ingest => exact h.imp (fun ⟨haccepted, _, hkey⟩ => ⟨haccepted, trivial, hkey⟩) ih
    | remove => exact h.imp_right ih

/-- **Replica counts follow live announcements** as long as there is no provider
whose announcements have all expired since they were ingested. -/
theorem replica_count_iff (ed : Ed25519) (calls : List ReplicaCall) (fileId : Str)
    (version : UInt64) (now : Int) :
    getReplicaCount (tracked ed calls) fileId version =
        .ok (Set.ncard {p | Live ed (now ≤ ·.expiry) p fileId version calls}) ↔
      fileId ≠ [] ∧ ∀ p, Live ed (fun _ => True) p fileId version calls →
        Live ed (now ≤ ·.expiry) p fileId version calls := by
  by_cases hfile : fileId = []
  · simp [getReplicaCount, hfile]
  rw [getReplicaCount_tracked ed calls version hfile, Except.ok.injEq]
  have hfinite : {p | Live ed (fun _ => True) p fileId version calls}.Finite := by
    rw [providers_eq]
    exact Finset.finite_toSet _
  constructor
  · intro hcount
    have hsame := Set.eq_of_subset_of_ncard_le (fun _ => Live.weaken) hcount.le hfinite
    exact ⟨hfile, fun p hp => hsame.ge hp⟩
  · rintro ⟨-, hall⟩
    exact congrArg Set.ncard (Set.Subset.antisymm hall fun _ => Live.weaken)

/-- An announcement that expires at the epoch is counted after it. -/
theorem replica_counted_expired : ∃ signed,
    signCacheAnnouncement plainEd (expiringAt 0) (.ofList 64 []) = .ok signed ∧
    let calls := [.ingest signed (plainEd.publicKey (.ofList 64 [])) 0]
    getReplicaCount (tracked plainEd calls) [2] 1 = .ok 1 ∧
      Set.ncard {p | Live plainEd (1 ≤ ·.expiry) p [2] 1 calls} = 0 := by
  refine ⟨_, rfl, rfl, ?_⟩
  simp [Live, expiringAt]

end Cipher.Requests
