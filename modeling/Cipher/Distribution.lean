import Cipher.Push
import Mathlib.Data.Finset.Card

/-!
# Distribution of chunks to providers

The package `distribution`: the placement of chunks, the tracker of their
replicas, and `Distribute`, which uploads to all providers in parallel and
then makes up for what failed.

What `uploadToProvider` does is a tree (`Upload`) of what it asks its
surroundings for: a connection, an answer to a request, a chunk of the
local store, a status to be set. Nothing here says what the answers are.

The goroutines of one round write the statuses of their own provider only
and read none, so it does not matter in which order they are run, and
`uploadAll` runs one after the other. The map of providers is iterated in
an order that is given.
-/

namespace Cipher.Distribution

open Bytes Binary Go Content Push Function

/-- `peer.ID` is a string. -/
abbrev PeerID := Str

/-! ## The plan -/

inductive PlanError where
  | noProviders
  | replicationNotPositive (replication : Int)
  | replicationExceedsProviders (replication : Int) (providers : Nat)
  | zeroChunks
deriving DecidableEq

/-- The keys of `providerChunks` are the providers. -/
structure PlacementPlan where
  contentId : ContentID
  manifest : Manifest
  assignments : ChunkID → List PeerID
  providerChunks : PeerID → List ChunkID
  replication : Nat

/-- The providers for the chunk with the index, one for each replica. -/
def targets (providers : List PeerID) (replication i : Nat) : List PeerID :=
  (List.range replication).filterMap fun r => providers[(i + r) % providers.length]?

/-- One chunk is placed. -/
def PlacementPlan.place (plan : PlacementPlan) (chunkId : ChunkID) (ps : List PeerID) :
    PlacementPlan :=
  { plan with
    assignments := update plan.assignments chunkId ps
    providerChunks := ps.foldl (fun chunks p => update chunks p (chunks p ++ [chunkId]))
      plan.providerChunks }

def planPlacement (m : Manifest) (providers : List PeerID) (replication : Int) :
    Except PlanError PlacementPlan :=
  if providers.length = 0 then .error .noProviders
  else if replication ≤ 0 then .error (.replicationNotPositive replication)
  else if replication > providers.length then
    .error (.replicationExceedsProviders replication providers.length)
  else if m.chunkIds.length = 0 then .error .zeroChunks
  else .ok (m.chunkIds.zipIdx.foldl
    (fun plan c => plan.place c.1 (targets providers replication.toNat c.2))
    { contentId := m.descriptor.id
      manifest := m
      assignments := fun _ => []
      providerChunks := fun _ => []
      replication := replication.toNat })

/-! ## The tracker -/

inductive ReplicaState where
  | pending
  | uploading
  | committed
  | failed
deriving DecidableEq, Repr

/-- A map of maps, by its keys and its values. A key that is not there reads
as `pending`, the zero value. A `requiredR` below zero is as good as zero. -/
structure GlobalReplicaTracker where
  keys : ChunkID → Finset PeerID
  state : ChunkID → PeerID → ReplicaState
  requiredR : Nat
  absent : ∀ c p, p ∉ keys c → state c p = .pending

namespace GlobalReplicaTracker

def new (requiredR : Nat) : GlobalReplicaTracker :=
  ⟨fun _ => ∅, fun _ _ => .pending, requiredR, fun _ _ _ => rfl⟩

section

variable (t : GlobalReplicaTracker)

def setStatus (chunkId : ChunkID) (p : PeerID)
    (status : ReplicaState) : GlobalReplicaTracker where
  keys := update t.keys chunkId (insert p (t.keys chunkId))
  state := update t.state chunkId (update (t.state chunkId) p status)
  requiredR := t.requiredR
  absent c q h := by
    by_cases hc : c = chunkId
    · subst hc
      rw [update_self, Finset.mem_insert, not_or] at h
      rw [update_self, update_of_ne h.1]
      exact t.absent c q h.2
    · rw [update_of_ne hc] at h ⊢
      exact t.absent c q h

/-- The providers that have committed the chunk. -/
def committed (chunkId : ChunkID) : Finset PeerID :=
  (t.keys chunkId).filter fun p => t.state chunkId p = .committed

def committedCount (chunkId : ChunkID) : Nat :=
  (t.committed chunkId).card

def isComplete (chunkIds : List ChunkID) : Bool :=
  chunkIds.all fun id => decide (t.requiredR ≤ t.committedCount id)

lemma setStatus_state (chunkId c : ChunkID) (p q : PeerID) (status : ReplicaState) :
    (t.setStatus chunkId p status).state c q =
      if c = chunkId ∧ q = p then status else t.state c q := by
  by_cases hc : c = chunkId
  · subst hc
    by_cases hq : q = p
    · simp [setStatus, hq]
    · simp [setStatus, hq]
  · simp [setStatus, hc]

lemma mem_committed {t : GlobalReplicaTracker} : p ∈ t.committed c ↔ t.state c p = .committed := by
  rw [committed, Finset.mem_filter, and_iff_right_iff_imp]
  intro hstate
  by_contra hkey
  rw [t.absent c p hkey] at hstate
  cases hstate

lemma isComplete_iff {t : GlobalReplicaTracker} :
    t.isComplete chunkIds = true ↔ ∀ c ∈ chunkIds, t.requiredR ≤ (t.committed c).card := by
  rw [isComplete, List.all_eq_true]
  exact forall₂_congr fun _ _ => decide_eq_true_iff

/-- How many of the chunks have enough replicas, and how many there are. -/
def getSummary (chunkIds : List ChunkID) : Nat × Nat :=
  (chunkIds.countP fun id => decide (t.requiredR ≤ t.committedCount id), chunkIds.length)

end

end GlobalReplicaTracker

/-! ## Uploads -/

/-- What a goroutine of `uploadToProvider` asks for next. A request that
gets no answer, because it could not be sent, a deadline passed or the
stream broke, is answered by `none`. -/
inductive Upload where
  | done
  | connect (next : Bool → Upload)
  | exchange (req : PushMessage) (next : Option PushMessage → Upload)
  | getChunk (id : ChunkID) (next : Option Chunk → Upload)
  | setStatus (chunkId : ChunkID) (status : ReplicaState) (next : Upload)

/-- The call of the client with the check of its answer succeeds. -/
def succeeds (check : PushMessage → Except ClientError Unit) (resp : Option PushMessage) : Bool :=
  match resp with
  | none => false
  | some resp => decide (check resp = .ok ())

def failAll (chunks : List ChunkID) : Upload :=
  chunks.foldr (fun c next => .setStatus c .failed next) .done

/-- The loop of attempts. `failed` says whether `sendErr` is set, which it
is not before the first. -/
def attempts (contentId : ContentID) (chunk : Chunk) (next : Bool → Upload) :
    Nat → Bool → Upload
  | 0, failed => next failed
  | n + 1, _ => .exchange (buildPushChunk contentId chunk) fun resp =>
    if succeeds (sendChunk chunk) resp then next false
    else attempts contentId chunk next n true

/-- The loop over the chunks, and the end of the batch. `total` is the
number of all chunks of the batch. -/
def uploadChunks (contentId : ContentID) (maxRetries total : Nat) :
    List ChunkID → Nat → Upload
  | [], committedInBatch =>
    if committedInBatch = total then .exchange (buildPushBatchComplete contentId) fun _ => .done
    else .done
  | c :: rest, committedInBatch => .getChunk c fun
    | none => .setStatus c .failed (uploadChunks contentId maxRetries total rest committedInBatch)
    | some chunk => .setStatus c .uploading (attempts contentId chunk
        (fun failed =>
          if failed then
            .setStatus c .failed (uploadChunks contentId maxRetries total rest committedInBatch)
          else .setStatus c .committed
            (uploadChunks contentId maxRetries total rest (committedInBatch + 1)))
        maxRetries false)

def uploadToProvider (contentId : ContentID) (chunks : List ChunkID) (manifestBytes : List UInt8)
    (maxRetries : Nat) : Upload :=
  .connect fun connected =>
    if ¬ connected then failAll chunks
    else .exchange (buildPushManifest contentId chunks manifestBytes) fun resp =>
      if succeeds (sendManifest contentId) resp then
        uploadChunks contentId maxRetries chunks.length chunks 0
      else failAll chunks

/-! ## Distribute -/

/-- A number of retries or rounds below zero is as good as zero. -/
structure UploaderConfig where
  maxRetriesPerChunk : Nat
  failoverRounds : Nat
deriving DecidableEq

def defaultUploaderConfig : UploaderConfig := ⟨3, 2⟩

/-- The chunks that a round uploads to a provider. -/
abbrev Batches := PeerID → List ChunkID

/-- The statuses of the initial plan. -/
def initTracker (plan : PlacementPlan) (tracker : GlobalReplicaTracker) : GlobalReplicaTracker :=
  plan.manifest.chunkIds.foldl (fun t c =>
    (plan.assignments c).foldl (fun t p => t.setStatus c p .pending) t) tracker

/-- The providers with chunks, as the map is iterated. -/
def activeProviders (plan : PlacementPlan) (order : List PeerID) : List PeerID :=
  order.filter fun p => decide ((plan.providerChunks p).length ≠ 0)

/-- The loop that looks for providers of one chunk, `needed` of them. -/
def findProviders (c : ChunkID) : List PeerID → Nat → Batches × GlobalReplicaTracker →
    Batches × GlobalReplicaTracker
  | [], _, acc => acc
  | _ :: _, 0, acc => acc
  | p :: ps, needed + 1, (batches, tracker) =>
    if tracker.state c p ≠ .committed ∧ tracker.state c p ≠ .uploading then
      findProviders c ps needed
        (update batches p (batches p ++ [c]), tracker.setStatus c p .pending)
    else findProviders c ps (needed + 1) (batches, tracker)

/-- The reassignments of one failover round, and the tracker with them. -/
def reassign (plan : PlacementPlan) (active : List PeerID) (tracker : GlobalReplicaTracker) :
    Batches × GlobalReplicaTracker :=
  plan.manifest.chunkIds.foldl (fun acc c =>
    findProviders c active (plan.replication - acc.2.committedCount c) acc)
    (fun _ => [], tracker)

/-! ## Distribute against given answers -/

/-- How a provider takes one upload: whether the stream can be opened, and
what comes back for the requests on it, by their number. -/
structure Behaviour where
  connects : Bool
  replies : Nat → PushMessage → Option PushMessage

inductive Event where
  | sent (req : PushMessage) (resp : Option PushMessage)
  | status (chunkId : ChunkID) (status : ReplicaState)

/-- What an upload does; `n` requests have been made. -/
def Upload.run (engine : Storage) (b : Behaviour) : Upload → Nat → List Event
  | .done, _ => []
  | .connect next, n => (next b.connects).run engine b n
  | .exchange req next, n =>
    .sent req (b.replies n req) :: (next (b.replies n req)).run engine b (n + 1)
  | .getChunk id next, n => (next (engine.getChunk id).toOption).run engine b n
  | .setStatus c status next, n => .status c status :: next.run engine b n

/-- The tracker after the events of an upload to a provider. -/
def GlobalReplicaTracker.apply (p : PeerID) (t : GlobalReplicaTracker) :
    Event → GlobalReplicaTracker
  | .sent _ _ => t
  | .status c status => t.setStatus c p status

/-- `log` is a ghost: what happened, and with which provider. -/
structure Progress where
  tracker : GlobalReplicaTracker
  log : List (PeerID × Event)

/-- What stays the same throughout `Distribute`. -/
structure Job where
  engine : Storage
  plan : PlacementPlan
  order : List PeerID
  cfg : UploaderConfig
  manifestBytes : List UInt8

def Job.active (job : Job) : List PeerID := activeProviders job.plan job.order

/-- One upload: the chunks of a batch to a provider. -/
def Job.upload (job : Job) (b : Behaviour) (p : PeerID) (chunks : List ChunkID)
    (st : Progress) : Progress :=
  let events := (uploadToProvider job.plan.contentId chunks job.manifestBytes
    job.cfg.maxRetriesPerChunk).run job.engine b 0
  { tracker := events.foldl (GlobalReplicaTracker.apply p) st.tracker
    log := st.log ++ events.map (Prod.mk p) }

/-- All goroutines of a round. -/
def Job.uploadAll (job : Job) (behaviour : PeerID → Behaviour) (batches : Batches)
    (st : Progress) : Progress :=
  job.active.foldl (fun st p =>
    if (batches p).length = 0 then st else job.upload (behaviour p) p (batches p) st) st

/-- The failover rounds, of which so many are left. -/
def Job.failover (job : Job) (pattern : Nat → PeerID → Behaviour) :
    Nat → Nat → Progress → Progress
  | 0, _, st => st
  | n + 1, round, st =>
    if st.tracker.isComplete job.plan.manifest.chunkIds then st
    else
      let (batches, tracker) := reassign job.plan job.active st.tracker
      if job.active.all fun p => decide ((batches p).length = 0) then { st with tracker := tracker }
      else job.failover pattern n (round + 1)
        (job.uploadAll (pattern round) batches { st with tracker := tracker })

/-- `Distribute` from the manifest bytes on. The first test for completeness
is the one that `failover` begins with. -/
def Job.progress (job : Job) (pattern : Nat → PeerID → Behaviour)
    (tracker : GlobalReplicaTracker) : Progress :=
  job.failover pattern job.cfg.failoverRounds 1
    (job.uploadAll (pattern 0) job.plan.providerChunks ⟨initTracker job.plan tracker, []⟩)

inductive DistributeError where
  | failedToGetManifestBytes
  | replicationInvariantViolation (satisfied total replication : Nat)
deriving DecidableEq

/-- The providers behave by round and provider as the pattern says. -/
def distribute (engine : Storage) (plan : PlacementPlan) (order : List PeerID)
    (cfg : UploaderConfig) (pattern : Nat → PeerID → Behaviour)
    (tracker : GlobalReplicaTracker) : Except DistributeError Unit × Progress :=
  match engine.getManifestBytes plan.contentId with
  | none => (.error .failedToGetManifestBytes, ⟨tracker, []⟩)
  | some manifestBytes =>
    let st := Job.progress ⟨engine, plan, order, cfg, manifestBytes⟩ pattern tracker
    if st.tracker.isComplete plan.manifest.chunkIds then (.ok (), st)
    else
      let (satisfied, total) := st.tracker.getSummary plan.manifest.chunkIds
      (.error (.replicationInvariantViolation satisfied total plan.replication), st)

end Cipher.Distribution
