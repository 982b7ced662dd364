import Cipher.CommittedReplicas

/-!
# What a round of uploads does

The events of an upload, and from them what a round and the choice of
providers for the next one do to the tracker. An upload sets the status of
each of its chunks to committed or failed in the end and touches nothing
else (`Settles`); a failover round gives a chunk to the first providers in
the order of iteration that have not committed it, as many as are missing
(`picks`), whether they have failed on it or not.
-/

namespace Cipher.Distribution

open Bytes Binary Go Content Push List

section

variable (p : PeerID) (events : List Event) (t : GlobalReplicaTracker)

/-- The tracker after the events of an upload. -/
def GlobalReplicaTracker.applyAll : GlobalReplicaTracker :=
  events.foldl (GlobalReplicaTracker.apply p) t

lemma applyAll_append (p : PeerID) (xs ys : List Event) (t : GlobalReplicaTracker) :
    t.applyAll p (xs ++ ys) = (t.applyAll p xs).applyAll p ys := foldl_append

lemma applyAll_requiredR : (t.applyAll p events).requiredR = t.requiredR := by
  induction events generalizing t with
  | nil => rfl
  | cons e rest ih =>
    cases e with
    | sent req resp => exact ih t
    | status c status => exact ih _

end

/-- In the answers to the requests, a `SendChunk` of the chunk succeeded. -/
def Accepted (contentId : ContentID) (events : List Event) (c : ChunkID) : Prop :=
  ∃ chunk resp, .sent (buildPushChunk contentId chunk) (some resp) ∈ events ∧
    chunk.header.id = c ∧ sendChunk chunk resp = .ok ()

/-- A `SendBatchComplete` succeeded. -/
def Finished (contentId : ContentID) (events : List Event) : Prop :=
  ∃ resp, .sent (buildPushBatchComplete contentId) (some resp) ∈ events ∧
    sendBatchComplete contentId resp = .ok ()

variable {c : ChunkID} {chunk : Chunk}

lemma Accepted.mono (h : Accepted contentId xs c) (hsub : xs ⊆ ys) : Accepted contentId ys c := by
  obtain ⟨chunk, resp, hmem, hc⟩ := h
  exact ⟨chunk, resp, hsub hmem, hc⟩

lemma buildPushChunk_injective
    (h : buildPushChunk contentId chunk = buildPushChunk contentId chunk') : chunk = chunk' := by
  have hparse := congrArg (fun msg => parsePushChunk msg.payload) h
  simp only [parsePushChunk_build, Option.some.injEq, Prod.mk.injEq, true_and] at hparse
  exact hparse

/-! ## One chunk -/

variable {engine : Storage} {b : Behaviour} {contentId : ContentID} {maxRetries : Nat}

/-- The events of the attempts to send a chunk, `n` at most, with whether
there was a failure before and whether they failed. -/
structure Attempts (contentId : ContentID) (chunk : Chunk) (n : Nat) (before : Bool)
    (sends : List Event) (failed : Bool) : Prop where
  only : ∀ e ∈ sends, ∃ resp, e = .sent (buildPushChunk contentId chunk) resp
  refused : failed = true → ∀ resp,
    Event.sent (buildPushChunk contentId chunk) (some resp) ∈ sends → sendChunk chunk resp ≠ .ok ()
  accepted : failed = false → (n = 0 ∧ before = false) ∨ ∃ resp,
    Event.sent (buildPushChunk contentId chunk) (some resp) ∈ sends ∧ sendChunk chunk resp = .ok ()

/-- The attempts are made, and then the upload goes on. -/
lemma run_attempts (engine : Storage) (b : Behaviour) (contentId : ContentID) (chunk : Chunk)
    (next : Bool → Upload) :
    ∀ (n : Nat) (before : Bool) (k : Nat), ∃ sends failed k',
      (attempts contentId chunk next n before).run engine b k =
        sends ++ (next failed).run engine b k' ∧
      Attempts contentId chunk n before sends failed := by
  intro n
  induction n with
  | zero =>
    intro before k
    exact ⟨[], before, k, rfl, nofun, fun _ => nofun, fun hbefore => .inl ⟨rfl, hbefore⟩⟩
  | succ n ih =>
    intro before k
    have hrun : (attempts contentId chunk next (n + 1) before).run engine b k =
        .sent (buildPushChunk contentId chunk) (b.replies k (buildPushChunk contentId chunk)) ::
          (if succeeds (sendChunk chunk) (b.replies k (buildPushChunk contentId chunk)) then
              next false
            else attempts contentId chunk next n true).run engine b (k + 1) := rfl
    rw [hrun]
    generalize b.replies k (buildPushChunk contentId chunk) = resp
    by_cases hok : succeeds (sendChunk chunk) resp = true
    · rw [if_pos hok]
      cases resp with
      | none => cases hok
      | some resp =>
        refine ⟨[_], false, k + 1, rfl, fun e he => ⟨_, mem_singleton.mp he⟩, nofun,
          fun _ => .inr ⟨resp, mem_singleton_self _, of_decide_eq_true hok⟩⟩
    · rw [if_neg hok]
      obtain ⟨sends, failed, k', hrest, hattempts⟩ := ih ..
      refine ⟨.sent (buildPushChunk contentId chunk) resp :: sends, failed, k', ?_, ?_, ?_, ?_⟩
      · rw [hrest, cons_append]
      · exact forall_mem_cons.mpr ⟨⟨resp, rfl⟩, hattempts.only⟩
      · intro hfailed resp' hmem
        rcases mem_cons.mp hmem with heq | hmem
        · obtain ⟨-, rfl⟩ := Event.sent.inj heq
          exact fun hsend => hok (decide_eq_true hsend)
        · exact hattempts.refused hfailed resp' hmem
      · intro hfailed
        rcases hattempts.accepted hfailed with ⟨-, hbefore⟩ | ⟨resp', hmem, hsend⟩
        · cases hbefore
        · exact .inr ⟨resp', mem_cons_of_mem _ hmem, hsend⟩

variable {sends : List Event}

lemma applyAll_sends (h : ∀ e ∈ sends, ∃ resp, e = .sent (buildPushChunk contentId chunk) resp)
    (p : PeerID) (t : GlobalReplicaTracker) : t.applyAll p sends = t := by
  induction sends with
  | nil => rfl
  | cons e rest ih =>
    obtain ⟨⟨resp, rfl⟩, hrest⟩ := forall_mem_cons.mp h
    exact ih hrest

/-- The events settle the status of some chunks at the provider uploaded
to, and change nothing else. -/
def Settles (events : List Event) (chunks : List ChunkID) (final : ChunkID → ReplicaState) : Prop :=
  ∀ (p : PeerID) (t : GlobalReplicaTracker) (c : ChunkID) (q : PeerID),
    (t.applyAll p events).state c q = if c ∈ chunks ∧ q = p then final c else t.state c q

/-- What is known of the events of an upload of chunks. `final` is where
each of them ends up. -/
structure Uploaded (engine : Storage) (contentId : ContentID) (maxRetries : Nat)
    (chunks : List ChunkID) (events : List Event) (final : ChunkID → ReplicaState) : Prop where
  settles : Settles events chunks final
  settled : ∀ c ∈ chunks, final c = .committed ∨ final c = .failed
  accepted : 0 < maxRetries → Filed engine → ∀ c ∈ chunks, final c = .committed →
    Accepted contentId events c
  refused : Filed engine → chunks.Nodup → ∀ c, Accepted contentId events c →
    c ∈ chunks ∧ final c = .committed

lemma Settles.append (hx : Settles xs cs f) (hy : Settles ys ds g) :
    Settles (xs ++ ys) (cs ++ ds) fun c => if c ∈ ds then g c else f c := by
  intro p t c q
  rw [applyAll_append, hy, hx]
  by_cases hq : q = p
  · by_cases hd : c ∈ ds
    · simp [hq, hd]
    · simp [hq, hd]
  · simp [hq]

lemma Accepted.of_append (h : Accepted contentId (xs ++ ys) c) :
    Accepted contentId xs c ∨ Accepted contentId ys c := by
  obtain ⟨chunk, resp, hmem, hc⟩ := h
  rcases mem_append.mp hmem with hmem | hmem
  · exact .inl ⟨chunk, resp, hmem, hc⟩
  · exact .inr ⟨chunk, resp, hmem, hc⟩

lemma Uploaded.append (hx : Uploaded engine contentId maxRetries cs xs f)
    (hy : Uploaded engine contentId maxRetries ds ys g) :
    Uploaded engine contentId maxRetries (cs ++ ds) (xs ++ ys)
      fun c => if c ∈ ds then g c else f c := by
  refine ⟨hx.settles.append hy.settles, fun c hc => ?_, fun hpos hfiled c hc hfinal => ?_,
    fun hfiled hnodup c hacc => ?_⟩
  · by_cases hd : c ∈ ds
    · rw [if_pos hd]
      exact hy.settled c hd
    · rw [if_neg hd]
      exact hx.settled c ((mem_append.mp hc).resolve_right hd)
  · by_cases hd : c ∈ ds
    · rw [if_pos hd] at hfinal
      exact (hy.accepted hpos hfiled c hd hfinal).mono (subset_append_right ..)
    · rw [if_neg hd] at hfinal
      exact (hx.accepted hpos hfiled c ((mem_append.mp hc).resolve_right hd) hfinal).mono
        (subset_append_left ..)
  · obtain ⟨hcs, hds, hdisjoint⟩ := nodup_append.mp hnodup
    rcases hacc.of_append with hacc | hacc
    · obtain ⟨hc, hfinal⟩ := hx.refused hfiled hcs c hacc
      have hd : c ∉ ds := fun hd => hdisjoint c hc c hd rfl
      exact ⟨mem_append_left ds hc, by rw [if_neg hd, hfinal]⟩
    · obtain ⟨hd, hfinal⟩ := hy.refused hfiled hds c hacc
      exact ⟨mem_append_right cs hd, by rw [if_pos hd, hfinal]⟩

/-- Requests that carry no chunk settle nothing. -/
lemma uploaded_of_sent (hreq : req.type ≠ msgPushChunk) (resp : Option PushMessage)
    (f : ChunkID → ReplicaState) : Uploaded engine contentId maxRetries [] [.sent req resp] f := by
  refine ⟨fun p t c q => ?_, nofun, fun _ _ => nofun, ?_⟩
  · rfl
  · rintro - - c ⟨chunk, resp', hmem, -⟩
    obtain ⟨hmsg, -⟩ := Event.sent.inj (mem_singleton.mp hmem)
    exact absurd (congrArg PushMessage.type hmsg).symm hreq

lemma uploaded_nil (f : ChunkID → ReplicaState) : Uploaded engine contentId maxRetries [] [] f := by
  refine ⟨fun p t c q => ?_, nofun, fun _ _ => nofun, ?_⟩
  · rfl
  · rintro - - c ⟨chunk, resp, hmem, -⟩
    cases hmem

lemma settles_status (c : ChunkID) (status : ReplicaState) :
    Settles [.status c status] [c] fun _ => status := by
  intro p t c' q
  have happly : t.applyAll p [.status c status] = t.setStatus c p status := rfl
  rw [happly, GlobalReplicaTracker.setStatus_state]
  simp only [mem_singleton]

lemma uploaded_failed (c : ChunkID) :
    Uploaded engine contentId maxRetries [c] [.status c .failed] fun _ => .failed := by
  refine ⟨settles_status c .failed, fun _ _ => .inr rfl, fun _ _ _ _ => nofun, ?_⟩
  rintro - - c' ⟨chunk, resp, hmem, -⟩
  cases mem_singleton.mp hmem

lemma uploaded_failAll (chunks : List ChunkID) (k : Nat) :
    Uploaded engine contentId maxRetries chunks ((failAll chunks).run engine b k)
      fun _ => .failed := by
  induction chunks with
  | nil => exact uploaded_nil _
  | cons c rest ih =>
    have happend := (uploaded_failed c).append ih
    simp only [ite_self] at happend
    exact happend

/-- Where a chunk ends up that is read and tried. -/
def outcome (failed : Bool) : ReplicaState := if failed then .failed else .committed

/-- What happens with it. -/
def triedEvents (c : ChunkID) (sends : List Event) (failed : Bool) : List Event :=
  .status c .uploading :: (sends ++ [.status c (outcome failed)])

variable {failed : Bool}

lemma sent_mem_triedEvents :
    Event.sent req resp ∈ triedEvents c sends failed ↔ Event.sent req resp ∈ sends := by
  simp [triedEvents]

lemma applyAll_triedEvents
    (h : ∀ e ∈ sends, ∃ resp, e = .sent (buildPushChunk contentId chunk) resp) (c : ChunkID)
    (failed : Bool) (p : PeerID) (t : GlobalReplicaTracker) :
    t.applyAll p (triedEvents c sends failed) =
      (t.setStatus c p .uploading).setStatus c p (outcome failed) := by
  have hstart : t.applyAll p (triedEvents c sends failed) =
      (t.setStatus c p .uploading).applyAll p (sends ++ [.status c (outcome failed)]) := rfl
  rw [hstart, applyAll_append, applyAll_sends h]
  rfl

lemma uploaded_tried (hget : engine.getChunk c = .ok chunk)
    (h : Attempts contentId chunk maxRetries false sends failed) :
    Uploaded engine contentId maxRetries [c] (triedEvents c sends failed)
      fun _ => outcome failed := by
  refine ⟨fun p t c' q => ?_, fun _ _ => ?_, ?_, ?_⟩
  · rw [applyAll_triedEvents h.only, GlobalReplicaTracker.setStatus_state,
      GlobalReplicaTracker.setStatus_state]
    simp only [mem_singleton]
    split <;> rfl
  · cases failed with
    | true => exact .inr rfl
    | false => exact .inl rfl
  · intro hpos hfiled c' hc' hfinal
    obtain rfl := mem_singleton.mp hc'
    cases failed with
    | true => cases hfinal
    | false =>
      rcases h.accepted rfl with ⟨hzero, -⟩ | ⟨resp, hmem, hsend⟩
      · exact absurd hpos (by rw [hzero]; exact Nat.lt_irrefl 0)
      · exact ⟨chunk, resp, sent_mem_triedEvents.mpr hmem, hfiled c' chunk hget, hsend⟩
  · rintro hfiled - c' ⟨chunk', resp, hmem, rfl, hsend⟩
    have hsent := sent_mem_triedEvents.mp hmem
    obtain ⟨resp', heq⟩ := h.only _ hsent
    obtain rfl := buildPushChunk_injective (Event.sent.inj heq).1
    refine ⟨mem_singleton.mpr (hfiled c chunk' hget), ?_⟩
    cases failed with
    | false => rfl
    | true => exact absurd hsend (h.refused rfl resp hsent)

/-- How the loop goes on when a chunk has been tried. -/
def tried (contentId : ContentID) (maxRetries total : Nat) (c : ChunkID) (rest : List ChunkID)
    (n : Nat) (failed : Bool) : Upload :=
  if failed then .setStatus c .failed (uploadChunks contentId maxRetries total rest n)
  else .setStatus c .committed (uploadChunks contentId maxRetries total rest (n + 1))

lemma run_uploadChunks_cons (hget : engine.getChunk c = .ok chunk)
    (h : (attempts contentId chunk (tried contentId maxRetries total c rest n) maxRetries
      false).run engine b k =
        sends ++ (tried contentId maxRetries total c rest n failed).run engine b k') :
    (uploadChunks contentId maxRetries total (c :: rest) n).run engine b k =
      triedEvents c sends failed ++
        (uploadChunks contentId maxRetries total rest (if failed then n else n + 1)).run
          engine b k' := by
  have hstart : (uploadChunks contentId maxRetries total (c :: rest) n).run engine b k =
      .status c .uploading :: (attempts contentId chunk
        (tried contentId maxRetries total c rest n) maxRetries false).run engine b k := by
    simp only [uploadChunks, Upload.run, hget, Except.toOption]
    rfl
  rw [hstart, h]
  cases failed <;> simp [tried, triedEvents, outcome, Upload.run]

lemma run_uploadChunks (engine : Storage) (b : Behaviour) (contentId : ContentID)
    (maxRetries total : Nat) (chunks : List ChunkID) :
    ∀ n k, ∃ final, Uploaded engine contentId maxRetries chunks
      ((uploadChunks contentId maxRetries total chunks n).run engine b k) final := by
  induction chunks with
  | nil =>
    intro n k
    rw [uploadChunks]
    split
    · have htype : (buildPushBatchComplete contentId).type ≠ msgPushChunk := by
        change msgPushBatchComplete ≠ msgPushChunk
        decide
      exact ⟨fun _ => .failed, uploaded_of_sent htype _ _⟩
    · exact ⟨fun _ => .failed, uploaded_nil _⟩
  | cons c rest ih =>
    intro n k
    cases hget : engine.getChunk c with
    | error e =>
      obtain ⟨final, hrest⟩ := ih n k
      have hrun : (uploadChunks contentId maxRetries total (c :: rest) n).run engine b k =
          [.status c .failed] ++
            (uploadChunks contentId maxRetries total rest n).run engine b k := by
        simp only [uploadChunks, Upload.run, hget, Except.toOption, singleton_append]
      rw [hrun]
      exact ⟨_, (uploaded_failed c).append hrest⟩
    | ok chunk =>
      obtain ⟨sends, failed, k', hrun, hattempts⟩ := run_attempts ..
      obtain ⟨final, hrest⟩ := ih ..
      rw [run_uploadChunks_cons hget hrun]
      exact ⟨_, (uploaded_tried hget hattempts).append hrest⟩

/-- An upload settles all of its chunks. -/
lemma run_uploadToProvider (engine : Storage) (b : Behaviour) (contentId : ContentID)
    (maxRetries : Nat) (chunks : List ChunkID) (manifestBytes : List UInt8) :
    ∃ final, Uploaded engine contentId maxRetries chunks
      ((uploadToProvider contentId chunks manifestBytes maxRetries).run engine b 0) final := by
  have hstart : (uploadToProvider contentId chunks manifestBytes maxRetries).run engine b 0 =
      (if ¬ b.connects then failAll chunks
        else .exchange (buildPushManifest contentId chunks manifestBytes) fun resp =>
          if succeeds (sendManifest contentId) resp then
            uploadChunks contentId maxRetries chunks.length chunks 0
          else failAll chunks).run engine b 0 := rfl
  have htype : (buildPushManifest contentId chunks manifestBytes).type ≠ msgPushChunk := by
    change msgPushManifest ≠ msgPushChunk
    decide
  rw [hstart]
  split
  · exact ⟨_, uploaded_failAll ..⟩
  · rw [Upload.run]
    split
    · obtain ⟨final, h⟩ := run_uploadChunks ..
      exact ⟨_, (uploaded_of_sent htype _ fun _ => .failed).append h⟩
    · exact ⟨_, (uploaded_of_sent htype _ fun _ => .failed).append (uploaded_failAll chunks 1)⟩

/-! ## Providers that accept every upload -/

/-- The provider accepts every upload of the content. -/
structure Behaviour.Accepting (contentId : ContentID) (b : Behaviour) : Prop where
  connects : b.connects = true
  manifest : ∀ k chunks manifestBytes, succeeds (sendManifest contentId)
    (b.replies k (buildPushManifest contentId chunks manifestBytes)) = true
  chunk : ∀ k chunk, succeeds (sendChunk chunk)
    (b.replies k (buildPushChunk contentId chunk)) = true
  batch : ∀ k, succeeds (sendBatchComplete contentId)
    (b.replies k (buildPushBatchComplete contentId)) = true

/-- The store has all the chunks. -/
def Stocked (engine : Storage) (chunks : List ChunkID) : Prop :=
  ∀ c ∈ chunks, ∃ chunk, engine.getChunk c = .ok chunk

lemma exists_of_succeeds (h : succeeds check resp = true) :
    ∃ msg, resp = some msg ∧ check msg = .ok () := by
  cases resp with
  | none => cases h
  | some msg => exact ⟨msg, rfl, of_decide_eq_true h⟩

/-- What comes back is what the provider replies. -/
lemma reply_of_mem_run {u : Upload} :
    ∀ {k : Nat}, Event.sent req resp ∈ u.run engine b k → ∃ j, resp = b.replies j req := by
  induction u with
  | done => exact fun h => nomatch h
  | connect next ih => exact fun h => ih _ h
  | exchange req' next ih =>
    intro k h
    rcases mem_cons.mp h with heq | hrest
    · obtain ⟨rfl, rfl⟩ := Event.sent.inj heq
      exact ⟨k, rfl⟩
    · exact ih _ hrest
  | getChunk id next ih => exact fun h => ih _ h
  | setStatus c status next ih =>
    intro k h
    rcases mem_cons.mp h with heq | hrest
    · cases heq
    · exact ih hrest

/-- The first attempt is the last. -/
lemma run_attempts_accepting (hb : b.Accepting contentId) (chunk : Chunk)
    (next : Bool → Upload) (n k : Nat) : ∃ sends k',
      (attempts contentId chunk next n false).run engine b k =
        sends ++ (next false).run engine b k' ∧
      Attempts contentId chunk n false sends false := by
  cases n with
  | zero => exact ⟨[], k, rfl, nofun, nofun, fun _ => .inl ⟨rfl, rfl⟩⟩
  | succ n =>
    obtain ⟨resp, hresp, hsend⟩ := exists_of_succeeds (hb.chunk k chunk)
    have hrun : (attempts contentId chunk next (n + 1) false).run engine b k =
        [.sent (buildPushChunk contentId chunk) (some resp)] ++
          (next false).run engine b (k + 1) := by
      have hsucceeds : succeeds (sendChunk chunk) (some resp) = true := decide_eq_true hsend
      simp only [attempts, Upload.run, hresp, if_pos hsucceeds, singleton_append]
    refine ⟨_, k + 1, hrun, fun e he => ⟨_, mem_singleton.mp he⟩, nofun,
      fun _ => .inr ⟨resp, mem_singleton_self _, hsend⟩⟩

lemma Finished.mono (h : Finished contentId xs) (hsub : xs ⊆ ys) : Finished contentId ys := by
  obtain ⟨resp, hmem, hsend⟩ := h
  exact ⟨resp, hsub hmem, hsend⟩

/-- All chunks are committed, and if none failed before, the batch is
completed. -/
lemma run_uploadChunks_accepting (hb : b.Accepting contentId) (hstocked : Stocked engine chunks)
    (total : Nat) : ∀ n k,
      Settles ((uploadChunks contentId maxRetries total chunks n).run engine b k) chunks
        (fun _ => .committed) ∧
      (n + chunks.length = total → Finished contentId
          ((uploadChunks contentId maxRetries total chunks n).run engine b k)) := by
  induction chunks with
  | nil =>
    intro n k
    rw [uploadChunks]
    split
    · obtain ⟨resp, hresp, hsend⟩ := exists_of_succeeds (hb.batch k)
      refine ⟨fun p t c q => by rw [if_neg (by simp)]; rfl, fun _ => ⟨resp, ?_, hsend⟩⟩
      rw [Upload.run, hresp]
      exact mem_cons_self
    · rename_i hne
      exact ⟨fun p t c q => by rw [if_neg (by simp)]; rfl, fun htotal => absurd htotal hne⟩
  | cons c rest ih =>
    intro n k
    obtain ⟨⟨chunk, hget⟩, hrest⟩ := forall_mem_cons.mp hstocked
    obtain ⟨sends, k', hrun, hattempts⟩ := run_attempts_accepting hb ..
    obtain ⟨hsettles, hfinished⟩ := ih hrest (n + 1) k'
    rw [run_uploadChunks_cons hget hrun]
    refine ⟨?_, fun htotal => (hfinished ?_).mono (subset_append_right _ _)⟩
    · have happend := (uploaded_tried hget hattempts).settles.append hsettles
      have houtcome : outcome false = .committed := rfl
      simp only [houtcome, ite_self] at happend
      exact happend
    · rw [length_cons] at htotal
      omega

lemma run_uploadToProvider_accepting (hb : b.Accepting contentId)
    (hstocked : Stocked engine chunks) (manifestBytes : List UInt8) (maxRetries : Nat) :
    Settles ((uploadToProvider contentId chunks manifestBytes maxRetries).run engine b 0) chunks
        (fun _ => .committed) ∧
      Finished contentId
        ((uploadToProvider contentId chunks manifestBytes maxRetries).run engine b 0) := by
  have hrun : (uploadToProvider contentId chunks manifestBytes maxRetries).run engine b 0 =
      .sent (buildPushManifest contentId chunks manifestBytes)
          (b.replies 0 (buildPushManifest contentId chunks manifestBytes)) ::
        (uploadChunks contentId maxRetries chunks.length chunks 0).run engine b 1 := by
    simp only [uploadToProvider, Upload.run, hb.connects, not_true_eq_false, if_false,
      if_pos (hb.manifest 0 chunks manifestBytes)]
  obtain ⟨hsettles, hfinished⟩ :=
    run_uploadChunks_accepting hb hstocked ..
  rw [hrun]
  exact ⟨fun p t c q => hsettles p t c q, (hfinished (Nat.zero_add _)).mono (subset_cons_self _ _)⟩

/-- The events decide where a chunk ends up. -/
lemma Settles.unique (hf : Settles events chunks f)
    (hg : Settles events chunks g) (hc : c ∈ chunks) : f c = g c := by
  have heq := (hf [] (.new 0) c []).symm.trans (hg [] (.new 0) c [])
  rwa [if_pos ⟨hc, rfl⟩, if_pos ⟨hc, rfl⟩] at heq

/-! ## All uploads of a round -/

/-- What an upload to a provider does, with the chunks of its batch. -/
def Job.events (job : Job) (behaviour : PeerID → Behaviour) (batches : Batches) (p : PeerID) :
    List Event :=
  (uploadToProvider job.plan.contentId (batches p) job.manifestBytes
    job.cfg.maxRetriesPerChunk).run job.engine (behaviour p) 0

/-- Uploads to some providers settle the chunks of their batches. -/
structure Job.Uploads (job : Job) (behaviour : PeerID → Behaviour) (batches : Batches)
    (final : PeerID → ChunkID → ReplicaState) (ps : List PeerID) (st st' : Progress) : Prop where
  state : ∀ c q, st'.tracker.state c q =
    if q ∈ ps ∧ c ∈ batches q then final q c else st.tracker.state c q
  requiredR : st'.tracker.requiredR = st.tracker.requiredR
  log : ∀ p e, (p, e) ∈ st'.log ↔ (p, e) ∈ st.log ∨
    (p ∈ ps ∧ batches p ≠ [] ∧ e ∈ job.events behaviour batches p)

/-- The uploads of a round go to all active providers. -/
structure Job.Round (job : Job) (behaviour : PeerID → Behaviour) (batches : Batches)
    (st st' : Progress) (final : PeerID → ChunkID → ReplicaState) : Prop
    extends job.Uploads behaviour batches final job.active st st' where
  uploads : ∀ p, Uploaded job.engine job.plan.contentId job.cfg.maxRetriesPerChunk (batches p)
    (job.events behaviour batches p) (final p)

section Uploads

variable {job : Job} {behaviour : PeerID → Behaviour}

lemma Job.Uploads.nil (st : Progress) : job.Uploads behaviour batches final [] st st where
  state _ _ := by simp
  requiredR := rfl
  log _ _ := by simp

/-- A provider without chunks is left out. -/
lemma Job.Uploads.skip (hempty : batches p = []) (st : Progress) :
    job.Uploads behaviour batches final [p] st st := by
  refine ⟨fun c q => ?_, rfl, fun q e => ?_⟩
  · rw [if_neg fun h => ?_]
    rw [mem_singleton.mp h.1, hempty] at h
    cases h.2
  · refine ⟨.inl, fun h => h.resolve_right fun hnew => hnew.2.1 ?_⟩
    rw [mem_singleton.mp hnew.1, hempty]

lemma Job.Uploads.upload (hne : batches p ≠ [])
    (hfinal : Settles (job.events behaviour batches p) (batches p) (final p)) (st : Progress) :
    job.Uploads behaviour batches final [p] st (job.upload (behaviour p) p (batches p) st) := by
  have htracker : (job.upload (behaviour p) p (batches p) st).tracker =
      st.tracker.applyAll p (job.events behaviour batches p) := rfl
  have hlog : (job.upload (behaviour p) p (batches p) st).log =
      st.log ++ (job.events behaviour batches p).map (Prod.mk p) := rfl
  refine ⟨fun c q => ?_, ?_, fun q e => ?_⟩
  · rw [htracker, hfinal]
    by_cases hq : q = p
    · simp [hq]
    · simp [hq]
  · rw [htracker, applyAll_requiredR]
  · rw [hlog]
    by_cases hq : q = p
    · simp [hq, hne]
    · simp [hq, Ne.symm hq]

/-- One provider after the other; no upload touches what another has
settled. -/
lemma Job.Uploads.cons (hfirst : job.Uploads behaviour batches final [p] st st₁)
    (hrest : job.Uploads behaviour batches final ps st₁ st₂) :
    job.Uploads behaviour batches final (p :: ps) st st₂ := by
  refine ⟨fun c q => ?_, hrest.requiredR.trans hfirst.requiredR, fun q e => ?_⟩
  · rw [hrest.state, hfirst.state]
    by_cases hq : q = p
    · by_cases hc : c ∈ batches p
      · simp [hq, hc]
      · simp [hq, hc]
    · simp [hq]
  · rw [hrest.log, hfirst.log, mem_singleton, mem_cons, or_and_right, or_assoc]

end Uploads

section

variable (job : Job)

section

variable (behaviour : PeerID → Behaviour)

lemma Job.round (batches : Batches) (st : Progress) :
    ∃ final, job.Round behaviour batches st (job.uploadAll behaviour batches st) final := by
  choose final hrun using fun p => run_uploadToProvider job.engine (behaviour p)
    job.plan.contentId job.cfg.maxRetriesPerChunk (batches p) job.manifestBytes
  have hfold : ∀ (ps : List PeerID) (st : Progress), job.Uploads behaviour batches final ps st
      (ps.foldl (fun st p => if (batches p).length = 0 then st
        else job.upload (behaviour p) p (batches p) st) st) := by
    intro ps
    induction ps with
    | nil => exact .nil
    | cons p ps ih =>
      intro st
      rw [foldl_cons]
      split
      · rename_i hempty
        exact .cons (.skip (eq_nil_of_length_eq_zero hempty) st) (ih _)
      · rename_i hne
        have hne : batches p ≠ [] := fun hnil => hne (congrArg List.length hnil)
        exact .cons (.upload hne (hrun p).settles st) (ih _)
  exact ⟨final, hfold .., hrun⟩

/-! ## The choice of providers -/

/-- A provider that the loop of a failover round takes for the chunk. -/
def Candidate (t : GlobalReplicaTracker) (c : ChunkID) (p : PeerID) : Prop :=
  t.state c p ≠ .committed ∧ t.state c p ≠ .uploading

instance decidableCandidate (t : GlobalReplicaTracker) (c : ChunkID) (p : PeerID) :
    Decidable (Candidate t c p) :=
  inferInstanceAs (Decidable (_ ∧ _))

/-- The providers that a failover round gives the chunk to. -/
def picks (plan : PlacementPlan) (active : List PeerID) (t : GlobalReplicaTracker)
    (c : ChunkID) : List PeerID :=
  (active.filter fun p => decide (Candidate t c p)).take (plan.replication - t.committedCount c)

lemma candidate_of_mem_picks (h : p ∈ picks plan active t c) : p ∈ active ∧ Candidate t c p := by
  simpa using mem_of_mem_take h

lemma findProviders_spec {ps : List PeerID} (hps : ps.Nodup) :
    ∀ (needed : Nat) (batches : Batches) (t : GlobalReplicaTracker),
      (∀ q, (findProviders c ps needed (batches, t)).1 q =
        if q ∈ (ps.filter fun p => decide (Candidate t c p)).take needed then batches q ++ [c]
        else batches q) ∧
      (∀ c' q, (findProviders c ps needed (batches, t)).2.state c' q =
        if c' = c ∧ q ∈ (ps.filter fun p => decide (Candidate t c p)).take needed then .pending
        else t.state c' q) ∧
      (findProviders c ps needed (batches, t)).2.requiredR = t.requiredR := by
  induction ps with
  | nil =>
    intro needed batches t
    exact ⟨fun _ => by simp [findProviders], fun _ _ => by simp [findProviders], rfl⟩
  | cons p ps ih =>
    obtain ⟨hp, hps⟩ := nodup_cons.mp hps
    intro needed batches t
    cases needed with
    | zero => exact ⟨fun _ => by simp [findProviders], fun _ _ => by simp [findProviders], rfl⟩
    | succ needed =>
      rw [findProviders]
      by_cases hcand : t.state c p ≠ .committed ∧ t.state c p ≠ .uploading
      · rw [if_pos hcand]
        -- the other providers are candidates as before
        have hsame : (ps.filter fun q => decide (Candidate (t.setStatus c p .pending) c q)) =
            ps.filter fun q => decide (Candidate t c q) := by
          refine filter_congr fun q hq => ?_
          have hne : q ≠ p := fun h => hp (h ▸ hq)
          rw [decide_eq_decide, Candidate, GlobalReplicaTracker.setStatus_state,
            if_neg fun h => hne h.2, Candidate]
        obtain ⟨hbatches, hstate, hreq⟩ := ih hps ..
        rw [hsame] at hbatches hstate
        have hfilter : ((p :: ps).filter fun q => decide (Candidate t c q)) =
            p :: ps.filter fun q => decide (Candidate t c q) :=
          filter_cons_of_pos (decide_eq_true hcand)
        have hnot : p ∉ (ps.filter fun q => decide (Candidate t c q)).take needed :=
          fun h => hp (mem_of_mem_filter (mem_of_mem_take h))
        rw [hfilter]
        refine ⟨fun q => ?_, fun c' q => ?_, hreq⟩
        · rw [hbatches]
          by_cases hq : q = p
          · subst hq
            simp [hnot]
          · simp [hq]
        · rw [hstate, GlobalReplicaTracker.setStatus_state]
          by_cases hq : q = p
          · subst hq
            simp [hnot]
          · simp [hq]
      · rw [if_neg hcand]
        have hfilter : ((p :: ps).filter fun q => decide (Candidate t c q)) =
            ps.filter fun q => decide (Candidate t c q) :=
          filter_cons_of_neg fun h => hcand (of_decide_eq_true h)
        rw [hfilter]
        exact ih hps ..

/-- The reassignments once the chunks `done` have been gone through. -/
structure Reassigned (plan : PlacementPlan) (active : List PeerID) (t : GlobalReplicaTracker)
    (done : List ChunkID) (acc : Batches × GlobalReplicaTracker) : Prop where
  mem : ∀ c q, c ∈ acc.1 q ↔ c ∈ done ∧ q ∈ picks plan active t c
  state : ∀ c q, acc.2.state c q =
    if c ∈ done ∧ q ∈ picks plan active t c then .pending else t.state c q
  requiredR : acc.2.requiredR = t.requiredR
  nodup : done.Nodup → ∀ q, (acc.1 q).Nodup

/-- Who was picked was a candidate, and is one still. -/
lemma Reassigned.candidate_iff (h : Reassigned plan active t done acc) (c : ChunkID)
    (p : PeerID) : Candidate acc.2 c p ↔ Candidate t c p := by
  rw [Candidate, h.state]
  split
  · rename_i hpicked
    exact iff_of_true ⟨nofun, nofun⟩ (candidate_of_mem_picks hpicked.2).2
  · rfl

lemma Reassigned.committed_eq (h : Reassigned plan active t done acc) (c : ChunkID) :
    acc.2.committed c = t.committed c := by
  ext p
  rw [GlobalReplicaTracker.mem_committed, GlobalReplicaTracker.mem_committed, h.state]
  split
  · rename_i hpicked
    exact iff_of_false nofun (candidate_of_mem_picks hpicked.2).2.1
  · rfl

lemma Reassigned.picks_eq (h : Reassigned plan active t done acc) (c : ChunkID) :
    picks plan active acc.2 c = picks plan active t c := by
  have hfilter : (active.filter fun p => decide (Candidate acc.2 c p)) =
      active.filter fun p => decide (Candidate t c p) :=
    filter_congr fun p _ => decide_eq_decide.mpr (h.candidate_iff c p)
  rw [picks, picks, hfilter, GlobalReplicaTracker.committedCount, h.committed_eq,
    GlobalReplicaTracker.committedCount]

lemma Reassigned.step (hactive : active.Nodup) (h : Reassigned plan active t done acc)
    (c : ChunkID) : Reassigned plan active t (done ++ [c])
      (findProviders c active (plan.replication - acc.2.committedCount c) acc) := by
  obtain ⟨hbatches, hstate, hreq⟩ := findProviders_spec (c := c) hactive ..
  have hpicks : (active.filter fun p => decide (Candidate acc.2 c p)).take
      (plan.replication - acc.2.committedCount c) = picks plan active t c := h.picks_eq c
  rw [hpicks] at hbatches hstate
  refine ⟨fun c' q => ?_, fun c' q => ?_, hreq.trans h.requiredR, fun hnodup q => ?_⟩
  · rw [hbatches]
    by_cases hq : q ∈ picks plan active t c
    · rw [if_pos hq, mem_append, h.mem, mem_append, mem_singleton]
      constructor
      · rintro (⟨hdone, hpick⟩ | rfl)
        · exact ⟨.inl hdone, hpick⟩
        · exact ⟨.inr rfl, hq⟩
      · rintro ⟨hdone | rfl, hpick⟩
        · exact .inl ⟨hdone, hpick⟩
        · exact .inr rfl
    · rw [if_neg hq, h.mem, mem_append, mem_singleton]
      refine and_congr_left fun hpick => ⟨.inl, fun hdone => ?_⟩
      exact hdone.resolve_right fun hc => hq (hc ▸ hpick)
  · rw [hstate, h.state]
    by_cases hc : c' = c
    · subst hc
      by_cases hq : q ∈ picks plan active t c'
      · simp [hq]
      · simp [hq]
    · simp [hc]
  · obtain ⟨hdone, -, hdisjoint⟩ := nodup_append.mp hnodup
    rw [hbatches]
    split
    · refine nodup_append.mpr ⟨h.nodup hdone q, nodup_singleton c, ?_⟩
      intro a ha b hb
      exact hdisjoint a ((h.mem a q).mp ha).1 b hb
    · exact h.nodup hdone q

/-- A failover round gives every chunk to the providers picked for it. -/
lemma reassigned_reassign (hactive : active.Nodup) (plan : PlacementPlan)
    (t : GlobalReplicaTracker) :
    Reassigned plan active t plan.manifest.chunkIds (reassign plan active t) := by
  have hfold : ∀ (chunks done : List ChunkID) (acc : Batches × GlobalReplicaTracker),
      Reassigned plan active t done acc → Reassigned plan active t (done ++ chunks)
        (chunks.foldl (fun acc c =>
          findProviders c active (plan.replication - acc.2.committedCount c) acc) acc) := by
    intro chunks
    induction chunks with
    | nil =>
      intro done acc h
      rwa [append_nil]
    | cons c rest ih =>
      intro done acc h
      rw [append_cons]
      exact ih _ _ (h.step hactive c)
  have hstart : Reassigned plan active t [] (fun _ => [], t) :=
    ⟨fun _ _ => by simp, fun _ _ => by simp, rfl, fun _ _ => nodup_nil⟩
  exact hfold _ [] _ hstart

/-! ## The first round, and a failover round -/

/-- What was planned is uploaded. -/
def Job.first (pattern : Nat → PeerID → Behaviour) : Progress :=
  job.uploadAll (pattern 0) job.plan.providerChunks
    ⟨initTracker job.plan (.new job.plan.replication), []⟩

lemma Job.round_first (pattern : Nat → PeerID → Behaviour) :
    ∃ final, job.Round (pattern 0) job.plan.providerChunks
      ⟨initTracker job.plan (.new job.plan.replication), []⟩ (job.first pattern) final :=
  job.round ..

/-- Missing chunks are given to other providers. -/
def Job.reassigned (st : Progress) : Progress :=
  { st with tracker := (reassign job.plan job.active st.tracker).2 }

/-- What is given to them is uploaded. -/
def Job.retry (st : Progress) : Progress :=
  job.uploadAll behaviour (reassign job.plan job.active st.tracker).1 (job.reassigned st)

lemma Job.round_retry (st : Progress) :
    ∃ final, job.Round behaviour (reassign job.plan job.active st.tracker).1 (job.reassigned st)
      (job.retry behaviour st) final :=
  job.round ..

end

section

variable (hnodup : job.active.Nodup) (st : Progress)

include hnodup

lemma Job.state_reassigned (c : ChunkID) (p : PeerID) : (job.reassigned st).tracker.state c p =
      if c ∈ job.plan.manifest.chunkIds ∧ p ∈ picks job.plan job.active st.tracker c then .pending
      else st.tracker.state c p :=
  (reassigned_reassign hnodup ..).state c p

lemma Job.committed_reassigned (c : ChunkID) :
    (job.reassigned st).tracker.committed c = st.tracker.committed c :=
  (reassigned_reassign hnodup ..).committed_eq c

lemma Job.requiredR_reassigned : (job.reassigned st).tracker.requiredR = st.tracker.requiredR :=
  (reassigned_reassign hnodup ..).requiredR

end

end

/-- The failover rounds keep what a round keeps. -/
lemma Job.failover_inv {job : Job} {pattern : Nat → PeerID → Behaviour} {I : Progress → Prop}
    (hassign : ∀ st, I st → I (job.reassigned st))
    (hround : ∀ round st, I st → I (job.retry (pattern round) st)) :
    ∀ (n round : Nat) (st : Progress), I st → I (job.failover pattern n round st) := by
  intro n
  induction n with
  | zero => exact fun _ _ h => h
  | succ n ih =>
    intro round st h
    rw [Job.failover]
    dsimp only
    split
    · exact h
    · split
      · exact hassign st h
      · exact ih _ _ (hround round st h)

end Cipher.Distribution
