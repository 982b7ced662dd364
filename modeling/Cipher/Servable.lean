import Cipher.PushSessions
import Cipher.PushWire
import Cipher.Retrieval

/-!
# What was pushed can be fetched

A provider takes chunks and manifests by the push protocol and serves them
by the chunk protocol. A push message may have four megabytes and a frame
of the chunk protocol two, and no limit is checked when a chunk or a
manifest is stored: so one that is too large for the chunk protocol is
acknowledged, and then no consumer can read it.

A file can be served if the answer made of it fits a frame (`Carried`). If
every file that gets into the store is of that kind, then all that is
acknowledged is served, in every state from then on. In the other direction
nothing is missing: what the chunk protocol carries, the push protocol can
frame.
-/

namespace Cipher.Push

open Bytes Binary Go Content Transition Wire ChunkProtocol Function List Option

/-! ## Answers that can be read -/

/-- A consumer reads the message from the frame that is written for it,
whatever follows. -/
def Accepted (msg : Message) : Prop :=
  ∀ rest fails, readMessage ⟨writeMessage msg ++ rest, fails⟩ = (.ok msg, ⟨rest, fails⟩)

lemma accepted_iff : Accepted msg ↔ msg.payload.length ≤ maxMessagePayloadSize := by
  constructor
  · intro h
    exact (readMessage_eq_ok.mp (h [] false)).1
  · intro h rest fails
    exact readMessage_writeMessage h ..

/-- The `CHUNK` message fits a frame. -/
def FitsChunk (chunk : Chunk) : Prop := 66 + chunk.data.length ≤ maxMessagePayloadSize

/-- The `MANIFEST` message fits a frame. -/
def FitsManifest (data : List UInt8) : Prop := 32 + data.length ≤ maxMessagePayloadSize

variable {chunk : Chunk}

lemma accepted_chunk_iff : Accepted (buildChunk chunk) ↔ FitsChunk chunk := by
  have hlen : (buildChunk chunk).payload.length = 66 + chunk.data.length := chunk.length_bytes
  rw [accepted_iff, hlen, FitsChunk]

variable {id : ContentID} {data : List UInt8}

lemma accepted_manifest_iff : Accepted (buildManifest id data) ↔ FitsManifest data := by
  have hlen : (buildManifest id data).payload.length = 32 + data.length := by
    change (id.val ++ data).length = _
    rw [length_append, id.property]
  rw [accepted_iff, hlen, FitsManifest]

/-- What a file may hold: at the path of a chunk a chunk that fits, and at
the path of a manifest one that fits. -/
structure CarriedFile (path : Path) (file : List UInt8) : Prop where
  chunk : ∀ id, path = pathForChunk id → ∃ chunk : Chunk, file = chunk.bytes ∧ FitsChunk chunk
  manifest : ∀ id, path = manifestPath id → FitsManifest file

def Carried (store : Storage) : Prop :=
  ∀ path file, store.files path = some file → CarriedFile path file

lemma Carried.update (h : Carried store) (hfile : CarriedFile path file) :
    Carried ⟨update store.files path (some file)⟩ := by
  intro path' file' hget
  dsimp only at hget
  by_cases hpath : path' = path
  · subst hpath
    rw [update_self] at hget
    cases hget
    exact hfile
  · rw [update_of_ne hpath] at hget
    exact h path' file' hget

lemma carriedFile_chunk (h : FitsChunk chunk) :
    CarriedFile (pathForChunk chunk.header.id) chunk.bytes :=
  ⟨fun _ _ => ⟨chunk, rfl, h⟩,
    fun id hpath => absurd hpath (pathForChunk_ne_manifestPath chunk.header.id id)⟩

lemma carriedFile_manifest (h : FitsManifest data) : CarriedFile (manifestPath id) data :=
  ⟨fun chunkId hpath => absurd hpath.symm (pathForChunk_ne_manifestPath chunkId id), fun _ _ => h⟩

/-- The two requests to an honest provider are answered by the chunk and by
the manifest, in frames that can be read. -/
def ServesChunk {τ : Type} (v : Provider τ) (id : ChunkID) : Prop :=
  ∃ chunk, v.handle .loop (.message (buildRequestChunk id)) = (.awaitAck, [buildChunk chunk]) ∧
    Accepted (buildChunk chunk)

def ServesManifest {τ : Type} (v : Provider τ) (id : ContentID) : Prop :=
  ∃ data, v.handle .loop (.message (buildRequestManifest id)) = (.loop, [buildManifest id data]) ∧
    Accepted (buildManifest id data)

variable {τ : Type} {v : Provider τ} {cfg : Config}

/-- The answer with a chunk from the store. -/
lemma handle_requestChunk (hhonest : v.corrupt = false)
    (hfile : v.store.files (pathForChunk id) = some chunk.bytes) :
    v.handle .loop (.message (buildRequestChunk id)) = (.awaitAck, [buildChunk chunk]) := by
  have hget : v.store.getChunk id = .ok chunk := by
    simp only [Storage.getChunk, hfile, Chunk.parse_bytes]
  have hrequest : v.handleRequestChunk (buildRequestChunk id) = (.awaitAck, buildChunk chunk) := by
    simp only [Provider.handleRequestChunk, parseRequestChunk_build, hget, Provider.outgoing,
      hhonest, Bool.false_eq_true, if_false]
  change ((v.handleRequestChunk (buildRequestChunk id)).1,
    [(v.handleRequestChunk (buildRequestChunk id)).2]) = _
  rw [hrequest]

lemma Carried.servesChunk (h : Carried v.store) (hhonest : v.corrupt = false)
    (hhas : (v.store.files (pathForChunk id)).isSome) : ServesChunk v id := by
  obtain ⟨file, hfile⟩ := isSome_iff_exists.mp hhas
  obtain ⟨chunk, rfl, hfits⟩ := (h _ file hfile).chunk id rfl
  exact ⟨chunk, handle_requestChunk hhonest hfile, accepted_chunk_iff.mpr hfits⟩

/-- A stored chunk that does not fit is not served. -/
lemma fits_of_servesChunk (hhonest : v.corrupt = false)
    (hfile : v.store.files (pathForChunk id) = some chunk.bytes) (h : ServesChunk v id) :
    FitsChunk chunk := by
  obtain ⟨served, hserved, haccepted⟩ := h
  rw [handle_requestChunk hhonest hfile] at hserved
  have hsame := head_eq_of_cons_eq (congrArg Prod.snd hserved)
  rw [← hsame] at haccepted
  exact accepted_chunk_iff.mp haccepted

lemma Carried.servesManifest (h : Carried v.store)
    (hhas : (v.store.files (manifestPath id)).isSome) : ServesManifest v id := by
  obtain ⟨data, hdata⟩ := isSome_iff_exists.mp hhas
  refine ⟨data, ?_, accepted_manifest_iff.mpr ((h _ data hdata).manifest id rfl)⟩
  have hget : v.store.getManifestBytes id = some data := hdata
  have hrequest : v.handleRequestManifest (buildRequestManifest id) = buildManifest id data := by
    simp only [Provider.handleRequestManifest, parseRequestManifest_build, hget]
  change (Phase.loop, [v.handleRequestManifest (buildRequestManifest id)]) = _
  rw [hrequest]

/-! ## Runs of the push handler -/

/-- What is read and what is written fits the chunk protocol. -/
def Within : Action → System → Prop
  | .read _ (some msg), _ =>
    (∀ id chunk, msg.type = msgPushChunk → parsePushChunk msg.payload = some (id, chunk) →
      FitsChunk chunk) ∧
    ∀ id ids data, msg.type = msgPushManifest →
      parsePushManifest msg.payload = some (id, ids, data) → FitsManifest data
  | .run _ (.failed (some left)), _ => FitsManifest left
  | .write path file, _ => CarriedFile path file
  | _, _ => True

def Task.Fits : Task → Prop
  | .manifest session => FitsManifest session.manifestBytes
  | .lookup _ chunk | .validate _ chunk | .hasChunk _ chunk | .putChunk _ chunk => FitsChunk chunk
  | _ => True

structure Handler.Fits (h : Handler) : Prop where
  store : Carried h.store
  sessions : ∀ session ∈ h.heap, FitsManifest session.manifestBytes

structure System.Fits (s : System) : Prop where
  handler : s.handler.Fits
  tasks : ∀ stream, (s.tasks stream).Fits

lemma receive_fits {msg : PushMessage} (h : cfg.receive (some msg) = task)
    (hchunk : ∀ id chunk, msg.type = msgPushChunk →
      parsePushChunk msg.payload = some (id, chunk) → FitsChunk chunk)
    (hmanifest : ∀ id ids data, msg.type = msgPushManifest →
      parsePushManifest msg.payload = some (id, ids, data) → FitsManifest data) : task.Fits := by
  cases Config.receives_of_receive h with
  | manifest _ htype hparse => exact hmanifest _ _ _ htype hparse
  | chunk htype hparse => exact hchunk _ _ htype hparse
  | error | lastError | batch => trivial

/-- A failed write of a manifest leaves nothing or something that fits. -/
def Io.Fits : Io → Prop
  | .failed (some left) => FitsManifest left
  | _ => True

variable {h : Handler} {s : System}

lemma next_fits (hh : h.Fits) (htask : task.Fits) (hio : io.Fits)
    (hnext : h.next cfg task io = some (h', task')) : h'.Fits ∧ task'.Fits := by
  cases Handler.steps_of_next hnext with
  | manifest =>
    refine ⟨⟨hh.store, ?_⟩, trivial⟩
    exact forall_mem_append.mpr ⟨hh.sessions, forall_mem_singleton.mpr htask⟩
  | refused | hasChunk | incomplete | reply | lastReply => exact ⟨hh, trivial⟩
  | lookup | validate | missing => exact ⟨hh, htask⟩
  | putChunk => exact ⟨⟨hh.store.update (carriedFile_chunk htask), hh.sessions⟩, trivial⟩
  | commit =>
    refine ⟨⟨hh.store, fun session hmem => ?_⟩, trivial⟩
    obtain ⟨i, hi⟩ := mem_iff_getElem?.mp hmem
    rw [getElem?_modify] at hi
    obtain ⟨old, hget, rfl⟩ := map_eq_some_iff.mp hi
    have hold := hh.sessions old (mem_of_getElem? hget)
    split
    · exact hold
    · exact hold
  | @unwritten contentId left =>
    refine ⟨⟨?_, hh.sessions⟩, trivial⟩
    cases left with
    | none => exact hh.store
    | some left => exact hh.store.update (carriedFile_manifest hio)
  | complete href hget =>
    have hsession := hh.sessions _ (mem_of_getElem? hget)
    exact ⟨⟨hh.store.update (carriedFile_manifest hsession), hh.sessions⟩, trivial⟩

lemma System.fits_init (h : Carried store) : (System.init store).Fits :=
  ⟨⟨h, by simp [System.init]⟩, fun _ => trivial⟩

lemma System.Fits.update (hs : s.Fits) (hh : h'.Fits) (htask : task.Fits) (stream : Nat) :
    (System.mk h' (update s.tasks stream task)).Fits := by
  refine ⟨hh, fun other => ?_⟩
  dsimp only
  by_cases hother : other = stream
  · rwa [hother, update_self]
  · rw [update_of_ne hother]
    exact hs.tasks other

variable {a : Action} {s' : System}

lemma System.Fits.step (hs : s.Fits) (hwithin : Within a s)
    (hstep : System.step cfg a s = some s') : s'.Fits := by
  cases System.steps_of_step hstep with
  | accept remotePeer =>
    refine hs.update hs.handler ?_ _
    fun_cases Config.accept cfg remotePeer <;> trivial
  | read msg =>
    refine hs.update hs.handler ?_ _
    cases msg with
    | none => trivial
    | some msg => exact receive_fits rfl hwithin.1 hwithin.2
  | @run stream io h' task' hnext =>
    have hio : io.Fits := by
      cases io with
      | done => trivial
      | failed left =>
        cases left with
        | none => trivial
        | some left => exact hwithin
    obtain ⟨hh, htask⟩ := next_fits hs.handler (hs.tasks stream) hio hnext
    exact hs.update hh htask stream
  | write path file => exact ⟨⟨hs.handler.store.update hwithin, hs.handler.sessions⟩, hs.tasks⟩

/-- A file that is there stays, if not as it is. -/
def Stays (store store' : Storage) : Prop :=
  ∀ path, (store.files path).isSome → (store'.files path).isSome

lemma stays_update (store : Storage) (path : Path) (file : List UInt8) :
    Stays store ⟨update store.files path (some file)⟩ := by
  intro path' h
  dsimp only
  by_cases hpath : path' = path
  · rw [hpath, update_self]
    rfl
  · rwa [update_of_ne hpath]

lemma next_stays (hnext : h.next cfg task io = some (h', task')) : Stays h.store h'.store := by
  cases Handler.steps_of_next hnext with
  | putChunk | complete => exact stays_update _ _ _
  | @unwritten contentId left =>
    cases left with
    | none => exact fun _ => id
    | some left => exact stays_update _ _ _
  | _ => exact fun _ => id

lemma step_stays (hstep : System.step cfg a s = some s') :
    Stays s.handler.store s'.handler.store := by
  cases System.steps_of_step hstep with
  | accept | read => exact fun _ => id
  | run hnext => exact next_stays hnext
  | write path file => exact stays_update _ _ _

lemma Answers.chunk_ok (h : Answers task (buildPushChunkAck chunkId pushStatusOK)) :
    ∃ ref, task = .commit ref chunkId := by
  generalize hmsg : buildPushChunkAck chunkId pushStatusOK = msg at h
  cases h with
  | committed ref id =>
    obtain ⟨-, rfl, -⟩ := buildIdAck_injective hmsg
    exact ⟨ref, rfl⟩
  | manifest | batch => exact absurd (buildIdAck_injective hmsg).1 (by decide)
  | refused _ id status hstatus => exact absurd (buildIdAck_injective hmsg).2.2.symm hstatus

/-- A stream whose chunk comes to be answered OK was about to commit it. -/
lemma step_chunk_ok (hok : s.Ok cfg) (hstep : System.step cfg a s = some s')
    (hbefore : s.tasks stream ≠ .reply (buildPushChunkAck chunkId pushStatusOK))
    (hafter : s'.tasks stream = .reply (buildPushChunkAck chunkId pushStatusOK)) :
    s'.handler.store.hasChunk chunkId := by
  have hmsg : msgPushChunkAck ≠ msgPushError := by decide
  obtain ⟨io, hnext⟩ := step_reply hstep hmsg hbefore hafter
  obtain ⟨ref, htask⟩ := (next_reply hnext).chunk_ok
  have htaskOk := hok.tasks stream
  rw [htask] at htaskOk
  have hbeforeStep : (s.handler.store.files (pathForChunk chunkId)).isSome := htaskOk.2
  exact step_stays hstep _ hbeforeStep

/-! ## The other direction -/

open Retrieval

lemma le_length_intersperse {items : List (List UInt8)} (h : ∀ item ∈ items, n ≤ item.length) :
    (n + 1) * items.length ≤ (items.intersperse (ascii ",")).flatten.length + 1 := by
  induction items with
  | nil => exact Nat.zero_le _
  | cons item items ih =>
    obtain ⟨hitem, hitems⟩ := forall_mem_cons.mp h
    cases items with
    | nil => simpa using hitem
    | cons next items =>
      have hcomma : (ascii ",").length = 1 := by decide
      have hrest := ih hitems
      simp only [List.intersperse, flatten_cons, length_append, hcomma,
        length_cons, Nat.mul_succ] at hrest ⊢
      omega

/-- Every item counts, with a comma or a bracket after it. -/
lemma le_length_jsonArray {items : List (List UInt8)} (h : ∀ item ∈ items, n ≤ item.length) :
    (n + 1) * items.length ≤ (jsonArray items).length := by
  have hlen := le_length_intersperse h
  have hbrackets : (ascii "[").length = 1 ∧ (ascii "]").length = 1 := by decide
  rw [jsonArray, length_append, length_append]
  omega

lemma le_length_jsonBytes (id : Block 32) : 64 ≤ (jsonBytes id.val).length := by
  have hdigit : ∀ item ∈ id.val.map fun b => jsonNumber b.toNat, 1 ≤ item.length := by
    intro item hitem
    obtain ⟨b, -, rfl⟩ := mem_map.mp hitem
    rw [jsonNumber, Geth.decimal, length_map]
    exact Nat.length_toDigits_pos
  have hlen := le_length_jsonArray hdigit
  rwa [length_map, id.property] at hlen

lemma le_length_serialize (quote : Str → List UInt8) (m : Manifest) :
    65 * m.chunkIds.length ≤ (serialize quote m).length := by
  have hids : 65 * m.chunkIds.length ≤ (jsonChunkIds m.chunkIds).length := by
    cases hm : m.chunkIds with
    | nil => exact Nat.zero_le _
    | cons id ids =>
      have hitem : ∀ item ∈ (id :: ids).map fun id => jsonBytes id.val, 64 ≤ item.length := by
        intro item hitem
        obtain ⟨id, -, rfl⟩ := mem_map.mp hitem
        exact le_length_jsonBytes id
      have hlen := le_length_jsonArray hitem
      rwa [length_map] at hlen
  refine hids.trans ?_
  rw [serialize]
  simp only [jsonObject, jsonField, List.intersperse, flatten_cons, length_append]
  omega

lemma length_buildPushChunk (contentId : ContentID) (chunk : Chunk) :
    (buildPushChunk contentId chunk).payload.length = 98 + chunk.data.length := by
  change (contentId.val ++ chunk.bytes).length = _
  rw [length_append, chunk.length_bytes]
  omega

/-- A chunk that the chunk protocol carries fits a push message. -/
lemma FitsChunk.push (h : FitsChunk chunk) (contentId : ContentID) :
    (buildPushChunk contentId chunk).Fits := by
  rw [PushMessage.Fits, length_buildPushChunk]
  simp only [FitsChunk, maxMessagePayloadSize, maxFrameSize, maxMessageSize] at h ⊢
  omega

/-- The chunks of a manifest take less room in front of it than inside. -/
lemma FitsManifest.push
    (h : FitsManifest (serialize quote m)) (contentId : ContentID) {assigned : List ChunkID}
    (hassigned : assigned.length ≤ m.chunkIds.length) :
    (buildPushManifest contentId assigned (serialize quote m)).Fits := by
  have hids := le_length_serialize quote m
  rw [PushMessage.Fits, length_buildPushManifest]
  simp only [FitsManifest, maxMessagePayloadSize, maxFrameSize, maxMessageSize] at h ⊢
  omega

/-! ## What is acknowledged is served -/

/-- In a run in which all that is read and written fits the chunk protocol,
an honest provider serves every chunk and every manifest from the step on in
which it is acknowledged. An answer can be read by the consumer exactly if
it fits; and what the chunk protocol carries, the client can push. -/
theorem pushed_is_served (cfg : Config) (τ : Type) : (∀ store s a s' later stream, Carried store →
      Run (System.step cfg) Within (System.init store) s →
      Within a s → System.step cfg a s = some s' → Run (System.step cfg) Within s' later →
      ∀ v : Provider τ, v.store = later.handler.store → v.corrupt = false →
        (∀ chunkId, s.tasks stream ≠ .reply (buildPushChunkAck chunkId pushStatusOK) →
          s'.tasks stream = .reply (buildPushChunkAck chunkId pushStatusOK) →
            ServesChunk v chunkId) ∧
        ∀ contentId, s.tasks stream ≠ .reply (buildPushBatchCompleteAck contentId pushStatusOK) →
          s'.tasks stream = .reply (buildPushBatchCompleteAck contentId pushStatusOK) →
            ServesManifest v contentId) ∧
    (∀ chunk, Accepted (buildChunk chunk) ↔ FitsChunk chunk) ∧
    (∀ id data, Accepted (buildManifest id data) ↔ FitsManifest data) ∧
    (∀ contentId chunk, Accepted (buildChunk chunk) →
      writePushMessage (buildPushChunk contentId chunk) =
        .ok (buildPushChunk contentId chunk).frame) ∧
    ∀ quote m contentId assigned, assigned.length ≤ m.chunkIds.length →
      Accepted (buildManifest contentId (serialize quote m)) →
        writePushMessage (buildPushManifest contentId assigned (serialize quote m)) =
          .ok (buildPushManifest contentId assigned (serialize quote m)).frame := by
  refine ⟨fun store s a s' later stream hstore hrun hwithin hstep hlater v hv hhonest => ?_,
    fun _ => accepted_chunk_iff, fun _ _ => accepted_manifest_iff,
    fun contentId chunk h => writePushMessage_eq_ok ((accepted_chunk_iff.mp h).push contentId),
    fun quote m contentId assigned hassigned h =>
      writePushMessage_eq_ok ((accepted_manifest_iff.mp h).push contentId hassigned)⟩
  have hok : s.Ok cfg :=
    hrun.inv (System.ok_init ..) fun _ _ _ _ hstep hok => hok.step hstep
  have hfits : s.Fits :=
    hrun.inv (System.fits_init hstore) fun _ _ _ hw hstep hfits => hfits.step hw hstep
  have hcarried : Carried v.store := by
    rw [hv]
    have hfits' : later.Fits :=
      hlater.inv (hfits.step hwithin hstep) fun _ _ _ hw hstep hfits => hfits.step hw hstep
    exact hfits'.handler.store
  have hstays : Stays s'.handler.store v.store := by
    rw [hv]
    exact hlater.inv (I := fun t => Stays s'.handler.store t.handler.store) (fun _ => id)
      fun _ _ _ _ hstep hkept path h => step_stays hstep path (hkept path h)
  refine ⟨fun chunkId hbefore hafter => ?_, fun contentId hbefore hafter => ?_⟩
  · have hhas : (s'.handler.store.files (pathForChunk chunkId)).isSome :=
      step_chunk_ok hok hstep hbefore hafter
    exact hcarried.servesChunk hhonest (hstays _ hhas)
  · obtain ⟨session, hdone⟩ := step_batch_ok hstep hbefore hafter
    have hget := s.handler.store.getManifestBytes_putManifestBytes contentId session.manifestBytes
    rw [← hdone.store] at hget
    have hhas : (s'.handler.store.files (manifestPath contentId)).isSome :=
      isSome_iff_exists.mpr ⟨_, hget⟩
    exact hcarried.servesManifest (hstays _ hhas)

/-- A chunk with the header of the sample. -/
def chunkOf (data : List UInt8) : Chunk := ⟨sampleChunk.header, data⟩

/-- Its push, up to the acknowledgement. -/
def chunkOfSent (data : List UInt8) : List Action :=
  [.read 0 (some (buildPushChunk sampleId (chunkOf data))), .run 0 .done, .run 0 .done,
    .run 0 .done, .run 0 .done]

/-- The manifest of the sample is acknowledged. -/
def manifestTaken : Handler where
  store := emptyStore
  heap := [⟨sampleId, sampleManifest, [7], [sampleId].toFinset, ∅⟩]
  sessions := update (fun _ => none) sampleId (some 0)

lemma execute_chunkOfSent (data : List UInt8) (htasks : tasks 0 = .reading) : ∃ s s',
    execute (System.step sampleConfig) (chunkOfSent data) ⟨manifestTaken, tasks⟩ = some s ∧
      System.step sampleConfig (.run 0 .done) s = some s' ∧
      s.tasks 0 = .commit 0 sampleId ∧
      s'.tasks 0 = .reply (buildPushChunkAck sampleId pushStatusOK) ∧
      s'.handler.store = emptyStore.putChunk (chunkOf data) := by
  have hreceive : sampleConfig.receive (some (buildPushChunk sampleId (chunkOf data))) =
      .lookup sampleId (chunkOf data) := by
    change handlePushChunk (buildPushChunk sampleId (chunkOf data)) = _
    rw [handlePushChunk, parsePushChunk_build]
  have hread : System.step sampleConfig
      (.read 0 (some (buildPushChunk sampleId (chunkOf data)))) ⟨manifestTaken, tasks⟩ =
        some ⟨manifestTaken, update tasks 0 (.lookup sampleId (chunkOf data))⟩ := by
    rw [System.step, if_pos htasks, hreceive]
  rw [chunkOfSent, execute, hread]
  exact ⟨_, _, rfl, rfl, rfl, rfl, rfl⟩

lemma execute_manifestSent : ∃ tasks,
    execute (System.step sampleConfig) (manifestSent 0 [sampleId] [7]) (System.init emptyStore) =
      some ⟨manifestTaken, tasks⟩ ∧ tasks 0 = .reading :=
  ⟨_, rfl, rfl⟩

/-- The manifest and the chunk are pushed. -/
lemma execute_pushed (data : List UInt8) : ∃ s s',
    execute (System.step sampleConfig) (manifestSent 0 [sampleId] [7] ++ chunkOfSent data)
        (System.init emptyStore) = some s ∧
      System.step sampleConfig (.run 0 .done) s = some s' ∧
      s.tasks 0 = .commit 0 sampleId ∧
      s'.tasks 0 = .reply (buildPushChunkAck sampleId pushStatusOK) ∧
      s'.handler.store = emptyStore.putChunk (chunkOf data) := by
  obtain ⟨tasks, hmanifest, htasks⟩ := execute_manifestSent
  rw [execute_append, hmanifest]
  exact execute_chunkOfSent data htasks

lemma within_pushed (h : FitsChunk (chunkOf data)) :
    ∀ a ∈ manifestSent 0 [sampleId] [7] ++ chunkOfSent data, ∀ s, Within a s := by
  have hmanifest : ∀ s, Within (.read 0 (some (buildPushManifest sampleId [sampleId] [7]))) s := by
    refine fun _ => ⟨fun _ _ htype => absurd htype (by decide), fun id ids data _ hparse => ?_⟩
    cases hparse
    unfold FitsManifest
    decide
  have hchunk : ∀ s, Within (.read 0 (some (buildPushChunk sampleId (chunkOf data)))) s := by
    have htype : msgPushChunk ≠ msgPushManifest := by decide
    refine fun _ => ⟨fun id chunk _ hparse => ?_, fun _ _ _ h => absurd h htype⟩
    cases hparse
    exact h
  simp only [manifestSent, chunkOfSent, cons_append, nil_append, forall_mem_cons]
  exact ⟨fun _ => trivial, hmanifest, fun _ => trivial, fun _ => trivial, hchunk,
    fun _ => trivial, fun _ => trivial, fun _ => trivial, fun _ => trivial, by simp⟩

theorem pushed_is_served_sample : ∃ s s',
    Run (System.step sampleConfig) Within (System.init emptyStore) s ∧
      System.step sampleConfig (.run 0 .done) s = some s' ∧
      s'.tasks 0 = .reply (buildPushChunkAck sampleId pushStatusOK) ∧
      ∀ v : Provider Unit, v.store = s'.handler.store → v.corrupt = false →
        ServesChunk v sampleId := by
  obtain ⟨s, s', hexec, hstep, hbefore, hafter, -⟩ := execute_pushed [1, 2]
  have hfits : FitsChunk (chunkOf [1, 2]) := by
    unfold FitsChunk
    decide
  have hrun := Run.refl.execute (within_pushed hfits) hexec
  have hstore : Carried emptyStore := fun _ _ h => (by cases h)
  have hne : s.tasks 0 ≠ .reply (buildPushChunkAck sampleId pushStatusOK) := by
    rw [hbefore]
    exact Task.noConfusion
  refine ⟨s, s', hrun, hstep, hafter, fun v hv hhonest => ?_⟩
  exact ((pushed_is_served ..).1 emptyStore s (.run 0 .done) s' s' 0 hstore hrun
    trivial hstep .refl v hv hhonest).1 sampleId hne hafter

/-- A chunk of two megabytes is pushed in a message that can be read and is
acknowledged, and no consumer can read the answer that is made of it. -/
theorem pushed_large_unserved : ∃ data s s',
    readPushMessage ⟨(buildPushChunk sampleId (chunkOf data)).frame, false⟩ =
        (.ok (buildPushChunk sampleId (chunkOf data)), ⟨[], false⟩) ∧
      execute (System.step sampleConfig) (manifestSent 0 [sampleId] [7] ++ chunkOfSent data)
        (System.init emptyStore) = some s ∧
      System.step sampleConfig (.run 0 .done) s = some s' ∧
      s'.tasks 0 = .reply (buildPushChunkAck sampleId pushStatusOK) ∧
      ∀ v : Provider Unit, v.store = s'.handler.store → v.corrupt = false →
        ¬ ServesChunk v sampleId := by
  obtain ⟨data, hdata⟩ : ∃ data : List UInt8, data.length = 2 * 1024 * 1024 :=
    ⟨List.replicate _ 0, length_replicate⟩
  obtain ⟨s, s', hexec, hstep, -, hafter, hstore⟩ := execute_pushed data
  have hfits : (buildPushChunk sampleId (chunkOf data)).Fits := by
    rw [PushMessage.Fits, length_buildPushChunk, chunkOf, hdata]
    decide
  refine ⟨data, s, s', readPushMessage_eq_ok.mpr ⟨hfits, (append_nil _).symm, rfl⟩, hexec,
    hstep, hafter, fun v hv hhonest hserves => ?_⟩
  have hfile : v.store.files (pathForChunk sampleId) = some (chunkOf data).bytes := by
    rw [hv, hstore]
    exact update_self (pathForChunk (chunkOf data).header.id) _ emptyStore.files
  have hchunk := fits_of_servesChunk hhonest hfile hserves
  rw [FitsChunk, chunkOf, hdata] at hchunk
  revert hchunk
  decide

end Cipher.Push
