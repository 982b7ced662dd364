import Cipher.ChunkStream

/-!
# Chunks after a bad ticket

What the handler of a provider writes to a consumer that sends whatever
it likes. `handleRequestChunk` rejects a bad ticket, and returns; the loop
of `handleStream` does not learn of it and reads the next request. So the
handler goes on serving exactly as if the chunk had been paid for: a
further chunk is written as soon as one that the provider holds is asked
for on a stream that has not ended (`chunk_mem_run_iff`).
-/

namespace Cipher.ChunkProtocol

open Bytes Binary Go Content

variable {τ : Type}

/-- One read of the handler, with the provider as it is then. -/
abbrev Input (τ : Type) := Provider τ × Read

/-- The handler reads one input after the other. -/
def run : Phase → List (Input τ) → Phase × List Message
  | phase, [] => (phase, [])
  | phase, (v, read) :: rest =>
    let (next, written) := v.handle phase read
    let (last, later) := run next rest
    (last, written ++ later)

/-- A ticket that the ticket handler takes. -/
def Paid (v : Provider τ) (ackMsg : Message) : Prop :=
  ackMsg.type = msgTicket ∧ ∃ ticket ticketHandler,
    parseTicket v.json ackMsg.payload = some ticket ∧
      v.ticketHandler = some ticketHandler ∧ ticketHandler ticket = none

/-- The inputs fall apart at an acknowledgement that does not pay for the
chunk served before it. -/
structure UnpaidAt (inputs pre : List (Input τ)) (v : Provider τ) (ackMsg : Message)
    (post : List (Input τ)) : Prop where
  split : inputs = pre ++ (v, .message ackMsg) :: post
  awaits : (run .loop pre).1 = .awaitAck
  unpaid : ¬ Paid v ackMsg

/-- After an acknowledgement that does not pay, no chunk is served. -/
def NoFreeChunks (inputs : List (Input τ)) : Prop :=
  ∀ pre v ackMsg post, UnpaidAt inputs pre v ackMsg post →
    ∀ msg ∈ (run (v.handle .awaitAck (.message ackMsg)).1 post).2, msg.type ≠ msgChunk

/-! ## What the loop serves -/

/-- A request for a chunk that the provider holds. -/
def Servable (v : Provider τ) (msg : Message) : Prop :=
  msg.type = msgRequestChunk ∧ ∃ id chunk,
    parseRequestChunk msg.payload = some id ∧ v.store.getChunk id = .ok chunk

/-- Such a request is read before an input that ends the stream. -/
def Served : List (Input τ) → Prop
  | [] => False
  | (_, .failed) :: _ => False
  | (v, .message msg) :: rest =>
    msg.version = currentMessageVersion ∧ (Servable v msg ∨ Served rest)

lemma run_closed (inputs : List (Input τ)) : (run .closed inputs).2 = [] := by
  induction inputs with
  | nil => rfl
  | cons input rest ih =>
    exact ih

lemma run_cons {v : Provider τ} {phase next : Phase} {read : Read}
    (h : v.handle phase read = (next, written)) (rest : List (Input τ)) :
    (run phase ((v, read) :: rest)).2 = written ++ (run next rest).2 := by
  simp only [run, h]

lemma type_handleRequestManifest (v : Provider τ) (msg : Message) :
    (v.handleRequestManifest msg).type ≠ msgChunk := by
  have herror : ∀ code text, (buildError code text).type ≠ msgChunk := fun _ _ => by
    change msgError ≠ msgChunk
    decide
  have hmanifest : ∀ id data, (buildManifest id data).type ≠ msgChunk := fun _ _ => by
    change msgManifest ≠ msgChunk
    decide
  rw [Provider.handleRequestManifest]
  split
  · exact herror _ _
  · split
    · exact herror _ _
    · exact hmanifest _ _

lemma handle_servable {msg : Message}
    (hversion : msg.version = currentMessageVersion) (h : Servable v msg) :
    ∃ chunk, v.handle .loop (.message msg) = (.awaitAck, [buildChunk chunk]) := by
  obtain ⟨htype, id, chunk, hparse, hget⟩ := h
  have hmanifest : msg.type ≠ msgRequestManifest := by
    rw [htype]
    decide
  refine ⟨v.outgoing chunk, ?_⟩
  rw [Provider.handle, if_neg (not_not_intro hversion), if_neg hmanifest, if_pos htype]
  simp only [Provider.handleRequestChunk, hparse, hget]

/-- Any other message of the current version leaves the handler in its
loop, with an answer that is no chunk. -/
lemma handle_not_servable {msg : Message}
    (hversion : msg.version = currentMessageVersion) (h : ¬ Servable v msg) :
    ∃ resp, v.handle .loop (.message msg) = (.loop, [resp]) ∧ resp.type ≠ msgChunk := by
  rw [Provider.handle, if_neg (not_not_intro hversion)]
  by_cases hmanifest : msg.type = msgRequestManifest
  · rw [if_pos hmanifest]
    exact ⟨_, rfl, type_handleRequestManifest v msg⟩
  · rw [if_neg hmanifest]
    by_cases htype : msg.type = msgRequestChunk
    · rw [if_pos htype]
      cases hparse : parseRequestChunk msg.payload with
      | none =>
        simp only [Provider.handleRequestChunk, hparse]
        exact ⟨_, rfl, by change msgError ≠ msgChunk; decide⟩
      | some id =>
        cases hget : v.store.getChunk id with
        | ok chunk => exact absurd ⟨htype, id, chunk, hparse, hget⟩ h
        | error e =>
          simp only [Provider.handleRequestChunk, hparse, hget]
          exact ⟨_, rfl, by change msgError ≠ msgChunk; decide⟩
    · rw [if_neg htype]
      exact ⟨_, rfl, by change msgError ≠ msgChunk; decide⟩

/-- A chunk is written exactly if one is asked for that can be served. -/
lemma chunk_mem_run_iff (inputs : List (Input τ)) :
    (∃ msg ∈ (run .loop inputs).2, msg.type = msgChunk) ↔ Served inputs := by
  induction inputs with
  | nil => simp [run, Served]
  | cons input rest ih =>
    obtain ⟨v, read⟩ := input
    cases read with
    | failed =>
      have hfailed : v.handle .loop .failed = (.closed, []) := rfl
      simp [run_cons hfailed, run_closed, Served]
    | message msg =>
      rw [Served]
      by_cases hversion : msg.version = currentMessageVersion
      · by_cases hserve : Servable v msg
        · obtain ⟨chunk, hhandle⟩ := handle_servable hversion hserve
          rw [run_cons hhandle]
          exact iff_of_true ⟨_, .head _, rfl⟩ ⟨hversion, .inl hserve⟩
        · obtain ⟨resp, hhandle, hresp⟩ := handle_not_servable hversion hserve
          simp [run_cons hhandle, hresp, ih, hversion, hserve]
      · have hhandle : v.handle .loop (.message msg) = (.closed,
            [buildError errUnsupportedMessage (ascii "unsupported message version")]) := by
          rw [Provider.handle, if_pos hversion]
        have herror : msgError ≠ msgChunk := by decide
        simp [run_cons hhandle, run_closed, hversion, buildError, build, herror]

/-- No chunk is free exactly if nobody asks: after each acknowledgement
that does not pay, no chunk the provider holds is asked for before the
stream ends. -/
theorem no_free_chunks_iff (inputs : List (Input τ)) : NoFreeChunks inputs ↔
      ∀ pre v ackMsg post, UnpaidAt inputs pre v ackMsg post → ¬ Served post := by
  refine forall₄_congr fun pre v ackMsg post => imp_congr_right fun _ => ?_
  -- whatever it was, the handler is back in its loop
  rw [← chunk_mem_run_iff]
  push Not
  rfl

/-- The same chunk is asked for twice, and the ticket for the first is
rejected. -/
def forgedInputs : List (Input Unit) :=
  [(zeroProvider (some fun _ => some []), .message (buildRequestChunk (zeroBlock 32))),
    (zeroProvider (some fun _ => some []), .message (build msgTicket [1])),
    (zeroProvider (some fun _ => some []), .message (buildRequestChunk (zeroBlock 32)))]

theorem free_chunk_of_forged_ticket :
    (∀ input ∈ forgedInputs, input.1.ticketHandler ≠ none) ∧ ¬ NoFreeChunks forgedInputs := by
  refine ⟨by simp [forgedInputs, zeroProvider], fun h => ?_⟩
  have hunpaid : ¬ Paid (zeroProvider (some fun _ => some [])) (build msgTicket [1]) := by
    rintro ⟨-, ticket, ticketHandler, -, hhandler, hnone⟩
    cases hhandler
    cases hnone
  exact h [_] _ _ [_] ⟨rfl, rfl, hunpaid⟩ _ (.head _) rfl

end Cipher.ChunkProtocol
