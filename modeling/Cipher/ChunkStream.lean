import Cipher.ChunkProtocol
import Cipher.Transition

/-!
# One chunk stream, both ends

A client that calls `FetchChunk` again and again, and the handler of the
provider, with a queue of messages in each direction. The transport loses
nothing and cuts nothing off, and every frame that is sent is one that
`ReadMessage` takes.

Every request carries the number of its call, and what the handler writes
on reading it in the loop of `handleStream` carries that number too. Both
are ghosts. The client and the handler are in step (`InStep`) as long as
every chunk that arrives whole is answered with a ticket or an `ACK`, and
no ticket is rejected: the handler waits for exactly one acknowledgement
per chunk and answers it with nothing. A client whose ticket generator
fails sends none, and the handler takes the next request for it; a
rejected ticket is answered by an `ERROR`, which the client takes for the
answer to its next request.
-/

namespace Cipher.ChunkProtocol

open Bytes Binary Go Content Transition List

variable {τ : Type}

/-! ## The system -/

/-- A message under way. `answers` is the call it is the request of, or
the answer to. -/
structure Sent where
  answers : Option Nat
  msg : Message
deriving DecidableEq

/-- The message the client has read for one of its calls. -/
structure Answer where
  call : Nat
  read : Sent
deriving DecidableEq

/-- `client` is the call that waits for its answer. -/
structure Stream where
  client : Option (Nat × ChunkID)
  handler : Phase
  toProvider : List Sent
  toClient : List Sent
  calls : Nat
  answers : List Answer
deriving DecidableEq

def Stream.init : Stream := ⟨none, .loop, [], [], 0, []⟩

/-- The client calls `FetchChunk`, the call reads its answer and returns,
or the handler reads a message. -/
inductive Action (τ : Type) where
  | call (id : ChunkID)
  | receive (ticketGenerator : Option (TicketGenerator τ))
  | handle (v : Provider τ)

/-- What is written in the loop answers the message that was read there.
What is written on an acknowledgement answers no request. -/
def Phase.answers : Phase → Option Nat → Option Nat
  | .loop, call => call
  | _, _ => none

def Stream.step (sha256 : List UInt8 → Hash) (json : Json τ) :
    Action τ → Stream → Option Stream
  | .call id, s =>
    match s.client with
    | some _ => none
    | none => some { s with
        client := some (s.calls, id)
        calls := s.calls + 1
        toProvider := s.toProvider ++ [⟨some s.calls, buildRequestChunk id⟩] }
  | .receive ticketGenerator, s =>
    match s.client, s.toClient with
    | some (call, id), resp :: rest => some { s with
        client := none
        toClient := rest
        toProvider := s.toProvider ++
          (fetchChunk sha256 json ticketGenerator id resp.msg).1.map (Sent.mk none)
        answers := s.answers ++ [⟨call, resp⟩] }
    | _, _ => none
  | .handle v, s =>
    match s.handler, s.toProvider with
    | .closed, _ => none
    | _, [] => none
    | phase, m :: rest =>
      let (next, written) := v.handle phase (.message m.msg)
      some { s with
        handler := next
        toProvider := rest
        toClient := s.toClient ++ written.map (Sent.mk (phase.answers m.answers)) }

variable {v : Provider τ}

lemma Stream.step_handle {sha256 : List UInt8 → Hash} {json : Json τ}
    {client : Option (Nat × ChunkID)} {phase next : Phase} {m : Sent} {rest toClient : List Sent}
    {calls : Nat} {answers : List Answer} {written : List Message} (hopen : phase ≠ .closed)
    (h : v.handle phase (.message m.msg) = (next, written)) :
    Stream.step sha256 json (.handle v) ⟨client, phase, m :: rest, toClient, calls, answers⟩ =
      some ⟨client, next, rest, toClient ++ written.map (Sent.mk (phase.answers m.answers)),
        calls, answers⟩ := by
  cases phase with
  | loop => simp only [Stream.step, h]
  | awaitAck => simp only [Stream.step, h]
  | closed => exact absurd rfl hopen

section

variable (sha256 : List UInt8 → Hash) (json : Json τ)

/-- If the message is the chunk that was asked for, the generator, if
there is one, makes a ticket that can be sent. -/
def Pays (ticketGenerator : Option (TicketGenerator τ)) (id : ChunkID) (msg : Message) : Prop :=
  ∀ chunk generate, msg.type = msgChunk → parseChunk msg.payload = some chunk →
    sha256 chunk.data = id → ticketGenerator = some generate →
      ∃ ticket ticketMsg, generate id = some ticket ∧ buildTicket json ticket = some ticketMsg

/-- If the message is a ticket, the handler does not reject it. -/
def Accepts (v : Provider τ) (ackMsg : Message) : Prop :=
  ∀ ticket ticketHandler, ackMsg.type = msgTicket →
    parseTicket v.json ackMsg.payload = some ticket →
    v.ticketHandler = some ticketHandler → ticketHandler ticket = none

def Smooth : Action τ → Stream → Prop
  | .call _, _ => True
  | .receive ticketGenerator, s =>
    ∀ call id resp, s.client = some (call, id) → s.toClient.head? = some resp →
      Pays sha256 json ticketGenerator id resp.msg
  | .handle v, s =>
    ∀ ack, s.handler = .awaitAck → s.toProvider.head? = some ack → Accepts v ack.msg

lemma fetchChunk_error (ticketGenerator : Option (TicketGenerator τ)) (id : ChunkID) (code : UInt8)
    (text : Str) :
    (fetchChunk sha256 json ticketGenerator id (buildError code text)).1 = [] := by
  have herror : (buildError code text).type = msgError := rfl
  rw [fetchChunk, if_pos herror]
  dsimp only
  split <;> rfl

end

variable {id : ChunkID}

/-- A chunk is acknowledged by one message: an `ERROR` if it is corrupted,
and else a ticket or an `ACK`. -/
lemma fetchChunk_chunk (hpays : Pays sha256 json ticketGenerator id (buildChunk chunk)) :
    ∃ ack, (fetchChunk sha256 json ticketGenerator id (buildChunk chunk)).1 = [ack] := by
  have hparse : parseChunk (buildChunk chunk).payload = some chunk := Chunk.parse_bytes chunk
  have herror : (buildChunk chunk).type ≠ msgError := by
    change msgChunk ≠ msgError
    decide
  have hchunk : (buildChunk chunk).type = msgChunk := rfl
  rw [fetchChunk, if_neg herror, if_neg (not_not_intro hchunk), hparse]
  dsimp only
  by_cases hash : sha256 chunk.data = id
  · rw [if_neg (not_not_intro hash)]
    cases ticketGenerator with
    | none => exact ⟨_, rfl⟩
    | some generate =>
      obtain ⟨ticket, ticketMsg, hgen, hbuild⟩ := hpays chunk generate hchunk hparse hash rfl
      exact ⟨ticketMsg, by simp only [hgen, hbuild]⟩
  · rw [if_pos hash]
    exact ⟨_, rfl⟩

lemma handle_ack (h : Accepts v ackMsg) : v.handle .awaitAck (.message ackMsg) = (.loop, []) := by
  refine congrArg (Prod.mk _) ?_
  by_cases htype : ackMsg.type = msgTicket
  · rw [Provider.handleAck, if_pos htype]
    cases hparse : parseTicket v.json ackMsg.payload with
    | none => rfl
    | some ticket =>
      cases hhandler : v.ticketHandler with
      | none => rfl
      | some ticketHandler => simp only [h ticket ticketHandler htype hparse hhandler]
  · rw [Provider.handleAck, if_neg htype]

/-- A request of the client is refused, or served and then to be
acknowledged. -/
lemma handle_request (v : Provider τ) (id : ChunkID) :
    (∃ code text, v.handle .loop (.message (buildRequestChunk id)) =
      (.loop, [buildError code text])) ∨
    (∃ chunk, v.handle .loop (.message (buildRequestChunk id)) =
      (.awaitAck, [buildChunk chunk])) := by
  have hhandle : v.handle .loop (.message (buildRequestChunk id)) =
      ((v.handleRequestChunk (buildRequestChunk id)).1,
        [(v.handleRequestChunk (buildRequestChunk id)).2]) := rfl
  rw [hhandle]
  cases hget : v.store.getChunk id with
  | error e =>
    simp only [Provider.handleRequestChunk, parseRequestChunk_build, hget]
    exact .inl ⟨_, _, rfl⟩
  | ok chunk =>
    simp only [Provider.handleRequestChunk, parseRequestChunk_build, hget]
    exact .inr ⟨_, rfl⟩

/-! ## In step -/

/-- Where the two can be: the client idle or waiting, with the last chunk
acknowledged or the acknowledgement still under way, and an answer under
way only to the call that waits. -/
inductive InStep : Option (Nat × ChunkID) → Phase → List Sent → List Sent → Prop where
  | idle : InStep none .loop [] []
  | acked (ack : Message) : InStep none .awaitAck [⟨none, ack⟩] []
  | asked (call : Nat) (id : ChunkID) :
      InStep (some (call, id)) .loop [⟨some call, buildRequestChunk id⟩] []
  | ackedAsked (ack : Message) (call : Nat) (id : ChunkID) :
      InStep (some (call, id)) .awaitAck
        [⟨none, ack⟩, ⟨some call, buildRequestChunk id⟩] []
  | refused (call : Nat) (id : ChunkID) (code : UInt8) (text : Str) :
      InStep (some (call, id)) .loop [] [⟨some call, buildError code text⟩]
  | served (call : Nat) (id : ChunkID) (chunk : Chunk) :
      InStep (some (call, id)) .awaitAck [] [⟨some call, buildChunk chunk⟩]

/-- The two are in step, and have been for every answer so far. -/
structure Stream.Lockstep (s : Stream) : Prop where
  inStep : InStep s.client s.handler s.toProvider s.toClient
  answered : ∀ a ∈ s.answers, a.read.answers = some a.call

variable {sha256 : List UInt8 → Hash} {json : Json τ}

variable {s s' : Stream}

lemma Stream.Lockstep.call (h : s.Lockstep)
    (hstep : Stream.step sha256 json (.call id) s = some s') : s'.Lockstep := by
  obtain ⟨client, handler, toProvider, toClient, calls, answers⟩ := s
  obtain ⟨hin, hans⟩ := h
  cases hin with cases hstep
  | idle => exact ⟨.asked _ _, hans⟩
  | acked ack => exact ⟨.ackedAsked .., hans⟩

lemma Stream.Lockstep.receive {s s' : Stream}
    (h : s.Lockstep) (hsmooth : Smooth sha256 json (.receive g) s)
    (hstep : Stream.step sha256 json (.receive g) s = some s') : s'.Lockstep := by
  obtain ⟨client, handler, toProvider, toClient, calls, answers⟩ := s
  obtain ⟨hin, hans⟩ := h
  -- only a call whose answer has arrived can return
  cases hin with
  | idle | acked | asked | ackedAsked => cases hstep
  | refused call id code text =>
    cases hstep
    refine ⟨?_, ?_⟩
    · simp only [fetchChunk_error, map_nil, append_nil]
      exact .idle
    · exact forall_mem_append.mpr ⟨hans, by simp⟩
  | served call id chunk =>
    obtain ⟨ack, hack⟩ := fetchChunk_chunk (hsmooth call id _ rfl rfl)
    cases hstep
    refine ⟨?_, ?_⟩
    · simp only [hack, map_cons, map_nil, nil_append]
      exact .acked ack
    · exact forall_mem_append.mpr ⟨hans, by simp⟩

lemma Stream.Lockstep.handle (h : s.Lockstep) (hsmooth : Smooth sha256 json (.handle v) s)
    (hstep : Stream.step sha256 json (.handle v) s = some s') : s'.Lockstep := by
  obtain ⟨client, handler, toProvider, toClient, calls, answers⟩ := s
  obtain ⟨hin, hans⟩ := h
  cases hin with
  | idle | refused | served => cases hstep
  | acked ack =>
    rw [Stream.step_handle (by decide) (handle_ack (hsmooth _ rfl rfl))] at hstep
    cases hstep
    exact ⟨.idle, hans⟩
  | ackedAsked ack call id =>
    rw [Stream.step_handle (by decide) (handle_ack (hsmooth _ rfl rfl))] at hstep
    cases hstep
    exact ⟨.asked _ _, hans⟩
  | asked call id =>
    rcases handle_request v id with ⟨code, text, hreq⟩ | ⟨chunk, hreq⟩
    · rw [Stream.step_handle (by decide) hreq] at hstep
      cases hstep
      exact ⟨.refused .., hans⟩
    · rw [Stream.step_handle (by decide) hreq] at hstep
      cases hstep
      exact ⟨.served .., hans⟩

lemma Stream.Lockstep.step (hsmooth : Smooth sha256 json a s)
    (hstep : Stream.step sha256 json a s = some s') (h : s.Lockstep) : s'.Lockstep := by
  cases a with
  | call id => exact h.call hstep
  | receive g => exact h.receive hsmooth hstep
  | handle v => exact h.handle hsmooth hstep

/-- The handler alone, reading on, brings the waiting client the answer to
its call. -/
def Stream.Answers (sha256 : List UInt8 → Hash) (json : Json τ) (v : Provider τ) (call : Nat)
    (s : Stream) : Prop :=
  ∃ n s', execute (Stream.step sha256 json) (List.replicate n (.handle v)) s = some s' ∧
    s'.client = s.client ∧ ∃ msg, s'.toClient.head? = some ⟨some call, msg⟩

lemma Stream.Answers.handle (hstep : Stream.step sha256 json (.handle v) s = some s')
    (hclient : s'.client = s.client) (h : s'.Answers sha256 json v call) :
    s.Answers sha256 json v call := by
  obtain ⟨n, s₁, hexec, hsame, hhead⟩ := h
  refine ⟨n + 1, s₁, ?_, hsame.trans hclient, hhead⟩
  rw [replicate_succ, execute, hstep]
  exact hexec

lemma answers_asked (v : Provider τ) (call : Nat) (id : ChunkID) (calls : Nat)
    (answers : List Answer) :
    (Stream.mk (some (call, id)) .loop [⟨some call, buildRequestChunk id⟩] [] calls
      answers).Answers sha256 json v call := by
  rcases handle_request v id with ⟨code, text, hreq⟩ | ⟨chunk, hreq⟩
  · exact .handle (Stream.step_handle (by decide) hreq) rfl ⟨0, _, rfl, rfl, _, rfl⟩
  · exact .handle (Stream.step_handle (by decide) hreq) rfl ⟨0, _, rfl, rfl, _, rfl⟩

lemma Stream.Lockstep.answers {call : Nat} (h : s.Lockstep) (hclient : s.client = some (call, id))
    (hv : ∀ ack, Accepts v ack) : s.Answers sha256 json v call := by
  obtain ⟨client, handler, toProvider, toClient, calls, answers⟩ := s
  obtain ⟨hin, -⟩ := h
  subst hclient
  cases hin with
  | asked => exact answers_asked v call id ..
  | ackedAsked ack =>
    exact .handle (Stream.step_handle (by decide) (handle_ack (hv ack))) rfl
      (answers_asked v call id ..)
  | refused => exact ⟨0, _, rfl, rfl, _, rfl⟩
  | served => exact ⟨0, _, rfl, rfl, _, rfl⟩

def zeroBlock (n : Nat) : Block n := ⟨List.replicate n 0, List.length_replicate⟩

def unitJson : Json Unit := ⟨fun _ => some [1], fun _ => some ()⟩

/-- A provider of one chunk, with the ticket handler given. -/
def zeroProvider (ticketHandler : Option (Unit → Option Str)) : Provider Unit where
  store := (Storage.mk fun _ => none).putChunk
    ⟨⟨1, zeroBlock 32, 0, 0, 0, 0, zeroBlock 12⟩, []⟩
  json := unitJson
  ticketHandler := ticketHandler
  corrupt := false

end Cipher.ChunkProtocol
