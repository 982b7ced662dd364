import Cipher.ChunkWire

/-!
# Resolving a manifest

`ResolveManifest` of the package `retrieval`: the providers are asked for
the manifest of a content one after the other, and the first manifest that
can be read is returned. The answer of a provider has to name the content
in front of the manifest. Nothing is compared inside the manifest, neither
the content it describes nor the hash of its chunk IDs, so what is returned
is the requested manifest exactly if the first readable one is.

`Serialize` is `json.Marshal` with the quoting of strings left open;
`Deserialize` is a parameter.
-/

namespace Cipher.Retrieval

open Bytes Binary Go Content ChunkProtocol Wire

/-! ## Manifests in JSON -/

/-- A number in decimal. -/
def jsonNumber (n : Nat) : List UInt8 := Geth.decimal n

/-- A list in brackets, with commas in between. -/
def jsonArray (items : List (List UInt8)) : List UInt8 :=
  ascii "[" ++ (items.intersperse (ascii ",")).flatten ++ ascii "]"

/-- A byte array is a list of numbers. -/
def jsonBytes (bs : List UInt8) : List UInt8 := jsonArray (bs.map fun b => jsonNumber b.toNat)

/-- The name of a field and its value. -/
def jsonField (name : String) (value : List UInt8) : List UInt8 :=
  ascii "\"" ++ ascii name ++ ascii "\":" ++ value

def jsonObject (fields : List (List UInt8)) : List UInt8 :=
  ascii "\x7b" ++ (fields.intersperse (ascii ",")).flatten ++ ascii "\x7d"

/-- A manifest without chunks has a nil list, which is not an empty one. -/
def jsonChunkIds : List ChunkID → List UInt8
  | [] => ascii "null"
  | ids => jsonArray (ids.map fun id => jsonBytes id.val)

/-- `Serialize`. `quote` is how a string is written. -/
def serialize (quote : Str → List UInt8) (m : Manifest) : List UInt8 :=
  jsonObject
    [jsonField "version" (jsonNumber m.version.toNat),
      jsonField "descriptor" (jsonObject
        [jsonField "id" (jsonBytes m.descriptor.id.val),
          jsonField "type" (quote m.descriptor.type),
          jsonField "size" (jsonNumber m.descriptor.size.toNat)]),
      jsonField "chunk_ids" (jsonChunkIds m.chunkIds),
      jsonField "merkle_root" (jsonBytes m.merkleRoot.val),
      jsonField "whole_hash" (jsonBytes m.wholeHash.val),
      jsonField "crypto" (jsonObject
        [jsonField "algorithm" (quote m.crypto.algorithm),
          jsonField "version" (jsonNumber m.crypto.version.toNat),
          jsonField "chunk_nonce_size" (jsonNumber m.crypto.chunkNonceSize.toNat),
          jsonField "key_id" (quote m.crypto.keyId)])]

/-! ## Asking a provider -/

inductive ResolveError where
  | failedToCreateClient
  | failedToSendRequest
  | failedToReadResponse (e : WireError)
  | remote (code : UInt8) (msg : Str)
  | expectedManifest (got : UInt8)
  | invalidPayloadLength (received : Nat)
  | contentIdMismatch
  | invalidManifest
deriving DecidableEq

/-- What becomes of asking a provider: no stream can be opened, the request
cannot be sent, or there is a stream to read the answer from. -/
inductive Answer where
  | unreachable
  | unsent
  | stream (r : Reader)

/-- `Resolve` of the client. -/
def resolve (id : ContentID) : Answer → Except ResolveError (List UInt8)
  | .unreachable => .error .failedToCreateClient
  | .unsent => .error .failedToSendRequest
  | .stream r =>
    match (readMessage r).1 with
    | .error e => .error (.failedToReadResponse e)
    | .ok resp =>
      if resp.type = msgError then
        let (code, msg) := parseError resp.payload
        .error (.remote code msg)
      else if resp.type ≠ msgManifest then .error (.expectedManifest resp.type)
      else match parseManifest resp.payload with
        | none => .error (.invalidPayloadLength resp.payload.length)
        | some (respId, data) =>
          if respId ≠ id then .error .contentIdMismatch else .ok data

/-- `ResolveManifest` with the answers of the providers, in the order in
which they are asked, and the last error so far. -/
def resolveManifest (deserialize : List UInt8 → Option Manifest) (id : ContentID) :
    List Answer → Option ResolveError → Except (Option ResolveError) Manifest
  | [], lastErr => .error lastErr
  | answer :: answers, _ =>
    match resolve id answer with
    | .error e => resolveManifest deserialize id answers (some e)
    | .ok manifestData =>
      match deserialize manifestData with
      | none => resolveManifest deserialize id answers (some .invalidManifest)
      | some m => .ok m

/-! ## The requested manifest -/

/-- The relation between a manifest and its content that `Ingest` makes. -/
structure Genuine (sha256 : List UInt8 → Hash) (id : ContentID) (m : Manifest) : Prop where
  described : m.descriptor.id = id
  wholeHash : m.wholeHash = sha256 (m.chunkIds.flatMap Subtype.val)
  merkleRoot : m.merkleRoot = sha256 (m.chunkIds.flatMap Subtype.val)

variable {id : ContentID} {m : Manifest}

/-- The manifest in the answer of a provider, if there is one for the
content that can be read. -/
def manifestIn (deserialize : List UInt8 → Option Manifest) (id : ContentID) (answer : Answer) :
    Option Manifest :=
  match resolve id answer with
  | .error _ => none
  | .ok manifestData => deserialize manifestData

lemma manifestIn_eq_some : manifestIn deserialize id answer = some m ↔
      ∃ data, resolve id answer = .ok data ∧ deserialize data = some m := by
  rw [manifestIn]
  cases resolve id answer with
  | error e => simp
  | ok data => simp

lemma resolveManifest_eq_ok : resolveManifest deserialize id answers lastErr = .ok m ↔
      answers.findSome? (manifestIn deserialize id) = some m := by
  induction answers generalizing lastErr with
  | nil => simp [resolveManifest]
  | cons answer answers ih =>
    rw [resolveManifest, List.findSome?_cons, manifestIn]
    cases resolve id answer with
    | error e => exact ih
    | ok data =>
      dsimp only
      cases deserialize data with
      | none => exact ih
      | some m' => simp only [Except.ok.injEq, Option.some.injEq]

lemma resolve_eq_ok : resolve id (.stream r) = .ok data ↔ ∃ msg r', readMessage r = (.ok msg, r') ∧
      msg.type = msgManifest ∧ parseManifest msg.payload = some (id, data) := by
  rw [resolve]
  obtain ⟨result, r'⟩ := readMessage r
  cases result with
  | error e => simp
  | ok msg =>
    dsimp only
    constructor
    · intro h
      split at h
      · cases h
      split at h
      · cases h
      rename_i htype
      split at h
      · cases h
      rename_i respId data' hparse
      split at h
      · cases h
      rename_i hid
      cases h
      obtain rfl := not_not.mp hid
      exact ⟨msg, r', rfl, not_not.mp htype, hparse⟩
    · rintro ⟨msg', r'', heq, htype, hparse⟩
      cases heq
      have herror : msg.type ≠ msgError := by
        rw [htype]
        decide
      rw [if_neg herror, if_neg (not_not_intro htype), hparse]
      exact if_neg (not_not_intro rfl)

variable {τ : Type} {sha256 : List UInt8 → Hash} {deserialize : List UInt8 → Option Manifest}
  {id : ContentID}

/-- The manifest a provider has stored for the content, if it can be read,
is the one of the content. -/
structure Honest (sha256 : List UInt8 → Hash) (deserialize : List UInt8 → Option Manifest)
    (id : ContentID) (v : Provider τ) : Prop where
  small : ∀ data, v.store.getManifestBytes id = some data → 35 + data.length < 2 ^ 32
  genuine : ∀ data m, v.store.getManifestBytes id = some data → deserialize data = some m →
    Genuine sha256 id m

/-- What an honest provider answers is the manifest of the content, if it is
a manifest at all. -/
lemma Honest.manifestIn (hv : Honest sha256 deserialize id v)
    (h : manifestIn deserialize id (.stream
      ⟨writeMessage (v.handleRequestManifest (buildRequestManifest id)) ++ rest, fails⟩) =
        some m) : Genuine sha256 id m := by
  obtain ⟨data, hresolve, hm⟩ := manifestIn_eq_some.mp h
  obtain ⟨msg, r', hread, htype, hparse⟩ := resolve_eq_ok.mp hresolve
  rw [Provider.handleRequestManifest, parseRequestManifest_build] at hread
  cases hstored : v.store.getManifestBytes id with
  | none =>
    simp only [hstored] at hread
    obtain rfl := eq_of_readMessage (by decide) hread
    exact absurd htype (by decide)
  | some stored =>
    simp only [hstored] at hread
    have hlen : 3 + (buildManifest id stored).payload.length < 2 ^ 32 := by
      have := hv.small stored hstored
      change 3 + (id.val ++ stored).length < 2 ^ 32
      rw [List.length_append]
      omega
    obtain rfl := eq_of_readMessage hlen hread
    rw [parseManifest_build] at hparse
    cases hparse
    exact hv.genuine data m hstored hm

/-- `ResolveManifest` returns only manifests of the content exactly if the
first manifest that an answer carries is one. If every provider that is
reached is honest, that is so. -/
theorem resolveManifest_genuine_iff (sha256 : List UInt8 → Hash)
    (deserialize : List UInt8 → Option Manifest) (id : ContentID) (answers : List Answer)
    (lastErr : Option ResolveError) :
    ((∀ m, resolveManifest deserialize id answers lastErr = .ok m → Genuine sha256 id m) ↔
      ∀ before answer after m, answers = before ++ answer :: after →
        (∀ a ∈ before, manifestIn deserialize id a = none) →
        manifestIn deserialize id answer = some m → Genuine sha256 id m) ∧
    ((∀ r, .stream r ∈ answers → ∃ v : Provider τ, Honest sha256 deserialize id v ∧
        ∃ rest fails, r = ⟨writeMessage
          (v.handleRequestManifest (buildRequestManifest id)) ++ rest, fails⟩) →
      ∀ m, resolveManifest deserialize id answers lastErr = .ok m → Genuine sha256 id m) := by
  simp only [resolveManifest_eq_ok, List.findSome?_eq_some_iff]
  refine ⟨⟨?_, ?_⟩, ?_⟩
  · intro h before answer after m hanswers hbefore hm
    exact h m ⟨before, answer, after, hanswers, hm, hbefore⟩
  · rintro h m ⟨before, answer, after, hanswers, hm, hbefore⟩
    exact h before answer after m hanswers hbefore hm
  · rintro hhonest m ⟨before, answer, after, hanswers, hm, -⟩
    obtain ⟨data, hresolve, -⟩ := manifestIn_eq_some.mp hm
    cases answer with
    | unreachable => cases hresolve
    | unsent => cases hresolve
    | stream r =>
      obtain ⟨v, hv, rest, fails, rfl⟩ := hhonest r (by simp [hanswers])
      exact hv.manifestIn hm

/-! ## A manifest of another content -/

/-- A string without characters that have to be escaped. -/
def quoteAscii (s : Str) : List UInt8 := ascii "\"" ++ s ++ ascii "\""

def requestedId : ContentID := Block.ofList 32 [1]

/-- The digest is not that of an empty list. -/
def otherHash : Hash := Block.ofList 32 [2]

/-- A manifest of no chunks that describes another content, with hashes
that are not those of its chunk IDs. -/
def otherManifest : Manifest where
  version := 1
  descriptor := ⟨Block.ofList 32 [3], ascii "file", 0⟩
  chunkIds := []
  merkleRoot := otherHash
  wholeHash := otherHash
  crypto := ⟨ascii "ChaCha20-Poly1305", 1, 12, ascii "embedded"⟩

/-- `Deserialize`, on what is written for the manifest. -/
def readOther (data : List UInt8) : Option Manifest :=
  if data = serialize quoteAscii otherManifest then some otherManifest else none

/-- A provider answers with the manifest of another content. -/
def foreignAnswer : Answer :=
  .stream ⟨writeMessage (buildManifest requestedId (serialize quoteAscii otherManifest)), false⟩

theorem resolveManifest_foreign :
    resolveManifest readOther requestedId [foreignAnswer] none = .ok otherManifest ∧
      otherManifest.descriptor.id ≠ requestedId ∧
      ∀ sha256 : List UInt8 → Hash, sha256 [] ≠ otherHash →
        otherManifest.wholeHash ≠ sha256 (otherManifest.chunkIds.flatMap Subtype.val) := by
  have hlen : (buildManifest requestedId (serialize quoteAscii otherManifest)).payload.length ≤
      maxMessagePayloadSize := by
    decide +kernel
  have hread := readMessage_writeMessage hlen [] false
  rw [List.append_nil] at hread
  have hresolve : resolve requestedId foreignAnswer = .ok (serialize quoteAscii otherManifest) :=
    resolve_eq_ok.mpr ⟨_, _, hread, rfl, parseManifest_build ..⟩
  refine ⟨?_, by decide, fun sha256 h heq => h heq.symm⟩
  rw [resolveManifest_eq_ok, List.findSome?_cons, manifestIn_eq_some.mpr ⟨_, hresolve, if_pos rfl⟩]

end Cipher.Retrieval
