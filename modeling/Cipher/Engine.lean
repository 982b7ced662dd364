import Cipher.Content

/-!
# The content engine

`chunker.Split`, and `Ingest` and `Reassemble` of `ContentEngine`. A stream
is cut into chunks of one size, each chunk is sealed, named by the hash of
its ciphertext and stored, and the manifest lists the names in order.
`Reassemble` goes the other way and puts the chunks in the order of the
index that their headers carry.

Reading a stream is a loop that need not end: with a chunk size of zero
it reads nothing, for ever. `splitLoop` therefore counts its turns, and
`split` allows as many as the stream has bytes, and one.
-/

namespace Cipher.Content

open Bytes Binary Go

/-! ## Reading a stream -/

/-- What a reader still delivers, and whether it then fails instead of
ending. -/
structure Reader where
  bytes : List UInt8
  fails : Bool
deriving DecidableEq

inductive ReadError where
  | eof | unexpectedEOF | other
deriving DecidableEq, Repr

/-- `io.ReadFull` of `size` bytes: what was read, the error if that is
less, and what is left. -/
def readFull (size : Nat) (r : Reader) : List UInt8 × Option ReadError × Reader :=
  if size ≤ r.bytes.length then (r.bytes.take size, none, { r with bytes := r.bytes.drop size })
  else
    let err := if r.fails then .other else if r.bytes = [] then .eof else .unexpectedEOF
    (r.bytes, some err, { r with bytes := [] })

/-- The loop of `Split`: the chunks in the order in which they are emitted,
and the error that is sent after them. It is `none` if the loop has not
ended after `fuel` turns. -/
def splitLoop (chunkSize : UInt32) : Nat → UInt32 → Int64 → Reader →
    Option (List Chunk × Option ReadError)
  | 0, _, _, _ => none
  | fuel + 1, index, offset, r =>
    let (buf, err, r) := readFull chunkSize.toNat r
    let n := buf.length
    let header : ChunkHeader :=
      { version := 1, id := Block.ofList 32 [], index, offset, plainSize := .ofNat n,
        cipherSize := 0, nonce := Block.ofList 12 [] }
    let emitted := if n > 0 then [⟨header, buf⟩] else []
    let index := if n > 0 then index + 1 else index
    let offset := if n > 0 then offset + .ofNat n else offset
    match err with
    | none => (splitLoop chunkSize fuel index offset r).map fun (chunks, err) =>
      (emitted ++ chunks, err)
    | some .other => some (emitted, some .other)
    | some _ => some (emitted, none)

def split (chunkSize : UInt32) (r : Reader) : Option (List Chunk × Option ReadError) :=
  splitLoop chunkSize (r.bytes.length + 1) 0 0 r

/-! ## The engine -/

/-- `keys` is the `LocalKeyProvider`. -/
structure Engine where
  chunkSize : UInt32
  store : Storage
  keys : ContentID → Option (List UInt8)

inductive Error where
  | failedToGenerateContentId
  | failedToGenerateKey
  | failedToEncryptChunk (e : CryptoError)
  | failedToStoreChunk
  | errorReadingStream (e : ReadError)
  | failedToGetContentKey
  | failedToGetChunk (id : ChunkID) (e : StorageError)
  | corruptedChunk (id : ChunkID)
  | failedToDecryptChunk (id : ChunkID) (e : CryptoError)
deriving DecidableEq

variable (p : Primitives)

/-- What one turn of the loop of `Ingest` stores. -/
def sealChunk (key : List UInt8) (chunk : Chunk) : Except CryptoError Chunk :=
  match encryptChunk p key chunk with
  | .error e => .error e
  | .ok chunk => .ok { chunk with header := { chunk.header with id := p.sha256 chunk.data } }

/-- The loop of `Ingest`, with the identifiers and the size so far. The
chunks for which `sinkFails` cannot be written. -/
def ingestChunks (sinkFails : Chunk → Bool) (key : List UInt8) :
    List Chunk → Storage → List ChunkID → UInt64 →
      Storage × Except Error (List ChunkID × UInt64)
  | [], store, chunkIds, totalSize => (store, .ok (chunkIds, totalSize))
  | chunk :: chunks, store, chunkIds, totalSize =>
    match sealChunk p key chunk with
    | .error e => (store, .error (.failedToEncryptChunk e))
    | .ok chunk =>
      if sinkFails chunk then (store, .error .failedToStoreChunk)
      else ingestChunks sinkFails key chunks (store.putChunk chunk)
        (chunkIds ++ [chunk.header.id]) (totalSize + chunk.header.plainSize.toUInt64)

/-- The root and the whole hash are both the hash of the identifiers. -/
def makeManifest (contentId : ContentID) (mtype : Str) (chunkIds : List ChunkID)
    (totalSize : UInt64) : Manifest :=
  let wholeHash := p.sha256 (chunkIds.flatMap Subtype.val)
  { version := 1
    descriptor := { id := contentId, type := mtype, size := totalSize }
    chunkIds, merkleRoot := wholeHash, wholeHash
    crypto :=
      { algorithm := ascii "ChaCha20-Poly1305", version := 1, chunkNonceSize := 12
        keyId := ascii "embedded" } }

/-- `contentId` and `key` are what the random source yields. The result is
`none` if the stream is never read to its end. -/
def ingest (sinkFails : Chunk → Bool) (contentId : Option ContentID) (key : Option (Block 32))
    (r : Reader) (mtype : Str) (e : Engine) : Option (Engine × Except Error Manifest) :=
  match contentId with
  | none => some (e, .error .failedToGenerateContentId)
  | some contentId =>
    match key with
    | none => some (e, .error .failedToGenerateKey)
    | some key =>
      let keys := Function.update e.keys contentId (some key.val)
      match split e.chunkSize r with
      | none => none
      | some (chunks, err) =>
        match ingestChunks p sinkFails key.val chunks e.store [] 0 with
        | (store, .error err) => some ({ e with store, keys }, .error err)
        | (store, .ok (chunkIds, totalSize)) =>
          match err with
          | some err => some ({ e with store, keys }, .error (.errorReadingStream err))
          | none => some ({ e with store, keys },
              .ok (makeManifest p contentId mtype chunkIds totalSize))

/-- One turn of the loop of `Reassemble`. -/
def openChunk (key : List UInt8) (store : Storage) (id : ChunkID) : Except Error Chunk :=
  match store.getChunk id with
  | .error e => .error (.failedToGetChunk id e)
  | .ok chunk =>
    if p.sha256 chunk.data ≠ id then .error (.corruptedChunk id)
    else match decryptChunk p key chunk with
      | .error e => .error (.failedToDecryptChunk id e)
      | .ok chunk => .ok chunk

def openChunks (key : List UInt8) (store : Storage) : List ChunkID → Except Error (List Chunk)
  | [] => .ok []
  | id :: ids =>
    match openChunk p key store id with
    | .error e => .error e
    | .ok chunk => (openChunks key store ids).map (chunk :: ·)

/-- The order by which `Reassemble` sorts. -/
def indexLess (a b : Chunk) : Prop := a.header.index < b.header.index

/-- What is written, with `sort.Slice` as a parameter. Nothing is written
before an error. -/
def reassemble (sort : List Chunk → List Chunk) (m : Manifest) (e : Engine) :
    Except Error (List UInt8) :=
  match e.keys m.descriptor.id with
  | none => .error .failedToGetContentKey
  | some key =>
    match openChunks p key e.store m.chunkIds with
    | .error err => .error err
    | .ok chunks => .ok ((sort chunks).flatMap Chunk.data)

end Cipher.Content
