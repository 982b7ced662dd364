import Cipher.Binary
import Cipher.Geth

/-!
# Chunks, their encryption and their storage

The packages `core`, `manifest`, `verifier`, `crypto` and `storage` of the
content engine. Chunks are sealed under a nonce that depends on their
index alone and are known by the hash of the ciphertext; a stored chunk
is one file whose path spells that hash, holding the header in binary
and then the data. The hash function and the AEAD are parameters
(`Primitives`).
-/

namespace Cipher.Content

open Bytes Binary Go Function

/-! ## Types -/

abbrev ChunkID := Block 32

instance lawfulBEqChunkID : LawfulBEq ChunkID := inferInstance

abbrev ContentID := Block 32

abbrev Hash := Block 32

structure ChunkHeader where
  version : UInt16
  id : ChunkID
  index : UInt32
  offset : Int64
  plainSize : UInt32
  cipherSize : UInt32
  nonce : Block 12
deriving DecidableEq

/-- `data` is plaintext or ciphertext, depending on where the chunk is. -/
structure Chunk where
  header : ChunkHeader
  data : List UInt8
deriving DecidableEq

structure ContentDescriptor where
  id : ContentID
  type : Str
  size : UInt64
deriving DecidableEq

structure CryptoDescriptor where
  algorithm : Str
  version : UInt16
  chunkNonceSize : UInt16
  keyId : Str
deriving DecidableEq

structure Manifest where
  version : UInt16
  descriptor : ContentDescriptor
  chunkIds : List ChunkID
  merkleRoot : Hash
  wholeHash : Hash
  crypto : CryptoDescriptor
deriving DecidableEq

/-- The fields of a header in the order in which `encoding/binary` writes
them. -/
def headerCodec : Codec ChunkHeader :=
  .via (.pair .uint16 (.pair (.block 32) (.pair .uint32 (.pair .int64 (.pair .uint32
    (.pair .uint32 (.block 12)))))))
    (fun h => (h.version, h.id, h.index, h.offset, h.plainSize, h.cipherSize, h.nonce))
    (fun (version, id, index, offset, plainSize, cipherSize, nonce) =>
      { version, id, index, offset, plainSize, cipherSize, nonce })
    fun _ => rfl

lemma exact_headerCodec : headerCodec.Exact := by
  have hfields := Codec.exact_uint16.pair ((Codec.exact_block 32).pair (Codec.exact_uint32.pair
    (Codec.exact_int64.pair (Codec.exact_uint32.pair (Codec.exact_uint32.pair
      (Codec.exact_block 12))))))
  exact hfields.via fun _ => rfl

/-- A chunk as it is stored and sent: the header, then the data. -/
def Chunk.bytes (chunk : Chunk) : List UInt8 := headerCodec.encode chunk.header ++ chunk.data

/-- The header, then whatever is left. -/
def Chunk.parse (bs : List UInt8) : Option Chunk :=
  (headerCodec.read bs).map fun r => ⟨r.1, r.2⟩

lemma Chunk.parse_bytes (chunk : Chunk) : Chunk.parse chunk.bytes = some chunk := by
  rw [Chunk.parse, Chunk.bytes, headerCodec.read_append, Option.map_some]

/-- Only the bytes of a chunk are parsed as that chunk. -/
lemma Chunk.parse_eq_some : Chunk.parse bs = some chunk ↔ bs = chunk.bytes := by
  constructor
  · intro h
    obtain ⟨⟨header, data⟩, hread, rfl⟩ := Option.map_eq_some_iff.mp h
    exact (Codec.read_eq_some exact_headerCodec).mp hread
  · rintro rfl
    exact chunk.parse_bytes

lemma Chunk.length_bytes (chunk : Chunk) : chunk.bytes.length = 66 + chunk.data.length := by
  rw [Chunk.bytes, List.length_append, headerCodec.length_encode]
  rfl

/-! ## Encryption -/

/-- SHA-256 and ChaCha20-Poly1305: key, nonce and text. -/
structure Primitives where
  sha256 : List UInt8 → Hash
  aeadSeal : List UInt8 → Block 12 → List UInt8 → List UInt8
  aeadOpen : List UInt8 → Block 12 → List UInt8 → Option (List UInt8)

inductive CryptoError where
  | failedToCreateCipher | cipherSizeMismatch | failedToDecrypt | plainSizeMismatch
deriving DecidableEq, Repr

variable (p : Primitives)

def generateNonce (index : UInt32) : Block 12 :=
  Block.ofList 12 (p.sha256 (ascii "cipher-nonce" ++ leBytes 8 index.toNat)).val

/-- `chacha20poly1305.New` wants a key of 32 bytes. -/
def encryptChunk (key : List UInt8) (chunk : Chunk) : Except CryptoError Chunk :=
  if key.length ≠ 32 then .error .failedToCreateCipher
  else
    let nonce := generateNonce p chunk.header.index
    let ciphertext := p.aeadSeal key nonce chunk.data
    .ok { header := { chunk.header with nonce, cipherSize := .ofNat ciphertext.length }
          data := ciphertext }

def decryptChunk (key : List UInt8) (chunk : Chunk) : Except CryptoError Chunk :=
  if key.length ≠ 32 then .error .failedToCreateCipher
  else if chunk.header.cipherSize ≠ .ofNat chunk.data.length then .error .cipherSizeMismatch
  else match p.aeadOpen key chunk.header.nonce chunk.data with
    | none => .error .failedToDecrypt
    | some plaintext =>
      if chunk.header.plainSize ≠ .ofNat plaintext.length then .error .plainSizeMismatch
      else .ok { chunk with data := plaintext }

/-- A chunk that is decrypted keeps its header. -/
lemma decryptChunk_eq_ok : decryptChunk p key chunk = .ok chunk' ↔ key.length = 32
      ∧ chunk.header.cipherSize = .ofNat chunk.data.length
      ∧ p.aeadOpen key chunk.header.nonce chunk.data = some chunk'.data
      ∧ chunk.header.plainSize = .ofNat chunk'.data.length
      ∧ chunk'.header = chunk.header := by
  unfold decryptChunk
  split
  · rename_i hkey
    simp [hkey]
  rename_i hkey
  split
  · rename_i hsize
    simp [hsize]
  rename_i hsize
  simp only [not_not.mp hkey, not_not.mp hsize, true_and]
  cases p.aeadOpen key chunk.header.nonce chunk.data with
  | none => simp
  | some plaintext =>
    obtain ⟨header', data'⟩ := chunk'
    dsimp only
    split
    · rename_i hplain
      simp only [reduceCtorEq, Option.some.injEq, false_iff, not_and]
      rintro rfl heq
      exact absurd heq hplain
    · rename_i hplain
      simp only [Except.ok.injEq, Chunk.mk.injEq, Option.some.injEq]
      constructor
      · rintro ⟨rfl, rfl⟩
        exact ⟨rfl, not_not.mp hplain, rfl⟩
      · rintro ⟨rfl, -, rfl⟩
        exact ⟨rfl, rfl⟩

/-! ## Storage -/

/-- The names on the way from the base directory to a file. -/
abbrev Path := List Str

/-- `FSStorage`: the files under the base directory. -/
structure Storage where
  files : Path → Option (List UInt8)

inductive StorageError where
  | notExist | failedToReadHeader
deriving DecidableEq, Repr

def pathForChunk (id : ChunkID) : Path :=
  let encoded := hexEncode id.val
  if 4 ≤ encoded.length then [encoded.take 2, (encoded.drop 2).take 2, encoded] else [encoded]

def manifestPath (id : ContentID) : Path :=
  [ascii "manifests", hexEncode id.val ++ ascii ".json"]

namespace Storage

variable (s : Storage)

def hasChunk (id : ChunkID) : Bool := (s.files (pathForChunk id)).isSome

/-- The chunk goes to a temporary file, which is then renamed. -/
def putChunk (chunk : Chunk) : Storage :=
  { files := update s.files (pathForChunk chunk.header.id) (some chunk.bytes) }

def getChunk (id : ChunkID) : Except StorageError Chunk :=
  match s.files (pathForChunk id) with
  | none => .error .notExist
  | some file =>
    match Chunk.parse file with
    | none => .error .failedToReadHeader
    | some chunk => .ok chunk

def getManifestBytes (id : ContentID) : Option (List UInt8) := s.files (manifestPath id)

def putManifestBytes (id : ContentID) (data : List UInt8) : Storage :=
  { files := update s.files (manifestPath id) (some data) }

end Storage

lemma pathForChunk_eq (id : ChunkID) :
    pathForChunk id = [(hexEncode id.val).take 2, ((hexEncode id.val).drop 2).take 2,
      hexEncode id.val] := by
  have hlen : 4 ≤ (hexEncode id.val).length := by
    rw [Geth.length_hexEncode, id.property]
    decide
  rw [pathForChunk, if_pos hlen]

lemma pathForChunk_injective : Injective pathForChunk := by
  intro a b h
  rw [pathForChunk_eq, pathForChunk_eq] at h
  simp only [List.cons.injEq, and_true] at h
  have hval := congrArg Geth.hex2Bytes h.2.2
  rw [Geth.hex2Bytes_hexEncode, Geth.hex2Bytes_hexEncode] at hval
  exact Subtype.ext hval

lemma Storage.getChunk_putChunk (s : Storage) (chunk : Chunk) :
    (s.putChunk chunk).getChunk chunk.header.id = .ok chunk := by
  simp [Storage.getChunk, Storage.putChunk, Chunk.parse_bytes]

lemma Storage.getChunk_putChunk_of_ne (s : Storage) {chunk : Chunk} {id : ChunkID}
    (h : id ≠ chunk.header.id) : (s.putChunk chunk).getChunk id = s.getChunk id := by
  simp [Storage.getChunk, Storage.putChunk, update_of_ne (pathForChunk_injective.ne h)]

/-- No write takes a chunk away. -/
lemma Storage.hasChunk_update {s : Storage} {id : ChunkID} (h : s.hasChunk id) (path : Path)
    (data : List UInt8) : Storage.hasChunk ⟨update s.files path (some data)⟩ id := by
  by_cases hpath : pathForChunk id = path
  · simp [Storage.hasChunk, hpath]
  · simpa [Storage.hasChunk, update_of_ne hpath] using h

lemma Storage.hasChunk_putChunk_self (s : Storage) (chunk : Chunk) :
    (s.putChunk chunk).hasChunk chunk.header.id := by
  simp [Storage.hasChunk, Storage.putChunk]

lemma pathForChunk_ne_manifestPath (id : ChunkID) (contentId : ContentID) :
    pathForChunk id ≠ manifestPath contentId := by
  intro h
  rw [pathForChunk_eq] at h
  have hlen : 3 = 2 := congrArg List.length h
  exact absurd hlen (by decide)

lemma Storage.getChunk_putManifestBytes (s : Storage) (id : ChunkID) (contentId : ContentID)
    (data : List UInt8) : (s.putManifestBytes contentId data).getChunk id = s.getChunk id := by
  simp [Storage.getChunk, Storage.putManifestBytes,
    update_of_ne (pathForChunk_ne_manifestPath id contentId)]

lemma Storage.getManifestBytes_putManifestBytes (s : Storage) (id : ContentID)
    (data : List UInt8) : (s.putManifestBytes id data).getManifestBytes id = some data := by
  simp [Storage.getManifestBytes, Storage.putManifestBytes]

end Cipher.Content
