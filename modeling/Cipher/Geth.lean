import Cipher.Evm
import Cipher.Go

/-!
# The parts of go-ethereum a client signs with

`common.HexToAddress` and `common.HexToHash`, which read whatever prefix
of their argument is hexadecimal and never fail, and `accounts.TextHash`.
Hashing, ABI packing and signing are the fields of a `Crypto`. The other
functions are not of this repository; they are written from the
documentation of go-ethereum 1.14 and of `math/big`, each from the
sentence in its comment.

`hexToHash_hexString` and `hexToAddress_hexString` say that a value
written in full is read back. `Crypto.Correct` is what a contract on the
chain relies on: packing is `abi.encode`, and the signer of a signature
is the one that `ecrecover` finds.
-/

namespace Geth

open Bytes Evm Go List

/-! ## Hexadecimal input -/

/-- The value of a hexadecimal digit of either case. -/
def hexVal (c : UInt8) : Option Nat :=
  if 0x30 ≤ c ∧ c ≤ 0x39 then some (c.toNat - 0x30)
  else if 0x61 ≤ c ∧ c ≤ 0x66 then some (c.toNat - 0x61 + 10)
  else if 0x41 ≤ c ∧ c ≤ 0x46 then some (c.toNat - 0x41 + 10)
  else none

/-- `common.Hex2Bytes`: `hex.DecodeString` with its error ignored, which
"returns the bytes decoded before the error". -/
def hex2Bytes : Str → List UInt8
  | p :: q :: rest =>
    match hexVal p, hexVal q with
    | some a, some b => UInt8.ofNat (16 * a + b) :: hex2Bytes rest
    | _, _ => []
  | _ => []

/-- `str` begins with `0x` or `0X`. -/
def has0xPrefix : Str → Bool
  | c :: x :: _ => c = 0x30 && (x = 0x78 || x = 0x58)
  | _ => false

/-- `common.FromHex`: the string "may be prefixed with `0x`", and one of odd
length gets a zero in front. -/
def fromHex (s : Str) : List UInt8 :=
  let s := if has0xPrefix s then s.drop 2 else s
  hex2Bytes (if s.length % 2 = 1 then 0x30 :: s else s)

/-- `common.HexToHash`: "if b is larger than len(h), b will be cropped from
the left"; a shorter one is padded there. -/
def hexToHash (s : Str) : Bytes32 :=
  let b := fromHex s
  BitVec.ofNat 256 (beNat (b.drop (b.length - 32)))

/-- `common.HexToAddress`, which crops and pads like `HexToHash`. -/
def hexToAddress (s : Str) : Address :=
  let b := fromHex s
  BitVec.ofNat 160 (beNat (b.drop (b.length - 20)))

lemma hexVal_hexDigit : ∀ n < 16, hexVal (hexDigit n) = some n := by decide

lemma hex2Bytes_hexEncode (bs : List UInt8) : hex2Bytes (hexEncode bs) = bs := by
  induction bs with
  | nil => rfl
  | cons b bs ih =>
    have hb := UInt8.toNat_lt b
    show hex2Bytes (hexDigit (b.toNat / 16) :: hexDigit (b.toNat % 16) :: hexEncode bs) = b :: bs
    rw [hex2Bytes, hexVal_hexDigit _ (by omega), hexVal_hexDigit _ (by omega)]
    simp only
    rw [ih, Nat.div_add_mod, UInt8.ofNat_toNat]

lemma length_hexEncode (bs : List UInt8) : (hexEncode bs).length = 2 * bs.length := by
  induction bs with
  | nil => rfl
  | cons b bs ih =>
    show (hexEncode bs).length + 2 = 2 * (bs.length + 1)
    omega

lemma fromHex_hexString (bs : List UInt8) : fromHex (hexString bs) = bs := by
  have hdrop : (hexString bs).drop 2 = hexEncode bs := rfl
  have hpre : has0xPrefix (hexString bs) = true := rfl
  have hlen := length_hexEncode bs
  unfold fromHex
  dsimp only
  rw [hpre, if_pos rfl, hdrop, if_neg (by omega), hex2Bytes_hexEncode]

/-! ## Round trips -/

/-- A hash written in full is read back. -/
lemma hexToHash_hexString (h : Bytes32) : hexToHash (hexString (beBytes 32 h.toNat)) = h := by
  unfold hexToHash
  simp only [fromHex_hexString, length_beBytes, Nat.sub_self, drop_zero, beNat_beBytes]
  rw [show 256 ^ 32 = 2 ^ 256 from rfl, Nat.mod_eq_of_lt h.isLt]
  exact BitVec.ofNat_toNat _ _

/-- So is an address. -/
lemma hexToAddress_hexString (a : Address) : hexToAddress (hexString (beBytes 20 a.toNat)) = a := by
  unfold hexToAddress
  simp only [fromHex_hexString, length_beBytes, Nat.sub_self, drop_zero, beNat_beBytes]
  rw [show 256 ^ 20 = 2 ^ 160 from rfl, Nat.mod_eq_of_lt a.isLt]
  exact BitVec.ofNat_toNat _ _

/-! ## Padded numbers -/

/-- `common.LeftPadBytes`: "zero-pads slice to the left up to length l". -/
def leftPadBytes (slice : List UInt8) (l : Nat) : List UInt8 :=
  if l ≤ slice.length then slice else List.replicate (l - slice.length) 0 ++ slice

/-- `BitLen` of a `big.Int`: "the length of the absolute value of x in bits.
The bit length of 0 is 0". -/
def bitLen (n : Int) : Nat := if n = 0 then 0 else Nat.log2 n.natAbs + 1

/-- `Bytes` of a `big.Int`: "the absolute value of x as a big-endian byte
slice", without leading zeros. -/
def bigBytes (n : Int) : List UInt8 := beBytes ((bitLen n + 7) / 8) n.natAbs

/-- `math.PaddedBigBytes`: "a big integer as a big-endian byte slice. The
length of the slice is at least n bytes". -/
def paddedBigBytes (n : Int) (k : Nat) : List UInt8 :=
  if k ≤ bitLen n / 8 then bigBytes n else beBytes k n.natAbs

lemma leftPadBytes_beBytes {i j n : Nat} (hij : i ≤ j) (hn : n < 256 ^ i) :
    leftPadBytes (beBytes i n) j = beBytes j n := by
  have hpad := beBytes_add hn (j - i)
  rw [Nat.sub_add_cancel hij] at hpad
  unfold leftPadBytes
  rw [length_beBytes, hpad]
  split
  · have hnone : j - i = 0 := by omega
    rw [hnone]
    rfl
  · rfl

lemma bitLen_le_iff (n : Int) (k : Nat) : bitLen n ≤ k ↔ n.natAbs < 2 ^ k := by
  unfold bitLen
  split
  · subst n
    simp
  · rename_i hn
    rw [Nat.succ_le_iff, Nat.log2_lt (Int.natAbs_ne_zero.mpr hn)]

/-- A number that fits is padded to exactly the width. -/
lemma paddedBigBytes_eq {n : Int} {k : Nat} (hn : n.natAbs < 256 ^ k) :
    paddedBigBytes n k = beBytes k n.natAbs := by
  have hwidth : (256 : Nat) ^ k = 2 ^ (8 * k) := (pow_mul 2 8 k).symm
  rw [hwidth, ← bitLen_le_iff] at hn
  unfold paddedBigBytes bigBytes
  split
  · -- all of the width is needed
    have hfull : (bitLen n + 7) / 8 = k := by omega
    rw [hfull]
  · rfl

/-! ## Hashing, packing and signing -/

/-- The arguments `abi.Arguments.Pack` is called with. -/
inductive AbiArg where
  | address (a : Address)
  | bytes32 (b : Bytes32)
  | uint256 (n : Int)
  | uint64 (n : UInt64)
  | uint8 (n : UInt8)
deriving DecidableEq, Repr

def AbiArg.value : AbiArg → Nat
  | .address a => a.toNat
  | .bytes32 b => b.toNat
  | .uint256 n => n.toNat
  | .uint64 n => n.toNat
  | .uint8 n => n.toNat

/-- `big.Int` arguments are not negative. -/
def AbiArg.Nonneg : AbiArg → Prop
  | .uint256 n => 0 ≤ n
  | _ => True

/-- The functions of the `crypto` and `abi` packages, for private keys of
type `κ` and errors of type `ε`. -/
structure Crypto (κ ε : Type) where
  keccak256Hash : List UInt8 → Bytes32
  pubkeyToAddress : κ → Address
  pack : List AbiArg → Except ε (List UInt8)
  sign : List UInt8 → κ → Except ε (List UInt8)

variable {κ ε : Type}

/-- Packing follows the ABI specification. -/
def Crypto.PacksAbi (g : Crypto κ ε) : Prop :=
  ∀ args, (∀ arg ∈ args, arg.Nonneg) → g.pack args = .ok (abiEncode (args.map (·.value)))

/-- The bytes of `"\x19Ethereum Signed Message:\n"`. -/
def messagePrefix : Str :=
  [0x19, 0x45, 0x74, 0x68, 0x65, 0x72, 0x65, 0x75, 0x6d, 0x20, 0x53, 0x69, 0x67, 0x6e, 0x65, 0x64,
    0x20, 0x4d, 0x65, 0x73, 0x73, 0x61, 0x67, 0x65, 0x3a, 0x0a]

/-- `%d`. -/
def decimal (n : Nat) : Str := (Nat.toDigits 10 n).map fun c => UInt8.ofNat c.toNat

/-- What `accounts.TextHash` hashes. -/
def textMessage (data : List UInt8) : List UInt8 :=
  messagePrefix ++ decimal data.length ++ data

/-- `accounts.TextHash`: `keccak256("\x19Ethereum Signed Message:\n" + len +
message)`, as in EIP-191. -/
def textHash (g : Crypto κ ε) (data : List UInt8) : List UInt8 :=
  word (g.keccak256Hash (textMessage data)).toNat

/-- What is assumed of the packages, for a chain with these functions: the
hash is the chain's, packing is `abi.encode`, and a signature of a hash
comes as `R ‖ S ‖ V` with a `V` of 0 or 1, with an `S` in the lower half
of the group, and with the signer as what `ecrecover` finds. -/
structure Crypto.Correct (g : Crypto κ ε) (keccak256 : List UInt8 → Bytes32)
    (ecrecover : Bytes32 → Nat → Nat → Nat → Address) (halfOrder : Nat) : Prop where
  hash : ∀ data, g.keccak256Hash data = keccak256 data
  packs : g.PacksAbi
  signs : ∀ hash key sig, g.sign (word hash.toNat) key = .ok sig →
    ∃ r s v, sig = r ++ s ++ [v] ∧ r.length = 32 ∧ s.length = 32 ∧ (v = 0 ∨ v = 1)
      ∧ beNat s ≤ halfOrder
      ∧ ecrecover hash (27 + v.toNat) (beNat r) (beNat s) = g.pubkeyToAddress key

/-! ## The parts of a signature -/

section Signature

variable {r s : List UInt8} {v : UInt8}

lemma modify_signature (hr : r.length = 32) (hs : s.length = 32) (f : UInt8 → UInt8) :
    (r ++ s ++ [v]).modify 64 f = r ++ s ++ [f v] := by
  have hlen : (r ++ s).length = 64 := by simp [hr, hs]
  rw [modify_eq_take_cons_drop (by simp [hr, hs]), take_left' hlen]
  simp [← hlen, Nat.add_assoc]

/-- A contract takes a signature apart the way it was put together. -/
lemma signature_parts (hr : r.length = 32) (hs : s.length = 32) :
    (r ++ s ++ [v]).take 32 = r ∧ ((r ++ s ++ [v]).drop 32).take 32 = s
      ∧ beNat (((r ++ s ++ [v]).drop 64).take 1) = v.toNat := by
  have hlen : (r ++ s).length = 64 := by simp [hr, hs]
  refine ⟨?_, ?_, ?_⟩
  · rw [append_assoc, take_left' hr]
  · rw [append_assoc, drop_left' hr, take_left' hs]
  · rw [drop_left' hlen]
    simp [beNat]

end Signature

end Geth
