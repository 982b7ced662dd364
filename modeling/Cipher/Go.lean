import Mathlib.Data.List.Pairwise
import Cipher.Bytes

/-!
# Strings, encodings and sorting of Go

A Go string is a sequence of bytes, with no promise that it is text.
The encoders are those of `encoding/hex` and `encoding/binary` as the
packages of this development use them. Sorting is known by what it
promises (`SliceSort`), which leaves the order of equal elements open.
-/

namespace Go

open List

/-- A Go string. -/
abbrev Str := List UInt8

export Bytes (beBytes)

/-- `binary.BigEndian.AppendUint64`. -/
def appendUint64 (buf : List UInt8) (v : UInt64) : List UInt8 := buf ++ beBytes 8 v.toNat

def hexDigit (n : Nat) : UInt8 := UInt8.ofNat (if n < 10 then 0x30 + n else 0x61 + (n - 10))

/-- `hex.EncodeToString`. -/
def hexEncode (bs : List UInt8) : Str :=
  bs.flatMap fun b => [hexDigit (b.toNat / 16), hexDigit (b.toNat % 16)]

/-- `0x` and the hexadecimal digits of a byte array. -/
def hexString (bs : List UInt8) : Str := 0x30 :: 0x78 :: hexEncode bs

/-! ## Framing

Strings behind their length and numbers of eight bytes, as they are put one
after the other to be hashed. What follows a field is part of each statement,
so that a record can be taken apart from the front. -/

/-- A string behind its length. -/
def framed (s : Str) : List UInt8 := beBytes 8 (UInt64.ofNat s.length).toNat ++ s

lemma uint64_append_inj {u v : UInt64} {xs ys : List UInt8}
    (h : beBytes 8 u.toNat ++ xs = beBytes 8 v.toNat ++ ys) : u = v ∧ xs = ys := by
  obtain ⟨hvalue, hrest⟩ := Bytes.beBytes_append_inj u.toNat_lt v.toNat_lt h
  exact ⟨UInt64.toNat_inj.mp hvalue, hrest⟩

lemma framed_append_inj {s t : Str} (hs : s.length < 2 ^ 64) (ht : t.length < 2 ^ 64)
    {xs ys : List UInt8} (h : framed s ++ xs = framed t ++ ys) : s = t ∧ xs = ys := by
  obtain ⟨hvalue, hrest⟩ := uint64_append_inj h
  have hlength : s.length = t.length := by
    have hnat := congrArg UInt64.toNat hvalue
    rwa [UInt64.toNat_ofNat', UInt64.toNat_ofNat', Nat.mod_eq_of_lt hs, Nat.mod_eq_of_lt ht] at hnat
  exact append_inj hrest hlength

/-- The last string of a record needs no bound on its length. -/
lemma framed_inj {s t : Str} (h : framed s = framed t) : s = t :=
  (append_inj h (by rw [Bytes.length_beBytes, Bytes.length_beBytes])).2

/-! ## Time -/

/-- `time.Time.Unix` of a time given in nanoseconds since the epoch. -/
def unixSeconds (t : Int) : Int := t / 1000000000

lemma toNat_ofInt {n : Nat} (h : n < 2 ^ 64) : (UInt64.ofInt (n : Int)).toNat = n := by
  simp only [UInt64.ofInt, UInt64.toNat_ofNat']
  omega

/-! ## Offsets -/

/-- An `int` of 64 bits. -/
def int64 (n : Int) : Int := n.bmod (2 ^ 64)

lemma int64_of_lt {n : Nat} (h : n < 2 ^ 63) : int64 n = n := by
  refine Int.bmod_eq_of_le ?_ ?_ <;> omega

/-- `bs[low:high]`, or nothing where that panics. -/
def slice (bs : List UInt8) (low high : Int) : Option (List UInt8) :=
  if 0 ≤ low ∧ low ≤ high ∧ high ≤ bs.length then
    some ((bs.drop low.toNat).take (high - low).toNat)
  else none

lemma slice_eq_some {bs : List UInt8} {low high : Nat} (hlow : low ≤ high)
    (hhigh : high ≤ bs.length) : slice bs low high = some ((bs.drop low).take (high - low)) := by
  rw [slice, if_pos (by omega)]
  congr 3
  omega

/-! ## Sorting -/

/-- What `sort.Slice` promises: the same elements, none of them behind one
that it is less than. Elements of which neither is less may come in any
order. -/
structure SliceSort {α : Type} (less : α → α → Prop) (sort : List α → List α) : Prop where
  perm : ∀ l, (sort l).Perm l
  ordered : ∀ l, (sort l).Pairwise fun a b => ¬less b a

/-- Elements that can be put strictly in order are sorted in one way. -/
lemma SliceSort.eq_of_perm {α : Type} {less : α → α → Prop} {sort : List α → List α}
    (h : SliceSort less sort) (hasymm : ∀ a b, less a b → ¬less b a) {l l' : List α}
    (hperm : l'.Perm l) (hl' : l'.Pairwise less) : sort l = l' := by
  refine ((h.perm l).trans hperm.symm).eq_of_pairwise (fun a b ha hb hab hba => ?_) (h.ordered l)
    (hl'.imp fun {a b} => hasymm a b)
  by_contra hne
  have hcomparable : l'.Pairwise fun a b => less a b ∨ less b a := hl'.imp fun h => .inl h
  have hsymm : Std.Symm fun a b : α => less a b ∨ less b a := ⟨fun _ _ => Or.symm⟩
  have ha' : a ∈ l' := hperm.mem_iff.mpr ((h.perm l).mem_iff.mp ha)
  rcases hcomparable.forall ha' hb hne with h | h
  · exact hba h
  · exact hab h

end Go
