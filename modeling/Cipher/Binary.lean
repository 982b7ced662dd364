import Cipher.Bytes

/-!
# Fixed-size binary values

Values of a fixed size as they are written to a byte stream in
little-endian order. A `Codec` carries its size and the fact that it
reads back what it writes; records are put together from the codecs of
their fields with `pair` and `via`, and `read_append` is then the one
fact that is used of them: reading takes a value off the front of a
stream and leaves the rest. The codecs here are `Exact` as well, so that
nothing else is read as that value (`read_eq_some`).
-/

namespace Binary

open Bytes List

/-- A byte array of a fixed length. -/
abbrev Block (n : Nat) := { bs : List UInt8 // bs.length = n }

/-- The first `n` bytes, filled up with zeros. -/
def Block.ofList (n : Nat) (bs : List UInt8) : Block n :=
  ⟨(bs ++ List.replicate n 0).take n, by simp⟩

lemma Block.ofList_val {n : Nat} (b : Block n) : Block.ofList n b.val = b := by
  apply Subtype.ext
  exact take_left' b.property

lemma Block.val_ofList {n : Nat} {bs : List UInt8} (h : bs.length = n) :
    (Block.ofList n bs).val = bs := take_left' h

/-- The last `k` bytes of `n`, least significant first. -/
def leBytes (k n : Nat) : List UInt8 := (beBytes k n).reverse

def leNat (bs : List UInt8) : Nat := beNat bs.reverse

@[simp] lemma length_leBytes (k n : Nat) : (leBytes k n).length = k := by simp [leBytes]

lemma leNat_leBytes (k n : Nat) : leNat (leBytes k n) = n % 256 ^ k := by
  rw [leNat, leBytes, reverse_reverse, beNat_beBytes]

lemma leNat_leBytes_of_lt {k n : Nat} (h : n < 256 ^ k) : leNat (leBytes k n) = n := by
  rw [leNat_leBytes, Nat.mod_eq_of_lt h]

lemma leNat_lt (bs : List UInt8) : leNat bs < 256 ^ bs.length := by
  rw [← length_reverse]
  exact beNat_lt _

lemma leBytes_leNat (bs : List UInt8) : leBytes bs.length (leNat bs) = bs := by
  rw [leNat, leBytes, ← length_reverse, beBytes_beNat, reverse_reverse]

/-- How a value of a fixed size is written and read. -/
structure Codec (α : Type) where
  size : Nat
  encode : α → List UInt8
  decode : List UInt8 → α
  length_encode : ∀ a, (encode a).length = size
  decode_encode : ∀ a, decode (encode a) = a

namespace Codec

variable {α β : Type}

/-- Takes a value off the front of a stream. It fails if the stream ends
before. -/
def read (c : Codec α) (bs : List UInt8) : Option (α × List UInt8) :=
  if bs.length < c.size then none else some (c.decode (bs.take c.size), bs.drop c.size)

lemma read_append (c : Codec α) (a : α) (rest : List UInt8) :
    c.read (c.encode a ++ rest) = some (a, rest) := by
  have hlen := c.length_encode a
  have hlong : ¬(c.encode a ++ rest).length < c.size := by
    rw [length_append]
    omega
  rw [read, if_neg hlong, take_left' hlen, drop_left' hlen, c.decode_encode]

/-- Takes `n` values off the front of a stream. -/
def readMany (c : Codec α) : Nat → List UInt8 → Option (List α × List UInt8)
  | 0, bs => some ([], bs)
  | n + 1, bs =>
    match c.read bs with
    | none => none
    | some (a, rest) => (c.readMany n rest).map fun r => (a :: r.1, r.2)

lemma readMany_append (c : Codec α) (as : List α) (rest : List UInt8) :
    c.readMany as.length (as.flatMap c.encode ++ rest) = some (as, rest) := by
  induction as with
  | nil => rfl
  | cons a as ih =>
    rw [flatMap_cons, append_assoc, length_cons, readMany, c.read_append]
    simp only [ih, Option.map_some]

/-- Every string of the right length is one that the codec writes. -/
def Exact (c : Codec α) : Prop := ∀ bs, bs.length = c.size → c.encode (c.decode bs) = bs

lemma read_eq_some {c : Codec α} (hc : c.Exact) {bs : List UInt8} {a : α} {rest : List UInt8} :
    c.read bs = some (a, rest) ↔ bs = c.encode a ++ rest := by
  constructor
  · intro h
    rw [read] at h
    split at h
    · cases h
    · rename_i hlong
      cases h
      have hlen : (bs.take c.size).length = c.size := length_take_of_le (not_lt.mp hlong)
      rw [hc _ hlen, take_append_drop]
  · rintro rfl
    exact c.read_append ..

/-- The value that a string is the encoding of. -/
def parse (c : Codec α) (bs : List UInt8) : Option α :=
  if bs.length = c.size then some (c.decode bs) else none

lemma parse_eq_some {c : Codec α} (hc : c.Exact) {bs : List UInt8} {a : α} :
    c.parse bs = some a ↔ c.encode a = bs := by
  constructor
  · intro h
    obtain ⟨hlen, heq⟩ := Option.ite_none_right_eq_some.mp h
    cases heq
    exact hc bs hlen
  · rintro rfl
    rw [parse, if_pos (c.length_encode a), c.decode_encode]

lemma readMany_eq_some {c : Codec α} (hc : c.Exact) {n : Nat} {bs : List UInt8} {as : List α}
    {rest : List UInt8} : c.readMany n bs = some (as, rest) ↔
      as.length = n ∧ bs = as.flatMap c.encode ++ rest := by
  constructor
  · intro h
    induction n generalizing bs as with
    | zero =>
      cases h
      exact ⟨rfl, rfl⟩
    | succ n ih =>
      rw [readMany] at h
      cases hread : c.read bs with
      | none =>
        rw [hread] at h
        cases h
      | some r =>
        rw [hread] at h
        obtain ⟨⟨as', rest'⟩, hmany, heq⟩ := Option.map_eq_some_iff.mp h
        cases heq
        obtain ⟨hlen, hbs'⟩ := ih hmany
        refine ⟨congrArg Nat.succ hlen, ?_⟩
        rw [(read_eq_some hc).mp hread, hbs', flatMap_cons, append_assoc]
  · rintro ⟨rfl, rfl⟩
    exact c.readMany_append ..

def uint8 : Codec UInt8 where
  size := 1
  encode a := [a]
  decode bs := bs.headD 0
  length_encode _ := rfl
  decode_encode _ := rfl

lemma exact_uint8 : uint8.Exact := by
  intro bs hlen
  obtain ⟨b, rfl⟩ := length_eq_one_iff.mp hlen
  rfl

def uint16 : Codec UInt16 where
  size := 2
  encode a := leBytes 2 a.toNat
  decode bs := UInt16.ofNat (leNat bs)
  length_encode _ := length_leBytes 2 _
  decode_encode a := by
    rw [leNat_leBytes_of_lt (k := 2) a.toNat_lt, UInt16.ofNat_toNat]

lemma exact_uint16 : uint16.Exact := by
  intro bs hlen
  have hlt : leNat bs < 2 ^ 16 := by
    have := leNat_lt bs
    rwa [hlen] at this
  change leBytes 2 (UInt16.ofNat (leNat bs)).toNat = bs
  rw [UInt16.toNat_ofNat_of_lt' hlt, ← show bs.length = 2 from hlen, leBytes_leNat]

def uint32 : Codec UInt32 where
  size := 4
  encode a := leBytes 4 a.toNat
  decode bs := UInt32.ofNat (leNat bs)
  length_encode _ := length_leBytes 4 _
  decode_encode a := by
    rw [leNat_leBytes_of_lt (k := 4) a.toNat_lt, UInt32.ofNat_toNat]

lemma exact_uint32 : uint32.Exact := by
  intro bs hlen
  have hlt : leNat bs < 2 ^ 32 := by
    have := leNat_lt bs
    rwa [hlen] at this
  change leBytes 4 (UInt32.ofNat (leNat bs)).toNat = bs
  rw [UInt32.toNat_ofNat_of_lt' hlt, ← show bs.length = 4 from hlen, leBytes_leNat]

def int64 : Codec Int64 where
  size := 8
  encode a := leBytes 8 a.toUInt64.toNat
  decode bs := (UInt64.ofNat (leNat bs)).toInt64
  length_encode _ := length_leBytes 8 _
  decode_encode a := by
    rw [leNat_leBytes_of_lt (k := 8) a.toUInt64.toNat_lt, UInt64.ofNat_toNat,
      Int64.toInt64_toUInt64]

lemma exact_int64 : int64.Exact := by
  intro bs hlen
  have hlt : leNat bs < 2 ^ 64 := by
    have := leNat_lt bs
    rwa [hlen] at this
  change leBytes 8 (UInt64.ofNat (leNat bs)).toInt64.toUInt64.toNat = bs
  rw [UInt64.toUInt64_toInt64, UInt64.toNat_ofNat_of_lt' hlt, ← show bs.length = 8 from hlen,
    leBytes_leNat]

def block (n : Nat) : Codec (Block n) where
  size := n
  encode := Subtype.val
  decode := Block.ofList n
  length_encode := Subtype.property
  decode_encode := Block.ofList_val

lemma exact_block (n : Nat) : (block n).Exact := fun _ hlen => Block.val_ofList hlen

/-- One value after the other. -/
def pair (c : Codec α) (d : Codec β) : Codec (α × β) where
  size := c.size + d.size
  encode p := c.encode p.1 ++ d.encode p.2
  decode bs := (c.decode (bs.take c.size), d.decode (bs.drop c.size))
  length_encode p := by rw [List.length_append, c.length_encode, d.length_encode]
  decode_encode p := by
    have hlen := c.length_encode p.1
    rw [List.take_left' hlen, List.drop_left' hlen, c.decode_encode, d.decode_encode]

lemma Exact.pair {c : Codec α} {d : Codec β} (hc : c.Exact) (hd : d.Exact) : (c.pair d).Exact := by
  intro bs hlen
  have hlen' : bs.length = c.size + d.size := hlen
  have htake : (bs.take c.size).length = c.size := length_take_of_le (by omega)
  have hdrop : (bs.drop c.size).length = d.size := by rw [length_drop]; omega
  change c.encode (c.decode (bs.take c.size)) ++ d.encode (d.decode (bs.drop c.size)) = bs
  rw [hc _ htake, hd _ hdrop, take_append_drop]

/-- A record by the tuple of its fields. -/
def via (c : Codec α) (fields : β → α) (make : α → β) (h : ∀ b, make (fields b) = b) :
    Codec β where
  size := c.size
  encode b := c.encode (fields b)
  decode bs := make (c.decode bs)
  length_encode b := c.length_encode (fields b)
  decode_encode b := by rw [c.decode_encode, h]

lemma Exact.via {c : Codec α} (hc : c.Exact) {fields : β → α} {make : α → β}
    {h : ∀ b, make (fields b) = b} (hfields : ∀ a, fields (make a) = a) :
    (c.via fields make h).Exact := by
  intro bs hlen
  change c.encode (fields (make (c.decode bs))) = bs
  rw [hfields, hc bs hlen]

end Codec

end Binary
