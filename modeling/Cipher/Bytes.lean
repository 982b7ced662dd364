import Mathlib.Tactic.Linarith
import Mathlib.Tactic.Ring

/-!
# Byte strings

Big-endian numbers and ASCII text as lists of bytes, which is what
hashes and signatures are computed over. `beNat_beBytes` says that a
number that fits is read back, and `beBytes_beNat` that a byte string is
written again as it was read.
-/

namespace Bytes

open List

/-- The last `k` bytes of `n`, most significant first. -/
def beBytes (k n : Nat) : List UInt8 :=
  (List.range k).map fun i => UInt8.ofNat (n / 256 ^ (k - 1 - i))

/-- The number a big-endian byte string denotes. -/
def beNat (bs : List UInt8) : Nat := bs.foldl (fun n b => 256 * n + b.toNat) 0

/-- The bytes of a text in ASCII. -/
def ascii (s : String) : List UInt8 := s.toList.map fun c => UInt8.ofNat c.toNat

lemma beNat_cons (b : UInt8) (bs : List UInt8) :
    beNat (b :: bs) = b.toNat * 256 ^ bs.length + beNat bs := by
  have hfold : ∀ (bs : List UInt8) (n : Nat),
      bs.foldl (fun n b => 256 * n + b.toNat) n = n * 256 ^ bs.length + beNat bs := by
    intro bs
    induction bs with
    | nil => simp [beNat]
    | cons b bs ih =>
      intro n
      simp only [beNat, foldl_cons, length_cons]
      rw [ih, ih _]
      ring
  simp only [beNat, foldl_cons]
  rw [hfold]
  simp [beNat]

lemma beNat_append (xs ys : List UInt8) :
    beNat (xs ++ ys) = beNat xs * 256 ^ ys.length + beNat ys := by
  induction xs with
  | nil => simp [beNat]
  | cons x xs ih =>
    rw [cons_append, beNat_cons, beNat_cons, ih, length_append]
    ring

lemma beBytes_succ (k n : Nat) : beBytes (k + 1) n = UInt8.ofNat (n / 256 ^ k) :: beBytes k n := by
  simp only [beBytes, range_succ_eq_map, map_cons, map_map, Nat.add_sub_cancel,
    Nat.sub_zero, List.cons.injEq, true_and]
  refine map_congr_left fun i _ => ?_
  simp only [Function.comp_apply, Nat.succ_eq_add_one, Nat.sub_add_eq, Nat.sub_right_comm]

@[simp] lemma length_beBytes (k n : Nat) : (beBytes k n).length = k := by
  simp [beBytes]

lemma beNat_beBytes (k n : Nat) : beNat (beBytes k n) = n % 256 ^ k := by
  induction k with
  | zero => simp [beBytes, beNat, Nat.mod_one]
  | succ k ih =>
    rw [beBytes_succ, beNat_cons, length_beBytes, ih, Nat.mod_pow_succ, UInt8.toNat_ofNat']
    ring

lemma beNat_lt (bs : List UInt8) : beNat bs < 256 ^ bs.length := by
  induction bs with
  | nil => simp [beNat]
  | cons b bs ih =>
    have hb : b.toNat + 1 ≤ 256 := b.toNat_lt
    have hstep : (b.toNat + 1) * 256 ^ bs.length ≤ 256 * 256 ^ bs.length :=
      Nat.mul_le_mul_right _ hb
    rw [beNat_cons, length_cons, pow_succ]
    linarith

/-- What stands above the last `k` bytes does not show in them. -/
lemma beBytes_add_mul (k n m : Nat) : beBytes k (m * 256 ^ k + n) = beBytes k n := by
  induction k generalizing m with
  | zero => rfl
  | succ k ih =>
    have hshift : m * 256 ^ (k + 1) + n = m * 256 * 256 ^ k + n := by rw [pow_succ]; ring
    have hhead : (m * 256 * 256 ^ k + n) / 256 ^ k = n / 256 ^ k + 256 * m := by
      rw [add_comm, Nat.add_mul_div_right _ _ (pow_pos (by decide) k), mul_comm m]
    have hbyte : UInt8.ofNat (n / 256 ^ k + 256 * m) = UInt8.ofNat (n / 256 ^ k) := by
      apply UInt8.toNat_inj.mp
      exact Nat.add_mul_mod_self_left ..
    rw [beBytes_succ, beBytes_succ, hshift, ih, hhead, hbyte]

/-- More bytes than a number needs are zeros in front of it. -/
lemma beBytes_add {j n : Nat} (h : n < 256 ^ j) (i : Nat) :
    beBytes (i + j) n = List.replicate i 0 ++ beBytes j n := by
  induction i with
  | zero => rw [zero_add]; rfl
  | succ i ih =>
    have hhead : n / 256 ^ (i + j) = 0 :=
      Nat.div_eq_of_lt (h.trans_le (Nat.pow_le_pow_right (by decide) (Nat.le_add_left j i)))
    rw [Nat.succ_add, beBytes_succ, hhead, ih]
    rfl

lemma beBytes_beNat (bs : List UInt8) : beBytes bs.length (beNat bs) = bs := by
  induction bs with
  | nil => rfl
  | cons b bs ih =>
    have hhead : (b.toNat * 256 ^ bs.length + beNat bs) / 256 ^ bs.length = b.toNat := by
      rw [add_comm, Nat.add_mul_div_right _ _ (pow_pos (by decide) _),
        Nat.div_eq_of_lt (beNat_lt bs), zero_add]
    rw [beNat_cons, length_cons, beBytes_succ, hhead, beBytes_add_mul, ih, UInt8.ofNat_toNat]

/-- A number of fixed width at the front of a byte string. -/
lemma beBytes_append_inj {k m n : Nat} (hm : m < 256 ^ k) (hn : n < 256 ^ k)
    {xs ys : List UInt8} (h : beBytes k m ++ xs = beBytes k n ++ ys) : m = n ∧ xs = ys := by
  obtain ⟨hfront, hrest⟩ := append_inj h (by rw [length_beBytes, length_beBytes])
  have hvalue := congrArg beNat hfront
  rw [beNat_beBytes, beNat_beBytes, Nat.mod_eq_of_lt hm, Nat.mod_eq_of_lt hn] at hvalue
  exact ⟨hvalue, hrest⟩

end Bytes
