import Mathlib.Algebra.Group.Nat.Defs
import Mathlib.Data.List.Induction
import RouterCalldata.Bytes.Word

/-!
# Writing numbers

The readers of a buffer take numbers in big-endian order.  Here the written form is built.

Cutting a written number at the low end gives a written number again.  This is what ties a
reader of part of a word to the number that the whole word holds.

## Main definitions

* `Bytes.bigEndian`: the low bytes of a number.

## Main results

* `toNat_lt`: bytes denote a number that fits in them;
* `toNat_bigEndian`, `bigEndian_toNat`: reading a written number gives it back, modulo what fits,
  and writing the number that bytes denote gives the bytes back;
* `drop_bigEndian`: the low end of a written number is written the same way.
-/

namespace RouterCalldata.Bytes

/-- The low `len` bytes of a number, in big-endian order. -/
def bigEndian : Nat → Nat → Bytes
  | 0, _ => []
  | len + 1, n => bigEndian len (n / 256) ++ [UInt8.ofNat n]

@[simp] theorem length_bigEndian (len n : Nat) : (bigEndian len n).length = len := by
  induction len generalizing n with
  | zero => rfl
  | succ len ih => simp [bigEndian, ih]

theorem toNat_concat (bs : Bytes) (b : UInt8) : toNat (bs ++ [b]) = 256 * toNat bs + b.toNat := by
  simp [toNat, List.foldl_append]

/-- Bytes denote a number that fits in them. -/
theorem toNat_lt (bs : Bytes) : toNat bs < 256 ^ bs.length := by
  induction bs using List.reverseRecOn with
  | nil => decide
  | append_singleton bs b ih =>
    have hb := b.toNat_lt
    rw [toNat_concat, List.length_append, List.length_singleton, Nat.pow_succ]
    omega

/-- Zero bytes in front do not change a number. -/
@[simp] theorem toNat_replicate_append (zeros : Nat) (bs : Bytes) :
    toNat (List.replicate zeros 0 ++ bs) = toNat bs := by
  induction zeros with
  | zero => rfl
  | succ zeros ih =>
    rw [← ih]
    rfl

/-- Reading a written number gives it back, modulo what fits. -/
theorem toNat_bigEndian (len n : Nat) : toNat (bigEndian len n) = n % 256 ^ len := by
  induction len generalizing n with
  | zero => simp [bigEndian, toNat, Nat.mod_one]
  | succ len ih =>
    rw [bigEndian, toNat_concat, ih, UInt8.toNat_ofNat']
    calc 256 * (n / 256 % 256 ^ len) + n % 256
        = n % 256 + 256 * (n / 256 % 256 ^ len) := Nat.add_comm _ _
      _ = n % (256 * 256 ^ len) := Nat.mod_mul.symm
      _ = n % 256 ^ (len + 1) := by rw [Nat.pow_succ']

/-- Bytes are the written form of the number that they denote. -/
theorem bigEndian_toNat (bs : Bytes) : bigEndian bs.length (toNat bs) = bs := by
  induction bs using List.reverseRecOn with
  | nil => rfl
  | append_singleton bs b ih =>
    have hb := b.toNat_lt
    have hhigh : (256 * toNat bs + b.toNat) / 256 = toNat bs := by omega
    have hlow : UInt8.ofNat (256 * toNat bs + b.toNat) = b := by
      apply UInt8.toNat_inj.mp
      rw [UInt8.toNat_ofNat']
      omega
    rw [toNat_concat, List.length_append, List.length_singleton, bigEndian, hhigh, ih, hlow]

/-- A written number falls into a high and a low part. -/
theorem bigEndian_add (hi lo n : Nat) :
    bigEndian (hi + lo) n = bigEndian hi (n / 256 ^ lo) ++ bigEndian lo n := by
  induction lo generalizing n with
  | zero => simp [bigEndian]
  | succ lo ih =>
    have hdiv : n / 256 / 256 ^ lo = n / 256 ^ (lo + 1) := by
      rw [Nat.div_div_eq_div_mul, Nat.pow_succ']
    rw [← Nat.add_assoc, bigEndian, bigEndian, ih, hdiv, List.append_assoc]

/-- The low end of a written number is written the same way. -/
theorem drop_bigEndian (hi lo n : Nat) : (bigEndian (hi + lo) n).drop hi = bigEndian lo n := by
  rw [bigEndian_add, List.drop_left' (length_bigEndian hi _)]

/-- The high end of a written number is the number without its low bytes. -/
theorem take_bigEndian (hi lo n : Nat) :
    (bigEndian (hi + lo) n).take hi = bigEndian hi (n / 256 ^ lo) := by
  rw [bigEndian_add, List.take_left' (length_bigEndian hi _)]

@[simp] theorem bigEndian_zero (len : Nat) : bigEndian len 0 = List.replicate len 0 := by
  induction len with
  | zero => rfl
  | succ len ih => rw [bigEndian, Nat.zero_div, ih, List.replicate_succ']; rfl

end RouterCalldata.Bytes
