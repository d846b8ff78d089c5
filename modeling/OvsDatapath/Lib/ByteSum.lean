import Mathlib.Data.ZMod.Basic
import Mathlib.Tactic
import OvsDatapath.Lib.Patch

/-!
# The sum of a run of bytes

The internet checksum is a sum of 16-bit numbers in ones' complement arithmetic, which is the ring of integers modulo
65535: a carry that is added in again is worth what it was, and the complement is the negative. In this ring 256 is
its own inverse, so the sum over bytes has one law (`byteSum_append`): what stands behind `n` bytes counts `256 ^ n`
times, that is, the order of its bytes is exchanged if `n` is odd.

* `byteSum_patch` — what a change of some bytes does to the sum of all.
* `byteSum_not` — the complement of a run of whole numbers is its negative.
* `twice_eq_zero_iff` — nothing but zero is its own negative.
-/

namespace OvsDatapath.Lib

/-- The numbers in ones' complement arithmetic, of which 0 and 65535 are the same. -/
abbrev OnesSum := ZMod 65535

/-- What a number counts in a sum. -/
def onesOf {w : Nat} (v : BitVec w) : OnesSum := (v.toNat : OnesSum)

/-- The sum of a run of bytes, as big-endian numbers of 16 bits. -/
def byteSum : List (BitVec 8) → OnesSum
  | [] => 0
  | b :: bytes => 256 * (onesOf b + byteSum bytes)

@[simp] theorem byteSum_nil : byteSum [] = 0 := rfl

theorem byteSum_cons (b : BitVec 8) (bytes : List (BitVec 8)) :
    byteSum (b :: bytes) = 256 * (onesOf b + byteSum bytes) := rfl

theorem mul_256_256 : (256 : OnesSum) * 256 = 1 := by decide

/-- A number of two bytes. -/
@[simp] theorem byteSum_pair (high low : BitVec 8) :
    byteSum [high, low] = 256 * onesOf high + onesOf low := by
  rw [byteSum_cons, byteSum_cons, byteSum_nil, add_zero, mul_add, ← mul_assoc, mul_256_256, one_mul]

theorem pow_256_even {n : Nat} (h : n % 2 = 0) : (256 : OnesSum) ^ n = 1 := by
  obtain ⟨k, rfl⟩ := Nat.dvd_of_mod_eq_zero h
  rw [pow_mul, pow_two, mul_256_256, one_pow]

theorem pow_256_odd {n : Nat} (h : n % 2 = 1) : (256 : OnesSum) ^ n = 256 := by
  obtain ⟨k, rfl⟩ : ∃ k, n = k + 1 := ⟨n - 1, by omega⟩
  rw [pow_succ, pow_256_even (by omega), one_mul]

theorem byteSum_append (bytes rest : List (BitVec 8)) :
    byteSum (bytes ++ rest) = byteSum bytes + 256 ^ bytes.length * byteSum rest := by
  induction bytes with
  | nil => simp
  | cons b bytes ih =>
      rw [List.cons_append, byteSum_cons, byteSum_cons, ih, List.length_cons, pow_succ]
      ring

/-- What stands behind whole numbers counts as it is. -/
theorem byteSum_append_even {bytes : List (BitVec 8)} (h : bytes.length % 2 = 0) (rest : List (BitVec 8)) :
    byteSum (bytes ++ rest) = byteSum bytes + byteSum rest := by
  rw [byteSum_append, pow_256_even h, one_mul]

/-- Some bytes in the middle. -/
theorem byteSum_split {l : List (BitVec 8)} (off n : Nat) (h : off + n ≤ l.length) :
    byteSum l = byteSum (l.take off) + 256 ^ off * (byteSum ((l.drop off).take n) +
      256 ^ n * byteSum (l.drop (off + n))) := by
  have hrest : byteSum (l.drop off) = byteSum ((l.drop off).take n) + 256 ^ n * byteSum (l.drop (off + n)) := by
    conv_lhs => rw [← List.take_append_drop n (l.drop off)]
    rw [byteSum_append, List.drop_drop, List.length_take, List.length_drop, Nat.min_eq_left (by omega)]
  conv_lhs => rw [← List.take_append_drop off l]
  rw [byteSum_append, List.length_take, Nat.min_eq_left (by omega), hrest]

/-- **What a change of some bytes does to the sum.** -/
theorem byteSum_patch {l new : List (BitVec 8)} {off : Nat} (h : off + new.length ≤ l.length) :
    byteSum (patch l off new) =
      byteSum l + 256 ^ off * (byteSum new - byteSum ((l.drop off).take new.length)) := by
  have htake : (l.take off).length = off := by
    rw [List.length_take]
    omega
  rw [patch_split h, byteSum_append, byteSum_append, htake, byteSum_split off new.length h]
  ring

/-! ### Complements -/

theorem onesOf_not8 (b : BitVec 8) : onesOf (~~~b) = 255 - onesOf b := by
  have hlt := b.isLt
  rw [onesOf, BitVec.toNat_not, show 2 ^ 8 - 1 - b.toNat = 255 - b.toNat by norm_num, Nat.cast_sub (by omega)]
  rfl

/-- The complement of whole numbers. -/
theorem byteSum_not (bytes : List (BitVec 8)) (h : bytes.length % 2 = 0) :
    byteSum (bytes.map (~~~·)) = -byteSum bytes := by
  induction bytes using List.twoStepInduction with
  | nil => simp
  | singleton b => simp at h
  | cons_cons high low bytes ih _ =>
      have hlen : bytes.length % 2 = 0 := by
        simp only [List.length_cons] at h
        omega
      have hones : (256 : OnesSum) * 255 + 255 = 0 := by decide
      have hone := mul_256_256
      simp only [List.map_cons, byteSum_cons, onesOf_not8, ih hlen]
      linear_combination hones + 255 * hone

theorem onesOf_not32 (x : BitVec 32) : onesOf (~~~x) = -onesOf x := by
  have hlt := x.isLt
  have hones : ((2 ^ 32 - 1 : Nat) : OnesSum) = 0 := by decide
  rw [onesOf, onesOf, BitVec.toNat_not, Nat.cast_sub (by omega), hones, zero_sub]

/-- Nothing but zero is its own negative. -/
theorem twice_eq_zero_iff (x : OnesSum) : 2 * x = 0 ↔ x = 0 := by
  have hunit : (32768 : OnesSum) * 2 = 1 := by decide
  constructor
  · intro h
    have hx := congrArg (32768 * ·) h
    simpa [← mul_assoc, hunit] using hx
  · rintro rfl
    exact mul_zero 2

end OvsDatapath.Lib
