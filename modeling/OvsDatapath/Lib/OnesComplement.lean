import Mathlib.Tactic

/-!
# Ones' complement sums

Numbers of 16 bits are added in ones' complement arithmetic by adding them as they are and adding the carries
in again at the end, which `fold` does. Two numbers are the same in this arithmetic if they agree modulo 65535:
there are two zeros.

The sum can be taken over the bytes in either order: to exchange the two bytes of every number is to
multiply it by 256, modulo 65535 (`swap16_modEq`, `swap32_modEq`), and to do it twice does nothing. What is not
allowed is to lose a carry, and a sum of 32 bits loses one if it wraps around (`fold_add_modEq`).
-/

namespace OvsDatapath.Lib

theorem toNat_append {m n : Nat} (a : BitVec m) (b : BitVec n) : (a ++ b).toNat = a.toNat * 2 ^ n + b.toNat := by
  rw [BitVec.toNat_append, ← Nat.shiftLeft_add_eq_or_of_lt b.isLt, Nat.shiftLeft_eq]

/-! ## Carries -/

/-- The carries of the low 16 bits, added to them. -/
def foldCarry (x : BitVec 32) : BitVec 32 := (x &&& 0xFFFF#32) + (x >>> 16)

theorem foldCarry_toNat (x : BitVec 32) : (foldCarry x).toNat = x.toNat % 65536 + x.toNat / 65536 := by
  have hlow : (x &&& 0xFFFF#32).toNat = x.toNat % 65536 := by
    rw [BitVec.toNat_and]
    exact Nat.and_two_pow_sub_one_eq_mod x.toNat 16
  have hhigh : (x >>> 16).toNat = x.toNat / 65536 := by
    rw [BitVec.toNat_ushiftRight, Nat.shiftRight_eq_div_pow]
  rw [foldCarry, BitVec.toNat_add, hlow, hhigh]
  omega

theorem foldCarry_modEq (x : BitVec 32) : (foldCarry x).toNat ≡ x.toNat [MOD 65535] := by
  rw [foldCarry_toNat]
  unfold Nat.ModEq
  omega

/-- A sum of 32 bits as a number of 16 bits. -/
def fold (x : BitVec 32) : BitVec 16 := (foldCarry (foldCarry x)).setWidth 16

theorem fold_modEq (x : BitVec 32) : (fold x).toNat ≡ x.toNat [MOD 65535] := by
  have hsmall : (foldCarry (foldCarry x)).toNat < 2 ^ 16 := by
    have hlt := x.isLt
    rw [foldCarry_toNat, foldCarry_toNat]
    omega
  rw [fold, BitVec.toNat_setWidth, Nat.mod_eq_of_lt hsmall]
  exact (foldCarry_modEq _).trans (foldCarry_modEq x)

/-- **A carry is lost** if the sum of 32 bits wraps around. -/
theorem fold_add_modEq (c : BitVec 16) (x : BitVec 32) :
    (fold (c.setWidth 32 + x)).toNat + (if 2 ^ 32 ≤ c.toNat + x.toNat then 1 else 0) ≡
      c.toNat + x.toNat [MOD 65535] := by
  have hsum : (c.setWidth 32 + x).toNat = (c.toNat + x.toNat) % 2 ^ 32 := by
    rw [BitVec.toNat_add, BitVec.toNat_setWidth_of_le (by simp)]
  have hfold := fold_modEq (c.setWidth 32 + x)
  rw [hsum] at hfold
  unfold Nat.ModEq at hfold ⊢
  split <;> omega

/-! ## The order of the bytes -/

/-- The two bytes exchanged. -/
def swap16 (v : BitVec 16) : BitVec 16 := v.extractLsb' 0 8 ++ v.extractLsb' 8 8

/-- The four bytes in the reverse order. -/
def swap32 (v : BitVec 32) : BitVec 32 := swap16 (v.extractLsb' 0 16) ++ swap16 (v.extractLsb' 16 16)

theorem swap16_toNat (v : BitVec 16) : (swap16 v).toNat = v.toNat % 256 * 256 + v.toNat / 256 := by
  have hlt := v.isLt
  rw [swap16, toNat_append, BitVec.extractLsb'_toNat, BitVec.extractLsb'_toNat, Nat.shiftRight_eq_div_pow,
    Nat.shiftRight_eq_div_pow]
  omega

theorem swap32_toNat (v : BitVec 32) : (swap32 v).toNat =
    (v.toNat % 65536 % 256 * 256 + v.toNat % 65536 / 256) * 65536 +
      (v.toNat / 65536 % 256 * 256 + v.toNat / 65536 / 256) := by
  have hlt := v.isLt
  rw [swap32, toNat_append, swap16_toNat, swap16_toNat, BitVec.extractLsb'_toNat, BitVec.extractLsb'_toNat,
    Nat.shiftRight_eq_div_pow, Nat.shiftRight_eq_div_pow]
  omega

/-- The halves change places, and the bytes within them. -/
theorem swap32_toNat_of_halves {v : BitVec 32} {high low : Nat} (hv : v.toNat = high * 65536 + low)
    (hlow : low < 65536) :
    (swap32 v).toNat = (low % 256 * 256 + low / 256) * 65536 + (high % 256 * 256 + high / 256) := by
  have hmod : v.toNat % 65536 = low := by omega
  have hdiv : v.toNat / 65536 = high := by omega
  rw [swap32_toNat, hmod, hdiv]

@[simp] theorem swap16_swap16 (v : BitVec 16) : swap16 (swap16 v) = v := by
  apply BitVec.eq_of_toNat_eq
  have hlt := v.isLt
  rw [swap16_toNat, swap16_toNat]
  omega

theorem swap16_eq_zero_iff (v : BitVec 16) : swap16 v = 0 ↔ v = 0 := by
  constructor
  · intro h
    rw [← swap16_swap16 v, h]
    rfl
  · rintro rfl
    rfl

theorem swap16_modEq (v : BitVec 16) : (swap16 v).toNat ≡ 256 * v.toNat [MOD 65535] := by
  rw [swap16_toNat]
  unfold Nat.ModEq
  omega

theorem swap32_modEq (v : BitVec 32) : (swap32 v).toNat ≡ 256 * v.toNat [MOD 65535] := by
  rw [swap32_toNat]
  unfold Nat.ModEq
  omega

/-- Twice 256 is one. -/
theorem mul_256_256_modEq (n : Nat) : 256 * (256 * n) ≡ n [MOD 65535] := by
  unfold Nat.ModEq
  omega

end OvsDatapath.Lib
