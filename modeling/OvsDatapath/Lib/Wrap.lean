import Mathlib.Tactic

/-!
# Signed machine words

A signed integer type of a C program is modelled by `Int` together with the wraparound that its
arithmetic performs. `signed w x` is the value that a two's complement word of `w` bits holds
after `x` has been stored in it. A program that stays in range never notices the wraparound, and
`signed_eq_self` is the lemma that says so.
-/

namespace OvsDatapath.Lib

/-- The value of `x` in a two's complement word of `w` bits. -/
def signed (w : Nat) (x : Int) : Int := x.bmod (2 ^ w)

/-- `x` is a value of a two's complement word of `w` bits. -/
def InSigned (w : Nat) (x : Int) : Prop := -2 ^ (w - 1) ≤ x ∧ x < 2 ^ (w - 1)

theorem signed_eq_self {w : Nat} {x : Int} (hw : 0 < w) (hx : InSigned w x) : signed w x = x := by
  obtain ⟨k, rfl⟩ : ∃ k, w = k + 1 := ⟨w - 1, by omega⟩
  obtain ⟨hlo, hhi⟩ := hx
  simp only [Nat.add_sub_cancel] at hlo hhi
  have hpow : ((2 ^ (k + 1) : Nat) : Int) = 2 * 2 ^ k := by push_cast; ring
  exact Int.bmod_eq_of_le_mul_two (by omega) (by omega)

/-- The common case: a non-negative value below the sign bit. -/
theorem signed_eq_self_of_nonneg {w : Nat} {x : Int} (hw : 0 < w) (h0 : 0 ≤ x)
    (hx : x < 2 ^ (w - 1)) : signed w x = x := by
  have hpos : (0 : Int) < 2 ^ (w - 1) := by positivity
  exact signed_eq_self hw ⟨by omega, hx⟩

/-- The same for the two word sizes that programs use most. -/
theorem signed64_eq_self {x : Int} (h0 : 0 ≤ x) (hx : x < 2 ^ 63) : signed 64 x = x :=
  signed_eq_self_of_nonneg (by decide) h0 hx

theorem signed32_eq_self {x : Int} (h0 : 0 ≤ x) (hx : x < 2 ^ 31) : signed 32 x = x :=
  signed_eq_self_of_nonneg (by decide) h0 hx

/-- The same with a bound on the absolute value. -/
theorem signed_eq_self_of_abs {w : Nat} {x : Int} (hw : 0 < w) (hx : |x| < 2 ^ (w - 1)) :
    signed w x = x := by
  obtain ⟨hlo, hhi⟩ := abs_lt.mp hx
  exact signed_eq_self hw ⟨hlo.le, hhi⟩

/-- An intermediate store does not change the sum. -/
theorem signed_signed_add (w : Nat) (x y : Int) : signed w (signed w x + y) = signed w (x + y) :=
  Int.bmod_add_bmod

/-- The value of a word that was counted up from zero, as long as it has not come round. -/
theorem signed_eq_ite {w : Nat} {x : Int} (hw : 0 < w) (h0 : 0 ≤ x) (hx : x < 2 ^ w) :
    signed w x = if x < 2 ^ (w - 1) then x else x - 2 ^ w := by
  obtain ⟨k, rfl⟩ : ∃ k, w = k + 1 := ⟨w - 1, by omega⟩
  simp only [Nat.add_sub_cancel]
  split
  case isTrue hlt => exact signed_eq_self_of_nonneg hw h0 hlt
  case isFalse hge =>
    have hwrap : signed (k + 1) x = signed (k + 1) (x - 2 ^ (k + 1)) := by
      have := Int.sub_bmod_right x (2 ^ (k + 1))
      push_cast at this
      exact this.symm
    rw [hwrap]
    apply signed_eq_self hw
    simp only [InSigned, Nat.add_sub_cancel]
    omega

/-- A stored value is always a value of the word. -/
theorem inSigned_signed {w : Nat} (hw : 0 < w) (x : Int) : InSigned w (signed w x) := by
  obtain ⟨k, rfl⟩ : ∃ k, w = k + 1 := ⟨w - 1, by omega⟩
  have hpos : 0 < 2 ^ (k + 1) := by positivity
  have hpow : ((2 ^ (k + 1) : Nat) : Int) = 2 * 2 ^ k := by push_cast; ring
  have hlo : -(((2 ^ (k + 1) : Nat) : Int) / 2) ≤ signed (k + 1) x := Int.le_bmod hpos
  have hhi : signed (k + 1) x < (((2 ^ (k + 1) : Nat) : Int) + 1) / 2 := Int.bmod_lt hpos
  simp only [InSigned, Nat.add_sub_cancel]
  omega

end OvsDatapath.Lib
