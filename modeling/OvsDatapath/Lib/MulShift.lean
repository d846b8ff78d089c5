import Mathlib.Tactic
import Mathlib.Data.Nat.Size

/-!
# Division by multiplying and shifting

A number below `2 ^ w` is divided by `d` without a division: it is multiplied by a rounded-up reciprocal
`N / d + 1` and divided by the power of two `N`. `mul_recip_div` says when that is exact.

The reciprocal has `w + 1` bits. `mulShift_recip` is the way around the top bit: multiply by the rest of
it, average with the number, and shift again.
-/

namespace OvsDatapath.Lib

variable {d l w x N : Nat}

/-- **A product with the rounded-up reciprocal is exact**, as long as the rounding does not add up to
a whole `N`. -/
theorem mul_recip_div (hd : 0 < d) (h : d * x < N) : x * (N / d + 1) / N = x / d := by
  have hlow : d * (N / d) ≤ N := Nat.mul_div_le N d
  have hhigh : N < d * (N / d + 1) := Nat.lt_mul_div_succ N hd
  have hq : d * (x / d) ≤ x := Nat.mul_div_le x d
  have hxq : x < d * (x / d + 1) := Nat.lt_mul_div_succ x hd
  apply Nat.div_eq_of_lt_le
  · calc x / d * N ≤ x / d * (d * (N / d + 1)) := Nat.mul_le_mul_left _ hhigh.le
      _ = d * (x / d) * (N / d + 1) := by ring
      _ ≤ x * (N / d + 1) := Nat.mul_le_mul_right _ hq
  · apply Nat.lt_of_mul_lt_mul_left (a := d)
    calc d * (x * (N / d + 1)) = x * (d * (N / d)) + d * x := by ring
      _ ≤ x * N + d * x := Nat.add_le_add_right (Nat.mul_le_mul_left x hlow) _
      _ < x * N + N := Nat.add_lt_add_left h _
      _ = (x + 1) * N := by ring
      _ ≤ d * (x / d + 1) * N := Nat.mul_le_mul_right N hxq
      _ = d * ((x / d + 1) * N) := by ring

/-- The reciprocal without its top bit. -/
def recip (w l d : Nat) : Nat := 2 ^ w * (2 ^ l - d) / d + 1

theorem recip_add (hd : 0 < d) (hl : d ≤ 2 ^ l) : recip w l d + 2 ^ w = 2 ^ w * 2 ^ l / d + 1 := by
  have hsplit : 2 ^ w * 2 ^ l = 2 ^ w * (2 ^ l - d) + 2 ^ w * d := by
    rw [← Nat.mul_add, Nat.sub_add_cancel hl]
  rw [hsplit, Nat.add_mul_div_right _ _ hd, recip]
  omega

/-- It fits into `w` bits if the power of two is less than twice the divisor. -/
theorem recip_lt (hw : d < 2 * 2 ^ w) (hl : 2 ^ l - d + 2 ≤ d) : recip w l d < 2 ^ w := by
  have hd : 0 < d := by omega
  have hpos : 0 < 2 ^ w := Nat.two_pow_pos w
  have hrest : 2 ^ w * (2 ^ l - d) + 2 ^ w * 2 ≤ 2 ^ w * d := by
    rw [← Nat.mul_add]
    exact Nat.mul_le_mul_left _ hl
  have hdiv : 2 ^ w * (2 ^ l - d) / d < 2 ^ w - 1 := by
    rw [Nat.div_lt_iff_lt_mul hd, Nat.sub_mul]
    omega
  unfold recip
  omega

/-- The two shifts: the average of the product and the number, and the rest of the division. -/
def mulShift (w l m x : Nat) : Nat :=
  let t := x * m / 2 ^ w
  (t + (x - t) / 2 ^ min l 1) / 2 ^ (l - 1)

/-- Nothing in it is greater than the number. -/
theorem mul_div_pow_le {m : Nat} (hm : m ≤ 2 ^ w) (x : Nat) : x * m / 2 ^ w ≤ x := by
  apply Nat.div_le_of_le_mul
  rw [Nat.mul_comm]
  exact Nat.mul_le_mul_right x hm

/-- **Multiplying and shifting divides.** -/
theorem mulShift_recip (hd : 0 < d) (hl : d ≤ 2 ^ l) (hm : recip w l d ≤ 2 ^ w) (hx : x < 2 ^ w) :
    mulShift w l (recip w l d) x = x / d := by
  have ht := mul_div_pow_le hm x
  unfold mulShift
  cases l with
  | zero =>
      -- the divisor is one
      obtain rfl : d = 1 := by
        rw [Nat.pow_zero] at hl
        omega
      simp [recip, Nat.div_eq_of_lt hx]
  | succ l =>
      have haverage : x * recip w (l + 1) d / 2 ^ w + (x - x * recip w (l + 1) d / 2 ^ w) / 2 ^ min (l + 1) 1 =
          (x * recip w (l + 1) d / 2 ^ w + x) / 2 := by
        rw [Nat.min_eq_right (Nat.le_add_left 1 l)]
        omega
      have hsum : x * recip w (l + 1) d / 2 ^ w + x = x * (2 ^ w * 2 ^ (l + 1) / d + 1) / 2 ^ w := by
        rw [← recip_add hd hl, Nat.mul_add, Nat.add_mul_div_right _ _ (Nat.two_pow_pos w)]
      have hlt : d * x < 2 ^ w * 2 ^ (l + 1) := by
        calc d * x ≤ 2 ^ (l + 1) * x := Nat.mul_le_mul_right x hl
          _ < 2 ^ (l + 1) * 2 ^ w := Nat.mul_lt_mul_of_pos_left hx (Nat.two_pow_pos _)
          _ = 2 ^ w * 2 ^ (l + 1) := Nat.mul_comm ..
      dsimp only
      rw [haverage, hsum, Nat.add_sub_cancel, Nat.div_div_eq_div_mul, Nat.div_div_eq_div_mul,
        ← Nat.pow_succ', mul_recip_div hd hlt]

end OvsDatapath.Lib
