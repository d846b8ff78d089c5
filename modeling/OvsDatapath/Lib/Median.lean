import Mathlib.Tactic

/-!
# The median of a list of numbers

`middle` is what a program reads from an array that it takes to be sorted: the entry in the middle,
or half the sum of the two entries in the middle. `median` is the middle of the sorted list.

* `middle_eq_median`: a sorted rearrangement has the median in its middle.
* `middle_eq_of_perm`: up to two entries, so has any rearrangement.
* `exists_middle_ne_median`: from three entries on, two of which are three apart, some rearrangement
  has something else there.
-/

namespace OvsDatapath.Lib

/-- The middle entry, or half the sum of the two middle entries, rounded toward zero. -/
def middle (l : List Int) : Int :=
  if l.length % 2 = 0 then (l.getD (l.length / 2) 0 + l.getD (l.length / 2 - 1) 0).tdiv 2
  else l.getD ((l.length - 1) / 2) 0

/-- The middle of the sorted list. -/
def median (l : List Int) : Int := middle (l.mergeSort fun a b => decide (a ≤ b))

theorem middle_eq_median {l l' : List Int} (hperm : l'.Perm l) (hsorted : l'.Pairwise (· ≤ ·)) :
    middle l' = median l := by
  have hperm' : l'.Perm (l.mergeSort fun a b => decide (a ≤ b)) :=
    hperm.trans (List.mergeSort_perm l _).symm
  have heq := hperm'.eq_of_pairwise' hsorted (List.pairwise_mergeSort' (· ≤ ·) l)
  rw [median, ← heq]

/-- The middle of one or two entries does not depend on their order. -/
theorem middle_eq_of_perm {l l' : List Int} (hperm : l'.Perm l) (hlen : l.length ≤ 2) :
    middle l' = middle l := by
  match l, hlen with
  | [], _ => rw [hperm.eq_nil]
  | [a], _ => rw [List.perm_singleton.mp hperm]
  | [a, b], _ =>
      rcases List.perm_pair.mp hperm with rfl | rfl
      · rfl
      · simp [middle, add_comm]

/-! ## Rearrangements with a given middle -/

/-- `t` in between, after `k` entries of `s`. -/
def insertAt (s t : List Int) (k : Nat) : List Int := s.take k ++ (t ++ s.drop k)

theorem insertAt_perm (s t : List Int) (k : Nat) : (insertAt s t k).Perm (t ++ s) := by
  have hsplit : (s.take k ++ (t ++ s.drop k)).Perm (t ++ (s.take k ++ s.drop k)) := by
    rw [← List.append_assoc, ← List.append_assoc]
    exact List.perm_append_comm.append_right _
  rwa [List.take_append_drop] at hsplit

theorem insertAt_getD {s t : List Int} {k i : Nat} (hk : k ≤ s.length) (hi : i < t.length) :
    (insertAt s t k).getD (k + i) 0 = t.getD i 0 := by
  have hlen : (s.take k).length = k := List.length_take_of_le hk
  rw [insertAt, List.getD_eq_getElem?_getD, List.getElem?_append_right (by omega), hlen,
    Nat.add_sub_cancel_left, List.getElem?_append_left hi, ← List.getD_eq_getElem?_getD]

/-- An odd number of entries: any of them can be brought to the middle. -/
theorem exists_middle_eq_of_odd (x : Int) {s : List Int} (hodd : s.length % 2 = 0) :
    ∃ l', l'.Perm (x :: s) ∧ middle l' = x := by
  refine ⟨insertAt s [x] (s.length / 2), insertAt_perm s [x] _, ?_⟩
  have hlen : (insertAt s [x] (s.length / 2)).length = s.length + 1 := by
    rw [(insertAt_perm s [x] _).length_eq]
    rfl
  have hget := insertAt_getD (s := s) (t := [x]) (k := s.length / 2) (i := 0) (by omega) (by simp)
  rw [middle, hlen, if_neg (by omega), Nat.add_sub_cancel]
  exact hget

/-- An even number: so can any two of them. -/
theorem exists_middle_eq_of_even (x z : Int) {s : List Int} (heven : s.length % 2 = 0) :
    ∃ l', l'.Perm (z :: x :: s) ∧ middle l' = (x + z).tdiv 2 := by
  refine ⟨insertAt s [z, x] (s.length / 2), insertAt_perm s [z, x] _, ?_⟩
  have hlen : (insertAt s [z, x] (s.length / 2)).length = s.length + 2 := by
    rw [(insertAt_perm s [z, x] _).length_eq]
    rfl
  have hupper := insertAt_getD (s := s) (t := [z, x]) (k := s.length / 2) (i := 1) (by omega) (by simp)
  have hlower := insertAt_getD (s := s) (t := [z, x]) (k := s.length / 2) (i := 0) (by omega) (by simp)
  have hhalf : (s.length + 2) / 2 = s.length / 2 + 1 := by omega
  rw [middle, hlen, if_pos (by omega), hhalf, Nat.add_sub_cancel]
  rw [Nat.add_zero] at hlower
  rw [hupper, hlower]
  rfl

/-- Halving brings no two numbers together that are three apart. -/
theorem tdiv_two_ne {a b : Int} (hfar : 3 ≤ |a - b|) : a.tdiv 2 ≠ b.tdiv 2 := by
  intro heq
  have ha := Int.mul_tdiv_add_tmod a 2
  have hb := Int.mul_tdiv_add_tmod b 2
  have hahi := Int.tmod_lt_of_pos a (show (0 : Int) < 2 by decide)
  have hbhi := Int.tmod_lt_of_pos b (show (0 : Int) < 2 by decide)
  have halo := Int.lt_tmod_of_pos a (show (0 : Int) < 2 by decide)
  have hblo := Int.lt_tmod_of_pos b (show (0 : Int) < 2 by decide)
  rw [heq] at ha
  rcases abs_cases (a - b) with ⟨habs, -⟩ | ⟨habs, -⟩ <;> omega

/-- **Three entries or more** of which two are three apart can be put in an order whose middle is
not the median. -/
theorem exists_middle_ne_median {l : List Int} (hlen : 3 ≤ l.length) {x y : Int} (hx : x ∈ l)
    (hy : y ∈ l) (hfar : 3 ≤ |x - y|) : ∃ l', l'.Perm l ∧ middle l' ≠ median l := by
  have hxy : y ≠ x := by
    rintro rfl
    simp at hfar
  obtain ⟨s, hs⟩ : ∃ s, l.Perm (x :: y :: s) := by
    refine ⟨(l.erase x).erase y, ?_⟩
    have hy' : y ∈ l.erase x := (List.mem_erase_of_ne hxy).mpr hy
    exact (List.perm_cons_erase hx).trans ((List.perm_cons_erase hy').cons x)
  have hslen : l.length = s.length + 2 := hs.length_eq
  -- two orders with different middles: one of them is wrong
  suffices htwo : ∃ l₁ l₂, l₁.Perm l ∧ l₂.Perm l ∧ middle l₁ ≠ middle l₂ by
    obtain ⟨l₁, l₂, h₁, h₂, hne⟩ := htwo
    by_cases hmid : middle l₁ = median l
    · exact ⟨l₂, h₂, fun hmid₂ => hne (hmid.trans hmid₂.symm)⟩
    · exact ⟨l₁, h₁, hmid⟩
  rcases Nat.mod_two_eq_zero_or_one s.length with hpar | hpar
  · -- `l` is even, and a third entry stands beside `x` or `y`
    match s, hslen with
    | [], hslen => simp at hslen; omega
    | z :: s, hslen =>
        obtain ⟨l₁, h₁, hmid₁⟩ := exists_middle_eq_of_even x z (s := y :: s)
          (by rw [List.length_cons]; omega)
        obtain ⟨l₂, h₂, hmid₂⟩ := exists_middle_eq_of_even y z (s := x :: s)
          (by rw [List.length_cons]; omega)
        refine ⟨l₁, l₂, ?_, ?_, ?_⟩
        · refine h₁.trans (List.Perm.trans ?_ hs.symm)
          exact (List.Perm.swap x z _).trans ((List.Perm.swap y z s).cons x)
        · refine h₂.trans (List.Perm.trans ?_ hs.symm)
          refine (List.Perm.swap y z _).trans (((List.Perm.swap x z s).cons y).trans ?_)
          exact List.Perm.swap x y _
        · rw [hmid₁, hmid₂]
          apply tdiv_two_ne
          rwa [add_sub_add_right_eq_sub]
  · obtain ⟨l₁, h₁, hmid₁⟩ := exists_middle_eq_of_odd x (s := y :: s)
      (by rw [List.length_cons]; omega)
    obtain ⟨l₂, h₂, hmid₂⟩ := exists_middle_eq_of_odd y (s := x :: s)
      (by rw [List.length_cons]; omega)
    refine ⟨l₁, l₂, h₁.trans hs.symm, (h₂.trans (List.Perm.swap x y s)).trans hs.symm, ?_⟩
    rw [hmid₁, hmid₂]
    exact hxy.symm

end OvsDatapath.Lib
