import Mathlib.Tactic

/-!
# Loops over a list

A search by a key finds the member that has it, if keys are different (`find?_key`).

A loop may keep the best value seen so far in a local variable. The maximum starts from a given
value. The minimum starts from the sentinel `-1`, which any negative best value counts as, so it
is only sound for non-negative values: `minStep_foldl` says that it then computes the minimum of
the list, and that it still holds the sentinel exactly when the list was empty.
-/

namespace OvsDatapath.Lib.Scan

variable {α : Type}

/-! ## Search by a key -/

/-- A list whose keys are different is searched for the key of a member. -/
theorem find?_key {β : Type} [DecidableEq β] {key : α → β} {l : List α}
    (hnodup : (l.map key).Nodup) {x : α} (hx : x ∈ l) :
    (l.find? fun y => key y == key x) = some x := by
  induction l with
  | nil => cases hx
  | cons y rest ih =>
      rw [List.map_cons, List.nodup_cons] at hnodup
      rcases List.mem_cons.mp hx with rfl | hrest
      · simp
      · have hne : key y ≠ key x := fun heq => hnodup.1 (heq ▸ List.mem_map_of_mem hrest)
        rw [List.find?_cons_of_neg (by simpa using hne)]
        exact ih hnodup.2 hrest

/-! ## Maximum -/

/-- A running maximum is at least its start and at least every element it has seen. -/
theorem le_foldl_max (f : α → Int) (l : List α) (m : Int) :
    m ≤ l.foldl (fun max x => if f x > max then f x else max) m ∧
      ∀ x ∈ l, f x ≤ l.foldl (fun max x => if f x > max then f x else max) m := by
  induction l generalizing m with
  | nil => simp
  | cons x l ih =>
      obtain ⟨hstart, hmem⟩ := ih (if f x > m then f x else m)
      have hm : m ≤ (if f x > m then f x else m) ∧ f x ≤ (if f x > m then f x else m) := by
        split <;> omega
      refine ⟨hm.1.trans hstart, fun y hy => ?_⟩
      rcases List.mem_cons.mp hy with rfl | hy
      · exact hm.2.trans hstart
      · exact hmem y hy

/-- A running maximum exceeds no common bound. -/
theorem foldl_max_le (f : α → Int) {l : List α} {m b : Int} (hm : m ≤ b)
    (hl : ∀ x ∈ l, f x ≤ b) : l.foldl (fun max x => if f x > max then f x else max) m ≤ b := by
  induction l generalizing m with
  | nil => exact hm
  | cons x l ih =>
      have hx := hl x (List.mem_cons_self ..)
      have hnext : (if f x > m then f x else m) ≤ b := by split <;> omega
      exact ih hnext fun y hy => hl y (List.mem_cons_of_mem _ hy)

/-! ## Minimum with a sentinel -/

/-- One step of the minimum: a negative best value means that nothing was seen yet. -/
def minStep (best x : Int) : Int := if x < best ∨ best < 0 then x else best

/-- The best value of a list of non-negative values, after a best value that is either the
sentinel or a value itself. -/
theorem minStep_foldl_of_nonneg {l : List Int} (hl : ∀ x ∈ l, 0 ≤ x) {m : Int} (hm : 0 ≤ m) :
    l.foldl minStep m = l.foldl min m := by
  induction l generalizing m with
  | nil => rfl
  | cons x l ih =>
      have hx := hl x (List.mem_cons_self ..)
      have hstep : minStep m x = min m x := by
        unfold minStep
        by_cases h : x < m
        · rw [if_pos (Or.inl h), min_eq_right h.le]
        · rw [if_neg (by omega), min_eq_left (by omega)]
      rw [List.foldl_cons, List.foldl_cons, hstep]
      exact ih (fun y hy => hl y (List.mem_cons_of_mem _ hy)) (by omega)

/-- **The sentinel is never mistaken for a value.** On a list of non-negative values the loop ends
with the minimum of the list, and with the sentinel if the list is empty. -/
theorem minStep_foldl {l : List Int} (hl : ∀ x ∈ l, 0 ≤ x) :
    l.foldl minStep (-1) = l.min?.getD (-1) := by
  cases l with
  | nil => rfl
  | cons x l =>
      have hx := hl x (List.mem_cons_self ..)
      have hstart : minStep (-1) x = x := if_pos (Or.inr (by omega))
      rw [List.foldl_cons, hstart, minStep_foldl_of_nonneg
        (fun y hy => hl y (List.mem_cons_of_mem _ hy)) hx]
      rfl

/-- Adding one value everywhere adds it to the minimum. -/
theorem min?_map_add (l : List Int) (v : Int) : (l.map (· + v)).min? = l.min?.map (· + v) := by
  cases l with
  | nil => rfl
  | cons x l =>
      simp only [List.map_cons, List.min?_cons', Option.map_some, Option.some.injEq]
      induction l generalizing x with
      | nil => rfl
      | cons y l ih =>
          have hmin : min (x + v) (y + v) = min x y + v := by omega
          rw [List.map_cons, List.foldl_cons, List.foldl_cons, hmin, ih]

end OvsDatapath.Lib.Scan
