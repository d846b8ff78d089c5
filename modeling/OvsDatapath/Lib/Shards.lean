import Mathlib.Tactic

/-!
# Sums that are split over cells

A counter that several parties add to is kept in cells, and read by adding up the cells. `total` is
what a reader of some of the cells gets. Adding to one cell adds to the total, provided that the reader
comes across that cell once (`total_update`).
-/

namespace OvsDatapath.Lib

variable {ι M : Type} [AddCommMonoid M]

/-- The sum of the cells at some indices. -/
def total (cell : ι → M) (l : List ι) : M := (l.map cell).sum

variable {cell cell' : ι → M} {l : List ι}

@[simp] theorem total_nil (cell : ι → M) : total cell [] = 0 := rfl

@[simp] theorem total_cons (cell : ι → M) (i : ι) (l : List ι) :
    total cell (i :: l) = cell i + total cell l := by
  unfold total
  rw [List.map_cons, List.sum_cons]

theorem total_congr (h : ∀ i ∈ l, cell' i = cell i) : total cell' l = total cell l := by
  unfold total
  rw [List.map_congr_left h]

theorem total_eq_zero (h : ∀ i ∈ l, cell i = 0) : total cell l = 0 := by
  induction l with
  | nil => rfl
  | cons i l ih =>
      rw [total_cons, h i List.mem_cons_self, ih fun j hj => h j (List.mem_cons_of_mem _ hj), zero_add]

variable [DecidableEq ι]

/-- **Adding to one cell adds to the total.** -/
theorem total_update (hnodup : l.Nodup) {i : ι} (hi : i ∈ l) (d : M) :
    total (Function.update cell i (cell i + d)) l = total cell l + d := by
  induction l with
  | nil => cases hi
  | cons j l ih =>
      obtain ⟨hj, hnodup⟩ := List.nodup_cons.mp hnodup
      rw [total_cons, total_cons]
      rcases eq_or_ne j i with rfl | hne
      · have hrest : total (Function.update cell j (cell j + d)) l = total cell l := by
          refine total_congr fun k hk => Function.update_of_ne ?_ ..
          rintro rfl
          exact hj hk
        rw [Function.update_self, hrest, add_right_comm]
      · have hi' : i ∈ l := (List.mem_cons.mp hi).resolve_left hne.symm
        rw [Function.update_of_ne hne, ih hnodup hi', add_assoc]

/-- Another value in one cell: what was there goes out of the total, and the other value comes in. -/
theorem total_replace (hnodup : l.Nodup) {i : ι} (hi : i ∈ l) (x : M) :
    total (Function.update cell i x) l + cell i = total cell l + x := by
  have hadd (d : M) : total (Function.update cell i d) l = total (Function.update cell i 0) l + d := by
    have h : total _ l = total (Function.update cell i 0) l + d := total_update hnodup hi d
    rwa [Function.update_self, zero_add, Function.update_idem] at h
  have hbefore := hadd (cell i)
  rw [Function.update_eq_self] at hbefore
  rw [hbefore, hadd x, add_right_comm]

end OvsDatapath.Lib
