import Mathlib.Tactic

/-!
# Cells that are written once

A cell starts with a value that means it has not been written, and a write is refused if the cell has any
other value. That tells a second write from the first one, unless the first one has written the value that
means nothing: `writeOnce_eq_none_iff`.
-/

namespace OvsDatapath.Lib

variable {α : Type} [DecidableEq α] {zero cell : α} {l : List α}

/-- Writes into a cell, one after the other; nothing if one is refused. -/
def writeOnce (zero : α) : α → List α → Option α
  | cell, [] => some cell
  | cell, a :: l => if cell ≠ zero then none else writeOnce zero a l

/-- A write is refused exactly if some value in front of the last one shows. -/
theorem writeOnce_eq_none_iff : writeOnce zero cell l = none ↔ ∃ a ∈ (cell :: l).dropLast, a ≠ zero := by
  induction l generalizing cell with
  | nil => simp [writeOnce]
  | cons a l ih =>
      rw [writeOnce, List.dropLast_cons_of_ne_nil (List.cons_ne_nil a l)]
      simp only [List.mem_cons, exists_eq_or_imp]
      by_cases hcell : cell ≠ zero
      · rw [if_pos hcell]
        exact iff_of_true rfl (.inl hcell)
      · rw [if_neg hcell, ih]
        exact ⟨.inr, fun h => h.resolve_left hcell⟩

/-- Otherwise the cell has the last value. -/
theorem writeOnce_eq_some {a : α} (h : writeOnce zero cell l = some a) : a = l.getLastD cell := by
  induction l generalizing cell with
  | nil => exact (Option.some.inj h).symm
  | cons b l ih =>
      rw [writeOnce] at h
      split_ifs at h
      rw [ih h]
      cases l <;> rfl

end OvsDatapath.Lib
