import Mathlib.Tactic

/-!
# What is held

A program that acquires and releases objects leaves a log. `held` reads it: the objects that are held
at its end, or none if the program has released something that it did not hold, has acquired something
twice, or has taken for an object what is none (`stray`). A log is settled if everything that has been
acquired has been released, and that once.
-/

namespace OvsDatapath.Lib

/-- An entry of the log. -/
inductive Use (ρ : Type) where
  | acquire (r : ρ)
  | release (r : ρ)
  | stray
  deriving DecidableEq, Repr

variable {ρ : Type} [DecidableEq ρ]

/-- What is held after a log, from what is held before it. -/
def held : List (Use ρ) → List ρ → Option (List ρ)
  | [], h => some h
  | .acquire r :: log, h => if r ∈ h then none else held log (r :: h)
  | .release r :: log, h => if r ∈ h then held log (h.erase r) else none
  | .stray :: _, _ => none

/-- Everything acquired has been released once, and nothing else. -/
def AllReleased (log : List (Use ρ)) : Prop := held log [] = some []

instance (log : List (Use ρ)) : Decidable (AllReleased log) := inferInstanceAs (Decidable (_ = _))

theorem held_append (log log' : List (Use ρ)) (h : List ρ) :
    held (log ++ log') h = (held log h).bind (held log') := by
  induction log generalizing h with
  | nil => rfl
  | cons u log ih =>
      cases u with
      | stray => rfl
      | acquire r =>
          simp only [List.cons_append, held]
          split_ifs
          · rfl
          · exact ih _
      | release r =>
          simp only [List.cons_append, held]
          split_ifs
          · exact ih _
          · rfl

/-- Objects that are held can be released, in any order; the others stay. -/
theorem held_releases {rs hs h : List ρ} (hperm : h.Perm (rs ++ hs)) :
    ∃ h', held (rs.map .release) h = some h' ∧ h'.Perm hs := by
  induction rs generalizing h with
  | nil => exact ⟨h, rfl, hperm⟩
  | cons r rs ih =>
      have hmem : r ∈ h := hperm.mem_iff.mpr (by simp)
      have herase : (h.erase r).Perm (rs ++ hs) := by
        have := hperm.erase r
        rwa [List.cons_append, List.erase_cons_head] at this
      obtain ⟨h', hheld, hrest⟩ := ih herase
      refine ⟨h', ?_, hrest⟩
      show (if r ∈ h then held (rs.map .release) (h.erase r) else none) = some h'
      rw [if_pos hmem]
      exact hheld

/-- Objects are released in the order in which they are held. -/
theorem held_releases_append (rs h : List ρ) : held (rs.map .release) (rs ++ h) = some h := by
  induction rs with
  | nil => rfl
  | cons r rs ih =>
      show (if r ∈ r :: (rs ++ h) then held (rs.map .release) ((r :: (rs ++ h)).erase r) else none) = _
      rw [if_pos List.mem_cons_self, List.erase_cons_head]
      exact ih

/-- After what is not an object has been taken for one, the log is not settled. -/
theorem held_stray {log : List (Use ρ)} (hstray : .stray ∈ log) (h : List ρ) : held log h = none := by
  obtain ⟨log₁, log₂, rfl⟩ := List.append_of_mem hstray
  rw [held_append]
  cases held log₁ h with
  | none => rfl
  | some h₁ => rfl

end OvsDatapath.Lib
