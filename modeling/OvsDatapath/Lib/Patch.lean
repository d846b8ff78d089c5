import Mathlib.Tactic

/-!
# Patching a list

`patch l off new` is the list `l` with the elements from the position `off` on replaced by those of `new`. The
length stays: what of `new` would lie behind the end is lost.
-/

namespace OvsDatapath.Lib

variable {α : Type} {l new : List α} {off i n : Nat} {d : α}

/-- Elements of a list, replaced by others from a position on. -/
def patch (l : List α) (off : Nat) (new : List α) : List α :=
  l.mapIdx fun i a => if off ≤ i then new.getD (i - off) a else a

@[simp] theorem patch_length (l : List α) (off : Nat) (new : List α) : (patch l off new).length = l.length :=
  List.length_mapIdx

theorem patch_getElem? (l : List α) (off : Nat) (new : List α) (i : Nat) :
    (patch l off new)[i]? = l[i]?.map fun a => if off ≤ i then new.getD (i - off) a else a :=
  List.getElem?_mapIdx

/-- What is not covered stays. -/
theorem patch_getElem?_of_outside (h : i < off ∨ off + new.length ≤ i) : (patch l off new)[i]? = l[i]? := by
  have hsame : ∀ a, (if off ≤ i then new.getD (i - off) a else a) = a := by
    intro a
    split
    case isTrue hle =>
      rw [List.getD_eq_getElem?_getD, List.getElem?_eq_none (by omega)]
      rfl
    case isFalse => rfl
  rw [patch_getElem?]
  simp only [hsame, Option.map_id']

theorem patch_getD_of_outside (h : i < off ∨ off + new.length ≤ i) : (patch l off new).getD i d = l.getD i d := by
  rw [List.getD_eq_getElem?_getD, List.getD_eq_getElem?_getD, patch_getElem?_of_outside h]

theorem patch_getD_of_inside (hle : off ≤ i) (hlt : i - off < new.length) (hfit : i < l.length) :
    (patch l off new).getD i d = new.getD (i - off) d := by
  rw [List.getD_eq_getElem?_getD, patch_getElem?, List.getElem?_eq_getElem hfit, List.getD_eq_getElem?_getD,
    List.getElem?_eq_getElem hlt, Option.map_some, if_pos hle, List.getD_eq_getElem?_getD,
    List.getElem?_eq_getElem hlt]
  rfl

/-- The part behind the new elements. -/
theorem drop_patch (h : off + new.length ≤ n) : (patch l off new).drop n = l.drop n := by
  apply List.ext_getElem?
  intro i
  rw [List.getElem?_drop, List.getElem?_drop, patch_getElem?_of_outside (.inr (h.trans (Nat.le_add_right n i)))]

/-- The part in front of the new elements. -/
theorem take_patch (h : n ≤ off) : (patch l off new).take n = l.take n := by
  apply List.ext_getElem?
  intro i
  rw [List.getElem?_take, List.getElem?_take]
  split
  case isTrue hlt => rw [patch_getElem?_of_outside (.inl (by omega))]
  case isFalse => rfl

theorem patch_split (h : off + new.length ≤ l.length) :
    patch l off new = l.take off ++ (new ++ l.drop (off + new.length)) := by
  apply List.ext_getElem?
  intro i
  have htake : (l.take off).length = off := by
    rw [List.length_take]
    omega
  rw [List.getElem?_append, List.getElem?_append, htake]
  split_ifs with hbefore hin
  · rw [patch_getElem?_of_outside (Or.inl hbefore), List.getElem?_take, if_pos hbefore]
  · have hi : i < l.length := by omega
    rw [patch_getElem?, List.getElem?_eq_getElem hi, Option.map_some, if_pos (by omega),
      List.getD_eq_getElem?_getD, List.getElem?_eq_getElem hin, Option.getD_some]
  · rw [patch_getElem?_of_outside (Or.inr (by omega)), List.getElem?_drop]
    congr 1
    omega

/-- New elements in the place of as many others. -/
theorem patch_append (before old rest : List α) (h : new.length = old.length) :
    patch (before ++ (old ++ rest)) before.length new = before ++ (new ++ rest) := by
  have hdrop : (before ++ (old ++ rest)).drop (before.length + old.length) = rest := by
    rw [← List.append_assoc, ← List.length_append, List.drop_left]
  rw [patch_split (by rw [List.length_append, List.length_append]; omega), List.take_left, h, hdrop]

end OvsDatapath.Lib
