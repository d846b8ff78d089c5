import Mathlib.Tactic

/-!
# Sequences of records

A record begins with a header of fixed length, and the header tells how long the record is. A sequence of
records has nothing else to tell where one ends and the next begins. `F.Tiles l rs` says that the list `l` is
made of the records `rs`, without a gap and without a rest.

A list that is not empty is tiled only if there is a header and all of the record that it announces, and then
the first record is determined (`tiles_iff`). That is one round of a parser's loop.
-/

namespace OvsDatapath.Lib

variable {α : Type}

/-- What a record looks like: the length of its header, and its own length, header included. -/
structure RecordFormat (α : Type) where
  header : Nat
  size : List α → Nat
  header_pos : 0 < header
  header_le (l : List α) : header ≤ size l
  size_append (r l : List α) : header ≤ r.length → size (r ++ l) = size r

namespace RecordFormat

variable {F : RecordFormat α} {l r rest : List α} {rs rs' : List (List α)}

/-- The list is as long as its header says. -/
def IsRecord (F : RecordFormat α) (r : List α) : Prop := r.length = F.size r

/-- The list consists of these records. -/
def Tiles (F : RecordFormat α) (l : List α) (rs : List (List α)) : Prop :=
  (∀ r ∈ rs, F.IsRecord r) ∧ rs.flatten = l

theorem size_pos (F : RecordFormat α) (l : List α) : 0 < F.size l := F.header_pos.trans_le (F.header_le l)

theorem IsRecord.header_le_length (h : F.IsRecord r) : F.header ≤ r.length := h.symm ▸ F.header_le r

theorem IsRecord.size_append (h : F.IsRecord r) (rest : List α) : F.size (r ++ rest) = r.length := by
  rw [F.size_append r rest h.header_le_length]
  exact h.symm

theorem IsRecord.ne_nil (h : F.IsRecord r) : r ≠ [] := by
  apply List.ne_nil_of_length_pos
  exact F.header_pos.trans_le h.header_le_length

/-- The record that a list begins with, if it is all there. -/
theorem isRecord_take (hsize : F.size l ≤ l.length) : F.IsRecord (l.take (F.size l)) := by
  have hlength : (l.take (F.size l)).length = F.size l := by
    rw [List.length_take, Nat.min_eq_left hsize]
  have hhead : F.header ≤ (l.take (F.size l)).length := by
    rw [hlength]
    exact F.header_le l
  have hsame := F.size_append _ (l.drop (F.size l)) hhead
  rw [List.take_append_drop] at hsame
  rw [IsRecord, hlength]
  exact hsame

theorem tiles_nil_iff : F.Tiles [] rs ↔ rs = [] := by
  constructor
  · rintro ⟨hrecords, hflatten⟩
    cases rs with
    | nil => rfl
    | cons r rs =>
        rw [List.flatten_cons, List.append_eq_nil_iff] at hflatten
        exact absurd hflatten.1 (hrecords r List.mem_cons_self).ne_nil
  · rintro rfl
    exact ⟨nofun, rfl⟩

/-- **One record after the other**: the first one is determined by its header. -/
theorem tiles_iff (hl : l ≠ []) :
    F.Tiles l rs ↔ F.header ≤ l.length ∧ F.size l ≤ l.length ∧
      ∃ rs', rs = l.take (F.size l) :: rs' ∧ F.Tiles (l.drop (F.size l)) rs' := by
  constructor
  · rintro ⟨hrecords, rfl⟩
    cases rs with
    | nil => exact absurd rfl hl
    | cons r rs =>
        rw [List.forall_mem_cons] at hrecords
        have hsize : F.size (r :: rs).flatten = r.length := hrecords.1.size_append rs.flatten
        have hle : r.length ≤ (r :: rs).flatten.length := by simp
        refine ⟨hrecords.1.header_le_length.trans hle, hsize ▸ hle, rs, ?_, hrecords.2, ?_⟩
        · rw [hsize, List.flatten_cons, List.take_left]
        · rw [hsize, List.flatten_cons, List.drop_left]
  · rintro ⟨hheader, hsize, rs', rfl, hrecords, hflatten⟩
    refine ⟨List.forall_mem_cons.mpr ⟨isRecord_take hsize, hrecords⟩, ?_⟩
    rw [List.flatten_cons, hflatten, List.take_append_drop]

/-- A list has no more than one tiling. -/
theorem Tiles.unique (h : F.Tiles l rs) (h' : F.Tiles l rs') : rs = rs' := by
  induction rs generalizing l rs' with
  | nil =>
      obtain rfl : [] = l := h.2
      exact (tiles_nil_iff.mp h').symm
  | cons r rs ih =>
      have hl : l ≠ [] := by
        rintro rfl
        cases tiles_nil_iff.mp h
      obtain ⟨-, -, rest, hrest, htiles⟩ := (tiles_iff hl).mp h
      obtain ⟨-, -, rest', rfl, htiles'⟩ := (tiles_iff hl).mp h'
      obtain ⟨rfl, rfl⟩ := List.cons.inj hrest
      rw [ih htiles htiles']

end RecordFormat

end OvsDatapath.Lib
