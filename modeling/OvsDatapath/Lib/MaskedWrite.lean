import Mathlib.Tactic

/-!
# Writing fields under masks

Memory is a function from addresses to bytes. A field is a run of bytes in it with a value and a mask:
writing it replaces the bits of the mask and keeps the others.

`FieldsWritten fields stray old new` says that `new` is `old` with some fields written, where the bytes of
`stray` may have changed to anything. `FieldsWritten.cons` puts one field after the other, if the fields
do not overlap and nothing that goes astray hits one of them.
-/

namespace OvsDatapath.Lib

/-! ## Bits -/

section Bits

variable {w : Nat} {old value mask : BitVec w}

/-- The bits of the mask are those of the value, the others stay. -/
def maskedBits (old value mask : BitVec w) : BitVec w := (value &&& mask) ||| (old &&& ~~~mask)

/-- With an empty mask everything stays. -/
@[simp] theorem maskedBits_zero (old value : BitVec w) : maskedBits old value 0 = old := by
  simp [maskedBits]

/-- A value within the mask need not be masked. -/
theorem or_eq_maskedBits (old : BitVec w) (h : value &&& ~~~mask = 0) :
    value ||| (old &&& ~~~mask) = maskedBits old value mask := by
  have hvalue : value &&& mask = value := by
    calc value &&& mask = (value &&& mask) ||| (value &&& ~~~mask) := by rw [h]; exact BitVec.or_zero.symm
      _ = value &&& (mask ||| ~~~mask) := BitVec.and_or_distrib_left.symm
      _ = value := by rw [BitVec.or_not_self, BitVec.and_allOnes]
  rw [maskedBits, hvalue]

/-- A value that is not masked does no harm if the bits outside the mask are set anyway. -/
theorem or_eq_maskedBits_iff :
    value ||| (old &&& ~~~mask) = maskedBits old value mask ↔ value &&& ~~~mask &&& ~~~old = 0 := by
  rw [BitVec.eq_of_getLsbD_eq_iff, BitVec.eq_of_getLsbD_eq_iff]
  refine forall₂_congr fun i hi => ?_
  simp only [maskedBits, BitVec.getLsbD_or, BitVec.getLsbD_and, BitVec.getLsbD_not, hi]
  cases value.getLsbD i <;> cases mask.getLsbD i <;> cases old.getLsbD i <;> simp

/-- A value that is not masked and flips the bits outside the mask does harm if it has any. -/
theorem xor_eq_maskedBits_iff :
    (old &&& ~~~mask) ^^^ value = maskedBits old value mask ↔ value &&& ~~~mask = 0 := by
  rw [BitVec.eq_of_getLsbD_eq_iff, BitVec.eq_of_getLsbD_eq_iff]
  refine forall₂_congr fun i hi => ?_
  simp only [maskedBits, BitVec.getLsbD_or, BitVec.getLsbD_xor, BitVec.getLsbD_and, BitVec.getLsbD_not, hi]
  cases value.getLsbD i <;> cases mask.getLsbD i <;> cases old.getLsbD i <;> simp

theorem maskedBits_getLsbD (i : Nat) : (maskedBits old value mask).getLsbD i =
    if mask.getLsbD i then value.getLsbD i else old.getLsbD i := by
  unfold maskedBits
  rw [BitVec.getLsbD_or, BitVec.getLsbD_and, BitVec.getLsbD_and, BitVec.getLsbD_not]
  cases hmask : mask.getLsbD i with
  | true => simp
  | false =>
      have hold : ¬ i < w → old.getLsbD i = false := fun h => BitVec.getLsbD_of_ge _ _ (Nat.not_lt.mp h)
      by_cases hi : i < w <;> simp [hi, hold]

/-- Writing under one mask and then under another that is disjoint from it. -/
theorem maskedBits_maskedBits {value' mask' : BitVec w} (hvalue : value &&& ~~~mask = 0)
    (hvalue' : value' &&& ~~~mask' = 0) (hdisjoint : mask &&& mask' = 0) :
    maskedBits (maskedBits old value mask) value' mask' = maskedBits old (value ||| value') (mask ||| mask') := by
  apply BitVec.eq_of_getLsbD_eq
  intro i hi
  have hv := congrArg (BitVec.getLsbD · i) hvalue
  have hv' := congrArg (BitVec.getLsbD · i) hvalue'
  have hd := congrArg (BitVec.getLsbD · i) hdisjoint
  simp only [BitVec.getLsbD_and, BitVec.getLsbD_not, hi, decide_true, Bool.true_and] at hv hv' hd
  rw [maskedBits_getLsbD, maskedBits_getLsbD, maskedBits_getLsbD, BitVec.getLsbD_or, BitVec.getLsbD_or]
  cases hm : mask.getLsbD i <;> cases hm' : mask'.getLsbD i <;> simp_all

end Bits

/-! ## Fields -/

/-- A run of bytes, with a value and a mask. -/
structure MaskedField where
  off : Nat
  value : List (BitVec 8)
  mask : List (BitVec 8)

namespace MaskedField

/-- The byte belongs to the field. -/
def Covers (f : MaskedField) (j : Nat) : Prop := f.off ≤ j ∧ j < f.off + f.value.length

instance (f : MaskedField) (j : Nat) : Decidable (f.Covers j) := inferInstanceAs (Decidable (_ ∧ _))

/-- What a byte of the field becomes. -/
def byte (f : MaskedField) (old : BitVec 8) (j : Nat) : BitVec 8 :=
  maskedBits old (f.value.getD (j - f.off) 0) (f.mask.getD (j - f.off) 0)

end MaskedField

variable {fields rest : List MaskedField} {f : MaskedField} {stray stray' : Nat → Prop}
variable {old mid new : Nat → BitVec 8}

/-- The fields have been written, and nothing else has changed except what may go astray. -/
structure FieldsWritten (fields : List MaskedField) (stray : Nat → Prop) (old new : Nat → BitVec 8) : Prop where
  written : ∀ f ∈ fields, ∀ j, f.Covers j → new j = f.byte (old j) j
  frame : ∀ j, (∀ f ∈ fields, ¬ f.Covers j) → ¬ stray j → new j = old j

/-- Nothing to write. -/
theorem FieldsWritten.nil (h : ∀ j, ¬ stray j → new j = old j) : FieldsWritten [] stray old new :=
  ⟨nofun, fun j _ => h j⟩

/-- One field is written, and then the others. -/
theorem FieldsWritten.cons (hfirst : FieldsWritten [f] stray old mid) (hrest : FieldsWritten rest stray mid new)
    (hdisjoint : ∀ g ∈ rest, ∀ j, f.Covers j → ¬ g.Covers j) (hstray : ∀ j, f.Covers j → ¬ stray j)
    (hstrays : ∀ g ∈ rest, ∀ j, g.Covers j → ¬ stray j) : FieldsWritten (f :: rest) stray old new := by
  have hfirst' := hfirst.written f List.mem_cons_self
  constructor
  · intro g hg j hj
    rcases List.mem_cons.mp hg with rfl | hg
    · rw [hrest.frame j (fun g' hg' => hdisjoint g' hg' j hj) (hstray j hj)]
      exact hfirst' j hj
    · have hold : mid j = old j := by
        apply hfirst.frame j
        · intro f' hf' hcovers
          rw [List.mem_singleton.mp hf'] at hcovers
          exact hdisjoint g hg j hcovers hj
        · exact hstrays g hg j hj
      rw [hrest.written g hg j hj, hold]
  · intro j hnone hnot
    have hf : ¬ f.Covers j := hnone f List.mem_cons_self
    rw [hrest.frame j (fun g hg => hnone g (List.mem_cons_of_mem _ hg)) hnot]
    apply hfirst.frame j _ hnot
    intro f' hf'
    rw [List.mem_singleton.mp hf']
    exact hf

/-- More may go astray. -/
theorem FieldsWritten.mono (h : FieldsWritten fields stray old new) (hle : ∀ j, stray j → stray' j) :
    FieldsWritten fields stray' old new :=
  ⟨h.written, fun j hnone hnot => h.frame j hnone fun hstray => hnot (hle j hstray)⟩

/-- Less has gone astray if the bytes in question have been kept. -/
theorem FieldsWritten.strengthen_iff (h : FieldsWritten fields stray' old new) :
    FieldsWritten fields stray old new ↔
      ∀ j, stray' j → ¬ stray j → (∀ f ∈ fields, ¬ f.Covers j) → new j = old j := by
  constructor
  · exact fun hall j _ hnot hnone => hall.frame j hnone hnot
  · refine fun hkept => ⟨h.written, fun j hnone hnot => ?_⟩
    by_cases hstray : stray' j
    · exact hkept j hstray hnot hnone
    · exact h.frame j hnone hstray

end OvsDatapath.Lib
