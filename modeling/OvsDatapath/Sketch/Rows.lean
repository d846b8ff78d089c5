import Mathlib.Data.Nat.Bitwise
import OvsDatapath.Sketch.Countmax
import OvsDatapath.Sketch.Countmin
import OvsDatapath.Sketch.Countsketch

/-!
# What the rows of a sketch tell apart

A sketch keeps several rows so that two keys that share a column in one row have a chance of being
apart in another. The three sketches draw, or mean to draw, a random mask for each row. What the
masks are worth is settled here for all pairs of keys (`rowsSeparate_iff`).

* A line of the count-max sketch draws a mask and never reads it. All lines have one column
  function.
* A row of the count-min sketch xors its mask into the hash, but every mask is the address of
  `rand_uint32`. Again all rows have one column function.
* The count sketch uses its masks. They separate all keys whose hashes differ, unless the width is
  a power of two: then they permute the columns and separate nothing.

None of the hashes reads the protocol, so no sketch ever separates two keys that differ in it alone.
-/

namespace OvsDatapath.Sketch

open OvsDatapath.Lib

/-! ## Masks and columns -/

/-- Clearing the lowest set bit of a word, by an exclusive or. -/
theorem two_pow_xor_mul (i k : Nat) : 2 ^ i ^^^ 2 ^ i * (2 * k + 1) = 2 ^ i * (2 * k) := by
  have hone : 1 ^^^ (2 * k + 1) = 2 * k := by
    rw [Nat.xor_comm, Nat.xor_one_of_odd ⟨k, rfl⟩, Nat.add_sub_cancel]
  have hshift := Nat.shiftLeft_xor_distrib (a := 1) (b := 2 * k + 1) (i := i)
  simp only [Nat.shiftLeft_eq, hone, one_mul] at hshift
  rw [mul_comm (2 ^ i) (2 * k + 1), ← hshift, mul_comm]

/-- **What masks separate.** No mask puts two words into different columns exactly when they are
equal, or the number of columns is a power of two and they share a column without a mask. -/
theorem forall_xor_mod_eq_iff {n w : Nat} {a b : BitVec n} :
    (∀ m : BitVec n, (a ^^^ m).toNat % w = (b ^^^ m).toNat % w) ↔
      a = b ∨ (w.isPowerOfTwo ∧ a.toNat % w = b.toNat % w) := by
  constructor
  · intro hall
    by_cases hab : a = b
    · exact .inl hab
    refine .inr ⟨?_, by simpa using hall 0#n⟩
    -- for every word `x`, `x` and `x ^^^ δ` share a column
    have hδ : ∀ x : BitVec n, x.toNat % w = (x ^^^ (a ^^^ b)).toNat % w := by
      intro x
      have hx := hall (a ^^^ x)
      have hleft : a ^^^ (a ^^^ x) = x := by rw [← BitVec.xor_assoc, BitVec.xor_self, BitVec.zero_xor]
      have hright : b ^^^ (a ^^^ x) = x ^^^ (a ^^^ b) := by
        rw [← BitVec.xor_assoc, BitVec.xor_comm b a, BitVec.xor_comm]
      rwa [hleft, hright] at hx
    have hne : (a ^^^ b).toNat ≠ 0 := by
      intro hzero
      apply hab
      rw [← BitVec.xor_eq_zero_iff]
      exact BitVec.eq_of_toNat_eq (by rw [hzero]; rfl)
    obtain ⟨i, q, hodd, hfactor⟩ := Nat.exists_eq_two_pow_mul_odd hne
    obtain ⟨k, rfl⟩ := hodd
    have hlt : 2 ^ i < 2 ^ n := by
      have := (a ^^^ b).isLt
      rw [hfactor] at this
      exact lt_of_le_of_lt (Nat.le_mul_of_pos_right _ (by omega)) this
    -- at 0 and at the lowest set bit of `δ`
    have hzero := hδ 0#n
    have hlow := hδ (BitVec.ofNat n (2 ^ i))
    simp only [BitVec.toNat_xor, BitVec.toNat_ofNat, Nat.zero_mod, Nat.zero_xor,
      Nat.mod_eq_of_lt hlt] at hzero hlow
    rw [← BitVec.toNat_xor, hfactor] at hzero hlow
    rw [two_pow_xor_mul] at hlow
    have hdvd : w ∣ 2 ^ (i + 1) := by
      have hsum : (2 ^ i + 2 ^ i) % w = (2 ^ i * (2 * k) + 2 ^ i) % w := Nat.ModEq.add_right _ hlow
      have htotal : 2 ^ i * (2 * k) + 2 ^ i = 2 ^ i * (2 * k + 1) := by ring
      rw [htotal, ← hzero] at hsum
      rw [pow_succ, mul_two]
      exact Nat.dvd_of_mod_eq_zero hsum
    obtain ⟨t, -, rfl⟩ := (Nat.dvd_prime_pow Nat.prime_two).mp hdvd
    exact ⟨t, rfl⟩
  · rintro (rfl | ⟨⟨t, rfl⟩, hmod⟩) m
    · rfl
    · rw [BitVec.toNat_xor, BitVec.toNat_xor, Nat.xor_mod_two_pow, Nat.xor_mod_two_pow, hmod]

/-! ## The columns of the three sketches -/

/-- The column of a key in a line of the count-max sketch, as its update and its query compute it. -/
def countmaxLineColumn {w : Nat} [NeZero w] (_this : CountmaxLine w) (key : FlowKey) : Nat :=
  countmaxIndex w key

/-- The column of a key in a row of the count-min sketch. -/
def countminRowColumn (this : CountminSketch) (i : Fin this.d) (key : FlowKey) : Nat :=
  countminIndex this.w this.masks[i] (flowKeyHash key 16)

/-- The column of a key in a line of the count sketch. -/
def countsketchLineColumn (this : CountsketchLine) (key : FlowKey) : Nat :=
  countsketchIndex this.w this.mask key

section Claims

variable (w d : Nat) [NeZero w]

/-- Some outcome of the random generator gives a count-max line that tells the keys apart. -/
def CountmaxSeparates (key₁ key₂ : FlowKey) : Prop :=
  ∃ rand : Nat → BitVec 32, ∃ i : Fin d,
    countmaxLineColumn (newCountmaxSketch w d rand).lines[i] key₁ ≠
      countmaxLineColumn (newCountmaxSketch w d rand).lines[i] key₂

/-- Some outcome gives two count-max lines with different column functions. -/
def CountmaxRowsDiffer : Prop :=
  ∃ rand : Nat → BitVec 32, ∃ i j : Fin d,
    countmaxLineColumn (newCountmaxSketch w d rand).lines[i] ≠
      countmaxLineColumn (newCountmaxSketch w d rand).lines[j]

/-- Some row of a new count-min sketch tells the keys apart. Its construction draws nothing from the
generator; `randUint32` is the address that it stores. -/
def CountminSeparates (randUint32 : BitVec 32) (key₁ key₂ : FlowKey) : Prop :=
  ∃ i : Fin (newCountminSketch w d randUint32).d,
    countminRowColumn (newCountminSketch w d randUint32) i key₁ ≠
      countminRowColumn (newCountminSketch w d randUint32) i key₂

/-- Two rows of a new count-min sketch have different column functions. -/
def CountminRowsDiffer (randUint32 : BitVec 32) : Prop :=
  ∃ i j : Fin (newCountminSketch w d randUint32).d,
    countminRowColumn (newCountminSketch w d randUint32) i ≠
      countminRowColumn (newCountminSketch w d randUint32) j

omit [NeZero w] in
/-- Some outcome gives a line of the count sketch that tells the keys apart. -/
def CountsketchSeparates (key₁ key₂ : FlowKey) : Prop :=
  ∃ masks : List (BitVec 32), masks.length = d ∧
    ∃ sketch, newCountsketchSketch w masks = .ok sketch ∧
      ∃ line ∈ sketch.lines, countsketchLineColumn line key₁ ≠ countsketchLineColumn line key₂

omit [NeZero w] in
/-- Some outcome gives two lines of the count sketch with different column functions. -/
def CountsketchRowsDiffer : Prop :=
  ∃ masks : List (BitVec 32), masks.length = d ∧
    ∃ sketch, newCountsketchSketch w masks = .ok sketch ∧
      ∃ line ∈ sketch.lines, ∃ line' ∈ sketch.lines,
        countsketchLineColumn line ≠ countsketchLineColumn line'

end Claims

section Settled

variable {w d : Nat} [NeZero w]

theorem countmaxSeparates_iff (hd : 1 ≤ d) (key₁ key₂ : FlowKey) :
    CountmaxSeparates w d key₁ key₂ ↔
      (flowKeyHashOld key₁).toNat % w ≠ (flowKeyHashOld key₂).toNat % w := by
  constructor
  · rintro ⟨_, _, hne⟩
    exact hne
  · intro hne
    exact ⟨fun _ => 0, ⟨0, hd⟩, hne⟩

theorem not_countmaxRowsDiffer : ¬ CountmaxRowsDiffer w d := by
  rintro ⟨rand, i, j, hne⟩
  exact hne rfl

/-- Every row of a new count-min sketch has the same column function. -/
theorem countminRowColumn_new (randUint32 : BitVec 32)
    (i : Fin (newCountminSketch w d randUint32).d) (key : FlowKey) :
    countminRowColumn (newCountminSketch w d randUint32) i key =
      (flowKeyHash key 16 ^^^ randUint32).toNat % w := by
  have hmask : (newCountminSketch w d randUint32).masks[i] = randUint32 := Vector.getElem_replicate _
  rw [countminRowColumn, hmask]
  rfl

theorem countminSeparates_iff (hd : 1 ≤ d) (randUint32 : BitVec 32) (key₁ key₂ : FlowKey) :
    CountminSeparates w d randUint32 key₁ key₂ ↔
      (flowKeyHash key₁ 16 ^^^ randUint32).toNat % w ≠
        (flowKeyHash key₂ 16 ^^^ randUint32).toNat % w := by
  constructor
  · rintro ⟨i, hne⟩
    rwa [countminRowColumn_new, countminRowColumn_new] at hne
  · intro hne
    refine ⟨(⟨0, hd⟩ : Fin (newCountminSketch w d randUint32).d), ?_⟩
    rwa [countminRowColumn_new, countminRowColumn_new]

theorem not_countminRowsDiffer (randUint32 : BitVec 32) : ¬ CountminRowsDiffer w d randUint32 := by
  rintro ⟨i, j, hne⟩
  apply hne
  funext key
  rw [countminRowColumn_new, countminRowColumn_new]

omit [NeZero w] in
/-- A new count sketch has a line for each mask. -/
theorem newCountsketchSketch_lines (hhi : w < 2 ^ 31) (masks : List (BitVec 32)) :
    ∃ sketch, newCountsketchSketch w masks = .ok sketch ∧
      sketch.lines = masks.map (newCountsketchLine w) := by
  obtain ⟨indexes, -, hnew⟩ := newHashHeap_ok hhi
  exact ⟨_, by simp only [newCountsketchSketch, hnew]; rfl, rfl⟩

omit [NeZero w] in
theorem countsketchLineColumn_new (mask : BitVec 32) (key : FlowKey) :
    countsketchLineColumn (newCountsketchLine w mask) key =
      (flowKeyHashOld key ^^^ mask).toNat % w := rfl

omit [NeZero w] in
theorem countsketchSeparates_iff (hhi : w < 2 ^ 31) (hd : 1 ≤ d) (key₁ key₂ : FlowKey) :
    CountsketchSeparates w d key₁ key₂ ↔
      flowKeyHashOld key₁ ≠ flowKeyHashOld key₂ ∧
        (w.isPowerOfTwo → (flowKeyHashOld key₁).toNat % w ≠ (flowKeyHashOld key₂).toNat % w) := by
  have hmasks : CountsketchSeparates w d key₁ key₂ ↔
      ∃ m : BitVec 32, (flowKeyHashOld key₁ ^^^ m).toNat % w ≠ (flowKeyHashOld key₂ ^^^ m).toNat % w := by
    constructor
    · rintro ⟨masks, -, sketch, hnew, line, hline, hne⟩
      obtain ⟨sketch', hnew', hlines⟩ := newCountsketchSketch_lines hhi masks
      obtain rfl := Except.ok.inj (hnew.symm.trans hnew')
      rw [hlines] at hline
      obtain ⟨m, -, rfl⟩ := List.mem_map.mp hline
      rw [countsketchLineColumn_new, countsketchLineColumn_new] at hne
      exact ⟨m, hne⟩
    · rintro ⟨m, hne⟩
      obtain ⟨sketch, hnew, hlines⟩ := newCountsketchSketch_lines hhi (List.replicate d m)
      refine ⟨List.replicate d m, List.length_replicate, sketch, hnew, newCountsketchLine w m, ?_, ?_⟩
      · rw [hlines]
        exact List.mem_map_of_mem (List.mem_replicate.mpr ⟨by omega, rfl⟩)
      · rwa [countsketchLineColumn_new, countsketchLineColumn_new]
  rw [hmasks, ← not_iff_not, not_exists, not_and_or]
  simp only [ne_eq, not_not, Classical.not_imp]
  exact forall_xor_mod_eq_iff

omit [NeZero w] in
/-- Two masks that differ in the lowest bit put the all-zero key into different columns. -/
theorem countsketchRowsDiffer (hlo : 2 ≤ w) (hhi : w < 2 ^ 31) (hd : 2 ≤ d) :
    CountsketchRowsDiffer w d := by
  obtain ⟨sketch, hnew, hlines⟩ := newCountsketchSketch_lines hhi (0#32 :: List.replicate (d - 1) 1#32)
  refine ⟨_, ?_, sketch, hnew, newCountsketchLine w 0, ?_, newCountsketchLine w 1, ?_, ?_⟩
  · rw [List.length_cons, List.length_replicate]
    omega
  · rw [hlines]
    exact List.mem_map_of_mem (List.mem_cons_self ..)
  · rw [hlines]
    exact List.mem_map_of_mem
      (List.mem_cons_of_mem _ (List.mem_replicate.mpr ⟨by omega, rfl⟩))
  · intro heq
    have hhash : flowKeyHashOld emptyKey = 0 := by decide
    have hcolumns := congrFun heq emptyKey
    rw [countsketchLineColumn_new, countsketchLineColumn_new, hhash] at hcolumns
    have hzero : ((0 : BitVec 32) ^^^ 0).toNat % w = 0 := Nat.zero_mod w
    have hone : ((0 : BitVec 32) ^^^ 1).toNat % w = 1 := Nat.mod_eq_of_lt hlo
    rw [hzero, hone] at hcolumns
    cases hcolumns

/-- **What the rows are worth.** Which pairs of keys some outcome separates, and whether two rows can
have different column functions, for each of the sketches: only in the count sketch do the masks
do anything. -/
theorem rowsSeparate_iff (hlo : 2 ≤ w) (hhi : w < 2 ^ 31) (hd : 2 ≤ d) (randUint32 : BitVec 32)
    {key₁ key₂ : FlowKey} (_hne : key₁ ≠ key₂) :
    (CountmaxSeparates w d key₁ key₂ ↔
        (flowKeyHashOld key₁).toNat % w ≠ (flowKeyHashOld key₂).toNat % w) ∧
      (CountminSeparates w d randUint32 key₁ key₂ ↔
        (flowKeyHash key₁ 16 ^^^ randUint32).toNat % w ≠
          (flowKeyHash key₂ 16 ^^^ randUint32).toNat % w) ∧
      (CountsketchSeparates w d key₁ key₂ ↔
        flowKeyHashOld key₁ ≠ flowKeyHashOld key₂ ∧
          (w.isPowerOfTwo → (flowKeyHashOld key₁).toNat % w ≠ (flowKeyHashOld key₂).toNat % w)) ∧
      ¬ CountmaxRowsDiffer w d ∧ ¬ CountminRowsDiffer w d randUint32 ∧
        CountsketchRowsDiffer w d := by
  have hd1 : 1 ≤ d := by omega
  exact ⟨countmaxSeparates_iff hd1 key₁ key₂, countminSeparates_iff hd1 randUint32 key₁ key₂,
    countsketchSeparates_iff hhi hd1 key₁ key₂, not_countmaxRowsDiffer,
    not_countminRowsDiffer randUint32, countsketchRowsDiffer hlo hhi hd⟩

end Settled

/-- Two flows that the count sketch can tell apart in three columns. -/
theorem rowsSeparate_hosts : CountsketchSeparates 3 2 hostA hostB :=
  (rowsSeparate_iff (w := 3) (by decide) (by decide) (by decide) 0 hostA_ne_hostB).2.2.1.mpr
    (by decide)

/-- The same flow over TCP and over UDP: no sketch separates them, with any width and any masks. -/
theorem rowsSeparate_protocol :
    let tcp : FlowKey := ⟨1, 2, 3, 4, 6⟩
    let udp : FlowKey := ⟨1, 2, 3, 4, 17⟩
    tcp ≠ udp ∧ ¬ CountmaxSeparates 1000 4 tcp udp ∧ ¬ CountminSeparates 1000 4 0x81234560 tcp udp ∧
      ¬ CountsketchSeparates 1000 4 tcp udp ∧ ¬ CountmaxRowsDiffer 1000 4 ∧
        ¬ CountminRowsDiffer 1000 4 0x81234560 := by
  intro tcp udp
  have hold : flowKeyHashOld tcp = flowKeyHashOld udp := rfl
  have hnew : flowKeyHash tcp 16 = flowKeyHash udp 16 := rfl
  refine ⟨by decide, ?_, ?_, ?_, not_countmaxRowsDiffer, not_countminRowsDiffer _⟩
  · rw [countmaxSeparates_iff (by decide), hold]
    exact fun h => h rfl
  · rw [countminSeparates_iff (by decide), hnew]
    exact fun h => h rfl
  · rw [countsketchSeparates_iff (by decide) (by decide)]
    exact fun h => h.1 hold

end OvsDatapath.Sketch
