import Mathlib.Tactic

/-!
# Binary heaps in an array

A binary min-heap over an array `Nat → β` whose entries are compared by a weight in a linear
order. The children of position `i` are `2 * i + 1` and `2 * i + 2`.

* `siftUp` carries a new entry from a hole towards the root, `siftDown` exchanges an entry with its
  smaller child until it is no larger than its children.
* `Ordered` is the heap order; `ordered_siftUp` and `ordered_siftDown` say when the two restore it.

The last section answers a question about heaps that are changed in the middle and then repaired
at the root only: `ordered_siftDown_update_iff` says exactly which changes such a repair can cope
with.
-/

namespace OvsDatapath.Lib.MinHeap

/-- The parent of a position; the root is its own parent. -/
def parent (i : Nat) : Nat := (i - 1) / 2

theorem parent_lt {i : Nat} (hi : 0 < i) : parent i < i := by unfold parent; omega

theorem parent_eq_iff {c i : Nat} (hc : 0 < c) : parent c = i ↔ c = 2 * i + 1 ∨ c = 2 * i + 2 := by
  unfold parent; omega

variable {α β : Type} [LinearOrder α] (weight : β → α)

/-- No entry among the first `size` is smaller than its parent. -/
def Ordered (size : Nat) (e : Nat → β) : Prop :=
  ∀ i, 0 < i → i < size → weight (e (parent i)) ≤ weight (e i)

/-- The position of the smallest among an entry and its children. -/
def smallest (size : Nat) (e : Nat → β) (i : Nat) : Nat :=
  let s := if 2 * i + 1 < size ∧ weight (e (2 * i + 1)) < weight (e i) then 2 * i + 1 else i
  if 2 * i + 2 < size ∧ weight (e (2 * i + 2)) < weight (e s) then 2 * i + 2 else s

/-- Exchange two entries. -/
def swap (e : Nat → β) (i j : Nat) : Nat → β :=
  Function.update (Function.update e i (e j)) j (e i)

theorem swap_apply (e : Nat → β) (i j k : Nat) :
    swap e i j k = if k = j then e i else if k = i then e j else e k := by
  simp only [swap, Function.update_apply]

/-- An exchange is a relabelling of the positions. -/
theorem swap_eq_equiv (e : Nat → β) (i j k : Nat) : swap e i j k = e (Equiv.swap i j k) := by
  rw [swap_apply, Equiv.swap_apply_def]
  split_ifs with hj hi <;> simp_all

theorem equivSwap_lt {n i j k : Nat} (hi : i < n) (hj : j < n) (hk : k < n) :
    Equiv.swap i j k < n := by
  rw [Equiv.swap_apply_def]
  split_ifs
  · exact hj
  · exact hi
  · exact hk

/-- A relabelling that does not lead out of the first `n` positions reaches all of them. -/
theorem exists_lt_of_maps_lt {n : Nat} {π : Equiv.Perm Nat} (h : ∀ k < n, π k < n) {j : Nat}
    (hj : j < n) : ∃ k < n, π k = j := by
  have hsub : (Finset.range n).map π.toEmbedding ⊆ Finset.range n := by
    intro x hx
    obtain ⟨k, hk, rfl⟩ := Finset.mem_map.mp hx
    exact Finset.mem_range.mpr (h k (Finset.mem_range.mp hk))
  have heq := Finset.eq_of_subset_of_card_le hsub (by rw [Finset.card_map])
  have hmem := heq ▸ Finset.mem_range.mpr hj
  obtain ⟨k, hk, hkj⟩ := Finset.mem_map.mp hmem
  exact ⟨k, Finset.mem_range.mp hk, hkj⟩

theorem smallest_cases (size : Nat) (e : Nat → β) (i : Nat) :
    smallest weight size e i = i ∨ smallest weight size e i < size ∧ 0 < smallest weight size e i ∧
      parent (smallest weight size e i) = i ∧
      weight (e (smallest weight size e i)) < weight (e i) := by
  simp only [smallest]
  split_ifs with h₁ h₂ h₂
  · exact .inr ⟨h₂.1, by omega, (parent_eq_iff (by omega)).mpr (.inr rfl), h₂.2.trans h₁.2⟩
  · exact .inr ⟨h₁.1, by omega, (parent_eq_iff (by omega)).mpr (.inl rfl), h₁.2⟩
  · exact .inr ⟨h₂.1, by omega, (parent_eq_iff (by omega)).mpr (.inr rfl), h₂.2⟩
  · exact .inl rfl

theorem smallest_le_child {size : Nat} (e : Nat → β) {i c : Nat} (hc0 : 0 < c) (hc : c < size)
    (hp : parent c = i) : weight (e (smallest weight size e i)) ≤ weight (e c) := by
  rcases (parent_eq_iff hc0).mp hp with rfl | rfl
  · simp only [smallest]
    split_ifs with h₁ h₂ h₂
    · exact h₂.2.le
    · exact le_rfl
    · exact h₂.2.le.trans (not_lt.mp fun h => h₁ ⟨hc, h⟩)
    · exact not_lt.mp fun h => h₁ ⟨hc, h⟩
  · simp only [smallest]
    split_ifs with h₁ h₂ h₂
    · exact le_rfl
    · exact not_lt.mp fun h => h₂ ⟨hc, h⟩
    · exact le_rfl
    · exact not_lt.mp fun h => h₂ ⟨hc, h⟩

variable {weight}

theorem lt_smallest {size : Nat} {e : Nat → β} {i : Nat} (h : smallest weight size e i ≠ i) :
    i < smallest weight size e i ∧ smallest weight size e i < size := by
  rcases smallest_cases weight size e i with h' | ⟨hlt, h0, hp, -⟩
  · exact absurd h' h
  · have := parent_lt h0
    exact ⟨by omega, hlt⟩

/-! ## Carrying a large entry down -/

variable (weight) in
/-- Exchange the entry at `i` with its smaller child until it is no larger than its children. -/
def siftDown (size : Nat) (e : Nat → β) (i : Nat) : Nat → β :=
  if _h : smallest weight size e i = i then e
  else siftDown size (swap e i (smallest weight size e i)) (smallest weight size e i)
termination_by size - i
decreasing_by have := lt_smallest _h; omega

/-- The order everywhere but between `hole` and its children, which are in order with the parent
of the hole. -/
structure OrderedBelow (weight : β → α) (size : Nat) (e : Nat → β) (hole : Nat) : Prop where
  other : ∀ i, 0 < i → i < size → parent i ≠ hole → weight (e (parent i)) ≤ weight (e i)
  skip : ∀ i, 0 < i → i < size → parent i = hole → 0 < hole →
    weight (e (parent hole)) ≤ weight (e i)

theorem OrderedBelow.finish {size : Nat} {e : Nat → β} {hole : Nat}
    (h : OrderedBelow weight size e hole) (hs : smallest weight size e hole = hole) :
    Ordered weight size e := by
  intro i hi0 hi
  by_cases hp : parent i = hole
  · have hle := smallest_le_child weight e hi0 hi hp
    rwa [hs, ← hp] at hle
  · exact h.other i hi0 hi hp

theorem OrderedBelow.move {size : Nat} {e : Nat → β} {hole : Nat}
    (h : OrderedBelow weight size e hole) (hs : smallest weight size e hole ≠ hole) :
    OrderedBelow weight size (swap e hole (smallest weight size e hole))
      (smallest weight size e hole) := by
  rcases smallest_cases weight size e hole with h' | ⟨hlt, h0, hp, hsmall⟩
  · exact absurd h' hs
  have hchild : ∀ i, 0 < i → i < size → parent i = hole →
      weight (e (smallest weight size e hole)) ≤ weight (e i) :=
    fun i hi0 hi hpi => smallest_le_child weight e hi0 hi hpi
  generalize smallest weight size e hole = s at hs hlt h0 hp hsmall hchild ⊢
  have hholes : hole < s := hp ▸ parent_lt h0
  constructor
  · intro i hi0 hi hpi
    have hplt := parent_lt hi0
    rw [swap_apply, swap_apply, if_neg hpi]
    by_cases his : i = s
    · subst his
      rw [if_pos hp, if_pos rfl]
      exact hsmall.le
    · rw [if_neg his]
      by_cases hph : parent i = hole
      · rw [if_pos hph, if_neg (by omega)]
        exact hchild i hi0 hi hph
      · rw [if_neg hph]
        by_cases hih : i = hole
        · subst hih
          rw [if_pos rfl]
          exact h.skip s h0 hlt hp hi0
        · rw [if_neg hih]
          exact h.other i hi0 hi hph
  · intro i hi0 hi hpi _
    have hplt := parent_lt hi0
    rw [hp, swap_apply, swap_apply, if_neg (by omega), if_pos rfl, if_neg (by omega),
      if_neg (by omega), ← hpi]
    exact h.other i hi0 hi (by omega)

theorem ordered_siftDown {size : Nat} {e : Nat → β} {i : Nat} (h : OrderedBelow weight size e i) :
    Ordered weight size (siftDown weight size e i) := by
  induction e, i using siftDown.induct weight size with
  | case1 e i hs =>
      rw [siftDown, dif_pos hs]
      exact h.finish hs
  | case2 e i hs ih =>
      rw [siftDown, dif_neg hs]
      exact ih (h.move hs)

/-- An entry that is no larger than its children stays. -/
theorem siftDown_eq_self {size : Nat} {e : Nat → β} {i : Nat}
    (h : ∀ c, 0 < c → c < size → parent c = i → weight (e i) ≤ weight (e c)) :
    siftDown weight size e i = e := by
  rcases smallest_cases weight size e i with hs | ⟨hlt, h0, hp, hsmall⟩
  · rw [siftDown, dif_pos hs]
  · exact absurd (h _ h0 hlt hp) (not_le.mpr hsmall)

/-! ## Carrying a small entry up -/

variable (weight) in
/-- Put `b` into the hole at `i`, after moving the parents that are larger than `b` down. The
second component is the position `b` ended at. -/
def siftUp (e : Nat → β) (b : β) (i : Nat) : (Nat → β) × Nat :=
  if _h : 0 < i ∧ weight b < weight (e (parent i)) then
    siftUp (Function.update e i (e (parent i))) b (parent i)
  else (Function.update e i b, i)
termination_by i
decreasing_by exact parent_lt _h.1

/-- The order everywhere but at the hole, whose children are larger than `b` and in order with
the parent of the hole. -/
structure OrderedAbove (weight : β → α) (size : Nat) (e : Nat → β) (b : β) (hole : Nat) : Prop where
  other : ∀ i, 0 < i → i < size → i ≠ hole → parent i ≠ hole →
    weight (e (parent i)) ≤ weight (e i)
  skip : ∀ i, 0 < i → i < size → parent i = hole → 0 < hole →
    weight (e (parent hole)) ≤ weight (e i)
  below : ∀ i, 0 < i → i < size → parent i = hole → weight b ≤ weight (e i)

theorem OrderedAbove.finish {size : Nat} {e : Nat → β} {b : β} {hole : Nat}
    (h : OrderedAbove weight size e b hole)
    (hstop : ¬ (0 < hole ∧ weight b < weight (e (parent hole)))) :
    Ordered weight size (Function.update e hole b) := by
  intro i hi0 hi
  have hplt := parent_lt hi0
  by_cases hih : i = hole
  · subst hih
    rw [Function.update_self, Function.update_of_ne (by omega)]
    exact not_lt.mp fun hlt => hstop ⟨hi0, hlt⟩
  · rw [Function.update_of_ne hih]
    by_cases hph : parent i = hole
    · rw [hph, Function.update_self]
      exact h.below i hi0 hi hph
    · rw [Function.update_of_ne hph]
      exact h.other i hi0 hi hih hph

theorem OrderedAbove.move {size : Nat} {e : Nat → β} {b : β} {hole : Nat}
    (h : OrderedAbove weight size e b hole) (hhole : hole < size)
    (hmove : 0 < hole ∧ weight b < weight (e (parent hole))) :
    OrderedAbove weight size (Function.update e hole (e (parent hole))) b (parent hole) := by
  obtain ⟨h0, hlt⟩ := hmove
  have hph := parent_lt h0
  -- the other child of the hole's parent is in order with it
  have hsib : ∀ i, 0 < i → i < size → parent i = parent hole → i ≠ hole →
      weight (e (parent hole)) ≤ weight (e i) := by
    intro i hi0 hi hpi hih
    exact hpi ▸ h.other i hi0 hi hih (by omega)
  have hup : 0 < parent hole → weight (e (parent (parent hole))) ≤ weight (e (parent hole)) := by
    intro hp0
    have := parent_lt hp0
    exact h.other (parent hole) hp0 (by omega) (by omega) (by omega)
  constructor
  · intro i hi0 hi hip hpi
    have hih : i ≠ hole := fun hih => hpi (by rw [hih])
    rw [Function.update_of_ne hih]
    by_cases hpih : parent i = hole
    · rw [hpih, Function.update_self]
      exact h.skip i hi0 hi hpih h0
    · rw [Function.update_of_ne hpih]
      exact h.other i hi0 hi hih hpih
  · intro i hi0 hi hpi hp0
    have := parent_lt hp0
    rw [Function.update_of_ne (by omega)]
    by_cases hih : i = hole
    · rw [hih, Function.update_self]
      exact hup hp0
    · rw [Function.update_of_ne hih]
      exact (hup hp0).trans (hsib i hi0 hi hpi hih)
  · intro i hi0 hi hpi
    by_cases hih : i = hole
    · rw [hih, Function.update_self]
      exact hlt.le
    · rw [Function.update_of_ne hih]
      exact hlt.le.trans (hsib i hi0 hi hpi hih)

theorem ordered_siftUp_of_above {size : Nat} {e : Nat → β} {b : β} {i : Nat} (hi : i < size)
    (h : OrderedAbove weight size e b i) : Ordered weight size (siftUp weight e b i).1 := by
  induction e, i using siftUp.induct weight b with
  | case1 e i hmove ih =>
      rw [siftUp, dif_pos hmove]
      have := parent_lt hmove.1
      exact ih (by omega) (h.move hi hmove)
  | case2 e i hstop =>
      rw [siftUp, dif_neg hstop]
      exact h.finish hstop

/-- Insertion keeps the order. -/
theorem ordered_siftUp {size : Nat} {e : Nat → β} (h : Ordered weight size e) (b : β) :
    Ordered weight (size + 1) (siftUp weight e b size).1 := by
  apply ordered_siftUp_of_above (Nat.lt_succ_self size)
  constructor
  · intro i hi0 hi his _
    exact h i hi0 (by omega)
  · intro i hi0 hi hpi _
    have := parent_lt hi0
    omega
  · intro i hi0 hi hpi
    have := parent_lt hi0
    omega

variable (weight) in
theorem siftUp_snd_le (e : Nat → β) (b : β) (i : Nat) : (siftUp weight e b i).2 ≤ i := by
  induction e, i using siftUp.induct weight b with
  | case1 e i hmove ih =>
      rw [siftUp, dif_pos hmove]
      exact ih.trans (parent_lt hmove.1).le
  | case2 e i hstop => rw [siftUp, dif_neg hstop]

/-- Positions above the hole are not touched. -/
theorem siftUp_fst_of_lt (e : Nat → β) (b : β) {i j : Nat} (hij : i < j) :
    (siftUp weight e b i).1 j = e j := by
  induction e, i using siftUp.induct weight b with
  | case1 e i hmove ih =>
      have := parent_lt hmove.1
      rw [siftUp, dif_pos hmove, ih (by omega), Function.update_of_ne (by omega)]
  | case2 e i hstop =>
      rw [siftUp, dif_neg hstop]
      exact Function.update_of_ne (by omega) ..

variable (weight) in
/-- An entry smaller than the hole's parent pulls that parent down into the hole. -/
theorem siftUp_fst_self (e : Nat → β) (b : β) {i : Nat}
    (hmove : 0 < i ∧ weight b < weight (e (parent i))) :
    (siftUp weight e b i).1 i = e (parent i) := by
  rw [siftUp, dif_pos hmove, siftUp_fst_of_lt _ _ (parent_lt hmove.1), Function.update_self]

theorem siftUp_eq_of_not {e : Nat → β} (b : β) {i : Nat}
    (hstop : ¬ (0 < i ∧ weight b < weight (e (parent i)))) :
    siftUp weight e b i = (Function.update e i b, i) := by
  rw [siftUp, dif_neg hstop]

/-- Only an entry that ends at the root changes the root. -/
theorem siftUp_fst_zero (e : Nat → β) (b : β) {i : Nat} (hpos : (siftUp weight e b i).2 ≠ 0) :
    (siftUp weight e b i).1 0 = e 0 := by
  induction e, i using siftUp.induct weight b with
  | case1 e i hmove ih =>
      rw [siftUp, dif_pos hmove] at hpos ⊢
      rw [ih hpos, Function.update_of_ne hmove.1.ne]
  | case2 e i hstop =>
      rw [siftUp, dif_neg hstop] at hpos ⊢
      exact Function.update_of_ne (Ne.symm hpos) ..

variable (weight) in
/-- An upward sift is a relabelling of the positions up to the hole, after the new entry has been
put into the hole. -/
theorem siftUp_perm (e : Nat → β) (b : β) (i : Nat) :
    ∃ π : Equiv.Perm Nat, (∀ k, (siftUp weight e b i).1 k = Function.update e i b (π k)) ∧
      π (siftUp weight e b i).2 = i ∧ ∀ n, i < n → ∀ k < n, π k < n := by
  induction e, i using siftUp.induct weight b with
  | case1 e i hmove ih =>
      obtain ⟨π, hfst, hsnd, hrange⟩ := ih
      have hlt := parent_lt hmove.1
      rw [siftUp, dif_pos hmove]
      refine ⟨π.trans (Equiv.swap i (parent i)), ?_, ?_, ?_⟩
      · intro k
        rw [hfst k, Equiv.trans_apply, ← swap_eq_equiv (Function.update e i b), swap_apply,
          Function.update_self, Function.update_of_ne hlt.ne]
        by_cases hp : π k = parent i
        · rw [hp, Function.update_self, if_pos rfl]
        · rw [Function.update_of_ne hp, if_neg hp, Function.update_apply]
          split_ifs with hi
          · rfl
          · rw [Function.update_of_ne hi]
      · rw [Equiv.trans_apply, hsnd, Equiv.swap_apply_right]
      · intro n hn k hk
        rw [Equiv.trans_apply]
        exact equivSwap_lt hn (hlt.trans hn) (hrange n (hlt.trans hn) k hk)
  | case2 e i hstop =>
      rw [siftUp, dif_neg hstop]
      exact ⟨Equiv.refl _, fun _ => rfl, rfl, fun _ _ _ hk => hk⟩

/-! ## The smallest entry, and changes in the middle -/

/-- The root of an ordered heap is a smallest entry. -/
theorem Ordered.root_le {size : Nat} {e : Nat → β} (h : Ordered weight size e) {i : Nat}
    (hi : i < size) : weight (e 0) ≤ weight (e i) := by
  induction i using Nat.strongRecOn with
  | _ i ih =>
      rcases Nat.eq_zero_or_pos i with rfl | hi0
      · exact le_rfl
      · have hp := parent_lt hi0
        exact (ih (parent i) hp (by omega)).trans (h i hi0 hi)

/-- Overwriting the root is repaired by a sift from the root. -/
theorem ordered_siftDown_update_zero {size : Nat} {e : Nat → β} (h : Ordered weight size e)
    (b : β) : Ordered weight size (siftDown weight size (Function.update e 0 b) 0) := by
  apply ordered_siftDown
  constructor
  · intro i hi0 hi hpi
    rw [Function.update_of_ne hpi, Function.update_of_ne (by omega)]
    exact h i hi0 hi
  · intro i _ _ _ h0
    exact absurd h0 (lt_irrefl 0)

/-- Overwriting a position outside the heap does nothing. -/
theorem Ordered.update_of_le {size : Nat} {e : Nat → β} (h : Ordered weight size e) {p : Nat}
    (hp : size ≤ p) (b : β) : Ordered weight size (Function.update e p b) := by
  intro i hi0 hi
  have := parent_lt hi0
  rw [Function.update_of_ne (by omega), Function.update_of_ne (by omega)]
  exact h i hi0 hi

/-- The entry `b` is no larger than the children of position `p`. -/
def LeChildren (weight : β → α) (size : Nat) (e : Nat → β) (p : Nat) (b : β) : Prop :=
  ∀ c, 0 < c → c < size → parent c = p → weight b ≤ weight (e c)

/-- Overwriting an inner position keeps the order exactly when the new entry fits between its
parent and its children. -/
theorem Ordered.update_iff {size : Nat} {e : Nat → β} (h : Ordered weight size e) {p : Nat}
    (hp0 : 0 < p) (hp : p < size) (b : β) :
    Ordered weight size (Function.update e p b) ↔
      LeChildren weight size e p b ∧ weight (e (parent p)) ≤ weight b := by
  have hpp := parent_lt hp0
  constructor
  · intro hnew
    refine ⟨?_, ?_⟩
    · intro c hc0 hc hpc
      have hcp := parent_lt hc0
      have := hnew c hc0 hc
      rwa [hpc, Function.update_self, Function.update_of_ne (by omega)] at this
    · have := hnew p hp0 hp
      rwa [Function.update_self, Function.update_of_ne (by omega)] at this
  · rintro ⟨hchildren, hparent⟩ i hi0 hi
    have hlt := parent_lt hi0
    by_cases hip : i = p
    · subst hip
      rwa [Function.update_self, Function.update_of_ne (by omega)]
    · rw [Function.update_of_ne hip]
      by_cases hpi : parent i = p
      · rw [hpi, Function.update_self]
        exact hchildren i hi0 hi hpi
      · rw [Function.update_of_ne hpi]
        exact h i hi0 hi

/-- **What a repair at the root can repair.** After an inner position of an ordered heap is
overwritten, a sift from the root restores the order exactly when the new entry is no larger than
the children of its position and, unless the position is next to the root, no smaller than its
parent. -/
theorem ordered_siftDown_update_iff {size : Nat} {e : Nat → β} (h : Ordered weight size e) {p : Nat}
    (hp0 : 0 < p) (hp : p < size) (b : β) :
    Ordered weight size (siftDown weight size (Function.update e p b) 0) ↔
      LeChildren weight size e p b ∧ (p ≤ 2 ∨ weight (e (parent p)) ≤ weight b) := by
  by_cases hnear : p ≤ 2
  · have hroot : parent p = 0 := by unfold parent; omega
    by_cases hchildren : LeChildren weight size e p b
    · -- only the pairs under the root are out of order, and the sift repairs those
      refine iff_of_true ?_ ⟨hchildren, .inl hnear⟩
      apply ordered_siftDown
      constructor
      · intro i hi0 hi hpi
        have hip : i ≠ p := fun hip => hpi (by rw [hip, hroot])
        rw [Function.update_of_ne hip]
        by_cases hpip : parent i = p
        · rw [hpip, Function.update_self]
          exact hchildren i hi0 hi hpip
        · rw [Function.update_of_ne hpip]
          exact h i hi0 hi
      · intro i _ _ _ h0
        exact absurd h0 (lt_irrefl 0)
    · -- the new entry is larger than a child, hence than the root, so nothing moves
      refine iff_of_false ?_ (fun hand => hchildren hand.1)
      have hlarge : weight (e 0) ≤ weight b := by
        by_contra hsmall
        exact hchildren fun c hc0 hc hpc => (not_le.mp hsmall).le.trans (h.root_le hc)
      rw [siftDown_eq_self]
      · rw [h.update_iff hp0 hp b]
        exact fun hand => hchildren hand.1
      · intro c hc0 hc _
        rw [Function.update_of_ne (by omega)]
        by_cases hcp : c = p
        · rwa [hcp, Function.update_self]
        · rw [Function.update_of_ne hcp]
          exact h.root_le hc
  · -- the root and its children are untouched, so nothing moves
    rw [siftDown_eq_self, h.update_iff hp0 hp b]
    · exact and_congr_right fun _ => (or_iff_right hnear).symm
    · intro c hc0 hc hpc
      have := (parent_eq_iff hc0).mp hpc
      rw [Function.update_of_ne (by omega), Function.update_of_ne (by omega)]
      exact h.root_le hc

end OvsDatapath.Lib.MinHeap
