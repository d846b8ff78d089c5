import OvsDatapath.Sketch.Hashheap

/-!
# Extraction from the indexed heap

`hash_heap_extract` is documented to delete a node from the min heap: remove the root, put the last
node in its place, and heapify. On the array it does that. The table and the key copies are
another matter.

* The binding it deletes is the one of `elem[last]`, which at that point has already been copied to
  the root. The entry that stays loses its binding, and the one that goes keeps it
  (`hashHeapExtract_wrong_binding`).
* With a single entry the deleted binding is the head of its chain, and `htlistRemove` reads that
  head again after freeing it.
* The key copy that `hash_heap_insert` allocated for the root is not freed by anyone: the only
  `kfree` on the way is the one for table nodes, which hold copies of their own.
-/

namespace OvsDatapath.Sketch

open OvsDatapath.Lib OvsDatapath.Lib.MinHeap

/-- `hash_heap_extract` with the key copies of the array that it passes to `kfree`. The pointer
`elem[0].key` is overwritten, and none of the calls it makes is handed a key of the array to free. -/
def hashHeapExtractFrees (heap : HashHeap) : Except MemFault (List FlowKey × HashHeap) :=
  match hashHeapExtract heap with
  | .ok heap' => .ok ([], heap')
  | .error e => .error e

/-- What makes a heap one: the order of the array, chains that are in the slots of their keys, and
a table that agrees with the array. -/
structure HashHeap.Consistent (heap : HashHeap) : Prop where
  ordered : Ordered Node.data heap.size heap.elem
  table : heap.indexes.WellFormed
  agree : IndexesAgree heap

/-- `m` is the position of a smallest entry. -/
def IsMinimum (heap : HashHeap) (m : Nat) : Prop :=
  m < heap.size ∧ ∀ i < heap.size, (heap.elem m).data ≤ (heap.elem i).data

/-- `heap'` is `heap` without the entry at `m`: its binding is gone, and every other entry is still
there and found. -/
structure Removed (heap : HashHeap) (m : Nat) (heap' : HashHeap) : Prop where
  size : heap'.size + 1 = heap.size
  gone : ∀ i < heap'.size, (heap'.elem i).key ≠ (heap.elem m).key
  unbound : hashTableGet heap'.indexes (heap.elem m).key = none
  others : ∀ i < heap.size, i ≠ m → ∃ j < heap'.size, heap'.elem j = heap.elem i ∧
    hashTableGet heap'.indexes (heap.elem i).key = some (BitVec.ofNat 32 j)

/-- The extraction takes exactly one smallest entry out of the array and out of the table. -/
def ExtractsMinimum (heap : HashHeap) : Prop :=
  ∃ heap', hashHeapExtract heap = .ok heap' ∧ heap'.Consistent ∧
    ∃ m, IsMinimum heap m ∧ Removed heap m heap'

/-- The extraction frees the key copy of an entry that it removes, once, and no other. -/
def ExtractReleases (heap : HashHeap) : Prop :=
  ∃ released heap', hashHeapExtractFrees heap = .ok (released, heap') ∧
    ∃ m, IsMinimum heap m ∧ released = [(heap.elem m).key]

/-! ## What an extraction leaves behind -/

/-- With two entries or more, it is the entry moved to the root that loses its binding; the key of
the removed root stays in the table. -/
theorem hashHeapExtract_wrong_binding {heap heap' : HashHeap} (h : heap.Consistent)
    (hsize : 2 ≤ heap.size) (hok : hashHeapExtract heap = .ok heap') :
    hashTableGet heap'.indexes (heap.elem (heap.size - 1)).key = none ∧
      hashTableGet heap'.indexes (heap.elem 0).key ≠ none := by
  rcases hashHeapExtract_cases heap with ⟨h0, -⟩ | ⟨-, ⟨e, -, heq⟩ | ⟨r, hrem, heq⟩⟩
  · omega
  · rw [heq] at hok
    cases hok
  · obtain rfl := Except.ok.inj (heq.symm.trans hok)
    have hget := (hashTableRemove_spec h.table hrem).2.2
    have hne : (heap.elem 0).key ≠ (heap.elem (heap.size - 1)).key := by
      intro hkey
      have := h.agree.key_inj (by omega) (by omega) hkey
      omega
    rw [Ne, hashHeapHeapify_get_eq_none_iff, hashHeapHeapify_get_eq_none_iff]
    constructor
    · show hashTableGet r.2 _ = none
      rw [hget, if_pos rfl]
    · show ¬ hashTableGet r.2 _ = none
      rw [hget, if_neg hne, h.agree.found 0 (by omega)]
      exact Option.some_ne_none _

/-- **Extraction never removes the minimum.** On no consistent heap with an entry does the
extraction leave a consistent heap without that entry, and on none does it release its key. -/
theorem hashHeapExtract_never {heap : HashHeap} (h : heap.Consistent) (hsize : 1 ≤ heap.size) :
    ¬ ExtractsMinimum heap ∧ ¬ ExtractReleases heap := by
  constructor
  · rintro ⟨heap', hok, hconsistent, -⟩
    have hzero := (indexesAgree_extract_iff h.table h.agree).mp ⟨heap', hok, hconsistent.agree⟩
    omega
  · rintro ⟨released, heap', hok, m, -, hreleased⟩
    rw [hashHeapExtractFrees] at hok
    split at hok
    · have hnil : released = [] := (congrArg Prod.fst (Except.ok.inj hok)).symm
      rw [hnil] at hreleased
      cases hreleased
    · cases hok

/-- Two flows, in order, over a table of four slots. -/
def pairHeap (indexes : HashTable) : HashHeap where
  indexes := hashTableInsert (hashTableInsert indexes hostA 0) hostB 1
  size := 2
  max_size := 3
  elem := Function.update (Function.update (fun _ => ⟨emptyKey, 0⟩) 0 ⟨hostA, 3⟩) 1 ⟨hostB, 5⟩

theorem pairHeap_consistent {indexes : HashTable} (hnew : newHashTable 2 = .ok indexes) :
    (pairHeap indexes).Consistent := by
  have hempty := newHashTable_get hnew
  have hfresh : hashTableGet (hashTableInsert indexes hostA 0) hostB = none := by
    rw [hashTableGet_insert (hempty hostA), if_neg hostA_ne_hostB.symm, hempty]
  have hstart : IndexesAgree ⟨indexes, 0, 3, fun _ => ⟨emptyKey, 0⟩⟩ := by
    constructor
    · intro i hi
      exact absurd hi (Nat.not_lt_zero i)
    · intro key index hget
      simp [hempty] at hget
  have hone := @IndexesAgree.append _ hstart hostA (fun i hi => absurd hi (Nat.not_lt_zero i)) 3
  refine ⟨?_, ?_, ?_⟩
  · intro i hi0 hi
    obtain rfl : i = 1 := by
      have : i < 2 := hi
      omega
    show (3 : Int) ≤ 5
    decide
  · exact ((newHashTable_wellFormed hnew).insert 0 (hempty hostA)).insert 1 hfresh
  · refine @IndexesAgree.append _ hone hostB ?_ 5
    intro i hi
    obtain rfl : i = 0 := by
      have : i < 1 := hi
      omega
    exact hostA_ne_hostB

/-- The two-entry heap: the flow of 3 is extracted, and the flow of 5 loses its binding. -/
theorem hashHeapExtract_never_pair :
    ∃ indexes, newHashTable 2 = .ok indexes ∧ (pairHeap indexes).Consistent ∧
      ¬ ExtractsMinimum (pairHeap indexes) ∧ ¬ ExtractReleases (pairHeap indexes) := by
  obtain ⟨indexes, hnew, -⟩ := newHashHeap_ok (show 4 < 2 ^ 31 by decide)
  exact ⟨indexes, hnew, pairHeap_consistent hnew,
    hashHeapExtract_never (pairHeap_consistent hnew) (show 1 ≤ 2 by decide)⟩

/-- There are consistent heaps with an entry on which the extraction goes wrong. -/
theorem hashHeapExtract_pair_not_removed :
    ¬ ∀ heap : HashHeap, 1 ≤ heap.size → heap.Consistent →
      ExtractsMinimum heap ∧ ExtractReleases heap := by
  intro hall
  obtain ⟨indexes, hnew, -⟩ := newHashHeap_ok (show 4 < 2 ^ 31 by decide)
  have hconsistent := pairHeap_consistent hnew
  obtain ⟨⟨heap', hok, hafter, -⟩, -⟩ := hall (pairHeap indexes) (show 1 ≤ 2 by decide) hconsistent
  have hzero := (indexesAgree_extract_iff hconsistent.table hconsistent.agree).mp
    ⟨heap', hok, hafter.agree⟩
  exact absurd hzero (show ¬ 2 = 0 by decide)

end OvsDatapath.Sketch
