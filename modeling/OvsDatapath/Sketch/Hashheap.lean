import OvsDatapath.Lib.MinHeap
import OvsDatapath.Lib.Wrap
import OvsDatapath.Sketch.Hashtable

/-!
# The indexed heap

`hashheap.c`: a binary min-heap of flow keys in an array, and a hash table `indexes` that maps a
key to its array position. Array positions are natural numbers: an array of 16-byte nodes that an
allocator can serve has far fewer than `2 ^ 30` of them, so `2 * x + 2` stays an `int`. An index
that comes out of the table is checked against the array's length before it is used; a bad one
would be a fault.

Two runs of properties are settled here, each by the exact condition on every call.

* The table agrees with the array (`indexesAgree_iff`) as long as no insertion has to move a
  parent and nothing is extracted: `hashHeapInsert` moves entries without telling the table, and
  `hashHeapExtract` drops the binding of the entry it has just moved to the root.
* The array is ordered and the smallest entry is the one that `hashHeapPeek` reads
  (`heapOrdered_iff`) under conditions on the position that is overwritten, because the order is
  only ever repaired at the root, and because `hashHeapPeek` reads the last entry.
-/

namespace OvsDatapath.Sketch

open OvsDatapath.Lib OvsDatapath.Lib.MinHeap

/-- `HEAP_EXCCED`. -/
def heapExcced : Int := -1

/-- `struct node`; the key behind the pointer is never changed after the insertion. -/
structure Node where
  key : FlowKey
  data : Int
  deriving DecidableEq, Repr

/-- `struct hash_heap`. -/
structure HashHeap where
  indexes : HashTable
  size : Nat
  max_size : Nat
  elem : Nat → Node

/-- `new_hash_heap`. The array has one more entry than the heap will ever use. -/
def newHashHeap (max_size : Nat) : Except MemFault HashHeap :=
  match newHashTable (Nat.log2 max_size) with
  | .ok indexes =>
      .ok { indexes := indexes, size := 0, max_size := max_size - 1, elem := fun _ => ⟨emptyKey, 0⟩ }
  | .error e => .error e

/-- `hash_heap_swap`. -/
def hashHeapSwap (heap : HashHeap) (index1 index2 : Nat) : HashHeap :=
  let tmp := heap.elem index1
  let elem := Function.update (Function.update heap.elem index1 (heap.elem index2)) index2 tmp
  let indexes := (hashTableSet heap.indexes (elem index1).key (BitVec.ofNat 32 index1)).2
  { heap with
    elem := elem
    indexes := (hashTableSet indexes (elem index2).key (BitVec.ofNat 32 index2)).2 }

/-- The position that `hash_heap_heapify` calls `smallest`. -/
def hashHeapSmallest (heap : HashHeap) (i : Nat) : Nat :=
  let smallest :=
    if 2 * i + 1 < heap.size ∧ (heap.elem (2 * i + 1)).data < (heap.elem i).data then 2 * i + 1 else i
  if 2 * i + 2 < heap.size ∧ (heap.elem (2 * i + 2)).data < (heap.elem smallest).data then 2 * i + 2
  else smallest

theorem hashHeapSmallest_eq (heap : HashHeap) (i : Nat) :
    hashHeapSmallest heap i = smallest Node.data heap.size heap.elem i := rfl

/-- `hash_heap_heapify`. -/
def hashHeapHeapify (heap : HashHeap) (i : Nat) : HashHeap :=
  if _h : hashHeapSmallest heap i = i then heap
  else hashHeapHeapify (hashHeapSwap heap i (hashHeapSmallest heap i)) (hashHeapSmallest heap i)
termination_by heap.size - i
decreasing_by have := lt_smallest _h; simp only [hashHeapSwap, hashHeapSmallest_eq]; omega

/-- The loop of `hash_heap_insert`: move parents down while they are larger than the new node.
Returns the array and the position left free for the node. -/
def hashHeapInsertLoop (elem : Nat → Node) (nd : Node) (i : Nat) : (Nat → Node) × Nat :=
  if _h : 0 < i ∧ nd.data < (elem ((i - 1) / 2)).data then
    hashHeapInsertLoop (Function.update elem i (elem ((i - 1) / 2))) nd ((i - 1) / 2)
  else (elem, i)
termination_by i
decreasing_by omega

/-- `hash_heap_insert`, with the return code first. -/
def hashHeapInsert (heap : HashHeap) (key : FlowKey) (data : Int) : Int × HashHeap :=
  if heap.size = heap.max_size then (heapExcced, heap)
  else
    let nd : Node := { key := key, data := data }
    let r := hashHeapInsertLoop heap.elem nd heap.size
    (success,
      { heap with
        size := heap.size + 1
        elem := Function.update r.1 r.2 nd
        indexes := hashTableInsert heap.indexes key (BitVec.ofNat 32 r.2) })

/-- `hash_heap_extract`. -/
def hashHeapExtract (heap : HashHeap) : Except MemFault HashHeap :=
  if heap.size = 0 then .ok heap
  else
    let last := heap.size - 1
    let elem := Function.update heap.elem 0 (heap.elem last)
    match hashTableRemove heap.indexes (elem last).key with
    | .error e => .error e
    | .ok r => .ok (hashHeapHeapify { heap with size := last, elem := elem, indexes := r.2 } 0)

/-- The common body of `hash_heap_update_or_insert` and `hash_heap_inc`: overwrite the data of the
entry that the table points to, or insert the key. -/
def hashHeapUpsert (f : Int → Int) (heap : HashHeap) (key : FlowKey) (value : Int) :
    Except MemFault (Int × HashHeap) :=
  match hashTableGet heap.indexes key with
  | none => .ok (hashHeapInsert heap key value)
  | some index =>
      if index.toNat ≤ heap.max_size then
        let node := heap.elem index.toNat
        let elem := Function.update heap.elem index.toNat { node with data := f node.data }
        .ok (success, hashHeapHeapify { heap with elem := elem } 0)
      else .error .outOfBounds

/-- `hash_heap_update_or_insert`. -/
def hashHeapUpdateOrInsert (heap : HashHeap) (key : FlowKey) (value : Int) :
    Except MemFault (Int × HashHeap) :=
  hashHeapUpsert (fun _ => value) heap key value

/-- `hash_heap_inc`. -/
def hashHeapInc (heap : HashHeap) (key : FlowKey) (value : Int) :
    Except MemFault (Int × HashHeap) :=
  hashHeapUpsert (fun data => signed 64 (data + value)) heap key value

/-- `hash_heap_peek`. -/
def hashHeapPeek (heap : HashHeap) : Int :=
  if heap.size = 0 then 0 else (heap.elem (heap.size - 1)).data

/-- `hash_heap_peek_key`. -/
def hashHeapPeekKey (heap : HashHeap) : Option FlowKey :=
  if heap.size = 0 then none else some (heap.elem (heap.size - 1)).key

/-! ## The parts of the heap under each function -/

@[simp] theorem hashHeapSwap_size (heap : HashHeap) (i j : Nat) :
    (hashHeapSwap heap i j).size = heap.size := rfl

@[simp] theorem hashHeapSwap_max_size (heap : HashHeap) (i j : Nat) :
    (hashHeapSwap heap i j).max_size = heap.max_size := rfl

@[simp] theorem hashHeapSwap_elem (heap : HashHeap) (i j : Nat) :
    (hashHeapSwap heap i j).elem = swap heap.elem i j := rfl

/-- What every swap of two positions of the heap preserves, heapify preserves. -/
theorem hashHeapHeapify_induct {motive : HashHeap → Prop}
    (hswap : ∀ heap i j, motive heap → i < j → j < heap.size → motive (hashHeapSwap heap i j))
    {heap : HashHeap} (h : motive heap) (i : Nat) : motive (hashHeapHeapify heap i) := by
  induction heap, i using hashHeapHeapify.induct with
  | case1 heap i hs =>
      rw [hashHeapHeapify, dif_pos hs]
      exact h
  | case2 heap i hs ih =>
      rw [hashHeapHeapify, dif_neg hs]
      obtain ⟨hlt, hsize⟩ := lt_smallest hs
      exact ih (hswap heap i _ h hlt hsize)

@[simp] theorem hashHeapHeapify_size (heap : HashHeap) (i : Nat) :
    (hashHeapHeapify heap i).size = heap.size :=
  hashHeapHeapify_induct (motive := fun h => h.size = heap.size) (fun _ _ _ h _ _ => h) rfl i

@[simp] theorem hashHeapHeapify_max_size (heap : HashHeap) (i : Nat) :
    (hashHeapHeapify heap i).max_size = heap.max_size :=
  hashHeapHeapify_induct (motive := fun h => h.max_size = heap.max_size) (fun _ _ _ h _ _ => h) rfl i

/-- On the array, heapify is the downward sift of a binary heap. -/
theorem hashHeapHeapify_elem (heap : HashHeap) (i : Nat) :
    (hashHeapHeapify heap i).elem = siftDown Node.data heap.size heap.elem i := by
  induction heap, i using hashHeapHeapify.induct with
  | case1 heap i hs =>
      have hs' : smallest Node.data heap.size heap.elem i = i := hs
      rw [hashHeapHeapify, dif_pos hs, siftDown, dif_pos hs']
  | case2 heap i hs ih =>
      have hs' : ¬ smallest Node.data heap.size heap.elem i = i := hs
      rw [hashHeapHeapify, dif_neg hs, siftDown, dif_neg hs']
      exact ih

/-- The insertion loop, completed by the store after it, is the upward sift. -/
theorem hashHeapInsertLoop_eq (elem : Nat → Node) (nd : Node) (i : Nat) :
    (Function.update (hashHeapInsertLoop elem nd i).1 (hashHeapInsertLoop elem nd i).2 nd,
      (hashHeapInsertLoop elem nd i).2) = siftUp Node.data elem nd i := by
  induction elem, i using hashHeapInsertLoop.induct nd with
  | case1 elem i hmove ih =>
      have hmove' : 0 < i ∧ nd.data < (elem (parent i)).data := hmove
      rw [hashHeapInsertLoop, dif_pos hmove, ih, siftUp.eq_1 _ elem, dif_pos hmove']
      rfl
  | case2 elem i hstop =>
      have hstop' : ¬ (0 < i ∧ nd.data < (elem (parent i)).data) := hstop
      rw [hashHeapInsertLoop, dif_neg hstop, siftUp, dif_neg hstop']

/-! ## Calls -/

/-- The calls on a heap; `peek` stands for `hash_heap_peek` and `hash_heap_peek_key` together. -/
inductive HeapOp where
  | insert (key : FlowKey) (data : Int)
  | inc (key : FlowKey) (value : Int)
  | updateOrInsert (key : FlowKey) (value : Int)
  | extract
  | peek
  deriving DecidableEq, Repr

/-- What a call gives back. -/
inductive HeapAnswer where
  | code (ret : Int)
  | void
  | peeked (data : Int) (key : Option FlowKey)
  deriving DecidableEq, Repr

/-- The answer of a call that returns a code. -/
def codeAnswer : Except MemFault (Int × HashHeap) → Except MemFault (HeapAnswer × HashHeap)
  | .ok r => .ok (.code r.1, r.2)
  | .error e => .error e

theorem codeAnswer_eq_ok {r : Except MemFault (Int × HashHeap)} {answer : HeapAnswer}
    {heap' : HashHeap} (h : codeAnswer r = .ok (answer, heap')) :
    ∃ ret, answer = .code ret ∧ r = .ok (ret, heap') := by
  cases r with
  | error e => cases h
  | ok r =>
      cases h
      exact ⟨r.1, rfl, rfl⟩

/-- One call on the heap. -/
def hashHeapStep (heap : HashHeap) : HeapOp → Except MemFault (HeapAnswer × HashHeap)
  | .insert key data => codeAnswer (.ok (hashHeapInsert heap key data))
  | .inc key value => codeAnswer (hashHeapInc heap key value)
  | .updateOrInsert key value => codeAnswer (hashHeapUpdateOrInsert heap key value)
  | .extract =>
      match hashHeapExtract heap with
      | .ok heap' => .ok (.void, heap')
      | .error e => .error e
  | .peek => .ok (.peeked (hashHeapPeek heap) (hashHeapPeekKey heap), heap)

/-- The sizes are those of `int` variables, the heap is not overfull, and every index stored in
the table is a position of the array. -/
structure HashHeap.Bounded (heap : HashHeap) : Prop where
  max_lt : heap.max_size < 2 ^ 31
  size_le : heap.size ≤ heap.max_size
  positions : heap.indexes.AllValues fun index => index.toNat < heap.max_size

theorem toNat_position {i n : Nat} (hi : i < n) (hn : n < 2 ^ 31) : (BitVec.ofNat 32 i).toNat = i := by
  rw [BitVec.toNat_ofNat, Nat.mod_eq_of_lt (by omega)]

theorem HashHeap.Bounded.swap {heap : HashHeap} (h : heap.Bounded) {i j : Nat} (hi : i < heap.size)
    (hj : j < heap.size) : (hashHeapSwap heap i j).Bounded := by
  obtain ⟨hmax, hsize, hpos⟩ := h
  have hvalue : ∀ k < heap.size, (BitVec.ofNat 32 k).toNat < heap.max_size := by
    intro k hk
    rw [toNat_position hk (by omega)]
    omega
  exact ⟨hmax, hsize, (hpos.set _ (hvalue i hi)).set _ (hvalue j hj)⟩

theorem HashHeap.Bounded.heapify {heap : HashHeap} (h : heap.Bounded) (i : Nat) :
    (hashHeapHeapify heap i).Bounded :=
  hashHeapHeapify_induct (fun _ _ _ h hij hj => h.swap (hij.trans hj) hj) h i

/-- The heap after an insertion that finds room. -/
theorem hashHeapInsert_of_ne {heap : HashHeap} {key : FlowKey} {data : Int}
    (h : heap.size ≠ heap.max_size) :
    hashHeapInsert heap key data =
      (success,
        { heap with
          size := heap.size + 1
          elem := (siftUp Node.data heap.elem ⟨key, data⟩ heap.size).1
          indexes := hashTableInsert heap.indexes key
            (BitVec.ofNat 32 (siftUp Node.data heap.elem ⟨key, data⟩ heap.size).2) }) := by
  rw [hashHeapInsert, if_neg h, ← hashHeapInsertLoop_eq]

/-- The entries of a heap. -/
def heapEntries (heap : HashHeap) : Set Node := {n | ∃ i < heap.size, heap.elem i = n}

theorem heapEntries_swap (heap : HashHeap) {i j : Nat} (hi : i < heap.size) (hj : j < heap.size) :
    heapEntries (hashHeapSwap heap i j) = heapEntries heap := by
  ext n
  constructor
  · rintro ⟨k, hk, rfl⟩
    exact ⟨Equiv.swap i j k, equivSwap_lt hi hj hk, (swap_eq_equiv ..).symm⟩
  · rintro ⟨k, hk, rfl⟩
    refine ⟨Equiv.swap i j k, equivSwap_lt hi hj hk, ?_⟩
    rw [hashHeapSwap_elem, swap_eq_equiv, Equiv.swap_apply_self]

theorem heapEntries_heapify (heap : HashHeap) (i : Nat) :
    heapEntries (hashHeapHeapify heap i) = heapEntries heap := by
  refine hashHeapHeapify_induct (motive := fun after => heapEntries after = heapEntries heap) ?_ rfl i
  intro after i j h hij hj
  rw [heapEntries_swap after (hij.trans hj) hj, h]

/-- An insertion that finds room adds one entry. -/
theorem heapEntries_insert {heap : HashHeap} (hroom : heap.size ≠ heap.max_size) (key : FlowKey)
    (data : Int) :
    heapEntries (hashHeapInsert heap key data).2 = insert ⟨key, data⟩ (heapEntries heap) := by
  obtain ⟨π, hfst, -, hrange⟩ := siftUp_perm Node.data heap.elem ⟨key, data⟩ heap.size
  have hrange' := hrange (heap.size + 1) (Nat.lt_succ_self _)
  rw [hashHeapInsert_of_ne hroom]
  ext n
  simp only [heapEntries, Set.mem_ofPred_eq, Set.mem_insert_iff, hfst]
  constructor
  · rintro ⟨i, hi, rfl⟩
    have hi' := hrange' i hi
    by_cases hlast : π i = heap.size
    · left
      rw [hlast, Function.update_self]
    · right
      exact ⟨π i, by omega, (Function.update_of_ne hlast ..).symm⟩
  · rintro (rfl | ⟨i, hi, rfl⟩)
    · obtain ⟨k, hk, hπ⟩ := exists_lt_of_maps_lt hrange' (Nat.lt_succ_self heap.size)
      exact ⟨k, hk, by rw [hπ, Function.update_self]⟩
    · obtain ⟨k, hk, hπ⟩ := exists_lt_of_maps_lt hrange' (Nat.lt_succ_of_lt hi)
      exact ⟨k, hk, by rw [hπ, Function.update_of_ne hi.ne]⟩

theorem HashHeap.Bounded.insert {heap : HashHeap} (h : heap.Bounded) (key : FlowKey) (data : Int) :
    (hashHeapInsert heap key data).2.Bounded := by
  by_cases hfull : heap.size = heap.max_size
  · rw [hashHeapInsert, if_pos hfull]
    exact h
  · obtain ⟨hmax, hsize, hpos⟩ := h
    have hle := siftUp_snd_le Node.data heap.elem ⟨key, data⟩ heap.size
    rw [hashHeapInsert_of_ne hfull]
    refine ⟨hmax, by show heap.size + 1 ≤ heap.max_size; omega, hpos.insert key ?_⟩
    rw [toNat_position (Nat.lt_succ_of_le hle) (by omega)]
    omega

/-- An upsert on a bounded heap never faults: it inserts, or it overwrites an entry of the array
and heapifies from the root. -/
theorem hashHeapUpsert_cases {heap : HashHeap} (h : heap.Bounded) (f : Int → Int) (key : FlowKey)
    (value : Int) :
    (hashTableGet heap.indexes key = none ∧
        hashHeapUpsert f heap key value = .ok (hashHeapInsert heap key value)) ∨
      ∃ index : BitVec 32, hashTableGet heap.indexes key = some index ∧
        index.toNat < heap.max_size ∧
        hashHeapUpsert f heap key value =
          .ok (success, hashHeapHeapify
            { heap with
              elem := Function.update heap.elem index.toNat
                { heap.elem index.toNat with data := f (heap.elem index.toNat).data } } 0) := by
  cases hget : hashTableGet heap.indexes key with
  | none => exact .inl ⟨rfl, by simp only [hashHeapUpsert, hget]⟩
  | some index =>
      have hlt : index.toNat < heap.max_size := h.positions.get hget
      exact .inr ⟨index, rfl, hlt, by simp only [hashHeapUpsert, hget, if_pos hlt.le]⟩

theorem HashHeap.Bounded.upsert {heap : HashHeap} (h : heap.Bounded) {f : Int → Int} {key : FlowKey}
    {value : Int} {r : Int × HashHeap} (hr : hashHeapUpsert f heap key value = .ok r) :
    r.2.Bounded := by
  rcases hashHeapUpsert_cases h f key value with ⟨-, heq⟩ | ⟨index, -, hlt, heq⟩
  · obtain rfl := Except.ok.inj (heq.symm.trans hr)
    exact h.insert key value
  · obtain rfl := Except.ok.inj (heq.symm.trans hr)
    apply HashHeap.Bounded.heapify
    exact ⟨h.max_lt, h.size_le, h.positions⟩

/-- The three outcomes of an extraction: nothing to do, a fault of the table, or the last entry
put at the root. -/
theorem hashHeapExtract_cases (heap : HashHeap) :
    (heap.size = 0 ∧ hashHeapExtract heap = .ok heap) ∨
      (0 < heap.size ∧
        ((∃ e, hashTableRemove heap.indexes (heap.elem (heap.size - 1)).key = .error e ∧
            hashHeapExtract heap = .error e) ∨
          ∃ r, hashTableRemove heap.indexes (heap.elem (heap.size - 1)).key = .ok r ∧
            hashHeapExtract heap =
              .ok (hashHeapHeapify
                { heap with
                  size := heap.size - 1
                  elem := Function.update heap.elem 0 (heap.elem (heap.size - 1))
                  indexes := r.2 } 0))) := by
  by_cases hsize : heap.size = 0
  · exact .inl ⟨hsize, by rw [hashHeapExtract, if_pos hsize]⟩
  · have hlast : (Function.update heap.elem 0 (heap.elem (heap.size - 1)) (heap.size - 1)) =
        heap.elem (heap.size - 1) := by
      rw [Function.update_apply]
      split
      · rfl
      · rfl
    refine .inr ⟨Nat.pos_of_ne_zero hsize, ?_⟩
    cases hrem : hashTableRemove heap.indexes (heap.elem (heap.size - 1)).key with
    | error e => exact .inl ⟨e, rfl, by simp only [hashHeapExtract, if_neg hsize, hlast, hrem]⟩
    | ok r => exact .inr ⟨r, rfl, by simp only [hashHeapExtract, if_neg hsize, hlast, hrem]⟩

theorem HashHeap.Bounded.extract {heap heap' : HashHeap} (h : heap.Bounded)
    (hr : hashHeapExtract heap = .ok heap') : heap'.Bounded := by
  rcases hashHeapExtract_cases heap with ⟨-, heq⟩ | ⟨-, ⟨e, -, heq⟩ | ⟨r, hrem, heq⟩⟩
  · obtain rfl := Except.ok.inj (heq.symm.trans hr)
    exact h
  · simp [heq] at hr
  · obtain rfl := Except.ok.inj (heq.symm.trans hr)
    obtain ⟨hmax, hsize, hpos⟩ := h
    apply HashHeap.Bounded.heapify
    exact ⟨hmax, by show heap.size - 1 ≤ heap.max_size; omega, hpos.remove hrem⟩

theorem HashHeap.Bounded.step {heap heap' : HashHeap} (h : heap.Bounded) {op : HeapOp}
    {answer : HeapAnswer} (hok : hashHeapStep heap op = .ok (answer, heap')) : heap'.Bounded := by
  cases op with
  | insert key data =>
      cases hok
      exact h.insert key data
  | inc key value =>
      obtain ⟨ret, -, hr⟩ := codeAnswer_eq_ok hok
      exact h.upsert hr
  | updateOrInsert key value =>
      obtain ⟨ret, -, hr⟩ := codeAnswer_eq_ok hok
      exact h.upsert hr
  | extract =>
      cases hr : hashHeapExtract heap with
      | error e => simp [hashHeapStep, hr] at hok
      | ok r =>
          simp only [hashHeapStep, hr] at hok
          cases hok
          exact h.extract hr
  | peek =>
      cases hok
      exact h

/-! ## The table and the array -/

/-- The table maps the key of every entry to its position, and every key of the table belongs to
exactly one entry. -/
structure IndexesAgree (heap : HashHeap) : Prop where
  found : ∀ i < heap.size, hashTableGet heap.indexes (heap.elem i).key = some (BitVec.ofNat 32 i)
  placed : ∀ key index, hashTableGet heap.indexes key = some index →
    ∃! i, i < heap.size ∧ (heap.elem i).key = key

/-- A key that no entry has is not in the table. -/
theorem IndexesAgree.get_eq_none {heap : HashHeap} (h : IndexesAgree heap) {key : FlowKey}
    (hkey : ∀ i < heap.size, (heap.elem i).key ≠ key) : hashTableGet heap.indexes key = none := by
  rw [Option.eq_none_iff_forall_ne_some]
  intro index hget
  obtain ⟨i, ⟨hi, hik⟩, -⟩ := h.placed key index hget
  exact hkey i hi hik

/-- The index of a key is the position of its entry. -/
theorem IndexesAgree.get_eq_some {heap : HashHeap} (hb : heap.Bounded) (h : IndexesAgree heap)
    {key : FlowKey} {index : BitVec 32} (hget : hashTableGet heap.indexes key = some index) :
    index.toNat < heap.size ∧ (heap.elem index.toNat).key = key := by
  obtain ⟨i, ⟨hi, hik⟩, -⟩ := h.placed key index hget
  have hindex : BitVec.ofNat 32 i = index := by
    have := h.found i hi
    rw [hik, hget] at this
    exact (Option.some.inj this).symm
  have hmax := hb.max_lt
  have hsize := hb.size_le
  rw [← hindex, toNat_position hi (by omega)]
  exact ⟨hi, hik⟩

/-- Two entries of the heap never have the same key. -/
theorem IndexesAgree.key_inj {heap : HashHeap} (h : IndexesAgree heap) {i j : Nat}
    (hi : i < heap.size) (hj : j < heap.size) (hij : (heap.elem i).key = (heap.elem j).key) :
    i = j := by
  obtain ⟨k, -, hk⟩ := h.placed _ _ (h.found j hj)
  exact (hk i ⟨hi, hij⟩).trans (hk j ⟨hj, rfl⟩).symm

/-- Only the keys of the entries matter. -/
theorem IndexesAgree.of_keys {heap : HashHeap} (h : IndexesAgree heap) {elem : Nat → Node}
    (hkeys : ∀ i < heap.size, (elem i).key = (heap.elem i).key) :
    IndexesAgree { heap with elem := elem } := by
  constructor
  · intro i hi
    show hashTableGet heap.indexes (elem i).key = _
    rw [hkeys i hi]
    exact h.found i hi
  · intro key index hget
    obtain ⟨i, ⟨hi, hik⟩, huniq⟩ := h.placed key index hget
    refine ⟨i, ⟨hi, (hkeys i hi).trans hik⟩, ?_⟩
    rintro j ⟨hj, hjk⟩
    exact huniq j ⟨hj, (hkeys j hj).symm.trans hjk⟩

/-- Lookup after the two stores of a swap. -/
theorem hashHeapSwap_get (heap : HashHeap) {i j : Nat} (hij : i ≠ j)
    (hkey : (heap.elem i).key ≠ (heap.elem j).key) (key : FlowKey) :
    hashTableGet (hashHeapSwap heap i j).indexes key =
      if key = (heap.elem i).key then
        (hashTableGet heap.indexes key).map fun _ => BitVec.ofNat 32 j
      else if key = (heap.elem j).key then
        (hashTableGet heap.indexes key).map fun _ => BitVec.ofNat 32 i
      else hashTableGet heap.indexes key := by
  have hi : (swap heap.elem i j i).key = (heap.elem j).key := by
    rw [swap_apply, if_neg hij, if_pos rfl]
  have hj : (swap heap.elem i j j).key = (heap.elem i).key := by rw [swap_apply, if_pos rfl]
  show hashTableGet (hashTableSet (hashTableSet heap.indexes (swap heap.elem i j i).key _).2
    (swap heap.elem i j j).key _).2 key = _
  rw [hi, hj, hashTableGet_set, hashTableGet_set, hashTableGet_set, if_neg hkey]
  split_ifs with h₁ h₂
  · rw [h₁]
  · rw [h₂]
  · rfl

/-- A swap adds no key to the table. -/
theorem hashHeapSwap_get_eq_none {heap : HashHeap} {key : FlowKey}
    (h : hashTableGet heap.indexes key = none) (i j : Nat) :
    hashTableGet (hashHeapSwap heap i j).indexes key = none :=
  hashTableGet_set_eq_none (hashTableGet_set_eq_none h _ _) _ _

/-- Nor does it take one out. -/
theorem hashHeapSwap_get_ne_none {heap : HashHeap} {key : FlowKey}
    (h : hashTableGet heap.indexes key ≠ none) (i j : Nat) :
    hashTableGet (hashHeapSwap heap i j).indexes key ≠ none :=
  hashTableGet_set_ne_none (hashTableGet_set_ne_none h _ _) _ _

/-- No key loses its binding in a sift, and none gets one. -/
theorem hashHeapHeapify_get_eq_none_iff (heap : HashHeap) (i : Nat) (key : FlowKey) :
    hashTableGet (hashHeapHeapify heap i).indexes key = none ↔
      hashTableGet heap.indexes key = none := by
  refine hashHeapHeapify_induct (motive := fun after =>
    hashTableGet after.indexes key = none ↔ hashTableGet heap.indexes key = none) ?_ Iff.rfl i
  intro after i j h _ _
  rw [← h]
  constructor
  · contrapose
    exact fun hget => hashHeapSwap_get_ne_none hget i j
  · exact fun hget => hashHeapSwap_get_eq_none hget i j

theorem IndexesAgree.swap {heap : HashHeap} (h : IndexesAgree heap) {i j : Nat} (hij : i < j)
    (hj : j < heap.size) : IndexesAgree (hashHeapSwap heap i j) := by
  have hi : i < heap.size := hij.trans hj
  have hkey : (heap.elem i).key ≠ (heap.elem j).key := fun hk => hij.ne (h.key_inj hi hj hk)
  constructor
  · intro k hk
    rw [hashHeapSwap_get heap hij.ne hkey, hashHeapSwap_elem, swap_apply]
    by_cases hkj : k = j
    · subst hkj
      rw [if_pos rfl, if_pos rfl, h.found i hi, Option.map_some]
    · rw [if_neg hkj]
      by_cases hki : k = i
      · subst hki
        rw [if_pos rfl, if_neg hkey.symm, if_pos rfl, h.found j hj, Option.map_some]
      · rw [if_neg hki, if_neg (fun hk' => hki (h.key_inj hk hi hk')),
          if_neg (fun hk' => hkj (h.key_inj hk hj hk'))]
        exact h.found k hk
  · intro key index hget
    -- the swap adds no key, and relabels the positions of the entries
    have hold : hashTableGet heap.indexes key ≠ none := by
      intro hnone
      rw [hashHeapSwap_get_eq_none hnone] at hget
      cases hget
    obtain ⟨index', hold⟩ := Option.ne_none_iff_exists'.mp hold
    obtain ⟨k, ⟨hk, hkk⟩, huniq⟩ := h.placed key index' hold
    refine ⟨Equiv.swap i j k, ⟨equivSwap_lt hi hj hk, ?_⟩, ?_⟩
    · rw [hashHeapSwap_elem, swap_eq_equiv, Equiv.swap_apply_self, hkk]
    · rintro m ⟨hm, hmk⟩
      rw [hashHeapSwap_elem, swap_eq_equiv] at hmk
      rw [← huniq _ ⟨equivSwap_lt hi hj hm, hmk⟩, Equiv.swap_apply_self]

theorem IndexesAgree.heapify {heap : HashHeap} (h : IndexesAgree heap) (i : Nat) :
    IndexesAgree (hashHeapHeapify heap i) :=
  hashHeapHeapify_induct (fun _ _ _ h hij hj => h.swap hij hj) h i

theorem hashHeapHeapify_wellFormed {heap : HashHeap} (h : heap.indexes.WellFormed) (i : Nat) :
    (hashHeapHeapify heap i).indexes.WellFormed :=
  hashHeapHeapify_induct (motive := fun heap => heap.indexes.WellFormed)
    (fun _ _ _ h _ _ => (h.set _ _).set _ _) h i

/-- Heapify never gives a binding back to an entry that has lost it. -/
theorem not_indexesAgree_heapify {heap : HashHeap} (key : FlowKey)
    (hlost : hashTableGet heap.indexes key = none) (hmem : ∃ i < heap.size, (heap.elem i).key = key)
    (i : Nat) : ¬ IndexesAgree (hashHeapHeapify heap i) := by
  have hkeep : hashTableGet (hashHeapHeapify heap i).indexes key = none ∧
      ∃ k < (hashHeapHeapify heap i).size, ((hashHeapHeapify heap i).elem k).key = key := by
    refine hashHeapHeapify_induct (motive := fun heap => hashTableGet heap.indexes key = none ∧
      ∃ k < heap.size, (heap.elem k).key = key) ?_ ⟨hlost, hmem⟩ i
    rintro heap i j ⟨hlost, k, hk, hkk⟩ hij hj
    refine ⟨hashHeapSwap_get_eq_none hlost i j,
      Equiv.swap i j k, equivSwap_lt (hij.trans hj) hj hk, ?_⟩
    rw [hashHeapSwap_elem, swap_eq_equiv, Equiv.swap_apply_self, hkk]
  intro hagree
  obtain ⟨hnone, k, hk, rfl⟩ := hkeep
  have := hagree.found k hk
  rw [hnone] at this
  cases this

/-- The heap is full, or the new entry does not have to move past its parent. -/
def InsertStays (heap : HashHeap) (data : Int) : Prop :=
  heap.size = heap.max_size ∨ heap.size = 0 ∨ (heap.elem ((heap.size - 1) / 2)).data ≤ data

/-- A new entry behind the last one, bound to its position. -/
theorem IndexesAgree.append {heap : HashHeap} (h : IndexesAgree heap) {key : FlowKey}
    (hkey : ∀ i < heap.size, (heap.elem i).key ≠ key) (data : Int) :
    IndexesAgree
      { heap with
        size := heap.size + 1
        elem := Function.update heap.elem heap.size ⟨key, data⟩
        indexes := hashTableInsert heap.indexes key (BitVec.ofNat 32 heap.size) } := by
  have hnew := h.get_eq_none hkey
  constructor
  · intro i hi
    dsimp only at hi ⊢
    rw [hashTableGet_insert hnew]
    by_cases hlast : i = heap.size
    · rw [hlast, Function.update_self, if_pos rfl]
    · rw [Function.update_of_ne hlast, if_neg (hkey i (by omega))]
      exact h.found i (by omega)
  · intro key' index hget
    dsimp only at hget ⊢
    rw [hashTableGet_insert hnew] at hget
    by_cases hk : key' = key
    · refine ⟨heap.size, ⟨Nat.lt_succ_self _, by rw [Function.update_self, hk]⟩, ?_⟩
      rintro j ⟨hj, hjk⟩
      by_contra hne
      rw [Function.update_of_ne hne, hk] at hjk
      exact hkey j (by omega) hjk
    · rw [if_neg hk] at hget
      obtain ⟨i, ⟨hi, hik⟩, huniq⟩ := h.placed key' index hget
      refine ⟨i, ⟨Nat.lt_succ_of_lt hi, by rw [Function.update_of_ne hi.ne, hik]⟩, ?_⟩
      rintro j ⟨hj, hjk⟩
      have hne : j ≠ heap.size := by
        rintro rfl
        rw [Function.update_self] at hjk
        exact hk hjk.symm
      rw [Function.update_of_ne hne] at hjk
      exact huniq j ⟨by omega, hjk⟩

/-- An insertion of a new key keeps the table in agreement exactly when no parent is moved. -/
theorem indexesAgree_insert_iff {heap : HashHeap} (hb : heap.Bounded) (h : IndexesAgree heap)
    {key : FlowKey} (hkey : ∀ i < heap.size, (heap.elem i).key ≠ key) (data : Int) :
    IndexesAgree (hashHeapInsert heap key data).2 ↔ InsertStays heap data := by
  by_cases hfull : heap.size = heap.max_size
  · rw [hashHeapInsert, if_pos hfull]
    exact iff_of_true h (.inl hfull)
  rw [hashHeapInsert_of_ne hfull]
  by_cases hmove : 0 < heap.size ∧ data < (heap.elem (parent heap.size)).data
  · -- the moved parent keeps its old position in the table
    have hmoved := siftUp_fst_self Node.data heap.elem ⟨key, data⟩ hmove
    have hparent := parent_lt hmove.1
    refine iff_of_false ?_ ?_
    · intro hagree
      have hfound := hagree.found heap.size (Nat.lt_succ_self heap.size)
      dsimp only at hfound
      rw [hmoved, hashTableGet_insert (h.get_eq_none hkey), if_neg (hkey _ hparent),
        h.found _ hparent] at hfound
      have hpos := congrArg BitVec.toNat (Option.some.inj hfound)
      have hmax := hb.max_lt
      have hsize := hb.size_le
      rw [toNat_position hparent (by omega), toNat_position (Nat.lt_succ_self heap.size) (by omega)]
        at hpos
      exact absurd hpos hparent.ne
    · rintro (hf | h0 | hle)
      · exact hfull hf
      · exact absurd hmove.1 (by omega)
      · exact absurd hmove.2 (not_lt.mpr hle)
  · refine iff_of_true ?_ ?_
    · rw [siftUp_eq_of_not (⟨key, data⟩ : Node) hmove]
      exact h.append hkey data
    · rcases Nat.eq_zero_or_pos heap.size with h0 | h0
      · exact .inr (.inl h0)
      · exact .inr (.inr (not_lt.mp fun hlt => hmove ⟨h0, hlt⟩))

/-- Overwriting the data of a present key keeps the agreement. -/
theorem indexesAgree_upsert_iff {heap : HashHeap} (hb : heap.Bounded) (h : IndexesAgree heap)
    (f : Int → Int) (key : FlowKey) (value : Int) :
    (∃ r, hashHeapUpsert f heap key value = .ok r ∧ IndexesAgree r.2) ↔
      (hashTableGet heap.indexes key = none → InsertStays heap value) := by
  rcases hashHeapUpsert_cases hb f key value with ⟨hnone, heq⟩ | ⟨index, hsome, -, heq⟩
  · have hkey : ∀ i < heap.size, (heap.elem i).key ≠ key := by
      rintro i hi rfl
      rw [h.found i hi] at hnone
      cases hnone
    rw [heq, ← indexesAgree_insert_iff hb h hkey value]
    simp [hnone]
  · obtain ⟨hlt, -⟩ := h.get_eq_some hb hsome
    refine iff_of_true ⟨_, heq, ?_⟩ (fun hnone => ?_)
    · apply IndexesAgree.heapify
      apply h.of_keys
      intro i _
      rw [Function.update_apply]
      split
      case isTrue hi => rw [hi]
      case isFalse => rfl
    · rw [hsome] at hnone
      cases hnone

/-- No extraction from a non-empty heap keeps the agreement. -/
theorem indexesAgree_extract_iff {heap : HashHeap} (hw : heap.indexes.WellFormed)
    (h : IndexesAgree heap) :
    (∃ heap', hashHeapExtract heap = .ok heap' ∧ IndexesAgree heap') ↔ heap.size = 0 := by
  rcases hashHeapExtract_cases heap with ⟨h0, heq⟩ | ⟨hpos, ⟨e, -, heq⟩ | ⟨r, hrem, heq⟩⟩
  · exact iff_of_true ⟨heap, heq, h⟩ h0
  · exact iff_of_false (by simp [heq]) hpos.ne'
  · refine iff_of_false ?_ hpos.ne'
    rintro ⟨heap', hok, hagree⟩
    obtain rfl := Except.ok.inj (heq.symm.trans hok)
    have hget := (hashTableRemove_spec hw hrem).2.2
    rcases Nat.eq_zero_or_pos (heap.size - 1) with hlast | hlast
    · -- the only key of the table is the head of its chain, and such a removal faults
      have hsafe := hashTableRemove_ok_iff.mp ⟨r, hrem⟩
      rw [hlast, HashTable.removeSafe] at hsafe
      cases hchain : heap.indexes.chain (heap.elem 0).key with
      | nil => simp [hchain] at hsafe
      | cons p rest =>
          have hp : hashTableGet heap.indexes p.key ≠ none :=
            hw.get_of_mem (show p.key ∈ (heap.indexes.chain (heap.elem 0).key).map HtlistNode.key by
              simp [hchain])
          obtain ⟨index, hp⟩ := Option.ne_none_iff_exists'.mp hp
          obtain ⟨i, ⟨hi, hik⟩, -⟩ := h.placed _ _ hp
          have hi0 : i = 0 := by omega
          rw [hi0] at hik
          rw [hchain] at hsafe
          simp [hik] at hsafe
    · -- the entry moved to the root has lost its binding
      refine not_indexesAgree_heapify (heap.elem (heap.size - 1)).key ?_ ?_ 0 hagree
      · show hashTableGet r.2 _ = none
        rw [hget, if_pos rfl]
      · exact ⟨0, hlast, by dsimp only; rw [Function.update_self]⟩

/-- The condition on one call: nothing inserted has to move past its parent, and nothing is
extracted. -/
def IndexSafe (heap : HashHeap) : HeapOp → Prop
  | .insert _ data => InsertStays heap data
  | .inc key value => hashTableGet heap.indexes key = none → InsertStays heap value
  | .updateOrInsert key value => hashTableGet heap.indexes key = none → InsertStays heap value
  | .extract => heap.size = 0
  | .peek => True

/-- The caller's side: a key that is inserted directly is not in the heap. -/
def HeapInsertFresh (heap : HashHeap) : HeapOp → Prop
  | .insert key _ => ∀ i < heap.size, (heap.elem i).key ≠ key
  | _ => True

theorem codeAnswer_good_iff {r : Except MemFault (Int × HashHeap)} (good : HashHeap → Prop) :
    (∃ answer heap', codeAnswer r = .ok (answer, heap') ∧ good heap') ↔
      ∃ s, r = .ok s ∧ good s.2 := by
  constructor
  · rintro ⟨answer, heap', hok, hgood⟩
    obtain ⟨ret, -, rfl⟩ := codeAnswer_eq_ok hok
    exact ⟨_, rfl, hgood⟩
  · rintro ⟨s, rfl, hgood⟩
    exact ⟨_, _, rfl, hgood⟩

theorem indexesAgree_step_iff {heap : HashHeap} (hb : heap.Bounded) (hw : heap.indexes.WellFormed)
    (h : IndexesAgree heap) {op : HeapOp} (hfresh : HeapInsertFresh heap op) :
    (∃ answer heap', hashHeapStep heap op = .ok (answer, heap') ∧ IndexesAgree heap') ↔
      IndexSafe heap op := by
  cases op with
  | insert key data =>
      rw [hashHeapStep, codeAnswer_good_iff, IndexSafe, ← indexesAgree_insert_iff hb h hfresh data]
      simp
  | inc key value =>
      rw [hashHeapStep, codeAnswer_good_iff]
      exact indexesAgree_upsert_iff hb h _ key value
  | updateOrInsert key value =>
      rw [hashHeapStep, codeAnswer_good_iff]
      exact indexesAgree_upsert_iff hb h _ key value
  | extract =>
      rw [IndexSafe, ← indexesAgree_extract_iff hw h, hashHeapStep]
      cases hashHeapExtract heap with
      | error e => simp
      | ok heap' => simp
  | peek => exact iff_of_true ⟨_, _, rfl, h⟩ trivial

theorem hashHeapInsert_wellFormed {heap : HashHeap} (hw : heap.indexes.WellFormed) {key : FlowKey}
    (hnew : hashTableGet heap.indexes key = none) (data : Int) :
    (hashHeapInsert heap key data).2.indexes.WellFormed := by
  rw [hashHeapInsert]
  split
  · exact hw
  · exact hw.insert _ hnew

theorem hashHeapUpsert_wellFormed {heap : HashHeap} (hb : heap.Bounded)
    (hw : heap.indexes.WellFormed) {f : Int → Int} {key : FlowKey} {value : Int}
    {r : Int × HashHeap} (hr : hashHeapUpsert f heap key value = .ok r) :
    r.2.indexes.WellFormed := by
  rcases hashHeapUpsert_cases hb f key value with ⟨hnone, heq⟩ | ⟨index, -, -, heq⟩
  · obtain rfl := Except.ok.inj (heq.symm.trans hr)
    exact hashHeapInsert_wellFormed hw hnone value
  · obtain rfl := Except.ok.inj (heq.symm.trans hr)
    apply hashHeapHeapify_wellFormed
    exact hw

/-- The table stays well formed as long as new keys only are inserted. -/
theorem hashHeapStep_wellFormed {heap heap' : HashHeap} (hb : heap.Bounded)
    (hw : heap.indexes.WellFormed) {op : HeapOp} {answer : HeapAnswer}
    (hnew : ∀ key data, op = .insert key data → hashTableGet heap.indexes key = none)
    (hok : hashHeapStep heap op = .ok (answer, heap')) : heap'.indexes.WellFormed := by
  cases op with
  | insert key data =>
      cases hok
      exact hashHeapInsert_wellFormed hw (hnew key data rfl) data
  | inc key value =>
      obtain ⟨ret, -, hr⟩ := codeAnswer_eq_ok hok
      exact hashHeapUpsert_wellFormed hb hw hr
  | updateOrInsert key value =>
      obtain ⟨ret, -, hr⟩ := codeAnswer_eq_ok hok
      exact hashHeapUpsert_wellFormed hb hw hr
  | extract =>
      rcases hashHeapExtract_cases heap with ⟨-, heq⟩ | ⟨-, ⟨e, -, heq⟩ | ⟨r, hrem, heq⟩⟩
      · simp only [hashHeapStep, heq] at hok
        cases hok
        exact hw
      · simp [hashHeapStep, heq] at hok
      · simp only [hashHeapStep, heq] at hok
        cases hok
        apply hashHeapHeapify_wellFormed
        exact (hashTableRemove_spec hw hrem).2.1
  | peek =>
      cases hok
      exact hw

/-! ## Whole runs -/

theorem newHashHeap_ok {max_size : Nat} (hhi : max_size < 2 ^ 31) :
    ∃ indexes, newHashTable (Nat.log2 max_size) = .ok indexes ∧
      newHashHeap max_size =
        .ok ⟨indexes, 0, max_size - 1, fun _ => ⟨emptyKey, 0⟩⟩ := by
  have hbits : Nat.log2 max_size ≤ 30 := by
    rcases Nat.eq_zero_or_pos max_size with rfl | hpos
    · decide
    · have := (Nat.log2_lt (by omega : max_size ≠ 0)).mpr hhi
      omega
  have hnew : ∃ indexes, newHashTable (Nat.log2 max_size) = .ok indexes :=
    ⟨_, by rw [newHashTable, dif_pos hbits]⟩
  obtain ⟨indexes, hnew⟩ := hnew
  exact ⟨indexes, hnew, by simp only [newHashHeap, hnew]⟩

/-- A condition holds at every call of a run on a new heap. -/
def HeapRunMeets (max_size : Nat) (cond : HashHeap → HeapOp → Prop) (ops : List HeapOp) : Prop :=
  ∀ heap, newHashHeap max_size = .ok heap → RunMeets hashHeapStep cond heap ops

/-- Every call of a run on a new heap succeeds, with a good answer and a good heap after it. -/
def HeapRunHolds (max_size : Nat) (good : HashHeap → HeapOp → HeapAnswer → HashHeap → Prop)
    (ops : List HeapOp) : Prop :=
  ∃ heap, newHashHeap max_size = .ok heap ∧ RunHolds hashHeapStep good heap ops

/-- Runs on a new heap are decided step by step. -/
theorem heapRunHolds_iff {max_size : Nat} (hhi : max_size < 2 ^ 31)
    {good : HashHeap → HeapOp → HeapAnswer → HashHeap → Prop}
    (allowed : HashHeap → HeapOp → Prop) (inv : HashHeap → Prop) {cond : HashHeap → HeapOp → Prop}
    (hstep : ∀ heap op, inv heap → allowed heap op →
      ((∃ r heap', hashHeapStep heap op = .ok (r, heap') ∧ good heap op r heap') ↔ cond heap op))
    (hinv : ∀ heap op r heap', inv heap → allowed heap op → hashHeapStep heap op = .ok (r, heap') →
      good heap op r heap' → inv heap')
    (hstart : ∀ indexes, newHashTable (Nat.log2 max_size) = .ok indexes →
      HashHeap.Bounded ⟨indexes, 0, max_size - 1, fun _ => ⟨emptyKey, 0⟩⟩ →
      inv ⟨indexes, 0, max_size - 1, fun _ => ⟨emptyKey, 0⟩⟩)
    {ops : List HeapOp} (hops : HeapRunMeets max_size allowed ops) :
    HeapRunHolds max_size good ops ↔ HeapRunMeets max_size cond ops := by
  obtain ⟨indexes, hindexes, hnew⟩ := newHashHeap_ok hhi
  have hb : HashHeap.Bounded ⟨indexes, 0, max_size - 1, fun _ => ⟨emptyKey, 0⟩⟩ :=
    ⟨by show max_size - 1 < 2 ^ 31; omega, Nat.zero_le _, newHashTable_allValues hindexes⟩
  have hrun := runHolds_iff_runMeets allowed inv hstep hinv (hstart indexes hindexes hb) (hops _ hnew)
  constructor
  · rintro ⟨heap, hok, hholds⟩ heap' hok'
    obtain rfl := Except.ok.inj (hok.symm.trans hok')
    obtain rfl := Except.ok.inj (hnew.symm.trans hok)
    exact hrun.mp hholds
  · intro hmeets
    exact ⟨_, hnew, hrun.mpr (hmeets _ hnew)⟩

/-- The table and the array agree after every call of a run. -/
def HeapIndexesAgree (max_size : Nat) (ops : List HeapOp) : Prop :=
  HeapRunHolds max_size (fun _ _ _ heap' => IndexesAgree heap') ops

/-- **Table and array agree** throughout exactly the runs in which no insertion moves a parent and
nothing is extracted from a non-empty heap. -/
theorem heapIndexesAgree_iff {max_size : Nat} {ops : List HeapOp} (_hlo : 2 ≤ max_size)
    (hhi : max_size < 2 ^ 31) (hfresh : HeapRunMeets max_size HeapInsertFresh ops) :
    HeapIndexesAgree max_size ops ↔ HeapRunMeets max_size IndexSafe ops := by
  refine heapRunHolds_iff hhi HeapInsertFresh
    (fun heap => heap.Bounded ∧ heap.indexes.WellFormed ∧ IndexesAgree heap)
    (fun heap op hinv hop => indexesAgree_step_iff hinv.1 hinv.2.1 hinv.2.2 hop) ?_ ?_ hfresh
  · rintro heap op answer heap' ⟨hb, hw, h⟩ hop hok hagree
    refine ⟨hb.step hok, hashHeapStep_wellFormed hb hw ?_ hok, hagree⟩
    rintro key data rfl
    exact h.get_eq_none hop
  · intro indexes hindexes hb
    have hget := newHashTable_get hindexes
    refine ⟨hb, newHashTable_wellFormed hindexes, ?_, ?_⟩
    · intro i hi
      exact absurd hi (Nat.not_lt_zero i)
    · intro key index h
      simp [hget] at h

/-- What a new heap looks like. -/
theorem newHashHeap_spec {max_size : Nat} {heap : HashHeap} (h : newHashHeap max_size = .ok heap) :
    heap.size = 0 ∧ heap.max_size = max_size - 1 ∧
      ∀ key, hashTableGet heap.indexes key = none := by
  rw [newHashHeap] at h
  split at h
  case h_1 indexes hindexes =>
    cases h
    exact ⟨rfl, rfl, newHashTable_get hindexes⟩
  case h_2 => cases h

/-- Two flows for the concrete runs below. -/
def hostA : FlowKey := ⟨1, 2, 3, 4, 6⟩

@[inherit_doc hostA]
def hostB : FlowKey := ⟨5, 6, 7, 8, 6⟩

theorem hostA_ne_hostB : hostA ≠ hostB := by decide

/-- A second, larger entry and an increment of the first one. -/
theorem heapIndexesAgree_insert_insert_inc :
    HeapIndexesAgree 4
      [.insert hostA 3, .insert hostB 5, .inc hostA 4] := by
  refine (heapIndexesAgree_iff (by decide) (by decide) ?_).mpr ?_
  · intro heap hnew
    obtain ⟨hsize, hmax, -⟩ := newHashHeap_spec hnew
    refine ⟨by simp [HeapInsertFresh, hsize], ?_⟩
    rintro answer heap₁ ⟨rfl, rfl⟩
    refine ⟨?_, fun _ _ _ => ⟨trivial, fun _ _ _ => trivial⟩⟩
    simp [HeapInsertFresh, hashHeapInsert, hashHeapInsertLoop, hsize, hmax, hostA_ne_hostB]
  · intro heap hnew
    obtain ⟨hsize, hmax, hget⟩ := newHashHeap_spec hnew
    refine ⟨by simp [IndexSafe, InsertStays, hsize], ?_⟩
    rintro answer heap₁ ⟨rfl, rfl⟩
    refine ⟨by simp [IndexSafe, InsertStays, hashHeapInsert, hashHeapInsertLoop, hsize, hmax], ?_⟩
    rintro answer heap₂ ⟨rfl, rfl⟩
    refine ⟨?_, fun _ _ _ => trivial⟩
    intro hnone
    have hfresh : hashTableGet (hashTableInsert heap.indexes hostA 0#32) hostB =
        none := by
      rw [hashTableGet_insert (hget _), if_neg hostA_ne_hostB.symm, hget]
    simp [hashHeapInsert, hashHeapInsertLoop, hsize, hmax, hashTableGet_insert hfresh,
      hashTableGet_insert (hget _), hostA_ne_hostB] at hnone

/-- A smaller second entry moves the first one down, and the table is not told. -/
theorem heapIndexesAgree_insert_smaller :
    let ops : List HeapOp := [.insert hostA 5, .insert hostB 3]
    HeapRunMeets 4 HeapInsertFresh ops ∧ ¬ HeapIndexesAgree 4 ops := by
  intro ops
  constructor
  · intro heap hnew
    obtain ⟨hsize, hmax, -⟩ := newHashHeap_spec hnew
    refine ⟨by simp [HeapInsertFresh, hsize], ?_⟩
    rintro answer heap₁ ⟨rfl, rfl⟩
    refine ⟨?_, fun _ _ _ => trivial⟩
    simp [HeapInsertFresh, hashHeapInsert, hashHeapInsertLoop, hsize, hmax, hostA_ne_hostB]
  · rintro ⟨heap, hnew, answer, heap₁, h₁, -, answer', heap₂, h₂, hagree, -⟩
    obtain ⟨hsize, hmax, hget⟩ := newHashHeap_spec hnew
    cases h₁
    cases h₂
    have hfresh : hashTableGet (hashTableInsert heap.indexes hostA 0#32) hostB =
        none := by
      rw [hashTableGet_insert (hget _), if_neg hostA_ne_hostB.symm, hget]
    have hfound := hagree.found 1 (by simp [hashHeapInsert, hsize, hmax])
    simp [hashHeapInsert, hashHeapInsertLoop, hsize, hmax, hashTableGet_insert hfresh,
      hashTableGet_insert (hget _), hostA_ne_hostB] at hfound

/-! ## The order -/

/-- `data` is the smallest in the heap and `key` a key that carries it; for an empty heap they are
0 and null. -/
def SmallestEntry (heap : HashHeap) (data : Int) (key : Option FlowKey) : Prop :=
  (heap.size = 0 → data = 0 ∧ key = none) ∧
    (0 < heap.size → (∀ i < heap.size, data ≤ (heap.elem i).data) ∧
      ∃ i < heap.size, (heap.elem i).data = data ∧ key = some (heap.elem i).key)

/-- After the call the array is in heap order, and a peek has found the smallest entry. -/
def OrderGood (heap : HashHeap) (_ : HeapOp) (answer : HeapAnswer) (heap' : HashHeap) : Prop :=
  Ordered Node.data heap'.size heap'.elem ∧
    ∀ data key, answer = .peeked data key → SmallestEntry heap data key

/-- The entry that the table gives for the key, if it gives one, can be overwritten: it is the
root, or no entry of the heap at all, or its new data is no larger than its children's and,
further down than the root's children, no smaller than its parent's. -/
def UpsertFits (f : Int → Int) (heap : HashHeap) (key : FlowKey) : Prop :=
  ∀ index, hashTableGet heap.indexes key = some index →
    let i := index.toNat
    i = 0 ∨ heap.size ≤ i ∨
      (∀ c, c = 2 * i + 1 ∨ c = 2 * i + 2 → c < heap.size →
          f (heap.elem i).data ≤ (heap.elem c).data) ∧
        (i ≤ 2 ∨ (heap.elem ((i - 1) / 2)).data ≤ f (heap.elem i).data)

/-- The condition on one call. -/
def OrderSafe (heap : HashHeap) : HeapOp → Prop
  | .insert _ _ => True
  | .inc key value => UpsertFits (fun data => signed 64 (data + value)) heap key
  | .updateOrInsert key value => UpsertFits (fun _ => value) heap key
  | .extract => heap.size = 0 ∨ heap.indexes.removeSafe (heap.elem (heap.size - 1)).key = true
  | .peek => heap.size = 0 ∨ (heap.elem (heap.size - 1)).data = (heap.elem 0).data

theorem ordered_insert {heap : HashHeap} (h : Ordered Node.data heap.size heap.elem) (key : FlowKey)
    (data : Int) :
    Ordered Node.data (hashHeapInsert heap key data).2.size (hashHeapInsert heap key data).2.elem := by
  by_cases hfull : heap.size = heap.max_size
  · rw [hashHeapInsert, if_pos hfull]
    exact h
  · rw [hashHeapInsert_of_ne hfull]
    exact ordered_siftUp h ⟨key, data⟩

theorem ordered_upsert_iff {heap : HashHeap} (hb : heap.Bounded)
    (h : Ordered Node.data heap.size heap.elem) (f : Int → Int) (key : FlowKey) (value : Int) :
    (∃ r, hashHeapUpsert f heap key value = .ok r ∧ Ordered Node.data r.2.size r.2.elem) ↔
      UpsertFits f heap key := by
  rcases hashHeapUpsert_cases hb f key value with ⟨hnone, heq⟩ | ⟨index, hsome, -, heq⟩
  · refine iff_of_true ⟨_, heq, ordered_insert h key value⟩ ?_
    intro index hsome
    rw [hnone] at hsome
    cases hsome
  · -- an entry that exists is changed in place, and only the root is sifted down
    have hordered : (∃ r, hashHeapUpsert f heap key value = .ok r ∧
        Ordered Node.data r.2.size r.2.elem) ↔
        Ordered Node.data heap.size (siftDown Node.data heap.size
          (Function.update heap.elem index.toNat
            { heap.elem index.toNat with data := f (heap.elem index.toNat).data }) 0) := by
      rw [heq]
      simp [hashHeapHeapify_elem]
    have hfits : UpsertFits f heap key ↔ _ :=
      ⟨fun hall => hall index hsome,
        fun hone index' hsome' => Option.some.inj (hsome.symm.trans hsome') ▸ hone⟩
    rw [hordered, hfits]
    dsimp only
    rcases Nat.eq_zero_or_pos index.toNat with h0 | hpos
    · rw [h0]
      exact iff_of_true (ordered_siftDown_update_zero h _) (.inl rfl)
    · -- an index past the end changes nothing that is in the heap
      rcases Nat.lt_or_ge index.toNat heap.size with hlt | hge
      · rw [ordered_siftDown_update_iff h hpos hlt]
        have hchildren : LeChildren Node.data heap.size heap.elem index.toNat
            { heap.elem index.toNat with data := f (heap.elem index.toNat).data } ↔
            ∀ c, c = 2 * index.toNat + 1 ∨ c = 2 * index.toNat + 2 → c < heap.size →
              f (heap.elem index.toNat).data ≤ (heap.elem c).data := by
          constructor
          · intro hle c hc hlt'
            have hc0 : 0 < c := by omega
            exact hle c hc0 hlt' ((parent_eq_iff hc0).mpr hc)
          · intro hle c hc0 hlt' hpc
            exact hle c ((parent_eq_iff hc0).mp hpc) hlt'
        rw [hchildren]
        constructor
        · exact fun hand => .inr (.inr hand)
        · rintro (h0 | hge | hand)
          · omega
          · omega
          · exact hand
      · refine iff_of_true ?_ (.inr (.inl hge))
        rw [siftDown_eq_self]
        · exact h.update_of_le hge _
        · intro c _ hc _
          rw [Function.update_of_ne (by omega), Function.update_of_ne (by omega)]
          exact h.root_le hc

theorem ordered_extract_iff {heap : HashHeap} (h : Ordered Node.data heap.size heap.elem) :
    (∃ heap', hashHeapExtract heap = .ok heap' ∧ Ordered Node.data heap'.size heap'.elem) ↔
      heap.size = 0 ∨ heap.indexes.removeSafe (heap.elem (heap.size - 1)).key = true := by
  rw [← hashTableRemove_ok_iff]
  rcases hashHeapExtract_cases heap with ⟨h0, heq⟩ | ⟨hpos, ⟨e, hrem, heq⟩ | ⟨r, hrem, heq⟩⟩
  · exact iff_of_true ⟨heap, heq, h⟩ (.inl h0)
  · refine iff_of_false (by simp [heq]) ?_
    rintro (h0 | ⟨r, hok⟩)
    · omega
    · rw [hrem] at hok
      cases hok
  · refine iff_of_true ⟨_, heq, ?_⟩ (.inr ⟨r, hrem⟩)
    rw [hashHeapHeapify_size, hashHeapHeapify_elem]
    apply ordered_siftDown_update_zero
    intro i hi0 hi
    exact h i hi0 (by dsimp only at hi; omega)

/-- The peeks read the last entry, which is a smallest one only if its data is the root's. -/
theorem smallestEntry_peek_iff {heap : HashHeap} (h : Ordered Node.data heap.size heap.elem) :
    SmallestEntry heap (hashHeapPeek heap) (hashHeapPeekKey heap) ↔
      heap.size = 0 ∨ (heap.elem (heap.size - 1)).data = (heap.elem 0).data := by
  by_cases h0 : heap.size = 0
  · simp [SmallestEntry, hashHeapPeek, hashHeapPeekKey, h0]
  · have hpos := Nat.pos_of_ne_zero h0
    rw [hashHeapPeek, hashHeapPeekKey, if_neg h0, if_neg h0, or_iff_right h0]
    constructor
    · rintro ⟨-, hsmall⟩
      exact le_antisymm ((hsmall hpos).1 0 hpos) (h.root_le (by omega))
    · intro heq
      refine ⟨fun h' => absurd h' h0, fun _ => ⟨?_, heap.size - 1, by omega, rfl, rfl⟩⟩
      intro i hi
      rw [heq]
      exact h.root_le hi

theorem order_step_iff {heap : HashHeap} (hb : heap.Bounded)
    (h : Ordered Node.data heap.size heap.elem) (op : HeapOp) :
    (∃ answer heap', hashHeapStep heap op = .ok (answer, heap') ∧ OrderGood heap op answer heap') ↔
      OrderSafe heap op := by
  have hcode : ∀ r : Except MemFault (Int × HashHeap),
      (∃ answer heap', codeAnswer r = .ok (answer, heap') ∧ OrderGood heap op answer heap') ↔
        ∃ s, r = .ok s ∧ Ordered Node.data s.2.size s.2.elem := by
    intro r
    rw [← codeAnswer_good_iff (fun heap' => Ordered Node.data heap'.size heap'.elem)]
    refine exists_congr fun answer => exists_congr fun heap' => and_congr_right fun hok => ?_
    obtain ⟨ret, rfl, -⟩ := codeAnswer_eq_ok hok
    simp [OrderGood]
  cases op with
  | insert key data =>
      rw [hashHeapStep, hcode]
      exact iff_of_true ⟨_, rfl, ordered_insert h key data⟩ trivial
  | inc key value =>
      rw [hashHeapStep, hcode]
      exact ordered_upsert_iff hb h _ key value
  | updateOrInsert key value =>
      rw [hashHeapStep, hcode]
      exact ordered_upsert_iff hb h _ key value
  | extract =>
      rw [OrderSafe, ← ordered_extract_iff h, hashHeapStep]
      cases hashHeapExtract heap with
      | error e => simp
      | ok heap' => simp [OrderGood]
  | peek =>
      rw [OrderSafe, ← smallestEntry_peek_iff h]
      constructor
      · rintro ⟨answer, heap', hok, -, hsmall⟩
        cases hok
        exact hsmall _ _ rfl
      · intro hsmall
        refine ⟨_, _, rfl, h, ?_⟩
        rintro data key heq
        cases heq
        exact hsmall

/-- Heap order holds after every call of a run, and every peek of the run finds the smallest
entry. -/
def HeapOrdered (max_size : Nat) (ops : List HeapOp) : Prop :=
  HeapRunHolds max_size OrderGood ops

/-- **Heap order and the peeks** are right throughout exactly the runs whose calls are all
`OrderSafe`. -/
theorem heapOrdered_iff {max_size : Nat} (ops : List HeapOp) (_hlo : 2 ≤ max_size)
    (hhi : max_size < 2 ^ 31) :
    HeapOrdered max_size ops ↔ HeapRunMeets max_size OrderSafe ops := by
  refine heapRunHolds_iff hhi (fun _ _ => True)
    (fun heap => heap.Bounded ∧ Ordered Node.data heap.size heap.elem)
    (fun heap op hinv _ => order_step_iff hinv.1 hinv.2 op) ?_ ?_ ?_
  · rintro heap op answer heap' ⟨hb, -⟩ - hok hgood
    exact ⟨hb.step hok, hgood.1⟩
  · intro indexes _ hb
    exact ⟨hb, fun i _ hi => absurd hi (Nat.not_lt_zero i)⟩
  · intro heap _
    exact runMeets_const_of_forall fun _ _ => trivial

/-- Overwriting the root with a larger value is repaired. -/
theorem heapOrdered_update_root :
    HeapOrdered 4
      [.insert hostA 3, .peek, .updateOrInsert hostA 9, .peek] := by
  refine (heapOrdered_iff _ (by decide) (by decide)).mpr ?_
  intro heap hnew
  obtain ⟨hsize, hmax, hget⟩ := newHashHeap_spec hnew
  refine ⟨trivial, ?_⟩
  rintro answer heap₁ ⟨rfl, rfl⟩
  refine ⟨by simp [OrderSafe, hashHeapInsert, hsize, hmax], ?_⟩
  rintro answer heap₂ ⟨rfl, rfl⟩
  have hroot : hashTableGet (hashHeapInsert heap hostA 3).2.indexes hostA =
      some 0#32 := by
    simp [hashHeapInsert, hashHeapInsertLoop, hsize, hmax, hashTableGet_insert (hget _)]
  refine ⟨?_, ?_⟩
  · intro index hindex
    obtain rfl := Option.some.inj (hroot.symm.trans hindex)
    exact .inl rfl
  · intro answer heap₃ hok
    obtain ⟨ret, -, hok⟩ := codeAnswer_eq_ok hok
    simp only [hashHeapUpdateOrInsert, hashHeapUpsert, hroot] at hok
    cases hok
    refine ⟨.inr ?_, fun _ _ _ => trivial⟩
    simp [hashHeapInsert, hsize, hmax]

/-- The peek of a heap with two entries answers the larger one. -/
theorem heapOrdered_peek_larger :
    ¬ HeapOrdered 4 [.insert hostA 1, .insert hostB 2, .peek] := by
  rintro ⟨heap, hnew, answer, heap₁, h₁, -, answer', heap₂, h₂, -, answer₃, heap₃, h₃, ⟨-, hsmall⟩, -⟩
  obtain ⟨hsize, hmax, -⟩ := newHashHeap_spec hnew
  cases h₁
  cases h₂
  cases h₃
  obtain ⟨-, hle⟩ := hsmall _ _ rfl
  have hroot := (hle (by simp [hashHeapInsert, hsize, hmax])).1 0 (by simp [hashHeapInsert, hsize, hmax])
  simp [hashHeapPeek, hashHeapInsert, hashHeapInsertLoop, hsize, hmax] at hroot

end OvsDatapath.Sketch
