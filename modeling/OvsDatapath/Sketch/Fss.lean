import OvsDatapath.Sketch.Hashheap

/-!
# The filtered space-saving sketch

`fss.c`: flows whose counts grow past what the heap's threshold asks for are admitted to an
indexed heap; the others are only counted per slot. `fssSketchQuery` looks a key up in the heap's
table and answers what it finds there, and that is the key's array position, not its count.

`fssAnswers_iff` draws the consequence: the key at the root of the heap is always found at
position 0 (`RootedHeap`), so its answer is 0 however much was counted for it, and every stream but
the empty one leads to a wrong answer.

The heap uses `w - 1` of its `w` entries, so `fssSketchUpdate` never reaches its eviction branch.
What it does do keeps every slot counter at least at the number of monitored keys of its slot
(`fssMonitors_prefix`), so the test of the counter never hides a key of the heap.
-/

namespace OvsDatapath.Sketch

open OvsDatapath.Lib OvsDatapath.Lib.MinHeap

/-- `struct fss_sketch`. -/
structure FssSketch where
  w : Nat
  mask : BitVec 32
  counters : Nat → Int
  hash_counters : Nat → Int
  heap : HashHeap

/-- `new_fss_sketch`; `mask` is what `rand_uint32` returned. -/
def newFssSketch (w : Nat) (mask : BitVec 32) : Except MemFault FssSketch :=
  match newHashHeap w with
  | .ok heap =>
      .ok { w := w, mask := mask, counters := fun _ => 0, hash_counters := fun _ => 0, heap := heap }
  | .error e => .error e

/-- The slot of a key. -/
def FssSketch.slot (sketch : FssSketch) (key : FlowKey) : Nat :=
  (flowKeyHashOld key ^^^ sketch.mask).toNat % sketch.w

/-- `fss_sketch_query`: the table's value, which is a position. -/
def fssSketchQuery (sketch : FssSketch) (key : FlowKey) : Int :=
  match hashTableGet sketch.heap.indexes key with
  | none => 0
  | some tvalue => tvalue.toNat

/-- `fss_sketch_update`. -/
def fssSketchUpdate (sketch : FssSketch) (key : FlowKey) (value : Int) :
    Except MemFault FssSketch :=
  let min := hashHeapPeek sketch.heap
  let u := if sketch.heap.size < sketch.heap.max_size then 0 else min
  let index := sketch.slot key
  if 0 < sketch.hash_counters index ∧ (hashTableGet sketch.heap.indexes key).isSome then
    match hashHeapInc sketch.heap key value with
    | .ok r => .ok { sketch with heap := r.2 }
    | .error e => .error e
  else
    let v := signed 32 (sketch.hash_counters index + value)
    let hash_counters := Function.update sketch.hash_counters index v
    if u < v then
      if sketch.heap.size < sketch.w then
        .ok
          { sketch with
            heap := (hashHeapInsert sketch.heap key v).2
            hash_counters := Function.update hash_counters index (signed 32 (v + 1)) }
      else
        match hashHeapExtract sketch.heap with
        | .error e => .error e
        | .ok heap =>
            match hashHeapPeekKey heap with
            | none => .error .nullDeref
            | some kmin =>
                let index_m := sketch.slot kmin
                let hash_counters := Function.update hash_counters index_m
                  (signed 32 (hash_counters index_m - 1))
                .ok
                  { sketch with
                    counters := Function.update sketch.counters index min
                    heap := (hashHeapInsert heap key v).2
                    hash_counters := Function.update hash_counters index
                      (signed 32 (hash_counters index + 1)) }
    else .ok { sketch with hash_counters := hash_counters }

/-- A stream of updates. -/
def fssRun : FssSketch → List (FlowKey × Int) → Except MemFault FssSketch
  | sketch, [] => .ok sketch
  | sketch, (key, value) :: stream =>
      match fssSketchUpdate sketch key value with
      | .ok sketch' => fssRun sketch' stream
      | .error e => .error e

/-! ## What a heap that only grows guarantees -/

/-- Every entry's key is in the table, no two entries share a key, and the root's key is found at
position 0. Positions of the other keys may be stale. -/
structure RootedHeap (heap : HashHeap) : Prop where
  bounded : heap.Bounded
  table : heap.indexes.WellFormed
  inj : ∀ i < heap.size, ∀ j < heap.size, (heap.elem i).key = (heap.elem j).key → i = j
  present : ∀ i < heap.size, hashTableGet heap.indexes (heap.elem i).key ≠ none
  root : 0 < heap.size → hashTableGet heap.indexes (heap.elem 0).key = some 0

/-- What is known about the entries of a heap: their data lies in a range, their keys satisfy `p`,
and the keys of the table satisfy `q`. -/
structure HeapEntries (bound : Int) (p q : FlowKey → Prop) (heap : HashHeap) : Prop where
  data_nonneg : ∀ i, 0 ≤ (heap.elem i).data
  data_le : ∀ i, (heap.elem i).data ≤ bound
  keys : ∀ i < heap.size, p (heap.elem i).key
  bindings : ∀ key, hashTableGet heap.indexes key ≠ none → q key

theorem RootedHeap.swap {heap : HashHeap} (h : RootedHeap heap) {i j : Nat} (hij : i < j)
    (hj : j < heap.size) : RootedHeap (hashHeapSwap heap i j) := by
  have hi : i < heap.size := hij.trans hj
  have hkey : (heap.elem i).key ≠ (heap.elem j).key := fun hk => hij.ne (h.inj i hi j hj hk)
  refine ⟨h.bounded.swap hi hj, (h.table.set _ _).set _ _, ?_, ?_, ?_⟩
  · intro k hk l hl hkl
    rw [hashHeapSwap_elem, swap_eq_equiv, swap_eq_equiv] at hkl
    exact (Equiv.swap i j).injective
      (h.inj _ (equivSwap_lt hi hj hk) _ (equivSwap_lt hi hj hl) hkl)
  · intro k hk
    rw [hashHeapSwap_elem, swap_eq_equiv]
    exact hashHeapSwap_get_ne_none (h.present _ (equivSwap_lt hi hj hk)) i j
  · intro h0
    have hj0 : ¬ 0 = j := by omega
    rw [hashHeapSwap_get heap hij.ne hkey, hashHeapSwap_elem, swap_apply, if_neg hj0]
    by_cases hi0 : 0 = i
    · -- the entry from `j` arrives at the root, and its position is stored
      subst hi0
      obtain ⟨index, hindex⟩ := Option.ne_none_iff_exists'.mp (h.present j hj)
      rw [if_pos rfl, if_neg hkey.symm, if_pos rfl, hindex]
      rfl
    · rw [if_neg hi0, if_neg (fun hk => hi0 (h.inj 0 h0 i hi hk)),
        if_neg (fun hk => absurd (h.inj 0 h0 j hj hk) (by omega))]
      exact h.root h0

theorem RootedHeap.heapify {heap : HashHeap} (h : RootedHeap heap) (i : Nat) :
    RootedHeap (hashHeapHeapify heap i) :=
  hashHeapHeapify_induct (fun _ _ _ h hij hj => h.swap hij hj) h i

theorem HeapEntries.heapify {bound : Int} {p q : FlowKey → Prop} {heap : HashHeap}
    (h : HeapEntries bound p q heap) (i : Nat) :
    HeapEntries bound p q (hashHeapHeapify heap i) := by
  refine hashHeapHeapify_induct (motive := HeapEntries bound p q) ?_ h i
  intro heap i j h hij hj
  constructor
  · intro k
    rw [hashHeapSwap_elem, swap_eq_equiv]
    exact h.data_nonneg _
  · intro k
    rw [hashHeapSwap_elem, swap_eq_equiv]
    exact h.data_le _
  · intro k hk
    rw [hashHeapSwap_elem, swap_eq_equiv]
    exact h.keys _ (equivSwap_lt (hij.trans hj) hj hk)
  · intro key hget
    refine h.bindings key fun hnone => hget ?_
    exact hashHeapSwap_get_eq_none hnone i j

/-- Overwriting the data of an entry changes no key. -/
theorem RootedHeap.overwrite {heap : HashHeap} (h : RootedHeap heap) (index : Nat) (data : Int) :
    RootedHeap { heap with
      elem := Function.update heap.elem index { heap.elem index with data := data } } := by
  have hkeys : ∀ i, (Function.update heap.elem index
      { heap.elem index with data := data } i).key = (heap.elem i).key := by
    intro i
    rw [Function.update_apply]
    split
    case isTrue hi => rw [hi]
    case isFalse => rfl
  refine ⟨⟨h.bounded.max_lt, h.bounded.size_le, h.bounded.positions⟩, h.table, ?_, ?_, ?_⟩
  · intro i hi j hj hij
    simp only [hkeys] at hij
    exact h.inj i hi j hj hij
  · intro i hi
    simp only [hkeys]
    exact h.present i hi
  · intro h0
    simp only [hkeys]
    exact h.root h0

/-- A new key at the end of the array, moved up to its place. -/
theorem RootedHeap.insert {heap : HashHeap} (h : RootedHeap heap) {key : FlowKey}
    (hnew : hashTableGet heap.indexes key = none) (data : Int) :
    RootedHeap (hashHeapInsert heap key data).2 := by
  have hb := h.bounded.insert key data
  have hw := hashHeapInsert_wellFormed h.table hnew data
  by_cases hfull : heap.size = heap.max_size
  · rw [hashHeapInsert, if_pos hfull]
    exact h
  rw [hashHeapInsert_of_ne hfull] at hb hw ⊢
  have hfresh : ∀ i < heap.size, (heap.elem i).key ≠ key := by
    rintro i hi rfl
    exact h.present i hi hnew
  obtain ⟨π, hfst, hsnd, hrange⟩ := siftUp_perm Node.data heap.elem ⟨key, data⟩ heap.size
  have hlast : ∀ k < heap.size + 1, k ≠ heap.size →
      k < heap.size ∧ Function.update heap.elem heap.size ⟨key, data⟩ k = heap.elem k :=
    fun k hk hne => ⟨by omega, Function.update_of_ne hne ..⟩
  refine ⟨hb, hw, ?_, ?_, ?_⟩
  · intro k hk l hl hkl
    have hk' := hrange _ (Nat.lt_succ_self _) k hk
    have hl' := hrange _ (Nat.lt_succ_self _) l hl
    dsimp only at hkl
    rw [hfst, hfst] at hkl
    apply π.injective
    by_cases hkn : π k = heap.size
    · by_cases hln : π l = heap.size
      · rw [hkn, hln]
      · obtain ⟨hlt, heq⟩ := hlast _ hl' hln
        rw [hkn, Function.update_self, heq] at hkl
        exact absurd hkl.symm (hfresh _ hlt)
    · obtain ⟨hkt, hkeq⟩ := hlast _ hk' hkn
      by_cases hln : π l = heap.size
      · rw [hln, Function.update_self, hkeq] at hkl
        exact absurd hkl (hfresh _ hkt)
      · obtain ⟨hlt, hleq⟩ := hlast _ hl' hln
        rw [hkeq, hleq] at hkl
        exact h.inj _ hkt _ hlt hkl
  · intro k hk
    have hk' := hrange _ (Nat.lt_succ_self _) k hk
    dsimp only
    rw [hashTableGet_insert hnew, hfst]
    by_cases hkn : π k = heap.size
    · rw [hkn, Function.update_self, if_pos rfl]
      exact Option.some_ne_none _
    · obtain ⟨hlt, heq⟩ := hlast _ hk' hkn
      rw [heq, if_neg (hfresh _ hlt)]
      exact h.present _ hlt
  · intro _
    dsimp only
    rw [hashTableGet_insert hnew]
    by_cases hpos : (siftUp Node.data heap.elem ⟨key, data⟩ heap.size).2 = 0
    · -- the new entry itself arrives at the root
      rw [hpos] at hsnd
      rw [hfst, hsnd, Function.update_self, if_pos rfl, hpos]
      rfl
    · have hle := siftUp_snd_le Node.data heap.elem ⟨key, data⟩ heap.size
      rw [siftUp_fst_zero _ _ hpos, if_neg (hfresh 0 (by omega))]
      exact h.root (by omega)

theorem HeapEntries.insert {bound : Int} {p q : FlowKey → Prop} {heap : HashHeap}
    (h : HeapEntries bound p q heap) {key : FlowKey} {data : Int} (hdata : 0 ≤ data ∧ data ≤ bound)
    (hnew : hashTableGet heap.indexes key = none) (hp : p key) (hq : q key) :
    HeapEntries bound p q (hashHeapInsert heap key data).2 := by
  by_cases hfull : heap.size = heap.max_size
  · rw [hashHeapInsert, if_pos hfull]
    exact h
  rw [hashHeapInsert_of_ne hfull]
  obtain ⟨π, hfst, -, hrange⟩ := siftUp_perm Node.data heap.elem ⟨key, data⟩ heap.size
  constructor
  · intro k
    dsimp only
    rw [hfst, Function.update_apply]
    split
    · exact hdata.1
    · exact h.data_nonneg _
  · intro k
    dsimp only
    rw [hfst, Function.update_apply]
    split
    · exact hdata.2
    · exact h.data_le _
  · intro k hk
    have hk' := hrange _ (Nat.lt_succ_self _) k hk
    dsimp only
    rw [hfst, Function.update_apply]
    split
    · exact hp
    · exact h.keys _ (by omega)
  · intro key' hget
    rw [hashTableGet_insert hnew] at hget
    by_cases hk : key' = key
    · exact hk ▸ hq
    · rw [if_neg hk] at hget
      exact h.bindings key' hget

theorem HeapEntries.mono {bound bound' : Int} {p p' q q' : FlowKey → Prop} {heap : HashHeap}
    (h : HeapEntries bound p q heap) (hbound : bound ≤ bound') (hp : ∀ key, p key → p' key)
    (hq : ∀ key, q key → q' key) : HeapEntries bound' p' q' heap :=
  ⟨h.data_nonneg, fun i => (h.data_le i).trans hbound, fun i hi => hp _ (h.keys i hi),
    fun key hget => hq _ (h.bindings key hget)⟩

theorem HeapEntries.overwrite {bound : Int} {p q : FlowKey → Prop} {heap : HashHeap}
    (h : HeapEntries bound p q heap) (index : Nat) (data : Int) (hdata : 0 ≤ data ∧ data ≤ bound) :
    HeapEntries bound p q { heap with
      elem := Function.update heap.elem index { heap.elem index with data := data } } := by
  constructor
  · intro i
    dsimp only
    rw [Function.update_apply]
    split
    · exact hdata.1
    · exact h.data_nonneg i
  · intro i
    dsimp only
    rw [Function.update_apply]
    split
    · exact hdata.2
    · exact h.data_le i
  · intro i hi
    dsimp only
    rw [Function.update_apply]
    split
    case isTrue heq => exact heq ▸ h.keys i hi
    case isFalse => exact h.keys i hi
  · exact h.bindings

/-! ## The sketch over a stream -/

/-- The sum of all values of a stream. -/
def streamTotal (stream : List (FlowKey × Int)) : Int := (stream.map Prod.snd).sum

theorem streamTotal_append (stream : List (FlowKey × Int)) (u : FlowKey × Int) :
    streamTotal (stream ++ [u]) = streamTotal stream + u.2 := by
  simp [streamTotal]

theorem streamTotal_le_append {past stream : List (FlowKey × Int)}
    (hvalues : ∀ u ∈ stream, 0 ≤ u.2) : streamTotal past ≤ streamTotal (past ++ stream) := by
  have hrest := filterSum_nonneg (fun _ => true) hvalues
  rw [List.filter_true] at hrest
  simp only [streamTotal, List.map_append, List.sum_append]
  omega

/-- The state of the sketch after the updates `past`. The slot counters count `N` up to twice the
total, an update and an admission each; past `2 ^ 31` they read negative, and nothing is admitted
any more. -/
structure FssInv (w : Nat) (past : List (FlowKey × Int)) (sketch : FssSketch) (N : Nat → Int) :
    Prop where
  values : ∀ u ∈ past, 0 ≤ u.2
  width : sketch.w = w
  capacity : sketch.heap.max_size = w - 1
  heap : RootedHeap sketch.heap
  counters : ∀ i, sketch.hash_counters i = signed 32 (N i)
  count_nonneg : ∀ i, 0 ≤ N i
  count_le : ∀ i, N i ≤ 2 * streamTotal past
  entries : HeapEntries (2 * streamTotal past) (fun key => 0 < valueSum key past)
    (fun key => 0 < N (sketch.slot key)) sketch.heap
  nonempty : past ≠ [] → 0 < sketch.heap.size

theorem FssInv.count_bounds {w : Nat} {past : List (FlowKey × Int)} {sketch : FssSketch}
    {N : Nat → Int} (h : FssInv w past sketch N) (htotal : streamTotal past < 2 ^ 31) (i : Nat) :
    sketch.hash_counters i = if N i < 2 ^ 31 then N i else N i - 2 ^ 32 := by
  have hle := h.count_le i
  rw [h.counters i]
  exact signed_eq_ite (by decide) (h.count_nonneg i) (by omega)

theorem FssInv.peek_nonneg {w : Nat} {past : List (FlowKey × Int)} {sketch : FssSketch}
    {N : Nat → Int} (h : FssInv w past sketch N) : 0 ≤ hashHeapPeek sketch.heap := by
  rw [hashHeapPeek]
  split
  · exact le_rfl
  · exact h.entries.data_nonneg _

section Step

variable {w : Nat} {past : List (FlowKey × Int)} {sketch : FssSketch} {N : Nat → Int}
variable {key : FlowKey} {value : Int}

variable (key) in
/-- What holds of the heap's entries keeps holding when the stream and the counts grow. -/
theorem FssInv.entries_mono (h : FssInv w past sketch N) (hvalue : 0 < value) {N' : Nat → Int}
    (hN : ∀ i, N i ≤ N' i) :
    HeapEntries (2 * streamTotal (past ++ [(key, value)]))
      (fun k => 0 < valueSum k (past ++ [(key, value)])) (fun k => 0 < N' (sketch.slot k))
      sketch.heap := by
  refine h.entries.mono ?_ ?_ (fun k hk => hk.trans_le (hN _))
  · rw [streamTotal_append]
    dsimp only
    omega
  · intro k hk
    rw [valueSum_append]
    dsimp only
    split <;> omega

theorem FssInv.values_append (h : FssInv w past sketch N) (hvalue : 0 < value) :
    ∀ u ∈ past ++ [(key, value)], 0 ≤ u.2 := by
  intro u hu
  rw [List.mem_append, List.mem_singleton] at hu
  rcases hu with hu | rfl
  · exact h.values u hu
  · exact hvalue.le

/-- A key that is in the heap already, in a slot whose counter reads positive. -/
theorem FssInv.inc (h : FssInv w past sketch N) (hvalue : 0 < value)
    (htotal : streamTotal (past ++ [(key, value)]) < 2 ^ 31)
    (hpresent : hashTableGet sketch.heap.indexes key ≠ none) :
    ∃ r, hashHeapInc sketch.heap key value = .ok r ∧
      FssInv w (past ++ [(key, value)]) { sketch with heap := r.2 } N := by
  have hsum := streamTotal_append past (key, value)
  dsimp only at hsum
  rcases hashHeapUpsert_cases h.heap.bounded (fun data => signed 64 (data + value)) key value with
    ⟨hnone, -⟩ | ⟨index, -, -, heq⟩
  · exact absurd hnone hpresent
  · have hlo := h.entries.data_nonneg index.toNat
    have hhi := h.entries.data_le index.toNat
    rw [signed64_eq_self (by omega) (by omega)] at heq
    refine ⟨_, heq, ?_⟩
    have hentries := (h.entries_mono key hvalue fun i => le_refl (N i)).overwrite
      index.toNat ((sketch.heap.elem index.toNat).data + value) (by omega)
    refine ⟨h.values_append hvalue, h.width, ?_, ?_, h.counters, h.count_nonneg, ?_,
      hentries.heapify 0, ?_⟩
    · dsimp only
      rw [hashHeapHeapify_max_size]
      exact h.capacity
    · exact (h.heap.overwrite _ _).heapify 0
    · intro i
      have := h.count_le i
      omega
    · intro _
      dsimp only
      rw [hashHeapHeapify_size]
      refine h.nonempty ?_
      rintro rfl
      -- the slot of a key in the heap has counted something
      have hpos := h.entries.bindings key hpresent
      have hle := h.count_le (sketch.slot key)
      simp only [streamTotal, List.map_nil, List.sum_nil] at hle
      omega

variable (key) in
/-- The counters after `added` was counted in the key's slot. -/
theorem FssInv.update_counters (h : FssInv w past sketch N) {added : Int} (hadded : 0 ≤ added)
    (hle : added ≤ 2 * value) :
    let N' := Function.update N (sketch.slot key) (N (sketch.slot key) + added)
    (∀ i, N i ≤ N' i) ∧ (∀ i, 0 ≤ N' i) ∧
      (∀ i, N' i ≤ 2 * streamTotal (past ++ [(key, value)])) ∧
      ∀ i, Function.update sketch.hash_counters (sketch.slot key)
        (signed 32 (sketch.hash_counters (sketch.slot key) + added)) i = signed 32 (N' i) := by
  intro N'
  have hsum := streamTotal_append past (key, value)
  dsimp only at hsum
  refine ⟨?_, ?_, ?_, ?_⟩ <;> intro i <;> simp only [N', Function.update_apply] <;> split
  case refine_1.isTrue hi =>
    rw [hi]
    omega
  case refine_1.isFalse => exact le_rfl
  case refine_2.isTrue hi =>
    have := h.count_nonneg (sketch.slot key)
    omega
  case refine_2.isFalse => exact h.count_nonneg i
  case refine_3.isTrue hi =>
    have := h.count_le (sketch.slot key)
    omega
  case refine_3.isFalse =>
    have := h.count_le i
    omega
  case refine_4.isTrue hi => rw [h.counters, signed_signed_add]
  case refine_4.isFalse => exact h.counters i

/-- The key is only counted. -/
theorem FssInv.count (h : FssInv w past sketch N) (hvalue : 0 < value)
    (hsize : 0 < sketch.heap.size) :
    FssInv w (past ++ [(key, value)])
      { sketch with
        hash_counters := Function.update sketch.hash_counters (sketch.slot key)
          (signed 32 (sketch.hash_counters (sketch.slot key) + value)) }
      (Function.update N (sketch.slot key) (N (sketch.slot key) + value)) := by
  obtain ⟨hmono, hnonneg, hle, hcounters⟩ := h.update_counters key hvalue.le
    (show value ≤ 2 * value by omega)
  exact ⟨h.values_append hvalue, h.width, h.capacity, h.heap, hcounters, hnonneg, hle,
    h.entries_mono key hvalue hmono, fun _ => hsize⟩

/-- A new key is offered to the heap, with the count of its slot. -/
theorem FssInv.takeIn (hw : 2 ≤ w) (h : FssInv w past sketch N) (hvalue : 0 < value) {v : Int}
    (hv : v = signed 32 (sketch.hash_counters (sketch.slot key) + value))
    (hcount : v = N (sketch.slot key) + value)
    (hnew : hashTableGet sketch.heap.indexes key = none) :
    FssInv w (past ++ [(key, value)])
      { sketch with
        heap := (hashHeapInsert sketch.heap key v).2
        hash_counters := Function.update (Function.update sketch.hash_counters (sketch.slot key) v)
          (sketch.slot key) (signed 32 (v + 1)) }
      (Function.update N (sketch.slot key) (N (sketch.slot key) + (value + 1))) := by
  obtain ⟨hmono, hnonneg, hle, hcounters⟩ := h.update_counters key
    (show 0 ≤ value + 1 by omega) (show value + 1 ≤ 2 * value by omega)
  have hN := h.count_nonneg (sketch.slot key)
  have hN' := hle (sketch.slot key)
  rw [Function.update_self] at hN'
  -- the new entry is of a key that has been counted at least once
  have hkey : 0 < valueSum key (past ++ [(key, value)]) := by
    have hnn := filterSum_nonneg (fun u => decide (u.1 = key)) h.values
    rw [valueSum_append, if_pos rfl]
    simp only [valueSum]
    omega
  refine ⟨h.values_append hvalue, h.width, ?_, h.heap.insert hnew v, ?_, hnonneg, hle,
    (h.entries_mono key hvalue hmono).insert (by omega) hnew hkey ?_, ?_⟩
  · dsimp only
    rw [hashHeapInsert]
    split <;> exact h.capacity
  · intro i
    dsimp only
    rw [Function.update_idem, ← hcounters i, hv, signed_signed_add, add_assoc]
  · show 0 < Function.update N (sketch.slot key) _ (sketch.slot key)
    rw [Function.update_self]
    omega
  · intro _
    dsimp only
    rw [hashHeapInsert]
    split
    case isTrue hfull =>
      show 0 < sketch.heap.size
      rw [hfull, h.capacity]
      omega
    case isFalse => exact Nat.succ_pos _

variable (key value) in
/-- What an update does: it increments an entry, it offers the key to the heap with the count of its
slot, or it only counts. The eviction branch asks for a heap of `w` entries and is not among them. -/
inductive FssStep (sketch : FssSketch) (N : Nat → Int) : FssSketch → (Nat → Int) → Prop
  | inc (r : Int × HashHeap) (hr : hashHeapInc sketch.heap key value = .ok r)
      (hpresent : hashTableGet sketch.heap.indexes key ≠ none) :
      FssStep sketch N { sketch with heap := r.2 } N
  | takenIn (v : Int) (hv : v = signed 32 (sketch.hash_counters (sketch.slot key) + value))
      (hcount : v = N (sketch.slot key) + value)
      (hnew : hashTableGet sketch.heap.indexes key = none) :
      FssStep sketch N
        { sketch with
          heap := (hashHeapInsert sketch.heap key v).2
          hash_counters := Function.update (Function.update sketch.hash_counters (sketch.slot key) v)
            (sketch.slot key) (signed 32 (v + 1)) }
        (Function.update N (sketch.slot key) (N (sketch.slot key) + (value + 1)))
  | count (hsize : 0 < sketch.heap.size) :
      FssStep sketch N
        { sketch with
          hash_counters := Function.update sketch.hash_counters (sketch.slot key)
            (signed 32 (sketch.hash_counters (sketch.slot key) + value)) }
        (Function.update N (sketch.slot key) (N (sketch.slot key) + value))

theorem FssInv.step (hw : 2 ≤ w) (h : FssInv w past sketch N) (hvalue : 0 < value)
    (htotal : streamTotal (past ++ [(key, value)]) < 2 ^ 31) :
    ∃ sketch' N', fssSketchUpdate sketch key value = .ok sketch' ∧
      FssStep key value sketch N sketch' N' := by
  have hsum := streamTotal_append past (key, value)
  dsimp only at hsum
  have hN := h.count_nonneg (sketch.slot key)
  have hN' := h.count_le (sketch.slot key)
  have hpeek := h.peek_nonneg
  have hcount := h.count_bounds (by omega) (sketch.slot key)
  have hv : signed 32 (sketch.hash_counters (sketch.slot key) + value) =
      if N (sketch.slot key) + value < 2 ^ 31 then N (sketch.slot key) + value
      else N (sketch.slot key) + value - 2 ^ 32 := by
    rw [h.counters, signed_signed_add]
    exact signed_eq_ite (by decide) (by omega) (by omega)
  have hsize : sketch.heap.size < sketch.w := by
    have := h.heap.bounded.size_le
    rw [h.capacity] at this
    rw [h.width]
    omega
  rw [fssSketchUpdate]
  by_cases hinc : 0 < sketch.hash_counters (sketch.slot key) ∧
      (hashTableGet sketch.heap.indexes key).isSome
  · have hpresent := Option.isSome_iff_ne_none.mp hinc.2
    obtain ⟨r, hr, -⟩ := h.inc hvalue htotal hpresent
    exact ⟨_, _, by simp only [if_pos hinc, hr], .inc r hr hpresent⟩
  · simp only [if_neg hinc, if_pos hsize]
    by_cases htake : (if sketch.heap.size < sketch.heap.max_size then 0
        else hashHeapPeek sketch.heap) < signed 32 (sketch.hash_counters (sketch.slot key) + value)
    · -- the count is positive, so the slot has not wrapped and the key cannot be in the heap
      have hpos : 0 < signed 32 (sketch.hash_counters (sketch.slot key) + value) := by
        refine lt_of_le_of_lt ?_ htake
        split
        · exact le_rfl
        · exact hpeek
      have hlt : N (sketch.slot key) + value < 2 ^ 31 := by
        by_contra hge
        rw [hv, if_neg hge] at hpos
        omega
      rw [if_pos (by omega)] at hcount
      rw [if_pos hlt] at hv
      have hnew : hashTableGet sketch.heap.indexes key = none := by
        by_contra hget
        have := h.entries.bindings key hget
        exact hinc ⟨by omega, Option.isSome_iff_ne_none.mpr hget⟩
      exact ⟨_, _, by simp only [if_pos htake], .takenIn _ rfl hv hnew⟩
    · -- nothing is admitted, so the heap is not empty
      refine ⟨_, _, by simp only [if_neg htake], .count ?_⟩
      by_contra hzero
      have hroom : sketch.heap.size < sketch.heap.max_size := by
        rw [h.capacity]
        omega
      have hpast : past = [] := by
        by_contra hpast
        exact hzero (h.nonempty hpast)
      have htotal0 : streamTotal past = 0 := by rw [hpast]; rfl
      rw [if_pos hroom, hv, if_pos (by omega)] at htake
      omega

/-- **One update** leads from a state after `past` to one after the longer stream. -/
theorem FssInv.of_step (hw : 2 ≤ w) (h : FssInv w past sketch N) (hvalue : 0 < value)
    (htotal : streamTotal (past ++ [(key, value)]) < 2 ^ 31) {sketch' : FssSketch} {N' : Nat → Int}
    (hstep : FssStep key value sketch N sketch' N') :
    FssInv w (past ++ [(key, value)]) sketch' N' := by
  cases hstep with
  | inc r hr hpresent =>
      obtain ⟨r', hr', hinv⟩ := h.inc hvalue htotal hpresent
      obtain rfl := Except.ok.inj (hr.symm.trans hr')
      exact hinv
  | takenIn v hv hcount hnew => exact h.takeIn hw hvalue hv hcount hnew
  | count hsize => exact h.count hvalue hsize

end Step

/-- A whole stream: it succeeds, and what every step preserves holds at its end. -/
theorem fssRun_induct {w : Nat} (hw : 2 ≤ w) {motive : FssSketch → (Nat → Int) → Prop}
    (hstep : ∀ past sketch N key value sketch' N', FssInv w past sketch N → 0 < value →
      FssStep key value sketch N sketch' N' → motive sketch N → motive sketch' N')
    {stream past : List (FlowKey × Int)} {sketch : FssSketch} {N : Nat → Int}
    (h : FssInv w past sketch N) (hmotive : motive sketch N) (hvalues : ∀ u ∈ stream, 0 < u.2)
    (htotal : streamTotal (past ++ stream) < 2 ^ 31) :
    ∃ sketch' N', fssRun sketch stream = .ok sketch' ∧ FssInv w (past ++ stream) sketch' N' ∧
      motive sketch' N' := by
  induction stream generalizing past sketch N with
  | nil => exact ⟨sketch, N, rfl, by rwa [List.append_nil], hmotive⟩
  | cons u stream ih =>
      obtain ⟨key, value⟩ := u
      rw [List.forall_mem_cons] at hvalues
      have happend : past ++ (key, value) :: stream = (past ++ [(key, value)]) ++ stream := by simp
      have hpast : streamTotal (past ++ [(key, value)]) < 2 ^ 31 := by
        rw [happend] at htotal
        exact (streamTotal_le_append fun x hx => (hvalues.2 x hx).le).trans_lt htotal
      obtain ⟨sketch₁, N₁, hok, hstep₁⟩ := h.step hw hvalues.1 hpast
      have hinv := h.of_step hw hvalues.1 hpast hstep₁
      have hmotive₁ := hstep past sketch N key value sketch₁ N₁ h hvalues.1 hstep₁ hmotive
      rw [happend]
      obtain ⟨sketch', N', hrun, hrest⟩ := ih hinv hmotive₁ hvalues.2 (happend ▸ htotal)
      exact ⟨sketch', N', by simp only [fssRun, hok, hrun], hrest⟩

theorem fssRun_inv {w : Nat} (hw : 2 ≤ w) {stream past : List (FlowKey × Int)} {sketch : FssSketch}
    {N : Nat → Int} (h : FssInv w past sketch N) (hvalues : ∀ u ∈ stream, 0 < u.2)
    (htotal : streamTotal (past ++ stream) < 2 ^ 31) :
    ∃ sketch' N', fssRun sketch stream = .ok sketch' ∧ FssInv w (past ++ stream) sketch' N' := by
  obtain ⟨sketch', N', hrun, hinv, -⟩ := fssRun_induct (motive := fun _ _ => True) hw
    (fun _ _ _ _ _ _ _ _ _ _ _ => trivial) h trivial hvalues htotal
  exact ⟨sketch', N', hrun, hinv⟩

/-! ## What is monitored is counted -/

/-- The keys of a heap's entries. -/
def monitoredKeys (heap : HashHeap) : Finset FlowKey :=
  (Finset.range heap.size).image fun i => (heap.elem i).key

theorem mem_monitoredKeys {heap : HashHeap} {key : FlowKey} :
    key ∈ monitoredKeys heap ↔ ∃ n ∈ heapEntries heap, n.key = key := by
  simp [monitoredKeys, heapEntries]

theorem monitoredKeys_heapify (heap : HashHeap) (i : Nat) :
    monitoredKeys (hashHeapHeapify heap i) = monitoredKeys heap := by
  ext key
  rw [mem_monitoredKeys, mem_monitoredKeys, heapEntries_heapify]

/-- An insertion monitors at most the new key besides. -/
theorem monitoredKeys_insert_subset (heap : HashHeap) (key : FlowKey) (data : Int) :
    monitoredKeys (hashHeapInsert heap key data).2 ⊆ insert key (monitoredKeys heap) := by
  by_cases hfull : heap.size = heap.max_size
  · rw [hashHeapInsert, if_pos hfull]
    exact Finset.subset_insert ..
  · intro key' hkey'
    rw [mem_monitoredKeys, heapEntries_insert hfull] at hkey'
    rw [Finset.mem_insert, mem_monitoredKeys]
    obtain ⟨n, hn | hn, hnk⟩ := hkey'
    · left
      rw [← hnk, hn]
    · exact .inr ⟨n, hn, hnk⟩

/-- An increment monitors the same keys. -/
theorem monitoredKeys_inc {heap : HashHeap} (hb : heap.Bounded) {key : FlowKey} {value : Int}
    {r : Int × HashHeap} (hget : hashTableGet heap.indexes key ≠ none)
    (hr : hashHeapInc heap key value = .ok r) : monitoredKeys r.2 = monitoredKeys heap := by
  rcases hashHeapUpsert_cases hb (fun data => signed 64 (data + value)) key value with
    ⟨hnone, -⟩ | ⟨index, -, -, heq⟩
  · exact absurd hnone hget
  · obtain rfl := Except.ok.inj (heq.symm.trans hr)
    rw [monitoredKeys_heapify]
    apply Finset.image_congr
    intro i _
    dsimp only
    rw [Function.update_apply]
    split
    case isTrue hi => rw [hi]
    case isFalse => rfl

/-- How many of the heap's keys have the slot `c`. -/
def monitoredIn (sketch : FssSketch) (c : Nat) : Nat :=
  ((monitoredKeys sketch.heap).filter fun key => sketch.slot key = c).card

/-- Every entry has its own key, the heap is not overfull, and each slot counter is at least the
number of monitored keys of its slot. -/
structure FssMonitors (sketch : FssSketch) : Prop where
  once : ∀ i < sketch.heap.size, ∀ j < sketch.heap.size,
    (sketch.heap.elem i).key = (sketch.heap.elem j).key → i = j
  size_le : sketch.heap.size ≤ sketch.heap.max_size
  counted : ∀ c, (monitoredIn sketch c : Int) ≤ sketch.hash_counters c

/-- One more key counts for one slot, and for one. -/
theorem monitoredIn_le_of_subset {sketch sketch' : FssSketch} {key : FlowKey}
    (hslot : ∀ k, sketch'.slot k = sketch.slot k)
    (hkeys : monitoredKeys sketch'.heap ⊆ insert key (monitoredKeys sketch.heap)) (c : Nat) :
    monitoredIn sketch' c ≤ monitoredIn sketch c + if c = sketch.slot key then 1 else 0 := by
  have hle := Finset.card_le_card (Finset.filter_subset_filter (fun k => sketch.slot k = c) hkeys)
  simp only [monitoredIn, hslot]
  refine hle.trans ?_
  rw [Finset.filter_insert]
  split
  case isTrue hc =>
    rw [if_pos hc.symm]
    exact Finset.card_insert_le ..
  case isFalse hc =>
    rw [if_neg (Ne.symm hc)]
    exact le_rfl

/-- The counts bound the monitored keys after a step as before it: a key that is admitted brings a
count of its own. -/
theorem monitoredIn_le_of_step {w : Nat} {past : List (FlowKey × Int)} {sketch sketch' : FssSketch}
    {N N' : Nat → Int} {key : FlowKey} {value : Int} (h : FssInv w past sketch N) (hvalue : 0 < value)
    (hstep : FssStep key value sketch N sketch' N') (hle : ∀ c, (monitoredIn sketch c : Int) ≤ N c)
    (c : Nat) : (monitoredIn sketch' c : Int) ≤ N' c := by
  have hc := hle c
  cases hstep with
  | inc r hr hpresent =>
      have hkeys := monitoredKeys_inc h.heap.bounded hpresent hr
      have hsame : monitoredIn { sketch with heap := r.2 } c = monitoredIn sketch c := by
        show ((monitoredKeys r.2).filter fun key => sketch.slot key = c).card = _
        rw [hkeys]
        rfl
      rwa [hsame]
  | takenIn v hv hcount hnew =>
      -- one more key in its slot at most, whatever leaves the heap
      have hadd := @monitoredIn_le_of_subset sketch
        { sketch with
          heap := (hashHeapInsert sketch.heap key v).2
          hash_counters := Function.update (Function.update sketch.hash_counters (sketch.slot key) v)
            (sketch.slot key) (signed 32 (v + 1)) } key
        (fun _ => rfl) (monitoredKeys_insert_subset sketch.heap key v) c
      rw [Function.update_apply]
      split
      case isTrue hck =>
        rw [if_pos hck] at hadd
        rw [hck] at hc hadd ⊢
        omega
      case isFalse hck =>
        rw [if_neg hck] at hadd
        omega
  | count hsize =>
      have hsame : monitoredIn { sketch with
          hash_counters := Function.update sketch.hash_counters (sketch.slot key)
            (signed 32 (sketch.hash_counters (sketch.slot key) + value)) } c =
          monitoredIn sketch c := rfl
      rw [hsame, Function.update_apply]
      split
      case isTrue hck =>
        rw [hck] at hc ⊢
        omega
      case isFalse => exact hc

/-! ## The answers -/

/-- The key is in the heap. -/
def Monitored (sketch : FssSketch) (key : FlowKey) : Prop :=
  ∃ i < sketch.heap.size, (sketch.heap.elem i).key = key

instance (sketch : FssSketch) (key : FlowKey) : Decidable (Monitored sketch key) :=
  inferInstanceAs (Decidable (∃ i < sketch.heap.size, (sketch.heap.elem i).key = key))

/-- How often, in a run, an update of the slot brought its key into the heap. -/
def fssAdmissions (slot : Nat) : FssSketch → List (FlowKey × Int) → Nat
  | _, [] => 0
  | sketch, (key, value) :: stream =>
      match fssSketchUpdate sketch key value with
      | .ok sketch' =>
          (if sketch.slot key = slot ∧ ¬ Monitored sketch key ∧ Monitored sketch' key then 1 else 0) +
            fssAdmissions slot sketch' stream
      | .error _ => 0

/-- After the stream, a monitored key is answered with at least its own values and at most its
slot's values and admissions, and any other key with 0. -/
def FssAnswers (w : Nat) (mask : BitVec 32) (stream : List (FlowKey × Int)) : Prop :=
  ∃ start sketch, newFssSketch w mask = .ok start ∧ fssRun start stream = .ok sketch ∧
    ∀ key,
      (Monitored sketch key →
        valueSum key stream ≤ fssSketchQuery sketch key ∧
          fssSketchQuery sketch key ≤
            ((stream.filter fun u => start.slot u.1 = start.slot key).map Prod.snd).sum +
              fssAdmissions (start.slot key) start stream) ∧
        (¬ Monitored sketch key → fssSketchQuery sketch key = 0)

theorem newFssSketch_inv {w : Nat} (hhi : w < 2 ^ 31) (mask : BitVec 32) :
    ∃ start, newFssSketch w mask = .ok start ∧ FssInv w [] start (fun _ => 0) ∧
      start.heap.size = 0 := by
  obtain ⟨indexes, hindexes, hnew⟩ := newHashHeap_ok hhi
  have hget := newHashTable_get hindexes
  refine ⟨⟨w, mask, fun _ => 0, fun _ => 0, ⟨indexes, 0, w - 1, fun _ => ⟨emptyKey, 0⟩⟩⟩,
    by simp only [newFssSketch, hnew], ?_, rfl⟩
  refine ⟨by simp, rfl, rfl, ⟨⟨?_, Nat.zero_le _, newHashTable_allValues hindexes⟩,
    newHashTable_wellFormed hindexes, ?_, ?_, ?_⟩, fun _ => rfl, fun _ => le_rfl, fun _ => le_rfl,
    ⟨fun _ => le_rfl, fun _ => le_rfl, ?_, ?_⟩, ?_⟩
  · show w - 1 < 2 ^ 31
    omega
  · intro i hi
    exact absurd hi (Nat.not_lt_zero i)
  · intro i hi
    exact absurd hi (Nat.not_lt_zero i)
  · intro h0
    exact absurd h0 (Nat.lt_irrefl 0)
  · intro i hi
    exact absurd hi (Nat.not_lt_zero i)
  · intro key hne
    exact absurd (hget key) hne
  · intro hne
    exact absurd rfl hne

/-- **Monitoring.** After every call of a stream of positive values with a total below `2 ^ 30`, no
key has two entries, the heap is within its size, and every slot counter is at least the number
of monitored keys of its slot. -/
theorem fssMonitors_prefix {w : Nat} (mask : BitVec 32) {stream : List (FlowKey × Int)} (hlo : 2 ≤ w)
    (hhi : w < 2 ^ 31) (hvalues : ∀ u ∈ stream, 0 < u.2)
    (htotal : (stream.map Prod.snd).sum < 2 ^ 30) :
    ∃ start, newFssSketch w mask = .ok start ∧
      ∀ past, past <+: stream → ∃ sketch, fssRun start past = .ok sketch ∧ FssMonitors sketch := by
  obtain ⟨start, hnew, hinv, hempty⟩ := newFssSketch_inv hhi mask
  refine ⟨start, hnew, ?_⟩
  rintro past ⟨rest, rfl⟩
  have hpast : streamTotal past < 2 ^ 30 :=
    (streamTotal_le_append fun u hu => (hvalues u (List.mem_append_right _ hu)).le).trans_lt htotal
  have hstart : ∀ c, (monitoredIn start c : Int) ≤ 0 := by
    intro c
    simp [monitoredIn, monitoredKeys, hempty]
  obtain ⟨sketch, N, hrun, hinv', hle⟩ := fssRun_induct hlo
    (motive := fun sketch N => ∀ c, (monitoredIn sketch c : Int) ≤ N c)
    (fun _ _ _ _ _ _ _ h hvalue hstep hle => monitoredIn_le_of_step h hvalue hstep hle) hinv hstart
    (fun u hu => hvalues u (List.mem_append_left _ hu)) (hpast.trans (by decide))
  rw [List.nil_append] at hinv'
  refine ⟨sketch, hrun, hinv'.heap.inj, hinv'.heap.bounded.size_le, fun c => ?_⟩
  -- below half the range of an `int` the counter holds its count
  have hcount := hinv'.count_le c
  rw [hinv'.count_bounds (hpast.trans (by decide)) c, if_pos (by omega)]
  exact hle c

/-- Two flows in a sketch of two slots, whose heap has room for one. -/
theorem fssMonitors_two_flows :
    ∃ start, newFssSketch 2 7 = .ok start ∧ ∀ past, past <+: [(hostA, 5), (hostB, 1)] →
      ∃ sketch, fssRun start past = .ok sketch ∧ FssMonitors sketch :=
  fssMonitors_prefix 7 (by decide) (by decide) (by decide) (by decide)

/-- The root of the heap is monitored, has been counted, and is answered with 0. -/
theorem FssInv.query_root {w : Nat} {past : List (FlowKey × Int)} {sketch : FssSketch}
    {N : Nat → Int} (h : FssInv w past sketch N) (hpast : past ≠ []) :
    ∃ key, Monitored sketch key ∧ 0 < valueSum key past ∧ fssSketchQuery sketch key = 0 := by
  have hsize := h.nonempty hpast
  refine ⟨(sketch.heap.elem 0).key, ⟨0, hsize, rfl⟩, h.entries.keys 0 hsize, ?_⟩
  rw [fssSketchQuery, h.heap.root hsize]
  rfl

/-- **The answers are right for the empty stream only.** -/
theorem fssAnswers_iff {w : Nat} (mask : BitVec 32) {stream : List (FlowKey × Int)} (hlo : 2 ≤ w)
    (hhi : w < 2 ^ 31) (hvalues : ∀ u ∈ stream, 0 < u.2)
    (htotal : (stream.map Prod.snd).sum < 2 ^ 31) :
    FssAnswers w mask stream ↔ stream = [] := by
  obtain ⟨start, hnew, hinv, hempty⟩ := newFssSketch_inv hhi mask
  obtain ⟨sketch, N, hrun, hinv'⟩ := fssRun_inv hlo hinv hvalues htotal
  constructor
  · rintro ⟨start', sketch', hnew', hrun', hanswers⟩
    obtain rfl := Except.ok.inj (hnew.symm.trans hnew')
    obtain rfl := Except.ok.inj (hrun.symm.trans hrun')
    by_contra hstream
    obtain ⟨key, hmonitored, hsum, hquery⟩ := hinv'.query_root hstream
    have hle := ((hanswers key).1 hmonitored).1
    rw [hquery] at hle
    exact absurd hle (not_le.mpr hsum)
  · rintro rfl
    obtain rfl := Except.ok.inj hrun
    refine ⟨start, start, hnew, rfl, fun key => ⟨?_, fun _ => ?_⟩⟩
    · rintro ⟨i, hi, -⟩
      omega
    · rw [fssSketchQuery]
      cases hget : hashTableGet start.heap.indexes key with
      | none => rfl
      | some index =>
          have := hinv.entries.bindings key (by rw [hget]; exact Option.some_ne_none _)
          exact absurd this (lt_irrefl 0)

/-- Before any update the sketch answers 0. -/
theorem fssAnswers_nil : FssAnswers 2 0 [] :=
  (fssAnswers_iff 0 (by decide) (by decide) (by simp) (by decide)).mpr rfl

/-- One flow of five packets is answered with its position, 0. -/
theorem fssAnswers_one_flow : ¬ FssAnswers 2 0 [(hostA, 5)] := by
  rintro ⟨start, sketch, hnew, hrun, hanswers⟩
  obtain ⟨indexes, hindexes, hheap⟩ := newHashHeap_ok (show 2 < 2 ^ 31 by decide)
  simp only [newFssSketch, hheap] at hnew
  obtain rfl := Except.ok.inj hnew
  have hone : signed 32 5 = 5 := by decide
  simp [fssRun, fssSketchUpdate, hone, hashHeapInsert, hashHeapInsertLoop] at hrun
  subst hrun
  have hle := ((hanswers hostA).1 ⟨0, Nat.one_pos, by simp⟩).1
  simp [valueSum, fssSketchQuery, hashTableGet_insert (newHashTable_get hindexes _)] at hle

end OvsDatapath.Sketch
