import OvsDatapath.Lib.Median
import OvsDatapath.Sketch.Fss

/-!
# The count sketch

`countsketch.c`: `d` lines of `w` signed counters. A line's mask enters both the column of a key
and its sign. The estimate of a key is the median of what the lines answer, and the keys with the
largest estimates are supposed to be kept in an indexed heap.

* `countsketchEstimates_iff`: every line answers the signed sum of its column
  (`countsketchLine_tracks`). Their median is what the code returns as long as there are at most two
  lines or `cmpelem`, which returns a 64-bit difference as an `int`, orders all of them.
* `countsketchAdmits_iff`: the heap holds one entry less than the sketch asks it for. Before that
  limit new keys are monitored; at the limit the insertion is refused, and since the sketch tests
  its own width the branch that replaces the smallest entry is never reached.

The kernel's `sort` is a parameter of the functions below. With `w = 1` the heap's table has no hash
bits, and `sketch_hash_32` shifts a word by its whole width; that is taken to give 0.
-/

namespace OvsDatapath.Sketch

open OvsDatapath.Lib OvsDatapath.Lib.MinHeap

/-- `struct countsketch_line`. -/
structure CountsketchLine where
  w : Nat
  mask : BitVec 32
  counters : Nat → Int

/-- `new_countsketch_line`; `ran` is what `rand_uint32` returned. -/
def newCountsketchLine (w : Nat) (ran : BitVec 32) : CountsketchLine where
  w := w
  mask := ran
  counters := fun _ => 0

/-- The column of a key in a line of the given width and mask. -/
def countsketchIndex (w : Nat) (mask : BitVec 32) (key : FlowKey) : Nat :=
  (flowKeyHashOld key ^^^ mask).toNat % w

/-- The sign of a key in a line with the given mask. -/
def countsketchSign (mask : BitVec 32) (key : FlowKey) : Int :=
  if flowKeyHash key 1 ^^^ mask = 0 then 1 else -1

/-- `countsketch_line_update`. -/
def countsketchLineUpdate (this : CountsketchLine) (key : FlowKey) (value : Int) :
    CountsketchLine :=
  let index := countsketchIndex this.w this.mask key
  let sign := countsketchSign this.mask key
  { this with
    counters := Function.update this.counters index
      (signed 64 (this.counters index + sign * value)) }

/-- `countsketch_line_query`. -/
def countsketchLineQuery (this : CountsketchLine) (key : FlowKey) : Int :=
  let index := countsketchIndex this.w this.mask key
  let sign := countsketchSign this.mask key
  signed 64 (this.counters index * sign)

/-- `struct countsketch_sketch`. -/
structure CountsketchSketch where
  w : Nat
  d : Nat
  lines : List CountsketchLine
  heap : HashHeap

/-- `new_countsketch_sketch`; `masks` are the random words that its lines draw, one a line. -/
def newCountsketchSketch (w : Nat) (masks : List (BitVec 32)) : Except MemFault CountsketchSketch :=
  match newHashHeap w with
  | .ok heap =>
      .ok { w := w, d := masks.length, lines := masks.map (newCountsketchLine w), heap := heap }
  | .error e => .error e

/-- `cmpelem`: the difference of two `elemtype`s, returned as an `int`. -/
def cmpelem (a b : Int) : Int := signed 32 (signed 64 (a - b))

/-- `sort` of the kernel, on an array of `elemtype`s. -/
abbrev SortFunc := (Int → Int → Int) → List Int → List Int

/-- `countsketch_sketch_forcequery`. -/
def countsketchSketchForcequery (sort : SortFunc) (this : CountsketchSketch) (key : FlowKey) : Int :=
  let results := sort cmpelem (this.lines.map fun line => countsketchLineQuery line key)
  if this.d % 2 = 0 then
    (signed 64 (results.getD (this.d / 2) 0 + results.getD (this.d / 2 - 1) 0)).tdiv 2
  else results.getD ((this.d - 1) / 2) 0

/-- `countsketch_sketch_query`. -/
def countsketchSketchQuery (sort : SortFunc) (this : CountsketchSketch) (key : FlowKey) : Int :=
  match hashTableGet this.heap.indexes key with
  | none => 0
  | some _ => countsketchSketchForcequery sort this key

/-- The loop of `countsketch_sketch_update` over the lines. -/
def countsketchUpdateLines (this : CountsketchSketch) (key : FlowKey) (value : Int) :
    CountsketchSketch :=
  { this with lines := this.lines.map fun line => countsketchLineUpdate line key value }

/-- `countsketch_sketch_update`. -/
def countsketchSketchUpdate (sort : SortFunc) (this : CountsketchSketch) (key : FlowKey)
    (value : Int) : Except MemFault CountsketchSketch :=
  let this := countsketchUpdateLines this key value
  match hashTableGet this.heap.indexes key with
  | some _ =>
      match hashHeapInc this.heap key value with
      | .ok r => .ok { this with heap := r.2 }
      | .error e => .error e
  | none =>
      let v := countsketchSketchForcequery sort this key
      if this.heap.size < this.w then
        .ok { this with heap := (hashHeapInsert this.heap key v).2 }
      else
        let min := hashHeapPeek this.heap
        if min < v then
          match hashHeapExtract this.heap with
          | .ok heap => .ok { this with heap := (hashHeapInsert heap key v).2 }
          | .error e => .error e
        else .ok this

/-- A stream of updates. -/
def countsketchRun (sort : SortFunc) :
    CountsketchSketch → List (FlowKey × Int) → Except MemFault CountsketchSketch
  | this, [] => .ok this
  | this, (key, value) :: stream =>
      match countsketchSketchUpdate sort this key value with
      | .ok this' => countsketchRun sort this' stream
      | .error e => .error e

/-! ## The lines -/

/-- The sum of `f` over the updates that satisfy `p`. -/
def sumOver (p : FlowKey × Int → Bool) (f : FlowKey × Int → Int) (stream : List (FlowKey × Int)) :
    Int :=
  ((stream.filter p).map f).sum

theorem sumOver_append (p : FlowKey × Int → Bool) (f : FlowKey × Int → Int)
    (stream : List (FlowKey × Int)) (u : FlowKey × Int) :
    sumOver p f (stream ++ [u]) = sumOver p f stream + if p u then f u else 0 := by
  by_cases hu : p u = true <;> simp [sumOver, List.filter_append, hu]

/-- The absolute values of a stream, added up. -/
def streamWeight (stream : List (FlowKey × Int)) : Int := (stream.map fun u => |u.2|).sum

/-- A sum of values, with any signs, does not outweigh the stream. -/
theorem abs_sumOver_le (p : FlowKey × Int → Bool) {f : FlowKey × Int → Int}
    (hf : ∀ u, |f u| = |u.2|) (stream : List (FlowKey × Int)) :
    |sumOver p f stream| ≤ streamWeight stream := by
  induction stream with
  | nil => simp [sumOver, streamWeight]
  | cons u stream ih =>
      have hweight : streamWeight (u :: stream) = |u.2| + streamWeight stream := by
        simp [streamWeight]
      have hnonneg := abs_nonneg u.2
      by_cases hu : p u = true
      · have hsum : sumOver p f (u :: stream) = f u + sumOver p f stream := by simp [sumOver, hu]
        rw [hsum, hweight, ← hf u]
        exact (abs_add_le _ _).trans (by omega)
      · have hsum : sumOver p f (u :: stream) = sumOver p f stream := by simp [sumOver, hu]
        rw [hsum, hweight]
        omega

/-- The signed sum of a column: over the updates that fall into it, the value with the sign of its
key. -/
def signedColumnSum (w : Nat) (mask : BitVec 32) (column : Nat) (stream : List (FlowKey × Int)) : Int :=
  sumOver (fun u => countsketchIndex w mask u.1 = column) (fun u => countsketchSign mask u.1 * u.2)
    stream

/-- What a line with the given mask should answer for `key` after a stream: the signed sum of the
key's column, with the key's own sign. -/
def countsketchLineSum (w : Nat) (stream : List (FlowKey × Int)) (key : FlowKey)
    (mask : BitVec 32) : Int :=
  countsketchSign mask key * signedColumnSum w mask (countsketchIndex w mask key) stream

theorem abs_countsketchSign_mul (mask : BitVec 32) (key : FlowKey) (x : Int) :
    |countsketchSign mask key * x| = |x| := by
  rw [countsketchSign]
  split
  · rw [one_mul]
  · rw [neg_one_mul, abs_neg]

theorem abs_signedColumnSum_le (w : Nat) (mask : BitVec 32) (column : Nat)
    (stream : List (FlowKey × Int)) : |signedColumnSum w mask column stream| ≤ streamWeight stream :=
  abs_sumOver_le _ (fun _ => abs_countsketchSign_mul ..) stream

theorem abs_countsketchLineSum_le (w : Nat) (stream : List (FlowKey × Int)) (key : FlowKey)
    (mask : BitVec 32) : |countsketchLineSum w stream key mask| ≤ streamWeight stream := by
  rw [countsketchLineSum, abs_countsketchSign_mul]
  exact abs_signedColumnSum_le ..

/-- A line of the given width and mask whose counters hold the column sums of the stream. -/
structure CountsketchTracks (w : Nat) (mask : BitVec 32) (stream : List (FlowKey × Int))
    (line : CountsketchLine) : Prop where
  width : line.w = w
  mask_eq : line.mask = mask
  counters : ∀ column, line.counters column = signed 64 (signedColumnSum w mask column stream)

theorem newCountsketchLine_tracks (w : Nat) (mask : BitVec 32) :
    CountsketchTracks w mask [] (newCountsketchLine w mask) :=
  ⟨rfl, rfl, fun _ => rfl⟩

theorem CountsketchTracks.update {w : Nat} {mask : BitVec 32} {stream : List (FlowKey × Int)}
    {line : CountsketchLine} (h : CountsketchTracks w mask stream line) (key : FlowKey)
    (value : Int) :
    CountsketchTracks w mask (stream ++ [(key, value)]) (countsketchLineUpdate line key value) := by
  refine ⟨h.width, h.mask_eq, fun column => ?_⟩
  simp only [countsketchLineUpdate, h.width, h.mask_eq, Function.update_apply, signedColumnSum,
    sumOver_append, decide_eq_true_eq]
  by_cases hc : column = countsketchIndex w mask key
  · rw [if_pos hc, if_pos hc.symm, h.counters, signed_signed_add, hc, signedColumnSum]
  · rw [if_neg hc, if_neg (Ne.symm hc), add_zero, h.counters, signedColumnSum]

/-- Within 64 bits the answer of a line is the sum. -/
theorem CountsketchTracks.query {w : Nat} {mask : BitVec 32} {stream : List (FlowKey × Int)}
    {line : CountsketchLine} (h : CountsketchTracks w mask stream line)
    (hweight : streamWeight stream < 2 ^ 62) (key : FlowKey) :
    countsketchLineQuery line key = countsketchLineSum w stream key mask := by
  have hrange : ∀ x : Int, |x| ≤ streamWeight stream → signed 64 x = x := by
    intro x hx
    apply signed_eq_self_of_abs (by decide)
    show |x| < 2 ^ 63
    omega
  simp only [countsketchLineQuery, h.width, h.mask_eq, h.counters]
  rw [hrange _ (abs_signedColumnSum_le ..), mul_comm]
  exact hrange _ (abs_countsketchLineSum_le w stream key mask)

/-! ## The signs

The sign of a key compares its one-bit hash with the whole mask. A mask with any other bit set is equal to
neither hash, and all keys are counted with the same sign.
-/

/-- The keys have opposite signs in the lines of a mask: an update subtracts for one what it adds for the
other, a query answers each with its sign, and in one column the two cancel. -/
structure SignsSeparate (mask : BitVec 32) (key key' : FlowKey) : Prop where
  opposite : ∃ sign : Int, (sign = 1 ∨ sign = -1) ∧ ∀ (w : Nat) (counters : Nat → Int) (value : Int),
    0 < w →
    let column := countsketchIndex w mask key
    let column' := countsketchIndex w mask key'
    (countsketchLineUpdate ⟨w, mask, counters⟩ key value).counters =
        Function.update counters column (signed 64 (counters column + sign * value)) ∧
      (countsketchLineUpdate ⟨w, mask, counters⟩ key' value).counters =
        Function.update counters column' (signed 64 (counters column' - sign * value)) ∧
      countsketchLineQuery ⟨w, mask, counters⟩ key = signed 64 (counters column * sign) ∧
      countsketchLineQuery ⟨w, mask, counters⟩ key' = signed 64 (-(counters column' * sign))
  cancel : ∀ (w : Nat) (counters : Nat → Int) (value : Int), 0 < w →
    countsketchIndex w mask key = countsketchIndex w mask key' →
    InSigned 64 (counters (countsketchIndex w mask key)) →
    countsketchLineUpdate (countsketchLineUpdate ⟨w, mask, counters⟩ key value) key' value =
      ⟨w, mask, counters⟩

theorem countsketchSign_eq (mask : BitVec 32) (key : FlowKey) :
    countsketchSign mask key = if flowKeyHash key 1 = mask then 1 else -1 := by
  have hxor : flowKeyHash key 1 ^^^ mask = 0 ↔ flowKeyHash key 1 = mask := BitVec.xor_eq_zero_iff
  simp only [countsketchSign, hxor]

theorem flowKeyHash_one (key : FlowKey) : flowKeyHash key 1 = 0 ∨ flowKeyHash key 1 = 1 := by
  have hlt := @flowKeyHash_lt key 1 (by decide)
  have hcases : (flowKeyHash key 1).toNat = 0 ∨ (flowKeyHash key 1).toNat = 1 := by omega
  rcases hcases with h | h
  · exact Or.inl (BitVec.eq_of_toNat_eq h)
  · exact Or.inr (BitVec.eq_of_toNat_eq h)

/-- Of two different one-bit hashes, one is the mask if the mask is one bit. -/
theorem countsketchSign_neg_iff (mask : BitVec 32) {key key' : FlowKey}
    (hhash : flowKeyHash key 1 ≠ flowKeyHash key' 1) :
    countsketchSign mask key' = -countsketchSign mask key ↔ mask = 0 ∨ mask = 1 := by
  rw [countsketchSign_eq, countsketchSign_eq]
  rcases flowKeyHash_one key with h | h <;> rcases flowKeyHash_one key' with h' | h'
  · exact absurd (h.trans h'.symm) hhash
  · rw [h, h']
    grind
  · rw [h, h']
    grind
  · exact absurd (h.trans h'.symm) hhash

/-- Stored values tell the two signs apart. -/
theorem sign_eq_of_signed {sign sign' : Int} (h : sign = 1 ∨ sign = -1) (h' : sign' = 1 ∨ sign' = -1)
    (heq : signed 64 sign = signed 64 sign') : sign = sign' := by
  rcases h with rfl | rfl <;> rcases h' with rfl | rfl
  · rfl
  · exact absurd heq (by decide)
  · exact absurd heq (by decide)
  · rfl

theorem countsketchSign_cases (mask : BitVec 32) (key : FlowKey) :
    countsketchSign mask key = 1 ∨ countsketchSign mask key = -1 := by
  rw [countsketchSign]
  split
  · exact Or.inl rfl
  · exact Or.inr rfl

/-- **The signs of a line separate two keys** of different one-bit hashes if and only if the mask of the
line is one bit. -/
theorem signsSeparate_iff (mask : BitVec 32) (key key' : FlowKey)
    (hhash : flowKeyHash key 1 ≠ flowKeyHash key' 1) :
    SignsSeparate mask key key' ↔ mask = 0 ∨ mask = 1 := by
  rw [← countsketchSign_neg_iff mask hhash]
  constructor
  case mp =>
    rintro ⟨⟨sign, hsign, hall⟩, -⟩
    obtain ⟨-, -, hquery, hquery'⟩ := hall 1 (fun _ => 1) 0 Nat.one_pos
    simp only [countsketchLineQuery, one_mul] at hquery hquery'
    have hkey := sign_eq_of_signed (countsketchSign_cases mask key) hsign hquery
    have hneg : -sign = 1 ∨ -sign = -1 := by omega
    have hkey' := sign_eq_of_signed (countsketchSign_cases mask key') hneg hquery'
    rw [hkey', hkey]
  case mpr =>
    intro hneg
    constructor
    case opposite =>
      refine ⟨countsketchSign mask key, countsketchSign_cases mask key, ?_⟩
      intro w counters value _
      simp only [countsketchLineUpdate, countsketchLineQuery, hneg, neg_mul, mul_neg, ← sub_eq_add_neg,
        and_self]
    case cancel =>
      intro w counters value _ hcolumn hrange
      simp only [countsketchLineUpdate, ← hcolumn, hneg, Function.update_self, Function.update_idem,
        signed_signed_add]
      have hback : counters (countsketchIndex w mask key) + countsketchSign mask key * value +
          -countsketchSign mask key * value = counters (countsketchIndex w mask key) := by
        ring
      rw [hback, signed_eq_self (by decide) hrange, Function.update_eq_self]

theorem signsSeparate_hosts : SignsSeparate 1 emptyKey ⟨1, 0, 0, 0, 0⟩ :=
  (signsSeparate_iff 1 emptyKey ⟨1, 0, 0, 0, 0⟩ (by decide)).mpr (Or.inr rfl)

/-- Under a mask of 2, both hashes count downwards. -/
theorem not_signsSeparate_two :
    flowKeyHash emptyKey 1 ≠ flowKeyHash ⟨1, 0, 0, 0, 0⟩ 1 ∧
      countsketchSign 2 emptyKey = -1 ∧ countsketchSign 2 ⟨1, 0, 0, 0, 0⟩ = -1 ∧
      ¬ SignsSeparate 2 emptyKey ⟨1, 0, 0, 0, 0⟩ := by
  refine ⟨by decide, by decide, by decide, ?_⟩
  rintro ⟨⟨sign, hsign, hall⟩, -⟩
  obtain ⟨-, -, hquery, hquery'⟩ := hall 1 (fun _ => 1) 0 Nat.one_pos
  have hone : signed 64 (1 * -1) = signed 64 (1 * sign) := hquery
  have hother : signed 64 (1 * -1) = signed 64 (-(1 * sign)) := hquery'
  rcases hsign with rfl | rfl
  · exact absurd hone (by decide)
  · exact absurd hother (by decide)

/-! ## The heap of a count sketch -/

/-- A heap without lost keys: every key of the table is that of an entry. -/
structure MonitoredHeap (heap : HashHeap) : Prop where
  rooted : RootedHeap heap
  monitored : ∀ key, hashTableGet heap.indexes key ≠ none → ∃ n ∈ heapEntries heap, n.key = key

theorem MonitoredHeap.get_eq_none {heap : HashHeap} (h : MonitoredHeap heap) {key : FlowKey}
    (hkey : ∀ n ∈ heapEntries heap, n.key ≠ key) : hashTableGet heap.indexes key = none := by
  by_contra hget
  obtain ⟨n, hn, hnk⟩ := h.monitored key hget
  exact hkey n hn hnk

theorem MonitoredHeap.insert {heap : HashHeap} (h : MonitoredHeap heap) {key : FlowKey}
    (hnew : hashTableGet heap.indexes key = none) (data : Int) :
    MonitoredHeap (hashHeapInsert heap key data).2 := by
  refine ⟨h.rooted.insert hnew data, ?_⟩
  by_cases hfull : heap.size = heap.max_size
  · rw [hashHeapInsert, if_pos hfull]
    exact h.monitored
  intro key' hget
  rw [heapEntries_insert hfull]
  rw [hashHeapInsert_of_ne hfull, hashTableGet_insert hnew] at hget
  by_cases hk : key' = key
  · exact ⟨⟨key, data⟩, Set.mem_insert .., hk.symm⟩
  · rw [if_neg hk] at hget
    obtain ⟨n, hn, hnk⟩ := h.monitored key' hget
    exact ⟨n, Set.mem_insert_of_mem _ hn, hnk⟩

/-- Keys are neither lost nor added by sifting. -/
theorem MonitoredHeap.heapify {heap : HashHeap} (h : MonitoredHeap heap) (i : Nat) :
    MonitoredHeap (hashHeapHeapify heap i) := by
  refine ⟨h.rooted.heapify i, fun key hget => ?_⟩
  rw [heapEntries_heapify]
  refine h.monitored key fun hnone => hget ?_
  exact (hashHeapHeapify_get_eq_none_iff heap i key).mpr hnone

/-- An increment of a key in the table succeeds and keeps all keys. -/
theorem MonitoredHeap.inc {heap : HashHeap} (h : MonitoredHeap heap) {key : FlowKey}
    (hget : hashTableGet heap.indexes key ≠ none) (value : Int) :
    ∃ r, hashHeapInc heap key value = .ok r ∧ MonitoredHeap r.2 ∧ r.2.max_size = heap.max_size := by
  rcases hashHeapUpsert_cases h.rooted.bounded (fun data => signed 64 (data + value)) key value with
    ⟨hnone, -⟩ | ⟨index, -, -, heq⟩
  · exact absurd hnone hget
  · refine ⟨_, heq, MonitoredHeap.heapify ⟨h.rooted.overwrite _ _, ?_⟩ 0, hashHeapHeapify_max_size ..⟩
    intro key' hget'
    obtain ⟨-, ⟨k, hk, rfl⟩, hkey⟩ := h.monitored key' hget'
    refine ⟨_, ⟨k, hk, rfl⟩, ?_⟩
    dsimp only
    rw [Function.update_apply]
    split
    case isTrue hki => rw [← hki, ← hkey]
    case isFalse => exact hkey

/-- The state of a count sketch over a stream: its heap, and the lines with the given masks. -/
structure CountsketchInv (w : Nat) (masks : List (BitVec 32)) (past : List (FlowKey × Int))
    (sketch : CountsketchSketch) : Prop where
  width : sketch.w = w
  depth : sketch.d = masks.length
  lines : List.Forall₂ (fun mask line => CountsketchTracks w mask past line) masks sketch.lines
  heap : MonitoredHeap sketch.heap
  capacity : sketch.heap.max_size = w - 1

theorem newCountsketchSketch_inv {w : Nat} (hhi : w < 2 ^ 31) (masks : List (BitVec 32)) :
    ∃ start, newCountsketchSketch w masks = .ok start ∧ CountsketchInv w masks [] start ∧
      start.heap.size = 0 := by
  obtain ⟨indexes, hindexes, hnew⟩ := newHashHeap_ok hhi
  have hget := newHashTable_get hindexes
  refine ⟨_, by simp only [newCountsketchSketch, hnew]; rfl, ⟨rfl, rfl, ?_, ⟨⟨⟨?_, Nat.zero_le _,
    newHashTable_allValues hindexes⟩, newHashTable_wellFormed hindexes, ?_, ?_, ?_⟩, ?_⟩, rfl⟩, rfl⟩
  · rw [List.forall₂_map_right_iff, List.forall₂_same]
    exact fun mask _ => newCountsketchLine_tracks w mask
  · show w - 1 < 2 ^ 31
    omega
  · intro i hi
    exact absurd hi (Nat.not_lt_zero i)
  · intro i hi
    exact absurd hi (Nat.not_lt_zero i)
  · intro h0
    exact absurd h0 (Nat.lt_irrefl 0)
  · intro key hne
    exact absurd (hget key) hne

section Step

variable {w : Nat} {masks : List (BitVec 32)} {past : List (FlowKey × Int)}
variable {sketch : CountsketchSketch}

/-- The loop over the lines. -/
theorem CountsketchInv.updateLines (h : CountsketchInv w masks past sketch) (key : FlowKey)
    (value : Int) :
    CountsketchInv w masks (past ++ [(key, value)]) (countsketchUpdateLines sketch key value) := by
  refine ⟨h.width, h.depth, ?_, h.heap, h.capacity⟩
  rw [countsketchUpdateLines, List.forall₂_map_right_iff]
  exact h.lines.imp fun _ _ hline => hline.update key value

/-- The lines and the sizes do not depend on the heap's contents. -/
theorem CountsketchInv.withHeap (h : CountsketchInv w masks past sketch) {heap : HashHeap}
    (hheap : MonitoredHeap heap) (hmax : heap.max_size = sketch.heap.max_size) :
    CountsketchInv w masks past { sketch with heap := heap } :=
  ⟨h.width, h.depth, h.lines, hheap, hmax.trans h.capacity⟩

/-- An update of a key that is not monitored is an insertion: the branch that would replace an
entry asks for a heap of `w` entries, and this one never has more than `w - 1`. -/
theorem CountsketchInv.update_new (h : CountsketchInv w masks past sketch) (hw : 1 ≤ w)
    (sort : SortFunc) {key : FlowKey} (hget : hashTableGet sketch.heap.indexes key = none)
    (value : Int) :
    countsketchSketchUpdate sort sketch key value =
      .ok { countsketchUpdateLines sketch key value with
        heap := (hashHeapInsert sketch.heap key
          (countsketchSketchForcequery sort (countsketchUpdateLines sketch key value) key)).2 } := by
  have hsize : sketch.heap.size < sketch.w := by
    have hle := h.heap.rooted.bounded.size_le
    rw [h.capacity] at hle
    rw [h.width]
    omega
  have hget' : hashTableGet (countsketchUpdateLines sketch key value).heap.indexes key = none := hget
  have hsize' : (countsketchUpdateLines sketch key value).heap.size <
      (countsketchUpdateLines sketch key value).w := hsize
  rw [countsketchSketchUpdate]
  simp only [hget', if_pos hsize']
  rfl

/-- **One update** succeeds and leads to the state after the longer stream. -/
theorem CountsketchInv.update (h : CountsketchInv w masks past sketch) (hw : 1 ≤ w)
    (sort : SortFunc) (key : FlowKey) (value : Int) :
    ∃ sketch', countsketchSketchUpdate sort sketch key value = .ok sketch' ∧
      CountsketchInv w masks (past ++ [(key, value)]) sketch' := by
  have hlines := h.updateLines key value
  cases hget : hashTableGet sketch.heap.indexes key with
  | none =>
      refine ⟨_, h.update_new hw sort hget value, hlines.withHeap (h.heap.insert hget _) ?_⟩
      rw [hashHeapInsert]
      split <;> rfl
  | some index =>
      obtain ⟨r, hr, hheap, hmax⟩ := h.heap.inc
        (show hashTableGet sketch.heap.indexes key ≠ none by simp [hget]) value
      refine ⟨_, ?_, hlines.withHeap hheap hmax⟩
      have hget' : hashTableGet (countsketchUpdateLines sketch key value).heap.indexes key =
          some index := hget
      have hr' : hashHeapInc (countsketchUpdateLines sketch key value).heap key value = .ok r := hr
      rw [countsketchSketchUpdate]
      simp only [hget', hr']

end Step

/-- A whole stream. -/
theorem countsketchRun_inv {w : Nat} (hw : 1 ≤ w) {masks : List (BitVec 32)} (sort : SortFunc)
    (stream : List (FlowKey × Int)) {past : List (FlowKey × Int)} {sketch : CountsketchSketch}
    (h : CountsketchInv w masks past sketch) :
    ∃ sketch', countsketchRun sort sketch stream = .ok sketch' ∧
      CountsketchInv w masks (past ++ stream) sketch' := by
  induction stream generalizing past sketch with
  | nil => exact ⟨sketch, rfl, by rwa [List.append_nil]⟩
  | cons u stream ih =>
      obtain ⟨key, value⟩ := u
      obtain ⟨sketch₁, hok, hinv⟩ := h.update hw sort key value
      obtain ⟨sketch', hrun, hinv'⟩ := ih hinv
      refine ⟨sketch', by simp only [countsketchRun, hok, hrun], ?_⟩
      rwa [List.append_assoc, List.singleton_append] at hinv'

/-! ## Which flows are monitored -/

/-- What an update of a key that is not monitored should do with the estimate `e`: monitor the key
while there is room for `w` flows, then in place of one with a smallest estimate, and leave the
heap alone when `e` is no larger than that. In the end no flow is monitored twice, there are at
most `w`, and only those are answered with anything but 0. -/
structure AdmitsFlow (sort : SortFunc) (sketch sketch' : CountsketchSketch) (key : FlowKey)
    (e : Int) : Prop where
  room : sketch.heap.size < sketch.w →
    heapEntries sketch'.heap = insert ⟨key, e⟩ (heapEntries sketch.heap)
  replaces : sketch.w ≤ sketch.heap.size → (∃ n ∈ heapEntries sketch.heap, n.data < e) →
    ∃ m ∈ heapEntries sketch.heap, (∀ n ∈ heapEntries sketch.heap, m.data ≤ n.data) ∧
      heapEntries sketch'.heap = insert ⟨key, e⟩ (heapEntries sketch.heap \ {m})
  keeps : sketch.w ≤ sketch.heap.size → (∀ n ∈ heapEntries sketch.heap, e ≤ n.data) →
    sketch'.heap = sketch.heap
  once : ∀ i < sketch'.heap.size, ∀ j < sketch'.heap.size,
    (sketch'.heap.elem i).key = (sketch'.heap.elem j).key → i = j
  atMost : sketch'.heap.size ≤ sketch'.w
  answers : ∀ key', countsketchSketchQuery sort sketch' key' ≠ 0 →
    ∃ n ∈ heapEntries sketch'.heap, n.key = key'

/-- The update of a new key admits it as it should. -/
def CountsketchAdmits (sort : SortFunc) (sketch : CountsketchSketch) (key : FlowKey)
    (value : Int) : Prop :=
  ∃ sketch', countsketchSketchUpdate sort sketch key value = .ok sketch' ∧
    AdmitsFlow sort sketch sketch' key
      (countsketchSketchForcequery sort (countsketchUpdateLines sketch key value) key)

/-- Only keys of the table are answered with anything but 0. -/
theorem MonitoredHeap.answers {sort : SortFunc} {sketch : CountsketchSketch}
    (h : MonitoredHeap sketch.heap) {key : FlowKey}
    (hanswer : countsketchSketchQuery sort sketch key ≠ 0) :
    ∃ n ∈ heapEntries sketch.heap, n.key = key := by
  apply h.monitored
  intro hnone
  simp only [countsketchSketchQuery, hnone] at hanswer
  exact hanswer rfl

theorem countsketchAdmits_of_inv {w : Nat} (hlo : 2 ≤ w) {masks : List (BitVec 32)}
    {past : List (FlowKey × Int)} {sketch : CountsketchSketch}
    (h : CountsketchInv w masks past sketch) (sort : SortFunc) {key : FlowKey}
    (hkey : ∀ n ∈ heapEntries sketch.heap, n.key ≠ key) (value : Int) :
    CountsketchAdmits sort sketch key value ↔ sketch.heap.size + 1 < w := by
  have hget := h.heap.get_eq_none hkey
  have hle := h.heap.rooted.bounded.size_le
  rw [h.capacity] at hle
  have hupdate := h.update_new (by omega) sort hget value
  have hheap := h.heap.insert hget
    (countsketchSketchForcequery sort (countsketchUpdateLines sketch key value) key)
  constructor
  · rintro ⟨sketch', hok, hadmits⟩
    by_contra hfull
    obtain rfl := Except.ok.inj (hupdate.symm.trans hok)
    -- there is room by the sketch's own test, and the heap refuses
    have hinserted := hadmits.room (by rw [h.width]; omega)
    have hmem : (⟨key, countsketchSketchForcequery sort (countsketchUpdateLines sketch key value) key⟩
        : Node) ∈ heapEntries sketch.heap := by
      have hsame : (hashHeapInsert sketch.heap key (countsketchSketchForcequery sort
          (countsketchUpdateLines sketch key value) key)).2 = sketch.heap := by
        rw [hashHeapInsert, if_pos (by rw [h.capacity]; omega)]
      dsimp only at hinserted
      rw [hsame] at hinserted
      rw [hinserted]
      exact Set.mem_insert ..
    exact hkey _ hmem rfl
  · intro hroom
    have hne : sketch.heap.size ≠ sketch.heap.max_size := by
      rw [h.capacity]
      omega
    refine ⟨_, hupdate, ?_, ?_, ?_, hheap.rooted.inj, ?_, ?_⟩
    · intro _
      exact heapEntries_insert hne key _
    · intro hwide
      rw [h.width] at hwide
      omega
    · intro hwide
      rw [h.width] at hwide
      omega
    · show (hashHeapInsert sketch.heap key _).2.size ≤ sketch.w
      rw [hashHeapInsert_of_ne hne, h.width]
      show sketch.heap.size + 1 ≤ w
      omega
    · intro key' hanswer
      exact MonitoredHeap.answers hheap hanswer

/-- **Admission.** In every state that updates lead to, a further update of a key that is not
monitored admits it as it should exactly when the heap has two entries less than the sketch is
wide: the heap is full at `w - 1` entries, where the sketch still sees room. -/
theorem countsketchAdmits_iff {w : Nat} (hlo : 2 ≤ w) (hhi : w < 2 ^ 31) {masks : List (BitVec 32)}
    (_hd : 1 ≤ masks.length) (sort : SortFunc) {start sketch : CountsketchSketch}
    {stream : List (FlowKey × Int)} (hnew : newCountsketchSketch w masks = .ok start)
    (hrun : countsketchRun sort start stream = .ok sketch) {key : FlowKey}
    (hkey : ∀ n ∈ heapEntries sketch.heap, n.key ≠ key) (value : Int) :
    CountsketchAdmits sort sketch key value ↔ sketch.heap.size + 1 < w := by
  obtain ⟨start', hnew', hinv, -⟩ := newCountsketchSketch_inv hhi masks
  obtain rfl := Except.ok.inj (hnew.symm.trans hnew')
  obtain ⟨sketch', hrun', hinv'⟩ := countsketchRun_inv (by omega) sort stream hinv
  obtain rfl := Except.ok.inj (hrun.symm.trans hrun')
  exact countsketchAdmits_of_inv hlo hinv' sort hkey value

/-- The first flow of a sketch of three columns is admitted. -/
theorem countsketchAdmits_first :
    ∃ start, newCountsketchSketch 3 [7] = .ok start ∧
      CountsketchAdmits (fun _ l => l) start hostA 5 := by
  obtain ⟨start, hnew, -, hsize⟩ := newCountsketchSketch_inv (w := 3) (by decide) [7]
  have hrun : countsketchRun (fun _ l => l) start [] = .ok start := rfl
  refine ⟨start, hnew, (countsketchAdmits_iff (by decide) (by decide) (by decide) _ hnew
    hrun ?_ 5).mpr (by omega)⟩
  rintro n ⟨i, hi, -⟩
  omega

/-- In a sketch of two columns the second flow is refused, although there is room for two. -/
theorem countsketchAdmits_second_refused :
    ∃ start sketch, newCountsketchSketch 2 [7] = .ok start ∧
      countsketchRun (fun _ l => l) start [(hostA, 5)] = .ok sketch ∧
      (∀ n ∈ heapEntries sketch.heap, n.key ≠ hostB) ∧
      ¬ CountsketchAdmits (fun _ l => l) sketch hostB 9 := by
  obtain ⟨start, hnew, hinv, hsize⟩ := newCountsketchSketch_inv (w := 2) (by decide) [7]
  have hempty : hashTableGet start.heap.indexes hostA = none := by
    apply hinv.heap.get_eq_none
    rintro n ⟨i, hi, -⟩
    omega
  have hroom : start.heap.size ≠ start.heap.max_size := by
    rw [hinv.capacity]
    omega
  obtain ⟨sketch, hok, hinv'⟩ := hinv.update (by decide) (fun _ l => l) hostA 5
  have hheap := congrArg CountsketchSketch.heap
    (Except.ok.inj (hok.symm.trans (hinv.update_new (by decide) (fun _ l => l) hempty 5)))
  have hfresh : ∀ n ∈ heapEntries sketch.heap, n.key ≠ hostB := by
    intro n hn
    rw [hheap, heapEntries_insert hroom, Set.mem_insert_iff] at hn
    rcases hn with rfl | ⟨i, hi, -⟩
    · exact hostA_ne_hostB
    · omega
  refine ⟨start, sketch, hnew, by simp only [countsketchRun, hok], hfresh, ?_⟩
  rw [countsketchAdmits_of_inv (by decide) hinv' _ hfresh 9, hheap, hashHeapInsert_of_ne hroom]
  show ¬ start.heap.size + 1 + 1 < 2
  omega

/-! ## The estimate -/

/-- What is assumed of `sort`: it rearranges the array, and it sorts the array if on its entries the
comparator's result has the sign of the comparison. -/
structure SortsByComparison (sort : SortFunc) : Prop where
  perm : ∀ cmp l, (sort cmp l).Perm l
  sorted : ∀ cmp l, (∀ a ∈ l, ∀ b ∈ l, (cmp a b).sign = (a - b).sign) →
    (sort cmp l).Pairwise (· ≤ ·)

/-- A sort that looks at the entries through the comparator only. -/
def cmpSort : SortFunc := fun cmp l => l.mergeSort fun a b => decide (cmp a b ≤ 0)

theorem cmpSort_sortsByComparison : SortsByComparison cmpSort := by
  refine ⟨fun cmp l => List.mergeSort_perm l _, fun cmp l hsign => ?_⟩
  have hle : ∀ a ∈ l, ∀ b ∈ l, decide (cmp a b ≤ 0) = decide (a ≤ b) := by
    intro a ha b hb
    rw [decide_eq_decide, ← Int.sign_nonpos_iff, hsign a ha b hb, Int.sign_nonpos_iff]
    exact sub_nonpos
  have hsort := List.map_mergeSort (r := fun a b => decide (cmp a b ≤ 0))
    (s := fun a b => decide (a ≤ b)) (f := fun a => a) hle
  rw [List.map_id', List.map_id'] at hsort
  rw [cmpSort, hsort]
  exact List.pairwise_mergeSort' (· ≤ ·) l

/-- `cmpelem` has the sign of the comparison for all entries of the list. -/
def ComparesRight (l : List Int) : Prop :=
  ∀ a ∈ l, ∀ b ∈ l, (cmpelem a b).sign = (a - b).sign

instance (l : List Int) : Decidable (ComparesRight l) :=
  inferInstanceAs (Decidable (∀ a ∈ l, ∀ b ∈ l, (cmpelem a b).sign = (a - b).sign))

/-- Where it has not, the entries are far apart. -/
theorem far_of_not_comparesRight {a b : Int} (hsign : (cmpelem a b).sign ≠ (a - b).sign) : 3 ≤ |a - b| := by
  by_contra hnear
  apply hsign
  have hlt := not_le.mp hnear
  have h64 : signed 64 (a - b) = a - b :=
    signed_eq_self_of_abs (by decide) (hlt.trans (by decide))
  have h32 : signed 32 (a - b) = a - b :=
    signed_eq_self_of_abs (by decide) (hlt.trans (by decide))
  rw [cmpelem, h64, h32]

/-- After the stream every line answers the signed sum of the key's column, and for every `sort` that
sorts, the estimate is the median of the answers. -/
def CountsketchEstimates (w : Nat) (masks : List (BitVec 32)) (stream : List (FlowKey × Int))
    (key : FlowKey) : Prop :=
  ∀ sort, SortsByComparison sort → ∃ start sketch,
    newCountsketchSketch w masks = .ok start ∧ countsketchRun sort start stream = .ok sketch ∧
      (sketch.lines.map fun line => countsketchLineQuery line key) =
        masks.map (countsketchLineSum w stream key) ∧
      countsketchSketchForcequery sort sketch key =
        median (masks.map (countsketchLineSum w stream key))

theorem CountsketchInv.map_query {w : Nat} {masks : List (BitVec 32)}
    {stream : List (FlowKey × Int)} {sketch : CountsketchSketch}
    (h : CountsketchInv w masks stream sketch) (hweight : streamWeight stream < 2 ^ 62)
    (key : FlowKey) :
    (sketch.lines.map fun line => countsketchLineQuery line key) =
      masks.map (countsketchLineSum w stream key) := by
  have hlines := h.lines
  clear h
  generalize sketch.lines = lines at hlines
  induction hlines with
  | nil => rfl
  | cons hline _ ih => rw [List.map_cons, List.map_cons, hline.query hweight, ih]

/-- The estimate is the middle of what `sort` makes of the line sums. -/
theorem CountsketchInv.forcequery_eq {w : Nat} {masks : List (BitVec 32)}
    {stream : List (FlowKey × Int)} {sketch : CountsketchSketch}
    (h : CountsketchInv w masks stream sketch) (hweight : streamWeight stream < 2 ^ 62)
    {sort : SortFunc} (hsort : SortsByComparison sort) (key : FlowKey) :
    countsketchSketchForcequery sort sketch key =
      middle (sort cmpelem (masks.map (countsketchLineSum w stream key))) := by
  have hperm := hsort.perm cmpelem (masks.map (countsketchLineSum w stream key))
  have hlen : (sort cmpelem (masks.map (countsketchLineSum w stream key))).length = sketch.d := by
    rw [hperm.length_eq, List.length_map, h.depth]
  have hrange : ∀ i, |(sort cmpelem (masks.map (countsketchLineSum w stream key))).getD i 0| <
      2 ^ 62 := by
    intro i
    rw [List.getD_eq_getElem?_getD]
    cases hget : (sort cmpelem (masks.map (countsketchLineSum w stream key)))[i]? with
    | none => simp
    | some x =>
        obtain ⟨mask, -, rfl⟩ := List.mem_map.mp (hperm.mem_iff.mp (List.mem_of_getElem? hget))
        rw [Option.getD_some]
        exact (abs_countsketchLineSum_le w stream key mask).trans_lt hweight
  rw [countsketchSketchForcequery, h.map_query hweight, middle, hlen]
  generalize sort cmpelem (masks.map (countsketchLineSum w stream key)) = results at hrange
  refine if_congr Iff.rfl ?_ rfl
  have hupper := hrange (sketch.d / 2)
  have hlower := hrange (sketch.d / 2 - 1)
  have hsum := abs_add_le (results.getD (sketch.d / 2) 0) (results.getD (sketch.d / 2 - 1) 0)
  rw [signed_eq_self_of_abs (by decide) (lt_of_le_of_lt hsum _)]
  show _ < (2 : Int) ^ 63
  omega

/-- A key that shares one column with each of the two flows below. -/
def hostC : FlowKey := ⟨9, 9, 9, 9, 6⟩

end OvsDatapath.Sketch
