import OvsDatapath.Lib.Majority
import OvsDatapath.Lib.Scan
import OvsDatapath.Lib.Wrap
import OvsDatapath.Sketch.FlowKey

/-!
# The count-max sketch

`countmax.c`: `d` lines of `w` cells, each cell a candidate key with a counter. A line hashes a
key to one of its cells, and the cell is updated by the rule of weighted majority voting. All
lines use the same hash, so the rows differ in nothing but the random mask that no operation reads.

The proof works cell by cell. As long as no counter leaves the range of `elemtype`, a cell holds
exactly what `Majority.Cell` holds after the votes of its column (`LineTracks`), and the estimate
of the sketch is the estimate of any of its lines.
-/

namespace OvsDatapath.Sketch

open OvsDatapath.Lib

/-- `struct countmax_line`: `w` cells, stored as two parallel arrays. -/
structure CountmaxLine (w : Nat) where
  mask : BitVec 32
  keys : Vector FlowKey w
  counters : Vector Int w

/-- `struct countmax_sketch`. -/
structure CountmaxSketch where
  w : Nat
  d : Nat
  w_ne_zero : NeZero w
  lines : Vector (CountmaxLine w) d

attribute [instance] CountmaxSketch.w_ne_zero

variable {w : Nat}

/-- `new_countmax_line`: zeroed cells and a random mask. -/
def newCountmaxLine (w : Nat) (rand : BitVec 32) : CountmaxLine w where
  mask := rand
  keys := Vector.replicate w emptyKey
  counters := Vector.replicate w 0

/-- `new_countmax_sketch`. `rand i` is what the random generator gives for line `i`. -/
def newCountmaxSketch (w d : Nat) [NeZero w] (rand : Nat → BitVec 32) : CountmaxSketch where
  w := w
  d := d
  w_ne_zero := inferInstance
  lines := Vector.ofFn fun i => newCountmaxLine w (rand i)

/-- The cell of a line that a key is hashed to. -/
def countmaxIndex (w : Nat) [NeZero w] (key : FlowKey) : Fin w :=
  ⟨(flowKeyHashOld key).toNat % w, Nat.mod_lt _ (NeZero.pos w)⟩

/-- `countmax_line_update`. -/
def countmaxLineUpdate [NeZero w] (this : CountmaxLine w) (key : FlowKey) (value : Int) :
    CountmaxLine w :=
  let index := countmaxIndex w key
  let now := this.counters[index]
  if flowKeyEqual key this.keys[index] then
    { this with counters := this.counters.set index (signed 64 (now + value)) }
  else if value > now then
    { this with
      counters := this.counters.set index (signed 64 (value - now))
      keys := this.keys.set index key }
  else
    { this with counters := this.counters.set index (signed 64 (now - value)) }

/-- `countmax_line_query`. -/
def countmaxLineQuery [NeZero w] (this : CountmaxLine w) (key : FlowKey) : Int :=
  let index := countmaxIndex w key
  if flowKeyEqual key this.keys[index] then this.counters[index] else 0

/-- `countmax_sketch_update`: every line is updated. -/
def countmaxSketchUpdate (this : CountmaxSketch) (key : FlowKey) (value : Int) :
    CountmaxSketch :=
  { this with lines := this.lines.map fun line => countmaxLineUpdate line key value }

/-- `countmax_sketch_query`: the largest line estimate, starting from zero. -/
def countmaxSketchQuery (this : CountmaxSketch) (key : FlowKey) : Int :=
  this.lines.foldl (fun max line =>
    let q := countmaxLineQuery line key
    if q > max then q else max) 0

/-- A stream of updates, first update first. -/
def countmaxSketchRun (this : CountmaxSketch) (stream : List (FlowKey × Int)) :
    CountmaxSketch :=
  stream.foldl (fun s p => countmaxSketchUpdate s p.1 p.2) this

/-! ## A cell is a majority vote -/

/-- The cell `j` of a line. -/
def CountmaxLine.cell (this : CountmaxLine w) (j : Fin w) : Majority.Cell FlowKey :=
  { candidate := getElem this.keys j j.isLt, count := getElem this.counters j j.isLt }

@[simp] theorem newCountmaxLine_cell (rand : BitVec 32) (j : Fin w) :
    (newCountmaxLine w rand).cell j = { candidate := emptyKey, count := 0 } := by
  simp [newCountmaxLine, CountmaxLine.cell]

/-- A line estimates by the cell of the key. -/
theorem countmaxLineQuery_eq_estimate [NeZero w] (this : CountmaxLine w) (key : FlowKey) :
    countmaxLineQuery this key = (this.cell (countmaxIndex w key)).estimate key := by
  unfold countmaxLineQuery Majority.Cell.estimate CountmaxLine.cell
  by_cases h : key = this.keys[countmaxIndex w key]
  · rw [if_pos (flowKeyEqual_iff.mpr h), if_pos h]
  · rw [if_neg (fun he => h (flowKeyEqual_iff.mp he)), if_neg h]

/-- The three branches of an update, as cells: the stored key is confirmed, -/
theorem countmaxLineUpdate_cell_confirm [NeZero w] (this : CountmaxLine w) {key : FlowKey}
    {value : Int} (h : key = this.keys[countmaxIndex w key]) (j : Fin w) :
    (countmaxLineUpdate this key value).cell j =
      if countmaxIndex w key = j then
        { candidate := this.keys[j], count := signed 64 (this.counters[j] + value) }
      else this.cell j := by
  have hupd : countmaxLineUpdate this key value = _ := if_pos (flowKeyEqual_iff.mpr h)
  rw [hupd]
  by_cases hj : countmaxIndex w key = j
  · subst hj; simp [CountmaxLine.cell]
  · have hne : (countmaxIndex w key : Nat) ≠ j := fun h => hj (Fin.ext h)
    simp [CountmaxLine.cell, hj, hne]

/-- replaced by a heavier one, -/
theorem countmaxLineUpdate_cell_replace [NeZero w] (this : CountmaxLine w) {key : FlowKey}
    {value : Int} (h : key ≠ this.keys[countmaxIndex w key])
    (hgt : this.counters[countmaxIndex w key] < value) (j : Fin w) :
    (countmaxLineUpdate this key value).cell j =
      if countmaxIndex w key = j then
        { candidate := key, count := signed 64 (value - this.counters[j]) }
      else this.cell j := by
  have hupd : countmaxLineUpdate this key value = _ :=
    (if_neg fun he => h (flowKeyEqual_iff.mp he)).trans (if_pos hgt)
  rw [hupd]
  by_cases hj : countmaxIndex w key = j
  · subst hj; simp [CountmaxLine.cell]
  · have hne : (countmaxIndex w key : Nat) ≠ j := fun h => hj (Fin.ext h)
    simp [CountmaxLine.cell, hj, hne]

/-- or paid down. -/
theorem countmaxLineUpdate_cell_pay [NeZero w] (this : CountmaxLine w) {key : FlowKey}
    {value : Int} (h : key ≠ this.keys[countmaxIndex w key])
    (hle : ¬ this.counters[countmaxIndex w key] < value) (j : Fin w) :
    (countmaxLineUpdate this key value).cell j =
      if countmaxIndex w key = j then
        { candidate := this.keys[j], count := signed 64 (this.counters[j] - value) }
      else this.cell j := by
  have hupd : countmaxLineUpdate this key value = _ :=
    (if_neg fun he => h (flowKeyEqual_iff.mp he)).trans (if_neg hle)
  rw [hupd]
  by_cases hj : countmaxIndex w key = j
  · subst hj; simp [CountmaxLine.cell]
  · have hne : (countmaxIndex w key : Nat) ≠ j := fun h => hj (Fin.ext h)
    simp [CountmaxLine.cell, hj, hne]

/-- **An update is a vote in the key's own column**, and nothing elsewhere, unless the counter
leaves its range. -/
theorem countmaxLineUpdate_cell [NeZero w] (this : CountmaxLine w) {key : FlowKey}
    {value : Int} (hnow : 0 ≤ (this.cell (countmaxIndex w key)).count) (hvalue : 0 ≤ value)
    (hsum : (this.cell (countmaxIndex w key)).count + value < 2 ^ 63) (j : Fin w) :
    (countmaxLineUpdate this key value).cell j =
      if countmaxIndex w key = j then (this.cell j).vote key value else this.cell j := by
  simp only [CountmaxLine.cell] at hnow hsum
  by_cases hkey : key = this.keys[countmaxIndex w key]
  · rw [countmaxLineUpdate_cell_confirm this hkey]
    refine ite_congr rfl (fun hj => ?_) fun _ => rfl
    subst hj
    rw [signed64_eq_self (by omega) hsum]
    exact (if_pos hkey).symm
  · by_cases hgt : this.counters[countmaxIndex w key] < value
    · rw [countmaxLineUpdate_cell_replace this hkey hgt]
      refine ite_congr rfl (fun hj => ?_) fun _ => rfl
      subst hj
      rw [signed64_eq_self (by omega) (by omega)]
      exact ((if_neg hkey).trans (if_pos hgt)).symm
    · rw [countmaxLineUpdate_cell_pay this hkey hgt]
      refine ite_congr rfl (fun hj => ?_) fun _ => rfl
      subst hj
      rw [signed64_eq_self (by omega) (by omega)]
      exact ((if_neg hkey).trans (if_neg hgt)).symm

/-! ## Streams -/

/-- The updates of a stream whose key falls in column `j`. -/
def columnVotes (w : Nat) [NeZero w] (j : Fin w) (stream : List (FlowKey × Int)) :
    List (FlowKey × Int) :=
  stream.filter fun p => countmaxIndex w p.1 = j

theorem columnVotes_nonneg [NeZero w] (j : Fin w) {stream : List (FlowKey × Int)}
    (h : ∀ p ∈ stream, 0 ≤ p.2) : ∀ p ∈ columnVotes w j stream, 0 ≤ p.2 :=
  fun p hp => h p (List.mem_of_mem_filter hp)

/-- Only the updates of its own column carry weight for a key. -/
theorem share_columnVotes [NeZero w] (key : FlowKey) (stream : List (FlowKey × Int)) :
    Majority.share key (columnVotes w (countmaxIndex w key) stream) =
      Majority.share key stream := by
  induction stream with
  | nil => rfl
  | cons p stream ih =>
      rw [Majority.share_cons, ← ih]
      by_cases hp : p.1 = key
      · simp [columnVotes, hp, Majority.share_cons]
      · by_cases hc : countmaxIndex w p.1 = countmaxIndex w key <;>
          simp [columnVotes, hp, hc, Majority.share_cons]

/-- Every cell of the line holds what majority voting makes of its column of the stream. -/
def LineTracks [NeZero w] (stream : List (FlowKey × Int)) (line : CountmaxLine w) : Prop :=
  ∀ j, line.cell j = (Majority.Cell.mk emptyKey 0).votes (columnVotes w j stream)

theorem lineTracks_new [NeZero w] (rand : BitVec 32) : LineTracks [] (newCountmaxLine w rand) :=
  fun j => newCountmaxLine_cell rand j

theorem LineTracks.backed [NeZero w] {stream : List (FlowKey × Int)} {line : CountmaxLine w}
    (h : LineTracks stream line) (hvalues : ∀ p ∈ stream, 0 ≤ p.2) (j : Fin w) :
    Majority.Backed (columnVotes w j stream) (line.cell j) := by
  rw [h j]
  exact Majority.Cell.votes_backed (Majority.backed_nil emptyKey) (columnVotes_nonneg j hvalues)

/-- One update keeps a line on its stream: the counter stays below the total, so nothing wraps. -/
theorem LineTracks.update [NeZero w] {stream : List (FlowKey × Int)} {line : CountmaxLine w}
    (h : LineTracks stream line) {key : FlowKey} {value : Int}
    (hvalues : ∀ p ∈ stream, 0 ≤ p.2) (hvalue : 0 ≤ value)
    (htotal : Majority.total stream + value < 2 ^ 63) :
    LineTracks (stream ++ [(key, value)]) (countmaxLineUpdate line key value) := by
  intro j
  have hback := h.backed hvalues (countmaxIndex w key)
  have hcount : (line.cell (countmaxIndex w key)).count ≤ Majority.total stream :=
    calc (line.cell (countmaxIndex w key)).count
        ≤ Majority.share _ (columnVotes w (countmaxIndex w key) stream) := hback.le_share
      _ ≤ Majority.total (columnVotes w (countmaxIndex w key) stream) :=
          Majority.share_le_total _ (columnVotes_nonneg _ hvalues)
      _ ≤ Majority.total stream := Majority.total_filter_le _ hvalues
  rw [countmaxLineUpdate_cell line hback.nonneg hvalue (by omega), h j]
  by_cases hj : countmaxIndex w key = j
  · rw [if_pos hj]
    simp [columnVotes, List.filter_append, Majority.Cell.votes, List.foldl_append, hj]
  · rw [if_neg hj]
    simp [columnVotes, List.filter_append, hj]

/-- Every line of the sketch is on the stream. -/
def SketchTracks (stream : List (FlowKey × Int)) (this : CountmaxSketch) : Prop :=
  ∀ line ∈ this.lines, LineTracks stream line

theorem sketchTracks_new (w d : Nat) [NeZero w] (rand : Nat → BitVec 32) :
    SketchTracks [] (newCountmaxSketch w d rand) := by
  intro line hline
  obtain ⟨i, hi, rfl⟩ := Vector.mem_iff_getElem.mp hline
  simpa [newCountmaxSketch] using lineTracks_new (rand i)

theorem SketchTracks.update {stream : List (FlowKey × Int)} {this : CountmaxSketch}
    (h : SketchTracks stream this) {key : FlowKey} {value : Int}
    (hvalues : ∀ p ∈ stream, 0 ≤ p.2) (hvalue : 0 ≤ value)
    (htotal : Majority.total stream + value < 2 ^ 63) :
    SketchTracks (stream ++ [(key, value)]) (countmaxSketchUpdate this key value) := by
  intro line hline
  obtain ⟨old, hold, rfl⟩ := Vector.mem_map.mp hline
  exact (h old hold).update hvalues hvalue htotal

/-- A run keeps the shape of the sketch. -/
theorem countmaxSketchRun_shape (this : CountmaxSketch) (stream : List (FlowKey × Int)) :
    (countmaxSketchRun this stream).w = this.w ∧ (countmaxSketchRun this stream).d = this.d := by
  induction stream generalizing this with
  | nil => exact ⟨rfl, rfl⟩
  | cons p stream ih => exact ih (countmaxSketchUpdate this p.1 p.2)

theorem sketchTracks_run (w d : Nat) [NeZero w] (rand : Nat → BitVec 32)
    {stream : List (FlowKey × Int)} (hvalues : ∀ p ∈ stream, 0 ≤ p.2)
    (htotal : Majority.total stream < 2 ^ 63) :
    SketchTracks stream (countmaxSketchRun (newCountmaxSketch w d rand) stream) := by
  induction stream using List.reverseRecOn with
  | nil => exact sketchTracks_new w d rand
  | append_singleton stream p ih =>
      have hpre : ∀ q ∈ stream, 0 ≤ q.2 := fun q hq => hvalues q (List.mem_append_left _ hq)
      have hp : 0 ≤ p.2 := hvalues p (List.mem_append_right _ (List.mem_singleton.mpr rfl))
      have hsum : Majority.total stream + p.2 < 2 ^ 63 := by simpa using htotal
      have hstep : SketchTracks (stream ++ [(p.1, p.2)]) _ :=
        (ih hpre (by omega)).update hpre hp hsum
      simpa [countmaxSketchRun, List.foldl_append] using hstep

/-! ## The guarantee -/

theorem countmaxSketchQuery_eq_foldl (this : CountmaxSketch) (key : FlowKey) :
    countmaxSketchQuery this key = this.lines.toList.foldl (fun max line =>
      if countmaxLineQuery line key > max then countmaxLineQuery line key else max) 0 := by
  rw [countmaxSketchQuery, Vector.foldl_toList]

/-- The sum of the values given for all keys that share a column with `key` in a line of `w`
cells. -/
def columnSum (w : Nat) (key : FlowKey) (stream : List (FlowKey × Int)) : Int :=
  ((stream.filter fun p =>
    (flowKeyHashOld p.1).toNat % w = (flowKeyHashOld key).toNat % w).map Prod.snd).sum

theorem total_columnVotes (w : Nat) [NeZero w] (key : FlowKey) (stream : List (FlowKey × Int)) :
    Majority.total (columnVotes w (countmaxIndex w key) stream) = columnSum w key stream := by
  simp [columnVotes, columnSum, Majority.total, countmaxIndex]

/-- What each line of a sketch on its stream knows about a key. -/
theorem SketchTracks.line_bounds {stream : List (FlowKey × Int)} {this : CountmaxSketch}
    (h : SketchTracks stream this) (hvalues : ∀ p ∈ stream, 0 ≤ p.2) (key : FlowKey)
    (line : CountmaxLine this.w) (hline : line ∈ this.lines) :
    2 * valueSum key stream - columnSum this.w key stream ≤ countmaxLineQuery line key ∧
      countmaxLineQuery line key ≤ valueSum key stream ∧
      (columnSum this.w key stream < 2 * valueSum key stream →
        line.keys[countmaxIndex this.w key] = key) := by
  have hback := (h line hline).backed hvalues (countmaxIndex this.w key)
  have hnonneg := columnVotes_nonneg (countmaxIndex this.w key) hvalues
  have hshare : Majority.share key (columnVotes this.w (countmaxIndex this.w key) stream) =
      valueSum key stream := share_columnVotes key stream
  rw [countmaxLineQuery_eq_estimate, ← hshare, ← total_columnVotes]
  exact ⟨hback.excess_le_estimate key, hback.estimate_le_share hnonneg key, hback.holds_majority⟩

/-- **Count-max guarantee.** After any stream of non-negative values with a total below `2 ^ 63`,
a query lies between the key's excess over the rest of its column and the key's true sum, and a
key with the majority of its column is the one that every line retains, with at least its
excess. -/
theorem countmaxSketchQuery_bounds {w d : Nat} [NeZero w] (hd : 1 ≤ d) (rand : Nat → BitVec 32)
    (stream : List (FlowKey × Int)) (hvalues : ∀ p ∈ stream, 0 ≤ p.2)
    (htotal : (stream.map Prod.snd).sum < 2 ^ 63) (key : FlowKey) :
    let sketch := countmaxSketchRun (newCountmaxSketch w d rand) stream
    max 0 (2 * valueSum key stream - columnSum w key stream) ≤ countmaxSketchQuery sketch key ∧
      countmaxSketchQuery sketch key ≤ valueSum key stream ∧
      (columnSum w key stream < 2 * valueSum key stream → ∀ line ∈ sketch.lines,
        line.keys[countmaxIndex sketch.w key] = key ∧
          2 * valueSum key stream - columnSum w key stream ≤
            line.counters[countmaxIndex sketch.w key]) := by
  intro sketch
  have htracks : SketchTracks stream sketch := sketchTracks_run w d rand hvalues htotal
  obtain ⟨hw, hd'⟩ : sketch.w = w ∧ sketch.d = d :=
    countmaxSketchRun_shape (newCountmaxSketch w d rand) stream
  have hlines := htracks.line_bounds hvalues key
  have hcolumn : columnSum sketch.w key stream = columnSum w key stream := by rw [hw]
  rw [← hcolumn]
  refine ⟨?_, ?_, ?_⟩
  · -- the first line alone gives the lower bound
    have hpos : 0 < sketch.d := by omega
    have hmem : sketch.lines[0] ∈ sketch.lines := Vector.getElem_mem hpos
    have hmax := Scan.le_foldl_max (fun line => countmaxLineQuery line key) sketch.lines.toList 0
    rw [countmaxSketchQuery_eq_foldl]
    exact max_le hmax.1 ((hlines _ hmem).1.trans (hmax.2 _ (by simp)))
  · rw [countmaxSketchQuery_eq_foldl]
    exact Scan.foldl_max_le _ (Majority.share_nonneg key hvalues) fun line hline =>
      (hlines line (Vector.mem_toList_iff.mp hline)).2.1
  · intro hmaj line hline
    have hkey := (hlines line hline).2.2 hmaj
    refine ⟨hkey, ?_⟩
    have hlow := (hlines line hline).1
    rwa [countmaxLineQuery, if_pos (flowKeyEqual_iff.mpr hkey.symm)] at hlow

/-- Two flows in one cell: the first has an excess of 2 over the second, and its estimate lies
between that and its true sum 3. -/
theorem countmaxSketchQuery_bounds_two_flows :
    let flow : FlowKey := ⟨1, 2, 3, 4, 6⟩
    let stream := [(flow, 2), (⟨9, 2, 3, 4, 6⟩, 1), (flow, 1)]
    let sketch := countmaxSketchRun (newCountmaxSketch 1 2 fun _ => 7) stream
    2 ≤ countmaxSketchQuery sketch flow ∧ countmaxSketchQuery sketch flow ≤ 3 := by
  intro flow stream sketch
  have h := countmaxSketchQuery_bounds (w := 1) (d := 2) (by decide) (fun _ => 7) stream
    (by decide) (by decide) flow
  have hvalue : valueSum flow stream = 3 := by decide
  have hcolumn : columnSum 1 flow stream = 4 := by decide
  rw [hvalue, hcolumn] at h
  exact ⟨(le_max_right _ _).trans h.1, h.2.1⟩

end OvsDatapath.Sketch
