import OvsDatapath.Lib.Scan
import OvsDatapath.Lib.Wrap
import OvsDatapath.Sketch.FlowKey

/-!
# The count-min sketch

`countmin.c`: `d` rows of `w` counters in one flat array, each row with its own mask that is xored
into the hash. Both the update and the query walk the rows and keep the smallest counter they
meet, starting from the sentinel `-1`; the update reads each counter before it adds to it.

The positions are computed in 32-bit arithmetic. Below `2 ^ 31` counters nothing wraps
(`countminLongIndex_eq`), the rows own disjoint parts of the array, and each counter is the sum of
the values of its column (`CountminTracks`).
-/

namespace OvsDatapath.Sketch

open OvsDatapath.Lib

/-- `struct countmin_sketch`. -/
structure CountminSketch where
  w : Nat
  d : Nat
  w_ne_zero : NeZero w
  masks : Vector (BitVec 32) d
  data : Vector Int (w * d)

attribute [instance] CountminSketch.w_ne_zero

/-- A sketch with the given masks and all counters zero. -/
def zeroCountminSketch (w d : Nat) [NeZero w] (masks : Vector (BitVec 32) d) : CountminSketch where
  w := w
  d := d
  w_ne_zero := ‹NeZero w›
  masks := masks
  data := Vector.replicate (w * d) 0

/-- `new_countmin_sketch`. The source assigns `rand_uint32` itself, without calling it, so every
mask is the low word of that function's address. -/
def newCountminSketch (w d : Nat) [NeZero w] (randUint32 : BitVec 32) : CountminSketch :=
  zeroCountminSketch w d (Vector.replicate d randUint32)

/-- The column of a hash in a row with the given mask. -/
def countminIndex (w : Nat) (mask hash : BitVec 32) : Nat := (hash ^^^ mask).toNat % w

/-- `long_index`, a `uint32_t`: the position of column `index` of row `i` in the flat array. -/
def countminLongIndex (w i index : Nat) : Nat := (w * i + index) % 2 ^ 32

/-- The loop of `countmin_sketch_update` over the rows that are left, with the array and the value
of `ret` so far. An index past the array ends it half way. -/
def countminUpdateRows {w d : Nat} (masks : Vector (BitVec 32) d) (hash : BitVec 32) (value : Int) :
    List (Fin d) → Vector Int (w * d) → Int → Int × Vector Int (w * d)
  | [], data, ret => (signed 64 (ret + value), data)
  | i :: rows, data, ret =>
      let longIndex := countminLongIndex w i (countminIndex w masks[i] hash)
      if h : longIndex < w * d then
        let candidate := data[longIndex]
        countminUpdateRows masks hash value rows
          (data.set longIndex (signed 64 (candidate + value)))
          (if candidate < ret ∨ ret < 0 then candidate else ret)
      else (-1, data)

/-- `countmin_sketch_update`: the returned estimate and the sketch after it. -/
def countminSketchUpdate (this : CountminSketch) (key : FlowKey) (value : Int) :
    Int × CountminSketch :=
  let result := countminUpdateRows this.masks (flowKeyHash key 16) value
    (List.finRange this.d) this.data (-1)
  (result.1, { this with data := result.2 })

/-- The loop of `countmin_sketch_query`; `none` is a read past the array, which the source does
not check for here. -/
def countminQueryRows {w d : Nat} (masks : Vector (BitVec 32) d) (hash : BitVec 32)
    (data : Vector Int (w * d)) : List (Fin d) → Int → Option Int
  | [], ret => some ret
  | i :: rows, ret =>
      match data[countminLongIndex w i (countminIndex w masks[i] hash)]? with
      | none => none
      | some candidate =>
          countminQueryRows masks hash data rows
            (if candidate < ret ∨ ret < 0 then candidate else ret)

/-- `countmin_sketch_query`. -/
def countminSketchQuery (this : CountminSketch) (key : FlowKey) : Option Int :=
  countminQueryRows this.masks (flowKeyHash key 16) this.data (List.finRange this.d) (-1)

/-- A stream of updates, first update first. -/
def countminSketchRun (this : CountminSketch) (stream : List (FlowKey × Int)) : CountminSketch :=
  stream.foldl (fun s p => (countminSketchUpdate s p.1 p.2).2) this

/-! ## Positions in the flat array -/

section Positions

variable {w d : Nat} [NeZero w]

theorem countminIndex_lt (mask hash : BitVec 32) : countminIndex w mask hash < w :=
  Nat.mod_lt _ (NeZero.pos w)

omit [NeZero w] in
/-- A row's part of the array lies inside the array. -/
theorem row_add_lt {i index : Nat} (hi : i < d) (hindex : index < w) : w * i + index < w * d :=
  calc w * i + index < w * i + w := by omega
    _ = w * (i + 1) := by ring
    _ ≤ w * d := Nat.mul_le_mul_left w hi

omit [NeZero w] in
/-- Below `2 ^ 31` counters the 32-bit position is the true one. -/
theorem countminLongIndex_eq (hsize : w * d < 2 ^ 31) {i index : Nat} (hi : i < d)
    (hindex : index < w) : countminLongIndex w i index = w * i + index := by
  have hlt := row_add_lt hi hindex
  exact Nat.mod_eq_of_lt (by omega)

omit [NeZero w] in
/-- Positions in different rows are different. -/
theorem row_add_inj {i j a b : Nat} (ha : a < w) (hb : b < w) (h : w * i + a = w * j + b) :
    i = j ∧ a = b := by
  have hdiv : ∀ x c : Nat, c < w → (w * x + c) / w = x := fun x c hc => by
    rw [Nat.mul_add_div (by omega), Nat.div_eq_of_lt hc, Nat.add_zero]
  have hij : i = j := by rw [← hdiv i a ha, h, hdiv j b hb]
  subst hij
  exact ⟨rfl, by omega⟩

end Positions

/-! ## What the two loops compute -/

section Loops

variable {w d : Nat} (masks : Vector (BitVec 32) d) (hash : BitVec 32)

/-- The position that the hash selects in row `i`. -/
def countminPos (w : Nat) (i : Fin d) : Nat := w * i + countminIndex w masks[i] hash

theorem countminPos_lt [NeZero w] (i : Fin d) : countminPos masks hash w i < w * d :=
  row_add_lt i.isLt (countminIndex_lt _ _)

theorem countminPos_inj [NeZero w] {i j : Fin d}
    (h : countminPos masks hash w i = countminPos masks hash w j) : i = j :=
  Fin.ext (row_add_inj (countminIndex_lt _ _) (countminIndex_lt _ _) h).1

/-- The counters that the hash selects, row by row. -/
def selected (data : Vector Int (w * d)) (rows : List (Fin d)) : List Int :=
  rows.map fun i => data[countminPos masks hash w i]?.getD 0

/-- The update loop never bails out; it adds the value to the selected counters and returns their
smallest old content plus the value. -/
theorem countminUpdateRows_spec [NeZero w] (hsize : w * d < 2 ^ 31) (value : Int)
    {rows : List (Fin d)} (hrows : rows.Nodup) (data : Vector Int (w * d)) (ret : Int) :
    (countminUpdateRows masks hash value rows data ret).1 =
        signed 64 ((selected masks hash data rows).foldl Scan.minStep ret + value) ∧
      ∀ j : Nat, (countminUpdateRows masks hash value rows data ret).2[j]? =
        if ∃ i ∈ rows, countminPos masks hash w i = j then
          data[j]?.map fun c => signed 64 (c + value)
        else data[j]? := by
  induction rows generalizing data ret with
  | nil => exact ⟨rfl, fun j => by simp [countminUpdateRows]⟩
  | cons i rows ih =>
      have hpos := countminPos_lt masks hash (w := w) i
      have hlong : countminLongIndex w i (countminIndex w masks[i] hash) =
          countminPos masks hash w i :=
        countminLongIndex_eq hsize i.isLt (countminIndex_lt _ _)
      have hin : i ∉ rows := (List.nodup_cons.mp hrows).1
      -- the other rows select other positions, so the write does not disturb them
      have hother : ∀ k ∈ rows, countminPos masks hash w i ≠ countminPos masks hash w k :=
        fun k hk heq => hin (countminPos_inj masks hash heq ▸ hk)
      obtain ⟨hret, hdata⟩ := ih (List.nodup_cons.mp hrows).2
        (data.set (countminPos masks hash w i) (signed 64 (data[countminPos masks hash w i] + value)))
        (Scan.minStep ret data[countminPos masks hash w i])
      have hloop : countminUpdateRows masks hash value (i :: rows) data ret =
          countminUpdateRows masks hash value rows
            (data.set (countminPos masks hash w i)
              (signed 64 (data[countminPos masks hash w i] + value)))
            (Scan.minStep ret data[countminPos masks hash w i]) := by
        simp only [countminUpdateRows, hlong, hpos, dite_true, Scan.minStep]
      rw [hloop]
      refine ⟨?_, fun j => ?_⟩
      · have hsel : selected masks hash (data.set (countminPos masks hash w i)
            (signed 64 (data[countminPos masks hash w i] + value))) rows =
            selected masks hash data rows := by
          refine List.map_congr_left fun k hk => ?_
          rw [Vector.getElem?_set_ne _ (hother k hk)]
        have hhead : data[countminPos masks hash w i]?.getD 0 =
            data[countminPos masks hash w i] := by
          rw [Vector.getElem?_eq_getElem hpos, Option.getD_some]
        rw [hret, hsel]
        simp only [selected, List.map_cons, List.foldl_cons, hhead]
      · rw [hdata j]
        by_cases hj : countminPos masks hash w i = j
        · subst hj
          have hnot : ¬ ∃ k ∈ rows, countminPos masks hash w k = countminPos masks hash w i :=
            fun ⟨k, hk, heq⟩ => hother k hk heq.symm
          rw [if_neg hnot, if_pos ⟨i, List.mem_cons_self .., rfl⟩, Vector.getElem?_set_self hpos,
            Vector.getElem?_eq_getElem hpos, Option.map_some]
        · rw [Vector.getElem?_set_ne _ hj]
          simp [hj]

/-- The query loop never reads past the array and returns the smallest selected counter. -/
theorem countminQueryRows_spec [NeZero w] (hsize : w * d < 2 ^ 31) (rows : List (Fin d))
    (data : Vector Int (w * d)) (ret : Int) :
    countminQueryRows masks hash data rows ret =
      some ((selected masks hash data rows).foldl Scan.minStep ret) := by
  induction rows generalizing ret with
  | nil => rfl
  | cons i rows ih =>
      have hpos := countminPos_lt masks hash (w := w) i
      have hlong : countminLongIndex w i (countminIndex w masks[i] hash) =
          countminPos masks hash w i :=
        countminLongIndex_eq hsize i.isLt (countminIndex_lt _ _)
      simp only [countminQueryRows, hlong, Vector.getElem?_eq_getElem hpos, ih]
      simp only [selected, List.map_cons, List.foldl_cons, Vector.getElem?_eq_getElem hpos,
        Option.getD_some]
      rfl

end Loops

/-! ## Streams -/

/-- The sum of the values of all updates whose key falls in the given column of a row. -/
def rowSum (w : Nat) (mask : BitVec 32) (column : Nat) (stream : List (FlowKey × Int)) : Int :=
  ((stream.filter fun p => countminIndex w mask (flowKeyHash p.1 16) = column).map Prod.snd).sum

/-- The row sums of the columns that a key falls in. -/
def rowSums (w : Nat) {d : Nat} (masks : Vector (BitVec 32) d) (key : FlowKey)
    (stream : List (FlowKey × Int)) : List Int :=
  (List.finRange d).map fun i =>
    rowSum w masks[i] (countminIndex w masks[i] (flowKeyHash key 16)) stream

section Streams

variable {w d : Nat} [NeZero w] {masks : Vector (BitVec 32) d} {stream : List (FlowKey × Int)}

omit [NeZero w] in
theorem rowSum_append (mask : BitVec 32) (column : Nat) (key : FlowKey) (value : Int) :
    rowSum w mask column (stream ++ [(key, value)]) =
      rowSum w mask column stream +
        if countminIndex w mask (flowKeyHash key 16) = column then value else 0 := by
  by_cases h : countminIndex w mask (flowKeyHash key 16) = column <;>
    simp [rowSum, List.filter_append, h]

/-- Every counter is the sum of its column. -/
def CountminTracks (masks : Vector (BitVec 32) d) (stream : List (FlowKey × Int))
    (data : Vector Int (w * d)) : Prop :=
  ∀ i : Fin d, ∀ c < w, data[w * i + c]? = some (rowSum w masks[i] c stream)

omit [NeZero w] in
theorem countminTracks_zero (masks : Vector (BitVec 32) d) :
    CountminTracks masks [] (Vector.replicate (w * d) 0) := by
  intro i c hc
  have hlt := row_add_lt i.isLt hc
  simp [rowSum, hlt]

/-- On its stream, the sketch selects exactly the row sums of a key. -/
theorem CountminTracks.selected_eq {data : Vector Int (w * d)} (h : CountminTracks masks stream data)
    (key : FlowKey) :
    selected masks (flowKeyHash key 16) data (List.finRange d) = rowSums w masks key stream := by
  refine List.map_congr_left fun i _ => ?_
  have hi := h i _ (countminIndex_lt masks[i] (flowKeyHash key 16))
  simp only [countminPos, hi, Option.getD_some]

/-- One update keeps the sketch on its stream: the sums stay below `2 ^ 63`, so nothing wraps. -/
theorem CountminTracks.update {data : Vector Int (w * d)} (h : CountminTracks masks stream data)
    (hsize : w * d < 2 ^ 31) {key : FlowKey} {value : Int} (hvalues : ∀ p ∈ stream, 0 ≤ p.2)
    (hvalue : 0 ≤ value) (htotal : (stream.map Prod.snd).sum + value < 2 ^ 63) :
    CountminTracks masks (stream ++ [(key, value)])
      (countminUpdateRows masks (flowKeyHash key 16) value (List.finRange d) data (-1)).2 := by
  intro i c hc
  have hspec := (countminUpdateRows_spec masks (flowKeyHash key 16) hsize value
    (List.nodup_finRange d) data (-1)).2 (w * i + c)
  rw [hspec, h i c hc, rowSum_append]
  have hnonneg : 0 ≤ rowSum w masks[i] c stream := filterSum_nonneg _ hvalues
  have hle : rowSum w masks[i] c stream ≤ (stream.map Prod.snd).sum := filterSum_le_sum _ hvalues
  have hwrap : signed 64 (rowSum w masks[i] c stream + value) =
      rowSum w masks[i] c stream + value :=
    signed64_eq_self (by omega) (by omega)
  by_cases hcol : countminIndex w masks[i] (flowKeyHash key 16) = c
  · have hsel : ∃ k ∈ List.finRange d,
        countminPos masks (flowKeyHash key 16) w k = w * i + c :=
      ⟨i, List.mem_finRange i, by rw [countminPos, hcol]⟩
    rw [if_pos hsel, if_pos hcol, Option.map_some, hwrap]
  · have hsel : ¬ ∃ k ∈ List.finRange d,
        countminPos masks (flowKeyHash key 16) w k = w * i + c := by
      rintro ⟨k, -, hk⟩
      obtain ⟨hki, hkc⟩ := row_add_inj (countminIndex_lt _ _) hc hk
      exact hcol (Fin.ext hki ▸ hkc)
    rw [if_neg hsel, if_neg hcol, add_zero]

omit [NeZero w] in
/-- Only the counters change in a run. -/
theorem countminSketchRun_eq (this : CountminSketch) (stream : List (FlowKey × Int)) :
    countminSketchRun this stream =
      { this with data := stream.foldl (fun data p =>
          (countminUpdateRows this.masks (flowKeyHash p.1 16) p.2
            (List.finRange this.d) data (-1)).2) this.data } := by
  induction stream generalizing this with
  | nil => rfl
  | cons p stream ih => exact ih (countminSketchUpdate this p.1 p.2).2

theorem countminTracks_run (masks : Vector (BitVec 32) d) (hsize : w * d < 2 ^ 31)
    (hvalues : ∀ p ∈ stream, 0 ≤ p.2) (htotal : (stream.map Prod.snd).sum < 2 ^ 63) :
    CountminTracks masks stream (stream.foldl (fun data p =>
      (countminUpdateRows masks (flowKeyHash p.1 16) p.2 (List.finRange d) data (-1)).2)
        (Vector.replicate (w * d) 0)) := by
  induction stream using List.reverseRecOn with
  | nil => exact countminTracks_zero masks
  | append_singleton stream p ih =>
      have hpre : ∀ q ∈ stream, 0 ≤ q.2 := fun q hq => hvalues q (List.mem_append_left _ hq)
      have hp : 0 ≤ p.2 := hvalues p (List.mem_append_right _ (List.mem_singleton.mpr rfl))
      have hsum : (stream.map Prod.snd).sum + p.2 < 2 ^ 63 := by simpa using htotal
      have hstep : CountminTracks masks (stream ++ [(p.1, p.2)]) _ :=
        (ih hpre (by omega)).update hsize hpre hp hsum
      simpa [List.foldl_append] using hstep

/-! ## Exactness -/

omit [NeZero w] in
theorem rowSums_nonneg (masks : Vector (BitVec 32) d) (key : FlowKey)
    (hvalues : ∀ p ∈ stream, 0 ≤ p.2) : ∀ x ∈ rowSums w masks key stream, 0 ≤ x := by
  intro x hx
  obtain ⟨i, -, rfl⟩ := List.mem_map.mp hx
  exact filterSum_nonneg _ hvalues

omit [NeZero w] in
/-- A row sum counts all of the key's own values. -/
theorem valueSum_le_rowSums (masks : Vector (BitVec 32) d) (key : FlowKey)
    (hvalues : ∀ p ∈ stream, 0 ≤ p.2) : ∀ x ∈ rowSums w masks key stream, valueSum key stream ≤ x := by
  intro x hx
  obtain ⟨i, -, rfl⟩ := List.mem_map.mp hx
  refine filterSum_le_filterSum (fun u _ hu => ?_) hvalues
  have hkey : u.1 = key := of_decide_eq_true hu
  simp [hkey]

omit [NeZero w] in
theorem rowSums_append_self (masks : Vector (BitVec 32) d) (key : FlowKey) (value : Int) :
    rowSums w masks key (stream ++ [(key, value)]) =
      (rowSums w masks key stream).map (· + value) := by
  simp [rowSums, rowSum_append]

omit [NeZero w] in
/-- A sketch with a row has a smallest row sum. -/
theorem rowSums_min?_eq_some (hd : 1 ≤ d) (masks : Vector (BitVec 32) d) (key : FlowKey) :
    ∃ m, (rowSums w masks key stream).min? = some m ∧ m ∈ rowSums w masks key stream := by
  have hne : rowSums w masks key stream ≠ [] := by
    have hlen : (rowSums w masks key stream).length = d := by simp [rowSums]
    exact List.ne_nil_of_length_pos (by omega)
  obtain ⟨m, hm⟩ := Option.isSome_iff_exists.mp (List.isSome_min?_of_ne_nil hne)
  exact ⟨m, hm, List.min?_mem hm⟩

/-- A query on a stream is the smallest row sum. -/
theorem CountminTracks.query_eq {data : Vector Int (w * d)} (h : CountminTracks masks stream data)
    (hd : 1 ≤ d) (hsize : w * d < 2 ^ 31) (hvalues : ∀ p ∈ stream, 0 ≤ p.2) (key : FlowKey) :
    countminQueryRows masks (flowKeyHash key 16) data (List.finRange d) (-1) =
      (rowSums w masks key stream).min? := by
  obtain ⟨m, hm, -⟩ : ∃ m, (rowSums w masks key stream).min? = some m ∧ _ :=
    rowSums_min?_eq_some hd masks key
  rw [countminQueryRows_spec masks _ hsize, h.selected_eq,
    Scan.minStep_foldl (rowSums_nonneg masks key hvalues), hm, Option.getD_some]

/-- An update on a stream returns the smallest row sum after it. -/
theorem CountminTracks.update_eq {data : Vector Int (w * d)} (h : CountminTracks masks stream data)
    (hd : 1 ≤ d) (hsize : w * d < 2 ^ 31) (hvalues : ∀ p ∈ stream, 0 ≤ p.2) (key : FlowKey)
    {value : Int} (hvalue : 0 ≤ value) (htotal : (stream.map Prod.snd).sum + value < 2 ^ 63) :
    some (countminUpdateRows masks (flowKeyHash key 16) value (List.finRange d) data (-1)).1 =
      (rowSums w masks key (stream ++ [(key, value)])).min? := by
  obtain ⟨m, hm, hmem⟩ : ∃ m, (rowSums w masks key stream).min? = some m ∧ _ :=
    rowSums_min?_eq_some hd masks key
  have hnonneg := rowSums_nonneg masks key hvalues m hmem
  have hle : m ≤ (stream.map Prod.snd).sum := by
    obtain ⟨i, -, rfl⟩ := List.mem_map.mp hmem
    exact filterSum_le_sum _ hvalues
  rw [(countminUpdateRows_spec masks _ hsize value (List.nodup_finRange d) data (-1)).1,
    h.selected_eq, Scan.minStep_foldl (rowSums_nonneg masks key hvalues), hm, Option.getD_some,
    signed64_eq_self (by omega) (by omega), rowSums_append_self, Scan.min?_map_add, hm,
    Option.map_some]

/-- **Count-min exactness.** On a zeroed sketch with any masks, after any stream of non-negative
values with a total below `2 ^ 63`, a query is the minimum over the rows of the sum of the key's
column, hence at least the key's true sum; and what the next update returns is what a query for
the same key returns after it. -/
theorem countminSketch_exact (hd : 1 ≤ d) (hsize : w * d < 2 ^ 31)
    (masks : Vector (BitVec 32) d) (stream : List (FlowKey × Int))
    (hvalues : ∀ p ∈ stream, 0 ≤ p.2) (htotal : (stream.map Prod.snd).sum < 2 ^ 63)
    (key : FlowKey) :
    let sketch := countminSketchRun (zeroCountminSketch w d masks) stream
    countminSketchQuery sketch key = (rowSums w masks key stream).min? ∧
      (∃ estimate, countminSketchQuery sketch key = some estimate ∧
        valueSum key stream ≤ estimate) ∧
      ∀ value, 0 ≤ value → (stream.map Prod.snd).sum + value < 2 ^ 63 →
        some (countminSketchUpdate sketch key value).1 =
          countminSketchQuery (countminSketchUpdate sketch key value).2 key := by
  intro sketch
  have htracks := countminTracks_run masks hsize hvalues htotal
  have hsketch : sketch = _ := countminSketchRun_eq (zeroCountminSketch w d masks) stream
  rw [hsketch]
  have hquery := htracks.query_eq hd hsize hvalues key
  refine ⟨hquery, ?_, fun value hvalue hsum => ?_⟩
  · obtain ⟨m, hm, hmem⟩ := rowSums_min?_eq_some hd masks key
    exact ⟨m, hquery.trans hm, valueSum_le_rowSums masks key hvalues m hmem⟩
  · have hnext : CountminTracks masks (stream ++ [(key, value)]) _ :=
      htracks.update hsize hvalues hvalue hsum
    have hvalues' : ∀ p ∈ stream ++ [(key, value)], 0 ≤ p.2 := by
      intro p hp
      rcases List.mem_append.mp hp with hp | hp
      · exact hvalues p hp
      · rw [List.mem_singleton.mp hp]; exact hvalue
    exact (htracks.update_eq hd hsize hvalues key hvalue hsum).trans
      (hnext.query_eq hd hsize hvalues' key).symm

/-- A sketch of two rows and three columns, with two different masks. -/
theorem countminSketch_exact_two_rows :
    let flow : FlowKey := ⟨1, 2, 3, 4, 6⟩
    let stream := [(flow, 2), (⟨9, 2, 3, 4, 6⟩, 1), (flow, 1)]
    let sketch := countminSketchRun (zeroCountminSketch 3 2 #v[5, 9]) stream
    some (countminSketchUpdate sketch flow 4).1 =
      countminSketchQuery (countminSketchUpdate sketch flow 4).2 flow := by
  intro flow stream sketch
  exact (countminSketch_exact (w := 3) (d := 2) (by decide) (by decide) #v[5, 9] stream
    (by decide) (by decide) flow).2.2 4 (by decide) (by decide)

end Streams

end OvsDatapath.Sketch
