import OvsDatapath.Sketch.SketchManage
import OvsDatapath.Lib.Wrap

/-!
# The send buffer

`get_stat_and_send_back` once more, with its memory. One buffer is allocated for all egress switches and
filled again for each of them, and its fill level is the length of the message. How many entries it has is
computed in an `int` from products of `size_t`, and whether it could be allocated is not asked.

`reportSent_iff` says that the messages are right if the cells with a count of each switch fit into the
buffer, and that nothing else can go wrong. They do if all products fit into an `int` and the memory is
there (`reportSent_of_small`). A product of 2^32 or more is stored without its high bits.
-/

namespace OvsDatapath.Sketch

open OvsDatapath.Lib

/-! ## The buffer -/

/-- Where memory comes from. The most that `kzalloc` can grant, `KMALLOC_MAX_SIZE`, is less than 2 GiB. -/
structure SendEnv where
  kzalloc : Nat → Bool
  kzalloc_lt : ∀ size, kzalloc size = true → size < 2 ^ 31

/-- `sizeof(struct countmax_entry)`. -/
def countmaxEntrySize : Nat := 24

/-- `max` of a `size_t` and an `int`, which is compared as a `size_t` and stored in an `int`. -/
def maxCount (cells : Nat) (count : Int) : Int :=
  signed 32 (max ((cells : Int) % 2 ^ 64) (count % 2 ^ 64))

/-- The first loop of `get_stat_and_send_back`. -/
def entryCount (s : Sketches) : List (Fin swCount) → Int → Except MemFault Int
  | [], count => .ok count
  | i :: rest, count =>
      if switchType i = .egress then
        match s.countmax i with
        | none => .error .nullDeref
        | some sketch => entryCount s rest (maxCount (sketch.w * sketch.d) count)
      else entryCount s rest count

/-- A zeroed entry. -/
def zeroEntry : CountmaxEntry := ⟨emptyKey, 0⟩

/-- `kzalloc` of a number of entries. A buffer that is not granted has none. -/
def allocEntries (env : SendEnv) (count : Int) : List CountmaxEntry :=
  let size := (count * countmaxEntrySize % 2 ^ 64).toNat
  if env.kzalloc size then List.replicate (size / countmaxEntrySize) zeroEntry else []

/-- The inner loops: each cell with a count is written to the entry at `buf_p`. -/
def writeCells : List CountmaxEntry → List CountmaxEntry → Nat → Except MemFault (List CountmaxEntry × Nat)
  | [], sendbuf, buf_p => .ok (sendbuf, buf_p)
  | cell :: cells, sendbuf, buf_p =>
      if cell.value = 0 then writeCells cells sendbuf buf_p
      else if buf_p < sendbuf.length then writeCells cells (sendbuf.set buf_p cell) (buf_p + 1)
      else .error .outOfBounds

/-- The second loop: the buffer goes from switch to switch. -/
def sendSwitches (s : Sketches) :
    List (Fin swCount) → List CountmaxEntry → Except MemFault (List ReportMessage)
  | [], _ => .ok [.finish]
  | i :: rest, sendbuf =>
      if switchType i = .egress then
        match s.countmax i with
        | none => .error .nullDeref
        | some sketch => do
            let (sendbuf, buf_p) ← writeCells sketch.cells sendbuf 0
            let messages ← sendSwitches s rest sendbuf
            .ok (.entries i (sendbuf.take buf_p) :: messages)
      else sendSwitches s rest sendbuf

/-- `get_stat_and_send_back`, with its memory. -/
def getStatAndSendBackMem (env : SendEnv) (s : Sketches) : Except MemFault (List ReportMessage) := do
  let count ← entryCount s (List.finRange swCount) 0
  sendSwitches s (List.finRange swCount) (allocEntries env count)

/-! ## What is to be sent -/

/-- The cells with a count, line by line. -/
def CountmaxSketch.counted (sketch : CountmaxSketch) : List CountmaxEntry :=
  sketch.cells.filter fun cell => cell.value ≠ 0

/-- The messages of the egress switches among some switches, and the finish marker. -/
def reportOf (s : Sketches) (switches : List (Fin swCount)) : List ReportMessage :=
  (switches.filterMap fun i =>
    if switchType i = .egress then (s.countmax i).map fun sketch => .entries i sketch.counted else none) ++
  [.finish]

/-- One message for each egress switch with all its cells that have a count, and the finish marker; and
all writes are within the buffer. -/
def ReportSent (env : SendEnv) (s : Sketches) : Prop :=
  getStatAndSendBackMem env s = .ok (reportOf s (List.finRange swCount))

/-- The products of the egress switches among some switches. -/
def egressSizes (s : Sketches) (switches : List (Fin swCount)) : List Nat :=
  switches.filterMap fun i =>
    if switchType i = .egress then (s.countmax i).map fun sketch => sketch.w * sketch.d else none

/-- The room for entries: the largest product, as far as an `int` can hold it, or none. -/
def sendbufRoom (env : SendEnv) (s : Sketches) : Nat :=
  (allocEntries env ((egressSizes s (List.finRange swCount)).foldl (fun count cells => maxCount cells count)
    0)).length

/-! ## The loops -/

section

variable {env : SendEnv} {s : Sketches}

/-- The cells with a count come to stand behind what is there, or a write is out of bounds. -/
theorem writeCells_spec (cells sendbuf : List CountmaxEntry) (buf_p : Nat) :
    if buf_p + (cells.filter fun cell => cell.value ≠ 0).length ≤ max buf_p sendbuf.length then
      ∃ sendbuf', writeCells cells sendbuf buf_p =
          .ok (sendbuf', buf_p + (cells.filter fun cell => cell.value ≠ 0).length) ∧
        sendbuf'.length = sendbuf.length ∧
        sendbuf'.take (buf_p + (cells.filter fun cell => cell.value ≠ 0).length) =
          sendbuf.take buf_p ++ cells.filter fun cell => cell.value ≠ 0
    else writeCells cells sendbuf buf_p = .error .outOfBounds := by
  induction cells generalizing sendbuf buf_p with
  | nil =>
      rw [if_pos (by simp)]
      exact ⟨sendbuf, rfl, rfl, by simp⟩
  | cons cell cells ih =>
      by_cases hzero : cell.value = 0
      · have hfilter : (cell :: cells).filter (fun cell => cell.value ≠ 0) =
            cells.filter fun cell => cell.value ≠ 0 := by
          simp [hzero]
        rw [hfilter, writeCells, if_pos hzero]
        exact ih sendbuf buf_p
      · have hfilter : (cell :: cells).filter (fun cell => cell.value ≠ 0) =
            cell :: cells.filter fun cell => cell.value ≠ 0 := by
          simp [hzero]
        rw [hfilter, List.length_cons, writeCells, if_neg hzero]
        -- the next cell with a count is written, and the rest goes behind it
        by_cases hroom : buf_p < sendbuf.length
        · rw [if_pos hroom]
          have hrest := ih (sendbuf.set buf_p cell) (buf_p + 1)
          rw [List.length_set] at hrest
          have hmax : max buf_p sendbuf.length = max (buf_p + 1) sendbuf.length := by omega
          have hsum : ∀ n, buf_p + (n + 1) = buf_p + 1 + n := by omega
          rw [hmax, hsum]
          split_ifs at hrest ⊢ with hfits
          · obtain ⟨sendbuf', hok, hlen, htake⟩ := hrest
            refine ⟨sendbuf', hok, hlen, htake.trans ?_⟩
            have hset : (sendbuf.set buf_p cell).take (buf_p + 1) = sendbuf.take buf_p ++ [cell] := by
              rw [List.take_add_one, List.take_set_of_le le_rfl]
              simp [hroom]
            rw [hset, List.append_assoc]
            rfl
          · exact hrest
        · rw [if_neg hroom, if_neg (by omega)]

/-- Where a switch has a sketch if and only if it is an egress switch, the loop comes to the products. -/
theorem entryCount_eq (h : s.Allocated) (switches : List (Fin swCount)) (count : Int) :
    entryCount s switches count =
      .ok ((egressSizes s switches).foldl (fun count cells => maxCount cells count) count) := by
  induction switches generalizing count with
  | nil => rfl
  | cons i rest ih =>
      unfold egressSizes at ih ⊢
      by_cases htype : switchType i = .egress
      · obtain ⟨sketch, hsketch⟩ := Option.isSome_iff_exists.mp ((h i).mpr htype)
        simp only [entryCount, if_pos htype, hsketch, ih, List.filterMap_cons, Option.map_some,
          List.foldl_cons]
      · simp only [entryCount, if_neg htype, ih, List.filterMap_cons]

/-- Each switch finds the buffer as long as it was, and what the switch before has left in it is not
sent. -/
theorem sendSwitches_spec (h : s.Allocated) (switches : List (Fin swCount)) (sendbuf : List CountmaxEntry) :
    if ∀ i ∈ switches, ∀ sketch, s.countmax i = some sketch → sketch.counted.length ≤ sendbuf.length then
      sendSwitches s switches sendbuf = .ok (reportOf s switches)
    else sendSwitches s switches sendbuf = .error .outOfBounds := by
  induction switches generalizing sendbuf with
  | nil =>
      rw [if_pos (by simp)]
      rfl
  | cons i rest ih =>
      by_cases htype : switchType i = .egress
      · obtain ⟨sketch, hsketch⟩ := Option.isSome_iff_exists.mp ((h i).mpr htype)
        have hreport : reportOf s (i :: rest) = .entries i sketch.counted :: reportOf s rest := by
          simp only [reportOf, List.filterMap_cons, if_pos htype, hsketch, Option.map_some, List.cons_append]
        -- the sketch of this switch is written over the beginning of the buffer
        have hwrite := writeCells_spec sketch.cells sendbuf 0
        simp only [Nat.zero_add, Nat.zero_max, List.take_zero, List.nil_append] at hwrite
        change if sketch.counted.length ≤ _ then _ else _ at hwrite
        rw [sendSwitches, if_pos htype, hreport]
        simp only [hsketch]
        by_cases hfits : sketch.counted.length ≤ sendbuf.length
        · rw [if_pos hfits] at hwrite
          obtain ⟨sendbuf', hok, hlen, htake⟩ := hwrite
          have hrest := ih sendbuf'
          rw [hlen] at hrest
          rw [hok, ok_bind]
          by_cases hall : ∀ j ∈ rest, ∀ sketch, s.countmax j = some sketch →
              sketch.counted.length ≤ sendbuf.length
          · rw [if_pos hall] at hrest
            rw [if_pos, hrest, ok_bind, htake]
            · rfl
            · intro j hj other hother
              rcases List.mem_cons.mp hj with rfl | hj
              · obtain rfl := Option.some.inj (hsketch.symm.trans hother)
                exact hfits
              · exact hall j hj other hother
          · rw [if_neg hall] at hrest
            rw [if_neg, hrest, error_bind]
            exact fun hcons => hall fun j hj => hcons j (List.mem_cons_of_mem _ hj)
        · rw [if_neg hfits] at hwrite
          rw [hwrite, error_bind, if_neg]
          exact fun hcons => hfits (hcons i List.mem_cons_self sketch hsketch)
      · have hnone : s.countmax i = none := by
          by_contra hsome
          exact htype ((h i).mp (Option.isSome_iff_ne_none.mpr hsome))
        have hreport : reportOf s (i :: rest) = reportOf s rest := by
          simp only [reportOf, List.filterMap_cons, if_neg htype]
        rw [sendSwitches, if_neg htype, hreport]
        have hiff : (∀ j ∈ i :: rest, ∀ sketch, s.countmax j = some sketch →
            sketch.counted.length ≤ sendbuf.length) ↔ ∀ j ∈ rest, ∀ sketch, s.countmax j = some sketch →
            sketch.counted.length ≤ sendbuf.length := by
          simp [hnone]
        simp only [hiff]
        exact ih sendbuf

/-- The report with its memory, in terms of the room. -/
theorem getStatAndSendBackMem_spec (env : SendEnv) (h : s.Allocated) :
    if ∀ i sketch, s.countmax i = some sketch → sketch.counted.length ≤ sendbufRoom env s then
      getStatAndSendBackMem env s = .ok (reportOf s (List.finRange swCount))
    else getStatAndSendBackMem env s = .error .outOfBounds := by
  have hsend := sendSwitches_spec h (List.finRange swCount) (allocEntries env
    ((egressSizes s (List.finRange swCount)).foldl (fun count cells => maxCount cells count) 0))
  simp only [List.mem_finRange, true_implies] at hsend
  unfold getStatAndSendBackMem
  rw [entryCount_eq h, ok_bind]
  exact hsend

/-- One switch with more counts than room is enough. -/
theorem getStatAndSendBackMem_overrun (h : s.Allocated) {i : Fin swCount} {sketch : CountmaxSketch}
    (hi : s.countmax i = some sketch) (hover : sendbufRoom env s < sketch.counted.length) :
    getStatAndSendBackMem env s = .error .outOfBounds := by
  have hspec := getStatAndSendBackMem_spec env h
  rwa [if_neg fun hfits => absurd (hfits i sketch hi) (not_le.mpr hover)] at hspec

end

/-! ## The room -/

/-- A product counts for the size of the buffer if no product after it is too large for 32 bits. -/
def Counts (products : List Nat) (cells : Nat) : Prop :=
  ∃ before after, products = before ++ cells :: after ∧ ∀ other ∈ after, other % 2 ^ 64 < 2 ^ 32

/-- There is room for `n` entries: no product is negative as an `int`, the memory for the largest product
that counts is granted, and there are so many entries in it. -/
def Fits (env : SendEnv) (products : List Nat) (n : Nat) : Prop :=
  n = 0 ∨
    (∀ cells ∈ products, cells % 2 ^ 32 < 2 ^ 31) ∧
    ∃ most, Counts products most ∧ (∀ cells, Counts products cells → cells % 2 ^ 32 ≤ most % 2 ^ 32) ∧
      env.kzalloc (most % 2 ^ 32 * countmaxEntrySize) ∧ n ≤ most % 2 ^ 32

theorem counts_concat {products : List Nat} {last cells : Nat} :
    Counts (products ++ [last]) cells ↔ cells = last ∨ Counts products cells ∧ last % 2 ^ 64 < 2 ^ 32 := by
  constructor
  · rintro ⟨before, after, hsplit, hafter⟩
    rcases List.eq_nil_or_concat after with rfl | ⟨init, final, rfl⟩
    · exact .inl (List.append_inj_right' hsplit rfl |> List.singleton_inj.mp).symm
    · rw [List.concat_eq_append] at hsplit hafter
      rw [← List.cons_append, ← List.append_assoc] at hsplit
      obtain ⟨hinit, hlast⟩ := List.append_inj' hsplit rfl
      obtain rfl := List.singleton_inj.mp hlast
      exact .inr ⟨⟨before, init, hinit, fun other hother => hafter other (by simp [hother])⟩,
        hafter last (by simp)⟩
  · rintro (rfl | ⟨⟨before, after, rfl, hafter⟩, hlast⟩)
    · exact ⟨products, [], rfl, by simp⟩
    · refine ⟨before, after ++ [last], by simp, ?_⟩
      intro other hother
      rcases List.mem_append.mp hother with hother | hother
      · exact hafter other hother
      · exact List.mem_singleton.mp hother ▸ hlast

/-- One comparison, for a count that is not negative. -/
theorem maxCount_of_nonneg {cells : Nat} {count : Int} (h0 : 0 ≤ count) (hlt : count < 2 ^ 31)
    (hcells : cells % 2 ^ 32 < 2 ^ 31) :
    maxCount cells count =
      if cells % 2 ^ 64 < 2 ^ 32 then max ((cells % 2 ^ 32 : Nat) : Int) count else (cells % 2 ^ 32 : Nat) := by
  unfold maxCount
  split_ifs with hsmall
  · rw [signed32_eq_self (by omega) (by omega)]
    omega
  · have hmax : max ((cells : Int) % 2 ^ 64) (count % 2 ^ 64) = (cells : Int) % 2 ^ 64 := by omega
    rw [hmax, signed, Int.bmod_def]
    split_ifs <;> omega

/-- A negative count comes from a product that is one, and it stays. -/
theorem maxCount_neg_iff {cells : Nat} {count : Int} (hlo : -2 ^ 31 ≤ count) (hlt : count < 2 ^ 31) :
    maxCount cells count < 0 ↔ count < 0 ∨ 2 ^ 31 ≤ cells % 2 ^ 32 := by
  unfold maxCount signed
  rw [Int.bmod_def]
  split_ifs <;> omega

/-- The count after the first loop. -/
def countOf (products : List Nat) : Int :=
  products.foldl (fun count cells => maxCount cells count) 0

theorem countOf_concat (products : List Nat) (last : Nat) :
    countOf (products ++ [last]) = maxCount last (countOf products) := by
  simp [countOf]

theorem countOf_bounds (products : List Nat) : -2 ^ 31 ≤ countOf products ∧ countOf products < 2 ^ 31 := by
  induction products using List.reverseRecOn with
  | nil => simp [countOf]
  | append_singleton products last _ =>
      rw [countOf_concat]
      exact inSigned_signed (by decide) _

theorem countOf_neg_iff (products : List Nat) :
    countOf products < 0 ↔ ∃ cells ∈ products, 2 ^ 31 ≤ cells % 2 ^ 32 := by
  induction products using List.reverseRecOn with
  | nil => simp [countOf]
  | append_singleton products last ih =>
      obtain ⟨hlo, hhi⟩ := countOf_bounds products
      rw [countOf_concat, maxCount_neg_iff hlo hhi, ih]
      constructor
      · rintro (⟨cells, hmem, hneg⟩ | hneg)
        · exact ⟨cells, List.mem_append_left _ hmem, hneg⟩
        · exact ⟨last, by simp, hneg⟩
      · rintro ⟨cells, hmem, hneg⟩
        rcases List.mem_append.mp hmem with hmem | hmem
        · exact .inl ⟨cells, hmem, hneg⟩
        · exact .inr (List.mem_singleton.mp hmem ▸ hneg)

/-- Without a negative product the count is the largest of those that count. -/
theorem countOf_largest {products : List Nat} (h : ∀ cells ∈ products, cells % 2 ^ 32 < 2 ^ 31) :
    (∀ cells, Counts products cells → ((cells % 2 ^ 32 : Nat) : Int) ≤ countOf products) ∧
    (products = [] ∧ countOf products = 0 ∨
      ∃ most, Counts products most ∧ countOf products = (most % 2 ^ 32 : Nat)) := by
  induction products using List.reverseRecOn with
  | nil =>
      refine ⟨?_, .inl ⟨rfl, rfl⟩⟩
      rintro cells ⟨before, after, hsplit, -⟩
      cases before <;> cases hsplit
  | append_singleton products last ih =>
      have hinit : ∀ cells ∈ products, cells % 2 ^ 32 < 2 ^ 31 :=
        fun cells hmem => h cells (List.mem_append_left _ hmem)
      obtain ⟨hall, hmost⟩ := ih hinit
      have hlast : last % 2 ^ 32 < 2 ^ 31 := h last (by simp)
      have h0 : 0 ≤ countOf products := by
        by_contra hneg
        obtain ⟨cells, hmem, hbit⟩ := (countOf_neg_iff products).mp (by omega)
        have := hinit cells hmem
        omega
      rw [countOf_concat, maxCount_of_nonneg h0 (countOf_bounds products).2 hlast]
      constructor
      · intro cells hcounts
        rcases counts_concat.mp hcounts with rfl | ⟨hbefore, hsmall⟩
        · split_ifs <;> omega
        · rw [if_pos hsmall]
          exact (hall cells hbefore).trans (le_max_right _ _)
      · refine .inr ?_
        by_cases hkeep : last % 2 ^ 64 < 2 ^ 32 ∧ ((last % 2 ^ 32 : Nat) : Int) < countOf products
        · obtain ⟨hsmall, hless⟩ := hkeep
          rcases hmost with ⟨-, hzero⟩ | ⟨most, hcounts, heq⟩
          · omega
          · refine ⟨most, counts_concat.mpr (.inr ⟨hcounts, hsmall⟩), ?_⟩
            rw [if_pos hsmall, max_eq_right hless.le, heq]
        · refine ⟨last, counts_concat.mpr (.inl rfl), ?_⟩
          split_ifs with hsmall
          · exact max_eq_left (not_lt.mp fun hless => hkeep ⟨hsmall, hless⟩)
          · rfl

section

variable {env : SendEnv}

/-- A negative count asks for more memory than there is. -/
theorem allocEntries_of_neg {count : Int} (hlo : -2 ^ 31 ≤ count) (hneg : count < 0) :
    allocEntries env count = [] := by
  have hsize : 2 ^ 31 ≤ (count * (countmaxEntrySize : Int) % 2 ^ 64).toNat := by
    have hentry : (countmaxEntrySize : Int) = 24 := rfl
    have hround : count * 24 % 2 ^ 64 = count * 24 + 2 ^ 64 := by
      rw [← Int.add_emod_right]
      exact Int.emod_eq_of_lt (by omega) (by omega)
    rw [hentry, hround]
    exact (Int.le_toNat (by omega)).mpr (by push_cast; omega)
  simp only [allocEntries]
  split_ifs with hgranted
  · exact absurd (env.kzalloc_lt _ hgranted) (not_lt.mpr hsize)
  · rfl

theorem allocEntries_length {count : Nat} (hlt : count < 2 ^ 31) :
    (allocEntries env count).length = if env.kzalloc (count * countmaxEntrySize) then count else 0 := by
  have hsize : ((count : Int) * (countmaxEntrySize : Int) % 2 ^ 64).toNat = count * countmaxEntrySize := by
    have hentry : (countmaxEntrySize : Int) = 24 := rfl
    have hround : (count : Int) * 24 % 2 ^ 64 = count * 24 := Int.emod_eq_of_lt (by omega) (by omega)
    rw [hentry, hround]
    exact Int.toNat_natCast (count * 24)
  simp only [allocEntries, hsize]
  split_ifs
  · rw [List.length_replicate, Nat.mul_div_cancel _ (by decide)]
  · rfl

/-- The room of the buffer, read off the products. -/
theorem fits_iff (products : List Nat) (n : Nat) :
    Fits env products n ↔ n ≤ (allocEntries env (countOf products)).length := by
  obtain ⟨hlo, hhi⟩ := countOf_bounds products
  by_cases hneg : ∀ cells ∈ products, cells % 2 ^ 32 < 2 ^ 31
  · obtain ⟨hall, hmost⟩ := countOf_largest hneg
    rcases hmost with ⟨rfl, hzero⟩ | ⟨most, hcounts, heq⟩
    · have hempty : (allocEntries env (countOf [])).length = 0 := by
        rw [hzero]
        exact (@allocEntries_length env 0 (by decide)).trans (ite_self 0)
      rw [hempty, Nat.le_zero]
      refine or_iff_left ?_
      rintro ⟨-, most, ⟨before, after, hsplit, -⟩, -⟩
      cases before <;> cases hsplit
    · rw [heq, allocEntries_length (by omega)]
      constructor
      · rintro (rfl | ⟨-, other, hother, hlargest, hgranted, hn⟩)
        · exact Nat.zero_le _
        · have hsame : other % 2 ^ 32 = most % 2 ^ 32 :=
            Nat.le_antisymm (by have := hall other hother; omega) (hlargest most hcounts)
          rw [hsame] at hgranted hn
          rwa [if_pos hgranted]
      · intro hn
        split_ifs at hn with hgranted
        · exact .inr ⟨hneg, most, hcounts, fun cells hc => by have := hall cells hc; omega, hgranted, hn⟩
        · exact .inl (Nat.le_zero.mp hn)
  · have hbit : countOf products < 0 := by
      rw [countOf_neg_iff]
      push Not at hneg
      exact hneg
    rw [allocEntries_of_neg hlo hbit, List.length_nil, Nat.le_zero]
    exact or_iff_left fun hsome => hneg hsome.1

end

/-! ## The report -/

section

variable {s : Sketches}

/-- The report is right if and only if the cells with a count of each switch fit. -/
theorem reportSent_iff (env : SendEnv) (h : s.Allocated) :
    ReportSent env s ↔ ∀ i sketch, s.countmax i = some sketch →
      Fits env (egressSizes s (List.finRange swCount)) sketch.counted.length := by
  have hspec := getStatAndSendBackMem_spec env h
  simp only [fits_iff]
  change _ ↔ ∀ i sketch, s.countmax i = some sketch → sketch.counted.length ≤ sendbufRoom env s
  unfold ReportSent
  split_ifs at hspec with hfits
  · exact iff_of_true hspec hfits
  · rw [hspec]
    exact iff_of_false (by simp) hfits

/-- A product that is small counts if the others are, and there are no more cells than that. -/
theorem fits_of_small {env : SendEnv} (h : s.Allocated)
    (hsmall : ∀ i sketch, s.countmax i = some sketch → sketch.w * sketch.d < 2 ^ 31)
    (hgranted : ∀ i sketch, s.countmax i = some sketch →
      env.kzalloc (sketch.w * sketch.d * countmaxEntrySize))
    {i : Fin swCount} {sketch : CountmaxSketch} (hi : s.countmax i = some sketch) :
    Fits env (egressSizes s (List.finRange swCount)) sketch.counted.length := by
  have hmem : ∀ cells ∈ egressSizes s (List.finRange swCount),
      ∃ j other, s.countmax j = some other ∧ other.w * other.d = cells := by
    intro cells hcells
    obtain ⟨j, -, hj⟩ := List.mem_filterMap.mp hcells
    split_ifs at hj
    obtain ⟨other, hother, heq⟩ := Option.map_eq_some_iff.mp hj
    exact ⟨j, other, hother, heq⟩
  have hcounts : ∀ cells ∈ egressSizes s (List.finRange swCount),
      Counts (egressSizes s (List.finRange swCount)) cells := by
    intro cells hcells
    obtain ⟨before, after, hsplit⟩ := List.append_of_mem hcells
    refine ⟨before, after, hsplit, ?_⟩
    intro other hother
    obtain ⟨j, sketch, hj, rfl⟩ := hmem other (by rw [hsplit]; simp [hother])
    have := hsmall j sketch hj
    omega
  have hown : sketch.w * sketch.d ∈ egressSizes s (List.finRange swCount) := by
    refine List.mem_filterMap.mpr ⟨i, List.mem_finRange i, ?_⟩
    rw [if_pos ((h i).mp (Option.isSome_iff_exists.mpr ⟨sketch, hi⟩)), hi]
    rfl
  -- the largest product is one of them
  have hneg : ∀ cells ∈ egressSizes s (List.finRange swCount), cells % 2 ^ 32 < 2 ^ 31 := by
    intro cells hcells
    obtain ⟨j, other, hj, rfl⟩ := hmem cells hcells
    have := hsmall j other hj
    omega
  obtain ⟨hall, hmost⟩ := countOf_largest hneg
  rcases hmost with ⟨hnil, -⟩ | ⟨most, hmost, heq⟩
  · rw [hnil] at hown
    cases hown
  · obtain ⟨j, other, hj, rfl⟩ : ∃ j other, s.countmax j = some other ∧ other.w * other.d = most := by
      obtain ⟨before, after, hsplit, -⟩ := hmost
      exact hmem most (by rw [hsplit]; simp)
    have hother := hsmall j other hj
    have hmod : other.w * other.d % 2 ^ 32 = other.w * other.d := Nat.mod_eq_of_lt (by omega)
    refine .inr ⟨hneg, _, hmost, fun cells hc => by have := hall cells hc; omega, ?_, ?_⟩
    · rw [hmod]
      exact hgranted j other hj
    · have hsketch := hsmall i sketch hi
      have hle := hall _ (hcounts _ hown)
      have hlen : sketch.counted.length ≤ sketch.w * sketch.d := by
        rw [← sketch.cells_length]
        exact List.length_filter_le _ _
      omega

end

/-- Grants less than a mebibyte. -/
def mebibyteEnv : SendEnv := ⟨fun size => decide (size < 2 ^ 20), fun _ h => by
  have := of_decide_eq_true h
  omega⟩

/-- The same sketch on every egress switch. -/
def sameSketch (sketch : CountmaxSketch) : Sketches where
  countmax i := if switchType i = .egress then some sketch else none
  countmin _ := none
  threshold := 0

theorem sameSketch_allocated (sketch : CountmaxSketch) : (sameSketch sketch).Allocated := by
  intro i
  simp only [sameSketch]
  split_ifs with htype
  · simp [htype]
  · simp [htype]

theorem sameSketch_countmax {sketch other : CountmaxSketch} {i : Fin swCount}
    (h : (sameSketch sketch).countmax i = some other) : other = sketch := by
  simp only [sameSketch] at h
  split_ifs at h
  exact (Option.some.inj h).symm

/-- Two cells on each egress switch, and one packet counted. -/
theorem reportSent_two :
    ReportSent mebibyteEnv (sameSketch (countmaxSketchUpdate (newCountmaxSketch 2 1 fun _ => 0) emptyKey 1)) := by
  refine (reportSent_iff mebibyteEnv (sameSketch_allocated _)).mpr ?_
  intro i sketch hi
  refine fits_of_small (sameSketch_allocated _) ?_ ?_ hi
  all_goals
    intro j other hother
    rw [sameSketch_countmax hother]
    decide

/-- A sketch whose cells all have a count. -/
def fullSketch (w d : Nat) [NeZero w] : CountmaxSketch :=
  ⟨w, d, ‹NeZero w›, Vector.replicate d ⟨0, Vector.replicate w emptyKey, Vector.replicate w 1⟩⟩

theorem fullSketch_counted (w d : Nat) [NeZero w] (hd : d ≠ 0) : 0 < (fullSketch w d).counted.length := by
  have hcell : (⟨emptyKey, 1⟩ : CountmaxEntry) ∈ (fullSketch w d).cells := by
    refine List.mem_flatMap.mpr ⟨⟨0, Vector.replicate w emptyKey, Vector.replicate w 1⟩, ?_, ?_⟩
    · simp only [fullSketch, Vector.toList_replicate]
      exact List.mem_replicate.mpr ⟨hd, rfl⟩
    · refine List.mem_map.mpr ⟨⟨0, NeZero.pos w⟩, List.mem_finRange _, ?_⟩
      exact congrArg₂ CountmaxEntry.mk (Vector.getElem_replicate _) (Vector.getElem_replicate _)
  exact List.length_pos_of_mem (List.mem_filter.mpr ⟨hcell, by simp⟩)

/-- The product of `w` and `d` is 2^32, which comes to zero entries. -/
def largeSketch : CountmaxSketch := fullSketch (2 ^ 16) (2 ^ 16)

/-- The first entry is written past a buffer without entries. -/
theorem getStatAndSendBackMem_large :
    getStatAndSendBackMem mebibyteEnv (sameSketch largeSketch) = .error .outOfBounds ∧
      ¬ ReportSent mebibyteEnv (sameSketch largeSketch) := by
  have hegress : (sameSketch largeSketch).countmax 4 = some largeSketch := by
    have htype : switchType 4 = .egress := by decide
    simp only [sameSketch, if_pos htype]
  have hroom : sendbufRoom mebibyteEnv (sameSketch largeSketch) = 0 := by
    have hproduct : ∀ cells ∈ egressSizes (sameSketch largeSketch) (List.finRange swCount), cells = 2 ^ 32 := by
      intro cells hcells
      obtain ⟨j, -, hj⟩ := List.mem_filterMap.mp hcells
      split_ifs at hj
      obtain ⟨other, hother, rfl⟩ := Option.map_eq_some_iff.mp hj
      rw [sameSketch_countmax hother]
      exact (pow_add 2 16 16).symm
    refine Nat.le_zero.mp (not_lt.mp fun hpos => ?_)
    rcases (fits_iff _ 1).mpr hpos with hzero | ⟨-, most, ⟨before, after, hsplit, -⟩, -, -, hle⟩
    · cases hzero
    · rw [hproduct most (by rw [hsplit]; simp)] at hle
      omega
  have hover := getStatAndSendBackMem_overrun (sameSketch_allocated largeSketch) hegress
    (hroom ▸ fullSketch_counted (2 ^ 16) (2 ^ 16) (NeZero.ne _))
  refine ⟨hover, fun hsent => ?_⟩
  rw [ReportSent, hover] at hsent
  cases hsent

end OvsDatapath.Sketch
