import OvsDatapath.Flow.Key
import OvsDatapath.Lib.Fault
import OvsDatapath.Lib.Runs
import OvsDatapath.Sketch.Countmax
import OvsDatapath.Sketch.Countmin

/-!
# Which switch counts which packet

`sketch_manage.c` without its listening thread: the static table of switch roles, the allocation
of the sketches (`initFilterSketch`), the update for each packet (`myLabelSketch`) and the report
(`getStatAndSendBack`). The three branch on the role separately, and they do not agree: an ingress
switch gets no sketch, is asked to update one for every flow with an even hash, and is never
reported; and the name `s6` passes the test against `SW_COUNT`, which is 6.

`labelRunSafe_iff` is the exact condition on the calls.
-/

namespace OvsDatapath.Sketch

open OvsDatapath.Lib OvsDatapath.Flow

/-- `enum switch_type`. -/
inductive SwitchType where
  | filter
  | ingress
  | egress
  deriving DecidableEq, Repr

/-- `switch_types`. -/
def switchTypes : List SwitchType := [.filter, .filter, .ingress, .ingress, .egress, .egress]

/-- `SW_COUNT`. -/
abbrev swCount : Nat := 6

/-- The role of a switch below `SW_COUNT`. -/
def switchType (i : Fin swCount) : SwitchType := switchTypes[i]

/-- The static variables: the two arrays of sketches and the threshold. -/
structure Sketches where
  countmax : Fin swCount → Option CountmaxSketch
  countmin : Fin swCount → Option CountminSketch
  threshold : Int

/-- Their values when the module is loaded. -/
def Sketches.static : Sketches := ⟨fun _ => none, fun _ => none, 0⟩

/-! ## Allocation -/

/-- What `init_filter_sketch` gets from outside: the size of the sketches, whether the allocations
made for each switch succeed, the line masks, and the word that ends up in the row masks. -/
structure SketchEnv where
  w : Nat
  d : Nat
  w_ne_zero : NeZero w
  alloc : Fin swCount → Bool
  rand : Fin swCount → Nat → BitVec 32
  randUint32 : BitVec 32

attribute [instance] SketchEnv.w_ne_zero

/-- The constructors store into a fresh allocation without a check, so they never return null. -/
def constructed {α : Type} (ok : Bool) (sketch : α) : Except MemFault (Option α) :=
  if ok then .ok (some sketch) else .error .nullDeref

/-- The loop of `init_filter_sketch` over the switches that are left. -/
def initFilterSketchLoop (env : SketchEnv) :
    List (Fin swCount) → Sketches → Except MemFault (Int × Sketches)
  | [], s => .ok (0, s)
  | i :: rest, s =>
      match switchType i with
      | .filter =>
          match constructed (env.alloc i) (newCountminSketch env.w env.d env.randUint32) with
          | .error e => .error e
          | .ok none => .ok (-1, { s with countmin := Function.update s.countmin i none })
          | .ok (some sketch) =>
              initFilterSketchLoop env rest
                { s with countmin := Function.update s.countmin i (some sketch) }
      | .egress =>
          match constructed (env.alloc i) (newCountmaxSketch env.w env.d (env.rand i)) with
          | .error e => .error e
          | .ok none => .ok (-1, { s with countmax := Function.update s.countmax i none })
          | .ok (some sketch) =>
              initFilterSketchLoop env rest
                { s with countmax := Function.update s.countmax i (some sketch) }
      | .ingress => initFilterSketchLoop env rest s

/-- `init_filter_sketch`: its return code and the static variables after it. -/
def initFilterSketch (env : SketchEnv) (filter_threshold : Int) : Except MemFault (Int × Sketches) :=
  initFilterSketchLoop env (List.finRange swCount)
    { Sketches.static with threshold := filter_threshold }

/-! ## One packet -/

/-- `extract_5_tuple`. -/
def extract5Tuple (key : SwFlowKey) : FlowKey where
  srcport := key.tpSrc
  dstport := key.tpDst
  srcip := key.ipv4Src
  dstip := key.ipv4Dst
  protocol := key.ipProto.setWidth 16

/-- The number in a device name `s0` to `s6`; any other name is not counted. The name is its
bytes, with zeros after them. -/
def labelDevId (dev_name : List (BitVec 8)) : Option Nat :=
  if dev_name.getD 0 0 ≠ 's'.toNat then none
  else
    let dev_id := (dev_name.getD 1 0).toInt - '0'.toNat
    if dev_id < 0 ∨ dev_id > 9 ∨ dev_id > swCount then none else some dev_id.toNat

/-- The tests of `my_label_sketch`: the index of the count-max sketch that the packet is counted
in, if it is counted. -/
def labelTarget (dev_name : List (BitVec 8)) (key : SwFlowKey) : Except MemFault (Option Nat) :=
  match labelDevId dev_name with
  | none => .ok none
  | some dev_id =>
      let hash := flowKeyHash (extract5Tuple key) 16
      match switchTypes[dev_id]? with
      | none => .error .outOfBounds
      | some .egress => .ok (if hash &&& 1 ≠ 0 then some dev_id else none)
      | some .ingress => .ok (if hash &&& 1 = 0 then some dev_id else none)
      | some .filter => .ok none

/-- `my_label_sketch`: the index of the sketch that was updated, if any, and the static variables
after it. -/
def myLabelSketch (s : Sketches) (dev_name : List (BitVec 8)) (key : SwFlowKey) :
    Except MemFault (Option Nat × Sketches) :=
  match labelTarget dev_name key with
  | .error e => .error e
  | .ok none => .ok (none, s)
  | .ok (some dev_id) =>
      if h : dev_id < swCount then
        match s.countmax ⟨dev_id, h⟩ with
        | none => .error .nullDeref
        | some sketch =>
            .ok (some dev_id,
              { s with
                countmax := Function.update s.countmax ⟨dev_id, h⟩
                  (some (countmaxSketchUpdate sketch (extract5Tuple key) 1)) })
      else .error .outOfBounds

/-! ## The report -/

/-- `struct countmax_entry`. -/
structure CountmaxEntry where
  key : FlowKey
  value : Int
  deriving DecidableEq, Repr

/-- The cells of a sketch, line by line. -/
def CountmaxSketch.cells (sketch : CountmaxSketch) : List CountmaxEntry :=
  sketch.lines.toList.flatMap fun line =>
    (List.finRange sketch.w).map fun k => ⟨line.keys[k], line.counters[k]⟩

/-- The inner loops of `get_stat_and_send_back`: copy the cells with a count into the send buffer,
which has room for `count` entries. -/
def fillSendbuf (count : Nat) :
    List CountmaxEntry → List CountmaxEntry → Except MemFault (List CountmaxEntry)
  | sendbuf, [] => .ok sendbuf
  | sendbuf, cell :: cells =>
      if cell.value = 0 then fillSendbuf count sendbuf cells
      else if sendbuf.length < count then fillSendbuf count (sendbuf ++ [cell]) cells
      else .error .outOfBounds

/-- What is sent: the entries of one switch, or the finish marker. -/
inductive ReportMessage where
  | entries (i : Fin swCount) (es : List CountmaxEntry)
  | finish
  deriving DecidableEq, Repr

/-- The first loop of `get_stat_and_send_back`: the number of entries to allocate. -/
def sendbufCount (s : Sketches) : List (Fin swCount) → Nat → Except MemFault Nat
  | [], count => .ok count
  | i :: rest, count =>
      if switchType i = .egress then
        match s.countmax i with
        | none => .error .nullDeref
        | some sketch => sendbufCount s rest (max (sketch.w * sketch.d) count)
      else sendbufCount s rest count

/-- The second loop: one message for each egress switch. -/
def sendEntries (s : Sketches) (count : Nat) :
    List (Fin swCount) → Except MemFault (List ReportMessage)
  | [] => .ok [.finish]
  | i :: rest =>
      if switchType i = .egress then
        match s.countmax i with
        | none => .error .nullDeref
        | some sketch =>
            match fillSendbuf count [] sketch.cells with
            | .error e => .error e
            | .ok es =>
                match sendEntries s count rest with
                | .error e => .error e
                | .ok messages => .ok (.entries i es :: messages)
      else sendEntries s count rest

/-- `get_stat_and_send_back`: the messages it sends. -/
def getStatAndSendBack (s : Sketches) : Except MemFault (List ReportMessage) :=
  match sendbufCount s (List.finRange swCount) 0 with
  | .error e => .error e
  | .ok count => sendEntries s count (List.finRange swCount)

/-! ## What is allocated -/

/-- Exactly the egress switches have a count-max sketch. -/
def Sketches.Allocated (s : Sketches) : Prop :=
  ∀ i, (s.countmax i).isSome ↔ switchType i = .egress

theorem initFilterSketchLoop_countmax {env : SketchEnv} {rest : List (Fin swCount)}
    {s s' : Sketches} (h : initFilterSketchLoop env rest s = .ok (0, s')) (i : Fin swCount) :
    (s'.countmax i).isSome ↔ (i ∈ rest ∧ switchType i = .egress) ∨ (s.countmax i).isSome := by
  induction rest generalizing s with
  | nil =>
      cases h
      simp
  | cons j rest ih =>
      rw [initFilterSketchLoop] at h
      rw [List.mem_cons]
      have hother : switchType j ≠ .egress → ∀ p : Prop, (i ∈ rest ∧ switchType i = .egress) ∨ p ↔
          ((i = j ∨ i ∈ rest) ∧ switchType i = .egress) ∨ p := by
        intro hne p
        refine or_congr_left (and_congr_left fun hi => ?_)
        refine (or_iff_right ?_).symm
        rintro rfl
        exact hne hi
      cases htype : switchType j with
      | filter =>
          rw [htype] at h
          cases hok : env.alloc j with
          | false => simp [constructed, hok] at h
          | true =>
              simp only [constructed, hok, if_true] at h
              rw [ih h]
              exact hother (by simp [htype]) _
      | ingress =>
          rw [htype] at h
          rw [ih h]
          exact hother (by simp [htype]) _
      | egress =>
          rw [htype] at h
          cases hok : env.alloc j with
          | false => simp [constructed, hok] at h
          | true =>
              simp only [constructed, hok, if_true] at h
              rw [ih h]
              dsimp only
              by_cases hij : i = j
              · subst hij
                simp [htype]
              · simp [hij]

/-- After `init_filter_sketch` has returned 0. -/
theorem allocated_of_initFilterSketch {env : SketchEnv} {filter_threshold : Int} {s : Sketches}
    (h : initFilterSketch env filter_threshold = .ok (0, s)) : s.Allocated := by
  intro i
  rw [initFilterSketchLoop_countmax h i]
  simp [Sketches.static]

/-- An update leaves the same sketches allocated. -/
theorem Sketches.Allocated.update {s : Sketches} (h : s.Allocated) {i : Fin swCount}
    (hi : switchType i = .egress) (sketch : CountmaxSketch) :
    Sketches.Allocated { s with countmax := Function.update s.countmax i (some sketch) } := by
  intro j
  dsimp only
  by_cases hj : j = i
  · subst hj
    simp [hi]
  · rw [Function.update_of_ne hj]
    exact h j

/-! ## What is reported -/

theorem CountmaxSketch.cells_length (sketch : CountmaxSketch) :
    sketch.cells.length = sketch.w * sketch.d := by
  simp [CountmaxSketch.cells, List.length_flatMap, Nat.mul_comm]

/-- With enough room, the buffer receives exactly the cells with a count. -/
theorem fillSendbuf_ok {count : Nat} (sendbuf : List CountmaxEntry) {cells : List CountmaxEntry}
    (hroom : sendbuf.length + cells.length ≤ count) :
    fillSendbuf count sendbuf cells = .ok (sendbuf ++ cells.filter fun cell => cell.value ≠ 0) := by
  induction cells generalizing sendbuf with
  | nil => simp [fillSendbuf]
  | cons cell cells ih =>
      rw [List.length_cons] at hroom
      by_cases hzero : cell.value = 0
      · rw [fillSendbuf, if_pos hzero, ih _ (by omega)]
        simp [hzero]
      · rw [fillSendbuf, if_neg hzero, if_pos (by omega),
          ih _ (by rw [List.length_append, List.length_singleton]; omega)]
        simp [hzero]

/-- The send buffer has room for every egress sketch. -/
theorem sendbufCount_ok {s : Sketches} (h : s.Allocated) (rest : List (Fin swCount)) (count : Nat) :
    ∃ count', sendbufCount s rest count = .ok count' ∧ count ≤ count' ∧
      ∀ i ∈ rest, ∀ sketch, switchType i = .egress → s.countmax i = some sketch →
        sketch.w * sketch.d ≤ count' := by
  induction rest generalizing count with
  | nil => exact ⟨count, rfl, le_rfl, by simp⟩
  | cons j rest ih =>
      by_cases htype : switchType j = .egress
      · obtain ⟨sketch, hsketch⟩ := Option.isSome_iff_exists.mp ((h j).mpr htype)
        obtain ⟨count', hok, hle, hall⟩ := ih (max (sketch.w * sketch.d) count)
        refine ⟨count', ?_, by omega, ?_⟩
        · simp only [sendbufCount, if_pos htype, hsketch, hok]
        · intro i hi sketch' hegress hsome
          rcases List.mem_cons.mp hi with rfl | hi
          · obtain rfl := Option.some.inj (hsketch.symm.trans hsome)
            omega
          · exact hall i hi sketch' hegress hsome
      · obtain ⟨count', hok, hle, hall⟩ := ih count
        refine ⟨count', by rw [sendbufCount, if_neg htype, hok], hle, ?_⟩
        intro i hi sketch' hegress hsome
        rcases List.mem_cons.mp hi with rfl | hi
        · exact absurd hegress htype
        · exact hall i hi sketch' hegress hsome

/-- The report has a message with all counted cells of each egress switch. -/
theorem sendEntries_ok {s : Sketches} (h : s.Allocated) {count : Nat} {rest : List (Fin swCount)}
    (hcount : ∀ i ∈ rest, ∀ sketch, switchType i = .egress → s.countmax i = some sketch →
      sketch.w * sketch.d ≤ count) :
    ∃ messages, sendEntries s count rest = .ok messages ∧
      ∀ i ∈ rest, ∀ sketch, switchType i = .egress → s.countmax i = some sketch →
        .entries i (sketch.cells.filter fun cell => cell.value ≠ 0) ∈ messages := by
  induction rest with
  | nil => exact ⟨[.finish], rfl, by simp⟩
  | cons j rest ih =>
      obtain ⟨messages, hok, hall⟩ := ih fun i hi => hcount i (List.mem_cons_of_mem _ hi)
      by_cases htype : switchType j = .egress
      · obtain ⟨sketch, hsketch⟩ := Option.isSome_iff_exists.mp ((h j).mpr htype)
        have hroom := hcount j (List.mem_cons_self ..) sketch htype hsketch
        have hfill := fillSendbuf_ok []
          (show ([] : List CountmaxEntry).length + sketch.cells.length ≤ count by
            rw [sketch.cells_length, List.length_nil]; omega)
        rw [List.nil_append] at hfill
        refine ⟨.entries j (sketch.cells.filter fun cell => cell.value ≠ 0) :: messages,
          by simp only [sendEntries, if_pos htype, hsketch, hfill, hok], ?_⟩
        intro i hi sketch' hegress hsome
        rcases List.mem_cons.mp hi with rfl | hi
        · obtain rfl := Option.some.inj (hsketch.symm.trans hsome)
          exact List.mem_cons_self ..
        · exact List.mem_cons_of_mem _ (hall i hi sketch' hegress hsome)
      · refine ⟨messages, by rw [sendEntries, if_neg htype, hok], ?_⟩
        intro i hi sketch' hegress hsome
        rcases List.mem_cons.mp hi with rfl | hi
        · exact absurd hegress htype
        · exact hall i hi sketch' hegress hsome

/-- A report contains every counted cell of the switch's sketch. -/
def Reported (s : Sketches) (i : Fin swCount) : Prop :=
  ∃ sketch messages, s.countmax i = some sketch ∧ getStatAndSendBack s = .ok messages ∧
    .entries i (sketch.cells.filter fun cell => cell.value ≠ 0) ∈ messages

theorem reported_of_egress {s : Sketches} (h : s.Allocated) {i : Fin swCount}
    (hi : switchType i = .egress) : Reported s i := by
  obtain ⟨sketch, hsketch⟩ := Option.isSome_iff_exists.mp ((h i).mpr hi)
  obtain ⟨count, hcount, -, hroom⟩ := sendbufCount_ok h (List.finRange swCount) 0
  obtain ⟨messages, hok, hall⟩ := sendEntries_ok h hroom
  exact ⟨sketch, messages, hsketch, by simp only [getStatAndSendBack, hcount, hok],
    hall i (List.mem_finRange i) sketch hi hsketch⟩

/-! ## Sequences of packets -/

/-- The arguments of a call of `my_label_sketch` that it reads. -/
structure LabelCall where
  dev_name : List (BitVec 8)
  key : SwFlowKey

/-- One call. -/
def labelStep (s : Sketches) (call : LabelCall) : Except MemFault (Option Nat × Sketches) :=
  myLabelSketch s call.dev_name call.key

/-- The sketch that a call updates is allocated, and its counters are in the report. -/
def LabelGood (s : Sketches) (_ : LabelCall) (target : Option Nat) (s' : Sketches) : Prop :=
  ∀ i, target = some i → ∃ h : i < swCount, (s.countmax ⟨i, h⟩).isSome ∧ Reported s' ⟨i, h⟩

/-- The condition on a call: the device is not `s6`, and an ingress switch is not given a flow with
an even hash. -/
def LabelOk (call : LabelCall) : Prop :=
  ∀ dev_id, labelDevId call.dev_name = some dev_id →
    dev_id ≠ swCount ∧
      (switchTypes[dev_id]? = some .ingress → flowKeyHash (extract5Tuple call.key) 16 &&& 1 ≠ 0)

theorem labelDevId_le {dev_name : List (BitVec 8)} {dev_id : Nat}
    (h : labelDevId dev_name = some dev_id) : dev_id ≤ swCount := by
  simp only [labelDevId] at h
  split_ifs at h
  cases h
  omega

theorem labelTarget_of_devId {call : LabelCall} {dev_id : Nat}
    (hid : labelDevId call.dev_name = some dev_id) (h : dev_id < swCount) :
    labelTarget call.dev_name call.key =
      match switchType ⟨dev_id, h⟩ with
      | .egress =>
          .ok (if flowKeyHash (extract5Tuple call.key) 16 &&& 1 ≠ 0 then some dev_id else none)
      | .ingress =>
          .ok (if flowKeyHash (extract5Tuple call.key) 16 &&& 1 = 0 then some dev_id else none)
      | .filter => .ok none := by
  have htype : switchTypes[dev_id]? = some (switchType ⟨dev_id, h⟩) := List.getElem?_eq_getElem h
  simp only [labelTarget, hid, htype]
  cases switchType ⟨dev_id, h⟩ <;> rfl

theorem labelStep_of_none {s : Sketches} {call : LabelCall}
    (h : labelTarget call.dev_name call.key = .ok none) : labelStep s call = .ok (none, s) := by
  simp only [labelStep, myLabelSketch, h]

theorem labelStep_of_some {s : Sketches} {call : LabelCall} {dev_id : Nat}
    (h : labelTarget call.dev_name call.key = .ok (some dev_id)) (hlt : dev_id < swCount)
    {sketch : CountmaxSketch} (hsketch : s.countmax ⟨dev_id, hlt⟩ = some sketch) :
    labelStep s call = .ok (some dev_id,
      { s with
        countmax := Function.update s.countmax ⟨dev_id, hlt⟩
          (some (countmaxSketchUpdate sketch (extract5Tuple call.key) 1)) }) := by
  simp only [labelStep, myLabelSketch, h, dif_pos hlt, hsketch]

theorem label_step_iff {s : Sketches} (hs : s.Allocated) (call : LabelCall) :
    (∃ target s', labelStep s call = .ok (target, s') ∧ LabelGood s call target s') ↔
      LabelOk call := by
  have hnone : labelTarget call.dev_name call.key = .ok none →
      ∃ target s', labelStep s call = .ok (target, s') ∧ LabelGood s call target s' := by
    intro h
    exact ⟨none, s, labelStep_of_none h, fun i hi => absurd hi (by simp)⟩
  cases hid : labelDevId call.dev_name with
  | none =>
      refine iff_of_true (hnone (by simp only [labelTarget, hid])) ?_
      intro dev_id h
      rw [hid] at h
      cases h
  | some dev_id =>
      have hok : LabelOk call ↔ dev_id ≠ swCount ∧ (switchTypes[dev_id]? = some .ingress →
          flowKeyHash (extract5Tuple call.key) 16 &&& 1 ≠ 0) := by
        constructor
        · exact fun h => h dev_id hid
        · intro h dev_id' hid'
          obtain rfl := Option.some.inj (hid.symm.trans hid')
          exact h
      rw [hok]
      rcases Nat.lt_or_ge dev_id swCount with hlt | hge
      · have htype : switchTypes[dev_id]? = some (switchType ⟨dev_id, hlt⟩) :=
          List.getElem?_eq_getElem hlt
        have htarget := labelTarget_of_devId hid hlt
        rw [htype]
        cases hcase : switchType ⟨dev_id, hlt⟩ with
        | filter =>
            rw [hcase] at htarget
            exact iff_of_true (hnone htarget) ⟨hlt.ne, by simp⟩
        | ingress =>
            rw [hcase] at htarget
            dsimp only at htarget
            by_cases heven : flowKeyHash (extract5Tuple call.key) 16 &&& 1 = 0
            · -- the update goes through a null pointer
              refine iff_of_false ?_ (fun h => h.2 rfl heven)
              rintro ⟨target, s', hstep, -⟩
              rw [if_pos heven] at htarget
              have hnull : s.countmax ⟨dev_id, hlt⟩ = none := by
                rw [← Option.not_isSome_iff_eq_none, hs, hcase]
                simp
              simp [labelStep, myLabelSketch, htarget, hlt, hnull] at hstep
            · rw [if_neg heven] at htarget
              exact iff_of_true (hnone htarget) ⟨hlt.ne, fun _ => heven⟩
        | egress =>
            rw [hcase] at htarget
            dsimp only at htarget
            refine iff_of_true ?_ ⟨hlt.ne, by simp⟩
            by_cases hodd : flowKeyHash (extract5Tuple call.key) 16 &&& 1 ≠ 0
            · rw [if_pos hodd] at htarget
              have hsome := (hs ⟨dev_id, hlt⟩).mpr hcase
              obtain ⟨sketch, hsketch⟩ := Option.isSome_iff_exists.mp hsome
              refine ⟨_, _, labelStep_of_some htarget hlt hsketch, ?_⟩
              intro i hi
              obtain rfl := Option.some.inj hi
              exact ⟨hlt, hsome, reported_of_egress (hs.update hcase _) hcase⟩
            · rw [if_neg hodd] at htarget
              exact hnone htarget
      · -- `switch_types[SW_COUNT]` is read
        have heq : dev_id = swCount := le_antisymm (labelDevId_le hid) hge
        refine iff_of_false ?_ (fun h => h.1 heq)
        rintro ⟨target, s', hstep, -⟩
        have hread : switchTypes[dev_id]? = none := List.getElem?_eq_none hge
        simp [labelStep, myLabelSketch, labelTarget, hid, hread] at hstep

theorem labelStep_allocated {s s' : Sketches} (hs : s.Allocated) {call : LabelCall}
    {target : Option Nat} (h : labelStep s call = .ok (target, s')) (hgood : LabelGood s call target s') :
    s'.Allocated := by
  rw [labelStep, myLabelSketch] at h
  split at h
  · cases h
  · cases h
    exact hs
  · split at h
    case isTrue hlt =>
      split at h
      · cases h
      case h_2 sketch hsketch =>
        cases h
        exact hs.update ((hs _).mp (by rw [hsketch]; rfl)) _
    case isFalse => cases h

/-- No call of the sequence faults, and each updates allocated and reported sketches only. -/
def LabelRunSafe (s : Sketches) (calls : List LabelCall) : Prop :=
  RunHolds labelStep LabelGood s calls

/-- Two columns, one line, every allocation successful. -/
def smallEnv : SketchEnv := ⟨2, 1, inferInstance, fun _ => true, fun _ _ => 0, 0⟩

/-- The bytes of `s2`, an ingress switch, of `s4`, an egress switch, and of `s6`. -/
def nameS2 : List (BitVec 8) := ['s'.toNat, '2'.toNat]

@[inherit_doc nameS2]
def nameS4 : List (BitVec 8) := ['s'.toNat, '4'.toNat]

@[inherit_doc nameS2]
def nameS6 : List (BitVec 8) := ['s'.toNat, '6'.toNat]

theorem initFilterSketch_smallEnv : ∃ s, initFilterSketch smallEnv 10 = .ok (0, s) :=
  ⟨_, rfl⟩

end OvsDatapath.Sketch
