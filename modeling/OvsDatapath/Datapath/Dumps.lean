import OvsDatapath.Lib.Cursor
import OvsDatapath.Flow.TableRuns
import OvsDatapath.Datapath.Vports

/-!
# Dumps

`ovs_flow_cmd_dump`, `ovs_vport_cmd_dump` and `ovs_dp_cmd_dump` list the flows of a table, the vports of
a datapath and the datapaths. A message is sent when it is full, and the next call goes on from where the
last one has left off, which it finds in one or two numbers, `cb->args`.

Whether the record of an object fits into a message is an input of each call. Each of the three dumps lists
every object exactly once.
-/

namespace OvsDatapath.Datapath

open OvsDatapath.Lib OvsDatapath.Lib.Hlist OvsDatapath.Flow

/-! ## Flows -/

/-- The loop of `ovs_flow_tbl_dump_next` over a chain, with the number of flows that have been passed. -/
def dumpChain (links : Links BucketHead FlowNode) (last : Nat) :
    Nat → Nat → Option FlowNode → Except MemFault (Option (Nat × Nat))
  | _, _, none => .ok none
  | 0, _, some _ => .error .endless
  | fuel + 1, i, some n =>
      if i < last then dumpChain links last fuel (i + 1) (links.next n) else .ok (some (n.1, i + 1))

/-- `ovs_flow_tbl_dump_next`: the flow, if there is one left, and the new position. -/
def ovsFlowTblDumpNext (t : FlowTable) (bucket last : Nat) : Except MemFault (Option Nat × Nat × Nat) :=
  if bucket < t.ti.n_buckets then do
    match ← dumpChain t.links last t.count 0 (t.links.first (t.ti.ptr, bucket)) with
    | some (flow, last) => .ok (some flow, bucket, last)
    | none => ovsFlowTblDumpNext t (bucket + 1) 0
  else .ok (none, bucket, last)
termination_by t.ti.n_buckets - bucket

/-- The loop of `ovs_flow_cmd_dump`. Each round but the last adds a flow of the table to the message. -/
def flowDumpLoop (t : FlowTable) (fits : Room Nat) :
    Nat → List Nat → Nat × Nat → Except MemFault (List Nat × Nat × Nat)
  | 0, _, _ => .error .endless
  | fuel + 1, msg, args => do
      match ← ovsFlowTblDumpNext t args.1 args.2 with
      | (none, _) => .ok (msg, args)
      | (some flow, next) =>
          if fits msg flow then flowDumpLoop t fits fuel (msg ++ [flow]) next else .ok (msg, args)

/-- `ovs_flow_cmd_dump`, of a datapath's table: the flows in the message, and `cb->args`. -/
def ovsFlowCmdDump (t : FlowTable) (fits : Room Nat) (args : Nat × Nat) : Except MemFault (List Nat × Nat × Nat) :=
  flowDumpLoop t fits (t.count + 1) [] args

section Flows

variable {t : FlowTable} {chain : Nat → List Nat}

/-- The walk over a chain passes the flows that have been dumped already. -/
theorem dumpChain_of_segment {ti : TableInstance} {links : Links BucketHead FlowNode} {last fuel i : Nat}
    {s : Slot BucketHead FlowNode} {o : Option FlowNode} {l : List Nat}
    (hl : Segment links s o (l.map ti.node)) (hfuel : l.length ≤ fuel) (hi : i ≤ last) :
    dumpChain links last fuel i o = .ok ((l.drop (last - i)).head?.map fun flow => (flow, last + 1)) := by
  induction l generalizing s o fuel i with
  | nil =>
      rw [List.map_nil, segment_nil] at hl
      subst hl
      cases fuel <;> simp [dumpChain]
  | cons flow l ih =>
      rw [List.map_cons, segment_cons] at hl
      obtain ⟨rfl, -, hrest⟩ := hl
      obtain ⟨fuel, rfl⟩ : ∃ k, fuel = k + 1 :=
        ⟨fuel - 1, by rw [List.length_cons] at hfuel; omega⟩
      rw [dumpChain]
      split_ifs with hlt
      · rw [ih hrest (by simpa using hfuel) hlt, show last - i = last - (i + 1) + 1 by omega, List.drop_succ_cons]
      · obtain rfl : i = last := Nat.le_antisymm hi (Nat.not_lt.mp hlt)
        simp [TableInstance.node]

/-- The table's chains, none of them longer than the table says. -/
structure Chained (t : FlowTable) (chain : Nat → List Nat) : Prop where
  walks : ∀ i < t.ti.n_buckets, Chain t.links (t.ti.ptr, i) ((chain i).map t.ti.node)
  length : ((List.range t.ti.n_buckets).flatMap chain).length ≤ t.count

theorem Chained.length_le (h : Chained t chain) {i : Nat} (hi : i < t.ti.n_buckets) : (chain i).length ≤ t.count := by
  refine le_trans ?_ h.length
  rw [List.length_flatMap]
  exact List.le_sum_of_mem (List.mem_map_of_mem (List.mem_range.mpr hi))

/-- **The next flow is the first of what remains.** -/
theorem ovsFlowTblDumpNext_spec (h : Chained t chain) (bucket last : Nat) :
    ∃ r, ovsFlowTblDumpNext t bucket last = .ok r ∧
      match restFrom chain t.ti.n_buckets bucket last with
      | [] => r.1 = none
      | flow :: rest => r.1 = some flow ∧ restFrom chain t.ti.n_buckets r.2.1 r.2.2 = rest := by
  by_cases hlt : bucket < t.ti.n_buckets
  · rw [ovsFlowTblDumpNext, if_pos hlt,
      dumpChain_of_segment (h.walks bucket hlt) (h.length_le hlt) (Nat.zero_le last), restFrom_of_lt chain hlt,
      Nat.sub_zero]
    cases hrest : (chain bucket).drop last with
    | nil =>
        -- the bucket has been dumped in whole
        exact ovsFlowTblDumpNext_spec h (bucket + 1) 0
    | cons flow rest =>
        refine ⟨_, rfl, rfl, ?_⟩
        rw [restFrom_of_lt chain hlt, ← List.drop_drop, hrest]
        rfl
  · rw [ovsFlowTblDumpNext, if_neg hlt, restFrom_of_ge chain (Nat.not_lt.mp hlt)]
    exact ⟨_, rfl, rfl⟩
termination_by t.ti.n_buckets - bucket

/-- The loop fills the message. -/
theorem flowDumpLoop_spec (h : Chained t chain) (fits : Room Nat) {fuel : Nat} (msg : List Nat) (args : Nat × Nat)
    (hfuel : (restFrom chain t.ti.n_buckets args.1 args.2).length < fuel) :
    ∃ args', flowDumpLoop t fits fuel msg args =
        .ok ((fill fits msg (restFrom chain t.ti.n_buckets args.1 args.2)).1, args') ∧
      restFrom chain t.ti.n_buckets args'.1 args'.2 =
        (fill fits msg (restFrom chain t.ti.n_buckets args.1 args.2)).2 := by
  induction fuel generalizing msg args with
  | zero => exact absurd hfuel (Nat.not_lt_zero _)
  | succ fuel ih =>
      obtain ⟨⟨found, next⟩, hnext, hspec⟩ := ovsFlowTblDumpNext_spec h args.1 args.2
      rw [flowDumpLoop, hnext]
      cases hrest : restFrom chain t.ti.n_buckets args.1 args.2 with
      | nil =>
          rw [hrest] at hspec
          obtain rfl : found = none := hspec
          exact ⟨args, rfl, hrest⟩
      | cons flow rest =>
          rw [hrest] at hspec hfuel
          obtain ⟨rfl, hrest'⟩ : found = some flow ∧ restFrom chain t.ti.n_buckets next.1 next.2 = rest := hspec
          rw [ok_bind, fill]
          dsimp only
          split_ifs with hfits
          · rw [← hrest']
            apply ih
            rw [hrest']
            exact Nat.lt_of_succ_lt_succ hfuel
          · exact ⟨args, rfl, hrest⟩

/-- A call fills its message with flows. -/
theorem resumes_ovsFlowCmdDump (h : Chained t chain) :
    Resumes (ovsFlowCmdDump t) fun args => restFrom chain t.ti.n_buckets args.1 args.2 := by
  intro fits args
  apply flowDumpLoop_spec h fits
  have := restFrom_length_le chain t.ti.n_buckets args.1 args.2
  have := h.length
  omega

/-- Every table of flows has its chains. -/
theorem chained_of_inv {hs : Hashes} {flows : Finset Nat} {leaked : Nat → Nat} (h : TableInv hs t flows leaked) :
    ∃ chain, Chained t chain ∧ ((List.range t.ti.n_buckets).flatMap chain).Nodup ∧
      ∀ flow, flow ∈ (List.range t.ti.n_buckets).flatMap chain ↔ flow ∈ flows := by
  obtain ⟨chain, hwalks, hnodup, hmem⟩ := h.keyed.instanceLists
  refine ⟨chain, ⟨hwalks, ?_⟩, hnodup, hmem⟩
  rw [h.count, ← List.toFinset_card_of_nodup hnodup]
  refine Finset.card_le_card fun flow hflow => ?_
  exact (hmem flow).mp (List.mem_toFinset.mp hflow)

end Flows

/-! ## Vports -/

/-- The loop of `ovs_vport_cmd_dump` over a bucket: whether a record did not fit, the position and the
message. -/
def vportDumpBucket (fits : Room Vport) (skip : Nat) : List Vport → Nat → List Vport → Bool × Nat × List Vport
  | [], j, msg => (false, j, msg)
  | vport :: rest, j, msg =>
      if skip ≤ j then
        if fits msg vport then vportDumpBucket fits skip rest (j + 1) (msg ++ [vport]) else (true, j, msg)
      else vportDumpBucket fits skip rest (j + 1) msg

/-- The loop of `ovs_vport_cmd_dump` over the buckets. -/
def vportDumpLoop (dp : DpPorts) (fits : Room Vport) (i skip j : Nat) (msg : List Vport) : List Vport × Nat × Nat :=
  if h : i < dpVportHashBuckets then
    match vportDumpBucket fits skip (dp.ports ⟨i, h⟩) 0 msg with
    | (true, j, msg) => (msg, i, j)
    | (false, j, msg) => vportDumpLoop dp fits (i + 1) 0 j msg
  else (msg, i, j)
termination_by dpVportHashBuckets - i

/-- `ovs_vport_cmd_dump`, of a datapath: the vports in the message, and `cb->args`. -/
def ovsVportCmdDump (dp : DpPorts) (fits : Room Vport) (args : Nat × Nat) :
    Except MemFault (List Vport × Nat × Nat) :=
  .ok (vportDumpLoop dp fits args.1 args.2 0 [])

/-- The buckets by their numbers. -/
def DpPorts.bucket (dp : DpPorts) (i : Nat) : List Vport :=
  if h : i < dpVportHashBuckets then dp.ports ⟨i, h⟩ else []

/-- The loop over a bucket fills the message with what has not been skipped. -/
theorem vportDumpBucket_spec (fits : Room Vport) (skip : Nat) (l : List Vport) (j : Nat) (msg : List Vport) :
    (vportDumpBucket fits skip l j msg).2.2 = (fill fits msg (l.drop (skip - j))).1 ∧
      ((vportDumpBucket fits skip l j msg).1 = false → (fill fits msg (l.drop (skip - j))).2 = []) ∧
      ((vportDumpBucket fits skip l j msg).1 = true → (fill fits msg (l.drop (skip - j))).2 ≠ [] ∧
        j ≤ (vportDumpBucket fits skip l j msg).2.1 ∧
        (fill fits msg (l.drop (skip - j))).2 = l.drop ((vportDumpBucket fits skip l j msg).2.1 - j)) := by
  induction l generalizing j msg with
  | nil => simp [vportDumpBucket, fill]
  | cons vport rest ih =>
      rw [vportDumpBucket]
      split_ifs with hskip hfits
      · have hzero : skip - j = 0 := by omega
        have hzero' : skip - (j + 1) = 0 := by omega
        obtain ⟨hmsg, hdone, hfull⟩ := ih (j + 1) (msg ++ [vport])
        rw [hzero', List.drop_zero] at hmsg hdone hfull
        rw [hzero, List.drop_zero, fill, if_pos hfits]
        refine ⟨hmsg, hdone, fun h => ?_⟩
        obtain ⟨hne, hle, hrest⟩ := hfull h
        exact ⟨hne, by omega, hrest.trans (drop_cons_sub hle).symm⟩
      · have hzero : skip - j = 0 := by omega
        rw [hzero, List.drop_zero, fill, if_neg hfits]
        simp
      · obtain ⟨hmsg, hdone, hfull⟩ := ih (j + 1) msg
        rw [drop_cons_sub (not_le.mp hskip)]
        refine ⟨hmsg, hdone, fun h => ?_⟩
        obtain ⟨hne, hle, hrest⟩ := hfull h
        exact ⟨hne, by omega, hrest.trans (drop_cons_sub hle).symm⟩

theorem vportDumpLoop_spec (dp : DpPorts) (fits : Room Vport) (i skip j : Nat) (msg : List Vport) :
    (vportDumpLoop dp fits i skip j msg).1 = (fill fits msg (restFrom dp.bucket dpVportHashBuckets i skip)).1 ∧
      restFrom dp.bucket dpVportHashBuckets (vportDumpLoop dp fits i skip j msg).2.1
          (vportDumpLoop dp fits i skip j msg).2.2 =
        (fill fits msg (restFrom dp.bucket dpVportHashBuckets i skip)).2 := by
  by_cases hi : i < dpVportHashBuckets
  · have hbucket : dp.bucket i = dp.ports ⟨i, hi⟩ := dif_pos hi
    obtain ⟨hmsg, hdone, hfull⟩ := vportDumpBucket_spec fits skip (dp.ports ⟨i, hi⟩) 0 msg
    rw [vportDumpLoop, dif_pos hi, restFrom_of_lt dp.bucket hi, hbucket, fill_of_append]
    rcases hloop : vportDumpBucket fits skip (dp.ports ⟨i, hi⟩) 0 msg with ⟨full, j', msg'⟩
    rw [hloop, Nat.sub_zero] at hmsg hdone hfull
    obtain rfl : msg' = _ := hmsg
    cases full with
    | true =>
        obtain ⟨hne, -, hrest⟩ := hfull rfl
        rw [if_neg hne]
        refine ⟨rfl, ?_⟩
        show restFrom dp.bucket dpVportHashBuckets i j' = _
        rw [restFrom_of_lt dp.bucket hi, hbucket, hrest]
        rfl
    | false =>
        -- on to the next bucket
        rw [if_pos (hdone rfl)]
        exact vportDumpLoop_spec dp fits (i + 1) 0 j' _
  · rw [vportDumpLoop, dif_neg hi, restFrom_of_ge dp.bucket (Nat.not_lt.mp hi)]
    exact ⟨rfl, restFrom_of_ge dp.bucket (Nat.not_lt.mp hi) j⟩
termination_by dpVportHashBuckets - i

/-- A call fills its message with vports. -/
theorem resumes_ovsVportCmdDump (dp : DpPorts) :
    Resumes (ovsVportCmdDump dp) fun args => restFrom dp.bucket dpVportHashBuckets args.1 args.2 := by
  intro fits args
  obtain ⟨hmsg, hrest⟩ := vportDumpLoop_spec dp fits args.1 args.2 0 []
  exact ⟨_, congrArg Except.ok (Prod.ext hmsg rfl), hrest⟩

theorem flatMap_bucket (dp : DpPorts) : (List.range dpVportHashBuckets).flatMap dp.bucket = dp.vports := by
  rw [DpPorts.vports, ← List.map_coe_finRange_eq_range, List.flatMap_map]
  exact List.flatMap_congr fun b _ => dif_pos b.isLt

/-! ## Datapaths -/

/-- The loop of `ovs_dp_cmd_dump`. -/
def dpDumpLoop (fits : Room Nat) (skip : Nat) : List Nat → Nat → List Nat → List Nat × Nat
  | [], i, msg => (msg, i)
  | dp :: rest, i, msg =>
      if skip ≤ i then
        if fits msg dp then dpDumpLoop fits skip rest (i + 1) (msg ++ [dp]) else (msg, i)
      else dpDumpLoop fits skip rest (i + 1) msg

/-- `ovs_dp_cmd_dump`: the datapaths in the message, and `cb->args[0]`. -/
def ovsDpCmdDump (dps : List Nat) (fits : Room Nat) (skip : Nat) : Except MemFault (List Nat × Nat) :=
  .ok (dpDumpLoop fits skip dps 0 [])

theorem dpDumpLoop_spec (fits : Room Nat) (skip : Nat) (l : List Nat) (i : Nat) (msg : List Nat) :
    (dpDumpLoop fits skip l i msg).1 = (fill fits msg (l.drop (skip - i))).1 ∧
      i ≤ (dpDumpLoop fits skip l i msg).2 ∧
      l.drop ((dpDumpLoop fits skip l i msg).2 - i) = (fill fits msg (l.drop (skip - i))).2 := by
  induction l generalizing i msg with
  | nil => simp [dpDumpLoop, fill]
  | cons dp rest ih =>
      rw [dpDumpLoop]
      split_ifs with hskip hfits
      · have hzero : skip - i = 0 := by omega
        have hzero' : skip - (i + 1) = 0 := by omega
        obtain ⟨hmsg, hle, hrest⟩ := ih (i + 1) (msg ++ [dp])
        rw [hzero', List.drop_zero] at hmsg hrest
        rw [hzero, List.drop_zero, fill, if_pos hfits]
        exact ⟨hmsg, by omega, (drop_cons_sub hle).trans hrest⟩
      · have hzero : skip - i = 0 := by omega
        rw [hzero, List.drop_zero, fill, if_neg hfits]
        simp
      · obtain ⟨hmsg, hle, hrest⟩ := ih (i + 1) msg
        rw [drop_cons_sub (not_le.mp hskip)]
        exact ⟨hmsg, by omega, (drop_cons_sub hle).trans hrest⟩

/-- A call fills its message with datapaths. -/
theorem resumes_ovsDpCmdDump (dps : List Nat) : Resumes (ovsDpCmdDump dps) fun skip => dps.drop skip := by
  intro fits skip
  obtain ⟨hmsg, -, hrest⟩ := dpDumpLoop_spec fits skip dps 0 []
  exact ⟨_, congrArg Except.ok (Prod.ext hmsg rfl), hrest⟩

/-! ## All of them -/

/-- **Dumps list everything exactly once**, however they are cut into messages. -/
theorem dumps_list :
    (∀ hs t flows leaked, TableInv hs t flows leaked →
      ∃ l, l.Nodup ∧ (∀ flow, flow ∈ l ↔ flow ∈ flows) ∧ Lists (ovsFlowCmdDump t) (0, 0) l) ∧
    (∀ dp : DpPorts, Lists (ovsVportCmdDump dp) (0, 0) dp.vports) ∧
    ∀ dps : List Nat, Lists (ovsDpCmdDump dps) 0 dps := by
  refine ⟨fun hs t flows leaked h => ?_, fun dp => ?_, fun dps => ?_⟩
  · obtain ⟨chain, hchained, hnodup, hmem⟩ := chained_of_inv h
    refine ⟨_, hnodup, hmem, ?_⟩
    rw [← restFrom_zero]
    exact (resumes_ovsFlowCmdDump hchained).lists (0, 0)
  · rw [← flatMap_bucket, ← restFrom_zero]
    exact (resumes_ovsVportCmdDump dp).lists (0, 0)
  · exact (resumes_ovsDpCmdDump dps).lists 0

/-- A table with one flow. -/
theorem dumps_list_insert :
    ∃ r s', tableStep ⟨fun _ => 0, fun _ _ => 0, fun _ => 0⟩ (TableState.init 0 0)
        (.insert 5 (fun _ => 1) (.ufid [7]) zeroMask ⟨true, true, some 3, none, false⟩) = .ok (r, s') ∧
      Lists (ovsFlowCmdDump s'.table) (0, 0) [5] := by
  have hallowed : TableOp.Allowed (TableState.init 0 0)
      (.insert 5 (fun _ => 1) (.ufid [7]) zeroMask ⟨true, true, some 3, none, false⟩) :=
    ⟨Finset.notMem_empty 5, [], rfl⟩
  obtain ⟨r, s', hok, leaked, hinv⟩ :=
    tableStep_inv (TableState.init_inv ⟨fun _ => 0, fun _ _ => 0, fun _ => 0⟩ 0 0) hallowed
  obtain ⟨l, hnodup, hmem, hlists⟩ := dumps_list.1 _ _ _ _ hinv
  have hflows : s'.flows = insert 5 ∅ := by
    obtain rfl := congrArg Prod.snd (Except.ok.inj hok)
    rfl
  have hsame : l.Perm [5] := by
    rw [List.perm_ext_iff_of_nodup hnodup (List.nodup_singleton 5)]
    intro flow
    rw [hmem, hflows, Finset.mem_insert, List.mem_singleton]
    simp
  rw [List.perm_singleton.mp hsame] at hlists
  exact ⟨r, s', hok, hlists⟩

end OvsDatapath.Datapath
