import OvsDatapath.Flow.TableOps
import OvsDatapath.Lib.Runs

/-!
# Runs of a flow table

A table is initialized and then inserted into, removed from and flushed, in any order. Next to the
table, the state of a run keeps the set of the flows inserted and not removed or flushed since, as
the answers of the operations tell its caller; `TableCorrect` says that the table agrees with it.
`tableRun_correct` is the main result: it does so after every operation of every run.
-/

namespace OvsDatapath.Flow

open OvsDatapath.Lib OvsDatapath.Lib.Hlist

/-- An operation on the table, with what is decided outside it: the flow to insert and its mask, and
the outcome of each allocation. -/
inductive TableOp where
  | insert (flow : Nat) (unmasked : SwFlowKey) (id : SwFlowId) (mask : SwFlowMask) (env : InsertEnv)
  | remove (flow : Nat) (array_alloc : Bool)
  | flush (table_alloc ufid_alloc : Option (BitVec 32))

/-- A table and the flows that are in it, as its caller knows them. -/
structure TableState where
  table : FlowTable
  flows : Finset Nat

/-- A flow from `ovs_flow_alloc`, which is zeroed, with its identifier and its key, masked in
full. -/
def newFlow (unmasked : SwFlowKey) (id : SwFlowId) (mask : SwFlowMask) : SwFlow where
  key := ovsFlowMaskKey (fun _ => 0) unmasked true mask
  id := id
  mask := none
  flow_hash := 0
  ufid_hash := 0

/-- One operation; the answer is the error code. -/
def tableStep (hs : Hashes) (s : TableState) : TableOp → Except MemFault (Int × TableState)
  | .insert flow unmasked id mask env => do
      let table := { s.table with
        flows := Function.update s.table.flows flow (newFlow unmasked id mask) }
      let (err, table) ← ovsFlowTblInsert hs table flow mask env
      .ok (err, { table := table, flows := if err = 0 then insert flow s.flows else s.flows })
  | .remove flow array_alloc => do
      let table ← ovsFlowTblRemove s.table flow array_alloc
      .ok (0, { table := table, flows := s.flows.erase flow })
  | .flush table_alloc ufid_alloc => do
      let (err, table) ← ovsFlowTblFlush s.table table_alloc ufid_alloc
      .ok (err, { table := table, flows := if err = 0 then ∅ else s.flows })

/-- What the callers keep to: a flow is inserted when it is not in the table, with a mask that was
built by stores, and removed when it is. -/
def TableOp.Allowed (s : TableState) : TableOp → Prop
  | .insert flow _ _ mask _ => flow ∉ s.flows ∧ BuiltMask mask
  | .remove flow _ => flow ∈ s.flows
  | .flush _ _ => True

/-- The table after `ovs_flow_tbl_init`. -/
def TableState.init (seed ufid_seed : BitVec 32) : TableState := ⟨ovsFlowTblInit seed ufid_seed, ∅⟩

/-- The table agrees with the set of flows: a lookup answers for exactly these, the counters count
them, and each of them is in one chain. -/
structure TableCorrect (hs : Hashes) (s : TableState) : Prop where
  lookup : ∀ stack key, ∃ r, ovsFlowTblLookup hs s.table stack key = .ok r ∧
    (r.isSome ↔ ∃ flow ∈ s.flows, Matches s.table key flow) ∧
    ∀ flow, r = some flow → flow ∈ s.flows ∧ Matches s.table key flow
  count : s.table.count = s.flows.card
  ufid_count : s.table.ufid_count = (s.flows.filter fun flow => s.table.isUfid flow).card
  chained : InstanceLists s.table.links s.table.ti s.flows
  ufid_chained : InstanceLists s.table.ufid_links s.table.ufid_ti
    (s.flows.filter fun flow => s.table.isUfid flow)

variable {hs : Hashes} {s : TableState}

theorem TableInv.correct {leaked : Nat → Nat} (h : TableInv hs s.table s.flows leaked) :
    TableCorrect hs s := by
  refine ⟨fun stack key => ?_, h.count, h.ufid_count, h.keyed.instanceLists,
    h.identified.instanceLists⟩
  obtain ⟨r, hok, hsome, hnone⟩ := flowLookup_spec h stack key 0
  refine ⟨r.1, by rw [ovsFlowTblLookup, hok, ok_bind], ?_, hsome⟩
  cases hr : r.1 with
  | none =>
      constructor
      · exact fun h => nomatch h
      · rintro ⟨flow, hflow, hmatch⟩
        exact absurd hmatch (hnone hr flow hflow)
  | some flow => exact iff_of_true rfl ⟨flow, hsome flow hr⟩

/-- The invariant of a run. -/
def TableState.Inv (hs : Hashes) (s : TableState) : Prop :=
  ∃ leaked, TableInv hs s.table s.flows leaked

theorem TableState.init_inv (hs : Hashes) (seed ufid_seed : BitVec 32) :
    (TableState.init seed ufid_seed).Inv hs :=
  ⟨_, ovsFlowTblInit_inv hs seed ufid_seed⟩

/-- The operation is a flush whose allocations succeed. -/
def TableOp.Empties : TableOp → Prop
  | .flush table_alloc ufid_alloc => table_alloc.isSome ∧ ufid_alloc.isSome
  | _ => False

instance (op : TableOp) : Decidable op.Empties := by
  cases op <;> unfold TableOp.Empties <;> infer_instance

/-- What an operation does to the flows: which are in the table, and that those that were in it are
as they were. A flush leaves the mask array alone, too. -/
def FlowsKept (s s' : TableState) : TableOp → Prop
  | .insert flow .. =>
      (s'.flows = s.flows ∨ s'.flows = insert flow s.flows) ∧
        ∀ f, f ≠ flow → s'.table.flows f = s.table.flows f
  | .remove flow _ => s'.flows = s.flows.erase flow ∧ s'.table.flows = s.table.flows
  | .flush _ _ =>
      (s'.flows = s.flows ∨ s'.flows = ∅) ∧ s'.table.flows = s.table.flows ∧
        s'.table.mask_array = s.table.mask_array

/-- The flow that is to be inserted, filled in. -/
def TableState.filled (s : TableState) (flow : Nat) (unmasked : SwFlowKey) (id : SwFlowId)
    (mask : SwFlowMask) : FlowTable :=
  { s.table with flows := Function.update s.table.flows flow (newFlow unmasked id mask) }

theorem TableState.filled_self (s : TableState) (flow : Nat) (unmasked : SwFlowKey) (id : SwFlowId)
    (mask : SwFlowMask) :
    (s.filled flow unmasked id mask).flows flow = newFlow unmasked id mask :=
  Function.update_self ..

theorem TableState.filled_other (s : TableState) {flow f : Nat} (hne : f ≠ flow) (unmasked : SwFlowKey)
    (id : SwFlowId)
    (mask : SwFlowMask) : (s.filled flow unmasked id mask).flows f = s.table.flows f :=
  Function.update_of_ne hne ..

/-- Filling it in does not touch the table. -/
theorem TableState.filled_inv {leaked : Nat → Nat} {flow : Nat} (h : TableInv hs s.table s.flows leaked)
    (hflow : flow ∉ s.flows) (unmasked : SwFlowKey) (id : SwFlowId) (mask : SwFlowMask) :
    TableInv hs (s.filled flow unmasked id mask) s.flows leaked :=
  h.congr ⟨rfl, rfl, rfl, rfl, rfl, rfl, rfl⟩ h.masksOk rfl
    fun f hf => s.filled_other (fun heq : f = flow => hflow (heq ▸ hf)) unmasked id mask

theorem maskedBy_newFlow (unmasked : SwFlowKey) (id : SwFlowId) (mask : SwFlowMask) :
    MaskedBy (newFlow unmasked id mask).key mask := by
  unfold newFlow
  dsimp only
  rw [ovsFlowMaskKey_full]
  exact maskedBy_masked unmasked mask

/-- An insertion keeps the invariant and the other flows, and the new flow has its key masked in full. -/
theorem tableStep_insert {leaked : Nat → Nat} {flow : Nat} {mask : SwFlowMask}
    (h : TableInv hs s.table s.flows leaked) (hflow : flow ∉ s.flows) (hmask : BuiltMask mask)
    (unmasked : SwFlowKey) (id : SwFlowId) (env : InsertEnv) :
    ∃ err table, tableStep hs s (.insert flow unmasked id mask env) =
        .ok (err, ⟨table, if err = 0 then insert flow s.flows else s.flows⟩) ∧
      TableInv hs table (if err = 0 then insert flow s.flows else s.flows) leaked ∧
      (∀ f, f ≠ flow → table.flows f = s.table.flows f) ∧
      (table.flows flow).key = ovsFlowMaskKey (fun _ => 0) unmasked true mask := by
  have hself := s.filled_self flow unmasked id mask
  have htable := TableState.filled_inv h hflow unmasked id mask
  have hkey : MaskedBy ((s.filled flow unmasked id mask).flows flow).key mask := by
    rw [hself]
    exact maskedBy_newFlow unmasked id mask
  obtain ⟨err, table', hok, hinv, hkept⟩ := ovsFlowTblInsert_spec htable hflow hmask.aligned hkey env
  refine ⟨err, table', bind_eq_ok.mpr ⟨(err, table'), hok, rfl⟩, hinv, ?_, ?_⟩
  · exact fun f hne => (hkept.others f hne).trans (s.filled_other hne unmasked id mask)
  · rw [hkept.key, hself, newFlow]

/-- What an insertion adds to the table: a flow with an identifier and a key, which the unmasked key
matches. -/
structure FlowAdded (s : TableState) (flow : Nat) (unmasked : SwFlowKey) (id : SwFlowId)
    (mask : SwFlowMask) (err : Int) (s' : TableState) : Prop where
  flows : s'.flows = if err = 0 then insert flow s.flows else s.flows
  others : ∀ f, f ≠ flow → s'.table.flows f = s.table.flows f
  contents : SameContents s.table s'.table
  id : (s'.table.flows flow).id = id
  key : (s'.table.flows flow).key = unmasked.masked mask.key
  mask : err = 0 → ∃ p entry, (s'.table.flows flow).mask = some p ∧ s'.table.masks p = some entry ∧
    entry.mask = mask

theorem tableStep_added {leaked : Nat → Nat} {flow : Nat} {mask : SwFlowMask} {unmasked : SwFlowKey}
    {id : SwFlowId} {env : InsertEnv} {err : Int} {s' : TableState}
    (h : TableInv hs s.table s.flows leaked) (hflow : flow ∉ s.flows) (hmask : BuiltMask mask)
    (hins : tableStep hs s (.insert flow unmasked id mask env) = .ok (err, s')) :
    FlowAdded s flow unmasked id mask err s' := by
  obtain ⟨⟨err, table⟩, hok, hins⟩ := bind_eq_ok.mp hins
  obtain ⟨rfl, rfl⟩ := Prod.mk.inj (Except.ok.inj hins)
  have hself := s.filled_self flow unmasked id mask
  have htable := TableState.filled_inv h hflow unmasked id mask
  obtain ⟨hcontents, hnew⟩ := ovsFlowTblInsert_contents
    (t := s.filled flow unmasked id mask) h.masksOk hmask.aligned hok
  have hkey : MaskedBy ((s.filled flow unmasked id mask).flows flow).key mask := by
    rw [hself]
    exact maskedBy_newFlow unmasked id mask
  obtain ⟨err', table', hok', -, hkept⟩ := ovsFlowTblInsert_spec htable hflow hmask.aligned hkey env
  obtain ⟨rfl, rfl⟩ := Prod.mk.inj (Except.ok.inj (hok.symm.trans hok'))
  refine ⟨rfl, fun f hne => (hkept.others f hne).trans (s.filled_other hne unmasked id mask), hcontents, ?_, ?_, hnew⟩
  · rw [hkept.id, hself, newFlow]
  · rw [hkept.key, hself, newFlow, ovsFlowMaskKey_full]

/-- One operation keeps the invariant. A flush leaves all references behind. -/
theorem tableStep_spec {leaked : Nat → Nat} {op : TableOp} (h : TableInv hs s.table s.flows leaked)
    (hop : op.Allowed s) :
    ∃ r s', tableStep hs s op = .ok (r, s') ∧
      TableInv hs s'.table s'.flows (if op.Empties then refs s.table.masks else leaked) ∧
      FlowsKept s s' op := by
  cases op with
  | insert flow unmasked id mask env =>
      obtain ⟨err, table, hok, hinv, hothers, -⟩ := tableStep_insert h hop.1 hop.2 unmasked id env
      refine ⟨err, _, hok, ?_, ?_, hothers⟩
      · rw [if_neg (show ¬ TableOp.Empties (.insert flow unmasked id mask env) from not_false)]
        exact hinv
      · dsimp only
        split_ifs
        · exact .inr rfl
        · exact .inl rfl
  | remove flow array_alloc =>
      obtain ⟨table', hok, hinv, hflows⟩ := ovsFlowTblRemove_spec h hop array_alloc
      refine ⟨0, _, bind_eq_ok.mpr ⟨table', hok, rfl⟩, ?_, rfl, hflows⟩
      rw [if_neg (show ¬ TableOp.Empties (.remove flow array_alloc) from not_false)]
      exact hinv
  | flush table_alloc ufid_alloc =>
      obtain ⟨err, table', hok, herr, hinv, hkept⟩ := ovsFlowTblFlush_spec h table_alloc ufid_alloc
      refine ⟨err, _, bind_eq_ok.mpr ⟨(err, table'), hok, rfl⟩, ?_, ?_, hkept⟩
      · dsimp only [TableOp.Empties]
        rw [← if_congr herr rfl rfl]
        exact hinv
      · dsimp only
        split_ifs
        · exact .inr rfl
        · exact .inl rfl

/-- One operation keeps it. -/
theorem tableStep_inv {op : TableOp} (h : s.Inv hs) (hop : op.Allowed s) :
    ∃ r s', tableStep hs s op = .ok (r, s') ∧ s'.Inv hs := by
  obtain ⟨leaked, h⟩ := h
  obtain ⟨r, s', hok, hinv, -⟩ := tableStep_spec h hop
  exact ⟨r, s', hok, _, hinv⟩

/-- **The table answers for its flows over whole runs**, whatever the hash functions and seeds,
whichever allocations fail, and whenever a rehash falls due. -/
theorem tableRun_correct (hs : Hashes) (seed ufid_seed : BitVec 32) (ops : List TableOp)
    (hops : RunMeets (tableStep hs) (fun s op => op.Allowed s) (TableState.init seed ufid_seed) ops) :
    TableCorrect hs (TableState.init seed ufid_seed) ∧
      RunHolds (tableStep hs) (fun _ _ _ s' => TableCorrect hs s') (TableState.init seed ufid_seed)
        ops := by
  have hinit := TableState.init_inv hs seed ufid_seed
  constructor
  · obtain ⟨_, hinv⟩ := hinit
    exact hinv.correct
  · refine runHolds_of_runMeets (fun s op hinv hop => ?_) hinit hops
    obtain ⟨r, s', hok, leaked, hinv'⟩ := tableStep_inv hinv hop
    exact ⟨r, s', hok, hinv'.correct, leaked, hinv'⟩

/-- Insert a flow that matches everything, then remove it. -/
theorem tableRun_correct_insert_remove :
    TableCorrect ⟨fun _ => 0, fun _ _ => 0, fun _ => 0⟩ (TableState.init 0 0) ∧
      RunHolds (tableStep ⟨fun _ => 0, fun _ _ => 0, fun _ => 0⟩)
        (fun _ _ _ s' => TableCorrect ⟨fun _ => 0, fun _ _ => 0, fun _ => 0⟩ s')
        (TableState.init 0 0)
        [.insert 5 (fun _ => 1) (.ufid [7]) zeroMask ⟨true, true, some 3, none, false⟩,
          .remove 5 true] := by
  refine tableRun_correct _ 0 0 _ ⟨⟨Finset.notMem_empty 5, [], rfl⟩, fun r s' hok => ?_⟩
  obtain rfl := congrArg Prod.snd (Except.ok.inj hok)
  exact ⟨Finset.mem_insert_self 5 ∅, fun _ _ _ => trivial⟩

end OvsDatapath.Flow
