import OvsDatapath.Datapath.FlowIds
import OvsDatapath.Flow.Stats
import OvsDatapath.Lib.Hoare
import OvsDatapath.Lib.Settle

/-!
# Flow commands that fail

A flow command allocates a flow, a list of actions and a reply before it knows whether the request can
be carried out, and gives them back through a ladder of labels, where the failures before, under and
after the lock come in at different heights. Here the commands are written once more with these
buffers: the variables that point to them, which are null, a buffer or an encoded error, and the
statistics of the flows. `flowCmdMem_ends` says that they return and store what `flowCmdStep` says.

A command that fails leaves the datapath as it was, and has released what it has allocated, once, with
one exception (`flowCmd_atomic_iff`): `ovs_flow_cmd_set` without actions allocates its reply under the
lock, and when that fails it passes the error to `kfree_skb`.
-/

namespace OvsDatapath.Datapath

open OvsDatapath.Lib OvsDatapath.Flow OvsDatapath.Actions

/-! ## Buffers and pointers -/

/-- What a command allocates. A flow comes with its statistics; the unmasked key belongs to its
identifier. -/
inductive CmdBuffer where
  | flow
  | unmaskedKey
  | acts
  | reply
  deriving DecidableEq, Repr

/-- A pointer variable of a command: null, the buffer that it is for, or an error (`ERR_PTR`). -/
inductive Ptr where
  | null
  | valid
  | error (err : Int)

/-- What getting a pointer adds to the log. -/
def Ptr.got (p : Ptr) (b : CmdBuffer) : List (Use CmdBuffer) :=
  match p with
  | .valid => [.acquire b]
  | _ => []

/-- What passing a pointer to the function that frees its buffers adds to the log. All these functions
look for null first, and for nothing else. -/
def Ptr.freed (p : Ptr) (b : CmdBuffer) : List (Use CmdBuffer) :=
  match p with
  | .null => []
  | .valid => [.release b]
  | .error _ => [.stray]

/-- A datapath with the statistics of its flows, and what the command has allocated and freed. -/
structure CmdState where
  dp : DpState
  stats : Nat → StatsState
  log : List (Use CmdBuffer)

/-- Add to the log. -/
def CmdState.logged (c : CmdState) (log : List (Use CmdBuffer)) : CmdState := { c with log := c.log ++ log }

/-- What a command gets besides its environment: whether somebody is notified of flows
(`ovs_must_notify`), whether the request has `OVS_FLOW_ATTR_CLEAR`, and the cpus. -/
structure CmdOptions where
  notify : Bool
  clear : Bool
  cpus : Cpus

/-- The computations of a command. -/
abbrev Cmd (α : Type) := Effect CmdState MemFault α

/-- A pointer to a buffer that has been allocated, or else an error or null. -/
def take (p : Ptr) (b : CmdBuffer) : Cmd Ptr := do
  modify fun c => c.logged (p.got b)
  pure p

/-- Pass a pointer to a function that frees. -/
def free (p : Ptr) (b : CmdBuffer) : Cmd Unit := modify fun c => c.logged (p.freed b)

/-- `kfree_skb`, of the reply. -/
def kfreeSkb (reply : Ptr) : Cmd Unit := free reply .reply

/-- `ovs_nla_free_flow_actions`. -/
def ovsNlaFreeFlowActions (acts : Ptr) : Cmd Unit := free acts .acts

/-- `ovs_flow_free`, of the new flow, by the pointers that it holds. -/
def ovsFlowFree (unmasked_key sf_acts : Ptr) : Cmd Unit := do
  free unmasked_key .unmaskedKey
  ovsNlaFreeFlowActions sf_acts
  free .valid .flow

/-- `ovs_flow_cmd_alloc_info`. -/
def ovsFlowCmdAllocInfo (env : FlowCmdEnv) (o : CmdOptions) : Cmd Ptr :=
  take (if env.reply ≠ 0 then .error env.reply else if o.notify then .valid else .null) .reply

/-- `ovs_notify`, which takes the reply. -/
def ovsNotify (reply : Ptr) : Cmd Unit := free reply .reply

/-! ## The commands -/

section Commands

variable (hs : Hashes)

/-- The label `err_kfree_flow` of `ovs_flow_cmd_new`, with the pointers that the new flow holds. -/
def errKfreeFlow (unmasked_key sf_acts : Ptr) (error : Int) : Cmd Int := do
  ovsFlowFree unmasked_key sf_acts
  pure error

/-- The label `err_kfree_acts` of `ovs_flow_cmd_new`. -/
def errKfreeActs (acts unmasked_key sf_acts : Ptr) (error : Int) : Cmd Int := do
  ovsNlaFreeFlowActions acts
  errKfreeFlow unmasked_key sf_acts error

/-- The label `err_unlock_ovs` of `ovs_flow_cmd_new`. -/
def errUnlockOvs (reply acts unmasked_key sf_acts : Ptr) (error : Int) : Cmd Int := do
  kfreeSkb reply
  errKfreeActs acts unmasked_key sf_acts error

/-- `ovs_flow_cmd_new`, from the lock on. -/
def newFlowLocked (env : FlowCmdEnv) (r : NewFlow) (reply unmasked_key : Ptr) (create_or_excl : Bool) :
    Cmd Int := do
  if !env.dp then errUnlockOvs reply .valid unmasked_key .null enodev
  else do
    let c ← get
    match ← liftM (duplicateFlow hs c.dp.table.table env.stack r) with
    | none => do
        let flow := c.dp.next_flow
        let (err, table) ← liftM (tableStep hs c.dp.table (.insert flow r.parsed.key r.id r.mask env.table))
        modify fun c => { c with dp := c.dp.inserted table err r.acts }
        -- the actions belong to the flow now
        if err ≠ 0 then errUnlockOvs reply .null unmasked_key .valid err
        else do
          ovsNotify reply
          pure 0
    | some flow =>
        if create_or_excl then errUnlockOvs reply .valid unmasked_key .null eexist
        else do
          match ← liftM (updatedFlow hs c.dp.table.table env.stack r flow) with
          | none => errUnlockOvs reply .valid unmasked_key .null enoent
          | some flow => do
              modify fun c => { c with dp := c.dp.setActs flow r.acts }
              ovsFlowFree unmasked_key .null
              ovsNotify reply
              pure 0

/-- `ovs_flow_cmd_new`, from the key of the request up to the lock. -/
def newFlowParse (env : FlowCmdEnv) (o : CmdOptions) (a : FlowAttrs) (key actions : List (BitVec 8))
    (create_or_excl : Bool) : Cmd Int :=
  match ovsNlaGetMatch env.netlink true key a.mask with
  | .error e => errKfreeFlow .null .null e
  | .ok m =>
      match ovsNlaGetIdentifier env.id_alloc a.ufid m.key with
      | .error e => errKfreeFlow .null .null e
      | .ok id => do
          let unmasked_key ← take (if id.isUfid then .null else .valid) .unmaskedKey
          match ovsNlaCopyActions env.actions actions (maskedKey m) with
          | .error e => errKfreeFlow unmasked_key .null e
          | .ok acts => do
              let acts_ptr ← take .valid .acts
              match ← ovsFlowCmdAllocInfo env o with
              | .error e => errKfreeActs acts_ptr unmasked_key .null e
              | reply => newFlowLocked hs env ⟨m, id, acts⟩ reply unmasked_key create_or_excl

/-- `ovs_flow_cmd_new`. -/
def ovsFlowCmdNewMem (env : FlowCmdEnv) (o : CmdOptions) (a : FlowAttrs) (create_or_excl : Bool) : Cmd Int :=
  match a.key, a.actions with
  | some key, some actions =>
      if !env.flow_alloc then pure enomem
      else do
        let _ ← take .valid .flow
        modify fun c => { c with stats := Function.update c.stats c.dp.next_flow StatsState.init }
        newFlowParse hs env o a key actions create_or_excl
  | _, _ => pure einval

/-- The label `err_kfree_acts` of `ovs_flow_cmd_set`. -/
def setErrKfreeActs (acts : Ptr) (error : Int) : Cmd Int := do
  ovsNlaFreeFlowActions acts
  pure error

/-- The label `err_unlock_ovs` of `ovs_flow_cmd_set`. -/
def setErrUnlockOvs (reply acts : Ptr) (error : Int) : Cmd Int := do
  kfreeSkb reply
  setErrKfreeActs acts error

/-- The end of `ovs_flow_cmd_set`. -/
def setFlowDone (o : CmdOptions) (flow : Nat) (reply : Ptr) : Cmd Int := do
  if o.clear then
    modify fun c => { c with
      stats := Function.update c.stats flow (ovsFlowStatsClear o.cpus (c.stats flow)) }
  ovsNotify reply
  pure 0

/-- `ovs_flow_cmd_set`, from the lock on. -/
def setFlowLocked (env : FlowCmdEnv) (o : CmdOptions) (ufid : Option (List (BitVec 8)))
    (m : Option SwFlowMatch) (acts : Option (List Action)) (acts_ptr reply : Ptr) : Cmd Int :=
  if !env.dp then setErrUnlockOvs reply acts_ptr enodev
  else do
    let c ← get
    match ← liftM (lookupFlow hs c.dp.table.table env.stack ufid m) with
    | none => setErrUnlockOvs reply acts_ptr enoent
    | some flow =>
        match acts with
        | some acts => do
            modify fun c => { c with dp := c.dp.setActs flow acts }
            setFlowDone o flow reply
        | none => do
            -- `ovs_flow_cmd_build_info`
            match ← ovsFlowCmdAllocInfo env o with
            | .error e => setErrUnlockOvs (.error e) acts_ptr e
            | reply => setFlowDone o flow reply

/-- `ovs_flow_cmd_set`. -/
def ovsFlowCmdSetMem (env : FlowCmdEnv) (o : CmdOptions) (a : FlowAttrs) : Cmd Int :=
  let ufid := ovsNlaGetUfid a.ufid
  if a.key.isNone && ufid.isNone then pure einval
  else
    match ovsNlaInitMatchAndAction env a with
    | .error e => pure e
    | .ok (m, some acts) => do
        let acts_ptr ← take .valid .acts
        match ← ovsFlowCmdAllocInfo env o with
        | .error e => setErrKfreeActs acts_ptr e
        | reply => setFlowLocked hs env o ufid m (some acts) acts_ptr reply
    | .ok (m, none) => setFlowLocked hs env o ufid m none .null .null

/-- `ovs_flow_cmd_del`. When it cannot allocate a reply it reports that to the listeners and succeeds. -/
def ovsFlowCmdDelMem (env : FlowCmdEnv) (o : CmdOptions) (a : FlowAttrs) : Cmd Int :=
  let ufid := ovsNlaGetUfid a.ufid
  match matchOf env false a with
  | .error e => pure e
  | .ok m =>
      if !env.dp then pure enodev
      else do
        let c ← get
        if m.isNone && ufid.isNone then do
          let (err, table) ←
            liftM (tableStep hs c.dp.table (.flush env.table.table_alloc env.table.ufid_alloc))
          modify fun c => { c with dp := { c.dp with table := table } }
          pure err
        else do
          match ← liftM (lookupFlow hs c.dp.table.table env.stack ufid m) with
          | none => pure enoent
          | some flow => do
              let (_, table) ← liftM (tableStep hs c.dp.table (.remove flow env.table.array_alloc))
              modify fun c => { c with dp := { c.dp with table := table } }
              match ← ovsFlowCmdAllocInfo env o with
              | .error _ => pure 0
              | reply => do
                  ovsNotify reply
                  pure 0

/-- A command with its buffers. -/
def flowCmdMem (o : CmdOptions) : FlowCmd → Cmd Int
  | .new env a create_or_excl => ovsFlowCmdNewMem hs env o a create_or_excl
  | .set env a => ovsFlowCmdSetMem hs env o a
  | .del env a => ovsFlowCmdDelMem hs env o a

end Commands

/-! ## What a failure leaves behind -/

/-- The flow table is the same: the flows in it, the buckets and the nodes that link them, the masks
with their reference counts and the mask array; and so are the actions and the statistics of every flow.
Only memory that nobody else has is not compared: the new flow, and the addresses that come next. -/
structure Unchanged (c c' : CmdState) : Prop where
  flows : c'.dp.table.flows = c.dp.table.flows
  ti : c'.dp.table.table.ti = c.dp.table.table.ti
  ufid_ti : c'.dp.table.table.ufid_ti = c.dp.table.table.ufid_ti
  links : c'.dp.table.table.links = c.dp.table.table.links
  ufid_links : c'.dp.table.table.ufid_links = c.dp.table.table.ufid_links
  count : c'.dp.table.table.count = c.dp.table.table.count
  ufid_count : c'.dp.table.table.ufid_count = c.dp.table.table.ufid_count
  mask_array : c'.dp.table.table.mask_array = c.dp.table.table.mask_array
  masks : c'.dp.table.table.masks = c.dp.table.table.masks
  flow : ∀ flow < c.dp.next_flow, c'.dp.table.table.flows flow = c.dp.table.table.flows flow
  sf_acts : c'.dp.sf_acts = c.dp.sf_acts
  stats : ∀ flow < c.dp.next_flow, c'.stats flow = c.stats flow

variable {hs : Hashes} {c c₁ c' : CmdState} {err : Int} {x : Cmd Int}
variable {spec : Except MemFault (Int × DpState)}

theorem Unchanged.refl (c : CmdState) : Unchanged c c :=
  ⟨rfl, rfl, rfl, rfl, rfl, rfl, rfl, rfl, rfl, fun _ _ => rfl, rfl, fun _ _ => rfl⟩

/-- The command has got this far without touching the datapath. -/
structure Untouched (c c₁ : CmdState) : Prop where
  dp : c₁.dp = c.dp
  stats : ∀ flow < c.dp.next_flow, c₁.stats flow = c.stats flow

theorem Untouched.refl (c : CmdState) : Untouched c c := ⟨rfl, fun _ _ => rfl⟩

theorem Untouched.logged (h : Untouched c c₁) (log : List (Use CmdBuffer)) :
    Untouched c (c₁.logged log) := ⟨h.dp, h.stats⟩

/-- The statistics of the new flow are nobody else's. -/
theorem Untouched.newStats (h : Untouched c c₁) (stats : StatsState) :
    Untouched c { c₁ with stats := Function.update c₁.stats c₁.dp.next_flow stats } := by
  refine ⟨h.dp, ?_⟩
  intro flow hflow
  rw [← h.stats flow hflow, h.dp]
  exact Function.update_of_ne hflow.ne _ _

theorem Untouched.unchanged (h : Untouched c c₁) (h' : Unchanged c₁ c') : Unchanged c c' := by
  obtain ⟨hdp, hstats⟩ := h
  obtain ⟨dp, stats, log⟩ := c
  obtain rfl : c₁.dp = dp := hdp
  exact { h' with stats := fun flow hflow => (h'.stats flow hflow).trans (hstats flow hflow) }

/-- From what a command has come to, it returns what it is specified to return, and if that is an
error then it leaves no trace. -/
def Ends (c c₁ : CmdState) (spec : Except MemFault (Int × DpState)) (x : Cmd Int) : Prop :=
  ∃ err c', x.exec c₁ = (.ok err, c') ∧ spec = .ok (err, c'.dp) ∧
    (err ≠ 0 → Unchanged c c' ∧ AllReleased c'.log)

/-- A step that returns, and what comes after it. -/
theorem Ends.bind {β : Type} {y : Cmd β} {f : β → Cmd Int} {b : β} {c₂ : CmdState}
    (hy : y.exec c₁ = (.ok b, c₂)) (hf : Ends c c₂ spec (f b)) : Ends c c₁ spec (y >>= f) := by
  obtain ⟨err, c', hx, hrest⟩ := hf
  refine ⟨err, c', ?_, hrest⟩
  rw [exec_bind, hy]
  exact hx

/-- A failure before anything has been touched. -/
theorem Ends.fail (hx : x.exec c₁ = (.ok err, c')) (h : Untouched c c') (hspec : spec = .ok (err, c.dp))
    (hlog : AllReleased c'.log) : Ends c c₁ spec x := by
  refine ⟨err, c', hx, ?_, fun _ => ⟨h.unchanged (.refl _), hlog⟩⟩
  rw [hspec, h.dp]

/-- Success. -/
theorem Ends.done {s' : DpState} (hx : x.exec c₁ = (.ok 0, c')) (hdp : c'.dp = s')
    (hspec : spec = .ok (0, s')) : Ends c c₁ spec x :=
  ⟨0, c', hx, by rw [hspec, hdp], fun h => absurd rfl h⟩

/-! ## The ladders -/

/-- Neither null nor a buffer. -/
def Ptr.isError : Ptr → Bool
  | .error _ => true
  | _ => false

theorem CmdState.logged_logged (c : CmdState) (l l' : List (Use CmdBuffer)) :
    (c.logged l).logged l' = c.logged (l ++ l') := by
  simp only [CmdState.logged, List.append_assoc]

@[simp] theorem exec_take (p : Ptr) (b : CmdBuffer) (c : CmdState) :
    (take p b).exec c = (.ok p, c.logged (p.got b)) := rfl

@[simp] theorem exec_free (p : Ptr) (b : CmdBuffer) (c : CmdState) :
    (free p b).exec c = (.ok (), c.logged (p.freed b)) := rfl

theorem exec_ovsFlowFree (unmasked_key sf_acts : Ptr) (c : CmdState) :
    (ovsFlowFree unmasked_key sf_acts).exec c =
      (.ok (), c.logged (unmasked_key.freed .unmaskedKey ++ sf_acts.freed .acts ++ [.release .flow])) := by
  simp only [ovsFlowFree, ovsNlaFreeFlowActions, exec_bind, exec_free, CmdState.logged_logged]
  rfl

theorem exec_errKfreeFlow (unmasked_key sf_acts : Ptr) (error : Int) (c : CmdState) :
    (errKfreeFlow unmasked_key sf_acts error).exec c =
      (.ok error, c.logged (unmasked_key.freed .unmaskedKey ++ sf_acts.freed .acts ++ [.release .flow])) := by
  simp only [errKfreeFlow, exec_bind, exec_ovsFlowFree, exec_pure]

theorem exec_errKfreeActs (acts unmasked_key sf_acts : Ptr) (error : Int) (c : CmdState) :
    (errKfreeActs acts unmasked_key sf_acts error).exec c =
      (.ok error, c.logged (acts.freed .acts ++
        (unmasked_key.freed .unmaskedKey ++ sf_acts.freed .acts ++ [.release .flow]))) := by
  simp only [errKfreeActs, ovsNlaFreeFlowActions, exec_bind, exec_free, exec_errKfreeFlow,
    CmdState.logged_logged]

theorem exec_errUnlockOvs (reply acts unmasked_key sf_acts : Ptr) (error : Int) (c : CmdState) :
    (errUnlockOvs reply acts unmasked_key sf_acts error).exec c =
      (.ok error, c.logged (reply.freed .reply ++ (acts.freed .acts ++
        (unmasked_key.freed .unmaskedKey ++ sf_acts.freed .acts ++ [.release .flow])))) := by
  simp only [errUnlockOvs, kfreeSkb, exec_bind, exec_free, exec_errKfreeActs, CmdState.logged_logged]

theorem exec_setErrUnlockOvs (reply acts : Ptr) (error : Int) (c : CmdState) :
    (setErrUnlockOvs reply acts error).exec c =
      (.ok error, c.logged (reply.freed .reply ++ acts.freed .acts)) := by
  simp only [setErrUnlockOvs, setErrKfreeActs, kfreeSkb, ovsNlaFreeFlowActions, exec_bind, exec_free,
    exec_pure, CmdState.logged_logged]

/-! ## Table operations that fail -/

/-- If a flow gets no mask, nothing has happened but that an address has been used. -/
theorem flowMaskInsert_fails {t t' : FlowTable} {flow : Nat} {new : SwFlowMask}
    {mask_alloc array_alloc : Bool}
    (h : flowMaskInsert t flow new mask_alloc array_alloc = .ok (err, t')) (herr : err ≠ 0) :
    ∃ next, t' = { t with next_mask := next } := by
  unfold flowMaskInsert at h
  obtain ⟨found, -, h⟩ := bind_eq_ok.mp h
  cases found with
  | some p =>
      dsimp only at h
      split at h
      · cases h
      · split_ifs at h
        exact absurd (congrArg Prod.fst (Except.ok.inj h)).symm herr
  | none =>
      dsimp only at h
      split_ifs at h
      · obtain ⟨ma, -, h⟩ := bind_eq_ok.mp h
        exact absurd (congrArg Prod.fst (Except.ok.inj h)).symm herr
      · exact ⟨_, (congrArg Prod.snd (Except.ok.inj h)).symm⟩
      · exact absurd (congrArg Prod.fst (Except.ok.inj h)).symm herr
      · exact ⟨_, (congrArg Prod.snd (Except.ok.inj h)).symm⟩

theorem ovsFlowTblInsert_fails {t t' : FlowTable} {flow : Nat} {mask : SwFlowMask} {env : InsertEnv}
    (h : ovsFlowTblInsert hs t flow mask env = .ok (err, t')) (herr : err ≠ 0) :
    ∃ next, t' = { t with next_mask := next } := by
  unfold ovsFlowTblInsert at h
  obtain ⟨⟨err₁, t₁⟩, hmask, h⟩ := bind_eq_ok.mp h
  dsimp only at h
  split_ifs at h with herr₁
  · obtain ⟨rfl, rfl⟩ := Prod.mk.inj (Except.ok.inj h)
    exact flowMaskInsert_fails hmask herr
  · obtain ⟨t₂, -, h⟩ := bind_eq_ok.mp h
    split_ifs at h
    · obtain ⟨t₃, -, h⟩ := bind_eq_ok.mp h
      exact absurd (congrArg Prod.fst (Except.ok.inj h)).symm herr
    · exact absurd (congrArg Prod.fst (Except.ok.inj h)).symm herr

theorem ovsFlowTblFlush_fails {t t' : FlowTable} {table_alloc ufid_alloc : Option (BitVec 32)}
    (h : ovsFlowTblFlush t table_alloc ufid_alloc = .ok (err, t')) (herr : err ≠ 0) :
    ∃ next, t' = { t with next_instance := next } := by
  unfold ovsFlowTblFlush at h
  split at h
  · obtain ⟨links, -, h⟩ := bind_eq_ok.mp h
    exact absurd (congrArg Prod.fst (Except.ok.inj h)).symm herr
  · exact ⟨_, (congrArg Prod.snd (Except.ok.inj h)).symm⟩
  · exact ⟨_, (congrArg Prod.snd (Except.ok.inj h)).symm⟩

/-- A flow that could not be inserted is a change to nobody's memory but its own. -/
theorem Unchanged.inserted {table : TableState} {r : NewFlow} {env : InsertEnv}
    (hins : tableStep hs c.dp.table (.insert c.dp.next_flow r.parsed.key r.id r.mask env) =
      .ok (err, table)) (herr : err ≠ 0) (log : List (Use CmdBuffer)) :
    Unchanged c ⟨c.dp.inserted table err r.acts, c.stats, log⟩ := by
  obtain ⟨⟨err₁, t⟩, hinsert, hins⟩ := bind_eq_ok.mp hins
  obtain ⟨rfl, rfl⟩ := Prod.mk.inj (Except.ok.inj hins)
  obtain ⟨next, rfl⟩ := ovsFlowTblInsert_fails hinsert herr
  unfold DpState.inserted
  rw [if_neg herr, if_neg herr]
  refine ⟨rfl, rfl, rfl, rfl, rfl, rfl, rfl, rfl, rfl, ?_, rfl, fun _ _ => rfl⟩
  intro flow hflow
  exact Function.update_of_ne hflow.ne _ _

theorem Unchanged.flushed {table : TableState} {table_alloc ufid_alloc : Option (BitVec 32)}
    (hflush : tableStep hs c.dp.table (.flush table_alloc ufid_alloc) = .ok (err, table))
    (herr : err ≠ 0) : Unchanged c { c with dp := { c.dp with table := table } } := by
  obtain ⟨⟨err₁, t⟩, hflush', hflush⟩ := bind_eq_ok.mp hflush
  obtain ⟨rfl, rfl⟩ := Prod.mk.inj (Except.ok.inj hflush)
  obtain ⟨next, rfl⟩ := ovsFlowTblFlush_fails hflush' herr
  rw [if_neg herr]
  exact ⟨rfl, rfl, rfl, rfl, rfl, rfl, rfl, rfl, rfl, fun _ _ => rfl, rfl, fun _ _ => rfl⟩

/-! ## The commands, one by one -/

/-- The log of a new flow, with the pointers to what has been allocated for it. -/
def newFlowLog (unmasked_key reply : Ptr) : List (Use CmdBuffer) :=
  [.acquire .flow] ++ unmasked_key.got .unmaskedKey ++ [.acquire .acts] ++ reply.got .reply

/-- Whichever of the pointers are null, each rung of the ladder frees what has been allocated above it. -/
theorem newFlowLog_released {unmasked_key reply : Ptr} (hkey : unmasked_key.isError = false)
    (hreply : reply.isError = false) :
    AllReleased (newFlowLog unmasked_key reply ++ (reply.freed .reply ++ ([.release .acts] ++
      (unmasked_key.freed .unmaskedKey ++ [] ++ [.release .flow])))) := by
  cases unmasked_key with
  | error e => cases hkey
  | null | valid =>
      cases reply with
      | error e => cases hreply
      | null | valid => decide

/-- Nor does it matter whether the actions are freed on their own or with the flow. -/
theorem newFlowLog_released_flow {unmasked_key reply : Ptr} (hkey : unmasked_key.isError = false)
    (hreply : reply.isError = false) :
    AllReleased (newFlowLog unmasked_key reply ++ (reply.freed .reply ++ ([] ++
      (unmasked_key.freed .unmaskedKey ++ [.release .acts] ++ [.release .flow])))) := by
  cases unmasked_key with
  | error e => cases hkey
  | null | valid =>
      cases reply with
      | error e => cases hreply
      | null | valid => decide

/-- `ovs_flow_cmd_new`, from the lock on, as the command without buffers has it. -/
def newFlowSpec (hs : Hashes) (s : DpState) (env : FlowCmdEnv) (r : NewFlow) (create_or_excl : Bool) :
    Except MemFault (Int × DpState) :=
  if !env.dp then .ok (enodev, s)
  else do
    match ← duplicateFlow hs s.table.table env.stack r with
    | none => do
        let (err, table) ← tableStep hs s.table (.insert s.next_flow r.parsed.key r.id r.mask env.table)
        .ok (err, s.inserted table err r.acts)
    | some flow =>
        if create_or_excl then .ok (eexist, s)
        else do
          match ← updatedFlow hs s.table.table env.stack r flow with
          | none => .ok (enoent, s)
          | some flow => .ok (0, s.setActs flow r.acts)

theorem newFlowLocked_ends {env : FlowCmdEnv} {r : NewFlow} {reply unmasked_key : Ptr}
    {create_or_excl : Bool} (htable : c.dp.TableOk hs) (hmask : BuiltMask r.mask) (h : Untouched c c₁)
    (hlog : c₁.log = newFlowLog unmasked_key reply) (hkey : unmasked_key.isError = false)
    (hreply : reply.isError = false) :
    Ends c c₁ (newFlowSpec hs c.dp env r create_or_excl)
      (newFlowLocked hs env r reply unmasked_key create_or_excl) := by
  obtain ⟨leaked, hinv⟩ := htable.table
  have hreleased := newFlowLog_released hkey hreply
  rw [← hlog] at hreleased
  unfold newFlowLocked newFlowSpec
  cases env.dp with
  | false => exact Ends.fail (exec_errUnlockOvs _ _ _ _ _ _) (h.logged _) rfl hreleased
  | true =>
      obtain ⟨o, hok, hfound, -⟩ := duplicateFlow_spec hinv env.stack r
      simp only [Bool.not_true, Bool.false_eq_true, if_false]
      rw [← h.dp] at hok
      refine Ends.bind (exec_get c₁) (Ends.bind (congrArg (·, c₁) hok) ?_)
      rw [← h.dp, hok, ok_bind]
      cases o with
      -- no such flow yet: the new one is inserted, and freed again if that fails
      | none =>
          have hfresh : c.dp.next_flow ∉ c.dp.table.flows := fun hmem => lt_irrefl _ (htable.fresh _ hmem)
          obtain ⟨err, table, hins⟩ : ∃ err table, tableStep hs c.dp.table
              (.insert c.dp.next_flow r.parsed.key r.id r.mask env.table) = .ok (err, table) := by
            obtain ⟨err, table, hins, -⟩ :=
              tableStep_insert hinv hfresh hmask r.parsed.key r.id env.table
            exact ⟨err, _, hins⟩
          dsimp only
          rw [← h.dp] at hins
          refine Ends.bind (congrArg (·, c₁) hins) (Ends.bind (exec_modify _ _) ?_)
          rw [hins, ok_bind]
          dsimp only
          rcases eq_or_ne err 0 with rfl | herr
          · exact Ends.done rfl rfl rfl
          · rw [if_pos herr]
            refine ⟨err, _, exec_errUnlockOvs _ _ _ _ _ _, rfl, fun _ => ⟨h.unchanged ?_, ?_⟩⟩
            · exact Unchanged.inserted hins herr _
            · have hreleased := newFlowLog_released_flow hkey hreply
              rw [← hlog] at hreleased
              exact hreleased
      | some flow =>
          dsimp only
          split_ifs
          · exact Ends.fail (exec_errUnlockOvs _ _ _ _ _ _) (h.logged _) (by rw [h.dp]) hreleased
          · obtain ⟨o, hupd, -⟩ := updatedFlow_spec hinv env.stack r (hfound flow rfl)
            rw [← h.dp] at hupd
            refine Ends.bind (congrArg (·, c₁) hupd) ?_
            rw [hupd, ok_bind]
            cases o with
            | none => exact Ends.fail (exec_errUnlockOvs _ _ _ _ _ _) (h.logged _) (by rw [h.dp]) hreleased
            | some flow => exact Ends.done rfl rfl rfl

theorem ovsFlowCmdNew_eq (hs : Hashes) (s : DpState) (env : FlowCmdEnv) (a : FlowAttrs)
    (create_or_excl : Bool) :
    ovsFlowCmdNew hs s env a create_or_excl =
      match newFlowOf env a with
      | .error e => .ok (e, s)
      | .ok r => newFlowSpec hs s env r create_or_excl := by
  unfold ovsFlowCmdNew newFlowSpec DpState.inserted
  rfl

/-- The reply, if one is allocated. -/
theorem exec_ovsFlowCmdAllocInfo (env : FlowCmdEnv) (o : CmdOptions) (c : CmdState) :
    env.reply ≠ 0 ∧ (ovsFlowCmdAllocInfo env o).exec c = (.ok (.error env.reply), c.logged []) ∨
      env.reply = 0 ∧ ∃ reply, reply.isError = false ∧
        (ovsFlowCmdAllocInfo env o).exec c = (.ok reply, c.logged (reply.got .reply)) := by
  by_cases hreply : env.reply ≠ 0
  · left
    refine ⟨hreply, ?_⟩
    unfold ovsFlowCmdAllocInfo
    rw [if_pos hreply]
    rfl
  · right
    refine ⟨not_not.mp hreply, if o.notify then .valid else .null, ?_, ?_⟩
    · cases o.notify <;> rfl
    · unfold ovsFlowCmdAllocInfo
      rw [if_neg hreply]
      rfl

/-- `ovs_flow_cmd_new`, with a key and actions and a flow for them, as the command without buffers has
it. -/
def newFlowParsed (env : FlowCmdEnv) (a : FlowAttrs) (key actions : List (BitVec 8)) :
    Except Int NewFlow := do
  let m ← ovsNlaGetMatch env.netlink true key a.mask
  let id ← ovsNlaGetIdentifier env.id_alloc a.ufid m.key
  let acts ← ovsNlaCopyActions env.actions actions (maskedKey m)
  if env.reply ≠ 0 then .error env.reply else .ok ⟨m, id, acts⟩

theorem newFlowParse_ends {env : FlowCmdEnv} {a : FlowAttrs} {key actions : List (BitVec 8)}
    (htable : c.dp.TableOk hs) (h : Untouched c c₁) (hlog : c₁.log = [.acquire .flow]) (o : CmdOptions)
    (create_or_excl : Bool) :
    Ends c c₁
      (match newFlowParsed env a key actions with
      | .error e => .ok (e, c.dp)
      | .ok r => newFlowSpec hs c.dp env r create_or_excl)
      (newFlowParse hs env o a key actions create_or_excl) := by
  unfold newFlowParse newFlowParsed
  -- each error goes to the label that frees what has been allocated so far
  cases hmatch : ovsNlaGetMatch env.netlink true key a.mask with
  | error e =>
      refine Ends.fail (exec_errKfreeFlow _ _ _ _) (h.logged _) rfl ?_
      show AllReleased (c₁.log ++ _)
      rw [hlog]
      decide
  | ok m =>
  rw [ok_bind]
  dsimp only
  cases ovsNlaGetIdentifier env.id_alloc a.ufid m.key with
  | error e =>
      refine Ends.fail (exec_errKfreeFlow _ _ _ _) (h.logged _) rfl ?_
      show AllReleased (c₁.log ++ _)
      rw [hlog]
      decide
  | ok id =>
  rw [ok_bind]
  dsimp only
  refine Ends.bind (exec_take _ _ _) ?_
  -- there is an unmasked key only if there is no identifier
  have hkey : (if id.isUfid then Ptr.null else Ptr.valid).isError = false := by
    cases id.isUfid <;> rfl
  generalize (if id.isUfid then Ptr.null else Ptr.valid) = unmasked_key at hkey ⊢
  cases hacts : ovsNlaCopyActions env.actions actions (maskedKey m) with
  | error e =>
      refine Ends.fail (exec_errKfreeFlow _ _ _ _) ((h.logged _).logged _) rfl ?_
      show AllReleased (c₁.log ++ _ ++ _)
      rw [hlog]
      cases unmasked_key with
      | error e => cases hkey
      | null | valid => decide
  | ok acts =>
  rw [ok_bind]
  dsimp only
  refine Ends.bind (exec_take _ _ _) ?_
  obtain ⟨hreply, hexec⟩ | ⟨hreply, reply, hnot, hexec⟩ := exec_ovsFlowCmdAllocInfo env o
    ((c₁.logged (unmasked_key.got .unmaskedKey)).logged (Ptr.valid.got .acts))
  · refine Ends.bind hexec ?_
    rw [if_pos hreply]
    refine Ends.fail (exec_errKfreeActs _ _ _ _ _) ((((h.logged _).logged _).logged _).logged _) rfl ?_
    show AllReleased (c₁.log ++ _ ++ _ ++ _ ++ _)
    rw [hlog]
    cases unmasked_key with
    | error e => cases hkey
    | null | valid => decide
  · refine Ends.bind hexec ?_
    rw [if_neg (not_not.mpr hreply)]
    have hmask : BuiltMask (NewFlow.mask ⟨m, id, acts⟩) := ovsNlaGetMatch_builtMask hmatch
    have hends := @newFlowLocked_ends hs c _ env ⟨m, id, acts⟩ reply unmasked_key create_or_excl htable
      hmask (((h.logged _).logged _).logged _) (by show c₁.log ++ _ ++ _ ++ _ = _; rw [hlog]; rfl) hkey hnot
    cases reply with
    | error e => cases hnot
    | null => exact hends
    | valid => exact hends

theorem ovsFlowCmdNewMem_ends (htable : c.dp.TableOk hs) (hlog : c.log = []) (env : FlowCmdEnv)
    (o : CmdOptions) (a : FlowAttrs) (create_or_excl : Bool) :
    Ends c c (ovsFlowCmdNew hs c.dp env a create_or_excl)
      (ovsFlowCmdNewMem hs env o a create_or_excl) := by
  rw [ovsFlowCmdNew_eq]
  have hfail : ∀ {spec err}, spec = .ok (err, c.dp) → Ends c c spec (pure err) := fun hspec =>
    Ends.fail (exec_pure _ _) (.refl c) hspec (by rw [hlog]; rfl)
  unfold ovsFlowCmdNewMem newFlowOf
  cases a.key with
  | none => exact hfail rfl
  | some key =>
      cases a.actions with
      | none => exact hfail rfl
      | some actions =>
          dsimp only
          cases env.flow_alloc with
          | false => exact hfail rfl
          | true =>
              simp only [Bool.not_true, Bool.false_eq_true, if_false]
              refine Ends.bind (exec_take _ _ _) (Ends.bind (exec_modify _ _) ?_)
              apply newFlowParse_ends htable (((Untouched.refl c).logged _).newStats _)
              show c.log ++ _ = _
              rw [hlog]
              rfl

/-- `ovs_flow_cmd_set`, from the lock on, as the command without buffers has it. -/
def setFlowSpec (hs : Hashes) (s : DpState) (env : FlowCmdEnv) (ufid : Option (List (BitVec 8)))
    (m : Option SwFlowMatch) (acts : Option (List Action)) : Except MemFault (Int × DpState) :=
  if !env.dp then .ok (enodev, s)
  else do
    match ← lookupFlow hs s.table.table env.stack ufid m with
    | none => .ok (enoent, s)
    | some flow =>
        match acts with
        | some acts => .ok (0, s.setActs flow acts)
        | none => .ok (env.reply, s)

/-- A request without actions that finds its flow, and no memory for the reply. -/
def SetReplyFails (hs : Hashes) (s : DpState) (env : FlowCmdEnv) (ufid : Option (List (BitVec 8)))
    (m : Option SwFlowMatch) (acts : Option (List Action)) : Prop :=
  acts = none ∧ env.dp = true ∧ env.reply ≠ 0 ∧
    ∃ flow, lookupFlow hs s.table.table env.stack ufid m = .ok (some flow)

theorem setFlowDone_exec (o : CmdOptions) (flow : Nat) (reply : Ptr) (c : CmdState) :
    ∃ c', (setFlowDone o flow reply).exec c = (.ok 0, c') ∧ c'.dp = c.dp := by
  unfold setFlowDone
  split_ifs
  · exact ⟨_, rfl, rfl⟩
  · exact ⟨_, rfl, rfl⟩

theorem setFlowLocked_ends {env : FlowCmdEnv} {ufid : Option (List (BitVec 8))} {m : Option SwFlowMatch}
    {acts : Option (List Action)} {acts_ptr reply : Ptr} (htable : c.dp.TableOk hs)
    (h : Untouched c c₁) (hlog : c₁.log = acts_ptr.got .acts ++ reply.got .reply)
    (hacts : acts_ptr.isError = false) (hreply : reply.isError = false)
    (hgood : ¬ SetReplyFails hs c.dp env ufid m acts) (o : CmdOptions) :
    Ends c c₁ (setFlowSpec hs c.dp env ufid m acts)
      (setFlowLocked hs env o ufid m acts acts_ptr reply) := by
  obtain ⟨leaked, hinv⟩ := htable.table
  have hreleased : AllReleased (c₁.log ++ (reply.freed .reply ++ acts_ptr.freed .acts)) := by
    rw [hlog]
    cases acts_ptr with
    | error e => cases hacts
    | null | valid =>
        cases reply with
        | error e => cases hreply
        | null | valid => decide
  unfold setFlowLocked setFlowSpec
  cases hdp : env.dp with
  | false => exact Ends.fail (exec_setErrUnlockOvs _ _ _ _) (h.logged _) rfl hreleased
  | true =>
      obtain ⟨o₁, hok, -⟩ := lookupFlow_spec hinv env.stack ufid m
      simp only [Bool.not_true, Bool.false_eq_true, if_false]
      refine Ends.bind (exec_get c₁) (Ends.bind (congrArg (·, c₁) (h.dp ▸ hok)) ?_)
      rw [hok, ok_bind]
      cases o₁ with
      | none => exact Ends.fail (exec_setErrUnlockOvs _ _ _ _) (h.logged _) rfl hreleased
      | some flow =>
          cases acts with
          | some acts =>
              refine Ends.bind (exec_modify _ _) ?_
              obtain ⟨c', hexec, hdp'⟩ :=
                setFlowDone_exec o flow reply { c₁ with dp := c₁.dp.setActs flow acts }
              exact Ends.done hexec hdp' (by rw [h.dp])
          | none =>
              obtain ⟨hfails, -⟩ | ⟨hzero, reply', hnot, hexec⟩ := exec_ovsFlowCmdAllocInfo env o c₁
              · exact absurd ⟨rfl, hdp, hfails, flow, hok⟩ hgood
              · refine Ends.bind hexec ?_
                rw [hzero]
                obtain ⟨c', hdone, hdp'⟩ := setFlowDone_exec o flow reply' (c₁.logged (reply'.got .reply))
                have hdp'' : c'.dp = c.dp := hdp'.trans h.dp
                cases reply' with
                | error e => cases hnot
                | null => exact Ends.done hdone hdp'' rfl
                | valid => exact Ends.done hdone hdp'' rfl

theorem ovsFlowCmdSet_eq (hs : Hashes) (s : DpState) (env : FlowCmdEnv) (a : FlowAttrs) :
    ovsFlowCmdSet hs s env a =
      match setFlowOf env a with
      | .error e => .ok (e, s)
      | .ok (ufid, m, acts) => setFlowSpec hs s env ufid m acts := by
  unfold ovsFlowCmdSet setFlowSpec
  rfl

theorem ovsFlowCmdSetMem_ends (htable : c.dp.TableOk hs) (hlog : c.log = []) (env : FlowCmdEnv)
    (o : CmdOptions) (a : FlowAttrs)
    (hgood : ∀ ufid m acts, setFlowOf env a = .ok (ufid, m, acts) →
      ¬ SetReplyFails hs c.dp env ufid m acts) :
    Ends c c (ovsFlowCmdSet hs c.dp env a) (ovsFlowCmdSetMem hs env o a) := by
  rw [ovsFlowCmdSet_eq]
  have hfail : ∀ {spec err}, spec = .ok (err, c.dp) → Ends c c spec (pure err) := fun hspec =>
    Ends.fail (exec_pure _ _) (.refl c) hspec (by rw [hlog]; rfl)
  unfold ovsFlowCmdSetMem
  unfold setFlowOf at hgood ⊢
  dsimp only at hgood ⊢
  split_ifs at hgood ⊢
  · exact hfail rfl
  · cases hinit : ovsNlaInitMatchAndAction env a with
    | error e => exact hfail rfl
    | ok r =>
        obtain ⟨m, acts⟩ := r
        rw [hinit] at hgood
        rw [ok_bind] at hgood ⊢
        cases acts with
        | none =>
            exact @setFlowLocked_ends hs c c env (ovsNlaGetUfid a.ufid) m none .null .null htable
              (.refl c) hlog rfl rfl (hgood _ _ _ rfl) o
        | some acts =>
            dsimp only at hgood ⊢
            refine Ends.bind (exec_take _ _ _) ?_
            obtain ⟨hreply, hexec⟩ | ⟨hreply, reply, hnot, hexec⟩ := exec_ovsFlowCmdAllocInfo env o
              (c.logged (Ptr.valid.got .acts))
            · refine Ends.bind hexec ?_
              rw [if_pos ⟨rfl, hreply⟩]
              refine Ends.fail (exec_bind _ _ _) (((Untouched.refl c).logged _).logged _ |>.logged _) rfl ?_
              show AllReleased (c.log ++ _ ++ _ ++ _)
              rw [hlog]
              decide
            · refine Ends.bind hexec ?_
              rw [if_neg fun hand => hand.2 hreply]
              have hends := @setFlowLocked_ends hs c _ env (ovsNlaGetUfid a.ufid) m (some acts) .valid reply
                htable (((Untouched.refl c).logged _).logged _)
                (by show c.log ++ _ ++ _ = _; rw [hlog]; rfl) rfl hnot (fun hfails => by cases hfails.1) o
              cases reply with
              | error e => cases hnot
              | null => exact hends
              | valid => exact hends

theorem ovsFlowCmdDelMem_ends (htable : c.dp.TableOk hs) (hlog : c.log = []) (env : FlowCmdEnv)
    (o : CmdOptions) (a : FlowAttrs) :
    Ends c c (ovsFlowCmdDel hs c.dp env a) (ovsFlowCmdDelMem hs env o a) := by
  obtain ⟨leaked, hinv⟩ := htable.table
  have hreleased : AllReleased c.log := by rw [hlog]; rfl
  unfold ovsFlowCmdDelMem ovsFlowCmdDel
  dsimp only
  cases matchOf env false a with
  | error e => exact Ends.fail (exec_pure _ _) (.refl c) rfl hreleased
  | ok m =>
      dsimp only
      cases env.dp with
      | false => exact Ends.fail (exec_pure _ _) (.refl c) rfl hreleased
      | true =>
          simp only [Bool.not_true, Bool.false_eq_true, if_false]
          refine Ends.bind (exec_get c) ?_
          split_ifs
          · have hallowed : TableOp.Allowed c.dp.table (.flush env.table.table_alloc env.table.ufid_alloc) :=
              trivial
            obtain ⟨err, table, hflush, -⟩ := tableStep_spec hinv hallowed
            rw [hflush, ok_bind]
            refine Ends.bind (exec_lift _ _) (Ends.bind (exec_modify _ _) ?_)
            exact ⟨err, _, exec_pure _ _, rfl, fun herr => ⟨Unchanged.flushed hflush herr, hreleased⟩⟩
          · obtain ⟨o₁, hok, hfound⟩ := lookupFlow_spec hinv env.stack (ovsNlaGetUfid a.ufid) m
            rw [hok, ok_bind]
            refine Ends.bind (exec_lift _ _) ?_
            cases o₁ with
            | none => exact Ends.fail (exec_pure _ _) (.refl c) rfl hreleased
            | some flow =>
                have hallowed : TableOp.Allowed c.dp.table (.remove flow env.table.array_alloc) :=
                  hfound flow rfl
                obtain ⟨r, table, hremove, -⟩ := tableStep_spec hinv hallowed
                dsimp only
                rw [hremove, ok_bind]
                refine Ends.bind (exec_lift _ _) (Ends.bind (exec_modify _ _) ?_)
                obtain ⟨-, hexec⟩ | ⟨-, reply, hnot, hexec⟩ := exec_ovsFlowCmdAllocInfo env o
                  { c with dp := { c.dp with table := table } }
                · exact Ends.bind hexec (Ends.done (exec_pure _ _) rfl rfl)
                · refine Ends.bind hexec ?_
                  cases reply with
                  | error e => cases hnot
                  | null => exact Ends.done rfl rfl rfl
                  | valid => exact Ends.done rfl rfl rfl

/-! ## Which failures are atomic -/

/-- The defect: `ovs_flow_cmd_set`, without actions, for a flow that is there, with no memory for the
reply. -/
def FlowCmd.ReplyFails (hs : Hashes) (s : DpState) : FlowCmd → Prop
  | .set env a => ∃ ufid m acts, setFlowOf env a = .ok (ufid, m, acts) ∧
      SetReplyFails hs s env ufid m acts
  | _ => False

/-- With the defect, an error goes to `kfree_skb`. -/
theorem setReplyFails_stray {env : FlowCmdEnv} {a : FlowAttrs} (o : CmdOptions)
    (h : FlowCmd.ReplyFails hs c.dp (.set env a)) :
    ∃ log, (ovsFlowCmdSetMem hs env o a).exec c = (.ok env.reply, c.logged log) ∧ .stray ∈ log ∧
      env.reply ≠ 0 := by
  obtain ⟨ufid, m, acts, hset, rfl, hdp, hreply, flow, hok⟩ := h
  unfold ovsFlowCmdSetMem
  unfold setFlowOf at hset
  dsimp only at hset ⊢
  split_ifs at hset ⊢
  obtain ⟨⟨m₁, acts₁⟩, hinit, hset⟩ := bind_eq_ok.mp hset
  split_ifs at hset
  obtain ⟨rfl, rfl, rfl⟩ : ovsNlaGetUfid a.ufid = ufid ∧ m₁ = m ∧ acts₁ = none := by
    simpa using hset
  rw [hinit]
  dsimp only
  unfold setFlowLocked
  rw [hdp]
  obtain ⟨-, hexec⟩ | ⟨hzero, -⟩ := exec_ovsFlowCmdAllocInfo env o c
  · refine ⟨[.stray], ?_, List.mem_singleton_self _, hreply⟩
    simp only [Bool.not_true, Bool.false_eq_true, if_false, exec_bind, exec_get, exec_lift, hok, hexec,
      exec_setErrUnlockOvs, CmdState.logged_logged]
    rfl
  · exact absurd hzero hreply

/-- A command with its buffers is the command, and what it leaves behind when it fails is nothing,
unless the reply of `ovs_flow_cmd_set` fails. -/
theorem flowCmdMem_ends (htable : c.dp.TableOk hs) (hlog : c.log = []) (o : CmdOptions) (cmd : FlowCmd)
    (hgood : ¬ cmd.ReplyFails hs c.dp) : Ends c c (flowCmdStep hs c.dp cmd) (flowCmdMem hs o cmd) := by
  cases cmd with
  | new env a create_or_excl => exact ovsFlowCmdNewMem_ends htable hlog env o a create_or_excl
  | set env a =>
      apply ovsFlowCmdSetMem_ends htable hlog env o a
      intro ufid m acts hset hfails
      exact hgood ⟨ufid, m, acts, hset, hfails⟩
  | del env a => exact ovsFlowCmdDelMem_ends htable hlog env o a

/-- What a command leaves behind: it returns, and if it returns an error then the datapath is as it was,
what it has allocated has been released once, and nothing else has been taken for a buffer. -/
def FailsAtomically (hs : Hashes) (c : CmdState) (o : CmdOptions) (cmd : FlowCmd) : Prop :=
  ∃ err c', (flowCmdMem hs o cmd).exec c = (.ok err, c') ∧
    (err ≠ 0 → Unchanged c c' ∧ AllReleased c'.log)

/-- The states that commands lead to are in order. -/
theorem tableOk_of_runAll {seed ufid_seed : BitVec 32} {cmds : List FlowCmd} {s : DpState}
    (hrun : runAll (flowCmdStep hs) (DpState.init seed ufid_seed) cmds = .ok s) : s.TableOk hs := by
  have hstep : ∀ s cmd, s.TableOk hs → True → ∃ r s', flowCmdStep hs s cmd = .ok (r, s') ∧ s'.TableOk hs := by
    intro s cmd h _
    obtain ⟨r, s', hok, heffect⟩ := flowCmdStep_effect h cmd
    exact ⟨r, s', hok, heffect.tableOk h⟩
  have hmeets : ∀ (cmds : List FlowCmd) (s : DpState),
      RunMeets (flowCmdStep hs) (fun _ _ => True) s cmds := by
    intro cmds
    induction cmds with
    | nil => exact fun _ => trivial
    | cons cmd cmds ih => exact fun _ => ⟨trivial, fun _ s' _ => ih s'⟩
  exact inv_of_runAll (fun _ _ => True) (DpState.TableOk hs) hstep
    (DpState.init_tableOk hs seed ufid_seed) (hmeets cmds _) hrun

/-- A command with the defect does not fail atomically. -/
theorem FlowCmd.ReplyFails.not_atomic {o : CmdOptions} {cmd : FlowCmd} (hfails : cmd.ReplyFails hs c.dp)
    (hlog : c.log = []) : ¬ FailsAtomically hs c o cmd := by
  rintro ⟨err, c', hexec, hleft⟩
  cases cmd with
  | new env a create_or_excl => exact hfails
  | del env a => exact hfails
  | set env a =>
      obtain ⟨log, hexec', hstray, hreply⟩ := setReplyFails_stray o hfails
      obtain ⟨herr, rfl⟩ := Prod.mk.inj (hexec.symm.trans hexec')
      obtain rfl := Except.ok.inj herr
      have hheld := held_stray hstray ([] : List CmdBuffer)
      have hreleased : held (c.log ++ log) [] = some [] := (hleft hreply).2
      rw [hlog, List.nil_append, hheld] at hreleased
      cases hreleased

/-- **Which commands fail atomically.** On the flow table that any run of commands has led to, a command
leaves no trace when it fails, unless it is `ovs_flow_cmd_set` without actions, finds its flow and gets no
memory for the reply. -/
theorem flowCmd_atomic_iff {seed ufid_seed : BitVec 32} {cmds : List FlowCmd} {s : DpState}
    (hrun : runAll (flowCmdStep hs) (DpState.init seed ufid_seed) cmds = .ok s) (stats : Nat → StatsState)
    (o : CmdOptions) (cmd : FlowCmd) :
    FailsAtomically hs ⟨s, stats, []⟩ o cmd ↔ ¬ cmd.ReplyFails hs s := by
  constructor
  · intro hatomic hfails
    have hnot : ¬ FailsAtomically hs ⟨s, stats, []⟩ o cmd := FlowCmd.ReplyFails.not_atomic hfails rfl
    exact hnot hatomic
  · intro hgood
    obtain ⟨err, c', hexec, -, hleft⟩ :=
      @flowCmdMem_ends hs ⟨s, stats, []⟩ (tableOk_of_runAll hrun) rfl o cmd hgood
    exact ⟨err, c', hexec, hleft⟩

/-- A new flow for a datapath that does not exist. -/
theorem flowCmd_atomic_enodev :
    FailsAtomically plainHashes ⟨DpState.init 0 0, fun _ => StatsState.init, []⟩ ⟨true, false, twoCpus⟩
        (.new { plainCmdEnv with dp := false }
          ⟨some addressedKeyAttrs, some matchSrcAttrs, some [], none⟩ true) ↔
      ¬ FlowCmd.ReplyFails plainHashes (DpState.init 0 0) (.new { plainCmdEnv with dp := false }
          ⟨some addressedKeyAttrs, some matchSrcAttrs, some [], none⟩ true) :=
  @flowCmd_atomic_iff plainHashes 0 0 [] (DpState.init 0 0) rfl (fun _ => StatsState.init)
    ⟨true, false, twoCpus⟩ _

/-- A flow is created, and then its actions are asked for with `ovs_flow_cmd_set` when there is no memory
for the answer. -/
theorem setReply_not_atomic :
    ∃ s, runAll (flowCmdStep plainHashes) (DpState.init 0 0)
        [.new plainCmdEnv ⟨some addressedKeyAttrs, some matchSrcAttrs, some [], some [1]⟩ true] = .ok s ∧
      ¬ FailsAtomically plainHashes ⟨s, fun _ => StatsState.init, []⟩ ⟨true, false, twoCpus⟩
        (.set { plainCmdEnv with reply := enomem } ⟨none, none, none, some [1]⟩) := by
  have hrun : ((runAll (flowCmdStep plainHashes) (DpState.init 0 0)
        [.new plainCmdEnv ⟨some addressedKeyAttrs, some matchSrcAttrs, some [], some [1]⟩ true]).toOption.any
      fun s => (lookupFlow plainHashes s.table.table plainCmdEnv.stack (some [1]) none).toOption.any
        Option.isSome) = true := by
    decide +kernel
  obtain ⟨s, heq, hrun⟩ := toOption_any_iff.mp hrun
  obtain ⟨found, hlookup, hfound⟩ := toOption_any_iff.mp hrun
  obtain ⟨flow, rfl⟩ := Option.isSome_iff_exists.mp hfound
  refine ⟨s, heq, ?_⟩
  apply FlowCmd.ReplyFails.not_atomic _ rfl
  exact ⟨some [1], none, none, rfl, rfl, rfl, by decide, flow, hlookup⟩

end OvsDatapath.Datapath
