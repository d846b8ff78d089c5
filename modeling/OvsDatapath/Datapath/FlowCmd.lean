import OvsDatapath.Actions.CopyActions
import OvsDatapath.Flow.Identify
import OvsDatapath.Flow.TableRuns

/-!
# Flow commands

The commands of `datapath.c` that change flows: `ovs_flow_cmd_new`, `ovs_flow_cmd_set` and
`ovs_flow_cmd_del`. A command first works on the attributes of its request alone: it parses the key and
the mask, and validates the actions against the key of the request under the mask of the request. Then
it takes the lock, looks for the flow that the request means, and changes the table or the actions of
the flow.

Left out are the replies, apart from whether one can be allocated, the statistics of flows, and the
flags that only matter for either.
-/

namespace OvsDatapath.Datapath

open OvsDatapath.Lib OvsDatapath.Flow OvsDatapath.Actions

/-- `-ENOENT`. -/
def enoent : Int := -2

/-- `-EEXIST`. -/
def eexist : Int := -17

/-- `-ENODEV`. -/
def enodev : Int := -19

/-- `MAX_UFID_LENGTH`. -/
def maxUfidLength : Nat := 16

/-! ## Requests -/

/-- The attributes of a request. -/
structure FlowAttrs where
  key : Option (List (BitVec 8))
  mask : Option (List (BitVec 8))
  actions : Option (List (BitVec 8))
  ufid : Option (List (BitVec 8))

/-- What a command gets from outside: the outcomes of allocations, and whether the datapath that the
request names exists. `reply` is the error of allocating the reply, or zero; `stack` is what the local
keys of lookups hold at first. -/
structure FlowCmdEnv where
  netlink : NetlinkEnv
  actions : ActionsEnv
  table : InsertEnv
  flow_alloc : Bool
  id_alloc : Bool
  reply : Int
  dp : Bool
  stack : Nat → SwFlowKey

/-- `ovs_nla_get_ufid`: the identifier, if there is one of a length that is allowed. -/
def ovsNlaGetUfid (attr : Option (List (BitVec 8))) : Option (List (BitVec 8)) :=
  attr.filter fun data => 1 ≤ data.length ∧ data.length ≤ maxUfidLength

/-- `ovs_nla_get_identifier`. -/
def ovsNlaGetIdentifier (id_alloc : Bool) (ufid : Option (List (BitVec 8))) (key : SwFlowKey) :
    Except Int SwFlowId :=
  match ovsNlaGetUfid ufid with
  | some bytes => .ok (.ufid bytes)
  | none => if id_alloc then .ok (.unmaskedKey key) else .error enomem

/-- The key of a match under its mask, as flows are installed with it. -/
def maskedKey (m : SwFlowMatch) : SwFlowKey :=
  ovsFlowMaskKey (fun _ => 0) m.key true (m.mask.getD zeroMask)

/-! ## Before the lock -/

/-- What `ovs_flow_cmd_new` has made of its request when it takes the lock. -/
structure NewFlow where
  parsed : SwFlowMatch
  id : SwFlowId
  acts : List Action

/-- The mask of the request. -/
def NewFlow.mask (r : NewFlow) : SwFlowMask := r.parsed.mask.getD zeroMask

/-- The match that flows are compared with: a flow that is named by its key is compared with the
unmasked one. -/
def NewFlow.match (r : NewFlow) : SwFlowMatch :=
  if r.id.isUfid then { r.parsed with key := maskedKey r.parsed } else r.parsed

/-- `ovs_flow_cmd_new`, up to the lock. -/
def newFlowOf (env : FlowCmdEnv) (a : FlowAttrs) : Except Int NewFlow :=
  match a.key, a.actions with
  | some key, some actions =>
      if !env.flow_alloc then .error enomem
      else do
        let m ← ovsNlaGetMatch env.netlink true key a.mask
        let id ← ovsNlaGetIdentifier env.id_alloc a.ufid m.key
        let acts ← ovsNlaCopyActions env.actions actions (maskedKey m)
        if env.reply ≠ 0 then .error env.reply else .ok ⟨m, id, acts⟩
  | _, _ => .error einval

/-- The match of the key of a request, if it has one. -/
def matchOf (env : FlowCmdEnv) (has_mask : Bool) (a : FlowAttrs) : Except Int (Option SwFlowMatch) :=
  match a.key with
  | none => .ok none
  | some key => do
      let m ← ovsNlaGetMatch env.netlink has_mask key (if has_mask then a.mask else none)
      .ok (some m)

/-- `ovs_nla_init_match_and_action`. -/
def ovsNlaInitMatchAndAction (env : FlowCmdEnv) (a : FlowAttrs) :
    Except Int (Option SwFlowMatch × Option (List Action)) := do
  let m ← matchOf env true a
  match a.actions with
  | none => .ok (m, none)
  | some actions =>
      match m with
      | none => .error einval
      | some m => do
          -- `get_flow_actions`
          let acts ← ovsNlaCopyActions env.actions actions (maskedKey m)
          .ok (some m, some acts)

/-- `ovs_flow_cmd_set`, up to the lock: the identifier, the match and the actions. -/
def setFlowOf (env : FlowCmdEnv) (a : FlowAttrs) :
    Except Int (Option (List (BitVec 8)) × Option SwFlowMatch × Option (List Action)) :=
  let ufid := ovsNlaGetUfid a.ufid
  if a.key.isNone && ufid.isNone then .error einval
  else do
    let (m, acts) ← ovsNlaInitMatchAndAction env a
    if acts.isSome ∧ env.reply ≠ 0 then .error env.reply else .ok (ufid, m, acts)

/-! ## Under the lock -/

/-- The flow table of a datapath with the flows that are in it, and the actions of each. -/
structure DpState where
  table : TableState
  sf_acts : Nat → List Action
  next_flow : Nat

/-- The empty datapath. -/
def DpState.init (seed ufid_seed : BitVec 32) : DpState := ⟨TableState.init seed ufid_seed, fun _ => [], 0⟩

/-- Store the actions of a flow. -/
def DpState.setActs (s : DpState) (flow : Nat) (acts : List Action) : DpState :=
  { s with sf_acts := Function.update s.sf_acts flow acts }

variable (hs : Hashes)

/-- The flow that a request means: by its identifier if it has one, and else by its key. -/
def lookupFlow (t : FlowTable) (stack : Nat → SwFlowKey) (ufid : Option (List (BitVec 8)))
    (m : Option SwFlowMatch) : Except MemFault (Option Nat) :=
  match ufid, m with
  | some ufid, _ => ovsFlowTblLookupUfid hs t ufid
  | none, some m => ovsFlowTblLookupExact hs t stack m
  | none, none => .ok none

/-- The first lookup of `ovs_flow_cmd_new`, for a duplicate of the new flow. -/
def duplicateFlow (t : FlowTable) (stack : Nat → SwFlowKey) (r : NewFlow) : Except MemFault (Option Nat) := do
  let flow ← match r.id with
    | .ufid ufid => ovsFlowTblLookupUfid hs t ufid
    | .unmaskedKey _ => .ok none
  match flow with
  | some flow => .ok (some flow)
  | none => ovsFlowTblLookup hs t stack (maskedKey r.parsed)

/-- The flow that `ovs_flow_cmd_new` updates in place of a duplicate. -/
def updatedFlow (t : FlowTable) (stack : Nat → SwFlowKey) (r : NewFlow) (flow : Nat) :
    Except MemFault (Option Nat) :=
  if ovsFlowCmp (t.flows flow) r.match then .ok (some flow)
  else if (t.flows flow).id.isUfid then .ok none
  else ovsFlowTblLookupExact hs t stack r.match

/-- `ovs_flow_cmd_new`. The flag is one of `NLM_F_CREATE` and `NLM_F_EXCL`. -/
def ovsFlowCmdNew (s : DpState) (env : FlowCmdEnv) (a : FlowAttrs) (create_or_excl : Bool) :
    Except MemFault (Int × DpState) :=
  match newFlowOf env a with
  | .error e => .ok (e, s)
  | .ok r =>
      if !env.dp then .ok (enodev, s)
      else do
        match ← duplicateFlow hs s.table.table env.stack r with
        | none => do
            let flow := s.next_flow
            let (err, table) ← tableStep hs s.table (.insert flow r.parsed.key r.id r.mask env.table)
            let s : DpState := { s with table := table, next_flow := flow + 1 }
            .ok (err, if err = 0 then s.setActs flow r.acts else s)
        | some flow =>
            if create_or_excl then .ok (eexist, s)
            else do
              match ← updatedFlow hs s.table.table env.stack r flow with
              | none => .ok (enoent, s)
              | some flow => .ok (0, s.setActs flow r.acts)

/-- `ovs_flow_cmd_set`. -/
def ovsFlowCmdSet (s : DpState) (env : FlowCmdEnv) (a : FlowAttrs) : Except MemFault (Int × DpState) :=
  match setFlowOf env a with
  | .error e => .ok (e, s)
  | .ok (ufid, m, acts) =>
      if !env.dp then .ok (enodev, s)
      else do
        match ← lookupFlow hs s.table.table env.stack ufid m with
        | none => .ok (enoent, s)
        | some flow =>
            match acts with
            | some acts => .ok (0, s.setActs flow acts)
            | none => .ok (env.reply, s)

/-- `ovs_flow_cmd_del`. -/
def ovsFlowCmdDel (s : DpState) (env : FlowCmdEnv) (a : FlowAttrs) : Except MemFault (Int × DpState) :=
  let ufid := ovsNlaGetUfid a.ufid
  match matchOf env false a with
  | .error e => .ok (e, s)
  | .ok m =>
      if !env.dp then .ok (enodev, s)
      else if m.isNone && ufid.isNone then do
        let (err, table) ← tableStep hs s.table (.flush env.table.table_alloc env.table.ufid_alloc)
        .ok (err, { s with table := table })
      else do
        match ← lookupFlow hs s.table.table env.stack ufid m with
        | none => .ok (enoent, s)
        | some flow => do
            let (_, table) ← tableStep hs s.table (.remove flow env.table.array_alloc)
            .ok (0, { s with table := table })

/-- A command, with its request. -/
inductive FlowCmd where
  | new (env : FlowCmdEnv) (a : FlowAttrs) (create_or_excl : Bool)
  | set (env : FlowCmdEnv) (a : FlowAttrs)
  | del (env : FlowCmdEnv) (a : FlowAttrs)

/-- One command; the answer is the error code. -/
def flowCmdStep (s : DpState) : FlowCmd → Except MemFault (Int × DpState)
  | .new env a create_or_excl => ovsFlowCmdNew hs s env a create_or_excl
  | .set env a => ovsFlowCmdSet hs s env a
  | .del env a => ovsFlowCmdDel hs s env a

/-- Hashes that put everything into one bucket. -/
def plainHashes : Hashes := ⟨fun _ => 0, fun _ _ => 0, fun _ => 0⟩

/-- Every allocation succeeds. -/
def plainCmdEnv : FlowCmdEnv where
  netlink := plainNetlink
  actions := ⟨32768, true, fun _ _ => 0, 0, true, fun _ _ => .error einval⟩
  table := ⟨true, true, some 3, none, false⟩
  flow_alloc := true
  id_alloc := true
  reply := 0
  dp := true
  stack := fun _ _ => 0

end OvsDatapath.Datapath
