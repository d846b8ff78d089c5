import OvsDatapath.Flow.Key
import OvsDatapath.Lib.Fault
import OvsDatapath.Lib.Hoare
import OvsDatapath.Sketch.SketchManage

/-!
# Executing actions

`actions.c` with the entry points around it: `ovs_vport_receive`, `ovs_dp_process_packet` and the
executor of action lists, on one cpu. A list may send the packet around again (RECIRC) or run a
nested list on a copy of it (SAMPLE). Either is executed in place, with a copy of the key in one of
two slots, as long as the level of nesting allows it, and otherwise queued in a short FIFO that the
outermost call empties.

The state is what the cpu keeps between calls (the level, the FIFO, the slots, the sketches of the
switches), the keys that pointers lead to, and a trace of what has happened to packets. What the
executor leaves to other code is a parameter, `DatapathEnv`: the flow table, the edits of packet and
key, key extraction, allocation, random numbers. Each answer may depend on when it is asked for, so
a statement about all environments is about all outcomes. Sending a packet ends its stay; a device
that hands it to a switch once more does so in a new call of `ovs_vport_receive`.

The functions call each other, so they take a number of calls after which they give up; a run that
gives up stops in the state it has reached.
-/

namespace OvsDatapath.Actions

open OvsDatapath.Lib OvsDatapath.Flow OvsDatapath.Sketch

/-- An action attribute. The payload of a simple edit is left as its bytes; SAMPLE has its arguments
(`struct sample_arg`) and the nested list. -/
inductive Action where
  | output (port : Nat)
  | trunc (max_len : Nat)
  | userspace (attr : List (BitVec 8))
  | hash (hash_basis : BitVec 32)
  | pushMpls (attr : List (BitVec 8))
  | popMpls (attr : List (BitVec 8))
  | pushVlan (attr : List (BitVec 8))
  | popVlan
  | recirc (recirc_id : BitVec 32)
  | set (attr : List (BitVec 8))
  | setMasked (attr : List (BitVec 8))
  | sample (probability : BitVec 32) (exec : Bool) (actions : List Action)
  | ct (attr : List (BitVec 8))
  | pushEth (attr : List (BitVec 8))
  | popEth

/-- A `struct sk_buff`: its identity, the packet, and its control block (`struct ovs_skb_cb`), with
the input port as the name of its device. `path` is not in the source: it lists the nested
executions that the packet is in, innermost first, each by the number of actions after it. -/
structure Skb (π : Type) where
  id : Nat
  packet : π
  input_dev : List (BitVec 8)
  mru : Nat
  cutlen : Nat
  path : List Nat

/-- What a key pointer leads to: the key of the caller, a slot of `flow_keys`, or the key of an
entry of the FIFO. -/
inductive KeyPtr where
  | arg
  | flowKey (i : Nat)
  | pktKey (i : Nat)
  deriving DecidableEq

/-- `struct deferred_action`, without the key; no actions means a recirculation. -/
structure DeferredAction (π : Type) where
  skb : Skb π
  actions : Option (List Action)

/-- What has happened to packets. -/
inductive Event (π : Type) where
  /-- `my_label_sketch` has counted the packet in the sketch of a switch. -/
  | counted (dev_id : Nat) (key : SwFlowKey)
  /-- The flow table has no flow for the packet. -/
  | missed (skb : Skb π) (key : SwFlowKey)
  /-- A RECIRC action has been executed. -/
  | recirculated (id : Nat) (recirc_id : BitVec 32)
  /-- A call of `do_output`, which sends, fragments or frees the packet. -/
  | output (skb : Skb π) (port : Nat) (key : SwFlowKey)
  /-- A call of `output_userspace`. -/
  | userspace (skb : Skb π) (key : SwFlowKey) (attr : List (BitVec 8)) (actions : List Action)
  /-- The packet or its control block has been edited. -/
  | edited (id : Nat) (action : Action)
  /-- The packet has been read, for a lookup or a hash. -/
  | used (id : Nat)
  /-- The key has been extracted from the packet again for an action, with the error. -/
  | keyUpdated (id : Nat) (action : Action) (last : Bool) (err : Int)
  /-- The packet has been handed to connection tracking, with its answer. -/
  | tracked (id : Nat) (err : Int)
  | cloned (id clone : Nat)
  | queued (id i : Nat)
  | dequeued (id i : Nat)
  /-- The FIFO has no room for the packet. -/
  | rejected (id : Nat)
  | freed (id : Nat)

/-- What a cpu keeps, the keys in memory, and the trace, latest event first. `head` and `tail` are
those of the FIFO. -/
structure Cpu (π : Type) where
  exec_actions_level : Nat
  head : Nat
  tail : Nat
  fifo : Nat → DeferredAction π
  keys : KeyPtr → SwFlowKey
  sketches : Sketches
  next_skb : Nat
  tick : Nat
  trace : List (Event π)

/-- The code that the executor relies on. The first argument of each answer counts the answers. -/
structure DatapathEnv (π : Type) where
  /-- `skb->len`. -/
  len : π → Nat
  /-- `ovs_flow_tbl_lookup_stats`: the actions of the flow that is found. -/
  lookup : Nat → π → SwFlowKey → Option (List Action)
  /-- `key_extract`, on a received packet or on one that is in the executor. -/
  key_extract : Nat → π → SwFlowKey → Int × π × SwFlowKey
  /-- What `ovs_vport_receive` does to the metadata of a packet. -/
  scrub : Nat → π → π
  /-- `push_mpls` to `pop_eth`, `execute_set_action` and `execute_masked_set_action`. -/
  edit : Nat → Action → π → SwFlowKey → Int × π × SwFlowKey
  /-- `ovs_ct_execute`; reassembly changes the size of the largest fragment, `mru`. -/
  ct_execute : Nat → List (BitVec 8) → π → Nat → SwFlowKey → Int × π × Nat × SwFlowKey
  /-- `skb_get_hash`. -/
  skb_get_hash : Nat → π → BitVec 32
  jhash_1word : BitVec 32 → BitVec 32 → BitVec 32
  /-- Whether `skb_clone` succeeds. -/
  skb_clone : Nat → Bool
  /-- `prandom_u32`, for the decision of the SAMPLE action at a path. -/
  prandom_u32 : Nat → List Nat → BitVec 32

/-- `DEFERRED_ACTION_FIFO_SIZE`. -/
def deferredActionFifoSize : Nat := 10

/-- `OVS_RECURSION_LIMIT`. -/
def ovsRecursionLimit : Nat := 4

/-- `OVS_DEFERRED_ACTION_THRESHOLD`. -/
def ovsDeferredActionThreshold : Nat := ovsRecursionLimit - 2

/-- `-ENETDOWN`. -/
def enetdown : Int := -100

/-- `-EINPROGRESS`. -/
def einprogress : Int := -115

/-- `U32_MAX`. -/
def u32Max : BitVec 32 := BitVec.allOnes 32

/-- `SW_FLOW_KEY_INVALID`. -/
def swFlowKeyInvalid : BitVec 8 := 0x80

/-- `is_flow_key_valid`. -/
def isFlowKeyValid (key : SwFlowKey) : Bool := key.macProto &&& swFlowKeyInvalid == 0

variable {π : Type}

/-- The computations of the executor. -/
abbrev Exec (π α : Type) := Effect (Cpu π) MemFault α

/-! ## Single steps -/

/-- Add to the trace. -/
def record (e : Event π) : Exec π Unit := modify fun s => { s with trace := e :: s.trace }

/-- An answer of the environment. -/
def ask {α : Type} (answer : Nat → α) : Exec π α := do
  let s ← get
  modify fun s => { s with tick := s.tick + 1 }
  pure (answer s.tick)

/-- Read through a key pointer. -/
def readKey (key : KeyPtr) : Exec π SwFlowKey := do
  let s ← get
  pure (s.keys key)

/-- Write through a key pointer. -/
def writeKey (key : KeyPtr) (v : SwFlowKey) : Exec π Unit :=
  modify fun s => { s with keys := Function.update s.keys key v }

/-- `kfree_skb` and `consume_skb`. -/
def kfreeSkb (skb : Skb π) : Exec π Unit := record (.freed skb.id)

/-- A new identity. -/
def freshSkb : Exec π Nat := do
  let s ← get
  modify fun s => { s with next_skb := s.next_skb + 1 }
  pure s.next_skb

/-- `skb_clone`: a copy with the same control block, if there is memory for it. -/
def skbClone (env : DatapathEnv π) (skb : Skb π) : Exec π (Option (Skb π)) := do
  let ok ← ask env.skb_clone
  if ok then do
    let id ← freshSkb
    record (.cloned skb.id id)
    pure (some { skb with id := id })
  else pure none

/-- `clone_key`. -/
def cloneKey (key : KeyPtr) : Exec π (Option KeyPtr) := do
  let s ← get
  if s.exec_actions_level ≤ ovsDeferredActionThreshold then
    if s.exec_actions_level = 0 then throw .outOfBounds
    else do
      writeKey (.flowKey (s.exec_actions_level - 1)) (s.keys key)
      pure (some (.flowKey (s.exec_actions_level - 1)))
  else pure none

/-- `add_deferred_actions`: the key of the new entry, or null if the FIFO is full. -/
def addDeferredActions (skb : Skb π) (key : KeyPtr) (actions : Option (List Action)) :
    Exec π (Option KeyPtr) := do
  let s ← get
  if s.head ≥ deferredActionFifoSize - 1 then pure none
  else do
    modify fun s => { s with
      head := s.head + 1
      fifo := Function.update s.fifo s.head { skb := skb, actions := actions }
      keys := Function.update s.keys (.pktKey s.head) (s.keys key) }
    record (.queued skb.id s.head)
    pure (some (.pktKey s.head))

/-- `action_fifo_get`: the entry at the tail and the pointer to its key, or null if the FIFO is
empty. -/
def actionFifoGet : Exec π (Option (DeferredAction π × KeyPtr)) := do
  let s ← get
  if s.head = s.tail then pure none
  else if s.tail < deferredActionFifoSize then do
    modify fun s => { s with tail := s.tail + 1 }
    record (.dequeued (s.fifo s.tail).skb.id s.tail)
    pure (some (s.fifo s.tail, .pktKey s.tail))
  else throw .outOfBounds

/-- `__this_cpu_inc_return(exec_actions_level)`. -/
def incLevel : Exec π Nat := do
  let s ← get
  modify fun s => { s with exec_actions_level := s.exec_actions_level + 1 }
  pure (s.exec_actions_level + 1)

/-- `__this_cpu_dec(exec_actions_level)`. -/
def decLevel : Exec π Unit :=
  modify fun s => { s with exec_actions_level := s.exec_actions_level - 1 }

/-- `ovs_flow_key_update`: the error, and the packet, which extraction may have rearranged. -/
def ovsFlowKeyUpdate (env : DatapathEnv π) (skb : Skb π) (key : KeyPtr) : Exec π (Int × Skb π) := do
  let old ← readKey key
  let (res, packet, new) ← ask fun n => env.key_extract n skb.packet old
  if res = 0 then do
    writeKey key (new.setMacProto (new.macProto &&& ~~~swFlowKeyInvalid))
    pure (res, { skb with packet := packet })
  else do
    writeKey key new
    pure (res, { skb with packet := packet })

/-- An edit of the packet and the key: one of `push_mpls` to `pop_eth`, or a set action. -/
def editPacket (env : DatapathEnv π) (action : Action) (skb : Skb π) (key : KeyPtr) :
    Exec π (Int × Skb π) := do
  let old ← readKey key
  let (err, packet, new) ← ask fun n => env.edit n action skb.packet old
  writeKey key new
  record (.edited skb.id action)
  pure (err, { skb with packet := packet })

/-- `ovs_ct_execute`. -/
def ovsCtExecute (env : DatapathEnv π) (attr : List (BitVec 8)) (skb : Skb π) (key : KeyPtr) :
    Exec π (Int × Skb π) := do
  let old ← readKey key
  let (err, packet, mru, new) ← ask fun n => env.ct_execute n attr skb.packet skb.mru old
  writeKey key new
  record (.tracked skb.id err)
  pure (err, { skb with packet := packet, mru := mru })

/-- `execute_hash`. -/
def executeHash (env : DatapathEnv π) (hash_basis : BitVec 32) (skb : Skb π) (key : KeyPtr) :
    Exec π Unit := do
  let old ← readKey key
  record (.used skb.id)
  let skb_hash ← ask fun n => env.skb_get_hash n skb.packet
  let hash := env.jhash_1word skb_hash hash_basis
  writeKey key (old.setOvsFlowHash (if hash = 0 then 1 else hash))

/-- `do_output`. -/
def doOutput (skb : Skb π) (port : Nat) (key : KeyPtr) : Exec π Unit := do
  let k ← readKey key
  record (.output skb port k)

/-- `output_userspace`; its result is not looked at. -/
def outputUserspace (skb : Skb π) (key : KeyPtr) (attr : List (BitVec 8)) (actions : List Action) :
    Exec π Unit := do
  let k ← readKey key
  record (.userspace skb k attr actions)

/-- `my_label_sketch`, on the sketches of the cpu's switches. -/
def labelPacket (skb : Skb π) (key : KeyPtr) : Exec π Unit := do
  let s ← get
  match myLabelSketch s.sketches skb.input_dev (s.keys key) with
  | .error fault => throw fault
  | .ok (none, _) => pure ()
  | .ok (some dev_id, sketches) => do
      modify fun s => { s with sketches := sketches }
      record (.counted dev_id (s.keys key))

/-- The decision of `sample` not to execute its list. -/
def sampleSkips (env : DatapathEnv π) (path : List Nat) (probability : BitVec 32) : Exec π Bool :=
  if probability = u32Max then pure false
  else if probability = 0 then pure true
  else do
    let random ← ask fun n => env.prandom_u32 n path
    pure (decide (random > probability))

/-- Free the packet and return. -/
def freeWith (skb : Skb π) (err : Int) : Exec π Int := do
  kfreeSkb skb
  pure err

/-- OUTPUT, when it is not the last action: on a clone, if there is memory for one. -/
def outputClone (env : DatapathEnv π) (skb : Skb π) (port : Nat) (key : KeyPtr) : Exec π Unit := do
  match ← skbClone env skb with
  | some clone => doOutput clone port key
  | none => pure ()

/-- TRUNC: the number of bytes to cut from the end when the packet is next sent. -/
def truncate (env : DatapathEnv π) (skb : Skb π) (max_len : Nat) : Exec π (Skb π) := do
  record (.edited skb.id (.trunc max_len))
  if env.len skb.packet > max_len then
    pure { skb with cutlen := env.len skb.packet - max_len }
  else pure skb

/-- The test that a key is valid, and its update if it is not: the error, and the packet. -/
def validateKey (env : DatapathEnv π) (action : Action) (last : Bool) (skb : Skb π) (key : KeyPtr) :
    Exec π (Int × Skb π) := do
  let k ← readKey key
  if isFlowKeyValid k then pure (0, skb)
  else do
    let (err, skb) ← ovsFlowKeyUpdate env skb key
    record (.keyUpdated skb.id action last err)
    pure (err, skb)

/-- The packet as a nested execution sees it. -/
def Skb.nest (skb : Skb π) (rest : List Action) : Skb π := { skb with path := rest.length :: skb.path }

/-- Store the recirculation id through a key pointer. -/
def setRecircId (key : KeyPtr) (recirc_id : BitVec 32) : Exec π Unit := do
  let k ← readKey key
  writeKey key (k.setRecircId recirc_id)

/-- The end of `clone_execute` when there is no key to clone into: queue the work, or drop it. -/
def deferExecute (skb : Skb π) (key : KeyPtr) (recirc_id : BitVec 32)
    (actions : Option (List Action)) : Exec π Int := do
  match ← addDeferredActions skb key actions with
  | some da =>
      if actions.isNone then do
        setRecircId da recirc_id
        pure 0
      else pure 0
  | none => do
      record (.rejected skb.id)
      freeWith skb 0

/-- The part of `ovs_dp_process_packet` for a packet without a flow: an upcall, after which the
packet is freed. -/
def missUpcall (skb : Skb π) (key : KeyPtr) : Exec π Unit := do
  let k ← readKey key
  record (.missed skb k)
  kfreeSkb skb

/-! ## The functions that call each other -/

mutual

/-- The loop of `do_execute_actions`: `attr` is the whole list, the last argument what is left. -/
def doExecuteActions (env : DatapathEnv π) :
    Nat → Skb π → KeyPtr → List Action → List Action → Exec π Int
  | 0, _, _, _, _ => throw .endless
  | _ + 1, skb, _, _, [] => freeWith skb 0
  | fuel + 1, skb, key, attr, .output port :: rest =>
      if rest.isEmpty then do
        doOutput skb port key
        pure 0
      else do
        outputClone env skb port key
        doExecuteActions env fuel { skb with cutlen := 0 } key attr rest
  | fuel + 1, skb, key, attr, .trunc max_len :: rest => do
      let skb ← truncate env skb max_len
      doExecuteActions env fuel skb key attr rest
  | fuel + 1, skb, key, attr, .userspace arg :: rest => do
      outputUserspace skb key arg attr
      doExecuteActions env fuel { skb with cutlen := 0 } key attr rest
  | fuel + 1, skb, key, attr, .hash hash_basis :: rest => do
      executeHash env hash_basis skb key
      doExecuteActions env fuel skb key attr rest
  | fuel + 1, skb, key, attr, .recirc recirc_id :: rest => do
      let (err, nested) ← executeRecirc env fuel (skb.nest rest) key recirc_id rest.isEmpty
      let skb := { nested with path := skb.path }
      if rest.isEmpty then pure err
      else if err ≠ 0 then freeWith skb err
      else doExecuteActions env fuel skb key attr rest
  | fuel + 1, skb, key, attr, .sample probability exec actions :: rest => do
      let err ← sample env fuel (skb.nest rest) key probability exec actions rest.isEmpty
      if rest.isEmpty then pure err
      else if err ≠ 0 then freeWith skb err
      else doExecuteActions env fuel skb key attr rest
  | fuel + 1, skb, key, attr, .ct arg :: rest => do
      let (err, skb) ← validateKey env (.ct arg) rest.isEmpty skb key
      if err ≠ 0 then pure err
      else do
        let (err, skb) ← ovsCtExecute env arg skb key
        -- the packet is with connection tracking then
        if err ≠ 0 then pure (if err = einprogress then 0 else err)
        else doExecuteActions env fuel skb key attr rest
  | fuel + 1, skb, key, attr, action :: rest => do
      let (err, skb) ← editPacket env action skb key
      if err ≠ 0 then freeWith skb err
      else doExecuteActions env fuel skb key attr rest

/-- `sample`. -/
def sample (env : DatapathEnv π) :
    Nat → Skb π → KeyPtr → BitVec 32 → Bool → List Action → Bool → Exec π Int
  | 0, _, _, _, _, _, _ => throw .endless
  | fuel + 1, skb, key, probability, exec, actions, last => do
      let skips ← sampleSkips env skb.path probability
      if skips then
        if last then freeWith skb 0 else pure 0
      else cloneExecute env fuel skb key 0 (some actions) last (!exec)

/-- `execute_recirc`. -/
def executeRecirc (env : DatapathEnv π) :
    Nat → Skb π → KeyPtr → BitVec 32 → Bool → Exec π (Int × Skb π)
  | 0, _, _, _, _ => throw .endless
  | fuel + 1, skb, key, recirc_id, last => do
      let (err, skb) ← validateKey env (.recirc recirc_id) last skb key
      if err ≠ 0 then pure (err, skb)
      else do
        let k ← readKey key
        if isFlowKeyValid k then do
          record (.recirculated skb.id recirc_id)
          let err ← cloneExecute env fuel skb key recirc_id none last true
          pure (err, skb)
        else throw .bug

/-- `clone_execute`. -/
def cloneExecute (env : DatapathEnv π) :
    Nat → Skb π → KeyPtr → BitVec 32 → Option (List Action) → Bool → Bool → Exec π Int
  | 0, _, _, _, _, _, _ => throw .endless
  | fuel + 1, skb, key, recirc_id, actions, last, clone_flow_key => do
      match ← (if last then pure (some skb) else skbClone env skb) with
      | none => pure 0
      | some skb => do
          match ← (if clone_flow_key then cloneKey key else pure (some key)) with
          | none => deferExecute skb key recirc_id actions
          | some clone =>
              match actions with
              | none => do
                  setRecircId clone recirc_id
                  ovsDpProcessPacket env fuel skb clone
                  pure 0
              | some actions =>
                  if clone_flow_key then do
                    let _ ← incLevel
                    let err ← doExecuteActions env fuel skb clone actions actions
                    decLevel
                    pure err
                  else doExecuteActions env fuel skb clone actions actions

/-- `ovs_dp_process_packet`. -/
def ovsDpProcessPacket (env : DatapathEnv π) : Nat → Skb π → KeyPtr → Exec π Unit
  | 0, _, _ => throw .endless
  | fuel + 1, skb, key => do
      record (.used skb.id)
      labelPacket skb key
      let k ← readKey key
      match ← ask fun n => env.lookup n skb.packet k with
      | none => missUpcall skb key
      | some acts => do
          let _ ← ovsExecuteActions env fuel skb acts key
          pure ()

/-- `ovs_execute_actions`. -/
def ovsExecuteActions (env : DatapathEnv π) : Nat → Skb π → List Action → KeyPtr → Exec π Int
  | 0, _, _, _ => throw .endless
  | fuel + 1, skb, acts, key => do
      let level ← incLevel
      if level > ovsRecursionLimit then do
        kfreeSkb skb
        decLevel
        pure enetdown
      else do
        let err ← doExecuteActions env fuel skb key acts acts
        if level = 1 then do
          processDeferredActions env fuel
          decLevel
          pure err
        else do
          decLevel
          pure err

/-- `process_deferred_actions`. -/
def processDeferredActions (env : DatapathEnv π) : Nat → Exec π Unit
  | 0 => throw .endless
  | fuel + 1 => do
      let s ← get
      if s.head = s.tail then pure () else deferredLoop env fuel

/-- The loop of `process_deferred_actions`. -/
def deferredLoop (env : DatapathEnv π) : Nat → Exec π Unit
  | 0 => throw .endless
  | fuel + 1 => do
      match ← actionFifoGet with
      | none => throw .nullDeref
      | some (da, key) => do
          runDeferred env fuel da key
          let s ← get
          if s.head = s.tail then modify fun s => { s with head := 0, tail := 0 }
          else deferredLoop env fuel

/-- Execute an entry of the FIFO. -/
def runDeferred (env : DatapathEnv π) : Nat → DeferredAction π → KeyPtr → Exec π Unit
  | 0, _, _ => throw .endless
  | fuel + 1, da, key =>
      match da.actions with
      | some actions => do
          let _ ← doExecuteActions env fuel da.skb key actions actions
          pure ()
      | none => ovsDpProcessPacket env fuel da.skb key

end

/-- `ovs_vport_receive`. The key on its stack is not initialized. -/
def ovsVportReceive (env : DatapathEnv π) (fuel : Nat) (input_dev : List (BitVec 8)) (packet : π) :
    Exec π Int := do
  let id ← freshSkb
  let packet ← ask fun n => env.scrub n packet
  let old ← readKey .arg
  let (error, packet, key) ← ask fun n => env.key_extract n packet old
  writeKey .arg key
  let skb : Skb π :=
    { id := id, packet := packet, input_dev := input_dev, mru := 0, cutlen := 0, path := [] }
  if error ≠ 0 then freeWith skb error
  else do
    ovsDpProcessPacket env fuel skb .arg
    pure 0

end OvsDatapath.Actions
