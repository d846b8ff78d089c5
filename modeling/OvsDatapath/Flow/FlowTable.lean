import OvsDatapath.Flow.Mask
import OvsDatapath.Lib.Hlist

/-!
# The flow table

`flow_table.c`: flows in two chained hash tables, one by masked key and one by identifier, and an
array of the masks in use, shared between flows with equal masks. Objects are named by their
address, a natural number. A flow has two nodes for each table, and a table instance links its
flows through the nodes of its own version, so that a rehashed copy can be built while the old
instance is still being read.

The nodes of the two tables are different members of `struct sw_flow`, and the heads of an instance
only ever lead to nodes of one kind; each kind has a link memory of its own. Reference counts and
sizes are natural numbers. The bound of every walk over a chain is the number of flows that the
table says it has; a chain longer than that would be a fault.

Left out are statistics, actions, the release of flows, and the grace periods of RCU: what the code
hands to `call_rcu` is not looked at again.
-/

namespace OvsDatapath.Flow

open OvsDatapath.Lib OvsDatapath.Lib.Hlist

/-- The hash functions of the kernel that the table uses, with the initial values it gives them. -/
structure Hashes where
  jhash2 : List (BitVec 32) → BitVec 32
  jhash_1word : BitVec 32 → BitVec 32 → BitVec 32
  jhash : List (BitVec 8) → BitVec 32

/-- `struct sw_flow_id`: a unique identifier, or else the unmasked key. -/
inductive SwFlowId where
  | ufid (bytes : List (BitVec 8))
  | unmaskedKey (key : SwFlowKey)

/-- `ovs_identifier_is_ufid`. -/
def SwFlowId.isUfid : SwFlowId → Bool
  | .ufid _ => true
  | .unmaskedKey _ => false

/-- `struct sw_flow`: what the table reads and writes of it, apart from the nodes. -/
structure SwFlow where
  key : SwFlowKey
  id : SwFlowId
  mask : Option Nat
  flow_hash : BitVec 32
  ufid_hash : BitVec 32

/-- A `struct sw_flow_mask` in the table. -/
structure MaskEntry where
  mask : SwFlowMask
  ref_count : Nat

/-- `struct mask_array`; `max` is the length of the list. -/
structure MaskArray where
  count : Nat
  masks : List (Option Nat)

/-- `ma->max`. -/
def MaskArray.max (ma : MaskArray) : Nat := ma.masks.length

/-- `struct table_instance`, with its address. -/
structure TableInstance where
  ptr : Nat
  n_buckets : Nat
  node_ver : Bool
  hash_seed : BitVec 32
  keep_flows : Bool

/-- A bucket of an instance. -/
abbrev BucketHead := Nat × Nat

/-- A node of a flow: its address and the version. -/
abbrev FlowNode := Nat × Bool

/-- `struct flow_table`, with the memory it lives in. -/
structure FlowTable where
  ti : TableInstance
  ufid_ti : TableInstance
  mask_array : MaskArray
  count : Nat
  ufid_count : Nat
  flows : Nat → SwFlow
  masks : Nat → Option MaskEntry
  links : Links BucketHead FlowNode
  ufid_links : Links BucketHead FlowNode
  next_mask : Nat
  next_instance : Nat

/-- `TBL_MIN_BUCKETS`. -/
def tblMinBuckets : Nat := 1024

/-- `MASK_ARRAY_SIZE_MIN`. -/
def maskArraySizeMin : Nat := 16

section Hashed

variable (hs : Hashes)

/-! ## Table instances -/

/-- `find_bucket`. -/
def findBucket (ti : TableInstance) (hash : BitVec 32) : BucketHead :=
  (ti.ptr, (hs.jhash_1word hash ti.hash_seed).toNat &&& (ti.n_buckets - 1))

/-- `table_instance_alloc`, when its allocations succeed: empty buckets and a random seed. -/
def tableInstanceAlloc (links : Links BucketHead FlowNode) (ptr new_size : Nat) (seed : BitVec 32) :
    TableInstance × Links BucketHead FlowNode :=
  ({ ptr := ptr, n_buckets := new_size, node_ver := false, hash_seed := seed, keep_flows := false },
    { links with first := fun head =>
        if head.1 = ptr ∧ head.2 < new_size then none else links.first head })

/-- `table_instance_insert` and `ufid_table_instance_insert`: link a flow by one of its hashes. -/
def instanceInsert (hash : Nat → BitVec 32) (ti : TableInstance) (flow : Nat)
    (links : Links BucketHead FlowNode) : Links BucketHead FlowNode :=
  addHead links (flow, ti.node_ver) (findBucket hs ti (hash flow))

/-- The inner loop of `flow_table_copy_flows`: insert the flows of a chain, from a node on. -/
def copyChain (hash : Nat → BitVec 32) (new : TableInstance) :
    Nat → Option FlowNode → Links BucketHead FlowNode → Except MemFault (Links BucketHead FlowNode)
  | _, none, links => .ok links
  | 0, some _, _ => .error .endless
  | fuel + 1, some n, links =>
      let links := instanceInsert hs hash new n.1 links
      copyChain hash new fuel (links.next n) links

/-- The outer loop: the buckets that are left. -/
def copyBuckets (hash : Nat → BitVec 32) (old new : TableInstance) (fuel : Nat) :
    List Nat → Links BucketHead FlowNode → Except MemFault (Links BucketHead FlowNode)
  | [], links => .ok links
  | i :: rest, links => do
      let links ← copyChain hs hash new fuel (links.first (old.ptr, i)) links
      copyBuckets hash old new fuel rest links

/-- `flow_table_copy_flows`: the new instance takes the other version of the nodes. -/
def flowTableCopyFlows (hash : Nat → BitVec 32) (old new : TableInstance) (fuel : Nat)
    (links : Links BucketHead FlowNode) :
    Except MemFault (TableInstance × Links BucketHead FlowNode) := do
  let new := { new with node_ver := !old.node_ver }
  let links ← copyBuckets hs hash old new fuel (List.range old.n_buckets) links
  .ok (new, links)

/-- `table_instance_rehash`; null if the new instance cannot be allocated. -/
def tableInstanceRehash (hash : Nat → BitVec 32) (ti : TableInstance) (n_buckets : Nat)
    (alloc : Option (BitVec 32)) (ptr fuel : Nat) (links : Links BucketHead FlowNode) :
    Except MemFault (Option (TableInstance × Links BucketHead FlowNode)) :=
  match alloc with
  | none => .ok none
  | some seed => do
      let new := tableInstanceAlloc links ptr n_buckets seed
      let r ← flowTableCopyFlows hs hash ti new.1 fuel new.2
      .ok (some r)

/-! ## Lookup -/

/-- `masked_flow_lookup`. `stack` is what the local `masked_key` holds at first. -/
def maskedFlowLookup (t : FlowTable) (stack unmasked : SwFlowKey) (mask : Nat) :
    Except MemFault (Option Nat) :=
  match t.masks mask with
  | none => .error .useAfterFree
  | some entry => do
      let masked_key := ovsFlowMaskKey stack unmasked false entry.mask
      let range := entry.mask.range
      let hash := flowHash hs.jhash2 masked_key range
      let head := findBucket hs t.ti hash
      let node ← findEntry t.links
        (fun n =>
          let flow := t.flows n.1
          flow.mask == some mask && flow.flow_hash == hash &&
            cmpKey flow.key masked_key range.start range.stop)
        t.count (t.links.first head)
      .ok (node.map Prod.fst)

/-- The loop of `flow_lookup` over the masks from position `i` on, leaving out `index`. Returns the
flow and the position of its mask. -/
def flowLookupLoop (t : FlowTable) (stack : Nat → SwFlowKey) (key : SwFlowKey) (index : Nat) :
    Nat → List (Option Nat) → Except MemFault (Option (Nat × Nat))
  | _, [] => .ok none
  | i, none :: rest => flowLookupLoop t stack key index (i + 1) rest
  | i, some mask :: rest =>
      if i = index then flowLookupLoop t stack key index (i + 1) rest
      else do
        match ← maskedFlowLookup hs t (stack mask) key mask with
        | some flow => .ok (some (flow, i))
        | none => flowLookupLoop t stack key index (i + 1) rest

/-- The first step of `flow_lookup`: the mask at `index`, if there is one. -/
def flowLookupAt (t : FlowTable) (stack : Nat → SwFlowKey) (key : SwFlowKey) (index : Nat) :
    Except MemFault (Option Nat) :=
  match t.mask_array.masks[index]? with
  | some (some mask) => maskedFlowLookup hs t (stack mask) key mask
  | _ => .ok none

/-- `flow_lookup`: the mask at `index` first, then the others. Returns the flow and the new value of
`index`. -/
def flowLookup (t : FlowTable) (stack : Nat → SwFlowKey) (key : SwFlowKey) (index : Nat) :
    Except MemFault (Option Nat × Nat) := do
  match ← flowLookupAt hs t stack key index with
  | some flow => .ok (some flow, index)
  | none =>
      match ← flowLookupLoop hs t stack key index 0 t.mask_array.masks with
      | some (flow, i) => .ok (some flow, i)
      | none => .ok (none, index)

/-- `ovs_flow_tbl_lookup`. -/
def ovsFlowTblLookup (t : FlowTable) (stack : Nat → SwFlowKey) (key : SwFlowKey) :
    Except MemFault (Option Nat) := do
  let r ← flowLookup hs t stack key 0
  .ok r.1

/-! ## Masks -/

/-- `mask_equal`. -/
def maskEqual (a b : SwFlowMask) : Bool :=
  a.range.stop == b.range.stop && a.range.start == b.range.start &&
    (List.range (rangeNBytes a.range)).all fun i =>
      a.key.u8 (a.range.start + i) == b.key.u8 (b.range.start + i)

/-- `flow_mask_find`, from a position of the array on. -/
def flowMaskFind (masks : Nat → Option MaskEntry) (mask : SwFlowMask) :
    List (Option Nat) → Except MemFault (Option Nat)
  | [] => .ok none
  | none :: rest => flowMaskFind masks mask rest
  | some p :: rest =>
      match masks p with
      | none => .error .useAfterFree
      | some entry =>
          if maskEqual mask entry.mask then .ok (some p) else flowMaskFind masks mask rest

/-- `tbl_mask_array_realloc`, when the allocation succeeds: the entries that are not null move to
the front of an array of the new size. -/
def tblMaskArrayRealloc (old : MaskArray) (size : Nat) : Except MemFault MaskArray :=
  let live := old.masks.filter Option.isSome
  let size := max maskArraySizeMin size
  if live.length ≤ size then
    .ok { count := live.length, masks := live ++ List.replicate (size - live.length) none }
  else .error .outOfBounds

/-- Store into the first null entry, if there is one. -/
def placeMask (p : Nat) : List (Option Nat) → Option (List (Option Nat))
  | [] => none
  | none :: rest => some (some p :: rest)
  | some q :: rest => (placeMask p rest).map (some q :: ·)

/-- The end of `flow_mask_insert`: the new mask goes into the array, and the flow gets it. -/
def MaskArray.add (ma : MaskArray) (p : Nat) : MaskArray :=
  match placeMask p ma.masks with
  | some masks => { count := ma.count + 1, masks := masks }
  | none => ma

/-- Set the mask pointer of a flow. -/
def FlowTable.setFlowMask (t : FlowTable) (flow mask : Nat) : FlowTable :=
  { t with flows := Function.update t.flows flow { t.flows flow with mask := some mask } }

/-- `flow_mask_insert`. The two flags say whether the mask and a larger array can be allocated. -/
def flowMaskInsert (t : FlowTable) (flow : Nat) (new : SwFlowMask) (mask_alloc array_alloc : Bool) :
    Except MemFault (Int × FlowTable) := do
  match ← flowMaskFind t.masks new t.mask_array.masks with
  | some p =>
      match t.masks p with
      | none => .error .useAfterFree
      | some entry =>
          if entry.ref_count = 0 then .error .bug
          else
            let masks := Function.update t.masks p
              (some { entry with ref_count := entry.ref_count + 1 })
            .ok (0, { t with masks := masks }.setFlowMask flow p)
  | none =>
      if mask_alloc then
        let p := t.next_mask
        let masks := Function.update t.masks p (some { mask := new, ref_count := 1 })
        if t.mask_array.count ≥ t.mask_array.max then
          if array_alloc then do
            let ma ← tblMaskArrayRealloc t.mask_array (t.mask_array.max + maskArraySizeMin)
            .ok (0, { t with masks := masks, next_mask := p + 1, mask_array := ma.add p }.setFlowMask
              flow p)
          else .ok (enomem, { t with next_mask := p + 1 })
        else
          .ok (0, { t with
            masks := masks, next_mask := p + 1, mask_array := t.mask_array.add p }.setFlowMask flow p)
      else .ok (enomem, t)

/-- `tbl_mask_array_delete_mask`: the first entry with the mask becomes null. -/
def tblMaskArrayDeleteMask (p : Nat) : List (Option Nat) → Except MemFault (List (Option Nat))
  | [] => .error .bug
  | o :: rest =>
      if o = some p then .ok (none :: rest)
      else do
        let rest ← tblMaskArrayDeleteMask p rest
        .ok (o :: rest)

/-- `flow_mask_remove`. The flag says whether a smaller array can be allocated. -/
def flowMaskRemove (t : FlowTable) (mask : Option Nat) (array_alloc : Bool) :
    Except MemFault FlowTable :=
  match mask with
  | none => .ok t
  | some p =>
      match t.masks p with
      | none => .error .useAfterFree
      | some entry =>
          if entry.ref_count = 0 then .error .bug
          else if entry.ref_count - 1 = 0 then do
            let masks ← tblMaskArrayDeleteMask p t.mask_array.masks
            let ma : MaskArray := { count := t.mask_array.count - 1, masks := masks }
            let t := { t with masks := Function.update t.masks p none, mask_array := ma }
            if ma.max ≥ maskArraySizeMin * 2 ∧ ma.count ≤ ma.max / 3 ∧ array_alloc then do
              let ma ← tblMaskArrayRealloc ma (ma.max / 2)
              .ok { t with mask_array := ma }
            else .ok t
          else
            let masks := Function.update t.masks p
              (some { entry with ref_count := entry.ref_count - 1 })
            .ok { t with masks := masks }

/-! ## Insertion and removal -/

/-- The random outcomes of an insertion: allocations, and whether a periodic rehash is due. -/
structure InsertEnv where
  mask_alloc : Bool
  array_alloc : Bool
  table_alloc : Option (BitVec 32)
  ufid_alloc : Option (BitVec 32)
  rehash_due : Bool

/-- The hash that links a flow by its key. -/
def FlowTable.flowHashOf (t : FlowTable) (flow : Nat) : BitVec 32 := (t.flows flow).flow_hash

/-- The hash that links a flow by its identifier. -/
def FlowTable.ufidHashOf (t : FlowTable) (flow : Nat) : BitVec 32 := (t.flows flow).ufid_hash

/-- `ufid_hash`; never called for an unmasked key. -/
def ufidHash (id : SwFlowId) : BitVec 32 :=
  match id with
  | .ufid bytes => hs.jhash bytes
  | .unmaskedKey _ => 0

/-- The part of `flow_key_insert` that makes a larger instance if the table is full, and otherwise
rehashes into one of the same size if that is due. -/
def flowKeyRehash (t : FlowTable) (env : InsertEnv) :
    Except MemFault (Option (TableInstance × Links BucketHead FlowNode)) :=
  if t.count > t.ti.n_buckets then
    tableInstanceRehash hs t.flowHashOf t.ti (t.ti.n_buckets * 2) env.table_alloc t.next_instance
      t.count t.links
  else if env.rehash_due then
    tableInstanceRehash hs t.flowHashOf t.ti t.ti.n_buckets env.table_alloc t.next_instance t.count
      t.links
  else .ok none

/-- `flow_key_insert`. -/
def flowKeyInsert (t : FlowTable) (flow : Nat) (env : InsertEnv) : Except MemFault FlowTable :=
  match (t.flows flow).mask.bind t.masks with
  | none => .error .wildPointer
  | some entry => do
      let hash := flowHash hs.jhash2 (t.flows flow).key entry.mask.range
      let t := { t with flows := Function.update t.flows flow { t.flows flow with flow_hash := hash } }
      let links := instanceInsert hs t.flowHashOf t.ti flow t.links
      let t := { t with links := links, count := t.count + 1 }
      match ← flowKeyRehash hs t env with
      | none => .ok t
      | some (ti, links) =>
          .ok { t with ti := ti, links := links, next_instance := t.next_instance + 1 }

/-- The part of `flow_ufid_insert` that makes a larger instance. -/
def flowUfidRehash (t : FlowTable) (env : InsertEnv) :
    Except MemFault (Option (TableInstance × Links BucketHead FlowNode)) :=
  if t.ufid_count > t.ufid_ti.n_buckets then
    tableInstanceRehash hs t.ufidHashOf t.ufid_ti (t.ufid_ti.n_buckets * 2) env.ufid_alloc
      t.next_instance t.count t.ufid_links
  else .ok none

/-- `flow_ufid_insert`. -/
def flowUfidInsert (t : FlowTable) (flow : Nat) (env : InsertEnv) : Except MemFault FlowTable := do
  let hash := ufidHash hs (t.flows flow).id
  let t := { t with flows := Function.update t.flows flow { t.flows flow with ufid_hash := hash } }
  let links := instanceInsert hs t.ufidHashOf t.ufid_ti flow t.ufid_links
  let t := { t with ufid_links := links, ufid_count := t.ufid_count + 1 }
  match ← flowUfidRehash hs t env with
  | none => .ok t
  | some (ti, links) =>
      .ok { t with ufid_ti := ti, ufid_links := links, next_instance := t.next_instance + 1 }

/-- `ovs_flow_tbl_insert`. -/
def ovsFlowTblInsert (t : FlowTable) (flow : Nat) (mask : SwFlowMask) (env : InsertEnv) :
    Except MemFault (Int × FlowTable) := do
  let (err, t) ← flowMaskInsert t flow mask env.mask_alloc env.array_alloc
  if err ≠ 0 then .ok (err, t)
  else do
    let t ← flowKeyInsert hs t flow env
    if (t.flows flow).id.isUfid then do
      let t ← flowUfidInsert hs t flow env
      .ok (0, t)
    else .ok (0, t)

/-- The part of `ovs_flow_tbl_remove` for flows with a unique identifier. -/
def flowUfidRemove (t : FlowTable) (flow : Nat) : Except MemFault FlowTable :=
  if (t.flows flow).id.isUfid then do
    let links ← del t.ufid_links (flow, t.ufid_ti.node_ver)
    .ok { t with ufid_links := links, ufid_count := t.ufid_count - 1 }
  else .ok t

/-- `ovs_flow_tbl_remove`. -/
def ovsFlowTblRemove (t : FlowTable) (flow : Nat) (array_alloc : Bool) :
    Except MemFault FlowTable :=
  if t.count = 0 then .error .bug
  else do
    let links ← del t.links (flow, t.ti.node_ver)
    let t ← flowUfidRemove { t with links := links, count := t.count - 1 } flow
    flowMaskRemove t (t.flows flow).mask array_alloc

/-! ## Initialization and flush -/

/-- The inner loop of `table_instance_destroy`: unlink the flows of a chain, from a node on. -/
def destroyChain (isUfid : Nat → Bool) (ufid_ver : Bool) :
    Nat → Option FlowNode → Links BucketHead FlowNode × Links BucketHead FlowNode →
      Except MemFault (Links BucketHead FlowNode × Links BucketHead FlowNode)
  | _, none, links => .ok links
  | 0, some _, _ => .error .endless
  | fuel + 1, some n, (links, ufid_links) => do
      let next := links.next n
      let links ← del links n
      let ufid_links ← if isUfid n.1 then del ufid_links (n.1, ufid_ver) else .ok ufid_links
      destroyChain isUfid ufid_ver fuel next (links, ufid_links)

/-- The outer loop: the buckets that are left. -/
def destroyBuckets (isUfid : Nat → Bool) (ti ufid_ti : TableInstance) (fuel : Nat) :
    List Nat → Links BucketHead FlowNode × Links BucketHead FlowNode →
      Except MemFault (Links BucketHead FlowNode × Links BucketHead FlowNode)
  | [], links => .ok links
  | i :: rest, links => do
      let links ← destroyChain isUfid ufid_ti.node_ver fuel (links.1.first (ti.ptr, i)) links
      destroyBuckets isUfid ti ufid_ti fuel rest links

/-- `table_instance_destroy`. -/
def tableInstanceDestroy (isUfid : Nat → Bool) (ti ufid_ti : TableInstance) (fuel : Nat)
    (links : Links BucketHead FlowNode × Links BucketHead FlowNode) :
    Except MemFault (Links BucketHead FlowNode × Links BucketHead FlowNode) :=
  if ti.keep_flows then .ok links
  else destroyBuckets isUfid ti ufid_ti fuel (List.range ti.n_buckets) links

/-- `ovs_flow_tbl_init`, when its allocations succeed. -/
def ovsFlowTblInit (seed ufid_seed : BitVec 32) : FlowTable :=
  let nowhere : Links BucketHead FlowNode := ⟨fun _ => none, fun _ => none, fun _ => none⟩
  let new := tableInstanceAlloc nowhere 0 tblMinBuckets seed
  let new_ufid := tableInstanceAlloc nowhere 1 tblMinBuckets ufid_seed
  { ti := new.1
    ufid_ti := new_ufid.1
    mask_array := { count := 0, masks := List.replicate maskArraySizeMin none }
    count := 0
    ufid_count := 0
    flows := fun _ => ⟨fun _ => 0, .unmaskedKey fun _ => 0, none, 0, 0⟩
    masks := fun _ => none
    links := new.2
    ufid_links := new_ufid.2
    next_mask := 0
    next_instance := 2 }

/-- `ovs_flow_tbl_flush`. -/
def ovsFlowTblFlush (t : FlowTable) (table_alloc ufid_alloc : Option (BitVec 32)) :
    Except MemFault (Int × FlowTable) :=
  match table_alloc, ufid_alloc with
  | some seed, some ufid_seed => do
      let new := tableInstanceAlloc t.links t.next_instance tblMinBuckets seed
      let new_ufid := tableInstanceAlloc t.ufid_links (t.next_instance + 1) tblMinBuckets ufid_seed
      let links ← tableInstanceDestroy (fun flow => (t.flows flow).id.isUfid) t.ti t.ufid_ti t.count
        (new.2, new_ufid.2)
      .ok (0, { t with
        ti := new.1
        ufid_ti := new_ufid.1
        count := 0
        ufid_count := 0
        links := links.1
        ufid_links := links.2
        next_instance := t.next_instance + 2 })
  | some _, none => .ok (enomem, { t with next_instance := t.next_instance + 1 })
  | none, _ => .ok (enomem, t)

end Hashed

end OvsDatapath.Flow
