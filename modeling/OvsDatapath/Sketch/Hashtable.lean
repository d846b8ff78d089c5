import OvsDatapath.Lib.Fault
import OvsDatapath.Lib.Runs
import OvsDatapath.Sketch.FlowKey

/-!
# The chained hash table

`hashtable.c`: `2 ^ bits` slots, each a singly linked chain of key/value nodes. A chain is the
list of its nodes from the head on; the functions below walk it the way the source walks its
pointers, and a step the source takes through a bad pointer is a fault.

`htlistRemove` is where the code goes wrong. It reads the head of the chain before it looks whether
there is one, and after freeing a matching head it goes on to read that head's `next`. On a chain
whose head exists and does not match, it is a correct removal.

Every call is compared with a finite map from keys to values (`mapStep`). The table refines the
map as long as no removal meets an empty slot or a matching head (`tableAgrees_iff`).
-/

namespace OvsDatapath.Sketch

open OvsDatapath.Lib

/-- `SUCCESS`. -/
def success : Int := 0

/-- `HT_ERR_KEY_NOT_FOUND`. -/
def htErrKeyNotFound : Int := -1

/-- `struct htlist_node`; the `next` pointer is the rest of the chain. -/
structure HtlistNode where
  key : FlowKey
  value : BitVec 32
  deriving DecidableEq, Repr

/-! ## Chains -/

/-- `htlist_insert`: append a node. -/
def htlistInsert : List HtlistNode → FlowKey → BitVec 32 → List HtlistNode
  | [], key, value => [{ key := key, value := value }]
  | p :: rest, key, value => p :: htlistInsert rest key value

/-- `htlist_get`: the value written through the out pointer, if the key is found. -/
def htlistGet : List HtlistNode → FlowKey → Option (BitVec 32)
  | [], _ => none
  | p :: rest, key => if flowKeyEqual p.key key then some p.value else htlistGet rest key

/-- The common walk of `htlist_set` and `htlist_inc`: change the value of the first node with
the key. -/
def htlistModify (f : BitVec 32 → BitVec 32) : List HtlistNode → FlowKey → Int × List HtlistNode
  | [], _ => (htErrKeyNotFound, [])
  | p :: rest, key =>
      if flowKeyEqual p.key key then (success, { p with value := f p.value } :: rest)
      else
        let r := htlistModify f rest key
        (r.1, p :: r.2)

/-- `htlist_set`. -/
def htlistSet (head : List HtlistNode) (key : FlowKey) (value : BitVec 32) :
    Int × List HtlistNode :=
  htlistModify (fun _ => value) head key

/-- `htlist_inc`. -/
def htlistInc (head : List HtlistNode) (key : FlowKey) (value : BitVec 32) :
    Int × List HtlistNode :=
  htlistModify (fun old => old + value) head key

/-- The loop of `htlist_remove`, standing at `p`: look at the node after it. -/
def htlistRemoveLoop (p : HtlistNode) : List HtlistNode → FlowKey → Int × List HtlistNode
  | [], _ => (htErrKeyNotFound, [p])
  | q :: rest, key =>
      if flowKeyEqual q.key key then (success, p :: rest)
      else
        let r := htlistRemoveLoop q rest key
        (r.1, p :: r.2)

/-- `htlist_remove`. The head is read unconditionally, so an empty chain is a null dereference. A
matching head is unlinked and freed, and then the loop starts with a read of its `next`. -/
def htlistRemove : List HtlistNode → FlowKey → Except MemFault (Int × List HtlistNode)
  | [], _ => .error .nullDeref
  | p :: rest, key =>
      if flowKeyEqual p.key key then .error .useAfterFree
      else .ok (htlistRemoveLoop p rest key)

/-! ## The table -/

/-- `slot_count`: the `int` value `1 << bits`, converted to `size_t`. -/
def slotCount (bits : Nat) : Nat := ((1#32 <<< bits).signExtend 64).toNat

theorem slotCount_eq {bits : Nat} (hbits : bits ≤ 30) : slotCount bits = 2 ^ bits := by
  have hall : ∀ b : Fin 31, slotCount b = 2 ^ (b : Nat) := by decide
  exact hall ⟨bits, by omega⟩

/-- For 31 bits the shifted `int` is negative, and the slot count is no size an array can have. -/
example : slotCount 31 = 2 ^ 64 - 2 ^ 31 := by decide

/-- `struct hash_table`. Every hash of a key is the index of a slot. -/
structure HashTable where
  slot_count : Nat
  bits : Nat
  data : Vector (List HtlistNode) slot_count
  hash_lt : ∀ key, (flowKeyHash key bits).toNat < slot_count

/-- `new_hash_table`, for `bits` from 1 to 31. With 31 bits no allocator can serve the
`8 * slot_count` bytes, and the first store of the loop goes through the null pointer. -/
def newHashTable (bits : Nat) : Except MemFault HashTable :=
  if h : bits ≤ 30 then
    .ok
      { slot_count := slotCount bits
        bits := bits
        data := Vector.replicate _ []
        hash_lt := fun key => slotCount_eq h ▸ flowKeyHash_lt key (by omega) }
  else .error .nullDeref

/-- The slot of a key. -/
def HashTable.slot (htable : HashTable) (key : FlowKey) : Fin htable.slot_count :=
  ⟨(flowKeyHash key htable.bits).toNat, htable.hash_lt key⟩

/-- The chain of a key's slot. -/
def HashTable.chain (htable : HashTable) (key : FlowKey) : List HtlistNode :=
  htable.data[htable.slot key]

/-- The table with another chain in a key's slot. -/
def HashTable.setChain (htable : HashTable) (key : FlowKey) (chain : List HtlistNode) : HashTable :=
  { htable with data := htable.data.set (htable.slot key) chain }

/-- `hash_table_insert`. -/
def hashTableInsert (htable : HashTable) (key : FlowKey) (value : BitVec 32) : HashTable :=
  htable.setChain key (htlistInsert (htable.chain key) key value)

/-- `hash_table_get`. -/
def hashTableGet (htable : HashTable) (key : FlowKey) : Option (BitVec 32) :=
  htlistGet (htable.chain key) key

/-- `hash_table_set`. -/
def hashTableSet (htable : HashTable) (key : FlowKey) (value : BitVec 32) : Int × HashTable :=
  let r := htlistSet (htable.chain key) key value
  (r.1, htable.setChain key r.2)

/-- `hash_table_inc`. -/
def hashTableInc (htable : HashTable) (key : FlowKey) (value : BitVec 32) : Int × HashTable :=
  let r := htlistInc (htable.chain key) key value
  (r.1, htable.setChain key r.2)

/-- `hash_table_remove`. -/
def hashTableRemove (htable : HashTable) (key : FlowKey) : Except MemFault (Int × HashTable) :=
  match htlistRemove (htable.chain key) key with
  | .ok r => .ok (r.1, htable.setChain key r.2)
  | .error e => .error e

@[simp] theorem HashTable.setChain_slot (htable : HashTable) (key : FlowKey)
    (chain : List HtlistNode) (key' : FlowKey) :
    ((htable.setChain key chain).slot key' : Nat) = htable.slot key' := rfl

/-- Replacing a chain changes the keys of that slot only. -/
theorem HashTable.chain_setChain (htable : HashTable) (key : FlowKey) (chain : List HtlistNode)
    (key' : FlowKey) :
    (htable.setChain key chain).chain key' =
      if htable.slot key = htable.slot key' then chain else htable.chain key' := by
  show (htable.data.set (htable.slot key) chain)[(htable.slot key' : Nat)] = _
  rw [Vector.getElem_set]
  exact if_congr Fin.ext_iff.symm rfl rfl

/-! ## Lookup after each operation -/

theorem htlistGet_insert {chain : List HtlistNode} {key : FlowKey} {value : BitVec 32}
    (hnew : htlistGet chain key = none) (key' : FlowKey) :
    htlistGet (htlistInsert chain key value) key' =
      if key' = key then some value else htlistGet chain key' := by
  induction chain with
  | nil =>
      by_cases h : key' = key
      · simp [htlistInsert, htlistGet, h]
      · simp [htlistInsert, htlistGet, h, Ne.symm h]
  | cons p rest ih =>
      have hp : p.key ≠ key := by
        intro hp
        simp [htlistGet, hp] at hnew
      have hrest : htlistGet rest key = none := by simpa [htlistGet, hp] using hnew
      by_cases hpk : p.key = key'
      · have hne : key' ≠ key := fun h => hp (hpk.trans h)
        simp [htlistInsert, htlistGet, hpk, hne]
      · simp only [htlistInsert, htlistGet, flowKeyEqual_iff, hpk, if_false, ih hrest]

theorem htlistGet_modify (f : BitVec 32 → BitVec 32) (chain : List HtlistNode) (key key' : FlowKey) :
    htlistGet (htlistModify f chain key).2 key' =
      if key' = key then (htlistGet chain key).map f else htlistGet chain key' := by
  induction chain with
  | nil => simp [htlistModify, htlistGet]
  | cons p rest ih =>
      by_cases hp : p.key = key
      · by_cases h : key' = key
        · simp [htlistModify, htlistGet, hp, h]
        · simp [htlistModify, htlistGet, hp, h, Ne.symm h]
      · by_cases h : key' = key
        · subst h; simp [htlistModify, htlistGet, hp, ih]
        · simp [htlistModify, htlistGet, hp, h, ih]

/-- Set and increment succeed exactly for the keys of the chain. -/
theorem htlistModify_code (f : BitVec 32 → BitVec 32) (chain : List HtlistNode) (key : FlowKey) :
    (htlistModify f chain key).1 =
      if (htlistGet chain key).isSome then success else htErrKeyNotFound := by
  induction chain with
  | nil => rfl
  | cons p rest ih => by_cases hp : p.key = key <;> simp [htlistModify, htlistGet, hp, ih]

theorem htlistModify_keys (f : BitVec 32 → BitVec 32) (chain : List HtlistNode) (key : FlowKey) :
    (htlistModify f chain key).2.map HtlistNode.key = chain.map HtlistNode.key := by
  induction chain with
  | nil => rfl
  | cons p rest ih => by_cases hp : p.key = key <;> simp [htlistModify, hp, ih]

theorem htlistInsert_keys (chain : List HtlistNode) (key : FlowKey) (value : BitVec 32) :
    (htlistInsert chain key value).map HtlistNode.key = chain.map HtlistNode.key ++ [key] := by
  induction chain with
  | nil => rfl
  | cons p rest ih => simp [htlistInsert, ih]

/-- A key is found exactly when a node of its chain carries it. -/
theorem htlistGet_eq_none_iff {chain : List HtlistNode} {key : FlowKey} :
    htlistGet chain key = none ↔ key ∉ chain.map HtlistNode.key := by
  induction chain with
  | nil => simp [htlistGet]
  | cons p rest ih =>
      by_cases hp : p.key = key
      · simp [htlistGet, hp]
      · simp [htlistGet, hp, Ne.symm hp, ih]

/-- Behind a head that does not match, the loop of the removal takes out the first node with the
key. -/
theorem htlistRemoveLoop_spec {p : HtlistNode} {rest : List HtlistNode} {key : FlowKey}
    (hp : p.key ≠ key) (hnodup : ((p :: rest).map HtlistNode.key).Nodup) :
    (htlistRemoveLoop p rest key).1 =
        (if (htlistGet (p :: rest) key).isSome then success else htErrKeyNotFound) ∧
      (htlistRemoveLoop p rest key).2.map HtlistNode.key =
        ((p :: rest).map HtlistNode.key).erase key ∧
      ∀ key', htlistGet (htlistRemoveLoop p rest key).2 key' =
        if key' = key then none else htlistGet (p :: rest) key' := by
  induction rest generalizing p with
  | nil =>
      refine ⟨by simp [htlistRemoveLoop, htlistGet, hp], by simp [htlistRemoveLoop, hp], ?_⟩
      intro key'
      by_cases h : key' = key
      · subst h; simp [htlistRemoveLoop, htlistGet, hp]
      · simp [htlistRemoveLoop, h]
  | cons q rest ih =>
      have hnodup' : ((q :: rest).map HtlistNode.key).Nodup := (List.nodup_cons.mp hnodup).2
      by_cases hq : q.key = key
      · -- `q` is the node; no later node carries the key
        have hlater : htlistGet rest key = none := by
          rw [htlistGet_eq_none_iff, ← hq]
          exact (List.nodup_cons.mp hnodup').1
        refine ⟨by simp [htlistRemoveLoop, htlistGet, hp, hq], ?_, ?_⟩
        · simp [htlistRemoveLoop, hp, hq]
        · intro key'
          by_cases h : key' = key
          · subst h; simp [htlistRemoveLoop, htlistGet, hp, hq, hlater]
          · simp [htlistRemoveLoop, htlistGet, hq, h, Ne.symm h]
      · obtain ⟨hcode, hkeys, hget⟩ := ih hq hnodup'
        refine ⟨?_, ?_, ?_⟩
        · simp only [htlistRemoveLoop, flowKeyEqual_iff, hq, if_false, hcode]
          simp [htlistGet, hp]
        · simp only [htlistRemoveLoop, flowKeyEqual_iff, hq, if_false, List.map_cons, hkeys]
          simp [List.erase_cons, hp]
        · intro key'
          simp only [htlistRemoveLoop, flowKeyEqual_iff, hq, if_false]
          rw [htlistGet, htlistGet]
          by_cases hpk : p.key = key'
          · subst hpk; simp [hp]
          · simp only [flowKeyEqual_iff, hpk, if_false, hget key']

/-! ## Lookup after a call on the whole table -/

/-- No chain carries a key twice, and every node is in the chain of its own key. -/
structure HashTable.WellFormed (htable : HashTable) : Prop where
  nodup : ∀ key, ((htable.chain key).map HtlistNode.key).Nodup
  inSlot : ∀ key, ∀ key' ∈ (htable.chain key).map HtlistNode.key, htable.slot key' = htable.slot key

theorem HashTable.chain_eq_of_slot {htable : HashTable} {key key' : FlowKey}
    (h : htable.slot key = htable.slot key') : htable.chain key = htable.chain key' := by
  simp only [HashTable.chain, h]

/-- A lookup after a chain of the table was replaced by one with other bindings. -/
theorem hashTableGet_setChain {htable : HashTable} {key : FlowKey} {chain : List HtlistNode}
    {f : Option (BitVec 32)}
    (hchain : ∀ key', htlistGet chain key' =
      if key' = key then f else htlistGet (htable.chain key) key') (key' : FlowKey) :
    hashTableGet (htable.setChain key chain) key' =
      if key' = key then f else hashTableGet htable key' := by
  rw [hashTableGet, HashTable.chain_setChain]
  by_cases hslot : htable.slot key = htable.slot key'
  · rw [if_pos hslot, hchain, HashTable.chain_eq_of_slot hslot, hashTableGet]
  · have hne : key' ≠ key := fun h => hslot (by rw [h])
    rw [if_neg hslot, if_neg hne, hashTableGet]

theorem HashTable.WellFormed.setChain {htable : HashTable} (hwf : htable.WellFormed) (key : FlowKey)
    {chain : List HtlistNode} (hnodup : (chain.map HtlistNode.key).Nodup)
    (hslot : ∀ key' ∈ chain.map HtlistNode.key, htable.slot key' = htable.slot key) :
    (htable.setChain key chain).WellFormed := by
  constructor
  · intro key₁
    rw [HashTable.chain_setChain]
    split
    · exact hnodup
    · exact hwf.nodup key₁
  · intro key₁ key₂ hmem
    rw [HashTable.chain_setChain] at hmem
    split at hmem
    case isTrue h => exact (hslot key₂ hmem).trans h
    case isFalse => exact hwf.inSlot key₁ key₂ hmem

/-- A key that occurs in some chain is found. -/
theorem HashTable.WellFormed.get_of_mem {htable : HashTable} (hwf : htable.WellFormed)
    {key key' : FlowKey} (hmem : key' ∈ (htable.chain key).map HtlistNode.key) :
    hashTableGet htable key' ≠ none := by
  rw [hashTableGet, HashTable.chain_eq_of_slot (hwf.inSlot key key' hmem), Ne,
    htlistGet_eq_none_iff, not_not]
  exact hmem

theorem hashTableGet_insert {htable : HashTable} {key : FlowKey} {value : BitVec 32}
    (hnew : hashTableGet htable key = none) (key' : FlowKey) :
    hashTableGet (hashTableInsert htable key value) key' =
      if key' = key then some value else hashTableGet htable key' :=
  hashTableGet_setChain (htlistGet_insert hnew) key'

theorem HashTable.WellFormed.insert {htable : HashTable} (hwf : htable.WellFormed) {key : FlowKey}
    (value : BitVec 32) (hnew : hashTableGet htable key = none) :
    (hashTableInsert htable key value).WellFormed := by
  have hkey := htlistGet_eq_none_iff.mp hnew
  apply hwf.setChain
  · rw [htlistInsert_keys, List.nodup_append]
    refine ⟨hwf.nodup key, List.nodup_singleton key, ?_⟩
    rintro a ha b hb rfl
    rw [List.mem_singleton] at hb
    rw [hb] at ha
    exact hkey ha
  · intro key' hmem
    rw [htlistInsert_keys, List.mem_append, List.mem_singleton] at hmem
    rcases hmem with hmem | rfl
    · exact hwf.inSlot key key' hmem
    · rfl

theorem hashTableGet_set (htable : HashTable) (key : FlowKey) (value : BitVec 32) (key' : FlowKey) :
    hashTableGet (hashTableSet htable key value).2 key' =
      if key' = key then (hashTableGet htable key).map fun _ => value
      else hashTableGet htable key' :=
  hashTableGet_setChain (htlistGet_modify _ _ _) key'

/-- A store adds no binding. -/
theorem hashTableGet_set_eq_none {htable : HashTable} {key' : FlowKey}
    (h : hashTableGet htable key' = none) (key : FlowKey) (value : BitVec 32) :
    hashTableGet (hashTableSet htable key value).2 key' = none := by
  rw [hashTableGet_set]
  split
  case isTrue heq => rw [← heq, h, Option.map_none]
  case isFalse => exact h

theorem hashTableGet_set_ne_none {htable : HashTable} {key' : FlowKey}
    (h : hashTableGet htable key' ≠ none) (key : FlowKey) (value : BitVec 32) :
    hashTableGet (hashTableSet htable key value).2 key' ≠ none := by
  rw [hashTableGet_set]
  split
  case isTrue heq =>
    rw [← heq]
    simpa using h
  case isFalse => exact h

theorem hashTableGet_inc (htable : HashTable) (key : FlowKey) (value : BitVec 32) (key' : FlowKey) :
    hashTableGet (hashTableInc htable key value).2 key' =
      if key' = key then (hashTableGet htable key).map fun old => old + value
      else hashTableGet htable key' :=
  hashTableGet_setChain (htlistGet_modify _ _ _) key'

theorem HashTable.WellFormed.set {htable : HashTable} (hwf : htable.WellFormed) (key : FlowKey)
    (value : BitVec 32) : (hashTableSet htable key value).2.WellFormed := by
  have hkeys := htlistModify_keys (fun _ => value) (htable.chain key) key
  apply hwf.setChain key
  · exact hkeys ▸ hwf.nodup key
  · exact hkeys ▸ hwf.inSlot key

theorem HashTable.WellFormed.inc {htable : HashTable} (hwf : htable.WellFormed) (key : FlowKey)
    (value : BitVec 32) : (hashTableInc htable key value).2.WellFormed := by
  have hkeys := htlistModify_keys (fun old => old + value) (htable.chain key) key
  apply hwf.setChain key
  · exact hkeys ▸ hwf.nodup key
  · exact hkeys ▸ hwf.inSlot key

/-- The chain of the key has a head, and the head carries another key. -/
def HashTable.removeSafe (htable : HashTable) (key : FlowKey) : Bool :=
  match htable.chain key with
  | [] => false
  | p :: _ => !flowKeyEqual p.key key

/-- A removal goes wrong exactly where `removeSafe` says so. -/
theorem hashTableRemove_ok_iff {htable : HashTable} {key : FlowKey} :
    (∃ r, hashTableRemove htable key = .ok r) ↔ htable.removeSafe key = true := by
  rw [hashTableRemove, HashTable.removeSafe]
  cases hchain : htable.chain key with
  | nil => simp [htlistRemove]
  | cons p rest =>
      by_cases hp : p.key = key
      · simp [htlistRemove, hp]
      · simp [htlistRemove, hp]

/-- Where it goes right, it deletes the key's binding and no other. -/
theorem hashTableRemove_spec {htable : HashTable} {key : FlowKey} {r : Int × HashTable}
    (hwf : htable.WellFormed) (hr : hashTableRemove htable key = .ok r) :
    r.1 = (if (hashTableGet htable key).isSome then success else htErrKeyNotFound) ∧
      r.2.WellFormed ∧
      ∀ key', hashTableGet r.2 key' = if key' = key then none else hashTableGet htable key' := by
  have hnodup := hwf.nodup key
  have hslot := hwf.inSlot key
  rw [hashTableRemove] at hr
  cases hchain : htable.chain key with
  | nil => simp [hchain, htlistRemove] at hr
  | cons p rest =>
      by_cases hp : p.key = key
      · simp [hchain, htlistRemove, hp] at hr
      · rw [hchain] at hnodup hslot
        obtain ⟨hcode, hkeys, hget⟩ := htlistRemoveLoop_spec hp hnodup
        obtain rfl : ((htlistRemoveLoop p rest key).1,
            htable.setChain key (htlistRemoveLoop p rest key).2) = r := by
          simpa [hchain, htlistRemove, hp] using hr
        refine ⟨?_, ?_, ?_⟩
        · rw [hcode, hashTableGet, hchain]
        · exact hwf.setChain key (hkeys ▸ hnodup.erase key)
            (fun key' hmem => hslot key' (List.mem_of_mem_erase (hkeys ▸ hmem)))
        · exact hashTableGet_setChain (fun key' => by rw [hget, hchain])

/-! ## What holds of every stored value -/

/-- Every value in the table satisfies `p`. -/
def HashTable.AllValues (p : BitVec 32 → Prop) (htable : HashTable) : Prop :=
  ∀ key, ∀ n ∈ htable.chain key, p n.value

variable {p : BitVec 32 → Prop}

theorem htlistGet_mem {chain : List HtlistNode} {key : FlowKey} {value : BitVec 32}
    (h : htlistGet chain key = some value) : ∃ n ∈ chain, n.value = value := by
  induction chain with
  | nil => simp [htlistGet] at h
  | cons q rest ih =>
      by_cases hq : q.key = key
      · exact ⟨q, List.mem_cons_self .., by simpa [htlistGet, hq] using h⟩
      · obtain ⟨n, hn, hv⟩ := ih (by simpa [htlistGet, hq] using h)
        exact ⟨n, List.mem_cons_of_mem _ hn, hv⟩

theorem HashTable.AllValues.get {htable : HashTable} (h : htable.AllValues p) {key : FlowKey}
    {value : BitVec 32} (hget : hashTableGet htable key = some value) : p value := by
  obtain ⟨n, hn, rfl⟩ := htlistGet_mem hget
  exact h key n hn

theorem HashTable.AllValues.setChain {htable : HashTable} (h : htable.AllValues p) (key : FlowKey)
    {chain : List HtlistNode} (hchain : ∀ n ∈ chain, p n.value) :
    (htable.setChain key chain).AllValues p := by
  intro key' n hn
  rw [HashTable.chain_setChain] at hn
  split at hn
  · exact hchain n hn
  · exact h key' n hn

theorem HashTable.AllValues.insert {htable : HashTable} (h : htable.AllValues p) (key : FlowKey)
    {value : BitVec 32} (hvalue : p value) : (hashTableInsert htable key value).AllValues p := by
  apply h.setChain
  have hall := h key
  generalize htable.chain key = chain at hall
  induction chain with
  | nil => simpa [htlistInsert] using hvalue
  | cons q rest ih =>
      rw [List.forall_mem_cons] at hall
      rw [htlistInsert, List.forall_mem_cons]
      exact ⟨hall.1, ih hall.2⟩

theorem HashTable.AllValues.set {htable : HashTable} (h : htable.AllValues p) (key : FlowKey)
    {value : BitVec 32} (hvalue : p value) : (hashTableSet htable key value).2.AllValues p := by
  apply h.setChain
  have hall := h key
  generalize htable.chain key = chain at hall
  rw [htlistSet]
  induction chain with
  | nil => exact hall
  | cons q rest ih =>
      rw [List.forall_mem_cons] at hall
      by_cases hq : q.key = key
      · simp only [htlistModify, flowKeyEqual_iff, hq, if_true, List.forall_mem_cons]
        exact ⟨hvalue, hall.2⟩
      · simp only [htlistModify, flowKeyEqual_iff, hq, if_false, List.forall_mem_cons]
        exact ⟨hall.1, ih hall.2⟩

theorem mem_of_mem_htlistRemoveLoop {q : HtlistNode} {rest : List HtlistNode} {key : FlowKey}
    {n : HtlistNode} (hn : n ∈ (htlistRemoveLoop q rest key).2) : n ∈ q :: rest := by
  induction rest generalizing q with
  | nil => exact hn
  | cons q' rest ih =>
      by_cases hq : q'.key = key
      · simp only [htlistRemoveLoop, flowKeyEqual_iff, hq, if_true, List.mem_cons] at hn
        rw [List.mem_cons, List.mem_cons]
        exact hn.imp_right Or.inr
      · simp only [htlistRemoveLoop, flowKeyEqual_iff, hq, if_false, List.mem_cons] at hn
        rw [List.mem_cons]
        exact hn.imp_right ih

theorem HashTable.AllValues.remove {htable : HashTable} (h : htable.AllValues p) {key : FlowKey}
    {r : Int × HashTable} (hr : hashTableRemove htable key = .ok r) : r.2.AllValues p := by
  have hall := h key
  rw [hashTableRemove] at hr
  cases hchain : htable.chain key with
  | nil => simp [hchain, htlistRemove] at hr
  | cons q rest =>
      by_cases hq : q.key = key
      · simp [hchain, htlistRemove, hq] at hr
      · obtain rfl : ((htlistRemoveLoop q rest key).1,
            htable.setChain key (htlistRemoveLoop q rest key).2) = r := by
          simpa [hchain, htlistRemove, hq] using hr
        rw [hchain] at hall
        exact h.setChain key fun n hn => hall n (mem_of_mem_htlistRemoveLoop hn)

/-! ## The table as a finite map -/

/-- The five calls. -/
inductive HtOp where
  | insert (key : FlowKey) (value : BitVec 32)
  | get (key : FlowKey)
  | set (key : FlowKey) (value : BitVec 32)
  | inc (key : FlowKey) (value : BitVec 32)
  | remove (key : FlowKey)
  deriving DecidableEq, Repr

/-- What a call gives back: its return code (none for the `void` insert) and the value written
through its out pointer, if any. -/
structure HtAnswer where
  code : Option Int
  out : Option (BitVec 32)
  deriving DecidableEq, Repr

/-- One call on the table. -/
def hashTableStep (htable : HashTable) : HtOp → Except MemFault (HtAnswer × HashTable)
  | .insert key value => .ok (⟨none, none⟩, hashTableInsert htable key value)
  | .get key =>
      let out := hashTableGet htable key
      .ok (⟨some (if out.isSome then success else htErrKeyNotFound), out⟩, htable)
  | .set key value =>
      let r := hashTableSet htable key value
      .ok (⟨some r.1, none⟩, r.2)
  | .inc key value =>
      let r := hashTableInc htable key value
      .ok (⟨some r.1, none⟩, r.2)
  | .remove key =>
      match hashTableRemove htable key with
      | .ok r => .ok (⟨some r.1, none⟩, r.2)
      | .error e => .error e

/-- The abstract state: the bindings. -/
abbrev Bindings := FlowKey → Option (BitVec 32)

/-- The return code of a map operation on a key that has or has not a binding. -/
def foundCode (binding : Option (BitVec 32)) : Option Int :=
  some (if binding.isSome then success else htErrKeyNotFound)

/-- The five calls on a map. -/
def mapStep (m : Bindings) : HtOp → HtAnswer × Bindings
  | .insert key value => (⟨none, none⟩, Function.update m key (some value))
  | .get key => (⟨foundCode (m key), m key⟩, m)
  | .set key value =>
      (⟨foundCode (m key), none⟩, Function.update m key ((m key).map fun _ => value))
  | .inc key value =>
      (⟨foundCode (m key), none⟩, Function.update m key ((m key).map fun old => old + value))
  | .remove key => (⟨foundCode (m key), none⟩, Function.update m key none)

/-- A call answered and changed the bindings as the map does. -/
def StepAgrees (htable : HashTable) (op : HtOp) (answer : HtAnswer) (htable' : HashTable) : Prop :=
  (answer, hashTableGet htable') = mapStep (hashTableGet htable) op

/-- The caller's side: an inserted key is not present. -/
def InsertFresh (htable : HashTable) : HtOp → Prop
  | .insert key _ => hashTableGet htable key = none
  | _ => True

/-- The condition on a removal; the other calls have none. -/
def RemovalSafe (htable : HashTable) : HtOp → Prop
  | .remove key => htable.removeSafe key = true
  | _ => True

theorem bindings_ext {m m' : Bindings} {key : FlowKey} {b : Option (BitVec 32)}
    (h : ∀ key', m' key' = if key' = key then b else m key') : m' = Function.update m key b := by
  funext key'
  rw [h key', Function.update_apply]

/-- The calls other than a removal always agree with the map, and a removal does where it is safe. -/
theorem step_agrees_iff {htable : HashTable} (hwf : htable.WellFormed) {op : HtOp}
    (hfresh : InsertFresh htable op) :
    (∃ answer htable', hashTableStep htable op = .ok (answer, htable') ∧
      StepAgrees htable op answer htable') ↔ RemovalSafe htable op := by
  cases op with
  | insert key value =>
      refine iff_of_true ⟨_, _, rfl, ?_⟩ trivial
      exact Prod.ext rfl (bindings_ext (hashTableGet_insert hfresh))
  | get key => exact iff_of_true ⟨_, _, rfl, rfl⟩ trivial
  | set key value =>
      refine iff_of_true ⟨_, _, rfl, ?_⟩ trivial
      refine Prod.ext ?_ (bindings_ext (hashTableGet_set htable key value))
      exact congrArg (fun c => HtAnswer.mk (some c) none) (htlistModify_code ..)
  | inc key value =>
      refine iff_of_true ⟨_, _, rfl, ?_⟩ trivial
      refine Prod.ext ?_ (bindings_ext (hashTableGet_inc htable key value))
      exact congrArg (fun c => HtAnswer.mk (some c) none) (htlistModify_code ..)
  | remove key =>
      rw [RemovalSafe, ← hashTableRemove_ok_iff]
      constructor
      · rintro ⟨answer, htable', hok, -⟩
        cases hrem : hashTableRemove htable key with
        | ok r => exact ⟨r, rfl⟩
        | error e => simp [hashTableStep, hrem] at hok
      · rintro ⟨r, hrem⟩
        obtain ⟨hcode, -, hget⟩ := hashTableRemove_spec hwf hrem
        refine ⟨⟨some r.1, none⟩, r.2, by simp only [hashTableStep, hrem], ?_⟩
        refine Prod.ext ?_ (bindings_ext hget)
        exact congrArg (fun c => HtAnswer.mk (some c) none) hcode

theorem hashTableStep_wellFormed {htable htable' : HashTable} (hwf : htable.WellFormed) {op : HtOp}
    (hfresh : InsertFresh htable op) {answer : HtAnswer}
    (hok : hashTableStep htable op = .ok (answer, htable')) : htable'.WellFormed := by
  cases op with
  | insert key value =>
      cases hok
      exact hwf.insert value hfresh
  | get key =>
      cases hok
      exact hwf
  | set key value =>
      cases hok
      exact hwf.set key value
  | inc key value =>
      cases hok
      exact hwf.inc key value
  | remove key =>
      cases hrem : hashTableRemove htable key with
      | error e => simp [hashTableStep, hrem] at hok
      | ok r =>
          simp only [hashTableStep, hrem] at hok
          cases hok
          exact (hashTableRemove_spec hwf hrem).2.1

/-- Every call of a run on a new table succeeds and agrees with a map that is empty at first. -/
def TableAgrees (bits : Nat) (ops : List HtOp) : Prop :=
  ∃ htable, newHashTable bits = .ok htable ∧ (∀ key, hashTableGet htable key = none) ∧
    RunHolds hashTableStep StepAgrees htable ops

/-- A condition holds at every call of a run on a new table. -/
def TableRunMeets (bits : Nat) (cond : HashTable → HtOp → Prop) (ops : List HtOp) : Prop :=
  ∀ htable, newHashTable bits = .ok htable → RunMeets hashTableStep cond htable ops

theorem newHashTable_chain {bits : Nat} {htable : HashTable} (h : newHashTable bits = .ok htable)
    (key : FlowKey) : htable.chain key = [] := by
  rw [newHashTable] at h
  split at h
  · cases h
    simp [HashTable.chain]
  · cases h

theorem newHashTable_get {bits : Nat} {htable : HashTable} (h : newHashTable bits = .ok htable)
    (key : FlowKey) : hashTableGet htable key = none := by
  rw [hashTableGet, newHashTable_chain h, htlistGet]

theorem newHashTable_wellFormed {bits : Nat} {htable : HashTable}
    (h : newHashTable bits = .ok htable) : htable.WellFormed := by
  constructor
  · intro key
    rw [newHashTable_chain h]
    exact List.nodup_nil
  · intro key key' hmem
    rw [newHashTable_chain h] at hmem
    simp at hmem

theorem newHashTable_allValues {bits : Nat} {htable : HashTable}
    (h : newHashTable bits = .ok htable) : htable.AllValues p := by
  intro key n hn
  rw [newHashTable_chain h] at hn
  simp at hn

/-- **The table refines a map** exactly in the runs whose removals all find a head with another
key in the slot; and no run on a 31-bit table does. -/
theorem tableAgrees_iff {bits : Nat} {ops : List HtOp} (_hlo : 1 ≤ bits) (_hhi : bits ≤ 31)
    (hfresh : TableRunMeets bits InsertFresh ops) :
    TableAgrees bits ops ↔ bits ≤ 30 ∧ TableRunMeets bits RemovalSafe ops := by
  have hrun : ∀ htable, newHashTable bits = .ok htable →
      (RunHolds hashTableStep StepAgrees htable ops ↔
        RunMeets hashTableStep RemovalSafe htable ops) := by
    intro htable hnew
    refine runHolds_iff_runMeets InsertFresh HashTable.WellFormed
      (fun t op hwf hop => step_agrees_iff hwf hop) ?_ (newHashTable_wellFormed hnew)
      (hfresh htable hnew)
    intro t op answer t' hwf hop hok _
    exact hashTableStep_wellFormed hwf hop hok
  constructor
  · rintro ⟨htable, hnew, -, hholds⟩
    refine ⟨?_, ?_⟩
    · by_contra hbits
      simp [newHashTable, hbits] at hnew
    · intro htable' hnew'
      obtain rfl : htable = htable' := Except.ok.inj (hnew.symm.trans hnew')
      exact (hrun htable hnew).mp hholds
  · rintro ⟨hbits, hmeets⟩
    obtain ⟨htable, hnew⟩ : ∃ htable, newHashTable bits = .ok htable :=
      ⟨_, by rw [newHashTable, dif_pos hbits]⟩
    exact ⟨htable, hnew, newHashTable_get hnew, (hrun htable hnew).mpr (hmeets htable hnew)⟩

/-- Two keys in one slot: the second can be removed, and the first keeps its binding. -/
theorem tableAgrees_remove_second :
    let k₁ : FlowKey := ⟨1, 2, 3, 4, 6⟩
    let k₂ : FlowKey := ⟨1, 2, 3, 4, 17⟩
    TableAgrees 5 [.insert k₁ 7, .insert k₂ 8, .remove k₂, .get k₁] := by
  intro k₁ k₂
  have hslot : ∀ htable : HashTable, htable.slot k₁ = htable.slot k₂ := fun _ => rfl
  have hne : k₂ ≠ k₁ := by decide
  have hne' : k₁ ≠ k₂ := by decide
  refine (tableAgrees_iff (by decide) (by decide) ?_).mpr ⟨by decide, ?_⟩
  · intro htable hnew
    refine ⟨newHashTable_get hnew k₁, ?_⟩
    rintro answer t₁ ⟨rfl, rfl⟩
    refine ⟨?_, fun _ _ _ => ⟨trivial, fun _ _ _ => ⟨trivial, fun _ _ _ => trivial⟩⟩⟩
    exact (hashTableGet_insert (newHashTable_get hnew k₁) k₂).trans
      ((if_neg hne).trans (newHashTable_get hnew k₂))
  · intro htable hnew
    refine ⟨trivial, ?_⟩
    rintro answer t₁ ⟨rfl, rfl⟩
    refine ⟨trivial, ?_⟩
    rintro answer t₂ ⟨rfl, rfl⟩
    refine ⟨?_, fun _ _ _ => ⟨trivial, fun _ _ _ => trivial⟩⟩
    simp [RemovalSafe, HashTable.removeSafe, hashTableInsert, HashTable.chain_setChain,
      newHashTable_chain hnew, htlistInsert, hslot, hne']

/-- A new key is removed from the slot it alone occupies: its node is freed and then read. -/
theorem tableAgrees_insert_remove :
    TableRunMeets 1 InsertFresh [.insert emptyKey 7, .remove emptyKey] ∧
      ¬ TableAgrees 1 [.insert emptyKey 7, .remove emptyKey] := by
  have hfresh : TableRunMeets 1 InsertFresh [.insert emptyKey 7, .remove emptyKey] := by
    intro htable hnew
    exact ⟨newHashTable_get hnew emptyKey, fun _ _ _ => ⟨trivial, fun _ _ _ => trivial⟩⟩
  refine ⟨hfresh, ?_⟩
  rintro ⟨htable, hnew, -, answer, t₁, hins, -, answer', t₂, hrem, -, -⟩
  cases hins
  simp [hashTableStep, hashTableRemove, hashTableInsert, HashTable.chain_setChain,
    newHashTable_chain hnew, htlistInsert, htlistRemove] at hrem

end OvsDatapath.Sketch
