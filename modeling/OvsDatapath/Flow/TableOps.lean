import OvsDatapath.Flow.Lookup

/-!
# Changing the flow table

Insertions, removals and flushes keep `TableInv`, whatever fails to be allocated and whenever the
instances are expanded or rehashed: one lemma for each operation (`ovsFlowTblInsert_spec`,
`ovsFlowTblRemove_spec`, `ovsFlowTblFlush_spec`), from the parts in which the source does it. The
initial table satisfies the invariant (`ovsFlowTblInit_inv`).
-/

namespace OvsDatapath.Flow

open OvsDatapath.Lib OvsDatapath.Lib.Hlist

variable {hs : Hashes} {t t' : FlowTable} {flows : Finset Nat} {leaked : Nat → Nat} {flow p : Nat}
variable {entry : MaskEntry}

/-! ## Counting the users of a mask -/

theorem users_congr {f f' : Nat → SwFlow} (h : ∀ x ∈ flows, (f' x).mask = (f x).mask) :
    users f' flows p = users f flows p := by
  rw [users, users]
  congr 1
  exact Finset.filter_congr fun x hx => by rw [h x hx]

theorem users_insert (f : Nat → SwFlow) (hflow : flow ∉ flows) (p : Nat) :
    users f (insert flow flows) p = users f flows p + if (f flow).mask = some p then 1 else 0 := by
  rw [users, Finset.filter_insert]
  split_ifs
  · rw [Finset.card_insert_of_notMem fun hmem => hflow (Finset.mem_of_mem_filter _ hmem), users]
  · rfl

theorem users_erase (f : Nat → SwFlow) (hflow : flow ∈ flows) (p : Nat) :
    users f (flows.erase flow) p + (if (f flow).mask = some p then 1 else 0) = users f flows p := by
  rw [← users_insert f (Finset.notMem_erase flow flows), Finset.insert_erase hflow]

/-! ## Insertion -/

/-- What `flow_key_insert` has done: the flow is linked by the hash of its key. -/
structure KeyInserted (hs : Hashes) (t : FlowTable) (flow : Nat) (hash : BitVec 32)
    (flows : Finset Nat) (t' : FlowTable) : Prop where
  keyed : Holds hs t'.links t'.ti t'.flowHashOf (insert flow flows)
  ti_ptr : t'.ti.ptr < t'.next_instance
  next_instance : t.next_instance ≤ t'.next_instance
  count : t'.count = t.count + 1
  flows : t'.flows = Function.update t.flows flow { t.flows flow with flow_hash := hash }
  masks : t'.masks = t.masks ∧ t'.mask_array = t.mask_array ∧ t'.next_mask = t.next_mask
  others : t'.ufid_ti = t.ufid_ti ∧ t'.ufid_links = t.ufid_links ∧ t'.ufid_count = t.ufid_count

/-- Whether the instance is expanded, rehashed or kept, it holds the same flows. -/
theorem flowKeyRehash_spec (h : Holds hs t.links t.ti t.flowHashOf flows)
    (hptr : t.ti.ptr < t.next_instance) (hcount : t.count = flows.card) (env : InsertEnv) :
    ∃ r, flowKeyRehash hs t env = .ok r ∧ ∀ new links, r = some (new, links) →
      new.ptr = t.next_instance ∧ Holds hs links new t.flowHashOf flows := by
  have hrehash : ∀ n, 0 < n → ∃ r, tableInstanceRehash hs t.flowHashOf t.ti n env.table_alloc
      t.next_instance t.count t.links = .ok r ∧ ∀ new links, r = some (new, links) →
        new.ptr = t.next_instance ∧ Holds hs links new t.flowHashOf flows := by
    intro n hn
    obtain ⟨r, hok, hr⟩ :=
      tableInstanceRehash_spec env.table_alloc h (Nat.ne_of_lt hptr) hn hcount.ge
    exact ⟨r, hok, fun new links heq => ⟨(hr new links heq).1, (hr new links heq).2.1⟩⟩
  rw [flowKeyRehash]
  split_ifs
  · exact hrehash _ (Nat.mul_pos h.n_pos (by decide))
  · exact hrehash _ h.n_pos
  · exact ⟨none, rfl, fun _ _ heq => nomatch heq⟩

theorem flowKeyInsert_spec (h : Holds hs t.links t.ti t.flowHashOf flows)
    (hptr : t.ti.ptr < t.next_instance) (hcount : t.count = flows.card) (hflow : flow ∉ flows)
    (hmask : (t.flows flow).mask = some p) (hentry : t.masks p = some entry) (env : InsertEnv) :
    ∃ t', flowKeyInsert hs t flow env = .ok t' ∧ KeyInserted hs t flow
      (flowHash hs.jhash2 (t.flows flow).key entry.mask.range) flows t' := by
  rw [flowKeyInsert, hmask, Option.bind_some, hentry]
  dsimp only
  set hash := flowHash hs.jhash2 (t.flows flow).key entry.mask.range with hhash
  set t₁ : FlowTable :=
    { t with flows := Function.update t.flows flow { t.flows flow with flow_hash := hash } } with ht₁
  have hsame : ∀ f ∈ flows, t₁.flowHashOf f = t.flowHashOf f := by
    intro f hf
    have hne : f ≠ flow := fun heq => hflow (heq ▸ hf)
    simp [ht₁, FlowTable.flowHashOf, Function.update_of_ne hne]
  have hins : Holds hs (instanceInsert hs t₁.flowHashOf t.ti flow t.links) t.ti t₁.flowHashOf
      (insert flow flows) := (h.congr_hash hsame).insert hflow
  obtain ⟨r, hok, hr⟩ := flowKeyRehash_spec
    (t := { t₁ with links := instanceInsert hs t₁.flowHashOf t.ti flow t.links, count := t.count + 1 })
    hins hptr (by rw [Finset.card_insert_of_notMem hflow, ← hcount]) env
  rw [hok, ok_bind]
  cases r with
  | none => exact ⟨_, rfl, hins, hptr, le_rfl, rfl, rfl, ⟨rfl, rfl, rfl⟩, ⟨rfl, rfl, rfl⟩⟩
  | some new =>
      obtain ⟨new, links⟩ := new
      obtain ⟨hnew, hholds⟩ := hr new links rfl
      exact ⟨_, rfl, hholds, hnew ▸ Nat.lt_succ_self _, Nat.le_succ _, rfl, rfl, ⟨rfl, rfl, rfl⟩,
        ⟨rfl, rfl, rfl⟩⟩

/-- What `flow_ufid_insert` has done: the flow is linked by the hash of its identifier. -/
structure UfidInserted (hs : Hashes) (t : FlowTable) (flow : Nat) (identified : Finset Nat)
    (t' : FlowTable) : Prop where
  identified : Holds hs t'.ufid_links t'.ufid_ti t'.ufidHashOf (insert flow identified)
  ufid_ptr : t'.ufid_ti.ptr < t'.next_instance
  next_instance : t.next_instance ≤ t'.next_instance
  ufid_count : t'.ufid_count = t.ufid_count + 1
  flows : t'.flows = Function.update t.flows flow
    { t.flows flow with ufid_hash := ufidHash hs (t.flows flow).id }
  masks : t'.masks = t.masks ∧ t'.mask_array = t.mask_array ∧ t'.next_mask = t.next_mask
  others : t'.ti = t.ti ∧ t'.links = t.links ∧ t'.count = t.count

theorem flowUfidRehash_spec {identified : Finset Nat}
    (h : Holds hs t.ufid_links t.ufid_ti t.ufidHashOf identified)
    (hptr : t.ufid_ti.ptr < t.next_instance) (hcount : identified.card ≤ t.count)
    (env : InsertEnv) :
    ∃ r, flowUfidRehash hs t env = .ok r ∧ ∀ new links, r = some (new, links) →
      new.ptr = t.next_instance ∧ Holds hs links new t.ufidHashOf identified := by
  rw [flowUfidRehash]
  split_ifs
  · obtain ⟨r, hok, hr⟩ := tableInstanceRehash_spec env.ufid_alloc h (Nat.ne_of_lt hptr)
      (Nat.mul_pos h.n_pos (by decide : 0 < 2)) hcount
    exact ⟨r, hok, fun new links heq => ⟨(hr new links heq).1, (hr new links heq).2.1⟩⟩
  · exact ⟨none, rfl, fun _ _ heq => nomatch heq⟩

theorem flowUfidInsert_spec {identified : Finset Nat}
    (h : Holds hs t.ufid_links t.ufid_ti t.ufidHashOf identified)
    (hptr : t.ufid_ti.ptr < t.next_instance) (hflow : flow ∉ identified)
    (hcount : (insert flow identified).card ≤ t.count) (env : InsertEnv) :
    ∃ t', flowUfidInsert hs t flow env = .ok t' ∧ UfidInserted hs t flow identified t' := by
  rw [flowUfidInsert]
  dsimp only
  set hash := ufidHash hs (t.flows flow).id with hhash
  set t₁ : FlowTable :=
    { t with flows := Function.update t.flows flow { t.flows flow with ufid_hash := hash } } with ht₁
  have hsame : ∀ f ∈ identified, t₁.ufidHashOf f = t.ufidHashOf f := by
    intro f hf
    have hne : f ≠ flow := fun heq => hflow (heq ▸ hf)
    simp [ht₁, FlowTable.ufidHashOf, Function.update_of_ne hne]
  have hins : Holds hs (instanceInsert hs t₁.ufidHashOf t.ufid_ti flow t.ufid_links) t.ufid_ti
      t₁.ufidHashOf (insert flow identified) := (h.congr_hash hsame).insert hflow
  obtain ⟨r, hok, hr⟩ := flowUfidRehash_spec
    (t := { t₁ with
      ufid_links := instanceInsert hs t₁.ufidHashOf t.ufid_ti flow t.ufid_links
      ufid_count := t.ufid_count + 1 })
    hins hptr hcount env
  rw [hok, ok_bind]
  cases r with
  | none => exact ⟨_, rfl, hins, hptr, le_rfl, rfl, rfl, ⟨rfl, rfl, rfl⟩, ⟨rfl, rfl, rfl⟩⟩
  | some new =>
      obtain ⟨new, links⟩ := new
      obtain ⟨hnew, hholds⟩ := hr new links rfl
      exact ⟨_, rfl, hholds, hnew ▸ Nat.lt_succ_self _, Nat.le_succ _, rfl, rfl, ⟨rfl, rfl, rfl⟩,
        ⟨rfl, rfl, rfl⟩⟩

/-- A table whose flows have not been written to, and which otherwise differs in the order of its
masks only, keeps the invariant. -/
theorem TableInv.congr (h : TableInv hs t flows leaked) (hsame : SameInstances t t')
    (hmasksOk : MasksOk t'.mask_array t'.masks t'.next_mask) (hmasks : t'.masks = t.masks)
    (hflows : ∀ f ∈ flows, t'.flows f = t.flows f) : TableInv hs t' flows leaked := by
  have hfilter : (flows.filter fun f => t'.isUfid f) = flows.filter fun f => t.isUfid f :=
    Finset.filter_congr fun f hf => by rw [FlowTable.isUfid, hflows f hf, FlowTable.isUfid]
  constructor
  · rw [hsame.links, hsame.ti]
    exact h.keyed.congr_hash fun f hf => by rw [FlowTable.flowHashOf, hflows f hf]; rfl
  · rw [hfilter, hsame.ufid_links, hsame.ufid_ti]
    refine h.identified.congr_hash fun f hf => ?_
    rw [FlowTable.ufidHashOf, hflows f (Finset.mem_of_mem_filter f hf)]
    rfl
  · rw [hsame.ti, hsame.next_instance]
    exact h.ti_ptr
  · rw [hsame.ufid_ti, hsame.next_instance]
    exact h.ufid_ptr
  · rw [hsame.count]
    exact h.count
  · rw [hfilter, hsame.ufid_count]
    exact h.ufid_count
  · exact hmasksOk
  · intro f hf
    rw [FlowTable.Masked, hflows f hf, hmasks]
    exact h.masked f hf
  · intro f hf
    rw [FlowTable.isUfid, hflows f hf]
    exact h.ufid_hash f hf
  · intro q
    rw [hmasks, users_congr fun f hf => by rw [hflows f hf]]
    exact h.refs q

/-- What an insertion has done to the flow: it has a mask of the given contents, which counts it,
and the hash of its key. The other flows are as they were. -/
structure FlowInserted (hs : Hashes) (t : FlowTable) (flow : Nat) (mask : SwFlowMask)
    (t' : FlowTable) : Prop where
  masks : ∃ p entry, t'.masks = Function.update t.masks p (some entry) ∧
    (t'.flows flow).mask = some p ∧ entry.mask = mask ∧ entry.ref_count = refs t.masks p + 1 ∧
    ∀ old, t.masks p = some old → old.mask = mask
  key : (t'.flows flow).key = (t.flows flow).key
  flow_hash : (t'.flows flow).flow_hash = flowHash hs.jhash2 (t.flows flow).key mask.range
  others : ∀ f, f ≠ flow → t'.flows f = t.flows f

theorem FlowInserted.masked {mask : SwFlowMask} (h : FlowInserted hs t flow mask t')
    (hold : ∀ f ∈ flows, t.Masked hs f) (hkey : MaskedBy (t.flows flow).key mask) :
    ∀ f ∈ insert flow flows, t'.Masked hs f := by
  obtain ⟨p, entry, hmasks, hp, rfl, -, hcontents⟩ := h.masks
  intro f hf
  rcases eq_or_ne f flow with rfl | hne
  · refine ⟨p, entry, hp, by rw [hmasks, Function.update_self], ?_, ?_⟩
    · rwa [h.key]
    · rw [h.flow_hash, h.key]
  · obtain ⟨q, e, hq, he, hmasked, hhash⟩ := hold f (Finset.mem_of_mem_insert_of_ne hf hne)
    rw [FlowTable.Masked, h.others f hne, hmasks]
    rcases eq_or_ne q p with rfl | hqp
    · -- a shared mask has the contents it had
      have hsame := hcontents e he
      exact ⟨q, entry, hq, Function.update_self .., by rwa [← hsame], by rwa [← hsame]⟩
    · exact ⟨q, e, hq, by rwa [Function.update_of_ne hqp], hmasked, hhash⟩

theorem FlowInserted.refs {mask : SwFlowMask} (h : FlowInserted hs t flow mask t')
    (hflow : flow ∉ flows) (hold : ∀ q, refs t.masks q = users t.flows flows q + leaked q) (q : Nat) :
    Flow.refs t'.masks q = users t'.flows (insert flow flows) q + leaked q := by
  obtain ⟨p, entry, hmasks, hp, -, hcount, -⟩ := h.masks
  have husers : users t'.flows flows q = users t.flows flows q :=
    users_congr fun f hf => by rw [h.others f fun heq => hflow (heq ▸ hf)]
  rw [users_insert _ hflow, husers, hp, hmasks]
  rcases eq_or_ne q p with rfl | hqp
  · rw [refs_some (Function.update_self ..), hcount, hold, if_pos rfl]
    omega
  · rw [refs_update_of_ne hqp, hold, if_neg fun heq => hqp (Option.some.inj heq).symm]
    omega

theorem FlowInserted.filter_isUfid {mask : SwFlowMask} (h : FlowInserted hs t flow mask t')
    (hflow : flow ∉ flows) :
    ((insert flow flows).filter fun f => t'.isUfid f) =
      if t'.isUfid flow = true then insert flow (flows.filter fun f => t.isUfid f)
      else flows.filter fun f => t.isUfid f := by
  have hold : (flows.filter fun f => t'.isUfid f) = flows.filter fun f => t.isUfid f := by
    refine Finset.filter_congr fun f hf => ?_
    rw [FlowTable.isUfid, h.others f fun heq => hflow (heq ▸ hf), FlowTable.isUfid]
  rw [Finset.filter_insert, hold]

/-- The first two steps of an insertion that succeeds: the flow has its mask and is linked by its
key, and nothing has happened to the identifiers. -/
structure InsertedByKey (hs : Hashes) (t : FlowTable) (flow : Nat) (mask : SwFlowMask)
    (flows : Finset Nat) (t' : FlowTable) : Prop where
  inserted : FlowInserted hs t flow mask t'
  masksOk : MasksOk t'.mask_array t'.masks t'.next_mask
  keyed : Holds hs t'.links t'.ti t'.flowHashOf (insert flow flows)
  ti_ptr : t'.ti.ptr < t'.next_instance
  count : t'.count = (insert flow flows).card
  id : (t'.flows flow).id = (t.flows flow).id
  next_instance : t.next_instance ≤ t'.next_instance
  others : t'.ufid_ti = t.ufid_ti ∧ t'.ufid_links = t.ufid_links ∧ t'.ufid_count = t.ufid_count

theorem insertedByKey {t₁ : FlowTable} {mask : SwFlowMask} (h : TableInv hs t flows leaked)
    (hflow : flow ∉ flows) (hmask : MaskInserted t flow mask 0 t₁) (env : InsertEnv) :
    ∃ t₂, flowKeyInsert hs t₁ flow env = .ok t₂ ∧ InsertedByKey hs t flow mask flows t₂ := by
  obtain ⟨p, entry, hmasks, hflows, rfl, hcount, hold⟩ := hmask.done rfl
  have hsame := hmask.same
  have hkeyed : Holds hs t₁.links t₁.ti t₁.flowHashOf flows := by
    rw [hsame.links, hsame.ti]
    refine h.keyed.congr_hash fun f hf => ?_
    have hne : f ≠ flow := fun heq => hflow (heq ▸ hf)
    rw [FlowTable.flowHashOf, hflows, Function.update_of_ne hne]
    rfl
  obtain ⟨t₂, hok, hins⟩ := flowKeyInsert_spec hkeyed
    (by rw [hsame.ti, hsame.next_instance]; exact h.ti_ptr) (hsame.count.trans h.count) hflow
    (by rw [hflows, Function.update_self]) (by rw [hmasks, Function.update_self]) env
  have hself : t₂.flows flow = { t.flows flow with
      mask := some p
      flow_hash := flowHash hs.jhash2 (t.flows flow).key entry.mask.range } := by
    rw [hins.flows, Function.update_self, hflows, Function.update_self]
  refine ⟨t₂, hok, ⟨⟨p, entry, ?_, ?_, rfl, hcount, hold⟩, ?_, ?_, ?_⟩, ?_, hins.keyed, hins.ti_ptr,
    ?_, ?_, hsame.next_instance ▸ hins.next_instance, ?_⟩
  · rw [hins.masks.1, hmasks]
  · rw [hself]
  · rw [hself]
  · rw [hself]
  · intro f hne
    rw [hins.flows, Function.update_of_ne hne, hflows, Function.update_of_ne hne]
  · rw [hins.masks.1, hins.masks.2.1, hins.masks.2.2]
    exact hmask.masksOk
  · rw [hins.count, hsame.count, h.count, Finset.card_insert_of_notMem hflow]
  · rw [hself]
  · rw [hins.others.1, hins.others.2.1, hins.others.2.2]
    exact ⟨hsame.ufid_ti, hsame.ufid_links, hsame.ufid_count⟩

/-- A flow without a unique identifier is in the table then. -/
theorem InsertedByKey.tableInv {mask : SwFlowMask} (h : TableInv hs t flows leaked)
    (hflow : flow ∉ flows) (hkey : MaskedBy (t.flows flow).key mask)
    (hins : InsertedByKey hs t flow mask flows t') (hid : t'.isUfid flow = false) :
    TableInv hs t' (insert flow flows) leaked := by
  have hfilter := hins.inserted.filter_isUfid hflow
  rw [hid, if_neg Bool.false_ne_true] at hfilter
  obtain ⟨hti, hlinks, hcount⟩ := hins.others
  constructor
  · exact hins.keyed
  · rw [hfilter, hlinks, hti]
    refine h.identified.congr_hash fun f hf => ?_
    have hne : f ≠ flow := fun heq => hflow (heq ▸ Finset.mem_of_mem_filter f hf)
    rw [FlowTable.ufidHashOf, hins.inserted.others f hne]
    rfl
  · exact hins.ti_ptr
  · rw [hti]
    exact h.ufid_ptr.trans_le hins.next_instance
  · exact hins.count
  · rw [hfilter, hcount]
    exact h.ufid_count
  · exact hins.masksOk
  · exact hins.inserted.masked h.masked hkey
  · intro f hf hufid
    rcases eq_or_ne f flow with rfl | hne
    · rw [hid] at hufid
      cases hufid
    · rw [FlowTable.isUfid, hins.inserted.others f hne] at hufid
      rw [hins.inserted.others f hne]
      exact h.ufid_hash f (Finset.mem_of_mem_insert_of_ne hf hne) hufid
  · exact hins.inserted.refs hflow h.refs

/-- A flow with one is, once it has been linked by it. -/
theorem InsertedByKey.tableInv_ufid {mask : SwFlowMask} {t₂ : FlowTable}
    (h : TableInv hs t flows leaked) (hflow : flow ∉ flows)
    (hkey : MaskedBy (t.flows flow).key mask) (hins : InsertedByKey hs t flow mask flows t₂)
    (hid : t₂.isUfid flow = true)
    (hufid : UfidInserted hs t₂ flow (flows.filter fun f => t.isUfid f) t') :
    TableInv hs t' (insert flow flows) leaked := by
  have hself : t'.flows flow =
      { t₂.flows flow with ufid_hash := ufidHash hs (t₂.flows flow).id } := by
    rw [hufid.flows, Function.update_self]
  have hother : ∀ f, f ≠ flow → t'.flows f = t₂.flows f := by
    intro f hne
    rw [hufid.flows, Function.update_of_ne hne]
  -- the second insertion sets the hash of the identifier, and nothing else of the flow
  have hinserted : FlowInserted hs t flow mask t' := by
    refine ⟨?_, ?_, ?_, fun f hne => (hother f hne).trans (hins.inserted.others f hne)⟩
    · rw [hself, hufid.masks.1]
      exact hins.inserted.masks
    · rw [hself]
      exact hins.inserted.key
    · rw [hself]
      exact hins.inserted.flow_hash
  have hid' : t'.isUfid flow = true := by
    rw [FlowTable.isUfid, hself]
    exact hid
  have hfilter := hinserted.filter_isUfid hflow
  rw [hid', if_pos rfl] at hfilter
  have hnotin : flow ∉ flows.filter fun f => t.isUfid f :=
    fun hmem => hflow (Finset.mem_of_mem_filter flow hmem)
  obtain ⟨hti, hlinks, hcount⟩ := hufid.others
  constructor
  · rw [hti, hlinks]
    refine hins.keyed.congr_hash fun f _ => ?_
    rcases eq_or_ne f flow with rfl | hne
    · rw [FlowTable.flowHashOf, hself]
      rfl
    · rw [FlowTable.flowHashOf, hother f hne]
      rfl
  · rw [hfilter]
    exact hufid.identified
  · rw [hti]
    exact hins.ti_ptr.trans_le hufid.next_instance
  · exact hufid.ufid_ptr
  · rw [hcount]
    exact hins.count
  · rw [hfilter, hufid.ufid_count, hins.others.2.2, h.ufid_count, Finset.card_insert_of_notMem hnotin]
  · rw [hufid.masks.1, hufid.masks.2.1, hufid.masks.2.2]
    exact hins.masksOk
  · exact hinserted.masked h.masked hkey
  · intro f hf hfufid
    rcases eq_or_ne f flow with rfl | hne
    · rw [hself]
    · rw [FlowTable.isUfid, hinserted.others f hne] at hfufid
      rw [hinserted.others f hne]
      exact h.ufid_hash f (Finset.mem_of_mem_insert_of_ne hf hne) hfufid
  · exact hinserted.refs hflow h.refs

/-- What an operation on one flow leaves alone: the other flows, and the key and the identifier of
this one. -/
structure OthersKept (t : FlowTable) (flow : Nat) (t' : FlowTable) : Prop where
  others : ∀ f, f ≠ flow → t'.flows f = t.flows f
  key : (t'.flows flow).key = (t.flows flow).key
  id : (t'.flows flow).id = (t.flows flow).id

/-- **Insertion.** The flow is in the table afterwards, or an allocation has failed and it is not. -/
theorem ovsFlowTblInsert_spec (h : TableInv hs t flows leaked) (hflow : flow ∉ flows)
    {mask : SwFlowMask} (haligned : mask.Aligned) (hkey : MaskedBy (t.flows flow).key mask)
    (env : InsertEnv) :
    ∃ err t', ovsFlowTblInsert hs t flow mask env = .ok (err, t') ∧
      TableInv hs t' (if err = 0 then insert flow flows else flows) leaked ∧
      OthersKept t flow t' := by
  obtain ⟨err, t₁, hok₁, hmask⟩ :=
    flowMaskInsert_spec flow h.masksOk haligned env.mask_alloc env.array_alloc
  rw [ovsFlowTblInsert, hok₁, ok_bind]
  dsimp only
  rcases ne_or_eq err 0 with herr | rfl
  · obtain ⟨hflows, hmasks⟩ := hmask.failed herr
    rw [if_pos herr]
    refine ⟨err, t₁, rfl, ?_, fun f _ => by rw [hflows], by rw [hflows], by rw [hflows]⟩
    rw [if_neg herr]
    exact h.congr hmask.same hmask.masksOk hmasks fun f _ => by rw [hflows]
  · obtain ⟨t₂, hok₂, hins⟩ := insertedByKey h hflow hmask env
    rw [if_neg (fun hne => hne rfl), hok₂, ok_bind]
    cases hid : t₂.isUfid flow with
    -- without an identifier the second instance is as it was
    | false =>
        rw [FlowTable.isUfid] at hid
        rw [hid, if_neg Bool.false_ne_true]
        exact ⟨0, t₂, rfl, hins.tableInv h hflow hkey hid, hins.inserted.others, hins.inserted.key,
          hins.id⟩
    | true =>
        obtain ⟨hti, hlinks, -⟩ := hins.others
        -- with one, the flow is inserted into the second instance, which has not changed so far
        have hidentified : Holds hs t₂.ufid_links t₂.ufid_ti t₂.ufidHashOf
            (flows.filter fun f => t.isUfid f) := by
          rw [hti, hlinks]
          refine h.identified.congr_hash fun f hf => ?_
          have hne : f ≠ flow := fun heq => hflow (heq ▸ Finset.mem_of_mem_filter f hf)
          rw [FlowTable.ufidHashOf, hins.inserted.others f hne]
          rfl
        obtain ⟨t₃, hok₃, hufid⟩ := flowUfidInsert_spec hidentified
          (by rw [hti]; exact h.ufid_ptr.trans_le hins.next_instance)
          (fun hmem => hflow (Finset.mem_of_mem_filter flow hmem))
          (by
            rw [hins.count]
            exact Finset.card_le_card (Finset.insert_subset_insert flow (Finset.filter_subset _ _)))
          env
        have hid' := hid
        rw [FlowTable.isUfid] at hid'
        rw [hid', if_pos rfl, hok₃, ok_bind]
        refine ⟨0, t₃, rfl, hins.tableInv_ufid h hflow hkey hid hufid, ?_, ?_, ?_⟩
        · intro f hne
          rw [hufid.flows, Function.update_of_ne hne]
          exact hins.inserted.others f hne
        · rw [hufid.flows, Function.update_self]
          exact hins.inserted.key
        · rw [hufid.flows, Function.update_self]
          exact hins.id

/-! ## Removal -/

/-- A flow with a unique identifier is unlinked from the instance of identifiers, too. -/
theorem flowUfidRemove_spec {identified : Finset Nat}
    (h : Holds hs t.ufid_links t.ufid_ti t.ufidHashOf identified)
    (hmem : flow ∈ identified ↔ t.isUfid flow = true) (hcount : t.ufid_count = identified.card) :
    ∃ links n, flowUfidRemove t flow = .ok { t with ufid_links := links, ufid_count := n } ∧
      Holds hs links t.ufid_ti t.ufidHashOf (identified.erase flow) ∧
      n = (identified.erase flow).card := by
  rw [flowUfidRemove]
  cases hid : t.isUfid flow with
  | true =>
      obtain ⟨links, hok, hholds, -⟩ := h.del (hmem.mpr hid)
      have hok' : del t.ufid_links (flow, t.ufid_ti.node_ver) = .ok links := hok
      rw [FlowTable.isUfid] at hid
      rw [hid, if_pos rfl, hok', ok_bind]
      refine ⟨links, _, rfl, hholds, ?_⟩
      rw [Finset.card_erase_of_mem (hmem.mpr hid), hcount]
  | false =>
      have hnotin : flow ∉ identified := fun hin => by
        rw [hmem, hid] at hin
        cases hin
      rw [FlowTable.isUfid] at hid
      rw [hid, if_neg Bool.false_ne_true, Finset.erase_eq_of_notMem hnotin]
      exact ⟨t.ufid_links, t.ufid_count, rfl, h, hcount⟩

/-- **Removal.** The flow is unlinked everywhere, and its mask has one user less. -/
theorem ovsFlowTblRemove_spec (h : TableInv hs t flows leaked) (hflow : flow ∈ flows)
    (array_alloc : Bool) :
    ∃ t', ovsFlowTblRemove t flow array_alloc = .ok t' ∧
      TableInv hs t' (flows.erase flow) leaked ∧ t'.flows = t.flows := by
  obtain ⟨p, entry, hmask, hentry, -⟩ := h.masked flow hflow
  have hpos : t.count ≠ 0 := by
    rw [h.count]
    exact Finset.card_ne_zero_of_mem hflow
  obtain ⟨links, hoklinks, hkeyed, -⟩ := h.keyed.del hflow
  have hoklinks' : del t.links (flow, t.ti.node_ver) = .ok links := hoklinks
  obtain ⟨ufid_links, n, hokufid, hidentified, hn⟩ :=
    flowUfidRemove_spec (t := { t with links := links, count := t.count - 1 }) h.identified
      (by rw [Finset.mem_filter]; exact and_iff_right hflow) h.ufid_count
  obtain ⟨t', hok', hremoved⟩ := flowMaskRemove_spec
    (t := { t with
      links := links, count := t.count - 1, ufid_links := ufid_links, ufid_count := n })
    h.masksOk hentry array_alloc
  have hsame := hremoved.same
  have hflows : t'.flows = t.flows := hremoved.flows
  have hfilter : ((flows.erase flow).filter fun f => t'.isUfid f) =
      (flows.filter fun f => t.isUfid f).erase flow := by
    rw [← Finset.filter_erase]
    exact Finset.filter_congr fun f _ => by rw [FlowTable.isUfid, hflows, FlowTable.isUfid]
  have hrefs : ∀ q, refs t'.masks q = users t'.flows (flows.erase flow) q + leaked q := by
    intro q
    have hold := h.refs q
    rw [← users_erase t.flows hflow q, hmask] at hold
    rw [hflows]
    rcases eq_or_ne q p with rfl | hne
    · have hcount : refs t'.masks q + 1 = refs t.masks q := hremoved.refs
      rw [if_pos rfl] at hold
      omega
    · have hq : refs t'.masks q = refs t.masks q := by rw [refs, hremoved.others q hne, refs]
      rw [if_neg fun heq => hne (Option.some.inj heq).symm] at hold
      omega
  refine ⟨t', ?_, ?_, hflows⟩
  · rw [ovsFlowTblRemove, if_neg hpos, hoklinks', ok_bind, hokufid, ok_bind]
    dsimp only
    rw [hmask]
    exact hok'
  constructor
  · rw [hsame.links, hsame.ti]
    exact hkeyed.congr_hash fun f _ => by rw [FlowTable.flowHashOf, hflows]; rfl
  · rw [hfilter, hsame.ufid_links, hsame.ufid_ti]
    exact hidentified.congr_hash fun f _ => by rw [FlowTable.ufidHashOf, hflows]; rfl
  · rw [hsame.ti, hsame.next_instance]
    exact h.ti_ptr
  · rw [hsame.ufid_ti, hsame.next_instance]
    exact h.ufid_ptr
  · rw [hsame.count, Finset.card_erase_of_mem hflow, ← h.count]
  · rw [hfilter, hsame.ufid_count]
    exact hn
  · exact hremoved.masksOk
  · intro f hf
    obtain ⟨q, e, hq, he, hkey, hhash⟩ := h.masked f (Finset.mem_of_mem_erase hf)
    rw [FlowTable.Masked, hflows]
    rcases eq_or_ne q p with rfl | hne
    · -- the mask of the removed flow is still there, for `f` uses it as well
      have huser : 0 < users t'.flows (flows.erase flow) q := by
        rw [users, hflows]
        exact Finset.card_pos.mpr ⟨f, Finset.mem_filter.mpr ⟨hf, hq⟩⟩
      cases he' : t'.masks q with
      | none =>
          have hzero := hrefs q
          rw [refs_none he'] at hzero
          omega
      | some e' =>
          have hcontents : e'.mask = e.mask := hremoved.contents e e' he he'
          exact ⟨q, e', hq, he', by rwa [hcontents], by rwa [hcontents]⟩
    · exact ⟨q, e, hq, (hremoved.others q hne).trans he, hkey, hhash⟩
  · intro f hf
    rw [FlowTable.isUfid, hflows]
    exact h.ufid_hash f (Finset.mem_of_mem_erase hf)
  · exact hrefs

/-! ## Initialization and flush -/

theorem users_empty (f : Nat → SwFlow) (p : Nat) : users f ∅ p = 0 := rfl

theorem ovsFlowTblInit_inv (hs : Hashes) (seed ufid_seed : BitVec 32) :
    TableInv hs (ovsFlowTblInit seed ufid_seed) ∅ fun _ => 0 := by
  constructor
  · exact tableInstanceAlloc_holds _ _ seed (by decide)
  · exact tableInstanceAlloc_holds _ _ ufid_seed (by decide)
  · exact Nat.zero_lt_two
  · exact Nat.one_lt_two
  · rfl
  · rfl
  · have hred : (ovsFlowTblInit seed ufid_seed).mask_array.masks.reduceOption = [] :=
      List.reduceOption_replicate_none
    refine ⟨fun p => ?_, fun _ _ h => (nomatch h), fun _ _ h => (nomatch h),
      fun _ _ _ _ h => (nomatch h), fun _ _ => rfl, ?_, ?_⟩
    · rw [hred]
      simp [ovsFlowTblInit]
    · rw [hred]
      exact List.nodup_nil
    · rw [hred]
      rfl
  · exact fun _ h => absurd h (Finset.notMem_empty _)
  · exact fun _ h => absurd h (Finset.notMem_empty _)
  · exact fun _ => rfl

/-- **Flush.** The table is empty afterwards, or an allocation has failed and it is as before. The
masks stay, with the references of the flows that are gone. -/
theorem ovsFlowTblFlush_spec (h : TableInv hs t flows leaked)
    (table_alloc ufid_alloc : Option (BitVec 32)) :
    ∃ err t', ovsFlowTblFlush t table_alloc ufid_alloc = .ok (err, t') ∧
      (err = 0 ↔ table_alloc.isSome ∧ ufid_alloc.isSome) ∧
      TableInv hs t' (if err = 0 then ∅ else flows) (if err = 0 then refs t.masks else leaked) ∧
      t'.flows = t.flows ∧ t'.mask_array = t.mask_array := by
  cases table_alloc with
  | none => exact ⟨enomem, t, rfl, iff_of_false (by decide) (by simp), h, rfl, rfl⟩
  | some seed =>
      cases ufid_alloc with
      -- the first of the new instances is freed again
      | none =>
          refine ⟨enomem, _, rfl, iff_of_false (by decide) (by simp), ?_, rfl, rfl⟩
          exact ⟨h.keyed, h.identified, Nat.lt_succ_of_lt h.ti_ptr, Nat.lt_succ_of_lt h.ufid_ptr,
            h.count, h.ufid_count, h.masksOk, h.masked, h.ufid_hash, h.refs⟩
      | some ufid_seed =>
          let new := tableInstanceAlloc t.links t.next_instance tblMinBuckets seed
          let new_ufid := tableInstanceAlloc t.ufid_links (t.next_instance + 1) tblMinBuckets ufid_seed
          -- new heads do not touch the chains of the old instances
          have hold : Holds hs new.2 t.ti t.flowHashOf flows :=
            h.keyed.untouched (tableInstanceAlloc_untouched (Nat.ne_of_lt h.ti_ptr))
          have holdufid : Holds hs new_ufid.2 t.ufid_ti t.ufidHashOf
              (flows.filter fun f => t.isUfid f) :=
            h.identified.untouched (tableInstanceAlloc_untouched
              (Nat.ne_of_lt (Nat.lt_succ_of_lt h.ufid_ptr)))
          obtain ⟨links, hok, hheads, hheadsufid⟩ :=
            tableInstanceDestroy_spec hold holdufid h.count.ge
          refine ⟨0, { t with
            ti := new.1
            ufid_ti := new_ufid.1
            count := 0
            ufid_count := 0
            links := links.1
            ufid_links := links.2
            next_instance := t.next_instance + 2 }, bind_eq_ok.mpr ⟨links, hok, rfl⟩,
            iff_of_true rfl ⟨rfl, rfl⟩, ?_, rfl, rfl⟩
          rw [if_pos rfl, if_pos rfl]
          constructor
          · exact hheads.alloc_holds (Nat.ne_of_lt h.ti_ptr) (by decide)
          · exact hheadsufid.alloc_holds (Nat.ne_of_lt (Nat.lt_succ_of_lt h.ufid_ptr)) (by decide)
          · exact Nat.lt_succ_of_lt (Nat.lt_succ_self _)
          · exact Nat.lt_succ_self _
          · rfl
          · rfl
          · exact h.masksOk
          · exact fun _ hf => absurd hf (Finset.notMem_empty _)
          · exact fun _ hf => absurd hf (Finset.notMem_empty _)
          · intro q
            rw [users_empty, Nat.zero_add]

/-! ## The contents of masks -/

/-- A mask that is there before and after has the same contents. -/
def SameContents (t t' : FlowTable) : Prop :=
  ∀ p entry entry', t.masks p = some entry → t'.masks p = some entry' → entry'.mask = entry.mask

theorem SameContents.of_eq (h : t'.masks = t.masks) : SameContents t t' := by
  intro p entry entry' hentry hentry'
  rw [h, hentry] at hentry'
  rw [Option.some.inj hentry']

theorem SameContents.trans_eq {t₁ t₂ : FlowTable} (h : SameContents t t₁) (heq : t₂.masks = t₁.masks) :
    SameContents t t₂ := by
  intro p entry entry' hentry hentry'
  rw [heq] at hentry'
  exact h p entry entry' hentry hentry'

/-- Linking a flow by its key leaves the masks alone. -/
theorem flowKeyInsert_masks {env : InsertEnv} (h : flowKeyInsert hs t flow env = .ok t') :
    t'.masks = t.masks ∧ (t'.flows flow).mask = (t.flows flow).mask := by
  unfold flowKeyInsert at h
  split at h
  · cases h
  · obtain ⟨r, -, h⟩ := bind_eq_ok.mp h
    cases r with
    | none =>
        obtain rfl := Except.ok.inj h
        exact ⟨rfl, by simp only [Function.update_self]⟩
    | some new =>
        obtain rfl := Except.ok.inj h
        exact ⟨rfl, by simp only [Function.update_self]⟩

/-- So does linking it by its identifier. -/
theorem flowUfidInsert_masks {env : InsertEnv} (h : flowUfidInsert hs t flow env = .ok t') :
    t'.masks = t.masks ∧ (t'.flows flow).mask = (t.flows flow).mask := by
  obtain ⟨r, -, h⟩ := bind_eq_ok.mp h
  cases r with
  | none =>
      obtain rfl := Except.ok.inj h
      exact ⟨rfl, by simp only [Function.update_self]⟩
  | some new =>
      obtain rfl := Except.ok.inj h
      exact ⟨rfl, by simp only [Function.update_self]⟩

/-- An insertion leaves the contents of masks alone, and the new flow has the mask that it was inserted
with. -/
theorem ovsFlowTblInsert_contents {env : InsertEnv} {mask : SwFlowMask} {err : Int}
    (hmasks : MasksOk t.mask_array t.masks t.next_mask) (haligned : mask.Aligned)
    (h : ovsFlowTblInsert hs t flow mask env = .ok (err, t')) :
    SameContents t t' ∧
      (err = 0 → ∃ p entry, (t'.flows flow).mask = some p ∧ t'.masks p = some entry ∧ entry.mask = mask) := by
  obtain ⟨err₁, t₁, hok₁, hinserted⟩ :=
    flowMaskInsert_spec flow hmasks haligned env.mask_alloc env.array_alloc
  rw [ovsFlowTblInsert, hok₁, ok_bind] at h
  dsimp only at h
  rcases ne_or_eq err₁ 0 with herr | rfl
  · rw [if_pos herr] at h
    obtain ⟨rfl, rfl⟩ := Prod.mk.inj (Except.ok.inj h)
    exact ⟨.of_eq (hinserted.failed herr).2, fun h => absurd h herr⟩
  · obtain ⟨p, entry, hupdate, hflows, hentry, -, hold⟩ := hinserted.done rfl
    have hcontents : SameContents t t₁ := by
      intro q e e' he he'
      rw [hupdate] at he'
      rcases eq_or_ne q p with rfl | hne
      · rw [Function.update_self] at he'
        rw [← Option.some.inj he', hentry, hold e he]
      · rw [Function.update_of_ne hne, he] at he'
        rw [Option.some.inj he']
    have hmask : (t₁.flows flow).mask = some p := by rw [hflows, Function.update_self]
    have hp : t₁.masks p = some entry := by rw [hupdate, Function.update_self]
    rw [if_neg (fun hne => hne rfl)] at h
    obtain ⟨t₂, hok₂, h⟩ := bind_eq_ok.mp h
    obtain ⟨hmasks₂, hflow₂⟩ := flowKeyInsert_masks hok₂
    split_ifs at h
    · obtain ⟨t₃, hok₃, h⟩ := bind_eq_ok.mp h
      obtain ⟨hmasks₃, hflow₃⟩ := flowUfidInsert_masks hok₃
      obtain ⟨rfl, rfl⟩ := Prod.mk.inj (Except.ok.inj h)
      refine ⟨hcontents.trans_eq (hmasks₃.trans hmasks₂), fun _ => ⟨p, entry, ?_, ?_, hentry⟩⟩
      · rw [hflow₃, hflow₂, hmask]
      · rw [hmasks₃, hmasks₂, hp]
    · obtain ⟨rfl, rfl⟩ := Prod.mk.inj (Except.ok.inj h)
      refine ⟨hcontents.trans_eq hmasks₂, fun _ => ⟨p, entry, ?_, ?_, hentry⟩⟩
      · rw [hflow₂, hmask]
      · rw [hmasks₂, hp]

/-- So does a removal. -/
theorem ovsFlowTblRemove_contents (h : TableInv hs t flows leaked) (hflow : flow ∈ flows)
    {array_alloc : Bool} (hrem : ovsFlowTblRemove t flow array_alloc = .ok t') : SameContents t t' := by
  obtain ⟨p, entry, hmask, hentry, -⟩ := h.masked flow hflow
  unfold ovsFlowTblRemove at hrem
  split at hrem
  · cases hrem
  · obtain ⟨links, -, hrem⟩ := bind_eq_ok.mp hrem
    obtain ⟨t₁, hufid, hrem⟩ := bind_eq_ok.mp hrem
    have hsame : t₁.masks = t.masks ∧ t₁.flows = t.flows ∧ t₁.mask_array = t.mask_array ∧
        t₁.next_mask = t.next_mask := by
      unfold flowUfidRemove at hufid
      split at hufid
      · obtain ⟨ufid_links, -, hufid⟩ := bind_eq_ok.mp hufid
        obtain rfl := Except.ok.inj hufid
        exact ⟨rfl, rfl, rfl, rfl⟩
      · obtain rfl := Except.ok.inj hufid
        exact ⟨rfl, rfl, rfl, rfl⟩
    obtain ⟨hmasks, hflows, harray, hnext⟩ := hsame
    have hok : MasksOk t₁.mask_array t₁.masks t₁.next_mask := by
      rw [harray, hmasks, hnext]
      exact h.masksOk
    obtain ⟨t₂, hok₂, hremoved⟩ := flowMaskRemove_spec hok (by rw [hmasks]; exact hentry) array_alloc
    rw [hflows, hmask] at hrem
    obtain rfl := Except.ok.inj (hrem.symm.trans hok₂)
    intro q e e' he he'
    rw [← hmasks] at he
    rcases eq_or_ne q p with rfl | hne
    · exact hremoved.contents e e' he he'
    · rw [hremoved.others q hne, he] at he'
      rw [Option.some.inj he']

end OvsDatapath.Flow
