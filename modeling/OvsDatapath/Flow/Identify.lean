import OvsDatapath.Flow.Lookup
import OvsDatapath.Flow.Match

/-!
# Finding the flow that a request means

A request names a flow by its unique identifier, or by its key. `flow_table.c` has a lookup for each:
`ovs_flow_tbl_lookup_ufid` walks a chain of the second hash table, and `ovs_flow_tbl_lookup_exact`
looks under every mask for a flow that was installed with the same unmasked key. A flow that is to be
updated is also compared with the match of the request (`ovs_flow_cmp`).
-/

namespace OvsDatapath.Flow

open OvsDatapath.Lib OvsDatapath.Lib.Hlist

/-! ## Comparing a flow with a match -/

/-- `flow_key_start`: without a tunnel, a key starts with `phy`. -/
def flowKeyStart (key : SwFlowKey) : Nat := if key.u8 323 ≠ 0 then 0 else 312

/-- `ovs_flow_cmp_unmasked_key`, for a flow with an unmasked key. -/
def ovsFlowCmpUnmaskedKey (unmasked : SwFlowKey) (m : SwFlowMatch) : Bool :=
  cmpKey unmasked m.key (flowKeyStart m.key) m.range.stop

/-- `ovs_flow_cmp`. -/
def ovsFlowCmp (flow : SwFlow) (m : SwFlowMatch) : Bool :=
  match flow.id with
  | .ufid _ => cmpKey flow.key m.key m.range.start m.range.stop
  | .unmaskedKey unmasked => ovsFlowCmpUnmaskedKey unmasked m

/-- The test of `ovs_flow_tbl_lookup_exact` on a flow. -/
def SwFlow.isExactly (flow : SwFlow) (m : SwFlowMatch) : Bool :=
  match flow.id with
  | .ufid _ => false
  | .unmaskedKey unmasked => ovsFlowCmpUnmaskedKey unmasked m

/-- `ovs_flow_cmp_ufid`. A flow without an identifier has one of length zero. -/
def ovsFlowCmpUfid (flow : SwFlow) (ufid : List (BitVec 8)) : Bool :=
  match flow.id with
  | .ufid bytes => bytes == ufid
  | .unmaskedKey _ => ufid.isEmpty

/-! ## Lookups -/

section Hashed

variable (hs : Hashes)

/-- `ovs_flow_tbl_lookup_ufid`. -/
def ovsFlowTblLookupUfid (t : FlowTable) (ufid : List (BitVec 8)) : Except MemFault (Option Nat) := do
  let hash := ufidHash hs (.ufid ufid)
  let head := findBucket hs t.ufid_ti hash
  let node ← findEntry t.ufid_links
    (fun n =>
      let flow := t.flows n.1
      flow.ufid_hash == hash && ovsFlowCmpUfid flow ufid)
    t.ufid_count (t.ufid_links.first head)
  .ok (node.map Prod.fst)

/-- The loop of `ovs_flow_tbl_lookup_exact`. -/
def lookupExactLoop (t : FlowTable) (stack : Nat → SwFlowKey) (m : SwFlowMatch) :
    List (Option Nat) → Except MemFault (Option Nat)
  | [] => .ok none
  | none :: rest => lookupExactLoop t stack m rest
  | some mask :: rest => do
      match ← maskedFlowLookup hs t (stack mask) m.key mask with
      | some flow =>
          if (t.flows flow).isExactly m then .ok (some flow) else lookupExactLoop t stack m rest
      | none => lookupExactLoop t stack m rest

/-- `ovs_flow_tbl_lookup_exact`. -/
def ovsFlowTblLookupExact (t : FlowTable) (stack : Nat → SwFlowKey) (m : SwFlowMatch) :
    Except MemFault (Option Nat) :=
  lookupExactLoop hs t stack m t.mask_array.masks

end Hashed

/-! ## What is found -/

variable {hs : Hashes} {t : FlowTable} {flows : Finset Nat} {leaked : Nat → Nat}

/-- A flow found by an identifier is in the table and has it; if none is found, no flow has it. -/
theorem ovsFlowTblLookupUfid_spec (h : TableInv hs t flows leaked) (ufid : List (BitVec 8)) :
    ∃ r, ovsFlowTblLookupUfid hs t ufid = .ok r ∧
      (∀ flow, r = some flow → flow ∈ flows ∧ (t.flows flow).id = .ufid ufid) ∧
      (r = none → ∀ flow ∈ flows, (t.flows flow).id ≠ .ufid ufid) := by
  obtain ⟨r, hok, hsome, hnone⟩ := h.identified.indexed.findEntry t.ufid_ti.node_injective
    (findBucket_isHead hs h.identified.n_pos (ufidHash hs (.ufid ufid)))
    (fun n => (t.flows n.1).ufid_hash == ufidHash hs (.ufid ufid) && ovsFlowCmpUfid (t.flows n.1) ufid)
    h.ufid_count.ge
  refine ⟨r.map Prod.fst, ?_, ?_, ?_⟩
  · show findEntry t.ufid_links _ t.ufid_count _ >>= _ = _
    rw [hok]
    rfl
  · intro flow hflow
    obtain ⟨n, rfl, rfl⟩ := Option.map_eq_some_iff.mp hflow
    obtain ⟨g, hg, -, rfl, hfound⟩ := hsome n rfl
    rw [Bool.and_eq_true] at hfound
    obtain ⟨hmem, hufid⟩ := Finset.mem_filter.mp hg
    refine ⟨hmem, ?_⟩
    have hcmp := hfound.2
    unfold FlowTable.isUfid at hufid
    unfold ovsFlowCmpUfid TableInstance.node at hcmp
    cases hid : (t.flows g).id with
    | unmaskedKey key =>
        rw [hid] at hufid
        cases hufid
    | ufid bytes =>
        rw [hid] at hcmp
        exact hid.trans (congrArg SwFlowId.ufid (beq_iff_eq.mp hcmp))
  · intro hr flow hflow hid
    have hufid : t.isUfid flow = true := by
      unfold FlowTable.isUfid
      rw [hid]
      rfl
    -- the stored hash is that of the identifier, so the flow is in the bucket that was searched
    have hhash : t.ufidHashOf flow = ufidHash hs (.ufid ufid) := by
      rw [← hid]
      exact h.ufid_hash flow hflow hufid
    have hfalse := hnone (Option.map_eq_none_iff.mp hr) flow (Finset.mem_filter.mpr ⟨hflow, hufid⟩)
      (show findBucket hs t.ufid_ti (t.ufidHashOf flow) = _ by rw [hhash])
    rw [Bool.and_eq_false_iff] at hfalse
    rcases hfalse with hne | hne
    · rw [beq_eq_false_iff_ne] at hne
      exact hne hhash
    · unfold ovsFlowCmpUfid TableInstance.node at hne
      rw [hid] at hne
      exact absurd rfl (beq_eq_false_iff_ne.mp hne)

theorem lookupExactLoop_spec (h : TableInv hs t flows leaked) (stack : Nat → SwFlowKey) (m : SwFlowMatch)
    {masks : List (Option Nat)} (hlive : ∀ p, some p ∈ masks → ∃ entry, t.masks p = some entry) :
    ∃ r, lookupExactLoop hs t stack m masks = .ok r ∧
      ∀ flow, r = some flow → flow ∈ flows ∧ (t.flows flow).isExactly m = true := by
  induction masks with
  | nil => exact ⟨none, rfl, nofun⟩
  | cons o rest ih =>
      obtain ⟨r, hok, hsome⟩ := ih fun p hp => hlive p (List.mem_cons_of_mem _ hp)
      cases o with
      | none => exact ⟨r, hok, hsome⟩
      | some mask =>
          obtain ⟨entry, hentry⟩ := hlive mask List.mem_cons_self
          obtain ⟨r₁, hok₁, hsome₁, -⟩ := maskedFlowLookup_spec h hentry (stack mask) m.key
          rw [lookupExactLoop, hok₁, ok_bind]
          cases r₁ with
          | none => exact ⟨r, hok, hsome⟩
          | some flow =>
              dsimp only
              split_ifs with hexact
              · refine ⟨some flow, rfl, ?_⟩
                intro found hfound
                obtain rfl := Option.some.inj hfound
                exact ⟨(hsome₁ flow rfl).1, hexact⟩
              · exact ⟨r, hok, hsome⟩

/-- A flow found by its unmasked key is in the table and has that key. -/
theorem ovsFlowTblLookupExact_spec (h : TableInv hs t flows leaked) (stack : Nat → SwFlowKey)
    (m : SwFlowMatch) :
    ∃ r, ovsFlowTblLookupExact hs t stack m = .ok r ∧
      ∀ flow, r = some flow → flow ∈ flows ∧ (t.flows flow).isExactly m = true :=
  lookupExactLoop_spec h stack m fun _ => h.exists_entry

end OvsDatapath.Flow
