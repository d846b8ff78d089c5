import OvsDatapath.Flow.Buckets
import OvsDatapath.Flow.MaskArray

/-!
# Looking up a flow

`TableInv hs t flows leaked` is the invariant of a flow table that holds `flows`: both instances
link the right flows by the right hashes, the counters are right, the masks are in order, each flow
has a key that its mask has been applied to, and the reference count of a mask is the number of the
flows that use it plus `leaked`, the references that flows no longer in the table have left behind.

In such a table a lookup is complete and sound, whatever the buffer for the masked key holds at
first and wherever in the mask array it starts (`flowLookup_spec`).
-/

namespace OvsDatapath.Flow

open OvsDatapath.Lib OvsDatapath.Lib.Hlist

/-- The flow has a unique identifier. -/
def FlowTable.isUfid (t : FlowTable) (flow : Nat) : Bool := (t.flows flow).id.isUfid

/-- The number of flows that use a mask. -/
def users (flow : Nat → SwFlow) (flows : Finset Nat) (p : Nat) : Nat :=
  (flows.filter fun f => (flow f).mask = some p).card

/-- The flow's mask is allocated, its key has been masked with it, and its hash is up to date. -/
def FlowTable.Masked (hs : Hashes) (t : FlowTable) (flow : Nat) : Prop :=
  ∃ p entry, (t.flows flow).mask = some p ∧ t.masks p = some entry ∧
    MaskedBy (t.flows flow).key entry.mask ∧
    (t.flows flow).flow_hash = flowHash hs.jhash2 (t.flows flow).key entry.mask.range

structure TableInv (hs : Hashes) (t : FlowTable) (flows : Finset Nat) (leaked : Nat → Nat) :
    Prop where
  keyed : Holds hs t.links t.ti t.flowHashOf flows
  identified : Holds hs t.ufid_links t.ufid_ti t.ufidHashOf (flows.filter fun f => t.isUfid f)
  ti_ptr : t.ti.ptr < t.next_instance
  ufid_ptr : t.ufid_ti.ptr < t.next_instance
  count : t.count = flows.card
  ufid_count : t.ufid_count = (flows.filter fun f => t.isUfid f).card
  masksOk : MasksOk t.mask_array t.masks t.next_mask
  masked : ∀ f ∈ flows, t.Masked hs f
  ufid_hash : ∀ f ∈ flows, t.isUfid f = true → (t.flows f).ufid_hash = ufidHash hs (t.flows f).id
  refs : ∀ p, refs t.masks p = users t.flows flows p + leaked p

/-- The key, under the flow's mask, is the key of the flow. -/
def Matches (t : FlowTable) (key : SwFlowKey) (flow : Nat) : Prop :=
  ∃ p entry, (t.flows flow).mask = some p ∧ t.masks p = some entry ∧
    key.masked entry.mask.key = (t.flows flow).key

variable {hs : Hashes} {t : FlowTable} {flows : Finset Nat} {leaked : Nat → Nat}

/-- For a flow of the mask looked under, the comparison of the lookup decides the match. -/
theorem matches_iff_agreeOn (h : TableInv hs t flows leaked) {p flow : Nat} {entry : MaskEntry}
    (hentry : t.masks p = some entry) (hflow : flow ∈ flows) (hmask : (t.flows flow).mask = some p)
    (stack key : SwFlowKey) :
    Matches t key flow ↔
      AgreeOn entry.mask.range (t.flows flow).key (ovsFlowMaskKey stack key false entry.mask) := by
  have haligned := h.masksOk.aligned p entry hentry
  obtain ⟨p', entry', hmask', hentry', hmasked, -⟩ := h.masked flow hflow
  obtain rfl : p' = p := Option.some.inj (hmask'.symm.trans hmask)
  obtain rfl : entry' = entry := Option.some.inj (hentry'.symm.trans hentry)
  rw [agreeOn_maskKey_iff haligned hmasked]
  constructor
  · rintro ⟨q, e, hq, he, heq⟩
    obtain rfl : q = p' := Option.some.inj (hq.symm.trans hmask)
    obtain rfl : e = entry' := Option.some.inj (he.symm.trans hentry)
    exact heq
  · exact fun heq => ⟨p', entry', hmask, hentry, heq⟩

/-- A lookup under one mask finds a flow that matches, or none of that mask does. -/
theorem maskedFlowLookup_spec (h : TableInv hs t flows leaked) {p : Nat} {entry : MaskEntry}
    (hentry : t.masks p = some entry) (stack key : SwFlowKey) :
    ∃ r, maskedFlowLookup hs t stack key p = .ok r ∧
      (∀ f, r = some f → f ∈ flows ∧ Matches t key f) ∧
      (r = none → ∀ f ∈ flows, (t.flows f).mask = some p → ¬ Matches t key f) := by
  let masked_key := ovsFlowMaskKey stack key false entry.mask
  let hash := flowHash hs.jhash2 masked_key entry.mask.range
  let found : FlowNode → Bool := fun n =>
    (t.flows n.1).mask == some p && (t.flows n.1).flow_hash == hash &&
      cmpKey (t.flows n.1).key masked_key entry.mask.range.start entry.mask.range.stop
  have haligned := h.masksOk.aligned p entry hentry
  have hfound : ∀ f ∈ flows, found (t.ti.node f) = true ↔
      (t.flows f).mask = some p ∧ (t.flows f).flow_hash = hash ∧ Matches t key f := by
    intro f hf
    simp only [found, TableInstance.node, Bool.and_eq_true, beq_iff_eq, cmpKey_iff haligned,
      and_assoc]
    refine and_congr_right fun hmask => and_congr_right fun _ => ?_
    exact (matches_iff_agreeOn h hentry hf hmask stack key).symm
  obtain ⟨r, hok, hsome, hnone⟩ := h.keyed.indexed.findEntry t.ti.node_injective
    (findBucket_isHead hs h.keyed.n_pos hash) found h.count.ge
  refine ⟨r.map Prod.fst, ?_, ?_, ?_⟩
  · rw [maskedFlowLookup, hentry]
    show findEntry t.links found t.count (t.links.first (findBucket hs t.ti hash)) >>= _ = _
    rw [hok]
    rfl
  · intro f hf
    obtain ⟨n, rfl, rfl⟩ := Option.map_eq_some_iff.mp hf
    obtain ⟨g, hg, -, rfl, htrue⟩ := hsome n rfl
    exact ⟨hg, ((hfound g hg).mp htrue).2.2⟩
  · intro hr f hf hmask hmatch
    have hagree := (matches_iff_agreeOn h hentry hf hmask stack key).mp hmatch
    -- a matching flow has the hash looked for, so it is in the bucket that was searched
    have hhash : (t.flows f).flow_hash = hash := by
      obtain ⟨p', entry', hmask', hentry', -, hcur⟩ := h.masked f hf
      obtain rfl : p' = p := Option.some.inj (hmask'.symm.trans hmask)
      obtain rfl : entry' = entry := Option.some.inj (hentry'.symm.trans hentry)
      rw [hcur]
      exact flowHash_congr hs.jhash2 hagree
    have hfalse := hnone (Option.map_eq_none_iff.mp hr) f hf
      (show findBucket hs t.ti (t.flows f).flow_hash = _ by rw [hhash])
    rw [(hfound f hf).mpr ⟨hmask, hhash, hmatch⟩] at hfalse
    cases hfalse

/-- The loop over the masks finds a flow that matches, or none of the masks looked under has one. -/
theorem flowLookupLoop_spec (h : TableInv hs t flows leaked) (stack : Nat → SwFlowKey)
    (key : SwFlowKey) (index : Nat) {masks : List (Option Nat)}
    (hlive : ∀ p, some p ∈ masks → ∃ entry, t.masks p = some entry) (i : Nat) :
    ∃ r, flowLookupLoop hs t stack key index i masks = .ok r ∧
      (∀ f j, r = some (f, j) → f ∈ flows ∧ Matches t key f) ∧
      (r = none → ∀ k p, masks[k]? = some (some p) → i + k ≠ index →
        ∀ f ∈ flows, (t.flows f).mask = some p → ¬ Matches t key f) := by
  induction masks generalizing i with
  | nil => exact ⟨none, rfl, by simp, by simp⟩
  | cons o rest ih =>
      have hrest : ∀ p, some p ∈ rest → ∃ entry, t.masks p = some entry :=
        fun p hp => hlive p (List.mem_cons_of_mem _ hp)
      obtain ⟨r, hok, hsome, hnone⟩ := ih hrest (i + 1)
      -- what is left to show once the mask at the front is out of the way
      have hskip : r = none →
          (∀ p, o = some p → i ≠ index →
            ∀ f ∈ flows, (t.flows f).mask = some p → ¬ Matches t key f) →
          ∀ k p, (o :: rest)[k]? = some (some p) → i + k ≠ index →
            ∀ f ∈ flows, (t.flows f).mask = some p → ¬ Matches t key f := by
        intro hr hfront k p hk hne
        cases k with
        | zero => exact hfront p (Option.some.inj hk) hne
        | succ k => exact hnone hr k p hk (by rwa [Nat.add_assoc, Nat.add_comm 1 k])
      cases o with
      | none => exact ⟨r, hok, hsome, fun hr => hskip hr fun _ heq => nomatch heq⟩
      | some q =>
          rw [flowLookupLoop]
          rcases eq_or_ne i index with heq | hne
          · rw [if_pos heq]
            exact ⟨r, hok, hsome, fun hr => hskip hr fun _ _ hne => absurd heq hne⟩
          · obtain ⟨entry, hentry⟩ := hlive q (List.mem_cons_self ..)
            obtain ⟨r₁, hok₁, hsome₁, hnone₁⟩ := maskedFlowLookup_spec h hentry (stack q) key
            rw [if_neg hne, hok₁, ok_bind]
            cases r₁ with
            | some f =>
                refine ⟨some (f, i), rfl, ?_, fun hr => nomatch hr⟩
                intro f' j heq
                obtain ⟨rfl, -⟩ := Prod.mk.inj (Option.some.inj heq)
                exact hsome₁ f rfl
            | none =>
                refine ⟨r, hok, hsome, fun hr => hskip hr ?_⟩
                intro p hp _
                obtain rfl := Option.some.inj hp
                exact hnone₁ rfl

theorem TableInv.exists_entry (h : TableInv hs t flows leaked) {p : Nat}
    (hp : some p ∈ t.mask_array.masks) : ∃ entry, t.masks p = some entry :=
  Option.isSome_iff_exists.mp ((h.masksOk.live p).mp (List.reduceOption_mem_iff.mpr hp))

/-- The first attempt, at the position to start from. -/
theorem flowLookupAt_spec (h : TableInv hs t flows leaked) (stack : Nat → SwFlowKey)
    (key : SwFlowKey) (index : Nat) :
    ∃ r, flowLookupAt hs t stack key index = .ok r ∧
      (∀ f, r = some f → f ∈ flows ∧ Matches t key f) ∧
      (r = none → ∀ p, t.mask_array.masks[index]? = some (some p) →
        ∀ f ∈ flows, (t.flows f).mask = some p → ¬ Matches t key f) := by
  rw [flowLookupAt]
  cases hget : t.mask_array.masks[index]? with
  | none => exact ⟨none, rfl, by simp, by simp⟩
  | some o =>
      cases o with
      | none => exact ⟨none, rfl, by simp, by simp⟩
      | some q =>
          obtain ⟨entry, hentry⟩ := h.exists_entry (List.mem_of_getElem? hget)
          obtain ⟨r, hok, hsome, hnone⟩ := maskedFlowLookup_spec h hentry (stack q) key
          refine ⟨r, hok, hsome, fun hr p hp => ?_⟩
          obtain rfl := Option.some.inj (Option.some.inj hp)
          exact hnone hr

/-- **Lookup is complete and sound**, wherever it starts. -/
theorem flowLookup_spec (h : TableInv hs t flows leaked) (stack : Nat → SwFlowKey)
    (key : SwFlowKey) (index : Nat) :
    ∃ r, flowLookup hs t stack key index = .ok r ∧
      (∀ f, r.1 = some f → f ∈ flows ∧ Matches t key f) ∧
      (r.1 = none → ∀ f ∈ flows, ¬ Matches t key f) := by
  obtain ⟨first, hokfirst, hsomefirst, hnonefirst⟩ := flowLookupAt_spec h stack key index
  obtain ⟨r, hok, hsome, hnone⟩ :=
    flowLookupLoop_spec h stack key index (fun _ => h.exists_entry) 0
  rw [flowLookup, hokfirst, ok_bind]
  cases first with
  | some f =>
      refine ⟨(some f, index), rfl, ?_, fun hr => nomatch hr⟩
      intro f' heq
      obtain rfl := Option.some.inj heq
      exact hsomefirst f rfl
  | none =>
      dsimp only
      rw [hok, ok_bind]
      cases r with
      | some fi =>
          obtain ⟨f, i⟩ := fi
          refine ⟨(some f, i), rfl, ?_, fun hr => nomatch hr⟩
          intro f' heq
          obtain rfl := Option.some.inj heq
          exact hsome f i rfl
      | none =>
          refine ⟨(none, index), rfl, by simp, fun _ f hf => ?_⟩
          -- a flow that matched would have been found under its own mask
          obtain ⟨p, entry, hmask, hentry, -⟩ := h.masked f hf
          have hp : some p ∈ t.mask_array.masks :=
            List.reduceOption_mem_iff.mp ((h.masksOk.live p).mpr (by rw [hentry]; rfl))
          obtain ⟨k, hk⟩ := List.mem_iff_getElem?.mp hp
          rcases eq_or_ne k index with rfl | hne
          · exact hnonefirst rfl p hk f hf hmask
          · exact hnone rfl k p hk (by rwa [Nat.zero_add]) f hf hmask

end OvsDatapath.Flow
