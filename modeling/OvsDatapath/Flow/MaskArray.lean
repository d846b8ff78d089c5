import OvsDatapath.Flow.FlowTable
import Mathlib.Data.List.ReduceOption

/-!
# The mask array

Flows whose masks have the same contents share one `struct sw_flow_mask`, which the mask array
points to and which counts its users. `MasksOk` is what holds of the array and of the masks at all
times: the array points to the allocated masks, to each once, no two of them have the same contents,
and its count is right. `flowMaskInsert_spec` and `flowMaskRemove_spec` say what the two functions
that change it do to the flow, to the mask and to its reference count.
-/

namespace OvsDatapath.Flow

open OvsDatapath.Lib OvsDatapath.Lib.Hlist

/-- The array points to the allocated masks, once each, and no two have the same contents. -/
structure MasksOk (ma : MaskArray) (masks : Nat → Option MaskEntry) (next_mask : Nat) : Prop where
  live : ∀ p, p ∈ ma.masks.reduceOption ↔ (masks p).isSome
  aligned : ∀ p entry, masks p = some entry → entry.mask.Aligned
  ref_pos : ∀ p entry, masks p = some entry → 0 < entry.ref_count
  distinct : ∀ p q entry entry', masks p = some entry → masks q = some entry' →
    entry.mask = entry'.mask → p = q
  fresh : ∀ p, next_mask ≤ p → masks p = none
  nodup : ma.masks.reduceOption.Nodup
  count : ma.count = ma.masks.reduceOption.length

/-- The reference count of a mask; zero for one that does not exist. -/
def refs (masks : Nat → Option MaskEntry) (p : Nat) : Nat := ((masks p).map MaskEntry.ref_count).getD 0

variable {ma ma' : MaskArray} {masks : Nat → Option MaskEntry} {next_mask p : Nat}
variable {entry entry' : MaskEntry} {mask new : SwFlowMask} {l l' : List (Option Nat)}

theorem refs_some (h : masks p = some entry) : refs masks p = entry.ref_count := by
  rw [refs, h]
  rfl

theorem refs_none (h : masks p = none) : refs masks p = 0 := by
  rw [refs, h]
  rfl

theorem refs_update_of_ne {q : Nat} (h : q ≠ p) (o : Option MaskEntry) :
    refs (Function.update masks p o) q = refs masks q := by
  rw [refs, refs, Function.update_of_ne h]

/-! ## Finding a mask -/

/-- For masks that are zero outside their ranges, `mask_equal` compares contents. -/
theorem maskEqual_iff {a b : SwFlowMask} (ha : a.Aligned) (hb : b.Aligned) :
    maskEqual a b = true ↔ a = b := by
  constructor
  · intro h
    simp only [maskEqual, Bool.and_eq_true, beq_iff_eq, List.all_eq_true, List.mem_range] at h
    obtain ⟨⟨hstop, hstart⟩, hbytes⟩ := h
    obtain ⟨⟨astart, astop⟩, akey⟩ := a
    obtain ⟨⟨bstart, bstop⟩, bkey⟩ := b
    dsimp only at hstop hstart
    subst hstop hstart
    congr 1
    funext j
    rcases Classical.em (astart ≤ (j : Nat) ∧ (j : Nat) < astop) with hj | hj
    · have hbyte := hbytes (j - astart) (by simp only [rangeNBytes]; omega)
      have hoff : astart + ((j : Nat) - astart) = j := by omega
      simpa [hoff, SwFlowKey.u8, j.isLt] using hbyte
    · exact (ha.zero_outside j hj).trans (hb.zero_outside j hj).symm
  · rintro rfl
    simp [maskEqual]

/-- `flow_mask_find` finds the mask with the given contents, if the list has it. -/
theorem flowMaskFind_spec (mask : SwFlowMask) (hlive : ∀ p ∈ l.reduceOption, (masks p).isSome) :
    ∃ r, flowMaskFind masks mask l = .ok r ∧
      (∀ p, r = some p → ∃ entry, masks p = some entry ∧ maskEqual mask entry.mask = true) ∧
      (r = none → ∀ p ∈ l.reduceOption, ∀ entry, masks p = some entry →
        maskEqual mask entry.mask = false) := by
  induction l with
  | nil => exact ⟨none, rfl, by simp, by simp⟩
  | cons o rest ih =>
      cases o with
      | none => exact ih hlive
      | some p =>
          rw [List.reduceOption_cons_of_some, List.forall_mem_cons] at hlive
          obtain ⟨entry, hentry⟩ := Option.isSome_iff_exists.mp hlive.1
          rw [flowMaskFind, hentry]
          cases hequal : maskEqual mask entry.mask with
          | true =>
              refine ⟨some p, by simp [hequal], ?_, fun h => nomatch h⟩
              rintro q ⟨⟩
              exact ⟨entry, hentry, hequal⟩
          | false =>
              obtain ⟨r, hok, hsome, hnone⟩ := ih hlive.2
              refine ⟨r, by simpa [hequal] using hok, hsome, fun hr => ?_⟩
              rw [List.reduceOption_cons_of_some, List.forall_mem_cons]
              refine ⟨fun entry' hentry' => ?_, hnone hr⟩
              rw [hentry] at hentry'
              exact Option.some.inj hentry' ▸ hequal

/-! ## Entries of the array -/

/-- Storing into the first null entry adds one mask to those of the array. -/
theorem placeMask_spec (h : placeMask p l = some l') :
    l'.reduceOption.Perm (p :: l.reduceOption) ∧ l'.length = l.length := by
  induction l generalizing l' with
  | nil => cases h
  | cons o rest ih =>
      cases o with
      | none =>
          obtain rfl := Option.some.inj h
          exact ⟨by simp [List.reduceOption], rfl⟩
      | some q =>
          rw [placeMask, Option.map_eq_some_iff] at h
          obtain ⟨rest', hrest, rfl⟩ := h
          obtain ⟨hperm, hlen⟩ := ih hrest
          rw [List.reduceOption_cons_of_some, List.reduceOption_cons_of_some, List.length_cons, hlen]
          exact ⟨(hperm.cons q).trans (List.Perm.swap p q _), rfl⟩

/-- There is a null entry to store into if the array is not full. -/
theorem placeMask_isSome (p : Nat) (hroom : l.reduceOption.length < l.length) : ∃ l', placeMask p l = some l' := by
  induction l with
  | nil => exact absurd hroom (lt_irrefl _)
  | cons o rest ih =>
      cases o with
      | none => exact ⟨_, rfl⟩
      | some q =>
          rw [List.reduceOption_cons_of_some, List.length_cons, List.length_cons] at hroom
          obtain ⟨rest', hrest⟩ := ih (Nat.lt_of_succ_lt_succ hroom)
          exact ⟨some q :: rest', by rw [placeMask, hrest]; rfl⟩

/-- The first entry with the mask becomes null. -/
theorem tblMaskArrayDeleteMask_spec (hp : p ∈ l.reduceOption) :
    ∃ l', tblMaskArrayDeleteMask p l = .ok l' ∧ l'.reduceOption = l.reduceOption.erase p ∧
      l'.length = l.length := by
  induction l with
  | nil => cases hp
  | cons o rest ih =>
      rw [tblMaskArrayDeleteMask]
      rcases eq_or_ne o (some p) with rfl | hne
      · rw [if_pos rfl, List.reduceOption_cons_of_some, List.erase_cons_head]
        exact ⟨none :: rest, rfl, rfl, rfl⟩
      · rw [if_neg hne]
        have hprest : p ∈ rest.reduceOption := by
          rw [List.reduceOption_mem_iff, List.mem_cons] at hp
          exact List.reduceOption_mem_iff.mpr (hp.resolve_left hne.symm)
        obtain ⟨rest', hok, hred, hlen⟩ := ih hprest
        refine ⟨o :: rest', by rw [hok]; rfl, ?_, by rw [List.length_cons, hlen, List.length_cons]⟩
        cases o with
        | none => exact hred
        | some q =>
            rw [List.reduceOption_cons_of_some, List.reduceOption_cons_of_some, hred,
              List.erase_cons_tail (by simpa using hne)]

/-- An array of a new size keeps the masks, if they fit. -/
theorem tblMaskArrayRealloc_spec (ma : MaskArray) {size : Nat}
    (hfits : ma.masks.reduceOption.length ≤ max maskArraySizeMin size) :
    ∃ ma', tblMaskArrayRealloc ma size = .ok ma' ∧
      ma'.masks.reduceOption = ma.masks.reduceOption ∧
      ma'.count = ma.masks.reduceOption.length ∧ ma'.max = max maskArraySizeMin size := by
  have hfilter : (ma.masks.filter Option.isSome).reduceOption = ma.masks.reduceOption := by
    induction ma.masks with
    | nil => rfl
    | cons o rest ih =>
        cases o with
        | none => simpa using ih
        | some q => simpa using ih
  rw [List.reduceOption_length_eq] at hfits
  rw [tblMaskArrayRealloc, List.reduceOption_length_eq, if_pos hfits]
  refine ⟨_, rfl, ?_, rfl, ?_⟩
  · rw [List.reduceOption_append, List.reduceOption_replicate_none, List.append_nil, hfilter]
  · rw [MaskArray.max, List.length_append, List.length_replicate]
    omega

/-! ## Keeping the array and the masks in order -/

/-- The reference count of a mask may change, as long as it does not become zero. -/
theorem MasksOk.setRef (h : MasksOk ma masks next_mask) (hentry : masks p = some entry)
    (hmask : entry'.mask = entry.mask) (href : 0 < entry'.ref_count) :
    MasksOk ma (Function.update masks p (some entry')) next_mask := by
  -- each entry of the new memory has the contents of one at the same address in the old
  have hsame : ∀ q e, Function.update masks p (some entry') q = some e →
      ∃ e', masks q = some e' ∧ e.mask = e'.mask ∧ 0 < e.ref_count := by
    intro q e he
    rcases eq_or_ne q p with rfl | hne
    · rw [Function.update_self] at he
      obtain rfl := Option.some.inj he
      exact ⟨entry, hentry, hmask, href⟩
    · rw [Function.update_of_ne hne] at he
      exact ⟨e, he, rfl, h.ref_pos q e he⟩
  refine ⟨fun q => ?_, ?_, ?_, ?_, ?_, h.nodup, h.count⟩
  · rw [h.live q]
    rcases eq_or_ne q p with rfl | hne
    · rw [Function.update_self, hentry]
      rfl
    · rw [Function.update_of_ne hne]
  · intro q e he
    obtain ⟨e', he', heq, -⟩ := hsame q e he
    exact heq ▸ h.aligned q e' he'
  · intro q e he
    obtain ⟨-, -, -, hpos⟩ := hsame q e he
    exact hpos
  · intro q q' e₁ e₂ he₁ he₂ heq
    obtain ⟨e₁', he₁', heq₁, -⟩ := hsame q e₁ he₁
    obtain ⟨e₂', he₂', heq₂, -⟩ := hsame q' e₂ he₂
    exact h.distinct q q' e₁' e₂' he₁' he₂' (by rw [← heq₁, ← heq₂, heq])
  · intro q hq
    have hne : q ≠ p := by
      rintro rfl
      rw [h.fresh q hq] at hentry
      cases hentry
    rw [Function.update_of_ne hne]
    exact h.fresh q hq

/-- The masks may move to another array. -/
theorem MasksOk.realloc (h : MasksOk ma masks next_mask)
    (hred : ma'.masks.reduceOption = ma.masks.reduceOption)
    (hcount : ma'.count = ma.masks.reduceOption.length) : MasksOk ma' masks next_mask :=
  ⟨by rw [hred]; exact h.live, h.aligned, h.ref_pos, h.distinct, h.fresh, by rw [hred]; exact h.nodup,
    by rw [hred]; exact hcount⟩

/-- A mask with new contents may be stored into an array that is not full. -/
theorem MasksOk.add (h : MasksOk ma masks next_mask) (hroom : ma.count < ma.max)
    (haligned : entry.mask.Aligned) (href : 0 < entry.ref_count)
    (hnew : ∀ q e, masks q = some e → e.mask ≠ entry.mask) :
    MasksOk (ma.add next_mask) (Function.update masks next_mask (some entry)) (next_mask + 1) := by
  obtain ⟨l, hl⟩ := placeMask_isSome next_mask (h.count ▸ hroom)
  obtain ⟨hperm, -⟩ := placeMask_spec hl
  have hnone := h.fresh next_mask le_rfl
  have hnotin : next_mask ∉ ma.masks.reduceOption := by
    rw [h.live, hnone]
    exact Bool.false_ne_true
  -- a mask is the new one or one of the old ones
  have hcases : ∀ q e, Function.update masks next_mask (some entry) q = some e →
      (q = next_mask ∧ e = entry) ∨ (q ≠ next_mask ∧ masks q = some e) := by
    intro q e he
    rcases eq_or_ne q next_mask with rfl | hne
    · rw [Function.update_self] at he
      exact .inl ⟨rfl, (Option.some.inj he).symm⟩
    · rw [Function.update_of_ne hne] at he
      exact .inr ⟨hne, he⟩
  rw [MaskArray.add, hl]
  refine ⟨fun q => ?_, ?_, ?_, ?_, ?_, ?_, ?_⟩
  · rw [hperm.mem_iff, List.mem_cons, h.live]
    rcases eq_or_ne q next_mask with rfl | hne
    · simp
    · simp [hne]
  · intro q e he
    rcases hcases q e he with ⟨-, rfl⟩ | ⟨-, he⟩
    · exact haligned
    · exact h.aligned q e he
  · intro q e he
    rcases hcases q e he with ⟨-, rfl⟩ | ⟨-, he⟩
    · exact href
    · exact h.ref_pos q e he
  · intro q q' e e' he he' heq
    rcases hcases q e he with ⟨hq, rfl⟩ | ⟨-, hold⟩
    · rcases hcases q' e' he' with ⟨hq', -⟩ | ⟨-, hold'⟩
      · exact hq.trans hq'.symm
      · exact absurd heq.symm (hnew q' e' hold')
    · rcases hcases q' e' he' with ⟨-, rfl⟩ | ⟨-, hold'⟩
      · exact absurd heq (hnew q e hold)
      · exact h.distinct q q' e e' hold hold' heq
  · intro q hq
    rw [Function.update_of_ne (Nat.ne_of_gt (Nat.lt_of_succ_le hq))]
    exact h.fresh q (Nat.le_of_succ_le hq)
  · rw [hperm.nodup_iff, List.nodup_cons]
    exact ⟨hnotin, h.nodup⟩
  · rw [hperm.length_eq, List.length_cons, h.count]

/-- A mask may be freed when its entry becomes null. -/
theorem MasksOk.remove (h : MasksOk ma masks next_mask) (hp : p ∈ ma.masks.reduceOption)
    (hred : ma'.masks.reduceOption = ma.masks.reduceOption.erase p)
    (hcount : ma'.count = ma.count - 1) :
    MasksOk ma' (Function.update masks p none) next_mask := by
  have hold : ∀ q e, Function.update masks p none q = some e → masks q = some e := by
    intro q e he
    rcases eq_or_ne q p with rfl | hne
    · rw [Function.update_self] at he
      cases he
    · rwa [Function.update_of_ne hne] at he
  refine ⟨fun q => ?_, fun q e he => h.aligned q e (hold q e he),
    fun q e he => h.ref_pos q e (hold q e he), ?_, ?_, ?_, ?_⟩
  · rw [hred, h.nodup.mem_erase_iff, h.live]
    rcases eq_or_ne q p with rfl | hne
    · simp
    · simp [hne]
  · intro q q' e e' he he'
    exact h.distinct q q' e e' (hold q e he) (hold q' e' he')
  · intro q hq
    cases hu : Function.update masks p none q with
    | none => rfl
    | some e =>
        have := hold q e hu
        rw [h.fresh q hq] at this
        cases this
  · rw [hred]
    exact h.nodup.erase p
  · rw [hcount, hred, List.length_erase_of_mem hp, h.count]

/-! ## Insertion and removal -/

/-- The two tables agree on everything that has to do with instances. -/
structure SameInstances (t t' : FlowTable) : Prop where
  ti : t'.ti = t.ti
  ufid_ti : t'.ufid_ti = t.ufid_ti
  links : t'.links = t.links
  ufid_links : t'.ufid_links = t.ufid_links
  count : t'.count = t.count
  ufid_count : t'.ufid_count = t.ufid_count
  next_instance : t'.next_instance = t.next_instance

variable {t : FlowTable} {flow : Nat}

/-- What `flow_mask_insert` has done: the flow has got a mask with the given contents, which counts
one more user, or nothing has changed. -/
structure MaskInserted (t : FlowTable) (flow : Nat) (new : SwFlowMask) (err : Int) (t' : FlowTable) :
    Prop where
  masksOk : MasksOk t'.mask_array t'.masks t'.next_mask
  same : SameInstances t t'
  failed : err ≠ 0 → t'.flows = t.flows ∧ t'.masks = t.masks
  done : err = 0 → ∃ p entry, t'.masks = Function.update t.masks p (some entry) ∧
    t'.flows = Function.update t.flows flow { t.flows flow with mask := some p } ∧
    entry.mask = new ∧ entry.ref_count = refs t.masks p + 1 ∧
    ∀ old, t.masks p = some old → old.mask = new

/-- The mask is allocated, if that succeeds, and stored into an array that has room for it. -/
theorem maskInserted_of_add (h : MasksOk ma t.masks t.next_mask) (hroom : ma.count < ma.max)
    (hnew : new.Aligned) (hdiff : ∀ q e, t.masks q = some e → e.mask ≠ new) :
    MaskInserted t flow new 0 ({ t with
      masks := Function.update t.masks t.next_mask (some { mask := new, ref_count := 1 })
      next_mask := t.next_mask + 1
      mask_array := ma.add t.next_mask }.setFlowMask flow t.next_mask) where
  masksOk := h.add hroom hnew Nat.one_pos hdiff
  same := ⟨rfl, rfl, rfl, rfl, rfl, rfl, rfl⟩
  failed := fun h => absurd rfl h
  done := fun _ => by
    have hnone := h.fresh t.next_mask le_rfl
    refine ⟨t.next_mask, _, rfl, rfl, rfl, by rw [refs_none hnone], fun old hold => ?_⟩
    rw [hnone] at hold
    cases hold

theorem flowMaskInsert_spec (flow : Nat) (h : MasksOk t.mask_array t.masks t.next_mask) (hnew : new.Aligned)
    (mask_alloc array_alloc : Bool) :
    ∃ err t', flowMaskInsert t flow new mask_alloc array_alloc = .ok (err, t') ∧
      MaskInserted t flow new err t' := by
  obtain ⟨r, hfind, hsome, hnone⟩ :=
    flowMaskFind_spec new fun p hp => (h.live p).mp hp
  rw [flowMaskInsert, hfind, ok_bind]
  cases r with
  | some p =>
      obtain ⟨entry, hentry, hequal⟩ := hsome p rfl
      have hmask : new = entry.mask := (maskEqual_iff hnew (h.aligned p entry hentry)).mp hequal
      dsimp only
      rw [hentry]
      dsimp only
      rw [if_neg (Nat.ne_of_gt (h.ref_pos p entry hentry))]
      refine ⟨_, _, rfl, ?_⟩
      constructor
      · exact h.setRef hentry rfl (Nat.succ_pos _)
      · exact ⟨rfl, rfl, rfl, rfl, rfl, rfl, rfl⟩
      · exact fun h => absurd rfl h
      · refine fun _ => ⟨p, _, rfl, rfl, hmask.symm, by rw [refs_some hentry], fun old hold => ?_⟩
        rw [hentry] at hold
        exact Option.some.inj hold ▸ hmask.symm
  | none =>
      have hdiff : ∀ q e, t.masks q = some e → e.mask ≠ new := by
        rintro q e he rfl
        have hfalse := hnone rfl q ((h.live q).mpr (by rw [he]; rfl)) e he
        rw [(maskEqual_iff hnew hnew).mpr rfl] at hfalse
        cases hfalse
      have hfresh : MasksOk t.mask_array t.masks (t.next_mask + 1) :=
        ⟨h.live, h.aligned, h.ref_pos, h.distinct, fun p hp => h.fresh p (Nat.le_of_succ_le hp),
          h.nodup, h.count⟩
      dsimp only
      cases mask_alloc with
      | false =>
          exact ⟨_, _, rfl, h, ⟨rfl, rfl, rfl, rfl, rfl, rfl, rfl⟩, fun _ => ⟨rfl, rfl⟩,
            fun herr => absurd herr (by decide)⟩
      | true =>
          rw [if_pos rfl]
          rcases Nat.lt_or_ge t.mask_array.count t.mask_array.max with hroom | hfull
          · rw [if_neg (Nat.not_le.mpr hroom)]
            exact ⟨_, _, rfl, maskInserted_of_add h hroom hnew hdiff⟩
          · rw [if_pos hfull]
            cases array_alloc with
            | false =>
                exact ⟨_, _, rfl, hfresh, ⟨rfl, rfl, rfl, rfl, rfl, rfl, rfl⟩,
                  fun _ => ⟨rfl, rfl⟩, fun herr => absurd herr (by decide)⟩
            | true =>
                -- the array is full, and the larger one has room
                have hle : t.mask_array.masks.reduceOption.length ≤ t.mask_array.max :=
                  List.reduceOption_length_le _
                obtain ⟨ma, hok, hred, hcount, hmax⟩ := tblMaskArrayRealloc_spec
                  t.mask_array (le_max_of_le_right (hle.trans (Nat.le_add_right _ maskArraySizeMin)))
                rw [if_pos rfl, hok, ok_bind]
                refine ⟨_, _, rfl, maskInserted_of_add (h.realloc hred hcount) ?_ hnew hdiff⟩
                rw [hcount, hmax]
                simp only [maskArraySizeMin]
                omega

/-- What `flow_mask_remove` has done: the mask counts one user less, and is gone if there is none
left. -/
structure MaskRemoved (t : FlowTable) (p : Nat) (t' : FlowTable) : Prop where
  masksOk : MasksOk t'.mask_array t'.masks t'.next_mask
  same : SameInstances t t'
  flows : t'.flows = t.flows
  others : ∀ q, q ≠ p → t'.masks q = t.masks q
  contents : ∀ entry entry', t.masks p = some entry → t'.masks p = some entry' →
    entry'.mask = entry.mask
  refs : refs t'.masks p + 1 = refs t.masks p

theorem flowMaskRemove_spec (h : MasksOk t.mask_array t.masks t.next_mask)
    (hentry : t.masks p = some entry) (array_alloc : Bool) :
    ∃ t', flowMaskRemove t (some p) array_alloc = .ok t' ∧ MaskRemoved t p t' := by
  have hpos := h.ref_pos p entry hentry
  rw [flowMaskRemove]
  dsimp only
  rw [hentry]
  dsimp only
  rw [if_neg (Nat.ne_of_gt hpos)]
  rcases Nat.eq_zero_or_pos (entry.ref_count - 1) with hzero | hmore
  · -- the last reference: the mask leaves the array, which may shrink then
    have hp : p ∈ t.mask_array.masks.reduceOption := (h.live p).mpr (by rw [hentry]; rfl)
    obtain ⟨l, hok, hred, hlen⟩ := tblMaskArrayDeleteMask_spec hp
    have hremoved : MasksOk { count := t.mask_array.count - 1, masks := l }
        (Function.update t.masks p none) t.next_mask := h.remove hp hred rfl
    have hrefs : Flow.refs (Function.update t.masks p none) p + 1 = Flow.refs t.masks p := by
      rw [refs_none (Function.update_self ..), refs_some hentry]
      omega
    have hcontents : ∀ e e', t.masks p = some e → Function.update t.masks p none p = some e' →
        e'.mask = e.mask := by
      intro e e' _ he'
      rw [Function.update_self] at he'
      cases he'
    rw [if_pos hzero, hok, ok_bind]
    split
    · rename_i hshrink
      have hcount : l.reduceOption.length = t.mask_array.count - 1 := hremoved.count.symm
      have hfits : l.reduceOption.length ≤
          max maskArraySizeMin (MaskArray.max { count := t.mask_array.count - 1, masks := l } / 2) :=
        le_max_of_le_right (by omega)
      obtain ⟨ma, hokma, hredma, hcountma, -⟩ :=
        tblMaskArrayRealloc_spec { count := t.mask_array.count - 1, masks := l } hfits
      rw [hokma, ok_bind]
      exact ⟨_, rfl, hremoved.realloc hredma hcountma, ⟨rfl, rfl, rfl, rfl, rfl, rfl, rfl⟩, rfl,
        fun q hq => Function.update_of_ne hq .., hcontents, hrefs⟩
    · exact ⟨_, rfl, hremoved, ⟨rfl, rfl, rfl, rfl, rfl, rfl, rfl⟩, rfl,
        fun q hq => Function.update_of_ne hq .., hcontents, hrefs⟩
  · rw [if_neg (Nat.ne_of_gt hmore)]
    refine ⟨_, rfl, h.setRef hentry rfl hmore, ⟨rfl, rfl, rfl, rfl, rfl, rfl, rfl⟩, rfl,
      fun q hq => Function.update_of_ne hq .., ?_, ?_⟩
    · intro e e' he he'
      dsimp only at he'
      rw [Function.update_self] at he'
      rw [hentry] at he
      rw [← Option.some.inj he, ← Option.some.inj he']
    · rw [refs_some (Function.update_self ..), refs_some hentry]
      dsimp only
      omega

end OvsDatapath.Flow
