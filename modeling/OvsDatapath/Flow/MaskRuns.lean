import OvsDatapath.Flow.TableRuns

/-!
# The mask array over whole runs

Every mask of a table should be there for the flows that use it: as many references as users, no
two masks with the same contents, no mask without a flow. Insertions and removals keep it so,
however the array grows and shrinks (`MasksCorrect`, `EntriesKept`).

A flush does not. `table_instance_destroy` unlinks and frees the flows without a call of
`flow_mask_remove`, so their masks stay in the array with references that nobody will give back.
`maskRun_correct_iff` says that this is all that goes wrong.
-/

namespace OvsDatapath.Flow

open OvsDatapath.Lib OvsDatapath.Lib.Hlist

/-- The masks in the array. -/
def TableState.live (s : TableState) : List Nat := s.table.mask_array.masks.reduceOption

/-- The array counts its masks, they differ, the masks of all flows are among them, and each counts
its users and has one. -/
structure MasksCorrect (s : TableState) : Prop where
  count : s.table.mask_array.count = s.live.length
  count_le : s.table.mask_array.count ≤ s.table.mask_array.max
  distinct : ∀ i j p q : Nat, s.table.mask_array.masks[i]? = some (some p) →
    s.table.mask_array.masks[j]? = some (some q) → i ≠ j →
    ∃ entry entry', s.table.masks p = some entry ∧ s.table.masks q = some entry' ∧
      maskEqual entry.mask entry'.mask = false
  used : ∀ flow ∈ s.flows, ∃ p, (s.table.flows flow).mask = some p ∧ p ∈ s.live
  refs : ∀ p ∈ s.live, ∃ entry, s.table.masks p = some entry ∧
    entry.ref_count = users s.table.flows s.flows p ∧ 0 < entry.ref_count

/-- An operation adds to the array no mask but the one of the flow inserted, takes none from it but
the one of the flow removed, and loses or doubles no other. -/
def EntriesKept (s s' : TableState) : TableOp → Prop
  | .insert flow .. => s'.live.Perm s.live ∨
      ∃ p, (s'.table.flows flow).mask = some p ∧ s'.live.Perm (p :: s.live)
  | .remove flow _ => s'.live.Perm s.live ∨
      ∃ p, (s.table.flows flow).mask = some p ∧ p ∈ s.live ∧ s'.live.Perm (s.live.erase p)
  | .flush _ _ => s'.table.mask_array = s.table.mask_array

variable {hs : Hashes} {s s' : TableState} {leaked : Nat → Nat} {op : TableOp}

theorem TableInv.live_nodup (h : TableInv hs s.table s.flows leaked) : s.live.Nodup :=
  h.masksOk.nodup

/-- The masks in the array are those with references. -/
theorem TableInv.mem_live (h : TableInv hs s.table s.flows leaked) {p : Nat} :
    p ∈ s.live ↔ 0 < users s.table.flows s.flows p + leaked p := by
  rw [TableState.live, h.masksOk.live p, ← h.refs p]
  cases hentry : s.table.masks p with
  | none =>
      rw [refs_none hentry]
      exact iff_of_false Bool.false_ne_true (Nat.lt_irrefl 0)
  | some entry =>
      rw [refs_some hentry]
      exact iff_of_true rfl (h.masksOk.ref_pos p entry hentry)

/-- A flow uses its mask. -/
theorem TableInv.users_pos (h : TableInv hs s.table s.flows leaked) {flow : Nat}
    (hflow : flow ∈ s.flows) :
    ∃ p, (s.table.flows flow).mask = some p ∧ 0 < users s.table.flows s.flows p := by
  obtain ⟨p, entry, hmask, -⟩ := h.masked flow hflow
  exact ⟨p, hmask, Finset.card_pos.mpr ⟨flow, Finset.mem_filter.mpr ⟨hflow, hmask⟩⟩⟩

/-- A mask that is in the array once is at one position. -/
theorem reduceOption_position {l : List (Option Nat)} (hnodup : l.reduceOption.Nodup) {i j p : Nat}
    (hi : l[i]? = some (some p)) (hj : l[j]? = some (some p)) : i = j := by
  induction l generalizing i j with
  | nil => cases hi
  | cons o rest ih =>
      have hmem : ∀ k, rest[k]? = some (some p) → p ∈ rest.reduceOption :=
        fun k hk => List.reduceOption_mem_iff.mpr (List.mem_of_getElem? hk)
      have htail : rest.reduceOption.Nodup := by
        cases o with
        | none => exact hnodup
        | some q => exact (List.nodup_cons.mp hnodup).2
      have hhead : o = some p → p ∉ rest.reduceOption := by
        rintro rfl
        exact (List.nodup_cons.mp hnodup).1
      cases i with
      | zero =>
          cases j with
          | zero => rfl
          | succ j => exact absurd (hmem j hj) (hhead (Option.some.inj hi))
      | succ i =>
          cases j with
          | zero => exact absurd (hmem i hi) (hhead (Option.some.inj hj))
          | succ j => exact congrArg Nat.succ (ih htail hi hj)

/-- Nothing but references left behind can be wrong with the masks. -/
theorem TableInv.masksCorrect_iff (h : TableInv hs s.table s.flows leaked) :
    MasksCorrect s ↔ ∀ p, leaked p = 0 := by
  constructor
  · intro hcorrect p
    by_cases hp : p ∈ s.live
    · obtain ⟨entry, hentry, hcount, -⟩ := hcorrect.refs p hp
      have hrefs := h.refs p
      rw [refs_some hentry] at hrefs
      omega
    · rw [h.mem_live] at hp
      omega
  · intro hzero
    have hlive : ∀ p ∈ s.live, ∃ entry, s.table.masks p = some entry :=
      fun p hp => Option.isSome_iff_exists.mp ((h.masksOk.live p).mp hp)
    constructor
    · exact h.masksOk.count
    · rw [h.masksOk.count]
      exact List.reduceOption_length_le _
    · intro i j p q hi hj hij
      obtain ⟨entry, hentry⟩ := hlive p (List.reduceOption_mem_iff.mpr (List.mem_of_getElem? hi))
      obtain ⟨entry', hentry'⟩ := hlive q (List.reduceOption_mem_iff.mpr (List.mem_of_getElem? hj))
      refine ⟨entry, entry', hentry, hentry', ?_⟩
      rw [Bool.eq_false_iff, Ne, maskEqual_iff (h.masksOk.aligned p entry hentry)
        (h.masksOk.aligned q entry' hentry')]
      intro heq
      obtain rfl := h.masksOk.distinct p q entry entry' hentry hentry' heq
      -- one mask at two positions
      exact hij (reduceOption_position h.masksOk.nodup hi hj)
    · intro flow hflow
      obtain ⟨p, hmask, hpos⟩ := h.users_pos hflow
      exact ⟨p, hmask, h.mem_live.mpr (Nat.add_pos_left hpos _)⟩
    · intro p hp
      obtain ⟨entry, hentry⟩ := hlive p hp
      have hrefs := h.refs p
      rw [refs_some hentry, hzero p] at hrefs
      exact ⟨entry, hentry, hrefs, h.masksOk.ref_pos p entry hentry⟩

/-! ## One operation -/

/-- Insertion adds the mask of the flow, if it is not there. -/
theorem live_insert {flow : Nat} (h : TableInv hs s.table s.flows fun _ => 0)
    (h' : TableInv hs s'.table s'.flows fun _ => 0) (hflow : flow ∉ s.flows)
    (hflows : s'.flows = s.flows ∨ s'.flows = insert flow s.flows)
    (hkept : ∀ f, f ≠ flow → s'.table.flows f = s.table.flows f) :
    s'.live.Perm s.live ∨
      ∃ p, (s'.table.flows flow).mask = some p ∧ s'.live.Perm (p :: s.live) := by
  have hold : ∀ p, users s'.table.flows s.flows p = users s.table.flows s.flows p := by
    intro p
    apply users_congr
    intro f hf
    rw [hkept f fun heq => hflow (heq ▸ hf)]
  have hsame : (∀ p, p ∈ s'.live ↔ p ∈ s.live) → s'.live.Perm s.live :=
    fun hmem => (List.perm_ext_iff_of_nodup h'.live_nodup h.live_nodup).mpr fun p => hmem p
  rcases hflows with heq | heq
  · left
    apply hsame
    intro p
    rw [h'.mem_live, h.mem_live, heq, hold]
  · obtain ⟨q, hq, -⟩ := h'.users_pos (heq ▸ Finset.mem_insert_self flow s.flows)
    have hmem : ∀ p, p ∈ s'.live ↔ p = q ∨ p ∈ s.live := by
      intro p
      rw [h'.mem_live, h.mem_live, heq, users_insert _ hflow, hold, hq]
      simp only [Option.some.injEq]
      split_ifs <;> omega
    by_cases hlive : q ∈ s.live
    · left
      apply hsame
      intro p
      rw [hmem p]
      exact or_iff_right_of_imp fun hp => hp ▸ hlive
    · right
      refine ⟨q, hq, ?_⟩
      rw [List.perm_ext_iff_of_nodup h'.live_nodup
        (List.nodup_cons.mpr ⟨hlive, h.live_nodup⟩)]
      intro p
      rw [hmem p, List.mem_cons]

/-- Removal takes the mask of the flow, if no other uses it. -/
theorem live_erase {flow : Nat} (h : TableInv hs s.table s.flows fun _ => 0)
    (h' : TableInv hs s'.table s'.flows fun _ => 0) (hflow : flow ∈ s.flows)
    (hflows : s'.flows = s.flows.erase flow) (hkept : s'.table.flows = s.table.flows) :
    s'.live.Perm s.live ∨
      ∃ p, (s.table.flows flow).mask = some p ∧ p ∈ s.live ∧ s'.live.Perm (s.live.erase p) := by
  obtain ⟨q, hq, hpos⟩ := h.users_pos hflow
  have hmem : ∀ p, p ∈ s'.live ↔ 0 < users s.table.flows (s.flows.erase flow) p := by
    intro p
    rw [h'.mem_live, hflows, hkept, Nat.add_zero]
  have herase : ∀ p, users s.table.flows (s.flows.erase flow) p + (if q = p then 1 else 0) =
      users s.table.flows s.flows p := by
    intro p
    have h := users_erase s.table.flows hflow p
    rw [hq] at h
    simpa only [Option.some.injEq] using h
  have hother : ∀ p, p ≠ q → (p ∈ s'.live ↔ p ∈ s.live) := by
    intro p hne
    rw [hmem p, h.mem_live, ← herase p, if_neg hne.symm, Nat.add_zero]
  have hlive : q ∈ s.live := h.mem_live.mpr (Nat.add_pos_left hpos _)
  by_cases hlast : q ∈ s'.live
  · left
    rw [List.perm_ext_iff_of_nodup h'.live_nodup h.live_nodup]
    intro p
    rcases eq_or_ne p q with rfl | hne
    · exact iff_of_true hlast hlive
    · exact hother p hne
  · right
    refine ⟨q, hq, hlive, ?_⟩
    rw [List.perm_ext_iff_of_nodup h'.live_nodup (h.live_nodup.erase q)]
    intro p
    rw [h.live_nodup.mem_erase_iff]
    rcases eq_or_ne p q with rfl | hne
    · exact iff_of_false hlast fun hp => hp.1 rfl
    · rw [hother p hne]
      exact (and_iff_right hne).symm

/-- The condition of a flush: no flow loses its entry in the table without its mask hearing of it. -/
def TableOp.FlushesEmpty (s : TableState) (op : TableOp) : Prop := op.Empties → s.flows = ∅

/-- With no references left behind before an operation, none are left behind by it unless it is a
flush of flows. -/
theorem tableStep_masks (h : TableInv hs s.table s.flows fun _ => 0) (hop : op.Allowed s) :
    (∃ r s', tableStep hs s op = .ok (r, s') ∧ MasksCorrect s' ∧ EntriesKept s s' op) ↔
      op.FlushesEmpty s := by
  obtain ⟨r, s', hok, hinv, hkept⟩ := tableStep_spec h hop
  constructor
  · rintro ⟨r₂, s₂, hok₂, hcorrect, -⟩ hempties
    obtain rfl : s' = s₂ := congrArg Prod.snd (Except.ok.inj (hok.symm.trans hok₂))
    have hzero := hinv.masksCorrect_iff.mp hcorrect
    rw [if_pos hempties] at hzero
    rw [Finset.eq_empty_iff_forall_notMem]
    intro flow hflow
    obtain ⟨p, -, hpos⟩ := h.users_pos hflow
    have hrefs := h.refs p
    rw [hzero p] at hrefs
    omega
  · intro hempty
    have hzero : (if op.Empties then refs s.table.masks else fun _ => 0) = fun _ => 0 := by
      split_ifs with hempties
      · funext p
        rw [h.refs p, hempty hempties, users_empty]
      · rfl
    rw [hzero] at hinv
    refine ⟨r, s', hok, hinv.masksCorrect_iff.mpr fun _ => rfl, ?_⟩
    cases op with
    | insert flow unmasked id mask env => exact live_insert h hinv hop.1 hkept.1 hkept.2
    | remove flow array_alloc => exact live_erase h hinv hop hkept.1 hkept.2
    | flush table_alloc ufid_alloc => exact hkept.2.2

/-! ## Whole runs -/

/-- **The mask array over whole runs.** After every operation of a run each mask in the array counts
exactly the flows that use it, exactly if no flush that gets its new instances meets a flow in the
table. -/
theorem maskRun_correct_iff (hs : Hashes) (seed ufid_seed : BitVec 32) (ops : List TableOp)
    (hops : RunMeets (tableStep hs) (fun s op => op.Allowed s) (TableState.init seed ufid_seed) ops) :
    (MasksCorrect (TableState.init seed ufid_seed) ∧
      RunHolds (tableStep hs) (fun s op _ s' => MasksCorrect s' ∧ EntriesKept s s' op)
        (TableState.init seed ufid_seed) ops) ↔
      RunMeets (tableStep hs) (fun s op => op.FlushesEmpty s) (TableState.init seed ufid_seed)
        ops := by
  have hinit : TableInv hs (TableState.init seed ufid_seed).table
      (TableState.init seed ufid_seed).flows fun _ => 0 := ovsFlowTblInit_inv hs seed ufid_seed
  rw [and_iff_right (hinit.masksCorrect_iff.mpr fun _ => rfl)]
  refine runHolds_iff_runMeets (fun s op => op.Allowed s)
    (fun s => TableInv hs s.table s.flows fun _ => 0) (fun _ _ => tableStep_masks) ?_ hinit hops
  intro s op r s' hinv hop hok hgood
  obtain ⟨r₂, s₂, hok₂, hinv₂, -⟩ := tableStep_spec hinv hop
  obtain rfl : s' = s₂ := congrArg Prod.snd (Except.ok.inj (hok.symm.trans hok₂))
  have hzero := hinv₂.masksCorrect_iff.mp hgood.1
  rwa [show (if op.Empties then refs s.table.masks else fun _ => 0) = fun _ => 0 from
    funext hzero] at hinv₂

/-- Insert a flow, remove it, and flush the empty table. -/
theorem maskRun_correct_iff_emptied :
    MasksCorrect (TableState.init 0 0) ∧
      RunHolds (tableStep ⟨fun _ => 0, fun _ _ => 0, fun _ => 0⟩)
        (fun s op _ s' => MasksCorrect s' ∧ EntriesKept s s' op) (TableState.init 0 0)
        [.insert 5 (fun _ => 1) (.ufid [7]) zeroMask ⟨true, true, some 3, none, false⟩,
          .remove 5 true, .flush (some 1) (some 2)] := by
  refine (maskRun_correct_iff _ 0 0 _ ?_).mpr ?_
  · refine ⟨⟨Finset.notMem_empty 5, [], rfl⟩, fun r s hok => ?_⟩
    obtain rfl := congrArg Prod.snd (Except.ok.inj hok)
    exact ⟨Finset.mem_insert_self 5 ∅, fun _ _ _ => ⟨trivial, fun _ _ _ => trivial⟩⟩
  · refine ⟨fun h => h.elim, fun r s hok => ⟨fun h => h.elim, fun r' s' hok' => ?_⟩⟩
    obtain rfl := congrArg Prod.snd (Except.ok.inj hok)
    obtain rfl := congrArg Prod.snd (Except.ok.inj hok')
    exact ⟨fun _ => by decide, fun _ _ _ => trivial⟩

/-- Insert a flow and flush the table: the mask of the flow stays, with one reference and no user. -/
theorem maskRun_flush_leaks :
    RunMeets (tableStep ⟨fun _ => 0, fun _ _ => 0, fun _ => 0⟩) (fun s op => op.Allowed s)
        (TableState.init 0 0)
        [.insert 5 (fun _ => 1) (.ufid [7]) zeroMask ⟨true, true, some 3, none, false⟩,
          .flush (some 1) (some 2)] ∧
      ¬ RunHolds (tableStep ⟨fun _ => 0, fun _ _ => 0, fun _ => 0⟩)
        (fun s op _ s' => MasksCorrect s' ∧ EntriesKept s s' op) (TableState.init 0 0)
        [.insert 5 (fun _ => 1) (.ufid [7]) zeroMask ⟨true, true, some 3, none, false⟩,
          .flush (some 1) (some 2)] := by
  constructor
  · exact ⟨⟨Finset.notMem_empty 5, [], rfl⟩, fun _ _ _ => ⟨trivial, fun _ _ _ => trivial⟩⟩
  · rintro ⟨r, s, hok, -, r', s', hok', hgood, -⟩
    obtain ⟨r₂, s₂, hok₂, hinv, -⟩ :=
      tableStep_spec (ovsFlowTblInit_inv ⟨fun _ => 0, fun _ _ => 0, fun _ => 0⟩ 0 0)
        (show TableOp.Allowed (TableState.init 0 0) (.insert 5 (fun _ => 1) (.ufid [7]) zeroMask
          ⟨true, true, some 3, none, false⟩) from ⟨Finset.notMem_empty 5, [], rfl⟩)
    obtain rfl : s = s₂ := congrArg Prod.snd (Except.ok.inj (hok.symm.trans hok₂))
    have hallowed : TableOp.Allowed s (.flush (some 1) (some 2)) := trivial
    have hempty := (tableStep_masks hinv hallowed).mp ⟨r', s', hok', hgood⟩ ⟨rfl, rfl⟩
    obtain rfl := congrArg Prod.snd (Except.ok.inj hok)
    exact Finset.insert_ne_empty 5 ∅ hempty

end OvsDatapath.Flow
