import OvsDatapath.Actions.Executor

/-!
# How often a packet is counted

`ovs_dp_process_packet` counts the packet before it looks for a flow, and a RECIRC action leads back
to it, so a packet that is recirculated is counted on each pass (`counted_twice`). That is all: a
packet is counted at most once for its reception and once for each RECIRC action executed for it,
in place or from the FIFO, however SAMPLE actions are nested (`counted_le_recirculated`).

The bound is kept with a budget. A RECIRC action that has been executed is one pass that may count,
and an entry of the FIFO without actions is a pass still to come: `Within n k` says that the packets
counted, the passes queued and `n` passes under way are at most the RECIRC actions executed and `k`
more. Everything else the executor does is `Quiet`. The trace does not hide an update of a sketch:
`replay` computes the sketches from it.
-/

namespace OvsDatapath.Actions

open OvsDatapath.Lib OvsDatapath.Flow OvsDatapath.Sketch

variable {π : Type}

/-- A sketch has been updated. -/
def Event.isCounted : Event π → Bool
  | .counted _ _ => true
  | _ => false

/-- A RECIRC action has been executed. -/
def Event.isRecirculated : Event π → Bool
  | .recirculated _ _ => true
  | _ => false

/-- How often the packet has been counted. -/
def counted (trace : List (Event π)) : Nat := trace.countP Event.isCounted

/-- How many RECIRC actions have been executed. -/
def recirculated (trace : List (Event π)) : Nat := trace.countP Event.isRecirculated

/-- The update of a sketch that `my_label_sketch` makes. -/
def countPacket (sketches : Sketches) (dev_id : Nat) (key : SwFlowKey) : Sketches :=
  if h : dev_id < swCount then
    { sketches with
      countmax := Function.update sketches.countmax ⟨dev_id, h⟩
        ((sketches.countmax ⟨dev_id, h⟩).map fun sketch =>
          countmaxSketchUpdate sketch (extract5Tuple key) 1) }
  else sketches

/-- The sketches after the updates in a trace, which has the latest event first. -/
def replay (sketches : Sketches) : List (Event π) → Sketches
  | [] => sketches
  | .counted dev_id key :: trace => countPacket (replay sketches trace) dev_id key
  | _ :: trace => replay sketches trace

/-- The number of recirculations in the FIFO. -/
def Cpu.pending (s : Cpu π) : Nat :=
  ((Finset.Ico s.tail s.head).filter fun i => (s.fifo i).actions.isNone).card

/-- With `n` passes under way, no more has been counted than RECIRC actions and `k` more allow, and
the sketches have been updated from what they were (`start`) as the trace says. -/
structure Within (start : Sketches) (n k : Nat) (s : Cpu π) : Prop where
  tail_le : s.tail ≤ s.head
  budget : counted s.trace + s.pending + n ≤ recirculated s.trace + k
  sketches : s.sketches = replay start s.trace

/-- Neither the FIFO nor the sketches nor the two counts have changed. -/
structure Quiet (s s' : Cpu π) : Prop where
  head : s'.head = s.head
  tail : s'.tail = s.tail
  fifo : s'.fifo = s.fifo
  sketches : s'.sketches = s.sketches
  counted : counted s'.trace = counted s.trace
  recirculated : recirculated s'.trace = recirculated s.trace
  replay : ∀ start, replay start s'.trace = replay start s.trace

theorem Quiet.refl (s : Cpu π) : Quiet s s := ⟨rfl, rfl, rfl, rfl, rfl, rfl, fun _ => rfl⟩

instance : IsPreorder (Cpu π) Quiet where
  refl := Quiet.refl
  trans _ _ _ h h' := ⟨h'.head.trans h.head, h'.tail.trans h.tail, h'.fifo.trans h.fifo,
    h'.sketches.trans h.sketches, h'.counted.trans h.counted,
    h'.recirculated.trans h.recirculated, fun start => (h'.replay start).trans (h.replay start)⟩

variable {start : Sketches} {n k : Nat} {s s' : Cpu π} {α : Type} {x : Exec π α}

theorem Quiet.within (h : Quiet s s') (hs : Within start n k s) : Within start n k s' := by
  refine ⟨?_, ?_, ?_⟩
  · rw [h.head, h.tail]
    exact hs.tail_le
  · rw [Cpu.pending, h.head, h.tail, h.fifo, h.counted, h.recirculated]
    exact hs.budget
  · rw [h.sketches, h.replay]
    exact hs.sketches

/-- A quiet computation keeps the budget. -/
theorem Keeps.of_quiet (h : Moves Quiet x) : Keeps (Within start n k) x (Within start n k) :=
  h.keeps fun _ _ hmoved hs => hmoved.within hs

/-! ## Quiet steps -/

theorem record_quiet {e : Event π} (hc : e.isCounted = false) (hr : e.isRecirculated = false) :
    Moves Quiet (record e) :=
  Moves.modify fun s => ⟨rfl, rfl, rfl, rfl, by simp [counted, hc], by simp [recirculated, hr],
    fun _ => by cases e <;> first | rfl | cases hc⟩

theorem ask_quiet {β : Type} (answer : Nat → β) : Moves Quiet (ask answer : Exec π β) :=
  Moves.bind Moves.get fun _ =>
    Moves.bind (Moves.modify fun _ => ⟨rfl, rfl, rfl, rfl, rfl, rfl, fun _ => rfl⟩) fun _ => Moves.pure _

theorem readKey_quiet (key : KeyPtr) : Moves Quiet (readKey key : Exec π SwFlowKey) :=
  Moves.bind Moves.get fun _ => Moves.pure _

theorem writeKey_quiet (key : KeyPtr) (v : SwFlowKey) :
    Moves Quiet (writeKey key v : Exec π Unit) :=
  Moves.modify fun _ => ⟨rfl, rfl, rfl, rfl, rfl, rfl, fun _ => rfl⟩

theorem kfreeSkb_quiet (skb : Skb π) : Moves Quiet (kfreeSkb skb) := record_quiet rfl rfl

theorem freeWith_quiet (skb : Skb π) (err : Int) : Moves Quiet (freeWith skb err) :=
  Moves.bind (kfreeSkb_quiet skb) fun _ => Moves.pure _

theorem freshSkb_quiet : Moves Quiet (freshSkb : Exec π Nat) :=
  Moves.bind Moves.get fun _ =>
    Moves.bind (Moves.modify fun _ => ⟨rfl, rfl, rfl, rfl, rfl, rfl, fun _ => rfl⟩) fun _ => Moves.pure _

theorem skbClone_quiet (env : DatapathEnv π) (skb : Skb π) : Moves Quiet (skbClone env skb) := by
  refine Moves.bind (ask_quiet _) fun ok => ?_
  cases ok with
  | true =>
      exact Moves.bind freshSkb_quiet fun _ =>
        Moves.bind (record_quiet rfl rfl) fun _ => Moves.pure _
  | false => exact Moves.pure _

theorem cloneKey_quiet (key : KeyPtr) : Moves Quiet (cloneKey key : Exec π (Option KeyPtr)) := by
  refine Moves.bind Moves.get fun s => ?_
  split_ifs
  · exact Moves.throw _
  · exact Moves.bind (writeKey_quiet _ _) fun _ => Moves.pure _
  · exact Moves.pure _

theorem incLevel_quiet : Moves Quiet (incLevel : Exec π Nat) :=
  Moves.bind Moves.get fun _ =>
    Moves.bind (Moves.modify fun _ => ⟨rfl, rfl, rfl, rfl, rfl, rfl, fun _ => rfl⟩) fun _ => Moves.pure _

theorem decLevel_quiet : Moves Quiet (decLevel : Exec π Unit) :=
  Moves.modify fun _ => ⟨rfl, rfl, rfl, rfl, rfl, rfl, fun _ => rfl⟩

theorem ovsFlowKeyUpdate_quiet (env : DatapathEnv π) (skb : Skb π) (key : KeyPtr) :
    Moves Quiet (ovsFlowKeyUpdate env skb key) := by
  refine Moves.bind (readKey_quiet key) fun old => Moves.bind (ask_quiet _) fun answer => ?_
  dsimp only
  split_ifs <;> exact Moves.bind (writeKey_quiet _ _) fun _ => Moves.pure _

theorem validateKey_quiet (env : DatapathEnv π) (action : Action) (last : Bool) (skb : Skb π)
    (key : KeyPtr) : Moves Quiet (validateKey env action last skb key) := by
  refine Moves.bind (readKey_quiet key) fun k => ?_
  split_ifs
  · exact Moves.pure _
  · exact Moves.bind (ovsFlowKeyUpdate_quiet env skb key) fun _ =>
      Moves.bind (record_quiet rfl rfl) fun _ => Moves.pure _

theorem editPacket_quiet (env : DatapathEnv π) (action : Action) (skb : Skb π) (key : KeyPtr) :
    Moves Quiet (editPacket env action skb key) :=
  Moves.bind (readKey_quiet key) fun _ => Moves.bind (ask_quiet _) fun _ =>
    Moves.bind (writeKey_quiet _ _) fun _ => Moves.bind (record_quiet rfl rfl) fun _ => Moves.pure _

theorem ovsCtExecute_quiet (env : DatapathEnv π) (attr : List (BitVec 8)) (skb : Skb π)
    (key : KeyPtr) : Moves Quiet (ovsCtExecute env attr skb key) :=
  Moves.bind (readKey_quiet key) fun _ => Moves.bind (ask_quiet _) fun _ =>
    Moves.bind (writeKey_quiet _ _) fun _ => Moves.bind (record_quiet rfl rfl) fun _ => Moves.pure _

theorem executeHash_quiet (env : DatapathEnv π) (hash_basis : BitVec 32) (skb : Skb π)
    (key : KeyPtr) : Moves Quiet (executeHash env hash_basis skb key) :=
  Moves.bind (readKey_quiet key) fun _ => Moves.bind (record_quiet rfl rfl) fun _ =>
    Moves.bind (ask_quiet _) fun _ => writeKey_quiet _ _

theorem doOutput_quiet (skb : Skb π) (port : Nat) (key : KeyPtr) :
    Moves Quiet (doOutput skb port key) :=
  Moves.bind (readKey_quiet key) fun _ => record_quiet rfl rfl

theorem outputUserspace_quiet (skb : Skb π) (key : KeyPtr) (attr : List (BitVec 8))
    (actions : List Action) : Moves Quiet (outputUserspace skb key attr actions) :=
  Moves.bind (readKey_quiet key) fun _ => record_quiet rfl rfl

theorem outputClone_quiet (env : DatapathEnv π) (skb : Skb π) (port : Nat) (key : KeyPtr) :
    Moves Quiet (outputClone env skb port key) := by
  refine Moves.bind (skbClone_quiet env skb) fun clone => ?_
  cases clone with
  | some clone => exact doOutput_quiet clone port key
  | none => exact Moves.pure _

theorem truncate_quiet (env : DatapathEnv π) (skb : Skb π) (max_len : Nat) :
    Moves Quiet (truncate env skb max_len) := by
  refine Moves.bind (record_quiet rfl rfl) fun _ => ?_
  split_ifs <;> exact Moves.pure _

theorem sampleSkips_quiet (env : DatapathEnv π) (path : List Nat) (probability : BitVec 32) :
    Moves Quiet (sampleSkips env path probability) := by
  rw [sampleSkips]
  split_ifs
  · exact Moves.pure _
  · exact Moves.pure _
  · exact Moves.bind (ask_quiet _) fun _ => Moves.pure _

theorem setRecircId_quiet (key : KeyPtr) (recirc_id : BitVec 32) :
    Moves Quiet (setRecircId key recirc_id : Exec π Unit) :=
  Moves.bind (readKey_quiet key) fun _ => writeKey_quiet _ _

theorem missUpcall_quiet (skb : Skb π) (key : KeyPtr) : Moves Quiet (missUpcall skb key) :=
  Moves.bind (readKey_quiet key) fun _ =>
    Moves.bind (record_quiet rfl rfl) fun _ => kfreeSkb_quiet skb

/-! ## Steps that use the budget -/

/-- One pass under way for a recirculation, none for a list of actions. -/
def passes (actions : Option (List Action)) : Nat := if actions.isNone then 1 else 0

theorem Within.weaken (h : Within start n k s) : Within start 0 k s :=
  ⟨h.tail_le, (Nat.le_add_right _ n).trans h.budget, h.sketches⟩

/-- A quiet computation returns with all passes still under way. -/
theorem Triple.of_quiet (h : Moves Quiet x) :
    Triple (Within start n k) x (fun _ => Within start n k) (Within start 0 k) :=
  (Keeps.of_quiet h).conseq (fun _ h => h) (fun _ _ h => h) fun _ h => h.weaken

theorem myLabelSketch_some {sketches sketches' : Sketches} {dev_name : List (BitVec 8)}
    {key : SwFlowKey} {dev_id : Nat}
    (h : myLabelSketch sketches dev_name key = .ok (some dev_id, sketches')) :
    sketches' = countPacket sketches dev_id key := by
  rw [myLabelSketch] at h
  split at h
  · cases h
  · cases h
  · split at h
    case isTrue hlt =>
      split at h
      · cases h
      case h_2 sketch hsketch =>
        cases h
        rw [countPacket, dif_pos hlt, hsketch]
        rfl
    case isFalse => cases h

/-- Counting the packet is what a pass under way is for. -/
theorem labelPacket_keeps (skb : Skb π) (key : KeyPtr) :
    Keeps (Within start 1 k) (labelPacket skb key) (Within start 0 k) := by
  refine Triple.get_bind fun s hs => ?_
  rcases hlabel : myLabelSketch s.sketches skb.input_dev (s.keys key) with
    fault | ⟨_ | dev_id, sketches⟩
  · exact Triple.throw fun _ h => h ▸ hs.weaken
  · exact Triple.pure fun _ h => h ▸ hs.weaken
  · -- the sketch is updated first, and the trace is one event behind
    refine Triple.bind (Q := fun _ s' => s'.tail ≤ s'.head ∧
      counted s'.trace + s'.pending + 1 ≤ recirculated s'.trace + k ∧
      s'.sketches = countPacket (replay start s'.trace) dev_id (s.keys key))
      (Triple.modify ?_) fun _ => Triple.modify ?_
    · rintro s rfl
      refine ⟨hs.tail_le, hs.budget, ?_⟩
      rw [myLabelSketch_some hlabel, hs.sketches]
    · rintro s' ⟨hle, hbudget, hsketches⟩
      refine ⟨hle, ?_, hsketches⟩
      have hcounted : counted (.counted dev_id (s.keys key) :: s'.trace) = counted s'.trace + 1 :=
        List.countP_cons_of_pos rfl
      have hrecirculated : recirculated (.counted dev_id (s.keys key) :: s'.trace) =
          recirculated s'.trace := List.countP_cons_of_neg Bool.false_ne_true
      show counted (.counted dev_id (s.keys key) :: s'.trace) + s'.pending + 0 ≤
        recirculated (.counted dev_id (s.keys key) :: s'.trace) + k
      omega

/-- An executed RECIRC action allows for one more pass. -/
theorem recordRecirculated_keeps (id : Nat) (recirc_id : BitVec 32) :
    Keeps (Within start 0 k) (record (.recirculated id recirc_id) : Exec π Unit)
      (Within start 1 k) := by
  refine Triple.modify (E := Within start 1 k) (Q := fun _ => Within start 1 k) ?_
  intro s hs
  refine ⟨hs.tail_le, ?_, hs.sketches⟩
  have hcounted : counted (.recirculated id recirc_id :: s.trace) = counted s.trace :=
    List.countP_cons_of_neg Bool.false_ne_true
  have hrecirculated : recirculated (.recirculated id recirc_id :: s.trace) =
      recirculated s.trace + 1 := List.countP_cons_of_pos rfl
  have hbudget := hs.budget
  show counted (.recirculated id recirc_id :: s.trace) + s.pending + 1 ≤
    recirculated (.recirculated id recirc_id :: s.trace) + k
  omega

/-- A recirculation that is queued is pending. -/
theorem pending_queue (fifo : Nat → DeferredAction π) {tail head : Nat} (hle : tail ≤ head)
    (da : DeferredAction π) :
    ((Finset.Ico tail (head + 1)).filter
        fun i => (Function.update fifo head da i).actions.isNone).card =
      ((Finset.Ico tail head).filter fun i => (fifo i).actions.isNone).card +
        passes da.actions := by
  have hold : (Finset.Ico tail head).filter
        (fun i => (Function.update fifo head da i).actions.isNone) =
      (Finset.Ico tail head).filter fun i => (fifo i).actions.isNone := by
    refine Finset.filter_congr fun i hi => ?_
    rw [Function.update_of_ne (Nat.ne_of_lt (Finset.mem_Ico.mp hi).2)]
  rw [Nat.Ico_succ_right_eq_insert_Ico hle, Finset.filter_insert, Function.update_self, hold, passes]
  split_ifs
  · exact Finset.card_insert_of_notMem (by simp)
  · rfl

/-- A recirculation that is taken from the FIFO is pending no longer. -/
theorem pending_take {fifo : Nat → DeferredAction π} {tail head : Nat} (hlt : tail < head) :
    ((Finset.Ico tail head).filter fun i => (fifo i).actions.isNone).card =
      ((Finset.Ico (tail + 1) head).filter fun i => (fifo i).actions.isNone).card +
        passes (fifo tail).actions := by
  rw [← Finset.insert_Ico_add_one_left_eq_Ico hlt, Finset.filter_insert, passes]
  split_ifs
  · exact Finset.card_insert_of_notMem (by simp)
  · rfl

theorem deferExecute_keeps (skb : Skb π) (key : KeyPtr) (recirc_id : BitVec 32)
    (actions : Option (List Action)) :
    Keeps (Within start (passes actions) k) (deferExecute skb key recirc_id actions) (Within start 0 k) := by
  have hadd : Keeps (Within start (passes actions) k) (addDeferredActions skb key actions)
      (Within start 0 k) := by
    refine Triple.get_bind fun s hs => ?_
    split_ifs
    · exact Triple.pure fun _ h => h ▸ hs.weaken
    · refine Triple.bind (Q := fun _ => Within start 0 k) (Triple.modify ?_) fun _ =>
        Triple.bind (Keeps.of_quiet (record_quiet rfl rfl)) fun _ => Triple.pure fun _ h => h
      rintro s rfl
      refine ⟨Nat.le_succ_of_le hs.tail_le, ?_, hs.sketches⟩
      have hpending := pending_queue s.fifo hs.tail_le { skb := skb, actions := actions }
      have hbudget := hs.budget
      rw [Cpu.pending] at hbudget ⊢
      dsimp only at hpending ⊢
      omega
  refine Triple.bind hadd fun da => ?_
  cases da with
  | none =>
      exact Triple.bind (Keeps.of_quiet (record_quiet rfl rfl)) fun _ =>
        Keeps.of_quiet (freeWith_quiet skb 0)
  | some da =>
      dsimp only
      split_ifs
      · exact Triple.bind (Keeps.of_quiet (setRecircId_quiet da recirc_id)) fun _ =>
          Triple.pure fun _ h => h
      · exact Triple.pure fun _ h => h

/-- The entry taken from the FIFO is a pass under way if it is a recirculation. -/
theorem actionFifoGet_triple :
    Triple (Within start 0 k) (actionFifoGet : Exec π (Option (DeferredAction π × KeyPtr)))
      (fun r => Within start (match r with | none => 0 | some (da, _) => passes da.actions) k)
      (Within start 0 k) := by
  refine Triple.get_bind fun s hs => ?_
  split_ifs with hempty hbound
  · exact Triple.pure fun _ h => h ▸ hs
  · have hlt : s.tail < s.head := lt_of_le_of_ne hs.tail_le (Ne.symm hempty)
    refine Triple.bind (Q := fun _ => Within start (passes (s.fifo s.tail).actions) k)
      (Triple.modify ?_) fun _ => Triple.bind (Q := fun _ => Within start (passes (s.fifo s.tail).actions) k)
        ((Keeps.of_quiet (record_quiet rfl rfl)).conseq (fun _ h => h) (fun _ _ h => h)
          fun _ h => h.weaken) fun _ => Triple.pure fun _ h => h
    rintro _ rfl
    refine ⟨hlt, ?_, hs.sketches⟩
    have hbudget := hs.budget
    rw [Cpu.pending, pending_take hlt] at hbudget
    rw [Cpu.pending]
    dsimp only
    omega
  · exact Triple.throw fun _ h => h ▸ hs

/-! ## The executor -/

/-- What the functions do to the budget when they may make `fuel` calls. -/
structure Budgeted (start : Sketches) (env : DatapathEnv π) (fuel : Nat) : Prop where
  doExecuteActions : ∀ skb key attr rest k,
    Keeps (Within start 0 k) (doExecuteActions env fuel skb key attr rest) (Within start 0 k)
  sample : ∀ skb key probability exec actions last k,
    Keeps (Within start 0 k) (sample env fuel skb key probability exec actions last) (Within start 0 k)
  executeRecirc : ∀ skb key recirc_id last k,
    Keeps (Within start 0 k) (executeRecirc env fuel skb key recirc_id last) (Within start 0 k)
  cloneExecute : ∀ skb key recirc_id actions last clone_flow_key k,
    Keeps (Within start (passes actions) k)
      (cloneExecute env fuel skb key recirc_id actions last clone_flow_key) (Within start 0 k)
  ovsDpProcessPacket : ∀ skb key k,
    Keeps (Within start 1 k) (ovsDpProcessPacket env fuel skb key) (Within start 0 k)
  ovsExecuteActions : ∀ skb acts key k,
    Keeps (Within start 0 k) (ovsExecuteActions env fuel skb acts key) (Within start 0 k)
  processDeferredActions : ∀ k,
    Keeps (Within start 0 k) (processDeferredActions env fuel) (Within start 0 k)
  deferredLoop : ∀ k, Keeps (Within start 0 k) (deferredLoop env fuel) (Within start 0 k)
  runDeferred : ∀ da key k,
    Keeps (Within start (passes da.actions) k) (runDeferred env fuel da key) (Within start 0 k)

section Step

variable {env : DatapathEnv π} {fuel : Nat} (ih : Budgeted start env fuel)
include ih

/-- The rest of a list after an action that returns an error, or none. -/
theorem Budgeted.afterNested (skb : Skb π) (key : KeyPtr) (attr rest : List Action) (err : Int)
    (k : Nat) :
    Keeps (Within start 0 k)
      (if rest.isEmpty then pure err
        else if err ≠ 0 then freeWith skb err
        else Actions.doExecuteActions env fuel skb key attr rest)
      (Within start 0 k) := by
  split_ifs
  · exact Triple.pure fun _ h => h
  · exact Keeps.of_quiet (freeWith_quiet skb err)
  · exact ih.doExecuteActions skb key attr rest k

/-- An edit, and the rest of the list. -/
theorem Budgeted.edit (action : Action) (skb : Skb π) (key : KeyPtr) (attr rest : List Action)
    (k : Nat) :
    Keeps (Within start 0 k)
      (do
        let (err, skb) ← editPacket env action skb key
        if err ≠ 0 then freeWith skb err
        else Actions.doExecuteActions env fuel skb key attr rest)
      (Within start 0 k) := by
  refine Triple.bind (Keeps.of_quiet (editPacket_quiet env action skb key)) fun r => ?_
  dsimp only
  split_ifs
  · exact Keeps.of_quiet (freeWith_quiet _ _)
  · exact ih.doExecuteActions _ key attr rest k

theorem Budgeted.doExecuteActions_succ (skb : Skb π) (key : KeyPtr) (attr rest : List Action)
    (k : Nat) :
    Keeps (Within start 0 k) (Actions.doExecuteActions env (fuel + 1) skb key attr rest)
      (Within start 0 k) := by
  cases rest with
  | nil => exact Keeps.of_quiet (freeWith_quiet skb 0)
  | cons a rest =>
      -- whatever counts is behind a call on a lower level, which has the same budget
      cases a with
      | output port =>
          rw [Actions.doExecuteActions]
          split_ifs
          · exact Triple.bind (Keeps.of_quiet (doOutput_quiet skb port key)) fun _ =>
              Triple.pure fun _ h => h
          · exact Triple.bind (Keeps.of_quiet (outputClone_quiet env skb port key)) fun _ =>
              ih.doExecuteActions _ key attr rest k
      | trunc max_len =>
          rw [Actions.doExecuteActions]
          exact Triple.bind (Keeps.of_quiet (truncate_quiet env skb max_len)) fun skb =>
            ih.doExecuteActions skb key attr rest k
      | userspace arg =>
          rw [Actions.doExecuteActions]
          exact Triple.bind (Keeps.of_quiet (outputUserspace_quiet skb key arg attr)) fun _ =>
            ih.doExecuteActions _ key attr rest k
      | hash hash_basis =>
          rw [Actions.doExecuteActions]
          exact Triple.bind (Keeps.of_quiet (executeHash_quiet env hash_basis skb key)) fun _ =>
            ih.doExecuteActions skb key attr rest k
      | recirc recirc_id =>
          rw [Actions.doExecuteActions]
          exact Triple.bind (ih.executeRecirc (skb.nest rest) key recirc_id rest.isEmpty k) fun r =>
            ih.afterNested { r.2 with path := skb.path } key attr rest r.1 k
      | sample probability exec actions =>
          rw [Actions.doExecuteActions]
          exact Triple.bind (ih.sample (skb.nest rest) key probability exec actions rest.isEmpty k) fun err =>
            ih.afterNested skb key attr rest err k
      | ct arg =>
          rw [Actions.doExecuteActions]
          refine Triple.bind (Keeps.of_quiet (validateKey_quiet env _ _ skb key)) fun r => ?_
          dsimp only
          split_ifs
          · exact Triple.pure fun _ h => h
          · refine Triple.bind (Keeps.of_quiet (ovsCtExecute_quiet env arg r.2 key)) fun r => ?_
            split_ifs
            · exact Triple.pure fun _ h => h
            · exact Triple.pure fun _ h => h
            · exact ih.doExecuteActions _ key attr rest k
      | _ => exact ih.edit _ skb key attr rest k

theorem Budgeted.cloneExecute_succ (skb : Skb π) (key : KeyPtr) (recirc_id : BitVec 32)
    (actions : Option (List Action)) (last clone_flow_key : Bool) (k : Nat) :
    Keeps (Within start (passes actions) k)
      (Actions.cloneExecute env (fuel + 1) skb key recirc_id actions last clone_flow_key)
      (Within start 0 k) := by
  have hskb : Moves Quiet (if last then pure (some skb) else skbClone env skb) := by
    split_ifs
    · exact Moves.pure _
    · exact skbClone_quiet env skb
  have hkey : Moves Quiet
      (if clone_flow_key then cloneKey key else pure (some key) : Exec π (Option KeyPtr)) := by
    split_ifs
    · exact cloneKey_quiet key
    · exact Moves.pure _
  rw [Actions.cloneExecute]
  refine Triple.bind (Triple.of_quiet hskb) fun o => ?_
  cases o with
  | none => exact Triple.pure fun _ h => h.weaken
  | some skb =>
      refine Triple.bind (Triple.of_quiet hkey) fun o => ?_
      cases o with
      | none => exact deferExecute_keeps skb key recirc_id actions
      | some clone =>
          cases actions with
          | none =>
              exact Triple.bind (Triple.of_quiet (setRecircId_quiet clone recirc_id)) fun _ =>
                Triple.bind (ih.ovsDpProcessPacket skb clone k) fun _ => Triple.pure fun _ h => h
          | some actions =>
              dsimp only
              split_ifs
              · exact Triple.bind (Keeps.of_quiet incLevel_quiet) fun _ =>
                  Triple.bind (ih.doExecuteActions skb clone actions actions k) fun _ =>
                    Triple.bind (Keeps.of_quiet decLevel_quiet) fun _ => Triple.pure fun _ h => h
              · exact ih.doExecuteActions skb clone actions actions k

theorem Budgeted.executeRecirc_succ (skb : Skb π) (key : KeyPtr) (recirc_id : BitVec 32)
    (last : Bool) (k : Nat) :
    Keeps (Within start 0 k) (Actions.executeRecirc env (fuel + 1) skb key recirc_id last)
      (Within start 0 k) := by
  rw [Actions.executeRecirc]
  refine Triple.bind (Keeps.of_quiet (validateKey_quiet env _ _ skb key)) fun r => ?_
  dsimp only
  split_ifs
  · exact Triple.pure fun _ h => h
  · refine Triple.bind (Keeps.of_quiet (readKey_quiet key)) fun flow_key => ?_
    split_ifs
    · refine Triple.bind (Q := fun _ => Within start 1 k) ((recordRecirculated_keeps _ _).conseq
        (fun _ h => h) (fun _ _ h => h) fun _ h => h.weaken) fun _ => ?_
      exact Triple.bind (ih.cloneExecute r.2 key recirc_id none last true k) fun _ =>
        Triple.pure fun _ h => h
    · exact Triple.throw fun _ h => h

theorem Budgeted.sample_succ (skb : Skb π) (key : KeyPtr) (probability : BitVec 32) (exec : Bool)
    (actions : List Action) (last : Bool) (k : Nat) :
    Keeps (Within start 0 k) (Actions.sample env (fuel + 1) skb key probability exec actions last)
      (Within start 0 k) := by
  rw [Actions.sample]
  refine Triple.bind (Keeps.of_quiet (sampleSkips_quiet env skb.path probability)) fun skips => ?_
  split_ifs
  · exact Keeps.of_quiet (freeWith_quiet skb 0)
  · exact Triple.pure fun _ h => h
  · exact ih.cloneExecute skb key 0 (some actions) last (!exec) k

theorem Budgeted.ovsDpProcessPacket_succ (skb : Skb π) (key : KeyPtr) (k : Nat) :
    Keeps (Within start 1 k) (Actions.ovsDpProcessPacket env (fuel + 1) skb key) (Within start 0 k) := by
  rw [Actions.ovsDpProcessPacket]
  refine Triple.bind (Triple.of_quiet (record_quiet rfl rfl)) fun _ =>
    Triple.bind (labelPacket_keeps skb key) fun _ =>
    Triple.bind (Keeps.of_quiet (readKey_quiet key)) fun flow_key =>
      Triple.bind (Keeps.of_quiet (ask_quiet _)) fun flow => ?_
  cases flow with
  | none => exact Keeps.of_quiet (missUpcall_quiet skb key)
  | some acts =>
      exact Triple.bind (ih.ovsExecuteActions skb acts key k) fun _ => Triple.pure fun _ h => h

theorem Budgeted.ovsExecuteActions_succ (skb : Skb π) (acts : List Action) (key : KeyPtr)
    (k : Nat) :
    Keeps (Within start 0 k) (Actions.ovsExecuteActions env (fuel + 1) skb acts key) (Within start 0 k) := by
  have hdec : ∀ r : Int, Keeps (Within start 0 k) (do decLevel; pure r : Exec π Int) (Within start 0 k) :=
    fun _ => Triple.bind (Keeps.of_quiet decLevel_quiet) fun _ => Triple.pure fun _ h => h
  rw [Actions.ovsExecuteActions]
  refine Triple.bind (Keeps.of_quiet incLevel_quiet) fun level => ?_
  split_ifs
  · exact Triple.bind (Keeps.of_quiet (kfreeSkb_quiet skb)) fun _ => hdec enetdown
  · exact Triple.bind (ih.doExecuteActions skb key acts acts k) fun err =>
      Triple.bind (ih.processDeferredActions k) fun _ => hdec err
  · exact Triple.bind (ih.doExecuteActions skb key acts acts k) fun err => hdec err

theorem Budgeted.deferredLoop_succ (k : Nat) :
    Keeps (Within start 0 k) (Actions.deferredLoop env (fuel + 1)) (Within start 0 k) := by
  rw [Actions.deferredLoop]
  refine Triple.bind actionFifoGet_triple fun o => ?_
  cases o with
  | none => exact Triple.throw fun _ h => h
  | some entry =>
      refine Triple.bind (ih.runDeferred entry.1 entry.2 k) fun _ => Triple.get_bind fun s hs => ?_
      split_ifs with hempty
      · -- the FIFO is empty, and stays so when it is reset
        refine Triple.modify ?_
        rintro s rfl
        refine ⟨le_rfl, ?_, hs.sketches⟩
        have hbudget := hs.budget
        rw [Cpu.pending] at hbudget ⊢
        dsimp only
        rw [Finset.Ico_self, Finset.filter_empty, Finset.card_empty]
        omega
      · exact (ih.deferredLoop k).conseq (fun _ h => h ▸ hs) (fun _ _ h => h) fun _ h => h

theorem Budgeted.succ : Budgeted start env (fuel + 1) where
  doExecuteActions := fun skb key attr rest k => ih.doExecuteActions_succ skb key attr rest k
  sample := ih.sample_succ
  executeRecirc := ih.executeRecirc_succ
  cloneExecute := ih.cloneExecute_succ
  ovsDpProcessPacket := ih.ovsDpProcessPacket_succ
  ovsExecuteActions := ih.ovsExecuteActions_succ
  processDeferredActions := fun k => by
    rw [Actions.processDeferredActions]
    refine Triple.get_bind fun s hs => ?_
    split_ifs
    · exact Triple.pure fun _ h => h ▸ hs
    · exact (ih.deferredLoop k).conseq (fun _ h => h ▸ hs) (fun _ _ h => h) fun _ h => h
  deferredLoop := ih.deferredLoop_succ
  runDeferred := fun da key k => by
    rw [Actions.runDeferred]
    cases hactions : da.actions with
    | none => exact ih.ovsDpProcessPacket da.skb key k
    | some actions =>
        exact Triple.bind (ih.doExecuteActions da.skb key actions actions k) fun _ =>
          Triple.pure fun _ h => h

end Step

/-- A function that has no calls left keeps the budget by giving up. -/
theorem Budgeted.zero (start : Sketches) (env : DatapathEnv π) : Budgeted start env 0 where
  doExecuteActions _ _ _ _ _ := Triple.throw fun _ h => h
  sample _ _ _ _ _ _ _ := Triple.throw fun _ h => h
  executeRecirc _ _ _ _ _ := Triple.throw fun _ h => h
  cloneExecute _ _ _ _ _ _ _ := Triple.throw fun _ h => h.weaken
  ovsDpProcessPacket _ _ _ := Triple.throw fun _ h => h.weaken
  ovsExecuteActions _ _ _ _ := Triple.throw fun _ h => h
  processDeferredActions _ := Triple.throw fun _ h => h
  deferredLoop _ := Triple.throw fun _ h => h
  runDeferred _ _ _ := Triple.throw fun _ h => h.weaken

theorem budgeted (start : Sketches) (env : DatapathEnv π) (fuel : Nat) :
    Budgeted start env fuel := by
  induction fuel with
  | zero => exact Budgeted.zero start env
  | succ fuel ih => exact ih.succ

/-! ## A packet that is received -/

/-- A cpu between packets: the FIFO is empty, but what it and the keys hold is left over from
earlier ones. -/
def Cpu.idle (fifo : Nat → DeferredAction π) (keys : KeyPtr → SwFlowKey) (sketches : Sketches) :
    Cpu π where
  exec_actions_level := 0
  head := 0
  tail := 0
  fifo := fifo
  keys := keys
  sketches := sketches
  next_skb := 0
  tick := 0
  trace := []

/-- A call of `ovs_vport_receive` is one pass. -/
theorem ovsVportReceive_keeps (start : Sketches) (env : DatapathEnv π) (fuel : Nat)
    (input_dev : List (BitVec 8)) (packet : π) :
    Keeps (Within start 1 k) (ovsVportReceive env fuel input_dev packet) (Within start 0 k) := by
  refine Triple.bind (Triple.of_quiet freshSkb_quiet) fun id => Triple.bind (Triple.of_quiet (ask_quiet _))
    fun packet => Triple.bind (Triple.of_quiet (readKey_quiet .arg)) fun old =>
      Triple.bind (Triple.of_quiet (ask_quiet _)) fun answer => ?_
  refine Triple.bind (Triple.of_quiet (writeKey_quiet .arg answer.2.2)) fun _ => ?_
  split_ifs
  · exact (Keeps.of_quiet (freeWith_quiet _ _)).conseq (fun _ h => h) (fun _ _ h => h.weaken)
      fun _ h => h.weaken
  · exact Triple.bind ((budgeted start env fuel).ovsDpProcessPacket _ .arg k) fun _ =>
      Triple.pure fun _ h => h

/-- **One count for each pass.** The sketches are updated once for each time that the trace says the
packet was counted, and that is at most once for its reception and once more for each RECIRC action
executed for it. This holds at any point of the execution: `fuel` may cut it short. -/
theorem counted_le_recirculated (env : DatapathEnv π) (fuel : Nat) (input_dev : List (BitVec 8))
    (packet : π) (fifo : Nat → DeferredAction π) (keys : KeyPtr → SwFlowKey)
    (sketches : Sketches) :
    let s := ((ovsVportReceive env fuel input_dev packet).exec (Cpu.idle fifo keys sketches)).2
    s.sketches = replay sketches s.trace ∧ counted s.trace ≤ 1 + recirculated s.trace := by
  have hidle : Within sketches 1 1 (Cpu.idle fifo keys sketches) := ⟨le_rfl, le_rfl, rfl⟩
  have hwithin := (ovsVportReceive_keeps sketches env fuel input_dev packet).exec hidle
  refine ⟨hwithin.sketches, ?_⟩
  have hbudget := hwithin.budget
  omega

/-- A flow whose action is to recirculate, and another for the recirculated packets. -/
def recircEnv : DatapathEnv Unit where
  len _ := 100
  lookup _ _ key := if key.recircId = 0 then some [.recirc 7] else some [.output 2]
  key_extract _ _ _ := (0, (), fun j => if (j : Nat) = 368 then 1 else 0)
  scrub _ _ := ()
  edit _ _ _ key := (0, (), key)
  ct_execute _ _ _ mru key := (0, (), mru, key)
  skb_get_hash _ _ := 0
  jhash_1word _ _ := 0
  skb_clone _ := true
  prandom_u32 _ _ := 0

/-- On an egress switch, a packet of one flow with an odd hash is counted before it is recirculated
and again afterwards, and then sent. -/
theorem counted_twice :
    ∃ sketches, initFilterSketch smallEnv 10 = .ok (0, sketches) ∧
      let r := (ovsVportReceive recircEnv 20 nameS4 ()).exec
        (Cpu.idle (fun _ => ⟨⟨0, (), [], 0, 0, []⟩, none⟩) (fun _ _ => 0) sketches)
      (∃ err, r.1 = .ok err) ∧ counted r.2.trace = 2 := by
  obtain ⟨sketches, hinit⟩ := initFilterSketch_smallEnv
  refine ⟨sketches, hinit, ?_⟩
  cases hinit
  exact ⟨⟨0, rfl⟩, rfl⟩

end OvsDatapath.Actions
