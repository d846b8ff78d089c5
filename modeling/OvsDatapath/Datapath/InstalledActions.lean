import OvsDatapath.Datapath.CmdEffects

/-!
# The actions of installed flows

Actions are validated against a key, before the flow that gets them is known. A new flow has the very
key that its actions were validated against. A flow that is updated has been found by its identifier,
by a lookup of the masked key or by its unmasked key, and none of these compares masks:
`UpdatesOwnKey` says that the key of the request under the mask of the request is the key of the flow
after all.

`flowCmdRun_accepted`: in a run of commands that keep to this, the actions of every flow were accepted
for that flow's own key, at every moment. `flowCmdRun_foreign_key` is a run that does not.
-/

namespace OvsDatapath.Datapath

open OvsDatapath.Lib OvsDatapath.Flow OvsDatapath.Actions

variable {hs : Hashes} {s : DpState}

/-- The actions of every flow come from a list of attributes that was accepted for its key. -/
def ActsAccepted (s : DpState) : Prop :=
  ∀ flow ∈ s.table.flows, ∃ env attr,
    ovsNlaCopyActions env attr (s.table.table.flows flow).key = .ok (s.sf_acts flow)

/-- If a command replaces the actions of a flow, then its key under its mask is the key of that flow. -/
def UpdatesOwnKey (hs : Hashes) (s : DpState) : FlowCmd → Prop
  | .new env a create_or_excl => ∀ r found flow, newFlowOf env a = .ok r → create_or_excl = false →
      duplicateFlow hs s.table.table env.stack r = .ok (some found) →
      updatedFlow hs s.table.table env.stack r found = .ok (some flow) →
      maskedKey r.parsed = (s.table.table.flows flow).key
  | .set env a => ∀ ufid m acts flow, setFlowOf env a = .ok (ufid, some m, some acts) →
      lookupFlow hs s.table.table env.stack ufid (some m) = .ok (some flow) →
      maskedKey m = (s.table.table.flows flow).key
  | .del _ _ => True

/-! ## Before the lock -/

variable {env : FlowCmdEnv} {a : FlowAttrs}

theorem newFlowOf_accepted {r : NewFlow} (h : newFlowOf env a = .ok r) :
    ∃ attr, ovsNlaCopyActions env.actions attr (maskedKey r.parsed) = .ok r.acts := by
  unfold newFlowOf at h
  split at h
  case h_2 => cases h
  case h_1 key actions _ _ =>
    split at h
    · cases h
    obtain ⟨m, -, h⟩ := bind_eq_ok.mp h
    obtain ⟨id, -, h⟩ := bind_eq_ok.mp h
    obtain ⟨acts, hacts, h⟩ := bind_eq_ok.mp h
    split_ifs at h
    obtain rfl := Except.ok.inj h
    exact ⟨actions, hacts⟩

/-- Actions come with a match. -/
theorem setFlowOf_accepted {ufid : Option (List (BitVec 8))} {m : Option SwFlowMatch} {acts : List Action}
    (h : setFlowOf env a = .ok (ufid, m, some acts)) :
    ∃ m', m = some m' ∧ ∃ attr, ovsNlaCopyActions env.actions attr (maskedKey m') = .ok acts := by
  unfold setFlowOf at h
  dsimp only at h
  split_ifs at h
  obtain ⟨⟨m₁, acts₁⟩, hinit, h⟩ := bind_eq_ok.mp h
  dsimp only at h
  split_ifs at h
  obtain ⟨-, rfl, rfl⟩ : _ ∧ m₁ = m ∧ acts₁ = some acts := by simpa using h
  unfold ovsNlaInitMatchAndAction at hinit
  obtain ⟨m₂, -, hinit⟩ := bind_eq_ok.mp hinit
  split at hinit
  · cases hinit
  · split at hinit
    · cases hinit
    · obtain ⟨acts₂, hacts, hinit⟩ := bind_eq_ok.mp hinit
      obtain ⟨rfl, heq⟩ := Prod.mk.inj (Except.ok.inj hinit)
      obtain rfl := Option.some.inj heq
      exact ⟨_, rfl, _, hacts⟩

/-! ## One command -/

/-- The invariant of a run: the table is in order, the next flow is a new one, and the actions of every
flow were accepted for it. -/
structure DpState.Inv (hs : Hashes) (s : DpState) : Prop where
  tableOk : s.TableOk hs
  accepted : ActsAccepted s

theorem DpState.init_inv (hs : Hashes) (seed ufid_seed : BitVec 32) : (DpState.init seed ufid_seed).Inv hs :=
  ⟨DpState.init_tableOk hs seed ufid_seed, nofun⟩

/-- Actions accepted for the key of a flow may be stored in it. -/
theorem ActsAccepted.setActs (h : ActsAccepted s) {flow : Nat} {acts : List Action}
    (hacts : ∃ env attr, ovsNlaCopyActions env attr (s.table.table.flows flow).key = .ok acts) :
    ActsAccepted (s.setActs flow acts) := by
  intro f hf
  show ∃ env attr, _ = Except.ok (Function.update s.sf_acts flow acts f)
  rcases eq_or_ne f flow with rfl | hne
  · rw [Function.update_self]
    exact hacts
  · rw [Function.update_of_ne hne]
    exact h f hf

/-- Flows may leave the table, and what is not in it may change. -/
theorem ActsAccepted.shrink (h : ActsAccepted s) {table : TableState} {next : Nat}
    (hsub : table.flows ⊆ s.table.flows)
    (hflows : ∀ f ∈ s.table.flows, table.table.flows f = s.table.table.flows f) :
    ActsAccepted { s with table := table, next_flow := next } := by
  intro f hf
  show ∃ env attr, ovsNlaCopyActions env attr (table.table.flows f).key = _
  rw [hflows f (hsub hf)]
  exact h f (hsub hf)

/-- A new flow may enter it, with actions that were accepted for its key. -/
theorem ActsAccepted.inserted (h : ActsAccepted s) (hok : s.TableOk hs) {r : NewFlow} {err : Int}
    {table : TableState} {attr : List (BitVec 8)} (hbuilt : BuiltMask r.mask)
    (hacts : ovsNlaCopyActions env.actions attr (maskedKey r.parsed) = .ok r.acts)
    (hins : tableStep hs s.table (.insert s.next_flow r.parsed.key r.id r.mask env.table) = .ok (err, table)) :
    ActsAccepted (s.inserted table err r.acts) := by
  obtain ⟨leaked, htable⟩ := hok.table
  have hfresh : s.next_flow ∉ s.table.flows := fun hmem => lt_irrefl _ (hok.fresh _ hmem)
  obtain ⟨err, table, heq, -, hothers, hself⟩ :=
    tableStep_insert htable hfresh hbuilt r.parsed.key r.id env.table
  obtain ⟨rfl, rfl⟩ := Prod.mk.inj (Except.ok.inj (hins.symm.trans heq))
  have hkept : ∀ f ∈ s.table.flows, table.flows f = s.table.table.flows f :=
    fun f hf => hothers f (hok.fresh f hf).ne
  unfold DpState.inserted
  dsimp only
  split_ifs with herr
  · intro f hf
    show ∃ env attr, ovsNlaCopyActions env attr (table.flows f).key =
      .ok (Function.update s.sf_acts s.next_flow r.acts f)
    rcases Finset.mem_insert.mp hf with rfl | hold
    · -- the new flow has the key that its actions were accepted for
      rw [Function.update_self]
      exact ⟨env.actions, attr, hself ▸ hacts⟩
    · rw [Function.update_of_ne (hok.fresh f hold).ne, hkept f hold]
      exact h f hold
  · exact h.shrink subset_rfl hkept

/-- One command keeps the invariant. -/
theorem flowCmdStep_inv {cmd : FlowCmd} (h : s.Inv hs) (hkey : UpdatesOwnKey hs s cmd) :
    ∃ r s', flowCmdStep hs s cmd = .ok (r, s') ∧ s'.Inv hs := by
  obtain ⟨r, s', hok, heffect⟩ := flowCmdStep_effect h.tableOk cmd
  refine ⟨r, s', hok, heffect.tableOk h.tableOk, ?_⟩
  obtain ⟨leaked, htable⟩ := h.tableOk.table
  cases heffect with
  | kept => exact h.accepted
  | inserted hnew _ hins =>
      obtain ⟨attr, hacts⟩ := newFlowOf_accepted hnew
      exact h.accepted.inserted h.tableOk (newFlowOf_builtMask hnew) hacts hins
  | updated hnew hdup hupd =>
      obtain ⟨attr, hacts⟩ := newFlowOf_accepted hnew
      have heq := hkey _ _ _ hnew rfl hdup hupd
      exact h.accepted.setActs ⟨_, attr, heq ▸ hacts⟩
  | replaced hset hlookup =>
      obtain ⟨m, rfl, attr, hacts⟩ := setFlowOf_accepted hset
      have heq := hkey _ m _ _ hset hlookup
      exact h.accepted.setActs ⟨_, attr, heq ▸ hacts⟩
  | removed hmem hrem =>
      obtain ⟨r, table, heq, -, hflows, hkept⟩ :=
        tableStep_spec htable (show TableOp.Allowed s.table (.remove _ _) from hmem)
      obtain ⟨rfl, rfl⟩ := Prod.mk.inj (Except.ok.inj (hrem.symm.trans heq))
      refine h.accepted.shrink ?_ fun f _ => congrFun hkept f
      exact hflows ▸ Finset.erase_subset _ _
  | flushed hflush =>
      obtain ⟨r, table, heq, -, hflows, hkept, -⟩ :=
        tableStep_spec htable (show TableOp.Allowed s.table (.flush _ _) from trivial)
      obtain ⟨rfl, rfl⟩ := Prod.mk.inj (Except.ok.inj (hflush.symm.trans heq))
      refine h.accepted.shrink ?_ fun f _ => congrFun hkept f
      rcases hflows with hflows | hflows
      · exact hflows.le
      · exact hflows.le.trans (Finset.empty_subset _)

/-! ## Runs -/

/-- **Installed actions were accepted for the flow that runs them**, in every state of every run whose
commands replace the actions of a flow only for its own key. -/
theorem flowCmdRun_accepted (hs : Hashes) (seed ufid_seed : BitVec 32) (cmds : List FlowCmd)
    (hcmds : RunMeets (flowCmdStep hs) (UpdatesOwnKey hs) (DpState.init seed ufid_seed) cmds) :
    ActsAccepted (DpState.init seed ufid_seed) ∧
      RunHolds (flowCmdStep hs) (fun _ _ _ s' => ActsAccepted s') (DpState.init seed ufid_seed) cmds := by
  have hinit := DpState.init_inv hs seed ufid_seed
  refine ⟨hinit.accepted, runHolds_of_runMeets (fun s cmd hinv hkey => ?_) hinit hcmds⟩
  obtain ⟨r, s', hok, hinv'⟩ := flowCmdStep_inv hinv hkey
  exact ⟨r, s', hok, hinv'.accepted, hinv'⟩

/-- The key of Ethernet frames of some type. -/
def plainKeyAttrs : List (BitVec 8) :=
  nlaPut .ethernet (List.replicate 12 0) ++ nlaPut .ethertype [0x12, 0x34]

/-- The key of MPLS frames. -/
def mplsKeyAttrs : List (BitVec 8) :=
  nlaPut .ethernet (List.replicate 12 0) ++ nlaPut .ethertype [0x88, 0x47] ++ nlaPut .mpls [0, 0, 1, 0]

/-- POP_MPLS, with an IPv4 packet below. -/
def popMplsAttrs : List (BitVec 8) := [6, 0, 10, 0, 8, 0, 0, 0]

/-- A flow with an identifier and without actions. -/
def installPlain : FlowCmd := .new plainCmdEnv ⟨some plainKeyAttrs, none, some [], some [1]⟩ true

/-- Install a flow, and set its actions with its own key. -/
theorem flowCmdRun_accepted_install_set :
    ActsAccepted (DpState.init 0 0) ∧
      RunHolds (flowCmdStep plainHashes) (fun _ _ _ s' => ActsAccepted s') (DpState.init 0 0)
        [installPlain, .set plainCmdEnv ⟨some plainKeyAttrs, none, some [], some [1]⟩] := by
  have hrun : ((flowCmdStep plainHashes (DpState.init 0 0) installPlain).toOption.any fun p =>
      (setFlowOf plainCmdEnv ⟨some plainKeyAttrs, none, some [], some [1]⟩).toOption.any fun q =>
        q.2.1.any fun m =>
          (lookupFlow plainHashes p.2.table.table plainCmdEnv.stack q.1 (some m)).toOption.any fun found =>
            found.any fun flow => decide (maskedKey m = (p.2.table.table.flows flow).key)) = true := by
    decide +kernel
  obtain ⟨p, hstep, hrun⟩ := toOption_any_iff.mp hrun
  obtain ⟨q, hset, hrun⟩ := toOption_any_iff.mp hrun
  refine flowCmdRun_accepted plainHashes 0 0 _ ⟨fun _ _ _ _ hcreate => absurd hcreate.symm Bool.false_ne_true, ?_⟩
  intro r s' hok
  refine ⟨fun ufid m acts flow hset' hlookup => ?_, fun _ _ _ => trivial⟩
  obtain rfl := Except.ok.inj (hstep.symm.trans hok)
  obtain rfl := Except.ok.inj (hset.symm.trans hset')
  obtain ⟨found, hfound, hkey⟩ := toOption_any_iff.mp hrun
  obtain rfl := Except.ok.inj (hfound.symm.trans hlookup)
  exact of_decide_eq_true hkey

/-- Whether the first action is a POP_MPLS. -/
def beginsWithPopMpls : List Action → Bool
  | .popMpls _ :: _ => true
  | _ => false

/-- Install a flow, and set its actions by its identifier with the key of MPLS frames. The flow gets a
POP_MPLS that is accepted for no frame that it is for. -/
theorem flowCmdRun_foreign_key :
    ∃ s, runAll (flowCmdStep plainHashes) (DpState.init 0 0)
        [installPlain, .set plainCmdEnv ⟨some mplsKeyAttrs, none, some popMplsAttrs, some [1]⟩] = .ok s ∧
      ¬ ActsAccepted s := by
  have hrun : ((runAll (flowCmdStep plainHashes) (DpState.init 0 0)
        [installPlain, .set plainCmdEnv ⟨some mplsKeyAttrs, none, some popMplsAttrs, some [1]⟩]).toOption.any
      fun s => decide (0 ∈ s.table.flows) && !ethPMpls (s.table.table.flows 0).key.ethType &&
        beginsWithPopMpls (s.sf_acts 0)) = true := by
    decide +kernel
  obtain ⟨s, heq, hrun⟩ := toOption_any_iff.mp hrun
  rw [Bool.and_eq_true, Bool.and_eq_true, decide_eq_true_iff, Bool.not_eq_true'] at hrun
  obtain ⟨⟨hmem, htype⟩, hacts⟩ := hrun
  refine ⟨s, heq, fun haccepted => ?_⟩
  obtain ⟨env, attr, hcopy⟩ := haccepted 0 hmem
  -- what is accepted for the flow begins with an action that fits its type
  have hvalidated := validated_of_copy hcopy
  generalize s.sf_acts 0 = acts at hacts hvalidated
  cases hvalidated with
  | nil => cases hacts
  | cons haction _ =>
      cases haction with
      | popMpls hmpls _ =>
          have hmpls : ethPMpls (s.table.table.flows 0).key.ethType = true := hmpls
          rw [htype] at hmpls
          cases hmpls
      | _ => cases hacts
  | sample _ _ _ => cases hacts

end OvsDatapath.Datapath
