import OvsDatapath.Datapath.FlowCmd
import OvsDatapath.Flow.MatchFacts

/-!
# What a command does

A command that is refused leaves everything as it was. One that is carried out has inserted the flow
of its request, stored actions in a flow that a lookup has found, removed such a flow, or flushed the
table. `CmdEffect` lists these outcomes with what the command has seen on the way, and
`flowCmdStep_effect` says that there are no others: on a table that is in order, no command runs into
a fault.
-/

namespace OvsDatapath.Datapath

open OvsDatapath.Lib OvsDatapath.Flow OvsDatapath.Actions

variable {hs : Hashes} {s : DpState} {env : FlowCmdEnv} {a : FlowAttrs}

/-- The table is in order, and the next flow is not in it. -/
structure DpState.TableOk (hs : Hashes) (s : DpState) : Prop where
  table : s.table.Inv hs
  fresh : ∀ flow ∈ s.table.flows, flow < s.next_flow

theorem DpState.init_tableOk (hs : Hashes) (seed ufid_seed : BitVec 32) :
    (DpState.init seed ufid_seed).TableOk hs :=
  ⟨TableState.init_inv hs seed ufid_seed, nofun⟩

/-- The state after a flow has been inserted, or could not be. -/
def DpState.inserted (s : DpState) (table : TableState) (err : Int) (acts : List Action) : DpState :=
  let s' : DpState := { s with table := table, next_flow := s.next_flow + 1 }
  if err = 0 then s'.setActs s.next_flow acts else s'

@[simp] theorem DpState.inserted_table (s : DpState) (table : TableState) (err : Int) (acts : List Action) :
    (s.inserted table err acts).table = table := by
  unfold DpState.inserted
  split <;> rfl

@[simp] theorem DpState.inserted_next_flow (s : DpState) (table : TableState) (err : Int)
    (acts : List Action) : (s.inserted table err acts).next_flow = s.next_flow + 1 := by
  unfold DpState.inserted
  split <;> rfl

/-- The outcomes of a command. -/
inductive CmdEffect (hs : Hashes) (s : DpState) : FlowCmd → DpState → Prop
  | kept {cmd} : CmdEffect hs s cmd s
  | inserted {env a create_or_excl r err table} (hnew : newFlowOf env a = .ok r)
      (hdup : duplicateFlow hs s.table.table env.stack r = .ok none)
      (hins : tableStep hs s.table (.insert s.next_flow r.parsed.key r.id r.mask env.table) =
        .ok (err, table)) :
      CmdEffect hs s (.new env a create_or_excl) (s.inserted table err r.acts)
  | updated {env a r found flow} (hnew : newFlowOf env a = .ok r)
      (hdup : duplicateFlow hs s.table.table env.stack r = .ok (some found))
      (hupd : updatedFlow hs s.table.table env.stack r found = .ok (some flow)) :
      CmdEffect hs s (.new env a false) (s.setActs flow r.acts)
  | replaced {env a ufid m acts flow} (hset : setFlowOf env a = .ok (ufid, m, some acts))
      (hlookup : lookupFlow hs s.table.table env.stack ufid m = .ok (some flow)) :
      CmdEffect hs s (.set env a) (s.setActs flow acts)
  | removed {env a flow r table} (hmem : flow ∈ s.table.flows)
      (hrem : tableStep hs s.table (.remove flow env.table.array_alloc) = .ok (r, table)) :
      CmdEffect hs s (.del env a) { s with table := table }
  | flushed {env a err table}
      (hflush : tableStep hs s.table (.flush env.table.table_alloc env.table.ufid_alloc) =
        .ok (err, table)) :
      CmdEffect hs s (.del env a) { s with table := table }

/-! ## The lookups -/

theorem lookupFlow_spec {leaked : Nat → Nat} (h : TableInv hs s.table.table s.table.flows leaked)
    (stack : Nat → SwFlowKey) (ufid : Option (List (BitVec 8))) (m : Option SwFlowMatch) :
    ∃ r, lookupFlow hs s.table.table stack ufid m = .ok r ∧ ∀ flow, r = some flow → flow ∈ s.table.flows := by
  cases ufid with
  | some ufid =>
      obtain ⟨r, hok, hfound, -⟩ := ovsFlowTblLookupUfid_spec h ufid
      exact ⟨r, hok, fun flow hflow => (hfound flow hflow).1⟩
  | none =>
      cases m with
      | none => exact ⟨none, rfl, nofun⟩
      | some m =>
          obtain ⟨r, hok, hfound⟩ := ovsFlowTblLookupExact_spec h stack m
          exact ⟨r, hok, fun flow hflow => (hfound flow hflow).1⟩

theorem ovsFlowTblLookup_found {leaked : Nat → Nat} (h : TableInv hs s.table.table s.table.flows leaked)
    (stack : Nat → SwFlowKey) (key : SwFlowKey) :
    ∃ r, ovsFlowTblLookup hs s.table.table stack key = .ok r ∧
      (r.isSome ↔ ∃ flow ∈ s.table.flows, Matches s.table.table key flow) ∧
      ∀ flow, r = some flow → flow ∈ s.table.flows := by
  obtain ⟨r, hok, hiff, hfound⟩ := h.correct.lookup stack key
  exact ⟨r, hok, hiff, fun flow hflow => (hfound flow hflow).1⟩

/-- No duplicate is found only if there is none: no flow has the identifier, and none matches the masked
key. -/
theorem duplicateFlow_spec {leaked : Nat → Nat} (h : TableInv hs s.table.table s.table.flows leaked)
    (stack : Nat → SwFlowKey) (r : NewFlow) :
    ∃ o, duplicateFlow hs s.table.table stack r = .ok o ∧
      (∀ flow, o = some flow → flow ∈ s.table.flows) ∧
      (o = none → (∀ flow ∈ s.table.flows, ¬ Matches s.table.table (maskedKey r.parsed) flow) ∧
        ∀ ufid, r.id = .ufid ufid → ∀ flow ∈ s.table.flows, (s.table.table.flows flow).id ≠ .ufid ufid) := by
  obtain ⟨o₂, hok₂, hiff, hfound₂⟩ := ovsFlowTblLookup_found h stack (maskedKey r.parsed)
  have hmatch : o₂ = none → ∀ flow ∈ s.table.flows, ¬ Matches s.table.table (maskedKey r.parsed) flow := by
    rintro rfl flow hflow hmatch
    exact absurd (hiff.mpr ⟨flow, hflow, hmatch⟩) Bool.false_ne_true
  unfold duplicateFlow
  cases r.id with
  | unmaskedKey key => exact ⟨o₂, hok₂, hfound₂, fun ho => ⟨hmatch ho, nofun⟩⟩
  | ufid ufid =>
      obtain ⟨o₁, hok₁, hfound₁, hnone₁⟩ := ovsFlowTblLookupUfid_spec h ufid
      dsimp only
      rw [hok₁, ok_bind]
      cases o₁ with
      | none =>
          refine ⟨o₂, hok₂, hfound₂, fun ho => ⟨hmatch ho, fun bytes hbytes => ?_⟩⟩
          cases hbytes
          exact hnone₁ rfl
      | some flow => exact ⟨some flow, rfl, fun f hf => (hfound₁ f hf).1, nofun⟩

theorem updatedFlow_spec {leaked : Nat → Nat} (h : TableInv hs s.table.table s.table.flows leaked)
    (stack : Nat → SwFlowKey) (r : NewFlow) {found : Nat} (hfound : found ∈ s.table.flows) :
    ∃ o, updatedFlow hs s.table.table stack r found = .ok o ∧
      ∀ flow, o = some flow → flow ∈ s.table.flows := by
  unfold updatedFlow
  split_ifs
  · refine ⟨some found, rfl, fun flow hflow => ?_⟩
    obtain rfl := Option.some.inj hflow
    exact hfound
  · exact ⟨none, rfl, nofun⟩
  · obtain ⟨o, hok, hexact⟩ := ovsFlowTblLookupExact_spec h stack r.match
    exact ⟨o, hok, fun flow hflow => (hexact flow hflow).1⟩

/-! ## The commands -/

/-- The mask of a request is one that stores have built. -/
theorem newFlowOf_builtMask {r : NewFlow} (h : newFlowOf env a = .ok r) : BuiltMask r.mask := by
  unfold newFlowOf at h
  split at h
  case h_2 => cases h
  case h_1 key actions _ _ =>
    split at h
    · cases h
    obtain ⟨m, hmatch, h⟩ := bind_eq_ok.mp h
    obtain ⟨id, -, h⟩ := bind_eq_ok.mp h
    obtain ⟨acts, -, h⟩ := bind_eq_ok.mp h
    split_ifs at h
    obtain rfl := Except.ok.inj h
    exact ovsNlaGetMatch_builtMask hmatch

theorem ovsFlowCmdNew_effect (h : s.TableOk hs) (env : FlowCmdEnv) (a : FlowAttrs) (create_or_excl : Bool) :
    ∃ r s', ovsFlowCmdNew hs s env a create_or_excl = .ok (r, s') ∧
      CmdEffect hs s (.new env a create_or_excl) s' := by
  obtain ⟨leaked, htable⟩ := h.table
  unfold ovsFlowCmdNew
  cases hnew : newFlowOf env a with
  | error e => exact ⟨e, s, rfl, .kept⟩
  | ok r =>
      dsimp only
      by_cases hdp : (!env.dp) = true
      · rw [if_pos hdp]
        exact ⟨enodev, s, rfl, .kept⟩
      rw [if_neg hdp]
      obtain ⟨o, hok, hfound, -⟩ := duplicateFlow_spec htable env.stack r
      rw [hok, ok_bind]
      cases o with
      | none =>
          have hfresh : s.next_flow ∉ s.table.flows := fun hmem => lt_irrefl _ (h.fresh _ hmem)
          obtain ⟨err, table, hins, -⟩ :=
            tableStep_insert htable hfresh (newFlowOf_builtMask hnew) r.parsed.key r.id env.table
          dsimp only
          rw [hins, ok_bind]
          exact ⟨err, _, rfl, .inserted hnew hok hins⟩
      | some found =>
          dsimp only
          cases create_or_excl with
          | true => exact ⟨eexist, s, rfl, .kept⟩
          | false =>
              obtain ⟨o, hupd, -⟩ := updatedFlow_spec htable env.stack r (hfound found rfl)
              rw [if_neg Bool.false_ne_true, hupd, ok_bind]
              cases o with
              | none => exact ⟨enoent, s, rfl, .kept⟩
              | some flow => exact ⟨0, _, rfl, .updated hnew hok hupd⟩

theorem ovsFlowCmdSet_effect (h : s.TableOk hs) (env : FlowCmdEnv) (a : FlowAttrs) :
    ∃ r s', ovsFlowCmdSet hs s env a = .ok (r, s') ∧ CmdEffect hs s (.set env a) s' := by
  obtain ⟨leaked, htable⟩ := h.table
  unfold ovsFlowCmdSet
  cases hset : setFlowOf env a with
  | error e => exact ⟨e, s, rfl, .kept⟩
  | ok r =>
      obtain ⟨ufid, m, acts⟩ := r
      dsimp only
      by_cases hdp : (!env.dp) = true
      · rw [if_pos hdp]
        exact ⟨enodev, s, rfl, .kept⟩
      rw [if_neg hdp]
      obtain ⟨o, hok, -⟩ := lookupFlow_spec htable env.stack ufid m
      rw [hok, ok_bind]
      cases o with
      | none => exact ⟨enoent, s, rfl, .kept⟩
      | some flow =>
          cases acts with
          | none => exact ⟨env.reply, s, rfl, .kept⟩
          | some acts => exact ⟨0, _, rfl, .replaced hset hok⟩

theorem ovsFlowCmdDel_effect (h : s.TableOk hs) (env : FlowCmdEnv) (a : FlowAttrs) :
    ∃ r s', ovsFlowCmdDel hs s env a = .ok (r, s') ∧ CmdEffect hs s (.del env a) s' := by
  obtain ⟨leaked, htable⟩ := h.table
  unfold ovsFlowCmdDel
  dsimp only
  cases hmatch : matchOf env false a with
  | error e => exact ⟨e, s, rfl, .kept⟩
  | ok m =>
      dsimp only
      by_cases hdp : (!env.dp) = true
      · rw [if_pos hdp]
        exact ⟨enodev, s, rfl, .kept⟩
      rw [if_neg hdp]
      by_cases hall : (m.isNone && (ovsNlaGetUfid a.ufid).isNone) = true
      · have hallowed : TableOp.Allowed s.table (.flush env.table.table_alloc env.table.ufid_alloc) :=
          trivial
        obtain ⟨err, table, hflush, -⟩ := tableStep_spec htable hallowed
        rw [if_pos hall, hflush, ok_bind]
        exact ⟨err, _, rfl, .flushed hflush⟩
      · obtain ⟨o, hok, hfound⟩ := lookupFlow_spec htable env.stack (ovsNlaGetUfid a.ufid) m
        rw [if_neg hall, hok, ok_bind]
        cases o with
        | none => exact ⟨enoent, s, rfl, .kept⟩
        | some flow =>
            have hallowed : TableOp.Allowed s.table (.remove flow env.table.array_alloc) :=
              hfound flow rfl
            obtain ⟨r, table, hremove, -⟩ := tableStep_spec htable hallowed
            dsimp only
            rw [hremove, ok_bind]
            exact ⟨0, _, rfl, .removed (hfound flow rfl) hremove⟩

/-- **A command has one of the outcomes.** -/
theorem flowCmdStep_effect (h : s.TableOk hs) (cmd : FlowCmd) :
    ∃ r s', flowCmdStep hs s cmd = .ok (r, s') ∧ CmdEffect hs s cmd s' := by
  cases cmd with
  | new env a create_or_excl => exact ovsFlowCmdNew_effect h env a create_or_excl
  | set env a => exact ovsFlowCmdSet_effect h env a
  | del env a => exact ovsFlowCmdDel_effect h env a

/-- Whatever the outcome, the table stays in order. -/
theorem CmdEffect.tableOk {cmd : FlowCmd} {s' : DpState} (heffect : CmdEffect hs s cmd s')
    (h : s.TableOk hs) : s'.TableOk hs := by
  obtain ⟨⟨leaked, htable⟩, hfresh⟩ := h
  cases heffect with
  | kept => exact ⟨⟨leaked, htable⟩, hfresh⟩
  | updated | replaced => exact ⟨⟨leaked, htable⟩, hfresh⟩
  | inserted hnew _ hins =>
      have hnotin : s.next_flow ∉ s.table.flows := fun hmem => lt_irrefl _ (hfresh _ hmem)
      obtain ⟨err, table, hok, hinv, -⟩ :=
        tableStep_insert htable hnotin (newFlowOf_builtMask hnew) _ _ _
      obtain ⟨rfl, rfl⟩ := Prod.mk.inj (Except.ok.inj (hins.symm.trans hok))
      refine ⟨⟨leaked, by rw [DpState.inserted_table]; exact hinv⟩, fun flow hflow => ?_⟩
      rw [DpState.inserted_table] at hflow
      rw [DpState.inserted_next_flow]
      dsimp only at hflow
      split_ifs at hflow
      · rcases Finset.mem_insert.mp hflow with rfl | hold
        · exact Nat.lt_succ_self _
        · exact Nat.lt_succ_of_lt (hfresh flow hold)
      · exact Nat.lt_succ_of_lt (hfresh flow hflow)
  | removed hmem hrem =>
      obtain ⟨r, table, hok, hinv, hflows, -⟩ :=
        tableStep_spec htable (show TableOp.Allowed s.table (.remove _ _) from hmem)
      obtain ⟨rfl, rfl⟩ := Prod.mk.inj (Except.ok.inj (hrem.symm.trans hok))
      refine ⟨⟨_, hinv⟩, fun flow hflow => hfresh flow ?_⟩
      exact Finset.erase_subset _ _ (hflows ▸ hflow)
  | flushed hflush =>
      obtain ⟨r, table, hok, hinv, hflows, -⟩ :=
        tableStep_spec htable (show TableOp.Allowed s.table (.flush _ _) from trivial)
      obtain ⟨rfl, rfl⟩ := Prod.mk.inj (Except.ok.inj (hflush.symm.trans hok))
      refine ⟨⟨_, hinv⟩, fun flow hflow => hfresh flow ?_⟩
      rcases hflows with heq | heq
      · exact heq ▸ hflow
      · rw [heq] at hflow
        exact absurd hflow (Finset.notMem_empty flow)

end OvsDatapath.Datapath
