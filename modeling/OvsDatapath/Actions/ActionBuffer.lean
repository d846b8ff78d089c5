import OvsDatapath.Actions.Resources
import OvsDatapath.Lib.Wrap

/-!
# The buffer of an action list

`ovs_nla_copy_actions` once more, with the memory that the list is written to. The buffer starts with room
for as many bytes as the request has. `reserve_sfa_size` makes room for the next attribute: if there is not
enough left, the list is copied to a buffer twice as large, or to one of the maximal size.

What is stored may be larger than what was sent, so that one attribute can need more than the doubled
buffer. Each call of `reserve_sfa_size` is recorded, with the list before and after it.
`reserve_sufficient_iff` says that all calls of a run are sufficient if and only if each of them comes upon
room, upon the maximal size, or upon a doubled buffer that is large enough.
-/

namespace OvsDatapath.Actions.Mem

open OvsDatapath.Lib OvsDatapath.Flow

/-! ## Memory -/

/-- `sizeof(struct sw_flow_actions)`. -/
def sfaSize : Nat := 32

/-- `offsetof(struct sw_flow_actions, actions)`. -/
def sfaActions : Nat := 28

/-- `-EMSGSIZE`. -/
def emsgsize : Int := -90

/-- `struct sw_flow_actions` in its allocation, and the two fields of it that are used. -/
structure SwFlowActions where
  /-- The bytes of the allocation. `ksize` is their number. -/
  block : List (BitVec 8)
  orig_len : Nat
  actions_len : Nat

/-- What the code gets from outside. -/
structure BufferEnv where
  /-- `MAX_ACTIONS_BUFSIZE`, which depends on the version of the kernel. -/
  max_actions_bufsize : Nat
  bufsize_le : max_actions_bufsize ≤ 32 * 1024
  /-- The block that a call of `kmalloc` returns for a size, with whatever it contains. -/
  kmalloc : Nat → Nat → Option (List (BitVec 8))
  kmalloc_size : ∀ {call size block}, kmalloc call size = some block → size ≤ block.length
  /-- `ksize` is a `size_t`. -/
  ksize_lt : ∀ {call size block}, kmalloc call size = some block → block.length < 2 ^ 64
  /-- `USE_UPSTREAM_TUNNEL`. -/
  upstream_tunnel : Bool
  /-- The pointer to a tunnel destination that is allocated when the list has some length. -/
  tun_dst : Nat → Except Int (List (BitVec 8))
  /-- The `struct ovs_conntrack_info` that `ovs_ct_copy_action` prepares. -/
  ct_info : List (BitVec 8) → SwFlowKey → Except Int (List (BitVec 8))

/-- The checks of the validator, with everything granted that it allocates. -/
def BufferEnv.granting (env : BufferEnv) : ActionsEnv where
  max_actions_bufsize := env.max_actions_bufsize
  sfa_alloc := true
  reserve_sfa_size := fun _ _ => 0
  tun_dst := 0
  upstream_tunnel := env.upstream_tunnel
  ct_info := env.ct_info

/-- Write some bytes. Those past the end of the block are lost. -/
def putBytes (block : List (BitVec 8)) (off : Nat) (data : List (BitVec 8)) : List (BitVec 8) :=
  (block.take off ++ data ++ block.drop (off + data.length)).take block.length

/-- The first bytes of the list. -/
def SwFlowActions.stored (sfa : SwFlowActions) (len : Nat) : List (BitVec 8) :=
  (sfa.block.drop sfaActions).take len

/-- The list lies in its block. -/
structure SwFlowActions.Valid (sfa : SwFlowActions) : Prop where
  within : sfaActions + sfa.actions_len ≤ sfa.block.length
  ksize_lt : sfa.block.length < 2 ^ 64

/-! ## Reserving -/

/-- `nla_alloc_flow_actions`. The size that is asked for is computed in a `size_t`. -/
def nlaAllocFlowActions (env : BufferEnv) (call : Nat) (size : Int) : Except Int SwFlowActions :=
  if env.max_actions_bufsize < size then .error einval
  else
    match env.kmalloc call ((sfaSize + size) % 2 ^ 64).toNat with
    | none => .error enomem
    | some block => .ok ⟨block, 0, 0⟩

/-- `ksize(*sfa) * 2`, as an `int`. -/
def doubledSize (sfa : SwFlowActions) : Int := signed 32 (sfa.block.length * 2)

/-- The size of a larger buffer. -/
def newActsSize (env : BufferEnv) (sfa : SwFlowActions) (req_size : Nat) : Except Int Int :=
  if env.max_actions_bufsize < doubledSize sfa then
    if (env.max_actions_bufsize : Int) - (sfaActions + sfa.actions_len : Nat) < req_size then .error emsgsize
    else .ok env.max_actions_bufsize
  else .ok (doubledSize sfa)

/-- The part of `reserve_sfa_size` that gets a larger buffer. -/
def growSfa (env : BufferEnv) (call : Nat) (sfa : SwFlowActions) (req_size : Nat) :
    Except Int SwFlowActions := do
  let new_acts_size ← newActsSize env sfa req_size
  let acts ← nlaAllocFlowActions env call new_acts_size
  .ok { block := putBytes acts.block sfaActions (sfa.stored sfa.actions_len)
        orig_len := sfa.orig_len
        actions_len := sfa.actions_len }

/-- `reserve_sfa_size`: the offset of the new attribute, or an error, and the list. -/
def reserveSfaSize (env : BufferEnv) (call : Nat) (sfa : SwFlowActions) (attr_len : Nat) :
    Except Int Nat × SwFlowActions :=
  let req_size := nlaAlign attr_len
  let next_offset := sfaActions + sfa.actions_len
  if (req_size : Int) ≤ ((sfa.block.length : Int) - next_offset) % 2 ^ 64 then
    (.ok next_offset, { sfa with actions_len := sfa.actions_len + req_size })
  else
    match growSfa env call sfa req_size with
    | .error err => (.error err, sfa)
    | .ok acts => (.ok next_offset, { acts with actions_len := sfa.actions_len + req_size })

/-! ## Copying -/

/-- A call of `reserve_sfa_size`, with the list before it and what came of it. -/
structure ReserveCall where
  call : Nat
  before : SwFlowActions
  attr_len : Nat
  result : Except Int Nat × SwFlowActions

/-- The list, and the record of the calls. -/
structure BufferState where
  sfa : SwFlowActions
  calls : List ReserveCall

/-- A computation on the list. -/
abbrev BufferM := Effect BufferState Int

/-- Reserve, with a record of the call. -/
def reserve (env : BufferEnv) (attr_len : Nat) : BufferM Nat := do
  let st ← get
  let result := reserveSfaSize env (st.calls.length + 1) st.sfa attr_len
  modify fun st => ⟨result.2, st.calls ++ [⟨st.calls.length + 1, st.sfa, attr_len, result⟩]⟩
  match result.1 with
  | .ok next_offset => pure next_offset
  | .error err => throw err

/-- Write to the list. -/
def put (off : Nat) (data : List (BitVec 8)) : BufferM Unit :=
  modify fun st => { st with sfa := { st.sfa with block := putBytes st.sfa.block off data } }

/-- The header of an attribute. -/
def nlaHeader (nla_len nla_type : Nat) : List (BitVec 8) :=
  [nla_len % 256, nla_len / 256, nla_type % 256, nla_type / 256].map (BitVec.ofNat 8)

/-- `__add_action`: the offset of the attribute. Without data it is left as it is in memory. -/
def addAction (env : BufferEnv) (attrtype : Nat) (data : Option (List (BitVec 8))) (len : Nat) :
    BufferM Nat := do
  let a ← reserve env (nlaHdrlen + len)
  put a (nlaHeader (nlaHdrlen + len) attrtype)
  match data with
  | some data => put (a + nlaHdrlen) data
  | none => pure ()
  put (a + (nlaHdrlen + len)) (List.replicate (nlaAlign (nlaHdrlen + len) - (nlaHdrlen + len)) 0)
  pure a

/-- `add_nested_action_start`. -/
def addNestedActionStart (env : BufferEnv) (attrtype : Nat) : BufferM Nat := do
  let st ← get
  let used := st.sfa.actions_len
  let _ ← addAction env attrtype none 0
  pure used

/-- `add_nested_action_end`. -/
def addNestedActionEnd (st_offset : Nat) : BufferM Unit := do
  let st ← get
  put (sfaActions + st_offset) ((nlaHeader (st.sfa.actions_len - st_offset) 0).take 2)

/-- `copy_action`, of an attribute with its padding. -/
def copyAction (env : BufferEnv) (src : List (BitVec 8)) (nla_len : Nat) : BufferM Unit := do
  let a ← reserve env nla_len
  put a src

/-- The part of `validate_and_copy_set_tun` behind the checks. -/
def copySetTun (env : BufferEnv) : BufferM Unit := do
  let start ← addNestedActionStart env (Sfa.typeOf .set)
  let st ← get
  let tun_dst ← env.tun_dst st.sfa.actions_len
  let a ← addAction env (ovsKeyAttrs.idxOf .tunnelInfo) none 8
  put (a + nlaHdrlen) tun_dst
  addNestedActionEnd start

/-- The part of `validate_set` behind the checks, for a set action that is not copied as it is. -/
def copySet (env : BufferEnv) (data : List (BitVec 8)) : BufferM Unit := do
  match setKey data with
  | none => throw einval
  | some (.tunnel, _) => copySetTun env
  | some (attr, ovs_key) => do
      let start ← addNestedActionStart env Sfa.ovsActionAttrSetToMasked
      let a ← addAction env (ovsKeyAttrs.idxOf attr) none (ovs_key.length * 2)
      put (a + nlaHdrlen) ovs_key
      put (a + nlaHdrlen + ovs_key.length) (fullMask attr ovs_key.length)
      addNestedActionEnd start

/-- `ovs_ct_copy_action`. -/
def ovsCtCopyAction (env : BufferEnv) (key : SwFlowKey) (data : List (BitVec 8)) : BufferM Unit := do
  let ct_info ← env.ct_info data key
  let _ ← addAction env (Sfa.typeOf .ct) (some ct_info) ct_info.length

/-- The part of `validate_and_copy_sample` behind the checks; `copy` goes through the nested actions. -/
def copySample (env : BufferEnv) (copy : List (BitVec 8) → BufferM Unit) (data : List (BitVec 8))
    (last : Bool) : BufferM Unit := do
  let start ← addNestedActionStart env (Sfa.typeOf .sample)
  let _ ← addAction env Sfa.ovsSampleAttrArg (some (Sfa.sampleArg data last)) 8
  copy (Sfa.sampleAttr data ovsSampleAttrActions)
  addNestedActionEnd start

/-- An attribute of the list: the switch of `__ovs_nla_copy_actions` and `copy_action`. -/
def copyAttr (env : BufferEnv) (key : SwFlowKey) (copy : CopyState → List (BitVec 8) → BufferM Unit)
    (st : CopyState) (src data : List (BitVec 8)) (last : Bool) : OvsActionAttr → BufferM CopyState
  | .sample => do
      let _ ← validateAndCopySample env.granting (fun _ sfa => .ok sfa) ⟨0, []⟩ data last
      copySample env (copy (Sfa.nestedState key st)) data last
      pure st
  | .ct => do
      ovsCtCopyAction env key data
      pure st
  | attr => do
      let (st, action, _) ←
        copyActionsSwitch env.granting key (fun _ _ sfa => .ok sfa) st ⟨0, []⟩ data last attr
      match action with
      | some _ => copyAction env src (nlaHdrlen + data.length)
      | none => copySet env data
      pure st

/-- The loop of `__ovs_nla_copy_actions`. -/
def copyActionsLoop (env : BufferEnv) (key : SwFlowKey) :
    Nat → CopyState → List (BitVec 8) → BufferM Unit
  | 0, _, l => if l = [] then pure () else throw einval
  | fuel + 1, st, l =>
      match nlaOk l with
      | none => if l = [] then pure () else throw einval
      | some nla_len =>
          let data := (l.take nla_len).drop nlaHdrlen
          match ovsActionAttrs[nlaType l]? with
          | none => throw einval
          | some attr =>
              if (actionLens attr).any (· ≠ data.length) then throw einval
              else do
                let st ← copyAttr env key (copyActionsLoop env key fuel) st (l.take (nlaAlign nla_len)) data
                  (nla_len == l.length) attr
                copyActionsLoop env key fuel st (l.drop (nlaAlign nla_len))

/-- `ovs_nla_copy_actions`: the error if there is one, and the list with the record of the calls. -/
def ovsNlaCopyActions (env : BufferEnv) (attr : List (BitVec 8)) (key : SwFlowKey) :
    Except Int Unit × Option BufferState :=
  match nlaAllocFlowActions env 0 attr.length with
  | .error err => (.error err, none)
  | .ok sfa =>
      let (result, st) := (copyActionsLoop env key attr.length (copyStateOf key) attr).exec
        ⟨{ sfa with orig_len := attr.length }, []⟩
      (result, some st)

/-- The calls of `reserve_sfa_size` in a run. -/
def reserveCalls (env : BufferEnv) (attr : List (BitVec 8)) (key : SwFlowKey) : List ReserveCall :=
  match (ovsNlaCopyActions env attr key).2 with
  | none => []
  | some st => st.calls

/-! ## What a call is to do -/

/-- The reserved bytes lie in the block and what is stored is as before, or nothing has changed. -/
def ReserveCall.Sufficient (c : ReserveCall) : Prop :=
  match c.result with
  | (.ok next_offset, sfa) =>
      next_offset = sfaActions + c.before.actions_len ∧
      next_offset + nlaAlign c.attr_len ≤ sfa.block.length ∧
      sfa.stored c.before.actions_len = c.before.stored c.before.actions_len
  | (.error _, sfa) => sfa = c.before

/-- There is room, or the size is limited, or no memory is granted for the doubled size, or a block in
which there is room. -/
def ReserveCall.Enough (env : BufferEnv) (c : ReserveCall) : Prop :=
  let needed := sfaActions + c.before.actions_len + nlaAlign c.attr_len
  needed ≤ c.before.block.length ∨ env.max_actions_bufsize < doubledSize c.before ∨
    ∀ block, env.kmalloc c.call ((sfaSize + doubledSize c.before) % 2 ^ 64).toNat = some block →
      needed ≤ block.length

theorem putBytes_length (block : List (BitVec 8)) (off : Nat) (data : List (BitVec 8)) :
    (putBytes block off data).length = block.length := by
  simp only [putBytes, List.length_take, List.length_append, List.length_drop]
  omega

/-- What is written within the block can be read back. -/
theorem putBytes_read {block data : List (BitVec 8)} {off : Nat} (h : off + data.length ≤ block.length) :
    ((putBytes block off data).drop off).take data.length = data := by
  have hoff : (block.take off).length = off := List.length_take_of_le (by omega)
  have hfits : data.length ≤ block.length - off := by omega
  rw [putBytes, List.drop_take, List.append_assoc, List.drop_append_of_le_length hoff.ge,
    List.drop_eq_nil_of_le hoff.le, List.nil_append, List.take_take, min_eq_left hfits]
  exact List.take_left

theorem SwFlowActions.Valid.stored_length {sfa : SwFlowActions} (h : sfa.Valid) :
    (sfa.stored sfa.actions_len).length = sfa.actions_len := by
  have := h.within
  rw [SwFlowActions.stored, List.length_take, List.length_drop]
  omega

section

variable {env : BufferEnv}

/-- Where a list is copied to a block that is large enough, it is valid there. -/
theorem copied_spec {sfa : SwFlowActions} {block : List (BitVec 8)} (h : sfa.Valid)
    (hroom : sfaActions + sfa.actions_len ≤ block.length) :
    SwFlowActions.stored ⟨putBytes block sfaActions (sfa.stored sfa.actions_len), sfa.orig_len, sfa.actions_len⟩
      sfa.actions_len = sfa.stored sfa.actions_len := by
  have hread := @putBytes_read block (sfa.stored sfa.actions_len) sfaActions (by rw [h.stored_length]; exact hroom)
  rwa [h.stored_length] at hread

/-- What can come of the attempt to get a larger buffer. -/
theorem growSfa_cases (env : BufferEnv) (call : Nat) (sfa : SwFlowActions) (req_size : Nat) :
    (∃ err, growSfa env call sfa req_size = .error err ∧
      (env.max_actions_bufsize < doubledSize sfa ∨
        env.kmalloc call ((sfaSize + doubledSize sfa) % 2 ^ 64).toNat = none)) ∨
    ∃ block, growSfa env call sfa req_size =
        .ok ⟨putBytes block sfaActions (sfa.stored sfa.actions_len), sfa.orig_len, sfa.actions_len⟩ ∧
      block.length < 2 ^ 64 ∧
      (env.max_actions_bufsize < doubledSize sfa ∧
          sfaActions + sfa.actions_len + req_size ≤ block.length ∨
        ¬ env.max_actions_bufsize < doubledSize sfa ∧
          env.kmalloc call ((sfaSize + doubledSize sfa) % 2 ^ 64).toNat = some block) := by
  by_cases hcap : (env.max_actions_bufsize : Int) < doubledSize sfa
  · by_cases hexceeds : (env.max_actions_bufsize : Int) - (sfaActions + sfa.actions_len : Nat) < req_size
    · refine .inl ⟨emsgsize, ?_, .inl hcap⟩
      rw [growSfa, newActsSize, if_pos hcap, if_pos hexceeds, error_bind]
    · rw [growSfa, newActsSize, if_pos hcap, if_neg hexceeds, ok_bind, nlaAllocFlowActions,
        if_neg (lt_irrefl _)]
      cases hblock : env.kmalloc call ((sfaSize + (env.max_actions_bufsize : Int)) % 2 ^ 64).toNat with
      | none => exact .inl ⟨enomem, rfl, .inl hcap⟩
      | some block =>
          -- the maximal size is enough for what is let through
          have hmax := env.bufsize_le
          have hheader : sfaActions ≤ sfaSize ∧ sfaSize ≤ 32 := by decide
          have hsize := env.kmalloc_size hblock
          rw [Int.emod_eq_of_lt (by omega) (by omega)] at hsize
          exact .inr ⟨block, rfl, env.ksize_lt hblock, .inl ⟨hcap, by omega⟩⟩
  · rw [growSfa, newActsSize, if_neg hcap, ok_bind, nlaAllocFlowActions, if_neg hcap]
    cases hblock : env.kmalloc call ((sfaSize + doubledSize sfa) % 2 ^ 64).toNat with
    | none => exact .inl ⟨enomem, rfl, .inr rfl⟩
    | some block => exact .inr ⟨block, rfl, env.ksize_lt hblock, .inr ⟨hcap, rfl⟩⟩

/-- One call, from a valid list: it is sufficient exactly if it comes upon enough, and the list is valid
then. -/
theorem reserveSfaSize_spec {sfa : SwFlowActions} (h : sfa.Valid) (call attr_len : Nat)
    {result : Except Int Nat × SwFlowActions} (hresult : reserveSfaSize env call sfa attr_len = result) :
    (ReserveCall.Sufficient ⟨call, sfa, attr_len, result⟩ ↔
      ReserveCall.Enough env ⟨call, sfa, attr_len, result⟩) ∧
    (ReserveCall.Sufficient ⟨call, sfa, attr_len, result⟩ → result.2.Valid) := by
  have hwithin := h.within
  have hksize := h.ksize_lt
  -- the difference of two sizes, which does not wrap around for a valid list
  have hfits : (nlaAlign attr_len : Int) ≤
      ((sfa.block.length : Int) - (sfaActions + sfa.actions_len : Nat)) % 2 ^ 64 ↔
      sfaActions + sfa.actions_len + nlaAlign attr_len ≤ sfa.block.length := by
    rw [Int.emod_eq_of_lt (by omega) (by omega)]
    omega
  unfold reserveSfaSize at hresult
  by_cases hroom : sfaActions + sfa.actions_len + nlaAlign attr_len ≤ sfa.block.length
  · rw [if_pos (hfits.mpr hroom)] at hresult
    subst hresult
    refine ⟨iff_of_true ⟨rfl, hroom, rfl⟩ (.inl hroom), fun _ => ⟨?_, hksize⟩⟩
    exact (Nat.add_assoc ..).symm.trans_le hroom
  · rw [if_neg (mt hfits.mp hroom)] at hresult
    -- a larger block is needed
    rcases growSfa_cases env call sfa (nlaAlign attr_len) with
      ⟨err, hgrow, henough⟩ | ⟨block, hgrow, hlt, henough⟩
    · rw [hgrow] at hresult
      subst hresult
      refine ⟨iff_of_true rfl ?_, fun _ => h⟩
      rcases henough with hcap | hnone
      · exact .inr (.inl hcap)
      · refine .inr (.inr fun block hblock => ?_)
        cases hnone.symm.trans hblock
    · rw [hgrow] at hresult
      subst hresult
      have hlen := putBytes_length block sfaActions (sfa.stored sfa.actions_len)
      constructor
      · constructor
        · rintro ⟨-, hneeded, -⟩
          rw [hlen] at hneeded
          rcases henough with ⟨hcap, -⟩ | ⟨-, hblock⟩
          · exact .inr (.inl hcap)
          · refine .inr (.inr fun other hother => ?_)
            obtain rfl := Option.some.inj (hblock.symm.trans hother)
            exact hneeded
        · intro hcase
          have hneeded : sfaActions + sfa.actions_len + nlaAlign attr_len ≤ block.length := by
            rcases henough with ⟨-, henough⟩ | ⟨hcap, hblock⟩
            · exact henough
            · rcases hcase with hroom' | hcap' | hall
              · exact absurd hroom' hroom
              · exact absurd hcap' hcap
              · exact hall block hblock
          exact ⟨rfl, hneeded.trans hlen.ge, @copied_spec sfa block h (by omega)⟩
      · rintro ⟨-, hneeded, -⟩
        exact ⟨(Nat.add_assoc ..).symm.trans_le hneeded, hlen.trans_lt hlt⟩

end

/-! ## All calls of a run -/

/-- The calls so far are sufficient if and only if each came upon enough; and the list is valid then. -/
structure BufferInv (env : BufferEnv) (st : BufferState) : Prop where
  sufficient_iff : (∀ c ∈ st.calls, c.Sufficient) ↔ ∀ c ∈ st.calls, c.Enough env
  valid : (∀ c ∈ st.calls, c.Sufficient) → st.sfa.Valid

/-- A computation that keeps this, whether it returns or fails. -/
def Preserved {α : Type} (env : BufferEnv) (x : BufferM α) : Prop := Keeps (BufferInv env) x (BufferInv env)

section

variable {env : BufferEnv} {α β : Type} {x : BufferM α} {f : α → BufferM β}

theorem Preserved.bind (hx : Preserved env x) (hf : ∀ a, Preserved env (f a)) : Preserved env (x >>= f) :=
  Triple.bind hx hf

theorem Preserved.pure (a : α) : Preserved env (pure a) := fun _ h => h

theorem Preserved.throw (err : Int) : Preserved env (throw err : BufferM α) := fun _ h => h

theorem Preserved.get : Preserved env get := fun _ h => h

theorem Preserved.lift (r : Except Int α) : Preserved env (liftM r : BufferM α) := by
  intro st h
  rw [exec_lift]
  cases r <;> exact h

theorem preserved_put (off : Nat) (data : List (BitVec 8)) : Preserved env (put off data) := by
  intro st h
  refine ⟨h.sufficient_iff, fun hall => ?_⟩
  obtain ⟨hwithin, hksize⟩ := h.valid hall
  have hlen := putBytes_length st.sfa.block off data
  exact ⟨hwithin.trans hlen.ge, hlen.trans_lt hksize⟩

/-- The record of a run gets one more call. -/
theorem BufferInv.call {st : BufferState} (h : BufferInv env st) (attr_len : Nat) :
    let result := reserveSfaSize env (st.calls.length + 1) st.sfa attr_len
    BufferInv env ⟨result.2, st.calls ++ [⟨st.calls.length + 1, st.sfa, attr_len, result⟩]⟩ := by
  intro result
  have hall : ∀ p : ReserveCall → Prop,
      (∀ c ∈ st.calls ++ [⟨st.calls.length + 1, st.sfa, attr_len, result⟩], p c) ↔
        (∀ c ∈ st.calls, p c) ∧ p ⟨st.calls.length + 1, st.sfa, attr_len, result⟩ := by
    intro p
    rw [List.forall_mem_append, List.forall_mem_singleton]
  constructor
  · rw [hall, hall, h.sufficient_iff]
    refine and_congr_right fun henough => ?_
    exact (reserveSfaSize_spec (h.valid (h.sufficient_iff.mpr henough)) _ attr_len rfl).1
  · rw [hall]
    rintro ⟨hbefore, hcall⟩
    exact (reserveSfaSize_spec (h.valid hbefore) _ attr_len rfl).2 hcall

theorem preserved_reserve (attr_len : Nat) : Preserved env (reserve env attr_len) := by
  intro st h
  have hcall := h.call attr_len
  unfold reserve
  rw [exec_bind, exec_get]
  dsimp only
  rw [exec_bind, exec_modify]
  dsimp only
  cases hresult : (reserveSfaSize env (st.calls.length + 1) st.sfa attr_len).1 with
  | ok next_offset => exact hcall
  | error err => exact hcall

theorem preserved_addAction (attrtype : Nat) (data : Option (List (BitVec 8))) (len : Nat) :
    Preserved env (addAction env attrtype data len) := by
  apply (preserved_reserve _).bind
  intro a
  apply (preserved_put _ _).bind
  intro _
  cases data with
  | none => exact ((preserved_put _ _).bind fun _ => .pure a)
  | some data => exact (preserved_put _ _).bind fun _ => (preserved_put _ _).bind fun _ => .pure a

theorem preserved_addNestedActionStart (attrtype : Nat) :
    Preserved env (addNestedActionStart env attrtype) := by
  apply Preserved.get.bind
  intro st
  exact (preserved_addAction attrtype none 0).bind fun _ => .pure _

theorem preserved_addNestedActionEnd (st_offset : Nat) : Preserved env (addNestedActionEnd st_offset) := by
  apply Preserved.get.bind
  exact fun st => preserved_put _ _

theorem preserved_copyAction (src : List (BitVec 8)) (nla_len : Nat) :
    Preserved env (copyAction env src nla_len) := by
  apply (preserved_reserve nla_len).bind
  exact fun a => preserved_put a src

theorem preserved_copySetTun : Preserved env (copySetTun env) := by
  apply (preserved_addNestedActionStart _).bind
  intro start
  apply Preserved.get.bind
  intro st
  apply (Preserved.lift _).bind
  intro tun_dst
  apply (preserved_addAction _ _ _).bind
  intro a
  exact (preserved_put _ _).bind fun _ => preserved_addNestedActionEnd start

theorem preserved_copySet (data : List (BitVec 8)) : Preserved env (copySet env data) := by
  unfold copySet
  split
  · exact .throw einval
  · exact preserved_copySetTun
  · apply (preserved_addNestedActionStart _).bind
    intro start
    apply (preserved_addAction _ _ _).bind
    intro a
    apply (preserved_put _ _).bind
    intro _
    exact (preserved_put _ _).bind fun _ => preserved_addNestedActionEnd start

theorem preserved_ovsCtCopyAction (key : SwFlowKey) (data : List (BitVec 8)) :
    Preserved env (ovsCtCopyAction env key data) := by
  apply (Preserved.lift _).bind
  intro ct_info
  exact (preserved_addAction _ _ _).bind fun _ => .pure _

theorem preserved_copySample {copy : List (BitVec 8) → BufferM Unit} (hcopy : ∀ l, Preserved env (copy l))
    (data : List (BitVec 8)) (last : Bool) : Preserved env (copySample env copy data last) := by
  apply (preserved_addNestedActionStart _).bind
  intro start
  apply (preserved_addAction _ _ _).bind
  intro _
  exact (hcopy _).bind fun _ => preserved_addNestedActionEnd start

/-- Only SAMPLE calls the loop again; the other attributes are alike but for CT. -/
theorem preserved_copyAttr {copy : CopyState → List (BitVec 8) → BufferM Unit}
    (hcopy : ∀ st l, Preserved env (copy st l)) (key : SwFlowKey) (st : CopyState)
    (src data : List (BitVec 8)) (last : Bool) (attr : OvsActionAttr) :
    Preserved env (copyAttr env key copy st src data last attr) := by
  cases attr
  case sample =>
    apply (Preserved.lift _).bind
    intro _
    exact (preserved_copySample (hcopy _) data last).bind fun _ => .pure st
  case ct => exact (preserved_ovsCtCopyAction key data).bind fun _ => .pure st
  all_goals
    apply (Preserved.lift _).bind
    rintro ⟨st', action, sfa⟩
    cases action with
    | none => exact (preserved_copySet data).bind fun _ => .pure st'
    | some action => exact (preserved_copyAction _ _).bind fun _ => .pure st'

theorem preserved_copyActionsLoop (key : SwFlowKey) (fuel : Nat) (st : CopyState) (l : List (BitVec 8)) :
    Preserved env (copyActionsLoop env key fuel st l) := by
  induction fuel generalizing st l with
  | zero =>
      unfold copyActionsLoop
      split_ifs
      · exact .pure _
      · exact .throw _
  | succ fuel ih =>
      rw [copyActionsLoop]
      split
      · split_ifs
        · exact .pure _
        · exact .throw _
      · split
        · exact .throw _
        · dsimp only
          split_ifs
          · exact .throw _
          · exact (preserved_copyAttr ih key st _ _ _ _).bind fun st' => ih st' _

end

/-- A list that has just been allocated lies in its block. -/
theorem nlaAllocFlowActions_valid {env : BufferEnv} {call size : Nat} {sfa : SwFlowActions}
    (h : nlaAllocFlowActions env call size = .ok sfa) : sfa.Valid := by
  unfold nlaAllocFlowActions at h
  split_ifs at h with hmax
  have hbufsize := env.bufsize_le
  have hheader : sfaActions ≤ sfaSize ∧ sfaSize ≤ 32 := by decide
  cases hblock : env.kmalloc call ((sfaSize + (size : Int)) % 2 ^ 64).toNat with
  | none =>
      rw [hblock] at h
      cases h
  | some block =>
      rw [hblock] at h
      obtain rfl := Except.ok.inj h
      have hsize := env.kmalloc_size hblock
      rw [Int.emod_eq_of_lt (by omega) (by omega)] at hsize
      exact ⟨by dsimp only; omega, env.ksize_lt hblock⟩

/-- **Every call of a run is sufficient** if and only if each comes upon enough. -/
theorem reserve_sufficient_iff (env : BufferEnv) (attr : List (BitVec 8)) (key : SwFlowKey) :
    (∀ c ∈ reserveCalls env attr key, c.Sufficient) ↔ ∀ c ∈ reserveCalls env attr key, c.Enough env := by
  unfold reserveCalls ovsNlaCopyActions
  cases halloc : nlaAllocFlowActions env 0 attr.length with
  | error err => simp
  | ok sfa =>
      have hvalid := nlaAllocFlowActions_valid halloc
      have hstart : BufferInv env ⟨{ sfa with orig_len := attr.length }, []⟩ :=
        ⟨by simp, fun _ => ⟨hvalid.within, hvalid.ksize_lt⟩⟩
      exact ((preserved_copyActionsLoop key attr.length (copyStateOf key) attr).exec hstart).sufficient_iff

/-- An allocator that rounds no size up, and a `struct ovs_conntrack_info` of 112 bytes. -/
def exactEnv : BufferEnv where
  max_actions_bufsize := 16 * 1024
  bufsize_le := by decide
  kmalloc _ size := if size ≤ 64 * 1024 then some (List.replicate size 0) else none
  kmalloc_size := by
    intro call size block h
    split_ifs at h
    rw [← Option.some.inj h, List.length_replicate]
  ksize_lt := by
    intro call size block h
    split_ifs at h
    rw [← Option.some.inj h, List.length_replicate]
    omega
  upstream_tunnel := true
  tun_dst _ := .error enomem
  ct_info _ key :=
    if key.ethType = ethPIp ∨ key.ethType = ethPIpv6 then .ok (List.replicate 112 0) else .error einval

/-- One CT action without attributes, for an IPv4 flow. The list starts in a block of 36 bytes, the action needs 116, and
the doubled buffer has 104. -/
theorem reserve_not_sufficient :
    ¬ ∀ c ∈ reserveCalls exactEnv [4, 0, 12, 0] Sfa.ipFlowKey, c.Sufficient := by
  intro hall
  have hcall := hall ⟨1, ⟨List.replicate 36 0, 4, 0⟩, 116,
    reserveSfaSize exactEnv 1 ⟨List.replicate 36 0, 4, 0⟩ 116⟩ ?_
  · have hroom := hcall.2.1
    revert hroom
    decide
  · have hcalls : reserveCalls exactEnv [4, 0, 12, 0] Sfa.ipFlowKey =
        [⟨1, ⟨List.replicate 36 0, 4, 0⟩, 116, reserveSfaSize exactEnv 1 ⟨List.replicate 36 0, 4, 0⟩ 116⟩] := rfl
    rw [hcalls]
    exact List.mem_singleton_self _

end OvsDatapath.Actions.Mem
