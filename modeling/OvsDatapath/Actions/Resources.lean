import OvsDatapath.Actions.CopyActions
import OvsDatapath.Lib.Settle
import OvsDatapath.Lib.Hoare

/-!
# What a list of actions holds

A tunnel SET holds a reference to the destination that `validate_and_copy_set_tun` has allocated, and
a CT action holds the template and the helper that `ovs_ct_copy_action` has got. They are obtained while
the list is copied and released by `ovs_nla_free_flow_actions`, which goes through the list once more:
when copying fails half way, and else when the flow is gone.

Here the list is what lies in memory: the attributes in their order, nested ones behind their header,
each with the length and the type that its header has. `AllReleased` is said of the log of what has been
acquired and released, up to and including the release of the list.

The walk sees the first level only. What is nested in a SAMPLE that has been copied to its end is not
released, and a tunnel SET whose header has been reserved but not filled is read as if it had been.
`Contained` says that neither happens, and `life_settled_iff` that the log is settled then and not
otherwise.
-/

namespace OvsDatapath.Actions.Sfa

open OvsDatapath.Lib OvsDatapath.Flow

/-! ## The list in memory -/

/-- What is reference counted, or allocated for one action. -/
inductive Resource where
  /-- A `struct metadata_dst`. -/
  | tunDst (id : Nat)
  /-- A template `struct nf_conn`. -/
  | ct (id : Nat)
  /-- A reference to a `struct nf_conntrack_helper`. -/
  | helper (id : Nat)
  deriving DecidableEq, Repr

/-- What follows the header of an attribute, up to the next header. -/
inductive SfaData where
  | bytes (data : List (BitVec 8))
  /-- `struct ovs_tunnel_info`. -/
  | tunInfo (tun_dst : Resource)
  /-- `struct ovs_conntrack_info`, with its size. -/
  | ctInfo (size : Nat) (helper : Option Resource) (ct : Resource)

/-- The bytes that it takes. -/
def SfaData.size : SfaData → Nat
  | .bytes data => data.length
  | .tunInfo _ => 8
  | .ctInfo size _ _ => size

/-- A header in the list and what lies behind it. -/
structure SfaAttr where
  nla_len : Nat
  nla_type : Nat
  data : SfaData

/-- The bytes up to the next header. -/
def SfaAttr.size (a : SfaAttr) : Nat := nlaAlign (nlaHdrlen + a.data.size)

/-- The bytes of a part of the list. -/
def bytes (l : List SfaAttr) : Nat := (l.map SfaAttr.size).sum

/-- `struct sw_flow_actions`, with the objects obtained so far and the log. -/
structure SwFlowActions where
  actions_len : Nat
  actions : List SfaAttr
  objects : Nat
  log : List (Use Resource)

/-- What the validator gets from outside. What may fail may fail at any length of the list, which grows
between any two calls. -/
structure CopyEnv where
  /-- `MAX_ACTIONS_BUFSIZE`. -/
  max_actions_bufsize : Nat
  /-- Whether the buffer can be allocated. -/
  sfa_alloc : Bool
  /-- The error of `reserve_sfa_size` for a number of bytes in use and the bytes that are needed. -/
  reserve_sfa_size : Nat → Nat → Int
  /-- `USE_UPSTREAM_TUNNEL`. -/
  upstream_tunnel : Bool
  metadata_dst_alloc : Nat → Bool
  /-- The error of `dst_cache_init`. -/
  dst_cache_init : Nat → Int
  /-- `parse_ct`: an error, or the name of a helper. -/
  parse_ct : List (BitVec 8) → Except Int (Option (List (BitVec 8)))
  /-- `sizeof(struct ovs_conntrack_info)`. -/
  ct_info_size : Nat
  nf_ct_tmpl_alloc : Nat → Bool
  nf_conntrack_helper_try_module_get : Nat → List (BitVec 8) → Bool
  nf_ct_helper_ext_add : Nat → Bool

/-- A computation on the list. -/
abbrev SfaM := Effect SwFlowActions Int

/-- The error zero is none. -/
def check (err : Int) : SfaM Unit := if err ≠ 0 then throw err else pure ()

/-- Get an object, or fail. -/
def acquire (granted : Nat → Bool) (err : Int) (object : Nat → Resource) : SfaM Resource := do
  let sfa ← get
  if !granted sfa.actions_len then throw err
  else
    modify fun sfa =>
      { sfa with objects := sfa.objects + 1, log := sfa.log ++ [.acquire (object sfa.objects)] }
    pure (object sfa.objects)

/-- Release objects. -/
def SwFlowActions.release (rs : List Resource) (sfa : SwFlowActions) : SwFlowActions :=
  { sfa with log := sfa.log ++ rs.map .release }

/-! ## Releasing a list -/

/-- `ovs_nla_free_set_action`, on what lies behind the header of a set action. -/
def ovsNlaFreeSetAction : List SfaAttr → List (Use Resource)
  | [] => [.stray]
  | ovs_key :: _ =>
      match ovsKeyAttrs[ovs_key.nla_type]?, ovs_key.data with
      | some .tunnelInfo, .tunInfo tun_dst => [.release tun_dst]
      | some .tunnelInfo, _ => [.stray]
      | _, _ => []

/-- `__ovs_ct_free_action`. -/
def ovsCtFreeAction : SfaData → List (Use Resource)
  | .ctInfo _ helper ct => (helper.toList ++ [ct]).map .release
  | _ => [.stray]

/-- The switch of `ovs_nla_free_flow_actions` on an attribute and what lies behind it. -/
def freeFlowAction (a : SfaAttr) (rest : List SfaAttr) : List (Use Resource) :=
  match ovsActionAttrs[a.nla_type]? with
  | some .set => ovsNlaFreeSetAction rest
  | some .ct => ovsCtFreeAction a.data
  | _ => []

/-- The loop of `ovs_nla_free_flow_actions`, with the bytes to go to the next attribute of the loop. -/
def freeFlowActionsLoop : Nat → List SfaAttr → List (Use Resource)
  | _, [] => []
  | 0, a :: rest =>
      if a.nla_len < nlaHdrlen ∨ bytes (a :: rest) < a.nla_len then []
      else freeFlowAction a rest ++ freeFlowActionsLoop (nlaAlign a.nla_len - a.size) rest
  | to_go + 1, a :: rest => freeFlowActionsLoop (to_go + 1 - a.size) rest

/-- `ovs_nla_free_flow_actions`. -/
def ovsNlaFreeFlowActions (sfa : SwFlowActions) : SwFlowActions :=
  { sfa with log := sfa.log ++ freeFlowActionsLoop 0 sfa.actions }

/-! ## Adding to a list -/

/-- `reserve_sfa_size`. -/
def reserveSfaSize (env : CopyEnv) (attr_len : Nat) : SfaM Unit := do
  let sfa ← get
  let req_size := nlaAlign attr_len
  check (env.reserve_sfa_size sfa.actions_len req_size)
  modify fun sfa => { sfa with actions_len := sfa.actions_len + req_size }

/-- `__add_action`. -/
def addAction (env : CopyEnv) (attrtype : Nat) (data : SfaData) : SfaM Unit := do
  reserveSfaSize env (nlaHdrlen + data.size)
  modify fun sfa =>
    { sfa with actions := sfa.actions ++ [⟨nlaHdrlen + data.size, attrtype, data⟩] }

/-- `add_nested_action_start`. -/
def addNestedActionStart (env : CopyEnv) (attrtype : Nat) : SfaM Nat := do
  let sfa ← get
  addAction env attrtype (.bytes [])
  pure sfa.actions_len

/-- Write the length of the attribute at an offset. -/
def setNlaLen (nla_len : Nat) : Nat → List SfaAttr → List SfaAttr
  | _, [] => []
  | 0, a :: rest => { a with nla_len } :: rest
  | off + 1, a :: rest => a :: setNlaLen nla_len (off + 1 - a.size) rest

/-- `add_nested_action_end`. -/
def addNestedActionEnd (st_offset : Nat) : SfaM Unit :=
  modify fun sfa =>
    { sfa with actions := setNlaLen (sfa.actions_len - st_offset) st_offset sfa.actions }

/-- The number of an action attribute. -/
def typeOf (attr : OvsActionAttr) : Nat := ovsActionAttrs.idxOf attr

/-- `OVS_ACTION_ATTR_SET_TO_MASKED`. -/
def ovsActionAttrSetToMasked : Nat := 17

/-- `OVS_SAMPLE_ATTR_ARG`. -/
def ovsSampleAttrArg : Nat := 4

/-! ## Copying -/

/-- The checks of the validator, with everything granted that it allocates. -/
def CopyEnv.granting (env : CopyEnv) : ActionsEnv where
  max_actions_bufsize := env.max_actions_bufsize
  sfa_alloc := true
  reserve_sfa_size := fun _ _ => 0
  tun_dst := 0
  upstream_tunnel := env.upstream_tunnel
  ct_info := fun _ _ => .ok []

/-- The part of `validate_and_copy_set_tun` behind the checks, after the header has been reserved. -/
def fillSetTun (env : CopyEnv) (start : Nat) : SfaM Unit := do
  let tun_dst ← acquire env.metadata_dst_alloc enomem .tunDst
  let fill : SfaM Unit := do
    let sfa ← get
    check (env.dst_cache_init sfa.actions_len)
    addAction env (ovsKeyAttrs.idxOf .tunnelInfo) (.tunInfo tun_dst)
  fill.onError (modify (.release [tun_dst]))
  addNestedActionEnd start

/-- A set action that has passed the checks of `validate_set` and is not copied as it is. -/
def copySet (env : CopyEnv) (data : List (BitVec 8)) : SfaM Unit := do
  match setKey data with
  | none => throw einval
  | some (.tunnel, _) => do
      let start ← addNestedActionStart env (typeOf .set)
      fillSetTun env start
  | some (attr, ovs_key) => do
      let start ← addNestedActionStart env ovsActionAttrSetToMasked
      addAction env (ovsKeyAttrs.idxOf attr) (.bytes (ovs_key ++ fullMask attr ovs_key.length))
      addNestedActionEnd start

/-- `ovs_ct_add_helper`, if a helper is wanted. -/
def ovsCtAddHelper (env : CopyEnv) : Option (List (BitVec 8)) → SfaM (Option Resource)
  | none => pure none
  | some name => do
      let helper ← acquire (env.nf_conntrack_helper_try_module_get · name) einval .helper
      let sfa ← get
      if !env.nf_ct_helper_ext_add sfa.actions_len then
        modify (.release [helper])
        throw enomem
      else pure (some helper)

/-- `ovs_ct_copy_action`. -/
def ovsCtCopyAction (env : CopyEnv) (data : List (BitVec 8)) (key : SwFlowKey) : SfaM Unit := do
  if key.ethType ≠ ethPIp ∧ key.ethType ≠ ethPIpv6 then throw einval
  else
    let name ← env.parse_ct data
    let ct ← acquire env.nf_ct_tmpl_alloc enomem .ct
    let helper ← (ovsCtAddHelper env name).onError (modify (.release [ct]))
    (addAction env (typeOf .ct) (.ctInfo env.ct_info_size helper ct)).onError
      (modify (.release (helper.toList ++ [ct])))

/-- An attribute of a SAMPLE that has passed the checks. -/
def sampleAttr (data : List (BitVec 8)) (type : Nat) : List (BitVec 8) :=
  match sampleAttrs (nlaForEachNested data).1 fun _ => none with
  | .ok attrs => (attrs type).getD []
  | .error _ => []

/-- `struct sample_arg`. The bytes between its two fields are padding. -/
def sampleArg (data : List (BitVec 8)) (last : Bool) : List (BitVec 8) :=
  let actions := sampleAttr data ovsSampleAttrActions
  let exec := last || !attrsMayChangeFlow ((nlaForEachNested actions).1.map Nlattr.type)
  [if exec then 1 else 0, 0, 0, 0] ++ sampleAttr data ovsSampleAttrProbability

/-- The part of `validate_and_copy_sample` behind the checks, up to the nested actions. -/
def startSample (env : CopyEnv) (data : List (BitVec 8)) (last : Bool) : SfaM Nat := do
  let start ← addNestedActionStart env (typeOf .sample)
  addAction env ovsSampleAttrArg (.bytes (sampleArg data last))
  pure start

/-- The values that the actions of a SAMPLE start with. -/
def nestedState (key : SwFlowKey) (st : CopyState) : CopyState := { st with mac_proto := ovsKeyMacProto key }

/-- An attribute for which there is nothing but checks in the switch, or a set action. -/
def copyChecked (env : CopyEnv) (key : SwFlowKey) (st : CopyState) (type : Nat) (data : List (BitVec 8))
    (last : Bool) (attr : OvsActionAttr) : SfaM CopyState := do
  let (st, action, _) ←
    copyActionsSwitch env.granting key (fun _ _ sfa => .ok sfa) st ⟨0, []⟩ data last attr
  match action with
  | some _ => addAction env type (.bytes data)
  | none => copySet env data
  pure st

/-- An attribute of the list: the switch of `__ovs_nla_copy_actions` and `copy_action`. -/
def copyAttr (env : CopyEnv) (key : SwFlowKey) (copy : CopyState → List (BitVec 8) → SfaM Unit)
    (st : CopyState) (type : Nat) (data : List (BitVec 8)) (last : Bool) : OvsActionAttr → SfaM CopyState
  | .sample => do
      let _ ← validateAndCopySample env.granting (fun _ sfa => .ok sfa) ⟨0, []⟩ data last
      let start ← startSample env data last
      copy (nestedState key st) (sampleAttr data ovsSampleAttrActions)
      addNestedActionEnd start
      pure st
  | .ct => do
      ovsCtCopyAction env data key
      pure st
  | attr => copyChecked env key st type data last attr

/-- The loop of `__ovs_nla_copy_actions`. -/
def copyActionsLoop (env : CopyEnv) (key : SwFlowKey) : Nat → CopyState → List (BitVec 8) → SfaM Unit
  | 0, _, l => if l = [] then pure () else throw einval
  | fuel + 1, st, l =>
      match nlaOk l with
      | none => if l = [] then pure () else throw einval
      | some nla_len =>
          let data := (l.take nla_len).drop nlaHdrlen
          match ovsActionAttrs[nlaType l]? with
          | none => throw einval
          | some attr =>
              if (actionLens attr).any (· ≠ data.length) then throw einval
              else do
                let st ← copyAttr env key (copyActionsLoop env key fuel) st (nlaType l) data
                  (nla_len == l.length) attr
                copyActionsLoop env key fuel st (l.drop (nlaAlign nla_len))

/-- `ovs_nla_copy_actions`: the error if there is one, and the list. -/
def ovsNlaCopyActions (env : CopyEnv) (attr : List (BitVec 8)) (key : SwFlowKey) :
    Except Int Unit × SwFlowActions :=
  -- `nla_alloc_flow_actions`
  if env.max_actions_bufsize < attr.length then (.error einval, ⟨0, [], 0, []⟩)
  else if !env.sfa_alloc then (.error enomem, ⟨0, [], 0, []⟩)
  else
    match (copyActionsLoop env key attr.length (copyStateOf key) attr).exec ⟨0, [], 0, []⟩ with
    | (.ok _, sfa) => (.ok (), sfa)
    | (.error err, sfa) => (.error err, ovsNlaFreeFlowActions sfa)

/-- The log of a list from the request that it comes from to its end: a list that has been accepted is
released later on. -/
def life (env : CopyEnv) (attr : List (BitVec 8)) (key : SwFlowKey) : List (Use Resource) :=
  match ovsNlaCopyActions env attr key with
  | (.ok _, sfa) => (ovsNlaFreeFlowActions sfa).log
  | (.error _, sfa) => sfa.log

/-! ## When nothing is lost -/

/-- Whether an attribute is an action that holds something. -/
def isRef (nla : Nlattr) : Bool :=
  match ovsActionAttrs[nla.type]? with
  | some .ct => true
  | some .set => (setKey nla.data).map Prod.fst == some .tunnel
  | _ => false

/-- Whether one of the actions of a list holds something. -/
def holdsRefs (l : List (BitVec 8)) : Bool := (nlaForEachNested l).1.any isRef

/-- Whether the header that has just been reserved for a tunnel SET is filled. -/
def Fills (env : CopyEnv) (sfa : SwFlowActions) : Prop :=
  env.metadata_dst_alloc sfa.actions_len = true ∧ env.dst_cache_init sfa.actions_len = 0 ∧
    env.reserve_sfa_size sfa.actions_len (nlaAlign (nlaHdrlen + 8)) = 0

/-- One attribute: a tunnel SET that gets as far as its header is filled, and a SAMPLE that gets to its
end has no action that holds something. -/
def ContainedAttr (env : CopyEnv) (key : SwFlowKey) (copy : CopyState → List (BitVec 8) → SfaM Unit)
    (contained : CopyState → List (BitVec 8) → SwFlowActions → Prop) (st : CopyState)
    (data : List (BitVec 8)) (last : Bool) (sfa : SwFlowActions) : OvsActionAttr → Prop
  | .set =>
      (∃ checked, copyActionsSwitch env.granting key (fun _ _ sfa => .ok sfa) st ⟨0, []⟩ data last .set =
        .ok checked) → (setKey data).map Prod.fst = some .tunnel →
      ∀ start sfa₁, (addNestedActionStart env (typeOf .set)).exec sfa = (.ok start, sfa₁) →
        Fills env sfa₁
  | .sample =>
      (∃ checked, validateAndCopySample env.granting (fun _ sfa => .ok sfa) ⟨0, []⟩ data last =
        .ok checked) →
      ∀ start sfa₁, (startSample env data last).exec sfa = (.ok start, sfa₁) →
        let actions := sampleAttr data ovsSampleAttrActions
        contained (nestedState key st) actions sfa₁ ∧
        ∀ sfa₂, (copy (nestedState key st) actions).exec sfa₁ = (.ok (), sfa₂) → holdsRefs actions = false
  | _ => True

/-- **What a SAMPLE contains stays contained**, and so does what a tunnel SET reserves: all the
attributes that are reached. -/
def Contained (env : CopyEnv) (key : SwFlowKey) :
    Nat → CopyState → List (BitVec 8) → SwFlowActions → Prop
  | 0, _, _, _ => True
  | fuel + 1, st, l, sfa =>
      ∀ nla_len attr, nlaOk l = some nla_len → ovsActionAttrs[nlaType l]? = some attr →
      let data := (l.take nla_len).drop nlaHdrlen
      let last := nla_len == l.length
      (actionLens attr).any (· ≠ data.length) = false →
      ContainedAttr env key (copyActionsLoop env key fuel) (Contained env key fuel) st data last sfa attr ∧
      ∀ st' sfa', (copyAttr env key (copyActionsLoop env key fuel) st (nlaType l) data last attr).exec sfa =
        (.ok st', sfa') → Contained env key fuel st' (l.drop (nlaAlign nla_len)) sfa'

/-! ## The walk -/

@[simp] theorem bytes_nil : bytes [] = 0 := rfl

@[simp] theorem bytes_cons (a : SfaAttr) (l : List SfaAttr) : bytes (a :: l) = a.size + bytes l := rfl

@[simp] theorem bytes_append (l l' : List SfaAttr) : bytes (l ++ l') = bytes l + bytes l' := by
  rw [bytes, List.map_append, List.sum_append]
  rfl

theorem SfaAttr.size_pos (a : SfaAttr) : 0 < a.size := by
  unfold SfaAttr.size nlaAlign nlaHdrlen
  omega

theorem nlaHdrlen_le_bytes (a : SfaAttr) (l : List SfaAttr) : nlaHdrlen ≤ bytes (a :: l) := by
  have := le_nlaAlign (nlaHdrlen + a.data.size)
  rw [bytes_cons, SfaAttr.size]
  omega

theorem nlaAlign_bytes (l : List SfaAttr) : nlaAlign (bytes l) = bytes l := by
  have hmod : bytes l % 4 = 0 := by
    induction l with
    | nil => rfl
    | cons a l ih =>
        have := nlaAlign_mod (nlaHdrlen + a.data.size)
        rw [bytes_cons, SfaAttr.size]
        omega
  unfold nlaAlign
  omega

/-- The loop passes over what lies within an attribute. -/
theorem freeFlowActionsLoop_skip (l more : List SfaAttr) :
    freeFlowActionsLoop (bytes l) (l ++ more) = freeFlowActionsLoop 0 more := by
  induction l with
  | nil => rfl
  | cons a l ih =>
      obtain ⟨n, hn⟩ : ∃ n, bytes (a :: l) = n + 1 := by
        have := a.size_pos
        exact ⟨a.size + bytes l - 1, by rw [bytes_cons]; omega⟩
      rw [hn, List.cons_append, freeFlowActionsLoop, ← hn, bytes_cons, Nat.add_sub_cancel_left]
      exact ih

/-- A part of the list of which the walk releases `rs`, and then goes on behind it. -/
def Plain (l : List SfaAttr) (rs : List Resource) : Prop :=
  ∀ more, freeFlowActionsLoop 0 (l ++ more) = rs.map .release ++ freeFlowActionsLoop 0 more

theorem Plain.nil : Plain [] [] := fun _ => rfl

theorem Plain.append {l l' : List SfaAttr} {rs rs' : List Resource} (h : Plain l rs) (h' : Plain l' rs') :
    Plain (l ++ l') (rs ++ rs') := by
  intro more
  rw [List.append_assoc, h, h', List.map_append, List.append_assoc]

/-- An attribute with what is nested in it. -/
theorem Plain.cons {a : SfaAttr} {l : List SfaAttr} {rs : List Resource}
    (hlen : nlaHdrlen ≤ a.nla_len) (hle : a.nla_len ≤ bytes (a :: l))
    (hbytes : nlaAlign a.nla_len = bytes (a :: l))
    (hfree : ∀ more, freeFlowAction a (l ++ more) = rs.map .release) : Plain (a :: l) rs := by
  intro more
  rw [List.cons_append, freeFlowActionsLoop, if_neg, hfree, hbytes, bytes_cons, Nat.add_sub_cancel_left,
    freeFlowActionsLoop_skip]
  rw [bytes_cons, bytes_append]
  rw [bytes_cons] at hle
  omega

theorem freeFlowAction_nil {a : SfaAttr} {rest : List SfaAttr}
    (hset : ovsActionAttrs[a.nla_type]? ≠ some .set) (hct : ovsActionAttrs[a.nla_type]? ≠ some .ct) :
    freeFlowAction a rest = [] := by
  unfold freeFlowAction
  split
  case h_1 h => exact absurd h hset
  case h_2 h => exact absurd h hct
  case h_3 => rfl

/-- An attribute without nested ones that holds nothing. -/
theorem plain_single {a : SfaAttr} (hlen : a.nla_len = nlaHdrlen + a.data.size)
    (hset : ovsActionAttrs[a.nla_type]? ≠ some .set) (hct : ovsActionAttrs[a.nla_type]? ≠ some .ct) :
    Plain [a] [] := by
  apply Plain.cons
  · omega
  · rw [hlen, bytes_cons, bytes_nil]
    exact le_nlaAlign _
  · rw [hlen]
    rfl
  · intro more
    exact freeFlowAction_nil hset hct

/-! ## What a part of the copy adds -/

/-- The number of an object. -/
def Resource.id : Resource → Nat
  | .tunDst id | .ct id | .helper id => id

/-- The length counts the bytes of the attributes. -/
def SwFlowActions.Counted (sfa : SwFlowActions) : Prop := sfa.actions_len = bytes sfa.actions

/-- Attributes have been put at the end, and objects have been gained. -/
structure Grows (sfa sfa' : SwFlowActions) (new : List SfaAttr) (gained : List Resource) : Prop where
  actions : sfa'.actions = sfa.actions ++ new
  len : sfa'.actions_len = sfa.actions_len + bytes new
  objects : sfa.objects ≤ sfa'.objects
  fresh : ∀ r ∈ gained, r.id < sfa'.objects
  log : ∃ uses, sfa'.log = sfa.log ++ uses ∧
    ∀ h : List Resource, (∀ r ∈ h, r.id < sfa.objects) → held uses h = some (gained ++ h)

section Grows

variable {sfa sfa₁ sfa₂ : SwFlowActions} {new new' : List SfaAttr} {gained gained' : List Resource}

theorem Grows.refl (sfa : SwFlowActions) : Grows sfa sfa [] [] where
  actions := (List.append_nil _).symm
  len := rfl
  objects := le_rfl
  fresh := fun _ h => nomatch h
  log := ⟨[], (List.append_nil _).symm, fun _ _ => rfl⟩

theorem Grows.trans (h : Grows sfa sfa₁ new gained) (h' : Grows sfa₁ sfa₂ new' gained') :
    Grows sfa sfa₂ (new ++ new') (gained' ++ gained) where
  actions := by rw [h'.actions, h.actions, List.append_assoc]
  len := by rw [h'.len, h.len, bytes_append, Nat.add_assoc]
  objects := h.objects.trans h'.objects
  fresh := by
    intro r hr
    rcases List.mem_append.mp hr with hr | hr
    · exact h'.fresh r hr
    · exact (h.fresh r hr).trans_le h'.objects
  log := by
    obtain ⟨uses, hlog, hheld⟩ := h.log
    obtain ⟨uses', hlog', hheld'⟩ := h'.log
    refine ⟨uses ++ uses', by rw [hlog', hlog, List.append_assoc], ?_⟩
    intro held₀ hold
    have hold' : ∀ r ∈ gained ++ held₀, r.id < sfa₁.objects := by
      intro r hr
      rcases List.mem_append.mp hr with hr | hr
      · exact h.fresh r hr
      · exact (hold r hr).trans_le h.objects
    rw [held_append, hheld held₀ hold, Option.bind_some, hheld' _ hold', List.append_assoc]

theorem Grows.counted (h : Grows sfa sfa₁ new gained) (hcounted : sfa.Counted) : sfa₁.Counted := by
  unfold SwFlowActions.Counted at *
  rw [h.len, h.actions, bytes_append, hcounted]

/-- Put an attribute at the end. -/
def SwFlowActions.push (sfa : SwFlowActions) (a : SfaAttr) : SwFlowActions :=
  { sfa with actions_len := sfa.actions_len + a.size, actions := sfa.actions ++ [a] }

theorem Grows.push (sfa : SwFlowActions) (a : SfaAttr) : Grows sfa (sfa.push a) [a] [] where
  actions := rfl
  len := by simp [SwFlowActions.push]
  objects := le_rfl
  fresh := fun _ h => nomatch h
  log := ⟨[], (List.append_nil _).symm, fun _ _ => rfl⟩

/-- Note an object that has been got. -/
def SwFlowActions.got (sfa : SwFlowActions) (r : Resource) : SwFlowActions :=
  { sfa with objects := sfa.objects + 1, log := sfa.log ++ [.acquire r] }

@[simp] theorem SwFlowActions.got_actions_len (sfa : SwFlowActions) (r : Resource) :
    (sfa.got r).actions_len = sfa.actions_len := rfl

theorem Grows.got {r : Resource} (hr : r.id = sfa.objects) : Grows sfa (sfa.got r) [] [r] where
  actions := (List.append_nil _).symm
  len := rfl
  objects := Nat.le_succ _
  fresh := by
    intro r' hr'
    rw [List.mem_singleton.mp hr', hr]
    exact Nat.lt_succ_self _
  log := by
    refine ⟨[.acquire r], rfl, ?_⟩
    intro h hold
    have hr' : r ∉ h := fun hmem => Nat.lt_irrefl _ (hr ▸ hold r hmem)
    simp [held, hr']

/-- What has been gained is released on the spot. -/
theorem Grows.release (h : Grows sfa sfa₁ [] gained) : Grows sfa (sfa₁.release gained) [] [] where
  actions := h.actions
  len := h.len
  objects := h.objects
  fresh := fun _ h => nomatch h
  log := by
    obtain ⟨uses, hlog, hheld⟩ := h.log
    refine ⟨uses ++ gained.map .release, ?_, ?_⟩
    · show sfa₁.log ++ _ = _
      rw [hlog, List.append_assoc]
    · intro h₀ hold
      rw [held_append, hheld h₀ hold, Option.bind_some]
      exact held_releases_append gained h₀

end Grows

/-! ## One function after the other -/

section Exec

variable {env : CopyEnv} {sfa : SwFlowActions}

theorem exec_check (err : Int) (sfa : SwFlowActions) :
    (check err).exec sfa = if err ≠ 0 then (.error err, sfa) else (.ok (), sfa) := by
  unfold check
  split_ifs
  · rfl
  · rfl

theorem exec_acquire (granted : Nat → Bool) (err : Int) (object : Nat → Resource) (sfa : SwFlowActions) :
    (acquire granted err object).exec sfa =
      if granted sfa.actions_len then (.ok (object sfa.objects), sfa.got (object sfa.objects))
      else (.error err, sfa) := by
  unfold acquire
  rw [exec_bind, exec_get]
  dsimp only
  cases granted sfa.actions_len with
  | true => rfl
  | false => rfl

theorem exec_addAction (env : CopyEnv) (attrtype : Nat) (data : SfaData) (sfa : SwFlowActions) :
    (addAction env attrtype data).exec sfa =
      let err := env.reserve_sfa_size sfa.actions_len (nlaAlign (nlaHdrlen + data.size))
      if err ≠ 0 then (.error err, sfa)
      else (.ok (), sfa.push ⟨nlaHdrlen + data.size, attrtype, data⟩) := by
  unfold addAction reserveSfaSize
  rw [exec_bind, exec_bind, exec_get]
  dsimp only
  rw [exec_bind, exec_check]
  split_ifs with herr
  · rfl
  · rfl

theorem exec_addNestedActionStart (env : CopyEnv) (attrtype : Nat) (sfa : SwFlowActions) :
    (addNestedActionStart env attrtype).exec sfa =
      let err := env.reserve_sfa_size sfa.actions_len (nlaAlign nlaHdrlen)
      if err ≠ 0 then (.error err, sfa)
      else (.ok sfa.actions_len, sfa.push ⟨nlaHdrlen, attrtype, .bytes []⟩) := by
  unfold addNestedActionStart
  rw [exec_bind, exec_get]
  dsimp only
  rw [exec_bind, exec_addAction]
  dsimp only [SfaData.size, List.length_nil, Nat.add_zero]
  split_ifs with herr
  · rfl
  · rfl

/-- The header at the end of a part of the list gets its length. -/
theorem setNlaLen_append (nla_len : Nat) (l : List SfaAttr) (a : SfaAttr) (rest : List SfaAttr) :
    setNlaLen nla_len (bytes l) (l ++ a :: rest) = l ++ { a with nla_len } :: rest := by
  induction l with
  | nil => rfl
  | cons b l ih =>
      obtain ⟨n, hn⟩ : ∃ n, bytes (b :: l) = n + 1 := by
        have := b.size_pos
        exact ⟨b.size + bytes l - 1, by rw [bytes_cons]; omega⟩
      rw [hn, List.cons_append, setNlaLen, ← hn, bytes_cons, Nat.add_sub_cancel_left, ih]
      rfl

/-- The header of a nested action gets the length of all that has been put behind it. -/
theorem Grows.nestedEnd {sfa sfa' : SwFlowActions} {a : SfaAttr} {nested : List SfaAttr}
    {gained : List Resource} (h : Grows sfa sfa' (a :: nested) gained) (hcounted : sfa.Counted) :
    ∃ sfa₂, (addNestedActionEnd sfa.actions_len).exec sfa' = (.ok (), sfa₂) ∧
      Grows sfa sfa₂ ({ a with nla_len := bytes (a :: nested) } :: nested) gained := by
  refine ⟨_, rfl, ?_, ?_, h.objects, h.fresh, h.log⟩
  · show setNlaLen (sfa'.actions_len - sfa.actions_len) sfa.actions_len sfa'.actions = _
    rw [h.len, h.actions, Nat.add_sub_cancel_left, hcounted]
    exact setNlaLen_append _ _ _ _
  · exact h.len

end Exec

/-! ## The account of a part of the copy -/

/-- What a part of the copy has gained is what the walk releases (`rs`) and what it passes over (`hs`),
of which there is none if and only if all is `good`; where the part returns, `refs` tells whether there
is anything to release. Otherwise the list ends with the header of a tunnel SET. -/
inductive Account (good : Prop) (refs ok : Bool) (sfa sfa' : SwFlowActions) : Prop
  | seen {new gained} (rs hs) (grows : Grows sfa sfa' new gained) (plain : Plain new rs)
      (perm : gained.Perm (rs ++ hs)) (hgood : good ↔ hs = []) (hrefs : ok → (refs = true ↔ rs ≠ []))
  | unfilled {gained rs} (new) (grows : Grows sfa sfa' (new ++ [⟨nlaHdrlen, typeOf .set, .bytes []⟩]) gained)
      (plain : Plain new rs) (hbad : ¬ good) (herror : ok = false)

/-- The account of a computation that has been run. -/
def Accounts {α : Type} (good : Prop) (refs : Bool) (sfa : SwFlowActions)
    (result : Except Int α × SwFlowActions) : Prop :=
  Account good refs result.1.isOk sfa result.2

section Account

variable {α β : Type} {env : CopyEnv} {good : Prop} {refs : Bool} {sfa sfa₁ sfa₂ : SwFlowActions}

theorem accounts_error (refs : Bool) (err : Int) : Accounts True refs sfa ((.error err, sfa) : Except Int α × _) := by
  refine .seen [] [] (Grows.refl sfa) Plain.nil (List.Perm.refl _) ?_ ?_
  · simp
  · intro hok
    cases hok

theorem accounts_pure (a : α) : Accounts True false sfa ((.ok a, sfa) : Except Int α × _) := by
  refine .seen [] [] (Grows.refl sfa) Plain.nil (List.Perm.refl _) ?_ ?_
  · simp
  · simp

theorem Account.congr {good' : Prop} {refs' ok : Bool} (h : Account good refs ok sfa sfa₁)
    (hgood : good' ↔ good) (hrefs : ok → refs' = refs) : Account good' refs' ok sfa sfa₁ := by
  cases h with
  | seen rs hs grows plain perm hg hr =>
      refine .seen rs hs grows plain perm (hgood.trans hg) ?_
      intro hok
      rw [hrefs hok]
      exact hr hok
  | unfilled new grows plain hbad herror =>
      exact .unfilled new grows plain (fun hg => hbad (hgood.mp hg)) herror

/-- A part that has returned, and the next one. -/
theorem Account.trans {good' : Prop} {refs' ok : Bool} (h : Account good refs true sfa sfa₁)
    (h' : Account good' refs' ok sfa₁ sfa₂) : Account (good ∧ good') (refs || refs') ok sfa sfa₂ := by
  cases h with
  | unfilled _ _ _ _ herror => cases herror
  | seen rs hs grows plain perm hgood hrefs =>
      cases h' with
      | seen rs' hs' grows' plain' perm' hgood' hrefs' =>
          refine .seen (rs ++ rs') (hs ++ hs') (grows.trans grows') (plain.append plain') ?_
            ((and_congr hgood hgood').trans List.append_eq_nil_iff.symm) ?_
          · rw [List.perm_iff_count] at *
            intro r
            have := perm r
            have := perm' r
            simp only [List.count_append] at *
            omega
          · intro hok
            rw [Bool.or_eq_true, hrefs rfl, hrefs' hok]
            simp only [ne_eq, List.append_eq_nil_iff]
            tauto
      | unfilled new' grows' plain' hbad herror =>
          have hgrows := grows.trans grows'
          rw [← List.append_assoc] at hgrows
          exact .unfilled _ hgrows (plain.append plain') (fun h => hbad h.2) herror

theorem Account.counted {ok : Bool} (h : Account good refs ok sfa sfa₁) (hcounted : sfa.Counted) :
    sfa₁.Counted := by
  cases h with
  | seen _ _ grows => exact grows.counted hcounted
  | unfilled _ grows => exact grows.counted hcounted

theorem Accounts.bind {x : SfaM α} {f : α → SfaM β} {good' : α → SwFlowActions → Prop} {refs' : Bool}
    (hx : Accounts good refs sfa (x.exec sfa))
    (hf : ∀ a sfa₁, x.exec sfa = (.ok a, sfa₁) → Accounts (good' a sfa₁) refs' sfa₁ ((f a).exec sfa₁)) :
    Accounts (good ∧ ∀ a sfa₁, x.exec sfa = (.ok a, sfa₁) → good' a sfa₁) (refs || refs') sfa
      ((x >>= f).exec sfa) := by
  rw [exec_bind]
  rcases h : x.exec sfa with ⟨_ | a, sfa₁⟩
  · rw [h] at hx
    have herror : Account good refs false sfa sfa₁ := hx
    refine herror.congr ?_ fun hfalse => absurd hfalse Bool.false_ne_true
    simp
  · rw [h] at hx
    refine Account.congr (Account.trans hx (hf a sfa₁ h)) ?_ fun _ => rfl
    constructor
    · intro hgood
      exact ⟨hgood.1, hgood.2 a sfa₁ rfl⟩
    · intro hgood
      refine ⟨hgood.1, ?_⟩
      rintro _ _ ⟨⟩
      exact hgood.2

theorem accounts_addAction {type : Nat} {data : List (BitVec 8)} (hset : ovsActionAttrs[type]? ≠ some .set)
    (hct : ovsActionAttrs[type]? ≠ some .ct) :
    Accounts True false sfa ((addAction env type (.bytes data)).exec sfa) := by
  rw [exec_addAction]
  dsimp only
  split_ifs with herr
  · exact accounts_error _ _
  · refine .seen [] [] (Grows.push sfa _) (plain_single rfl hset hct) (List.Perm.refl _) ?_ ?_
    · simp
    · simp

/-- A header with what is nested in it, when the walk has nothing to do there. -/
theorem plain_nested {attrtype : Nat} {nested : List SfaAttr} (hset : ovsActionAttrs[attrtype]? ≠ some .set)
    (hct : ovsActionAttrs[attrtype]? ≠ some .ct) {nla_len : Nat}
    (hlen : nla_len = bytes (⟨nlaHdrlen, attrtype, .bytes []⟩ :: nested)) :
    Plain (⟨nla_len, attrtype, .bytes []⟩ :: nested) [] := by
  subst hlen
  apply Plain.cons
  · exact nlaHdrlen_le_bytes _ nested
  · exact le_of_eq rfl
  · exact nlaAlign_bytes _
  · intro more
    exact freeFlowAction_nil hset hct

theorem exec_fillSetTun (env : CopyEnv) (start : Nat) (sfa : SwFlowActions) :
    (fillSetTun env start).exec sfa =
      if env.metadata_dst_alloc sfa.actions_len then
        let tun_dst := Resource.tunDst sfa.objects
        let err := env.dst_cache_init sfa.actions_len
        let err' := env.reserve_sfa_size sfa.actions_len (nlaAlign (nlaHdrlen + 8))
        if err ≠ 0 then (.error err, (sfa.got tun_dst).release [tun_dst])
        else if err' ≠ 0 then (.error err', (sfa.got tun_dst).release [tun_dst])
        else (addNestedActionEnd start).exec
          ((sfa.got tun_dst).push ⟨nlaHdrlen + 8, ovsKeyAttrs.idxOf .tunnelInfo, .tunInfo tun_dst⟩)
      else (.error enomem, sfa) := by
  unfold fillSetTun
  rw [exec_bind, exec_acquire]
  cases env.metadata_dst_alloc sfa.actions_len with
  | false => rfl
  | true =>
      simp only [if_true]
      rw [exec_bind, exec_onError, exec_bind, exec_get]
      dsimp only
      rw [exec_bind, exec_check, SwFlowActions.got_actions_len]
      split_ifs with herr herr'
      · rfl
      · dsimp only
        rw [exec_addAction, SwFlowActions.got_actions_len]
        dsimp only [SfaData.size]
        rw [if_pos herr']
      · dsimp only
        rw [exec_addAction, SwFlowActions.got_actions_len]
        dsimp only [SfaData.size]
        rw [if_neg herr']

/-- A tunnel SET. -/
theorem accounts_setTun (hcounted : sfa.Counted) :
    Accounts (∀ start sfa₁, (addNestedActionStart env (typeOf .set)).exec sfa = (.ok start, sfa₁) →
      Fills env sfa₁) true sfa
      ((addNestedActionStart env (typeOf .set) >>= fillSetTun env).exec sfa) := by
  rw [exec_bind, exec_addNestedActionStart]
  dsimp only
  split_ifs with herr
  · refine Account.congr (accounts_error (α := Unit) true _) ?_ fun _ => rfl
    simp
  · generalize hheader : sfa.push ⟨nlaHdrlen, typeOf .set, .bytes []⟩ = sfa₁
    have hgrows : Grows sfa sfa₁ [⟨nlaHdrlen, typeOf .set, .bytes []⟩] [] := hheader ▸ Grows.push sfa _
    have hgot : Grows sfa₁ (sfa₁.got (.tunDst sfa₁.objects)) [] [.tunDst sfa₁.objects] := Grows.got rfl
    have hgood : (∀ start sfa₂, ((.ok sfa.actions_len, sfa₁) : Except Int Nat × SwFlowActions) =
        (.ok start, sfa₂) → Fills env sfa₂) ↔ Fills env sfa₁ := by
      constructor
      · intro h
        exact h _ _ rfl
      · rintro h _ _ ⟨⟩
        exact h
    dsimp only
    rw [hgood, exec_fillSetTun]
    dsimp only
    split_ifs with halloc hcache hreserve
    · exact .unfilled [] (hgrows.trans hgot.release) Plain.nil (fun h => hcache h.2.1) rfl
    · exact .unfilled [] (hgrows.trans hgot.release) Plain.nil (fun h => hreserve h.2.2) rfl
    · rw [not_not] at hcache hreserve
      obtain ⟨sfa₂, hend, hgrows⟩ := ((hgrows.trans hgot).trans (Grows.push _ _)).nestedEnd hcounted
      rw [hend]
      refine .seen _ [] hgrows ?_ (List.Perm.refl _) (iff_of_true ⟨halloc, hcache, hreserve⟩ rfl) ?_
      · exact Plain.cons (nlaHdrlen_le_bytes _ _) le_rfl (nlaAlign_bytes _) fun _ => rfl
      · simp
    · exact .unfilled [] hgrows Plain.nil (fun h => halloc h.1) rfl

/-- A set action that becomes a masked one. -/
theorem accounts_setToMasked (hcounted : sfa.Counted) {type : Nat} {data : List (BitVec 8)} :
    Accounts True false sfa ((do
      let start ← addNestedActionStart env ovsActionAttrSetToMasked
      addAction env type (.bytes data)
      addNestedActionEnd start : SfaM Unit).exec sfa) := by
  have hset : ovsActionAttrs[ovsActionAttrSetToMasked]? ≠ some .set := by decide
  have hct : ovsActionAttrs[ovsActionAttrSetToMasked]? ≠ some .ct := by decide
  rw [exec_bind, exec_addNestedActionStart]
  dsimp only
  split_ifs with herr
  · exact accounts_error _ _
  · have hheader := Grows.push sfa ⟨nlaHdrlen, ovsActionAttrSetToMasked, .bytes []⟩
    dsimp only
    rw [exec_bind, exec_addAction]
    dsimp only
    split_ifs with herr'
    · exact .seen [] [] hheader (plain_nested hset hct rfl) (List.Perm.refl _) (by simp) nofun
    · obtain ⟨sfa₂, hend, hgrows⟩ := (hheader.trans (Grows.push _ _)).nestedEnd hcounted
      dsimp only
      rw [hend]
      exact .seen [] [] hgrows (plain_nested hset hct rfl) (List.Perm.refl _) (by simp) (by simp)

/-- What is kept or released of a template and of the helper. -/
theorem exec_ovsCtAddHelper (env : CopyEnv) (name : Option (List (BitVec 8))) (sfa : SwFlowActions) :
    (∃ err sfa', (ovsCtAddHelper env name).exec sfa = (.error err, sfa') ∧ Grows sfa sfa' [] []) ∨
    ∃ helper sfa', (ovsCtAddHelper env name).exec sfa = (.ok helper, sfa') ∧
      Grows sfa sfa' [] helper.toList := by
  cases name with
  | none => exact .inr ⟨none, sfa, rfl, Grows.refl sfa⟩
  | some name =>
      unfold ovsCtAddHelper
      rw [exec_bind, exec_acquire]
      split_ifs with hget
      · have hgot : Grows sfa (sfa.got (.helper sfa.objects)) [] [.helper sfa.objects] := Grows.got rfl
        dsimp only
        rw [exec_bind, exec_get]
        dsimp only
        cases env.nf_ct_helper_ext_add (sfa.got (.helper sfa.objects)).actions_len with
        | true => exact .inr ⟨_, _, rfl, hgot⟩
        | false => exact .inl ⟨_, _, rfl, hgot.release⟩
      · exact .inl ⟨_, _, rfl, Grows.refl sfa⟩

/-- A CT action. -/
theorem accounts_ct {data : List (BitVec 8)} {key : SwFlowKey} :
    Accounts True true sfa ((ovsCtCopyAction env data key).exec sfa) := by
  unfold ovsCtCopyAction
  split_ifs with hfamily
  · exact accounts_error _ _
  · rw [exec_bind, exec_lift]
    cases env.parse_ct data with
    | error err => exact accounts_error _ _
    | ok name =>
        dsimp only
        rw [exec_bind, exec_acquire]
        split_ifs with halloc
        · have hgot : Grows sfa (sfa.got (.ct sfa.objects)) [] [.ct sfa.objects] := Grows.got rfl
          dsimp only
          rw [exec_bind, exec_onError]
          obtain ⟨err, sfa₁, hexec, hgrows⟩ | ⟨helper, sfa₁, hexec, hgrows⟩ :=
            exec_ovsCtAddHelper env name (sfa.got (.ct sfa.objects))
          · rw [hexec]
            exact .seen [] [] (hgot.trans hgrows).release Plain.nil (List.Perm.refl _) (by simp) nofun
          · have hboth := hgot.trans hgrows
            rw [hexec]
            dsimp only
            rw [exec_onError, exec_addAction]
            dsimp only
            split_ifs with herr
            · exact .seen [] [] hboth.release Plain.nil (List.Perm.refl _) (by simp) nofun
            · refine .seen (helper.toList ++ [.ct sfa.objects]) []
                (hboth.trans (Grows.push _ _)) ?_ ?_ ?_ ?_
              · exact Plain.cons (Nat.le_add_right _ _) (le_nlaAlign _) rfl fun _ => rfl
              · simp
              · simp
              · simp
        · exact accounts_error _ _

/-- The header of a SAMPLE and its argument, without a length yet. -/
theorem exec_startSample (env : CopyEnv) (data : List (BitVec 8)) (last : Bool) (sfa : SwFlowActions) :
    (∃ err sfa', (startSample env data last).exec sfa = (.error err, sfa') ∧
      Account True false false sfa sfa') ∨
    ∃ sfa' arg, (startSample env data last).exec sfa = (.ok sfa.actions_len, sfa') ∧
      Grows sfa sfa' [⟨nlaHdrlen, typeOf .sample, .bytes []⟩, arg] [] ∧
      Plain [⟨nlaHdrlen, typeOf .sample, .bytes []⟩, arg] [] := by
  have hplain : Plain [⟨nlaHdrlen, typeOf .sample, .bytes []⟩] [] :=
    plain_single rfl (by decide) (by decide)
  have hheader := Grows.push sfa ⟨nlaHdrlen, typeOf .sample, .bytes []⟩
  unfold startSample
  rw [exec_bind, exec_addNestedActionStart]
  dsimp only
  split_ifs with herr
  · exact .inl ⟨_, _, rfl, accounts_error (α := Unit) false 0⟩
  · dsimp only
    rw [exec_bind, exec_addAction]
    dsimp only
    split_ifs with herr'
    · refine .inl ⟨_, _, rfl, .seen [] [] hheader hplain (List.Perm.refl _) (by simp) fun hfalse => ?_⟩
      exact absurd hfalse Bool.false_ne_true
    · refine .inr ⟨_, _, rfl, hheader.trans (Grows.push _ _), ?_⟩
      exact hplain.append (plain_single rfl (show ovsActionAttrs[ovsSampleAttrArg]? ≠ some .set by decide)
        (show ovsActionAttrs[ovsSampleAttrArg]? ≠ some .ct by decide))

/-- A SAMPLE. While it is open the walk goes into it; at its end it is passed over. -/
theorem accounts_sample (env : CopyEnv) {copy : CopyState → List (BitVec 8) → SfaM Unit}
    {contained : CopyState → List (BitVec 8) → SwFlowActions → Prop}
    (hcopy : ∀ st l (sfa : SwFlowActions), sfa.Counted →
      Accounts (contained st l sfa) (holdsRefs l) sfa ((copy st l).exec sfa))
    (hcounted : sfa.Counted) (st : CopyState) (data actions : List (BitVec 8)) (last : Bool) :
    Accounts (∀ start sfa₁, (startSample env data last).exec sfa = (.ok start, sfa₁) →
        contained st actions sfa₁ ∧
        ∀ sfa₂, (copy st actions).exec sfa₁ = (.ok (), sfa₂) → holdsRefs actions = false) false sfa
      ((do
        let start ← startSample env data last
        copy st actions
        addNestedActionEnd start : SfaM Unit).exec sfa) := by
  rw [exec_bind]
  obtain ⟨err, sfa₁, hstart, haccount⟩ | ⟨sfa₁, arg, hstart, hgrows, hplain⟩ :=
    exec_startSample env data last sfa
  · rw [hstart]
    refine haccount.congr ?_ fun _ => rfl
    simp
  · rw [hstart]
    dsimp only
    have hnested := hcopy st actions sfa₁ (hgrows.counted hcounted)
    have hgood : ∀ p : SwFlowActions → Prop, (∀ start sfa₂,
        ((.ok sfa.actions_len, sfa₁) : Except Int Nat × SwFlowActions) = (.ok start, sfa₂) → p sfa₂) ↔
        p sfa₁ := by
      intro p
      constructor
      · intro h
        exact h _ _ rfl
      · rintro h _ _ ⟨⟩
        exact h
    rw [hgood, exec_bind]
    rcases hexec : (copy st actions).exec sfa₁ with ⟨err | _, sfa₂⟩
    · -- the nested list has failed, with the SAMPLE still open
      rw [hexec] at hnested
      have hopen : Account True false true sfa sfa₁ :=
        .seen [] [] hgrows hplain (List.Perm.refl _) (by simp) (by simp)
      refine (hopen.trans hnested).congr ?_ nofun
      simp
    · rw [hexec] at hnested
      cases hnested with
      | unfilled _ _ _ _ herror => cases herror
      | @seen new gained rs hs grows plain perm hcontained hrefs =>
          obtain ⟨sfa₃, hend, hclosed⟩ := (hgrows.trans grows).nestedEnd hcounted
          dsimp only
          rw [hend]
          refine .seen [] (gained ++ []) hclosed
            (plain_nested (show ovsActionAttrs[typeOf .sample]? ≠ some .set by decide) (by decide) rfl)
            (List.Perm.refl _) ?_ (by simp)
          -- the walk does not go into a SAMPLE, so what the nested list holds is not seen
          have hgained : gained ++ [] = [] ↔ rs = [] ∧ hs = [] := by
            rw [List.append_nil, ← List.append_eq_nil_iff]
            exact ⟨fun h => (h ▸ perm).nil_eq.symm, fun h => (h ▸ perm).eq_nil⟩
          rw [hgained, hcontained, and_comm]
          refine and_congr_left fun _ => ?_
          have hrefs := hrefs rfl
          constructor
          · intro h
            by_contra hne
            rw [h sfa₂ rfl] at hrefs
            cases hrefs.mpr hne
          · intro hnil _ _
            rw [Bool.eq_false_iff]
            exact fun htrue => hrefs.mp htrue hnil

theorem Accounts.returns {x : SfaM α} (h : Accounts good refs sfa (x.exec sfa)) (b : β) :
    Accounts good refs sfa ((x >>= fun _ => pure b).exec sfa) := by
  rw [exec_bind]
  rcases hexec : x.exec sfa with ⟨_ | a, sfa₁⟩
  · rw [hexec] at h
    exact h
  · rw [hexec] at h
    exact h

/-- Checks come first. -/
theorem Accounts.checked {checks : Except Int α} {f : α → SfaM β}
    (h : ∀ a, checks = .ok a → Accounts good refs sfa ((f a).exec sfa)) :
    Accounts ((∃ a, checks = .ok a) → good) refs sfa (((liftM checks : SfaM α) >>= f).exec sfa) := by
  rw [exec_bind, exec_lift]
  cases checks with
  | error err =>
      refine (accounts_error (α := β) refs err).congr ?_ fun _ => rfl
      simp
  | ok a =>
      refine (h a rfl).congr ?_ fun _ => rfl
      simp

theorem validateSet_action {aenv : ActionsEnv} {key : SwFlowKey} {st : CopyState}
    {acts acts' : Actions.SwFlowActions} {data : List (BitVec 8)} {masked : Bool} {action : Option Action}
    (h : validateSet aenv key st acts data masked = .ok (action, acts')) :
    action.isSome = masked := by
  unfold validateSet at h
  cases hok : nlaOk data with
  | none =>
      rw [hok] at h
      cases h
  | some nla_len =>
      cases hattr : ovsKeyAttrs[nlaType data]? with
      | none => simp [hok, hattr] at h
      | some attr =>
          cases masked with
          | true =>
              simp only [hok, hattr, if_true] at h
              split_ifs at h
              obtain ⟨rfl, -⟩ := Prod.mk.inj (Except.ok.inj h)
              rfl
          | false =>
              simp only [hok, hattr, Bool.false_eq_true, if_false] at h
              split_ifs at h
              · obtain ⟨_, -, h⟩ := bind_eq_ok.mp h
                obtain ⟨rfl, -⟩ := Prod.mk.inj (Except.ok.inj h)
                rfl
              · obtain ⟨_, -, h⟩ := bind_eq_ok.mp h
                obtain ⟨_, -, h⟩ := bind_eq_ok.mp h
                obtain ⟨rfl, -⟩ := Prod.mk.inj (Except.ok.inj h)
                rfl

/-- The action that is left to copy after the checks: a set action is copied already. -/
theorem copyActionsSwitch_action {aenv : ActionsEnv} {key : SwFlowKey} {st st' : CopyState}
    {copy : CopyState → List (BitVec 8) → Actions.SwFlowActions → Except Int Actions.SwFlowActions}
    {acts acts' : Actions.SwFlowActions} {data : List (BitVec 8)} {last : Bool} {attr : OvsActionAttr}
    {action : Option Action} (hsample : attr ≠ .sample) (hct : attr ≠ .ct)
    (h : copyActionsSwitch aenv key copy st acts data last attr = .ok (st', action, acts')) :
    action.isSome = (attr != .set) := by
  have hsome : ∀ {st₁ : CopyState} {a : Action} {acts₁ : Actions.SwFlowActions},
      (.ok (st₁, some a, acts₁) : Except Int (CopyState × Option Action × Actions.SwFlowActions)) =
        .ok (st', action, acts') → action.isSome = true := by
    rintro _ _ _ ⟨⟩
    rfl
  cases attr with
  | unspec => cases h
  | sample => exact absurd rfl hsample
  | ct => exact absurd rfl hct
  | set | setMasked =>
      obtain ⟨⟨a, sfa₁⟩, hset, h⟩ := bind_eq_ok.mp h
      obtain ⟨-, rfl, -⟩ : st = st' ∧ a = action ∧ sfa₁ = acts' := by simpa using h
      exact validateSet_action hset
  | userspace =>
      obtain ⟨_, _, h⟩ := bind_eq_ok.mp h
      exact hsome h
  | recirc => exact hsome h
  | output | trunc | hash | popVlan | pushVlan | pushMpls | popMpls | pushEth | popEth =>
      dsimp only [copyActionsSwitch] at h
      split_ifs at h
      exact hsome h

theorem accounts_copyChecked {key : SwFlowKey} {st : CopyState} {type : Nat} {attr : OvsActionAttr}
    (hattr : ovsActionAttrs[type]? = some attr) (hsample : attr ≠ .sample) (hct : attr ≠ .ct)
    (hset : attr ≠ .set) (data : List (BitVec 8)) (last : Bool) :
    Accounts True false sfa ((copyChecked env key st type data last attr).exec sfa) := by
  have hcopied : ∀ checked, copyActionsSwitch env.granting key (fun _ _ sfa => .ok sfa) st ⟨0, []⟩ data last
      attr = .ok checked → Accounts True false sfa ((do
        match checked.2.1 with
        | some _ => addAction env type (.bytes data)
        | none => copySet env data
        pure checked.1 : SfaM CopyState).exec sfa) := by
    rintro ⟨st', action, acts⟩ hok
    have hsome := copyActionsSwitch_action hsample hct hok
    cases action with
    | none => simp [hset] at hsome
    | some a =>
        refine (accounts_addAction ?_ ?_).returns _
        · rw [hattr]
          simpa using hset
        · rw [hattr]
          simpa using hct
  refine (Accounts.checked hcopied).congr ?_ fun _ => rfl
  simp

/-- A set action that passes the checks. -/
theorem accounts_copySet (hcounted : sfa.Counted) (data : List (BitVec 8)) :
    Accounts ((setKey data).map Prod.fst = some .tunnel →
        ∀ start sfa₁, (addNestedActionStart env (typeOf .set)).exec sfa = (.ok start, sfa₁) →
          Fills env sfa₁) ((setKey data).map Prod.fst == some .tunnel) sfa
      ((copySet env data).exec sfa) := by
  rcases hkey : setKey data with _ | ⟨attr, ovs_key⟩
  · unfold copySet
    rw [hkey]
    refine (accounts_error (α := Unit) false einval).congr ?_ fun _ => rfl
    simp
  · by_cases hattr : attr = .tunnel
    · subst hattr
      unfold copySet
      rw [hkey]
      refine (accounts_setTun hcounted).congr ?_ fun _ => rfl
      simp
    · have hmasked : Accounts True false sfa ((do
          let start ← addNestedActionStart env ovsActionAttrSetToMasked
          addAction env (ovsKeyAttrs.idxOf attr) (.bytes (ovs_key ++ fullMask attr ovs_key.length))
          addNestedActionEnd start : SfaM Unit).exec sfa) := accounts_setToMasked hcounted
      have hmasked : Accounts True false sfa ((copySet env data).exec sfa) := by
        unfold copySet
        rw [hkey]
        cases attr with
        | tunnel => exact absurd rfl hattr
        | _ => exact hmasked
      refine hmasked.congr ?_ fun _ => ?_
      · simp [hattr]
      · simpa [hkey] using hattr

theorem accounts_copyAttr (env : CopyEnv) (key : SwFlowKey) {copy : CopyState → List (BitVec 8) → SfaM Unit}
    {contained : CopyState → List (BitVec 8) → SwFlowActions → Prop}
    (hcopy : ∀ st l (sfa : SwFlowActions), sfa.Counted →
      Accounts (contained st l sfa) (holdsRefs l) sfa ((copy st l).exec sfa))
    (hcounted : sfa.Counted) (st : CopyState) {type : Nat} {attr : OvsActionAttr}
    (hattr : ovsActionAttrs[type]? = some attr) (data : List (BitVec 8)) (last : Bool) :
    Accounts (ContainedAttr env key copy contained st data last sfa attr) (isRef ⟨type, data⟩) sfa
      ((copyAttr env key copy st type data last attr).exec sfa) := by
  unfold isRef
  rw [hattr]
  cases attr with
  | ct => exact accounts_ct.returns st
  | sample =>
      refine Accounts.checked fun _ _ => ?_
      have hsample := (accounts_sample env hcopy hcounted (nestedState key st) data
        (sampleAttr data ovsSampleAttrActions) last).returns st
      simp only [bind_assoc] at hsample
      exact hsample
  | set =>
      refine Accounts.checked ?_
      rintro ⟨st', action, acts⟩ hok
      have hnone : action.isSome = false := copyActionsSwitch_action (by decide) (by decide) hok
      cases action with
      | some a => cases hnone
      | none => exact (accounts_copySet hcounted data).returns _
  | _ => exact accounts_copyChecked hattr nofun nofun nofun data last

end Account

/-! ## The whole list -/

section Run

/-- The loop, with any bound on the number of attributes that is large enough. -/
theorem accounts_copyActionsLoop (env : CopyEnv) (key : SwFlowKey) (fuel : Nat) :
    ∀ {st l sfa}, SwFlowActions.Counted sfa →
    ∀ n, l.length ≤ n → Accounts (Contained env key fuel st l sfa) ((nlaForEach n l).1.any isRef) sfa
      ((copyActionsLoop env key fuel st l).exec sfa) := by
  induction fuel with
  | zero =>
      intro st l sfa hcounted n hn
      unfold copyActionsLoop
      split_ifs with hnil
      · subst hnil
        rw [nlaForEach_nil]
        exact accounts_pure ()
      · exact accounts_error _ _
  | succ fuel ih =>
      intro st l sfa hcounted n hn
      -- a nested list uses the same fuel as what follows
      have hcopy : ∀ st l (sfa : SwFlowActions), sfa.Counted →
          Accounts (Contained env key fuel st l sfa) (holdsRefs l) sfa
            ((copyActionsLoop env key fuel st l).exec sfa) :=
        fun st l sfa hcounted => ih hcounted l.length le_rfl
      unfold copyActionsLoop
      cases hok : nlaOk l with
      | none =>
          have hgood : Contained env key (fuel + 1) st l sfa ↔ True := by
            simp [Contained, hok]
          dsimp only
          split_ifs with hnil
          · subst hnil
            rw [nlaForEach_nil]
            exact (accounts_pure ()).congr hgood fun _ => rfl
          · exact (accounts_error false _).congr hgood nofun
      | some nla_len =>
          cases hattr : ovsActionAttrs[nlaType l]? with
          | none =>
              refine (accounts_error false _).congr ?_ nofun
              simp [Contained, hattr]
          | some attr =>
              dsimp only
              split_ifs with hlens
              · refine (accounts_error false _).congr ?_ nofun
                refine iff_of_true ?_ trivial
                intro nla_len' attr' hok' hattr'
                obtain rfl := Option.some.inj (hok.symm.trans hok')
                obtain rfl := Option.some.inj (hattr.symm.trans hattr')
                intro data last hdata
                rw [hdata] at hlens
                cases hlens
              · obtain ⟨hhdr, hle⟩ := nlaOk_bounds hok
                obtain ⟨k, rfl⟩ : ∃ k, n = k + 1 := ⟨n - 1, by unfold nlaHdrlen at hhdr; omega⟩
                have hrest : (l.drop (nlaAlign nla_len)).length ≤ k := by
                  have halign := le_nlaAlign nla_len
                  rw [List.length_drop]
                  unfold nlaHdrlen at hhdr
                  omega
                have hhead := accounts_copyAttr env key hcopy hcounted st hattr
                  ((l.take nla_len).drop nlaHdrlen) (nla_len == l.length)
                have hrun := Accounts.bind
                  (f := fun st' => copyActionsLoop env key fuel st' (l.drop (nlaAlign nla_len)))
                  hhead fun st' sfa' hexec => ih ?_ k hrest
                · refine hrun.congr ?_ fun _ => ?_
                  · constructor
                    · intro h
                      exact h nla_len attr hok hattr ((Bool.not_eq_true _).mp hlens)
                    · intro h nla_len' attr' hok' hattr'
                      obtain rfl := Option.some.inj (hok.symm.trans hok')
                      obtain rfl := Option.some.inj (hattr.symm.trans hattr')
                      exact fun _ => h
                  · rw [nlaForEach_cons hok, List.any_cons]
                · rw [hexec] at hhead
                  exact hhead.counted hcounted

/-- A header that ends the list is read, though nothing has been put behind it. -/
theorem freeFlowActionsLoop_unfilled :
    freeFlowActionsLoop 0 [⟨nlaHdrlen, typeOf .set, .bytes []⟩] = [.stray] := by
  decide

/-- What has been gained is released when the walk sees it, and only then. -/
theorem Account.settled_iff {good : Prop} {refs ok : Bool} {sfa : SwFlowActions}
    (h : Account good refs ok ⟨0, [], 0, []⟩ sfa) : AllReleased (ovsNlaFreeFlowActions sfa).log ↔ good := by
  have hlog : ∀ {new gained}, Grows ⟨0, [], 0, []⟩ sfa new gained →
      held (ovsNlaFreeFlowActions sfa).log [] = held (freeFlowActionsLoop 0 new) gained := by
    intro new gained grows
    obtain ⟨uses, hlog, hheld⟩ := grows.log
    have hheld := hheld [] nofun
    rw [List.append_nil] at hheld
    show held (sfa.log ++ freeFlowActionsLoop 0 sfa.actions) [] = _
    rw [hlog, grows.actions, List.nil_append, List.nil_append, held_append, hheld, Option.bind_some]
  unfold AllReleased
  cases h with
  | seen rs hs grows plain perm hgood hrefs =>
      obtain ⟨left, hheld, hleft⟩ := held_releases perm
      have hwalk := plain []
      rw [List.append_nil] at hwalk
      rw [hlog grows, hwalk, freeFlowActionsLoop, List.append_nil, hheld, hgood, Option.some_inj]
      constructor
      · intro hnil
        subst hnil
        exact hleft.nil_eq.symm
      · intro hnil
        subst hnil
        exact hleft.eq_nil
  | unfilled new grows plain hbad herror =>
      rw [hlog grows, plain, freeFlowActionsLoop_unfilled, held_stray (by simp)]
      exact iff_of_false nofun hbad

/-- What a request has to keep for the account to come out even: if the buffer of the list is got at
all, all that is reached when it is copied is `Contained`. -/
def ContainedRequest (env : CopyEnv) (attr : List (BitVec 8)) (key : SwFlowKey) : Prop :=
  attr.length ≤ env.max_actions_bufsize → env.sfa_alloc = true →
    Contained env key attr.length (copyStateOf key) attr ⟨0, [], 0, []⟩

/-- **A list of actions releases what it has acquired**, once and nothing else, if and only if nothing
is held within a SAMPLE that has been copied to its end and no header of a tunnel SET is left
unfilled. -/
theorem life_settled_iff (env : CopyEnv) (attr : List (BitVec 8)) (key : SwFlowKey) :
    AllReleased (life env attr key) ↔ ContainedRequest env attr key := by
  unfold life ovsNlaCopyActions ContainedRequest
  split_ifs with hlen halloc
  · exact iff_of_true rfl fun hle => absurd hle (Nat.not_le_of_lt hlen)
  · refine iff_of_true rfl fun _ htrue => ?_
    simp [htrue] at halloc
  · rw [Bool.not_eq_true, Bool.not_eq_false'] at halloc
    have hcounted : SwFlowActions.Counted ⟨0, [], 0, []⟩ := rfl
    have haccount : Accounts _ _ _ ((copyActionsLoop env key attr.length (copyStateOf key) attr).exec _) :=
      accounts_copyActionsLoop env key attr.length hcounted attr.length le_rfl
    have hgood : (attr.length ≤ env.max_actions_bufsize → env.sfa_alloc = true →
        Contained env key attr.length (copyStateOf key) attr ⟨0, [], 0, []⟩) ↔
        Contained env key attr.length (copyStateOf key) attr ⟨0, [], 0, []⟩ :=
      ⟨fun h => h (Nat.le_of_not_lt hlen) halloc, fun h _ _ => h⟩
    rw [hgood, ← haccount.settled_iff]
    rcases (copyActionsLoop env key attr.length (copyStateOf key) attr).exec ⟨0, [], 0, []⟩ with
      ⟨_ | _, sfa⟩
    · rfl
    · rfl

end Run

/-- Everything is granted, and a CT action without attributes names no helper. -/
def plainCopyEnv : CopyEnv where
  max_actions_bufsize := 32768
  sfa_alloc := true
  reserve_sfa_size := fun _ _ => 0
  upstream_tunnel := true
  metadata_dst_alloc := fun _ => true
  dst_cache_init := fun _ => 0
  parse_ct := fun _ => .ok none
  ct_info_size := 136
  nf_ct_tmpl_alloc := fun _ => true
  nf_conntrack_helper_try_module_get := fun _ _ => true
  nf_ct_helper_ext_add := fun _ => true

/-- The masked key of a flow of IPv4 packets. -/
def ipFlowKey : SwFlowKey := SwFlowKey.setU8 (fun _ => 0) 352 0x08

/-- A SAMPLE with a CT action in it. -/
def sampledCt : List (BitVec 8) :=
  [20, 0, 6, 0] ++ [8, 0, 1, 0, 0xFF, 0xFF, 0xFF, 0xFF] ++ [8, 0, 2, 0] ++ [4, 0, 12, 0]

/-- A tunnel SET, with a destination address and a TTL. -/
def tunnelSet : List (BitVec 8) :=
  [24, 0, 3, 0] ++ [20, 0, 16, 0] ++ [8, 0, 2, 0, 10, 0, 0, 1] ++ [5, 0, 4, 0, 64, 0, 0, 0]

/-- The template of a CT action in a SAMPLE is not released with the flow. When no memory is left for
the destination of a tunnel SET, the walk reads the header that has been reserved for it. -/
theorem life_not_settled :
    ¬ AllReleased (life plainCopyEnv sampledCt ipFlowKey) ∧
      ¬ AllReleased (life { plainCopyEnv with metadata_dst_alloc := fun _ => false } tunnelSet ipFlowKey) := by
  decide +kernel

end OvsDatapath.Actions.Sfa
