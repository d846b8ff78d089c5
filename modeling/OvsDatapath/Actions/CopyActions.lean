import OvsDatapath.Actions.Executor
import OvsDatapath.Flow.Match

/-!
# Validating action lists

`ovs_nla_copy_actions` (`flow_netlink.c`) turns the action attributes of a request into the list that
the executor runs, or rejects them. It goes through the attributes once and carries three values along:
whether the packet has an Ethernet header (`mac_proto`), what follows it (`eth_type`), and its VLAN tag
(`vlan_tci`). They start with the masked key of the flow.

`Validated` says in terms of the resulting list what the validator has checked: `Checked` for one
action, with the values before and after it. `validated_of_copy` is the connection: every list that is
copied is validated.
-/

namespace OvsDatapath.Actions

open OvsDatapath.Lib OvsDatapath.Flow

/-! ## Attributes -/

/-- `enum ovs_action_attr`. -/
inductive OvsActionAttr where
  | unspec
  | output
  | userspace
  | set
  | pushVlan
  | popVlan
  | sample
  | recirc
  | hash
  | pushMpls
  | popMpls
  | setMasked
  | ct
  | trunc
  | pushEth
  | popEth
  deriving DecidableEq, Repr

/-- The attributes by their number. -/
def ovsActionAttrs : List OvsActionAttr :=
  [.unspec, .output, .userspace, .set, .pushVlan, .popVlan, .sample, .recirc, .hash, .pushMpls, .popMpls,
    .setMasked, .ct, .trunc, .pushEth, .popEth]

/-- `action_lens`, with none for variable length. -/
def actionLens : OvsActionAttr → Option Nat
  | .unspec | .popVlan | .popEth => some 0
  | .output | .recirc | .pushVlan | .trunc => some 4
  | .hash | .pushMpls => some 8
  | .popMpls => some 2
  | .pushEth => some 12
  | .userspace | .set | .setMasked | .sample | .ct => none

/-- `-ERANGE`. -/
def erange : Int := -34

/-- `OVS_HASH_ALG_L4`. -/
def ovsHashAlgL4 : BitVec 32 := 0

/-- `OVS_USERSPACE_ATTR_PID`. -/
def ovsUserspaceAttrPid : Nat := 1

/-- `OVS_USERSPACE_ATTR_EGRESS_TUN_PORT`. -/
def ovsUserspaceAttrEgressTunPort : Nat := 3

/-- `OVS_USERSPACE_ATTR_MAX`. -/
def ovsUserspaceAttrMax : Nat := 4

/-- `OVS_SAMPLE_ATTR_PROBABILITY`. -/
def ovsSampleAttrProbability : Nat := 1

/-- `OVS_SAMPLE_ATTR_ACTIONS`, and `OVS_SAMPLE_ATTR_MAX`. -/
def ovsSampleAttrActions : Nat := 2

/-- `ovs_key_mac_proto`. -/
def ovsKeyMacProto (key : SwFlowKey) : BitVec 8 := key.macProto &&& ~~~swFlowKeyInvalid

/-- `actions_may_change_flow`, on the types of the actions. -/
def attrsMayChangeFlow (types : List Nat) : Bool :=
  types.any fun type =>
    match ovsActionAttrs[type]? with
    | some .output | some .recirc | some .trunc | some .userspace => false
    | _ => true

/-- An attribute with a header for any length, as it is laid out in a buffer. -/
def nlaBytes (attr : OvsKeyAttr) (data : List (BitVec 8)) : List (BitVec 8) :=
  let nla_len := BitVec.ofNat 16 (nlaHdrlen + data.length)
  let type := BitVec.ofNat 16 (ovsKeyAttrs.idxOf attr)
  [nla_len.setWidth 8, (nla_len >>> 8).setWidth 8, type.setWidth 8, (type >>> 8).setWidth 8] ++ data ++
    List.replicate (nlaAlign data.length - data.length) 0

/-! ## The buffer of the list -/

/-- What the validator gets from outside. -/
structure ActionsEnv where
  /-- `MAX_ACTIONS_BUFSIZE`. -/
  max_actions_bufsize : Nat
  /-- Whether the buffer can be allocated. -/
  sfa_alloc : Bool
  /-- The error of `reserve_sfa_size` for a number of bytes in use and the bytes that are needed; it
  depends on how sizes are rounded by the allocator. -/
  reserve_sfa_size : Nat → Nat → Int
  /-- The error of allocating a tunnel destination, or zero. -/
  tun_dst : Int
  /-- `USE_UPSTREAM_TUNNEL`. -/
  upstream_tunnel : Bool
  /-- The `struct ovs_conntrack_info` that `ovs_ct_copy_action` prepares. -/
  ct_info : List (BitVec 8) → SwFlowKey → Except Int (List (BitVec 8))

/-- `struct sw_flow_actions`, with the actions in place of their bytes. -/
structure SwFlowActions where
  actions_len : Nat
  actions : List Action

/-- `reserve_sfa_size`. -/
def reserveSfaSize (env : ActionsEnv) (sfa : SwFlowActions) (attr_len : Nat) : Except Int SwFlowActions :=
  let req_size := nlaAlign attr_len
  let err := env.reserve_sfa_size sfa.actions_len req_size
  if err ≠ 0 then .error err else .ok { sfa with actions_len := sfa.actions_len + req_size }

/-- Put an action at the end. -/
def SwFlowActions.push (sfa : SwFlowActions) (action : Action) : SwFlowActions :=
  { sfa with actions := sfa.actions ++ [action] }

/-- `copy_action` and `ovs_nla_add_action`: an action that takes a number of bytes. -/
def addAction (env : ActionsEnv) (sfa : SwFlowActions) (attr_len : Nat) (action : Action) :
    Except Int SwFlowActions := do
  let sfa ← reserveSfaSize env sfa attr_len
  .ok (sfa.push action)

/-! ## Simple actions -/

/-- `validate_userspace`: the attributes are parsed as their policy says, and the last PID counts. -/
def validateUserspace (data : List (BitVec 8)) : Except Int Unit :=
  let (nlas, _) := nlaForEachNested data
  let short (nla : Nlattr) : Bool :=
    (nla.type == ovsUserspaceAttrPid || nla.type == ovsUserspaceAttrEgressTunPort) && nla.data.length < 4
  if nlas.any short then .error erange
  else
    match (nlas.filter fun nla => nla.type == ovsUserspaceAttrPid).getLast? with
    | none => .error einval
    | some pid => if le32At pid.data 0 = 0 then .error einval else .ok ()

/-- The loop of `validate_geneve_opts`: whether one of the options is critical. -/
def geneveOptsCritical : Nat → List (BitVec 8) → Except Int Bool
  | 0, _ => .ok false
  | fuel + 1, opts =>
      if opts.isEmpty then .ok false
      else if opts.length < 4 then .error einval
      else
        let len := 4 + (byteAt opts 3 &&& 0x1F).toNat * 4
        if opts.length < len then .error einval
        else do
          let crit_opt ← geneveOptsCritical fuel (opts.drop len)
          .ok (byteAt opts 2 &&& 0x80 != 0 || crit_opt)

/-- `validate_geneve_opts`, on the key of a tunnel. -/
def validateGeneveOpts (key : SwFlowKey) : Except Int SwFlowKey := do
  let len := (key.u8 255).toNat
  let crit_opt ← geneveOptsCritical len ((List.range len).map fun i => key.u8 (255 - len + i))
  .ok (if crit_opt then key.setU8 296 (key.u8 296 ||| 0x04) else key)

/-- The switch of `validate_and_copy_set_tun` on the type of the options. -/
def validateTunOpts (key : SwFlowKey) : Except Int SwFlowKey :=
  -- `TUNNEL_GENEVE_OPT`, which is set along with `opts_type`
  if key.u8 255 ≠ 0 ∧ key.be16 296 &&& 0x0800 ≠ 0 then validateGeneveOpts key else .ok key

/-- `validate_and_copy_set_tun`. In place of the pointer to a tunnel destination the action has the
bytes that the destination is made of: the options and the key. -/
def validateAndCopySetTun (env : ActionsEnv) (sfa : SwFlowActions) (data : List (BitVec 8)) :
    Except Int SwFlowActions := do
  let stores ← ipTunFromNlattr (fun _ => 0) data false
  let key ← validateTunOpts (SwFlowKey.store (fun _ => 0) stores)
  let sfa ← reserveSfaSize env sfa nlaHdrlen
  let tun_info := (List.range 312).map fun i => key.u8 i
  if env.tun_dst ≠ 0 then .error env.tun_dst
  else addAction env sfa (nlaHdrlen + 8) (.set (nlaBytes .tunnelInfo tun_info))

/-- `validate_masked`. -/
def validateMasked (data : List (BitVec 8)) (len : Nat) : Bool :=
  (List.range len).all fun i => byteAt data i &&& ~~~byteAt data (len + i) == 0

/-! ## Set actions -/

/-- The three values that the validator carries along. -/
structure CopyState where
  mac_proto : BitVec 8
  eth_type : BitVec 16
  vlan_tci : BitVec 16

/-- The tests of `validate_set` for the header of a transport protocol. -/
def validateSetTp (st : CopyState) (key : SwFlowKey) (proto : BitVec 8) : Bool :=
  (st.eth_type == ethPIp || st.eth_type == ethPIpv6) && key.ipProto == proto

/-- The tests of `validate_set` for each type of key, apart from a tunnel. -/
def validateSetKey (st : CopyState) (key : SwFlowKey) (masked : Bool) (data : List (BitVec 8)) :
    OvsKeyAttr → Bool
  | .priority | .skbMark | .ctMark | .ctLabels => true
  | .ethernet => st.mac_proto == macProtoEthernet
  | .ipv4 =>
      st.eth_type == ethPIp &&
        if masked then byteAt data 20 == 0 && byteAt data 23 == 0
        else byteAt data 8 == key.ipProto && byteAt data 11 == key.ipFrag
  | .ipv6 =>
      st.eth_type == ethPIpv6 &&
        (if masked then byteAt data 76 == 0 && byteAt data 79 == 0 && be16Of data 72 &&& 0xFFF0 == 0
          else byteAt data 36 == key.ipProto && byteAt data 39 == key.ipFrag) &&
        be16Of data 32 &&& 0xFFF0 == 0
  | .tcp => validateSetTp st key ipprotoTcp
  | .udp => validateSetTp st key ipprotoUdp
  | .mpls => ethPMpls st.eth_type
  | .sctp => validateSetTp st key ipprotoSctp
  | _ => false

/-- The mask of a set action without one, with the bits cleared that cannot be written. -/
def fullMask (attr : OvsKeyAttr) (key_len : Nat) : List (BitVec 8) :=
  let mask := List.replicate key_len 0xFF
  if attr = .ipv6 then mask.take 32 ++ [0, 0x0F, 0xFF, 0xFF] ++ mask.drop 36 else mask

/-- `validate_set`. The action that is still to be copied, if any, and the buffer. An attribute without
a whole header is rejected for the length that is read behind it, whatever that is. -/
def validateSet (env : ActionsEnv) (key : SwFlowKey) (st : CopyState) (sfa : SwFlowActions)
    (data : List (BitVec 8)) (masked : Bool) : Except Int (Option Action × SwFlowActions) :=
  match nlaOk data with
  | none => .error einval
  | some nla_len =>
      let ovs_key := (data.take nla_len).drop nlaHdrlen
      let key_len := if masked then ovs_key.length / 2 else ovs_key.length
      if nlaAlign nla_len ≠ data.length then .error einval
      else
        match ovsKeyAttrs[nlaType data]? with
        | none => .error einval
        | some attr =>
            if !checkAttrLen key_len (ovsKeyLens attr) then .error einval
            else if masked && !validateMasked ovs_key key_len then .error einval
            else if attr = .tunnel then
              if !env.upstream_tunnel && ethPMpls st.eth_type then .error einval
              else if masked then .error einval
              else do
                let sfa ← validateAndCopySetTun env sfa ovs_key
                .ok (none, sfa)
            else if !validateSetKey st key masked ovs_key attr then .error einval
            else if masked then .ok (some (.setMasked data), sfa)
            else do
              let sfa ← reserveSfaSize env sfa nlaHdrlen
              let sfa ← addAction env sfa (nlaHdrlen + key_len * 2)
                (.setMasked (nlaBytes attr (ovs_key ++ fullMask attr key_len)))
              .ok (none, sfa)

/-! ## The list -/

/-- The loop of `validate_and_copy_sample` that sorts the attributes by type. -/
def sampleAttrs : List Nlattr → (Nat → Option (List (BitVec 8))) →
    Except Int (Nat → Option (List (BitVec 8)))
  | [], attrs => .ok attrs
  | a :: rest, attrs =>
      if a.type = 0 ∨ ovsSampleAttrActions < a.type ∨ (attrs a.type).isSome then .error einval
      else sampleAttrs rest (Function.update attrs a.type (some a.data))

/-- `validate_and_copy_sample`; `copy` goes through the nested actions. -/
def validateAndCopySample (env : ActionsEnv)
    (copy : List (BitVec 8) → SwFlowActions → Except Int SwFlowActions) (sfa : SwFlowActions)
    (data : List (BitVec 8)) (last : Bool) : Except Int SwFlowActions := do
  let (nlas, rem) := nlaForEachNested data
  let attrs ← sampleAttrs nlas fun _ => none
  if rem ≠ 0 then .error einval
  else
    match attrs ovsSampleAttrProbability, attrs ovsSampleAttrActions with
    | some probability, some actions =>
        if probability.length ≠ 4 then .error einval
        else if actions.length ≠ 0 ∧ actions.length < nlaHdrlen then .error einval
        else do
          let start ← reserveSfaSize env sfa nlaHdrlen
          let exec := last || !attrsMayChangeFlow ((nlaForEachNested actions).1.map Nlattr.type)
          -- `struct sample_arg`
          let start ← reserveSfaSize env start (nlaHdrlen + 8)
          let nested ← copy actions { start with actions := [] }
          .ok { nested with
            actions := sfa.actions ++ [.sample (le32At probability 0) exec nested.actions] }
    | _, _ => .error einval

/-- The switch of `__ovs_nla_copy_actions`: the values after the action, the action that is still to be
copied unless the copy is skipped, and the buffer. -/
def copyActionsSwitch (env : ActionsEnv) (key : SwFlowKey)
    (copy : CopyState → List (BitVec 8) → SwFlowActions → Except Int SwFlowActions) (st : CopyState)
    (sfa : SwFlowActions) (data : List (BitVec 8)) (last : Bool) :
    OvsActionAttr → Except Int (CopyState × Option Action × SwFlowActions)
  | .unspec => .error einval
  | .userspace => do
      validateUserspace data
      .ok (st, some (.userspace data), sfa)
  | .output =>
      let port := (le32At data 0).toNat
      if dpMaxPorts ≤ port then .error einval else .ok (st, some (.output port), sfa)
  | .trunc =>
      let max_len := (le32At data 0).toNat
      if max_len < ethHlen then .error einval else .ok (st, some (.trunc max_len), sfa)
  | .hash =>
      if le32At data 0 ≠ ovsHashAlgL4 then .error einval else .ok (st, some (.hash (le32At data 4)), sfa)
  | .popVlan =>
      if st.mac_proto ≠ macProtoEthernet then .error einval
      else .ok ({ st with vlan_tci := 0 }, some .popVlan, sfa)
  | .pushVlan =>
      if st.mac_proto ≠ macProtoEthernet then .error einval
      else if !ethTypeVlan (be16Of data 0) then .error einval
      else if be16Of data 2 &&& vlanTagPresent = 0 then .error einval
      else .ok ({ st with vlan_tci := be16Of data 2 }, some (.pushVlan data), sfa)
  | .recirc => .ok (st, some (.recirc (le32At data 0)), sfa)
  | .pushMpls =>
      if !ethPMpls (be16Of data 4) then .error einval
      else if st.vlan_tci &&& vlanTagPresent ≠ 0 ∨ (st.eth_type ≠ ethPIp ∧ st.eth_type ≠ ethPIpv6 ∧
          st.eth_type ≠ ethPArp ∧ st.eth_type ≠ ethPRarp ∧ ¬ ethPMpls st.eth_type) then .error einval
      else .ok ({ st with eth_type := be16Of data 4 }, some (.pushMpls data), sfa)
  | .popMpls =>
      if st.vlan_tci &&& vlanTagPresent ≠ 0 ∨ ¬ ethPMpls st.eth_type then .error einval
      else .ok ({ st with eth_type := 0 }, some (.popMpls data), sfa)
  | .set => do
      let (action, sfa) ← validateSet env key st sfa data false
      .ok (st, action, sfa)
  | .setMasked => do
      let (action, sfa) ← validateSet env key st sfa data true
      .ok (st, action, sfa)
  | .sample => do
      -- the nested list starts with the Ethernet header that the key has
      let nested : CopyState := { st with mac_proto := ovsKeyMacProto key }
      let sfa ← validateAndCopySample env (copy nested) sfa data last
      .ok (st, none, sfa)
  | .ct => do
      let ct_info ← env.ct_info data key
      let sfa ← addAction env sfa (nlaHdrlen + ct_info.length) (.ct ct_info)
      .ok (st, none, sfa)
  | .pushEth =>
      if st.mac_proto ≠ macProtoNone then .error einval
      else .ok ({ st with mac_proto := macProtoNone }, some (.pushEth data), sfa)
  | .popEth =>
      if st.mac_proto ≠ macProtoEthernet then .error einval
      else if st.vlan_tci &&& vlanTagPresent ≠ 0 then .error einval
      else .ok ({ st with mac_proto := macProtoEthernet }, some .popEth, sfa)

/-- The loop of `__ovs_nla_copy_actions`, over the bytes that are left. Every attribute takes four bytes
or more. -/
def copyActionsLoop (env : ActionsEnv) (key : SwFlowKey) :
    Nat → CopyState → List (BitVec 8) → SwFlowActions → Except Int SwFlowActions
  | 0, _, l, sfa => if l = [] then .ok sfa else .error einval
  | fuel + 1, st, l, sfa =>
      match nlaOk l with
      | none => if l = [] then .ok sfa else .error einval
      | some nla_len =>
          let data := (l.take nla_len).drop nlaHdrlen
          match ovsActionAttrs[nlaType l]? with
          | none => .error einval
          | some attr =>
              if (actionLens attr).any (· ≠ data.length) then .error einval
              else do
                let (st, action, sfa) ← copyActionsSwitch env key (copyActionsLoop env key fuel) st sfa
                  data (nla_len == l.length) attr
                let sfa ← match action with
                  | some action => addAction env sfa nla_len action
                  | none => .ok sfa
                copyActionsLoop env key fuel st (l.drop (nlaAlign nla_len)) sfa

/-- The values that a list starts with. -/
def copyStateOf (key : SwFlowKey) : CopyState := ⟨ovsKeyMacProto key, key.ethType, key.vlanTci⟩

/-- `ovs_nla_copy_actions`. The key must be the masked key. -/
def ovsNlaCopyActions (env : ActionsEnv) (attr : List (BitVec 8)) (key : SwFlowKey) :
    Except Int (List Action) :=
  -- `nla_alloc_flow_actions`
  if env.max_actions_bufsize < attr.length then .error einval
  else if !env.sfa_alloc then .error enomem
  else do
    let sfa ← copyActionsLoop env key attr.length (copyStateOf key) attr ⟨0, []⟩
    .ok sfa.actions

/-! ## What has been checked -/

/-- The key and the mask that a set action has, one behind the other, and their type. -/
def setKey (data : List (BitVec 8)) : Option (OvsKeyAttr × List (BitVec 8)) :=
  match nlaOk data with
  | none => none
  | some nla_len => (ovsKeyAttrs[nlaType data]?).map fun attr => (attr, (data.take nla_len).drop nlaHdrlen)

/-- A set action with a mask as the validator leaves it, from a request with a mask or without one. -/
structure SetChecked (st : CopyState) (key : SwFlowKey) (attr : OvsKeyAttr) (ovs_key : List (BitVec 8)) :
    Prop where
  not_tunnel : attr ≠ .tunnel
  len : checkAttrLen (ovs_key.length / 2) (ovsKeyLens attr) = true
  checked : validateSetKey st key true ovs_key attr = true ∨
    ∃ key_len, ovs_key.length = key_len * 2 ∧
      validateSetKey st key false (ovs_key.take key_len) attr = true ∧
      ovs_key.drop key_len = fullMask attr key_len

/-- What the validator has checked about an action other than SAMPLE, with the values before and after
it. -/
inductive Checked (key : SwFlowKey) : CopyState → Action → CopyState → Prop
  | output {st port} (hport : port < dpMaxPorts) : Checked key st (.output port) st
  | trunc {st max_len} (hlen : ethHlen ≤ max_len) : Checked key st (.trunc max_len) st
  | userspace {st data} : Checked key st (.userspace data) st
  | hash {st hash_basis} : Checked key st (.hash hash_basis) st
  | recirc {st recirc_id} : Checked key st (.recirc recirc_id) st
  | ct {st ct_info} : Checked key st (.ct ct_info) st
  | popVlan {st} (hmac : st.mac_proto = macProtoEthernet) :
      Checked key st .popVlan { st with vlan_tci := 0 }
  | pushVlan {st data} (hmac : st.mac_proto = macProtoEthernet)
      (htpid : ethTypeVlan (be16Of data 0) = true) (htci : be16Of data 2 &&& vlanTagPresent ≠ 0) :
      Checked key st (.pushVlan data) { st with vlan_tci := be16Of data 2 }
  | pushMpls {st data} (hmpls : ethPMpls (be16Of data 4) = true)
      (htci : st.vlan_tci &&& vlanTagPresent = 0)
      (htype : st.eth_type = ethPIp ∨ st.eth_type = ethPIpv6 ∨ st.eth_type = ethPArp ∨
        st.eth_type = ethPRarp ∨ ethPMpls st.eth_type = true) :
      Checked key st (.pushMpls data) { st with eth_type := be16Of data 4 }
  | popMpls {st data} (hmpls : ethPMpls st.eth_type = true) (htci : st.vlan_tci &&& vlanTagPresent = 0) :
      Checked key st (.popMpls data) { st with eth_type := 0 }
  | set {st tun_info} : Checked key st (.set (nlaBytes .tunnelInfo tun_info)) st
  | setMasked {st data attr ovs_key} (hkey : setKey data = some (attr, ovs_key))
      (hchecked : SetChecked st key attr ovs_key) : Checked key st (.setMasked data) st
  | pushEth {st data} (hmac : st.mac_proto = macProtoNone) :
      Checked key st (.pushEth data) { st with mac_proto := macProtoNone }
  | popEth {st} (hmac : st.mac_proto = macProtoEthernet) (htci : st.vlan_tci &&& vlanTagPresent = 0) :
      Checked key st .popEth { st with mac_proto := macProtoEthernet }

/-- `actions_may_change_flow`, on the list that is run. -/
def actionsMayChangeFlow (actions : List Action) : Bool :=
  actions.any fun
    | .output _ | .recirc _ | .trunc _ | .userspace _ => false
    | _ => true

/-- A list is validated if each of its actions is, with the values that the actions before it leave.
What a nested list leaves is forgotten. -/
inductive Validated (key : SwFlowKey) : CopyState → List Action → Prop
  | nil {st} : Validated key st []
  | cons {st st' action rest} (haction : Checked key st action st') (hrest : Validated key st' rest) :
      Validated key st (action :: rest)
  | sample {st probability exec actions rest}
      (hexec : exec = (rest.isEmpty || !actionsMayChangeFlow actions))
      (hactions : Validated key { st with mac_proto := ovsKeyMacProto key } actions)
      (hrest : Validated key st rest) : Validated key st (.sample probability exec actions :: rest)

/-! ## Every list that is copied is validated -/

variable {env : ActionsEnv} {key : SwFlowKey} {st st' : CopyState} {sfa sfa' : SwFlowActions}
variable {data l : List (BitVec 8)} {last : Bool}

theorem nlaAlign_mod (len : Nat) : nlaAlign len % 4 = 0 := by
  unfold nlaAlign
  omega

/-- What remains of a stream differs from its length by whole words. -/
theorem nlaForEach_rem (fuel : Nat) (l : List (BitVec 8)) :
    (nlaForEach fuel l).2 % 4 = (l.length : Int) % 4 := by
  induction fuel generalizing l with
  | zero => rfl
  | succ fuel ih =>
      unfold nlaForEach
      cases hok : nlaOk l with
      | none => rfl
      | some nla_len =>
          have hmod := nlaAlign_mod nla_len
          dsimp only
          split_ifs with hshort
          · dsimp only
            omega
          · have hrest := ih (l.drop (nlaAlign nla_len))
            rw [List.length_drop] at hrest
            dsimp only
            omega

theorem reserveSfaSize_actions {n : Nat} (h : reserveSfaSize env sfa n = .ok sfa') :
    sfa'.actions = sfa.actions := by
  unfold reserveSfaSize at h
  dsimp only at h
  split_ifs at h
  obtain rfl := Except.ok.inj h
  rfl

theorem addAction_actions {n : Nat} {action : Action} (h : addAction env sfa n action = .ok sfa') :
    sfa'.actions = sfa.actions ++ [action] := by
  obtain ⟨sfa₁, hreserve, h⟩ := bind_eq_ok.mp h
  obtain rfl := Except.ok.inj h
  rw [SwFlowActions.push, reserveSfaSize_actions hreserve]

theorem validateAndCopySetTun_actions (h : validateAndCopySetTun env sfa data = .ok sfa') :
    ∃ tun_info, sfa'.actions = sfa.actions ++ [.set (nlaBytes .tunnelInfo tun_info)] := by
  obtain ⟨stores, -, h⟩ := bind_eq_ok.mp h
  obtain ⟨tun_key, -, h⟩ := bind_eq_ok.mp h
  obtain ⟨sfa₁, hreserve, h⟩ := bind_eq_ok.mp h
  split_ifs at h
  exact ⟨_, by rw [addAction_actions h, reserveSfaSize_actions hreserve]⟩

/-- The header of an attribute in a buffer is read back. -/
theorem setKey_nlaBytes (attr : OvsKeyAttr) (hlen : data.length < 0xFFFC) :
    setKey (nlaBytes attr data) = some (attr, data) := by
  have hattr : ovsKeyAttrs[ovsKeyAttrs.idxOf attr]? = some attr := by cases attr <;> rfl
  have hidx : ovsKeyAttrs.idxOf attr < 29 := by cases attr <;> decide
  have hlen16 : le16At (nlaBytes attr data) 0 = BitVec.ofNat 16 (nlaHdrlen + data.length) := be16_bytes _
  have htype16 : le16At (nlaBytes attr data) 2 = BitVec.ofNat 16 (ovsKeyAttrs.idxOf attr) := be16_bytes _
  have hok : nlaOk (nlaBytes attr data) = some (nlaHdrlen + data.length) := by
    have htoNat : (BitVec.ofNat 16 (nlaHdrlen + data.length)).toNat = nlaHdrlen + data.length := by
      rw [BitVec.toNat_ofNat]
      exact Nat.mod_eq_of_lt (by unfold nlaHdrlen; omega)
    unfold nlaOk
    dsimp only
    rw [hlen16, htoNat, if_neg]
    simp [nlaBytes, nlaHdrlen]
    omega
  have htype : nlaType (nlaBytes attr data) = ovsKeyAttrs.idxOf attr := by
    unfold nlaType
    rw [htype16]
    interval_cases ovsKeyAttrs.idxOf attr <;> rfl
  unfold setKey
  rw [hok, htype, hattr]
  simp [nlaBytes, nlaHdrlen, Nat.add_comm 4]

theorem validateSetKey_len {masked : Bool} {attr : OvsKeyAttr}
    (h : validateSetKey st key masked data attr = true) :
    ∃ n, ovsKeyLens attr = .fixed n ∧ n ≤ 40 ∧ (attr = .ipv6 → n = 40) := by
  cases attr <;> simp [validateSetKey] at h <;> simp [ovsKeyLens]

theorem fullMask_length {attr : OvsKeyAttr} {key_len : Nat} (h : attr = .ipv6 → key_len = 40) :
    (fullMask attr key_len).length = key_len := by
  unfold fullMask
  split_ifs with hattr
  · simp [h hattr]
  · simp

/-- What is left of a set action that is accepted: a reference to a tunnel, the attribute as it is, or the
attribute with a mask for the whole key. -/
inductive SetCopied (key : SwFlowKey) (st : CopyState) (data : List (BitVec 8)) (sfa sfa' : SwFlowActions) :
    Bool → Option Action → Prop
  | tunnel {tun_info} (hactions : sfa'.actions = sfa.actions ++ [.set (nlaBytes .tunnelInfo tun_info)]) :
      SetCopied key st data sfa sfa' false none
  | masked {attr ovs_key} (hread : setKey data = some (attr, ovs_key)) (htunnel : attr ≠ .tunnel)
      (hlen : checkAttrLen (ovs_key.length / 2) (ovsKeyLens attr) = true)
      (hmasked : validateMasked ovs_key (ovs_key.length / 2) = true)
      (hkey : validateSetKey st key true ovs_key attr = true) (hsfa : sfa' = sfa) :
      SetCopied key st data sfa sfa' true (some (.setMasked data))
  | whole {attr ovs_key} (hread : setKey (nlaBytes attr (ovs_key ++ fullMask attr ovs_key.length)) =
        some (attr, ovs_key ++ fullMask attr ovs_key.length)) (htunnel : attr ≠ .tunnel)
      (hlen : ovsKeyLens attr = .fixed ovs_key.length) (hipv6 : attr = .ipv6 → ovs_key.length = 40)
      (hkey : validateSetKey st key false ovs_key attr = true)
      (hactions : sfa'.actions =
        sfa.actions ++ [.setMasked (nlaBytes attr (ovs_key ++ fullMask attr ovs_key.length))]) :
      SetCopied key st data sfa sfa' false none

theorem setCopied_of_validateSet {masked : Bool} {action : Option Action}
    (h : validateSet env key st sfa data masked = .ok (action, sfa')) :
    SetCopied key st data sfa sfa' masked action := by
  unfold validateSet at h
  cases hok : nlaOk data with
  | none =>
      rw [hok] at h
      cases h
  | some nla_len =>
      cases hattr : ovsKeyAttrs[nlaType data]? with
      | none => simp [hok, hattr] at h
      | some attr =>
          cases masked with
          | true =>
              simp only [hok, hattr, if_true] at h
              split_ifs at h with halign hlen hmasked htunnel hmpls hkey
              obtain ⟨rfl, rfl⟩ := Prod.mk.inj (Except.ok.inj h)
              rw [Bool.not_eq_true, Bool.not_eq_false'] at hlen hkey
              rw [Bool.true_and, Bool.not_eq_true, Bool.not_eq_false'] at hmasked
              have hread : setKey data = some (attr, (data.take nla_len).drop nlaHdrlen) := by
                simp only [setKey, hok, hattr, Option.map_some]
              exact .masked hread htunnel hlen hmasked hkey rfl
          | false =>
              simp only [hok, hattr, Bool.false_eq_true, if_false] at h
              split_ifs at h with halign hlen hmasked htunnel hmpls hkey
              · obtain ⟨sfa₁, htun, h⟩ := bind_eq_ok.mp h
                obtain ⟨rfl, rfl⟩ := Prod.mk.inj (Except.ok.inj h)
                obtain ⟨tun_info, hactions⟩ := validateAndCopySetTun_actions htun
                exact .tunnel hactions
              · obtain ⟨sfa₁, hreserve, h⟩ := bind_eq_ok.mp h
                obtain ⟨sfa₂, hadd, h⟩ := bind_eq_ok.mp h
                obtain ⟨rfl, rfl⟩ := Prod.mk.inj (Except.ok.inj h)
                rw [Bool.not_eq_true, Bool.not_eq_false'] at hlen hkey
                obtain ⟨n, hfixed, hle, hipv6⟩ := validateSetKey_len hkey
                rw [hfixed, checkAttrLen, beq_iff_eq] at hlen
                generalize (data.take nla_len).drop nlaHdrlen = ovs_key at hadd hkey hlen
                subst hlen
                have hread : setKey (nlaBytes attr (ovs_key ++ fullMask attr ovs_key.length)) =
                    some (attr, ovs_key ++ fullMask attr ovs_key.length) := by
                  apply setKey_nlaBytes
                  rw [List.length_append, fullMask_length hipv6]
                  omega
                have hactions := addAction_actions hadd
                rw [reserveSfaSize_actions hreserve] at hactions
                exact .whole hread htunnel hfixed hipv6 hkey hactions

theorem validateSet_copied {masked : Bool} {action : Option Action}
    (h : validateSet env key st sfa data masked = .ok (action, sfa')) :
    ∃ a, sfa'.actions ++ action.toList = sfa.actions ++ [a] ∧ Checked key st a st ∧
      ((∃ attr, a = .set attr) ∨ ∃ attr, a = .setMasked attr) := by
  cases setCopied_of_validateSet h with
  | tunnel hactions => exact ⟨_, by simpa using hactions, .set, .inl ⟨_, rfl⟩⟩
  | masked hread htunnel hlen _ hkey hsfa =>
      rw [hsfa]
      exact ⟨_, rfl, .setMasked hread ⟨htunnel, hlen, .inl hkey⟩, .inr ⟨_, rfl⟩⟩
  | @whole attr ovs_key hread htunnel hlen hipv6 hkey hactions =>
      have hlength : (ovs_key ++ fullMask attr ovs_key.length).length = ovs_key.length * 2 := by
        rw [List.length_append, fullMask_length hipv6]
        omega
      refine ⟨_, by simpa using hactions, .setMasked hread ⟨htunnel, ?_, .inr ⟨ovs_key.length, hlength, ?_, ?_⟩⟩,
        .inr ⟨_, rfl⟩⟩
      · rw [hlength, hlen, checkAttrLen, beq_iff_eq]
        omega
      · rw [List.take_left]
        exact hkey
      · exact List.drop_left

/-- Whether an attribute is taken to change the flow. -/
def OvsActionAttr.mayChangeFlow : OvsActionAttr → Bool
  | .output | .recirc | .trunc | .userspace => false
  | _ => true

/-- Going through a list of attributes leaves a validated list of actions, which is taken to change the
flow when the attributes are. -/
def Copies (key : SwFlowKey) (st : CopyState)
    (copy : List (BitVec 8) → SwFlowActions → Except Int SwFlowActions) : Prop :=
  ∀ l sfa sfa', copy l sfa = .ok sfa' →
    ∃ actions, sfa'.actions = sfa.actions ++ actions ∧ Validated key st actions ∧
      attrsMayChangeFlow ((nlaForEachNested l).1.map Nlattr.type) = actionsMayChangeFlow actions

/-- What has been copied for one attribute of a length. -/
inductive Copied (key : SwFlowKey) (st : CopyState) (len : Nat) (last : Bool) :
    Action → CopyState → Prop
  | plain {action st'} (h : Checked key st action st') : Copied key st len last action st'
  | sample {probability exec actions} (hlen : len % 4 = 0)
      (hexec : exec = (last || !actionsMayChangeFlow actions))
      (hactions : Validated key { st with mac_proto := ovsKeyMacProto key } actions) :
      Copied key st len last (.sample probability exec actions) st

theorem validateAndCopySample_copied
    {copy : List (BitVec 8) → SwFlowActions → Except Int SwFlowActions}
    (hcopy : Copies key { st with mac_proto := ovsKeyMacProto key } copy)
    (h : validateAndCopySample env copy sfa data last = .ok sfa') :
    ∃ probability exec actions, sfa'.actions = sfa.actions ++ [.sample probability exec actions] ∧
      Copied key st data.length last (.sample probability exec actions) st := by
  obtain ⟨attrs, -, h⟩ := bind_eq_ok.mp h
  have hrem := nlaForEach_rem data.length data
  split_ifs at h with hzero
  rw [not_not] at hzero
  split at h
  case h_2 => cases h
  case h_1 probability actions _ _ =>
    split_ifs at h with hprobability hactions
    obtain ⟨start, -, h⟩ := bind_eq_ok.mp h
    obtain ⟨start', -, h⟩ := bind_eq_ok.mp h
    obtain ⟨nested, hnested, h⟩ := bind_eq_ok.mp h
    obtain rfl := Except.ok.inj h
    obtain ⟨acts, hacts, hvalidated, htypes⟩ := hcopy _ _ _ hnested
    rw [List.nil_append] at hacts
    subst hacts
    refine ⟨_, _, _, rfl, .sample ?_ ?_ hvalidated⟩
    · omega
    · rw [htypes]

theorem copied_of_some {a : Action} {st₁ : CopyState} {action : Option Action}
    (h : (.ok (st₁, some a, sfa) : Except Int (CopyState × Option Action × SwFlowActions)) =
      .ok (st', action, sfa')) (hchecked : Checked key st a st₁) :
    ∃ b, sfa'.actions ++ action.toList = sfa.actions ++ [b] ∧ Copied key st data.length last b st' ∧
      actionsMayChangeFlow [b] = actionsMayChangeFlow [a] := by
  obtain ⟨rfl, rfl, rfl⟩ : st₁ = st' ∧ some a = action ∧ sfa = sfa' := by simpa using h
  exact ⟨a, rfl, .plain hchecked, rfl⟩

/-- One attribute. -/
theorem copyActionsSwitch_copied
    {copy : CopyState → List (BitVec 8) → SwFlowActions → Except Int SwFlowActions}
    (hcopy : ∀ st, Copies key st (copy st)) {attr : OvsActionAttr} {action : Option Action}
    (h : copyActionsSwitch env key copy st sfa data last attr = .ok (st', action, sfa')) :
    ∃ a, sfa'.actions ++ action.toList = sfa.actions ++ [a] ∧ Copied key st data.length last a st' ∧
      actionsMayChangeFlow [a] = attr.mayChangeFlow := by
  cases attr with
  | unspec => cases h
  | output =>
      dsimp only [copyActionsSwitch] at h
      split_ifs at h with hport
      exact copied_of_some h (.output (Nat.lt_of_not_le hport))
  | userspace =>
      obtain ⟨_, -, h⟩ := bind_eq_ok.mp h
      exact copied_of_some h .userspace
  | trunc =>
      dsimp only [copyActionsSwitch] at h
      split_ifs at h with hlen
      exact copied_of_some h (.trunc (Nat.le_of_not_lt hlen))
  | hash =>
      dsimp only [copyActionsSwitch] at h
      split_ifs at h
      exact copied_of_some h .hash
  | recirc =>
      exact copied_of_some h .recirc
  | popVlan =>
      dsimp only [copyActionsSwitch] at h
      split_ifs at h with hmac
      exact copied_of_some h (.popVlan (not_not.mp hmac))
  | pushVlan =>
      dsimp only [copyActionsSwitch] at h
      split_ifs at h with hmac htpid htci
      rw [Bool.not_eq_true, Bool.not_eq_false'] at htpid
      exact copied_of_some h (.pushVlan (not_not.mp hmac) htpid htci)
  | pushMpls =>
      dsimp only [copyActionsSwitch] at h
      split_ifs at h with hmpls hbelow
      rw [Bool.not_eq_true, Bool.not_eq_false'] at hmpls
      obtain ⟨htci, htype⟩ := not_or.mp hbelow
      exact copied_of_some h (.pushMpls hmpls (not_not.mp htci) (by tauto))
  | popMpls =>
      dsimp only [copyActionsSwitch] at h
      split_ifs at h with hbelow
      obtain ⟨htci, hmpls⟩ := not_or.mp hbelow
      exact copied_of_some h (.popMpls (not_not.mp hmpls) (not_not.mp htci))
  | pushEth =>
      dsimp only [copyActionsSwitch] at h
      split_ifs at h with hmac
      exact copied_of_some h (.pushEth (not_not.mp hmac))
  | popEth =>
      dsimp only [copyActionsSwitch] at h
      split_ifs at h with hmac htci
      exact copied_of_some h (.popEth (not_not.mp hmac) (not_not.mp htci))
  -- `validate_set` copies the action itself or leaves that to the caller
  | set | setMasked =>
      obtain ⟨⟨a, sfa₁⟩, hset, h⟩ := bind_eq_ok.mp h
      obtain ⟨rfl, rfl, rfl⟩ : st = st' ∧ a = action ∧ sfa₁ = sfa' := by simpa using h
      obtain ⟨_, happend, hchecked, ⟨_, rfl⟩ | ⟨_, rfl⟩⟩ := validateSet_copied hset
      · exact ⟨_, happend, .plain hchecked, rfl⟩
      · exact ⟨_, happend, .plain hchecked, rfl⟩
  | ct =>
      obtain ⟨ct_info, -, h⟩ := bind_eq_ok.mp h
      obtain ⟨sfa₁, hadd, h⟩ := bind_eq_ok.mp h
      obtain ⟨rfl, rfl, rfl⟩ : st = st' ∧ none = action ∧ sfa₁ = sfa' := by simpa using h
      exact ⟨_, by simpa using addAction_actions hadd, .plain .ct, rfl⟩
  -- the nested list is copied by `validate_and_copy_sample`
  | sample =>
      obtain ⟨sfa₁, hsample, h⟩ := bind_eq_ok.mp h
      obtain ⟨rfl, rfl, rfl⟩ : st = st' ∧ none = action ∧ sfa₁ = sfa' := by simpa using h
      obtain ⟨probability, exec, actions, happend, hcopied⟩ :=
        validateAndCopySample_copied (hcopy _) hsample
      exact ⟨_, by simpa using happend, hcopied, rfl⟩

theorem attrsMayChangeFlow_cons {type : Nat} {attr : OvsActionAttr} {types : List Nat}
    (h : ovsActionAttrs[type]? = some attr) :
    attrsMayChangeFlow (type :: types) = (attr.mayChangeFlow || attrsMayChangeFlow types) := by
  rw [attrsMayChangeFlow, List.any_cons, h]
  cases attr <;> rfl

theorem actionsMayChangeFlow_cons (a : Action) (actions : List Action) :
    actionsMayChangeFlow (a :: actions) = (actionsMayChangeFlow [a] || actionsMayChangeFlow actions) := by
  simp only [actionsMayChangeFlow, List.any_cons, List.any_nil, Bool.or_false]

/-- The loop, with any bound on the number of attributes that is large enough. -/
theorem copyActionsLoop_copied (fuel : Nat) : ∀ {st l sfa sfa'},
    copyActionsLoop env key fuel st l sfa = .ok sfa' → ∀ n, l.length ≤ n →
      ∃ actions, sfa'.actions = sfa.actions ++ actions ∧ Validated key st actions ∧
        attrsMayChangeFlow ((nlaForEach n l).1.map Nlattr.type) = actionsMayChangeFlow actions ∧
        (actions = [] ↔ l = []) := by
  induction fuel with
  | zero =>
      intro st l sfa sfa' h n _
      rw [copyActionsLoop] at h
      split_ifs at h with hnil
      obtain rfl := Except.ok.inj h
      subst hnil
      exact ⟨[], (List.append_nil _).symm, .nil, by rw [nlaForEach_nil]; rfl, iff_of_true rfl rfl⟩
  | succ fuel ih =>
      intro st l sfa sfa' h n hn
      rw [copyActionsLoop] at h
      cases hok : nlaOk l with
      | none =>
          simp only [hok] at h
          split_ifs at h with hnil
          obtain rfl := Except.ok.inj h
          subst hnil
          exact ⟨[], (List.append_nil _).symm, .nil, by rw [nlaForEach_nil]; rfl, iff_of_true rfl rfl⟩
      | some nla_len =>
          obtain ⟨hhdr, hle⟩ := nlaOk_bounds hok
          cases hattr : ovsActionAttrs[nlaType l]? with
          | none => simp [hok, hattr] at h
          | some attr =>
              simp only [hok, hattr] at h
              split_ifs at h with hlens
              obtain ⟨⟨st₁, action, sfa₁⟩, hswitch, h⟩ := bind_eq_ok.mp h
              obtain ⟨a, happend, hcopied, hchange⟩ := copyActionsSwitch_copied
                (fun st l sfa sfa' hcopy =>
                  let ⟨actions, happend, hvalidated, htypes, _⟩ := ih hcopy l.length le_rfl
                  ⟨actions, happend, hvalidated, htypes⟩) hswitch
              obtain ⟨sfa₂, hcopy, h⟩ : ∃ sfa₂ : SwFlowActions, sfa₂.actions = sfa.actions ++ [a] ∧
                  copyActionsLoop env key fuel st₁ (l.drop (nlaAlign nla_len)) sfa₂ = .ok sfa' := by
                cases action with
                | none => exact ⟨sfa₁, by simpa using happend, h⟩
                | some b =>
                    obtain ⟨sfa₂, hadd, h⟩ := bind_eq_ok.mp h
                    exact ⟨sfa₂, by rw [addAction_actions hadd, ← happend]; rfl, h⟩
              have hdata : ((l.take nla_len).drop nlaHdrlen).length = nla_len - nlaHdrlen := by
                rw [List.length_drop, List.length_take, Nat.min_eq_left hle]
              obtain ⟨k, rfl⟩ : ∃ k, n = k + 1 := ⟨n - 1, by unfold nlaHdrlen at hhdr; omega⟩
              have hrest : (l.drop (nlaAlign nla_len)).length ≤ k := by
                have halign := le_nlaAlign nla_len
                rw [List.length_drop]
                unfold nlaHdrlen at hhdr
                omega
              obtain ⟨actions, happends, hvalidated, htypes, hnil⟩ := ih h k hrest
              have hempty : actions = [] ↔ l.length ≤ nlaAlign nla_len := hnil.trans List.drop_eq_nil_iff
              refine ⟨a :: actions, ?_, ?_, ?_, ?_⟩
              · rw [happends, hcopy, List.append_assoc, List.singleton_append]
              · cases hcopied with
                | plain hchecked => exact .cons hchecked hvalidated
                | sample hlen hexec hactions =>
                    refine .sample ?_ hactions hvalidated
                    -- the attribute ends on a word, so nothing but a list of actions can follow it
                    have hlast : (nla_len == l.length) = actions.isEmpty := by
                      rw [hdata] at hlen
                      rw [Bool.eq_iff_iff, beq_iff_eq, List.isEmpty_iff, hempty]
                      unfold nlaAlign
                      unfold nlaHdrlen at hhdr hlen
                      omega
                    rw [hexec, hlast]
              · rw [actionsMayChangeFlow_cons, hchange, ← htypes]
                rw [nlaForEach_cons hok]
                exact attrsMayChangeFlow_cons hattr
              · refine iff_of_false (List.cons_ne_nil _ _) ?_
                rintro rfl
                cases hok

/-- **Every list that is copied is validated**, from the values of the key on. -/
theorem validated_of_copy {attr : List (BitVec 8)} {actions : List Action}
    (h : ovsNlaCopyActions env attr key = .ok actions) : Validated key (copyStateOf key) actions := by
  unfold ovsNlaCopyActions at h
  split_ifs at h
  obtain ⟨sfa, hloop, h⟩ := bind_eq_ok.mp h
  obtain rfl := Except.ok.inj h
  obtain ⟨actions, happend, hvalidated, -, -⟩ :=
    copyActionsLoop_copied attr.length hloop attr.length le_rfl
  rw [happend, List.nil_append]
  exact hvalidated

end OvsDatapath.Actions
