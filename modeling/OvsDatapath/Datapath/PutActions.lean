import OvsDatapath.Actions.CopyActions
import OvsDatapath.Datapath.Upcall

/-!
# Writing actions back

`ovs_nla_put_actions` (`flow_netlink.c`) writes the actions of a flow as attributes again. Most of them
are copied. A SET that has been given a mask loses it, a tunnel is written from its destination, and a
CT action from the `struct ovs_conntrack_info` that it has been parsed into (`conntrack.c`), where what
has not been asked for has the values that it has got.

The list is the tree that the nested attributes make up. `actionsSize` is the room that it takes when
it is written, which need not be the room that it took in the request.
-/

namespace OvsDatapath.Datapath

open OvsDatapath.Flow OvsDatapath.Actions

/-! ## Stored actions -/

/-- `NFPROTO_IPV4` and `NFPROTO_IPV6`; no other family gets a CT action. -/
inductive NfProto where
  | ipv4
  | ipv6
  deriving DecidableEq, Repr

/-- The length of an address. -/
def NfProto.addrLen : NfProto → Nat
  | .ipv4 => 4
  | .ipv6 => 16

/-- `struct nf_nat_range`. -/
structure NfNatRange where
  flags : BitVec 32
  min_addr : Nat → BitVec 8
  max_addr : Nat → BitVec 8
  min_proto : BitVec 16
  max_proto : BitVec 16

/-- `struct ovs_conntrack_info`, without the template. -/
structure OvsConntrackInfo where
  /-- `helper->name`. -/
  helper : Option (List (BitVec 8))
  zone : BitVec 16
  commit : Bool
  nat : BitVec 3
  random_fully_compat : Bool
  force : Bool
  have_eventmask : Bool
  family : NfProto
  eventmask : BitVec 32
  mark_value : BitVec 32
  mark_mask : BitVec 32
  labels_value : Nat → BitVec 8
  labels_mask : Nat → BitVec 8
  range : NfNatRange

/-- An action as it is stored. `attr` is one that is written as it is. -/
inductive StoredAction where
  | attr (type : Nat) (data : List (BitVec 8))
  | setTunnel (tun_info : IpTunnelInfo)
  /-- `OVS_ACTION_ATTR_SET_TO_MASKED`: the data are the key and the mask. -/
  | setToMasked (ovs_key : Nlattr)
  | sample (probability : BitVec 32) (exec : Bool) (actions : List StoredAction)
  | ct (info : OvsConntrackInfo)

/-- What is configured, and which tails of the message are aligned. -/
structure ReplyEnv where
  /-- `ovs_ct_verify`. -/
  ct_config : OvsKeyAttr → Bool
  nf_conntrack_zones : Bool
  nf_conntrack_mark : Bool
  nf_conntrack_labels : Bool
  nf_nat_needed : Bool
  nf_nat_ipv4 : Bool
  nf_nat_ipv6 : Bool
  /-- Whether there is `NF_NAT_RANGE_PROTO_RANDOM_FULLY`. -/
  nat_random_fully : Bool
  /-- `CONFIG_HAVE_EFFICIENT_UNALIGNED_ACCESS`. -/
  efficient : Bool
  /-- `nla_need_padding_for_64bit`, behind a number of bytes. -/
  pad : Nat → Bool
  pad_le : ∀ off, pad off = true → efficient = false

/-- The part of it that a key is written with, whose tunnel id is at an offset. -/
def ReplyEnv.upcall (env : ReplyEnv) (off : Nat) : UpcallEnv :=
  ⟨env.ct_config, env.efficient, env.pad off, false, env.pad_le off, nofun⟩

/-! ## Attributes -/

/-- `enum ovs_ct_attr`. -/
inductive OvsCtAttr where
  | unspec
  | commit
  | zone
  | mark
  | labels
  | helper
  | nat
  | forceCommit
  | eventmask
  deriving DecidableEq, Repr

/-- The attributes by their number. -/
def ovsCtAttrs : List OvsCtAttr :=
  [.unspec, .commit, .zone, .mark, .labels, .helper, .nat, .forceCommit, .eventmask]

/-- `enum ovs_nat_attr`. -/
inductive OvsNatAttr where
  | unspec
  | src
  | dst
  | ipMin
  | ipMax
  | protoMin
  | protoMax
  | persistent
  | protoHash
  | protoRandom
  deriving DecidableEq, Repr

@[inherit_doc ovsCtAttrs]
def ovsNatAttrs : List OvsNatAttr :=
  [.unspec, .src, .dst, .ipMin, .ipMax, .protoMin, .protoMax, .persistent, .protoHash, .protoRandom]

/-- An attribute of a CT action. -/
def ctAttr (attr : OvsCtAttr) (data : List (BitVec 8)) : Nlattr := ⟨ovsCtAttrs.idxOf attr, data⟩

/-- An attribute of a NAT. -/
def natAttr (attr : OvsNatAttr) (data : List (BitVec 8)) : Nlattr := ⟨ovsNatAttrs.idxOf attr, data⟩

/-- An action. -/
def actionAttr (attr : OvsActionAttr) (data : List (BitVec 8)) : Nlattr := ⟨ovsActionAttrs.idxOf attr, data⟩

/-- `OVS_CT_SRC_NAT`. -/
def ovsCtSrcNat : BitVec 3 := 2

/-- `OVS_CT_DST_NAT`. -/
def ovsCtDstNat : BitVec 3 := 4

/-- `NF_NAT_RANGE_MAP_IPS`. -/
def nfNatRangeMapIps : BitVec 32 := 1

/-- `NF_NAT_RANGE_PROTO_SPECIFIED`. -/
def nfNatRangeProtoSpecified : BitVec 32 := 2

/-- `NF_NAT_RANGE_PROTO_RANDOM`. -/
def nfNatRangeProtoRandom : BitVec 32 := 4

/-- `NF_NAT_RANGE_PERSISTENT`. -/
def nfNatRangePersistent : BitVec 32 := 8

/-- `NF_NAT_RANGE_PROTO_RANDOM_FULLY`. -/
def nfNatRangeProtoRandomFully : BitVec 32 := 16

/-! ## CT -/

/-- Whether a NAT is for one end of new connections, and for which. -/
def OvsConntrackInfo.natEnd (info : OvsConntrackInfo) : Option OvsNatAttr :=
  if info.nat &&& ovsCtSrcNat ≠ 0 then some .src
  else if info.nat &&& ovsCtDstNat ≠ 0 then some .dst
  else none

/-- Whether addresses of a family can be translated. -/
def ReplyEnv.natFamily (env : ReplyEnv) : NfProto → Bool
  | .ipv4 => env.nf_nat_ipv4
  | .ipv6 => env.nf_nat_ipv6

/-- The lowest and the highest address of a range. -/
def OvsConntrackInfo.minAddr (info : OvsConntrackInfo) : List (BitVec 8) :=
  firstBytes info.family.addrLen info.range.min_addr

@[inherit_doc OvsConntrackInfo.minAddr]
def OvsConntrackInfo.maxAddr (info : OvsConntrackInfo) : List (BitVec 8) :=
  firstBytes info.family.addrLen info.range.max_addr

/-- The addresses of a NAT. Those of a family that is not configured are an error. -/
def natAddrsToAttr (env : ReplyEnv) (info : OvsConntrackInfo) : Option (List Nlattr) :=
  if info.range.flags &&& nfNatRangeMapIps = 0 then some []
  else if !env.natFamily info.family then none
  else
    some (natAttr .ipMin info.minAddr ::
      if info.maxAddr ≠ info.minAddr then [natAttr .ipMax info.maxAddr] else [])

/-- The ports of a NAT. -/
def natProtosToAttr (range : NfNatRange) : List Nlattr :=
  if range.flags &&& nfNatRangeProtoSpecified ≠ 0 then
    natAttr .protoMin (le16 range.min_proto) ::
      if range.max_proto ≠ range.min_proto then [natAttr .protoMax (le16 range.max_proto)] else []
  else []

/-- The flags of a NAT. -/
def natFlagsToAttr (env : ReplyEnv) (info : OvsConntrackInfo) : List Nlattr :=
  (if info.range.flags &&& nfNatRangePersistent ≠ 0 then [natAttr .persistent []] else []) ++
  (if info.range.flags &&& nfNatRangeProtoRandom ≠ 0 then
    [natAttr (if info.random_fully_compat then .protoRandom else .protoHash) []] else []) ++
  (if env.nat_random_fully ∧ info.range.flags &&& nfNatRangeProtoRandomFully ≠ 0 then
    [natAttr .protoRandom []] else [])

/-- `ovs_ct_nat_to_attr`. -/
def ovsCtNatToAttr (env : ReplyEnv) (info : OvsConntrackInfo) : Option (List Nlattr) :=
  match info.natEnd with
  | none => some []
  | some nat_end => do
      let addrs ← natAddrsToAttr env info
      some (natAttr nat_end [] :: addrs ++ natProtosToAttr info.range ++ natFlagsToAttr env info)

/-- `labels_nonzero`. -/
def labelsNonzero (labels : Nat → BitVec 8) : Bool := (firstBytes 16 labels).any (· != 0)

/-- The attributes of a CT action before its NAT. -/
def ctAttrs (env : ReplyEnv) (info : OvsConntrackInfo) : List Nlattr :=
  (if info.commit then [ctAttr (if info.force then .forceCommit else .commit) []] else []) ++
  (if env.nf_conntrack_zones then [ctAttr .zone (le16 info.zone)] else []) ++
  (if env.nf_conntrack_mark ∧ info.mark_mask ≠ 0 then
    [ctAttr .mark (le32 info.mark_value ++ le32 info.mark_mask)] else []) ++
  (if env.nf_conntrack_labels ∧ labelsNonzero info.labels_mask then
    [ctAttr .labels (firstBytes 16 info.labels_value ++ firstBytes 16 info.labels_mask)] else []) ++
  (match info.helper with
    | some name => [ctAttr .helper (name ++ [0])]
    | none => []) ++
  (if info.have_eventmask then [ctAttr .eventmask (le32 info.eventmask)] else [])

/-- `ovs_ct_action_to_attr`: what is in the attribute, if it can be written. -/
def ovsCtActionToAttr (env : ReplyEnv) (info : OvsConntrackInfo) : Option (List Nlattr) :=
  if env.nf_nat_needed ∧ info.nat ≠ 0 then do
    let nat ← ovsCtNatToAttr env info
    some (ctAttrs env info ++ [ctAttr .nat (nlaStream nat)])
  else some (ctAttrs env info)

/-! ## The list -/

mutual

/-- The switch of `ovs_nla_put_actions`, for an action at an offset. -/
def putAction (env : ReplyEnv) (off : Nat) : StoredAction → Option Nlattr
  | .attr type data => some ⟨type, data⟩
  | .setTunnel tun_info =>
      -- `set_action_to_attr`; the tunnel id is behind two headers
      some (actionAttr .set (nlaStream
        [keyAttr .tunnel (nlaStream (ovsNlaPutTunnelInfo (env.pad (off + 8)) tun_info))]))
  | .setToMasked ovs_key =>
      -- `masked_set_action_to_set_action_attr`
      some (actionAttr .set (nlaStream
        [⟨ovs_key.type, ovs_key.data.take (ovs_key.data.length / 2)⟩]))
  | .sample probability _ actions => do
      -- `sample_action_to_attr`
      let nested ← ovsNlaPutActions env (off + 16) actions
      some (actionAttr .sample (nlaStream
        [⟨ovsSampleAttrProbability, le32 probability⟩, ⟨ovsSampleAttrActions, nlaStream nested⟩]))
  | .ct info => do
      let attrs ← ovsCtActionToAttr env info
      some (actionAttr .ct (nlaStream attrs))

/-- `ovs_nla_put_actions`, from an offset on: the attributes, if they can be written at all. -/
def ovsNlaPutActions (env : ReplyEnv) (off : Nat) : List StoredAction → Option (List Nlattr)
  | [] => some []
  | a :: rest => do
      let attr ← putAction env off a
      let attrs ← ovsNlaPutActions env (off + nlaTotalSize attr.data.length) rest
      some (attr :: attrs)

end

/-! ## The room -/

/-- The room of an attribute that there may be. -/
def optSize (present : Prop) [Decidable present] (n : Nat) : Nat := if present then nlaTotalSize n else 0

/-- The room of a tunnel whose id is at an offset. -/
def tunnelSize (env : ReplyEnv) (off : Nat) (tun_info : IpTunnelInfo) : Nat :=
  ovsTunKeyAttrSize (env.upcall off) -
    spareTunnel (env.upcall off) (env.pad off)
      (SwFlowKey.store (fun _ => 0) [⟨256, firstBytes 56 tun_info.key⟩]) tun_info.options_len.toNat tun_info.af

/-- The room of the attributes of a NAT. -/
def natSize (env : ReplyEnv) (info : OvsConntrackInfo) : Nat :=
  if info.natEnd = none then 0
  else
    nlaTotalSize 0 +
    (if info.range.flags &&& nfNatRangeMapIps = 0 then 0
      else nlaTotalSize info.family.addrLen + optSize (info.maxAddr ≠ info.minAddr) info.family.addrLen) +
    (if info.range.flags &&& nfNatRangeProtoSpecified ≠ 0 then
        nlaTotalSize 2 + optSize (info.range.max_proto ≠ info.range.min_proto) 2
      else 0) +
    optSize (info.range.flags &&& nfNatRangePersistent ≠ 0) 0 +
    optSize (info.range.flags &&& nfNatRangeProtoRandom ≠ 0) 0 +
    optSize (env.nat_random_fully ∧ info.range.flags &&& nfNatRangeProtoRandomFully ≠ 0) 0

/-- The room of the attributes of a CT action. The zone is there also where none has been asked for. -/
def ctSize (env : ReplyEnv) (info : OvsConntrackInfo) : Nat :=
  optSize info.commit 0 + optSize env.nf_conntrack_zones 2 +
  optSize (env.nf_conntrack_mark ∧ info.mark_mask ≠ 0) 8 +
  optSize (env.nf_conntrack_labels ∧ labelsNonzero info.labels_mask) 32 +
  (match info.helper with
    | some name => nlaTotalSize (name.length + 1)
    | none => 0) +
  optSize info.have_eventmask 4 +
  (if env.nf_nat_needed ∧ info.nat ≠ 0 then nlaTotalSize (natSize env info) else 0)

/-- Whether a CT action can be written: the addresses of its NAT are of a family that is configured. -/
def ctWritable (env : ReplyEnv) (info : OvsConntrackInfo) : Bool :=
  !env.nf_nat_needed || info.nat == 0 || info.natEnd.isNone ||
    info.range.flags &&& nfNatRangeMapIps == 0 || env.natFamily info.family

mutual

/-- The room of an action at an offset. -/
def actionSize (env : ReplyEnv) (off : Nat) : StoredAction → Nat
  | .attr _ data => nlaTotalSize data.length
  | .setTunnel tun_info => nlaTotalSize (nlaTotalSize (tunnelSize env (off + 8) tun_info))
  | .setToMasked ovs_key => nlaTotalSize (nlaTotalSize (ovs_key.data.length / 2))
  | .sample _ _ actions =>
      nlaTotalSize (nlaTotalSize 4 + nlaTotalSize (actionsSize env (off + 16) actions))
  | .ct info => nlaTotalSize (ctSize env info)

/-- The room of a list of actions, from an offset on. -/
def actionsSize (env : ReplyEnv) (off : Nat) : List StoredAction → Nat
  | [] => 0
  | a :: rest => actionSize env off a + actionsSize env (off + actionSize env off a) rest

end

mutual

/-- Whether an action can be written. -/
def actionWritable (env : ReplyEnv) : StoredAction → Bool
  | .sample _ _ actions => actionsWritable env actions
  | .ct info => ctWritable env info
  | _ => true

/-- Whether all the actions of a list can be written. -/
def actionsWritable (env : ReplyEnv) : List StoredAction → Bool
  | [] => true
  | a :: rest => actionWritable env a && actionsWritable env rest

end

section

variable {env : ReplyEnv}

theorem attrsSize_opt {present : Prop} [Decidable present] {a : Nlattr} {n : Nat} (h : a.data.length = n) :
    attrsSize (if present then [a] else []) = optSize present n := by
  unfold optSize
  split_ifs
  · rw [attrsSize_cons, attrsSize_nil, h]
    rfl
  · rfl

theorem attrsSize_tunnel (off : Nat) (tun_info : IpTunnelInfo) :
    attrsSize (ovsNlaPutTunnelInfo (env.pad off) tun_info) = tunnelSize env off tun_info := by
  have hlen : (firstBytes tun_info.options_len.toNat tun_info.options).length =
    tun_info.options_len.toNat := firstBytes_length ..
  have htunnel := @tunnel_spare (env.upcall off) _ (env.pad_le off)
    (SwFlowKey.store (fun _ => 0) [⟨256, firstBytes 56 tun_info.key⟩]) _
    (hlen.trans_le (Nat.le_of_lt_succ tun_info.options_len.isLt)) tun_info.af
  rw [hlen] at htunnel
  unfold tunnelSize ovsNlaPutTunnelInfo
  omega

theorem attrsSize_natProtos (range : NfNatRange) : attrsSize (natProtosToAttr range) =
    if range.flags &&& nfNatRangeProtoSpecified ≠ 0 then
      nlaTotalSize 2 + optSize (range.max_proto ≠ range.min_proto) 2
    else 0 := by
  have hmax : attrsSize (if range.max_proto ≠ range.min_proto then
      [natAttr .protoMax (le16 range.max_proto)] else []) =
      optSize (range.max_proto ≠ range.min_proto) 2 := attrsSize_opt rfl
  unfold natProtosToAttr
  by_cases hspecified : range.flags &&& nfNatRangeProtoSpecified ≠ 0
  · rw [if_pos hspecified, if_pos hspecified, attrsSize_cons, hmax]
    rfl
  · rw [if_neg hspecified, if_neg hspecified]
    rfl

theorem attrsSize_natFlags (env : ReplyEnv) (info : OvsConntrackInfo) : attrsSize (natFlagsToAttr env info) =
    optSize (info.range.flags &&& nfNatRangePersistent ≠ 0) 0 +
      optSize (info.range.flags &&& nfNatRangeProtoRandom ≠ 0) 0 +
      optSize (env.nat_random_fully ∧ info.range.flags &&& nfNatRangeProtoRandomFully ≠ 0) 0 := by
  have hopt : ∀ (present : Prop) [Decidable present] (attr : OvsNatAttr),
      attrsSize (if present then [natAttr attr []] else []) = optSize present 0 :=
    fun _ _ _ => attrsSize_opt rfl
  simp only [natFlagsToAttr, attrsSize_append, hopt]

/-- The addresses take the room of those that there are, if they can be written. -/
theorem natAddrsToAttr_size (env : ReplyEnv) (info : OvsConntrackInfo) :
    (natAddrsToAttr env info).map attrsSize =
      if info.range.flags &&& nfNatRangeMapIps = 0 then some 0
      else if env.natFamily info.family then
        some (nlaTotalSize info.family.addrLen + optSize (info.maxAddr ≠ info.minAddr) info.family.addrLen)
      else none := by
  have hmin : info.minAddr.length = info.family.addrLen := firstBytes_length ..
  have hmax : attrsSize (if info.maxAddr ≠ info.minAddr then [natAttr .ipMax info.maxAddr] else []) =
      optSize (info.maxAddr ≠ info.minAddr) info.family.addrLen := attrsSize_opt (firstBytes_length ..)
  unfold natAddrsToAttr
  by_cases hips : info.range.flags &&& nfNatRangeMapIps = 0
  · rw [if_pos hips, if_pos hips]
    rfl
  · rw [if_neg hips, if_neg hips]
    cases env.natFamily info.family with
    | false => rfl
    | true =>
        show some (attrsSize (natAttr .ipMin info.minAddr :: _)) = _
        rw [attrsSize_cons, hmax]
        show some (nlaTotalSize info.minAddr.length + _) = _
        rw [hmin]
        rfl

theorem ovsCtNatToAttr_size (env : ReplyEnv) (info : OvsConntrackInfo) :
    (ovsCtNatToAttr env info).map attrsSize =
      if info.natEnd.isNone || info.range.flags &&& nfNatRangeMapIps == 0 || env.natFamily info.family then
        some (natSize env info)
      else none := by
  have haddrs := natAddrsToAttr_size env info
  have hput : ∀ nat_end, info.natEnd = some nat_end → (ovsCtNatToAttr env info).map attrsSize =
      ((natAddrsToAttr env info).map attrsSize).map fun addrs => nlaTotalSize 0 + addrs +
        attrsSize (natProtosToAttr info.range) + attrsSize (natFlagsToAttr env info) := by
    intro nat_end hend
    unfold ovsCtNatToAttr
    rw [hend]
    cases natAddrsToAttr env info with
    | none => rfl
    | some addrs =>
        show some (attrsSize (natAttr nat_end [] :: addrs ++ _ ++ _)) = _
        rw [attrsSize_append, attrsSize_append, attrsSize_cons]
        rfl
  cases hend : info.natEnd with
  | none =>
      unfold ovsCtNatToAttr natSize
      rw [hend]
      rfl
  | some nat_end =>
      rw [hput nat_end hend, haddrs, attrsSize_natProtos, attrsSize_natFlags]
      unfold natSize
      rw [if_neg (show info.natEnd ≠ none by simp [hend])]
      by_cases hips : info.range.flags &&& nfNatRangeMapIps = 0
      · have hwritable : ((some nat_end).isNone || info.range.flags &&& nfNatRangeMapIps == 0 ||
            env.natFamily info.family) = true := by simp [hips]
        rw [if_pos hips, if_pos hips, if_pos hwritable, Option.map_some]
        simp only [Nat.add_assoc]
      · rw [if_neg hips, if_neg hips]
        cases env.natFamily info.family with
        | false => simpa using hips
        | true => simp [Nat.add_assoc]

theorem attrsSize_ctAttrs (env : ReplyEnv) (info : OvsConntrackInfo) : attrsSize (ctAttrs env info) =
    optSize info.commit 0 + optSize env.nf_conntrack_zones 2 +
      optSize (env.nf_conntrack_mark ∧ info.mark_mask ≠ 0) 8 +
      optSize (env.nf_conntrack_labels ∧ labelsNonzero info.labels_mask) 32 +
      (match info.helper with
        | some name => nlaTotalSize (name.length + 1)
        | none => 0) +
      optSize info.have_eventmask 4 := by
  have hopt : ∀ (present : Prop) [Decidable present] (attr : OvsCtAttr) (data : List (BitVec 8)),
      attrsSize (if present then [ctAttr attr data] else []) = optSize present data.length :=
    fun _ _ _ _ => attrsSize_opt rfl
  have hhelper : attrsSize (match info.helper with
      | some name => [ctAttr .helper (name ++ [0])]
      | none => []) = (match info.helper with
      | some name => nlaTotalSize (name.length + 1)
      | none => 0) := by
    cases info.helper with
    | none => rfl
    | some name =>
        show attrsSize [ctAttr .helper (name ++ [0])] = _
        rw [attrsSize_cons, attrsSize_nil]
        show nlaTotalSize (name ++ [0]).length + 0 = _
        rw [List.length_append]
        rfl
  simp only [ctAttrs, attrsSize_append, hopt, hhelper, List.length_append, firstBytes_length]
  rfl

theorem ovsCtActionToAttr_size (env : ReplyEnv) (info : OvsConntrackInfo) :
    (ovsCtActionToAttr env info).map attrsSize =
      if ctWritable env info then some (ctSize env info) else none := by
  have hnat := ovsCtNatToAttr_size env info
  have hattrs := attrsSize_ctAttrs env info
  unfold ovsCtActionToAttr ctWritable ctSize
  by_cases hneeded : env.nf_nat_needed ∧ info.nat ≠ 0
  · rw [if_pos hneeded, if_pos hneeded, ← hattrs]
    have hmap : (do
        let nat ← ovsCtNatToAttr env info
        some (ctAttrs env info ++ [ctAttr .nat (nlaStream nat)])).map attrsSize =
        ((ovsCtNatToAttr env info).map attrsSize).map fun nat =>
          attrsSize (ctAttrs env info) + nlaTotalSize nat := by
      cases ovsCtNatToAttr env info with
      | none => rfl
      | some nat =>
          show some (attrsSize (_ ++ _)) = _
          rw [attrsSize_append, attrsSize_cons, attrsSize_nil]
          show some (_ + (nlaTotalSize (nlaStream nat).length + 0)) = _
          rw [nlaStream_length]
          rfl
    rw [hmap, hnat]
    have hskip : (!env.nf_nat_needed || info.nat == 0) = false := by simpa using hneeded
    rw [hskip, Bool.false_or]
    split_ifs
    · rfl
    · rfl
  · rw [if_neg hneeded, if_neg hneeded, Option.map_some, hattrs, if_pos]
    · rfl
    · have hskip : (!env.nf_nat_needed || info.nat == 0) = true := by
        rw [Bool.or_eq_true, Bool.not_eq_true', beq_iff_eq]
        grind
      rw [hskip]
      rfl

/-- A result that there is under a condition only. -/
theorem map_eq_ite {α : Type} {x : Option α} {f : α → Nat} {writable : Bool} {room : Nat}
    (h : x.map f = if writable then some room else none) :
    (x = none ∧ writable = false) ∨ ∃ y, x = some y ∧ writable = true ∧ f y = room := by
  cases x with
  | none => cases writable <;> simp_all
  | some y => cases writable <;> simp_all

mutual

/-- An action takes the room that has been computed, if it can be written. -/
theorem putAction_size (off : Nat) : ∀ a : StoredAction,
    ((putAction env off a).map fun attr => nlaTotalSize attr.data.length) =
      if actionWritable env a then some (actionSize env off a) else none
  | .attr type data => rfl
  | .setTunnel tun_info => by
      simp only [putAction, Option.map_some, actionWritable, actionSize, if_true, actionAttr,
        nlaStream_length, attrsSize_cons, attrsSize_nil, keyAttr_data, attrsSize_tunnel, Nat.add_zero]
  | .setToMasked ovs_key => by
      have hhalf : (ovs_key.data.take (ovs_key.data.length / 2)).length = ovs_key.data.length / 2 := by
        rw [List.length_take]
        omega
      simp only [putAction, Option.map_some, actionWritable, actionSize, if_true, actionAttr,
        nlaStream_length, attrsSize_cons, attrsSize_nil, hhalf, Nat.add_zero]
  | .sample probability exec actions => by
      rw [putAction, actionWritable, actionSize]
      rcases map_eq_ite (ovsNlaPutActions_size (off + 16) actions) with
        ⟨hput, hwritable⟩ | ⟨nested, hput, hwritable, hsize⟩
      · rw [hput, hwritable]
        rfl
      · rw [hput, hwritable]
        show some (nlaTotalSize (nlaStream _).length) = some _
        rw [nlaStream_length, attrsSize_cons, attrsSize_cons, attrsSize_nil]
        show some (nlaTotalSize (nlaTotalSize 4 + (nlaTotalSize (nlaStream nested).length + 0))) = _
        rw [nlaStream_length, hsize]
        rfl
  | .ct info => by
      rw [putAction, actionWritable, actionSize]
      rcases map_eq_ite (ovsCtActionToAttr_size env info) with
        ⟨hput, hwritable⟩ | ⟨attrs, hput, hwritable, hsize⟩
      · rw [hput, hwritable]
        rfl
      · rw [hput, hwritable]
        show some (nlaTotalSize (nlaStream attrs).length) = _
        rw [nlaStream_length, hsize]
        rfl

/-- **The actions take the room that has been computed**, if they can be written. -/
theorem ovsNlaPutActions_size (off : Nat) : ∀ actions : List StoredAction,
    (ovsNlaPutActions env off actions).map attrsSize =
      if actionsWritable env actions then some (actionsSize env off actions) else none
  | [] => rfl
  | a :: rest => by
      rw [ovsNlaPutActions, actionsWritable, actionsSize]
      rcases map_eq_ite (putAction_size off a) with ⟨hput, hwritable⟩ | ⟨attr, hput, hwritable, hsize⟩
      · rw [hput, hwritable]
        rfl
      · rw [hput, hwritable, Bool.true_and]
        show (Option.bind (ovsNlaPutActions env (off + nlaTotalSize attr.data.length) rest) _).map _ = _
        rw [hsize]
        rcases map_eq_ite (ovsNlaPutActions_size (off + actionSize env off a) rest) with
          ⟨hputs, hwritables⟩ | ⟨attrs, hputs, hwritables, hsizes⟩
        · rw [hputs, hwritables]
          rfl
        · rw [hputs, hwritables]
          show some (attrsSize (attr :: attrs)) = _
          rw [attrsSize_cons, hsize, hsizes]
          rfl

end

end

end OvsDatapath.Datapath
