import OvsDatapath.Flow.PacketKind
import OvsDatapath.Flow.PutKey
import OvsDatapath.Lib.Fault

/-!
# The room of an upcall message

`queue_userspace_packet` (`datapath.c`) allocates a message with as many bytes as `upcall_msg_size`
says, and writes the key, the metadata and the packet into it. The size is a sum of what the attributes
take at most, `ovs_key_attr_size` for those of the key. Where a tag is nested in another one, the key
has three attributes more than the sum, and where the packet is not copied whole, what has been cut off
is subtracted from the head that is copied.

`Enough` compares this with what the attributes that are missing from the message leave free, and
`queueUserspacePacket_hasRoom_iff` says that the message has room then and not otherwise.
-/

namespace OvsDatapath.Datapath

open OvsDatapath.Lib OvsDatapath.Flow

/-! ## Sizes -/

/-- What is configured, and where the tail of the message is when a tunnel id is written. -/
structure UpcallEnv where
  ct_config : OvsKeyAttr → Bool
  /-- `CONFIG_HAVE_EFFICIENT_UNALIGNED_ACCESS`. -/
  efficient : Bool
  /-- `nla_need_padding_for_64bit`, in the key and in `EGRESS_TUN_KEY`. -/
  key_pad : Bool
  egress_pad : Bool
  key_pad_le : key_pad = true → efficient = false
  egress_pad_le : egress_pad = true → efficient = false

/-- `nla_total_size_64bit`, for eight bytes. -/
def nlaTotalSize64 (env : UpcallEnv) : Nat := nlaTotalSize 8 + if env.efficient then 0 else nlaTotalSize 0

/-- `ovs_tun_key_attr_size`. -/
def ovsTunKeyAttrSize (env : UpcallEnv) : Nat :=
  nlaTotalSize64 env + nlaTotalSize 16 + nlaTotalSize 16 + nlaTotalSize 1 + nlaTotalSize 1 +
    nlaTotalSize 0 + nlaTotalSize 0 + nlaTotalSize 0 + nlaTotalSize 256 + nlaTotalSize 2 + nlaTotalSize 2

/-- `ovs_key_attr_size`. -/
def ovsKeyAttrSize (env : UpcallEnv) : Nat :=
  nlaTotalSize 4 + nlaTotalSize 0 + ovsTunKeyAttrSize env + nlaTotalSize 4 + nlaTotalSize 4 +
    nlaTotalSize 4 + nlaTotalSize 4 + nlaTotalSize 4 + nlaTotalSize 2 + nlaTotalSize 4 + nlaTotalSize 16 +
    nlaTotalSize 40 + nlaTotalSize 12 + nlaTotalSize 2 + nlaTotalSize 4 + nlaTotalSize 0 +
    nlaTotalSize 2 + nlaTotalSize 40 + nlaTotalSize 2 + nlaTotalSize 28

/-- `struct dp_upcall_info`, as far as the message goes. -/
structure DpUpcallInfo where
  /-- `nla_len(userdata)`. -/
  userdata : Option Nat
  egress_tun_info : Option IpTunnelInfo
  actions_len : Nat
  /-- The bytes that `ovs_nla_put_actions` writes for the actions. -/
  actions_attr_len : Nat
  mru : BitVec 16

/-- `nla_total_size`, which takes an `int`. -/
def nlaTotalSizeInt (payload : Int) : Int := (nlaHdrlen + payload + 3) / 4 * 4

/-- `upcall_msg_size`. A negative number is that of more bytes than there are. -/
def upcallMsgSize (env : UpcallEnv) (upcall_info : DpUpcallInfo) (hdrlen : BitVec 32) : Int :=
  -- `NLMSG_ALIGN(sizeof(struct ovs_header))`
  4 + nlaTotalSizeInt hdrlen.toInt + nlaTotalSize (ovsKeyAttrSize env) + nlaTotalSize 4 +
    (match upcall_info.userdata with
      | some nla_len => nlaTotalSize nla_len
      | none => 0) +
    (if upcall_info.egress_tun_info.isSome then nlaTotalSize (ovsTunKeyAttrSize env) else 0) +
    (if upcall_info.actions_len ≠ 0 then nlaTotalSize upcall_info.actions_len else 0) +
    (if upcall_info.mru ≠ 0 then nlaTotalSize 2 else 0)

/-! ## The message -/

/-- The layout of a packet, with its VLAN tag in it: the length, the part that is linear, and what
`skb_zerocopy_headlen` looks at. -/
structure SkbLayout where
  len : Nat
  headlen : Nat
  head_frag : Bool
  /-- Whether there are as many fragments as a packet may have. -/
  max_frags : Bool
  frag_list : Bool
  headlen_le : headlen ≤ len
  /-- The head has the bytes that the key has been made of. -/
  headlen_pos : 0 < headlen

/-- `L1_CACHE_BYTES`. -/
def l1CacheBytes : Nat := 64

/-- `skb_zerocopy_headlen`. -/
def skbZerocopyHeadlen (skb : SkbLayout) : Nat :=
  if skb.frag_list then skb.len
  else if !skb.head_frag || decide (skb.headlen < l1CacheBytes) || skb.max_frags then skb.headlen
  else 0

/-- What becomes of a message that is not sent. -/
inductive UpcallError where
  /-- The packet is too large for an attribute. -/
  | efbig
  /-- The message cannot be allocated. -/
  | enomem
  /-- There is no room for an attribute, and the upcall is given up. -/
  | enobufs
  /-- There is no room, and the kernel stops: `BUG_ON`, or `skb_put` past the end. -/
  | panic
  deriving DecidableEq, Repr

/-- Put a number of bytes at the end of a message of a size. -/
def skbPut (size : Nat) (err : UpcallError) (n written : Nat) : Except UpcallError Nat :=
  if written + n ≤ size then .ok (written + n) else .error err

/-- `pad_packet`; `unaligned` is `OVS_DP_F_UNALIGNED`. -/
def padPacket (size : Nat) (unaligned : Bool) (written : Nat) : Except UpcallError Nat :=
  if unaligned then .ok written else skbPut size .panic (nlaAlign written - written) written

/-- `skb_zerocopy`: a packet for which there is room is copied, otherwise its head is. -/
def skbZerocopy (size len hlen written : Nat) : Except UpcallError Nat :=
  if written + len ≤ size then .ok (written + len) else skbPut size .panic hlen written

/-- `ovs_nla_put_tunnel_info`. -/
def ovsNlaPutTunnelInfo (pad : Bool) (tun_info : IpTunnelInfo) : List Nlattr :=
  ipTunToNlattr1 pad (SwFlowKey.store (fun _ => 0) [⟨256, firstBytes 56 tun_info.key⟩])
    (firstBytes tun_info.options_len.toNat tun_info.options) tun_info.af

/-- `OVS_PACKET_ATTR_KEY`. -/
def upcallKey (env : UpcallEnv) (key : SwFlowKey) : List (BitVec 8) :=
  ovsNlaPutKey ⟨env.ct_config, env.key_pad⟩ key key false

/-- The part of `queue_userspace_packet` that writes the message, up to the attributes that are not
taken for granted: the bytes written. -/
def putUpcallKey (env : UpcallEnv) (size : Nat) (key : SwFlowKey) (upcall_info : DpUpcallInfo) :
    Except UpcallError Nat := do
  let written ← skbPut size .panic 4 0
  let written ← skbPut size .panic (nlaTotalSize (upcallKey env key).length) written
  let written ← match upcall_info.userdata with
    | some nla_len => skbPut size .panic (nlaTotalSize nla_len) written
    | none => .ok written
  match upcall_info.egress_tun_info with
  | some tun_info =>
      skbPut size .panic (nlaTotalSize (nlaStream (ovsNlaPutTunnelInfo env.egress_pad tun_info)).length) written
  | none => .ok written

/-- `OVS_PACKET_ATTR_ACTIONS`, which is taken back if there is no room. -/
def putUpcallActions (size : Nat) (upcall_info : DpUpcallInfo) (written : Nat) : Nat :=
  if upcall_info.actions_len ≠ 0 ∧ written + nlaTotalSize upcall_info.actions_attr_len ≤ size then
    written + nlaTotalSize upcall_info.actions_attr_len
  else written

/-- `hlen` of `queue_userspace_packet`: the part of the packet that is copied in any case. -/
def copyHeadlen (unaligned : Bool) (skb : SkbLayout) : Nat :=
  if unaligned then skbZerocopyHeadlen skb else skb.len

/-- `MRU` or `LEN`, if there is one, and `pad_packet`. -/
def putPadded (size : Nat) (unaligned cond : Bool) (n written : Nat) : Except UpcallError Nat :=
  if cond then do
    let written ← skbPut size .enobufs (nlaTotalSize n) written
    padPacket size unaligned written
  else .ok written

/-- The part of `queue_userspace_packet` that writes into a message of a size: the length of it. -/
def putUpcall (env : UpcallEnv) (size : Nat) (unaligned : Bool) (skb : SkbLayout) (key : SwFlowKey)
    (upcall_info : DpUpcallInfo) (cutlen : Nat) : Except UpcallError Nat := do
  let written ← putUpcallKey env size key upcall_info
  let written := putUpcallActions size upcall_info written
  let written ← putPadded size unaligned (upcall_info.mru != 0) 2 written
  let written ← putPadded size unaligned (decide (0 < cutlen)) 4 written
  let written ← skbPut size .enobufs nlaHdrlen written
  let written ← skbZerocopy size (skb.len - cutlen) (copyHeadlen unaligned skb) written
  padPacket size unaligned written

/-- The size that the message is allocated with. -/
def upcallSize (env : UpcallEnv) (unaligned : Bool) (skb : SkbLayout) (upcall_info : DpUpcallInfo)
    (cutlen : Nat) : ℤ :=
  upcallMsgSize env upcall_info (BitVec.ofNat 32 (copyHeadlen unaligned skb) - BitVec.ofNat 32 cutlen)

/-- `queue_userspace_packet`, up to the sending. -/
def queueUserspacePacket (env : UpcallEnv) (unaligned : Bool) (skb : SkbLayout) (key : SwFlowKey)
    (upcall_info : DpUpcallInfo) (cutlen : Nat) : Except UpcallError Nat :=
  if 65535 < nlaHdrlen + skb.len then .error .efbig
  else if upcallSize env unaligned skb upcall_info cutlen < 0 then .error .enomem
  else putUpcall env (upcallSize env unaligned skb upcall_info cutlen).toNat unaligned skb key upcall_info cutlen

/-! ## What is left free -/

/-- The bytes that a line of the sum leaves free: all of them without the attribute, and otherwise
those by which the attribute that is there is shorter. -/
def spareLine (present : Prop) [Decidable present] (line used : Nat) : Nat :=
  if present then nlaTotalSize line - nlaTotalSize used else nlaTotalSize line

/-- What a tunnel leaves free of `ovs_tun_key_attr_size`. -/
def spareTunnel (env : UpcallEnv) (pad : Bool) (output : SwFlowKey) (opts_len : Nat) (tun_proto : BitVec 8) :
    Nat :=
  let tun_flags := output.be16 296
  (if tun_flags &&& 0x04 = 0 then nlaTotalSize64 env
    else if pad || env.efficient then 0 else nlaTotalSize 0) +
  (if tun_proto = afInet then
      spareLine (output.u32 264 ≠ 0) 16 4 + spareLine (output.u32 268 ≠ 0) 16 4
    else if tun_proto = afInet6 then
      spareLine (output.bytes 264 16 ≠ List.replicate 16 0) 16 16 +
        spareLine (output.bytes 280 16 ≠ List.replicate 16 0) 16 16
    else nlaTotalSize 16 + nlaTotalSize 16) +
  spareLine (output.u8 298 ≠ 0) 1 1 + spareLine (tun_flags &&& 0x0100 ≠ 0) 0 0 +
  spareLine (tun_flags &&& 0x01 ≠ 0) 0 0 + spareLine (output.u16 304 ≠ 0) 2 2 +
  spareLine (output.u16 306 ≠ 0) 2 2 + spareLine (tun_flags &&& 0x0200 ≠ 0) 0 0 +
  (if opts_len = 0 then nlaTotalSize 256
    else if tun_flags &&& 0x0800 ≠ 0 then nlaTotalSize 256 - nlaTotalSize opts_len
    else if tun_flags &&& 0x1000 ≠ 0 then nlaTotalSize 256 - nlaTotalSize (nlaTotalSize 4)
    else nlaTotalSize 256)

/-- The lines for what follows the tags: the type, IPv6, ICMPv6 and ND. -/
def untaggedLines : Nat := nlaTotalSize 2 + nlaTotalSize 40 + nlaTotalSize 2 + nlaTotalSize 28

/-- What follows the tags leaves free of its lines. -/
def spareUntagged (key : SwFlowKey) : Nat :=
  if key.ovsKeyMacProto = macProtoEthernet ∧ key.ethType = ethP8022 then untaggedLines
  else if ethTypeVlan key.ethType then untaggedLines - nlaTotalSize 2
  else
    (if key.ethType = ethPIp then nlaTotalSize 40 - nlaTotalSize 12
      else if key.ethType = ethPIpv6 then 0
      else if key.ethType = ethPArp ∨ key.ethType = ethPRarp then nlaTotalSize 40 - nlaTotalSize 24
      else spareLine (ethPMpls key.ethType) 40 4) +
    (if (key.ethType = ethPIp ∨ key.ethType = ethPIpv6) ∧ key.ipFrag ≠ ovsFragTypeLater then
        if key.ipProto = ipprotoTcp then nlaTotalSize 28 - nlaTotalSize 4
        else if key.ipProto = ipprotoUdp ∨ key.ipProto = ipprotoSctp ∨
            (key.ethType = ethPIp ∧ key.ipProto = ipprotoIcmp) then nlaTotalSize 28
        else if key.ethType = ethPIpv6 ∧ key.ipProto = nexthdrIcmp then
          spareLine (key.u8 363 = 135 ∨ key.u8 363 = 136) 28 28
        else nlaTotalSize 2 + nlaTotalSize 28
      else nlaTotalSize 2 + nlaTotalSize 28)

/-- What a tag takes, with the nest of what follows it. -/
def tagSize : Nat := nlaTotalSize 2 + nlaTotalSize 2 + nlaTotalSize 0

/-- Whether the key has the attributes of a tag within a tag, for which there is no line. -/
def hasSecondTag (key : SwFlowKey) : Bool :=
  key.ovsKeyMacProto == macProtoEthernet && key.vlanTci != 0 &&
    (key.cvlanTci != 0 || ethTypeVlan key.ethType)

/-- What the key leaves free of `ovs_key_attr_size`. -/
def spareKey (env : UpcallEnv) (key : SwFlowKey) : Nat :=
  (if key.u8 323 ≠ 0 then spareTunnel env env.key_pad key (key.u8 255).toNat (key.u8 323)
    else nlaTotalSize 0 + ovsTunKeyAttrSize env) +
  spareLine (key.u16 320 ≠ inPortNone) 4 4 + spareLine (env.ct_config .ctZone) 2 2 +
  spareLine (env.ct_config .ctMark) 4 4 + spareLine (env.ct_config .ctLabels) 16 16 +
  (if key.u8 355 = 0 then nlaTotalSize 40
    else if key.ethType = ethPIp then nlaTotalSize 40 - nlaTotalSize 16
    else if key.ethType = ethPIpv6 then 0 else nlaTotalSize 40) +
  (if key.ovsKeyMacProto = macProtoEthernet then
      (if key.vlanTci ≠ 0 ∨ ethTypeVlan key.ethType then
          if key.vlanTci = 0 ∨ ((key.cvlanTci ≠ 0 ∨ ethTypeVlan key.ethType) ∧ key.cvlanTci = 0) then
            untaggedLines
          else spareUntagged key
        else tagSize + spareUntagged key)
    else nlaTotalSize 12 + tagSize + spareUntagged key)

/-- What the attributes of `output` behind the tags leave free, where `swkey` decides which there are. -/
def spareUntaggedOf (swkey output : SwFlowKey) (is_mask : Bool) : Nat :=
  if swkey.ovsKeyMacProto = macProtoEthernet ∧ swkey.ethType = ethP8022 then
    spareLine (is_mask ∧ output.ethType ≠ 0) 2 2 + (untaggedLines - nlaTotalSize 2)
  else if ethTypeVlan swkey.ethType then untaggedLines - nlaTotalSize 2
  else
    (if swkey.ethType = ethPIp then nlaTotalSize 40 - nlaTotalSize 12
      else if swkey.ethType = ethPIpv6 then 0
      else if swkey.ethType = ethPArp ∨ swkey.ethType = ethPRarp then nlaTotalSize 40 - nlaTotalSize 24
      else spareLine (ethPMpls swkey.ethType) 40 4) +
    (if (swkey.ethType = ethPIp ∨ swkey.ethType = ethPIpv6) ∧ swkey.ipFrag ≠ ovsFragTypeLater then
        if swkey.ipProto = ipprotoTcp then nlaTotalSize 28 - nlaTotalSize 4
        else if swkey.ipProto = ipprotoUdp ∨ swkey.ipProto = ipprotoSctp ∨
            (swkey.ethType = ethPIp ∧ swkey.ipProto = ipprotoIcmp) then nlaTotalSize 28
        else if swkey.ethType = ethPIpv6 ∧ swkey.ipProto = nexthdrIcmp then
          spareLine (output.u8 363 = 135 ∨ output.u8 363 = 136) 28 28
        else nlaTotalSize 2 + nlaTotalSize 28
      else nlaTotalSize 2 + nlaTotalSize 28)

/-- What the attributes of a key or of a mask leave free of `ovs_key_attr_size`. -/
def spareKeyOf (env : UpcallEnv) (swkey output : SwFlowKey) (is_mask : Bool) : Nat :=
  (if swkey.u8 323 ≠ 0 ∨ is_mask then spareTunnel env env.key_pad output (swkey.u8 255).toNat (swkey.u8 323)
    else nlaTotalSize 0 + ovsTunKeyAttrSize env) +
  spareLine (swkey.u16 320 ≠ inPortNone ∨ is_mask ∧ output.u16 320 = 0xFFFF) 4 4 +
  spareLine (env.ct_config .ctZone) 2 2 + spareLine (env.ct_config .ctMark) 4 4 +
  spareLine (env.ct_config .ctLabels) 16 16 +
  (if swkey.u8 355 = 0 then nlaTotalSize 40
    else if swkey.ethType = ethPIp then nlaTotalSize 40 - nlaTotalSize 16
    else if swkey.ethType = ethPIpv6 then 0 else nlaTotalSize 40) +
  (if swkey.ovsKeyMacProto = macProtoEthernet then
      (if swkey.vlanTci ≠ 0 ∨ ethTypeVlan swkey.ethType then
          if swkey.vlanTci = 0 ∨ ((swkey.cvlanTci ≠ 0 ∨ ethTypeVlan swkey.ethType) ∧ swkey.cvlanTci = 0) then
            untaggedLines
          else spareUntaggedOf swkey output is_mask
        else tagSize + spareUntaggedOf swkey output is_mask)
    else nlaTotalSize 12 + tagSize + spareUntaggedOf swkey output is_mask)

theorem spareUntagged_eq (key : SwFlowKey) : spareUntagged key = spareUntaggedOf key key false := by
  have hnone : spareLine (false = true ∧ key.ethType ≠ 0) 2 2 = nlaTotalSize 2 := if_neg (by simp)
  unfold spareUntagged spareUntaggedOf
  rw [hnone]
  rfl

theorem spareKey_eq (env : UpcallEnv) (key : SwFlowKey) : spareKey env key = spareKeyOf env key key false := by
  simp only [spareKey, spareKeyOf, spareUntagged_eq, Bool.false_eq_true, false_and, or_false]

/-! ## The lines of the sum -/

/-- An attribute that there may be, and what is free without it. -/
theorem attrsSize_line {present : Prop} [Decidable present] {a : Nlattr} {line used : Nat}
    (hused : a.data.length = used) (hle : nlaTotalSize used ≤ nlaTotalSize line) :
    attrsSize (if present then [a] else []) + spareLine present line used = nlaTotalSize line := by
  unfold spareLine
  split_ifs
  · simp only [attrsSize_cons, attrsSize_nil, hused]
    omega
  · simp

theorem nlaTotalSize_mono {m n : Nat} (h : m ≤ n) : nlaTotalSize m ≤ nlaTotalSize n := by
  unfold nlaTotalSize nlaAlign nlaHdrlen
  omega

section Lines

variable {env : UpcallEnv}

theorem tunAddrs_spare (output : SwFlowKey) (tun_proto : BitVec 8) :
    attrsSize (tunAddrsToNlattr output tun_proto) +
      (if tun_proto = afInet then
          spareLine (output.u32 264 ≠ 0) 16 4 + spareLine (output.u32 268 ≠ 0) 16 4
        else if tun_proto = afInet6 then
          spareLine (output.bytes 264 16 ≠ List.replicate 16 0) 16 16 +
            spareLine (output.bytes 280 16 ≠ List.replicate 16 0) 16 16
        else nlaTotalSize 16 + nlaTotalSize 16) = nlaTotalSize 16 + nlaTotalSize 16 := by
  unfold tunAddrsToNlattr
  by_cases h4 : tun_proto = afInet
  · rw [if_pos h4, if_pos h4, attrsSize_append]
    have hsrc : _ + spareLine (output.u32 264 ≠ 0) 16 4 = _ :=
      attrsSize_line (a := tunAttr .ipv4Src (output.bytes 264 4)) (SwFlowKey.bytes_length ..) (by decide)
    have hdst : _ + spareLine (output.u32 268 ≠ 0) 16 4 = _ :=
      attrsSize_line (a := tunAttr .ipv4Dst (output.bytes 268 4)) (SwFlowKey.bytes_length ..) (by decide)
    omega
  · rw [if_neg h4, if_neg h4]
    by_cases h6 : tun_proto = afInet6
    · rw [if_pos h6, if_pos h6, attrsSize_append]
      have hsrc : _ + spareLine (output.bytes 264 16 ≠ List.replicate 16 0) 16 16 = _ :=
        attrsSize_line (a := tunAttr .ipv6Src (output.bytes 264 16)) (SwFlowKey.bytes_length ..) le_rfl
      have hdst : _ + spareLine (output.bytes 280 16 ≠ List.replicate 16 0) 16 16 = _ :=
        attrsSize_line (a := tunAttr .ipv6Dst (output.bytes 280 16)) (SwFlowKey.bytes_length ..) le_rfl
      omega
    · rw [if_neg h6, if_neg h6]
      rfl

theorem tunOpts_spare (output : SwFlowKey) {tun_opts : List (BitVec 8)} (hlen : tun_opts.length ≤ 255) :
    attrsSize (tunOptsToNlattr output tun_opts) +
      (if tun_opts.length = 0 then nlaTotalSize 256
        else if output.be16 296 &&& 0x0800 ≠ 0 then nlaTotalSize 256 - nlaTotalSize tun_opts.length
        else if output.be16 296 &&& 0x1000 ≠ 0 then nlaTotalSize 256 - nlaTotalSize (nlaTotalSize 4)
        else nlaTotalSize 256) = nlaTotalSize 256 := by
  have hle : nlaTotalSize tun_opts.length ≤ nlaTotalSize 256 := nlaTotalSize_mono (hlen.trans (by decide))
  unfold tunOptsToNlattr vxlanOptToNlattr
  split_ifs
  · simp
  · simp only [attrsSize_cons, attrsSize_nil, tunAttr_data]
    omega
  · simp only [attrsSize_cons, attrsSize_nil, tunAttr_data, nlaStream_length, slice_length]
    rfl
  · simp

theorem tunId_spare {pad : Bool} (hpad : pad = true → env.efficient = false) (output : SwFlowKey) :
    attrsSize (if output.be16 296 &&& 0x04 ≠ 0 then
        (if pad then [tunAttr .pad []] else []) ++ [tunAttr .id (output.bytes 256 8)] else []) +
      (if output.be16 296 &&& 0x04 = 0 then nlaTotalSize64 env
        else if pad || env.efficient then 0 else nlaTotalSize 0) = nlaTotalSize64 env := by
  unfold nlaTotalSize64
  by_cases hkey : output.be16 296 &&& 0x04 = 0
  · rw [if_neg (not_not.mpr hkey), if_pos hkey]
    exact Nat.zero_add _
  · rw [if_pos hkey, if_neg hkey]
    cases pad with
    | true =>
        rw [hpad rfl]
        simp
        omega
    | false =>
        cases env.efficient with
        | true => simp
        | false => simp

/-- What a tunnel takes and what it leaves free make up `ovs_tun_key_attr_size`. -/
theorem tunnel_spare {pad : Bool} (hpad : pad = true → env.efficient = false) (output : SwFlowKey)
    {tun_opts : List (BitVec 8)} (hlen : tun_opts.length ≤ 255) (tun_proto : BitVec 8) :
    attrsSize (ipTunToNlattr1 pad output tun_opts tun_proto) +
      spareTunnel env pad output tun_opts.length tun_proto = ovsTunKeyAttrSize env := by
  have hid := tunId_spare hpad output
  have haddrs := tunAddrs_spare output tun_proto
  have hopts := tunOpts_spare output hlen
  have htos : _ + spareLine (output.u8 298 ≠ 0) 1 1 = _ :=
    attrsSize_line (a := tunAttr .tos (output.bytes 298 1)) (SwFlowKey.bytes_length ..) le_rfl
  have hdf : _ + spareLine (output.be16 296 &&& 0x0100 ≠ 0) 0 0 = _ :=
    attrsSize_line (a := tunAttr .dontFragment []) rfl le_rfl
  have hcsum : _ + spareLine (output.be16 296 &&& 0x01 ≠ 0) 0 0 = _ :=
    attrsSize_line (a := tunAttr .csum []) rfl le_rfl
  have hsrc : _ + spareLine (output.u16 304 ≠ 0) 2 2 = _ :=
    attrsSize_line (a := tunAttr .tpSrc (output.bytes 304 2)) (SwFlowKey.bytes_length ..) le_rfl
  have hdst : _ + spareLine (output.u16 306 ≠ 0) 2 2 = _ :=
    attrsSize_line (a := tunAttr .tpDst (output.bytes 306 2)) (SwFlowKey.bytes_length ..) le_rfl
  have hoam : _ + spareLine (output.be16 296 &&& 0x0200 ≠ 0) 0 0 = _ :=
    attrsSize_line (a := tunAttr .oam []) rfl le_rfl
  have httl : attrsSize [tunAttr .ttl (output.bytes 299 1)] = nlaTotalSize 1 := by simp
  unfold ipTunToNlattr1 spareTunnel ovsTunKeyAttrSize
  simp only [attrsSize_append]
  omega

theorem network_spare (swkey output : SwFlowKey) :
    attrsSize (putNetwork swkey output) +
      (if swkey.ethType = ethPIp then nlaTotalSize 40 - nlaTotalSize 12
        else if swkey.ethType = ethPIpv6 then 0
        else if swkey.ethType = ethPArp ∨ swkey.ethType = ethPRarp then nlaTotalSize 40 - nlaTotalSize 24
        else spareLine (ethPMpls swkey.ethType) 40 4) = nlaTotalSize 40 := by
  unfold putNetwork
  split_ifs with hip hip6 harp hmpls
  · simp only [attrsSize_cons, attrsSize_nil, keyAttr_data, List.length_append, SwFlowKey.bytes_length]
    decide
  · simp only [attrsSize_cons, attrsSize_nil, keyAttr_data, List.length_append, SwFlowKey.bytes_length]
    rfl
  · simp only [attrsSize_cons, attrsSize_nil, keyAttr_data, List.length_append, SwFlowKey.bytes_length,
      List.length_cons, List.length_nil, zeros_length]
    decide
  · rw [spareLine, if_pos hmpls, attrsSize_cons, attrsSize_nil, keyAttr_data, SwFlowKey.bytes_length]
    decide
  · rw [spareLine, if_neg hmpls, attrsSize_nil, Nat.zero_add]

theorem transport_spare (swkey output : SwFlowKey) :
    attrsSize (putTransport swkey output) +
      (if (swkey.ethType = ethPIp ∨ swkey.ethType = ethPIpv6) ∧ swkey.ipFrag ≠ ovsFragTypeLater then
          if swkey.ipProto = ipprotoTcp then nlaTotalSize 28 - nlaTotalSize 4
          else if swkey.ipProto = ipprotoUdp ∨ swkey.ipProto = ipprotoSctp ∨
              (swkey.ethType = ethPIp ∧ swkey.ipProto = ipprotoIcmp) then nlaTotalSize 28
          else if swkey.ethType = ethPIpv6 ∧ swkey.ipProto = nexthdrIcmp then
            spareLine (output.u8 363 = 135 ∨ output.u8 363 = 136) 28 28
          else nlaTotalSize 2 + nlaTotalSize 28
        else nlaTotalSize 2 + nlaTotalSize 28) = nlaTotalSize 2 + nlaTotalSize 28 := by
  unfold putTransport putIcmp
  -- a later fragment has no attribute of the transport layer
  by_cases hip : (swkey.ethType = ethPIp ∨ swkey.ethType = ethPIpv6) ∧ swkey.ipFrag ≠ ovsFragTypeLater
  · rw [if_pos hip, if_pos hip]
    by_cases htcp : swkey.ipProto = ipprotoTcp
    · rw [if_pos htcp, if_pos htcp]
      simp only [attrsSize_cons, attrsSize_nil, keyAttr_data, SwFlowKey.bytes_length]
      decide
    · rw [if_neg htcp, if_neg htcp]
      by_cases hshort : swkey.ipProto = ipprotoUdp ∨ swkey.ipProto = ipprotoSctp ∨
          (swkey.ethType = ethPIp ∧ swkey.ipProto = ipprotoIcmp)
      · rw [if_pos hshort]
        split_ifs with hudp hsctp hicmp
        · simp only [attrsSize_cons, attrsSize_nil, keyAttr_data, SwFlowKey.bytes_length]
          rfl
        · simp only [attrsSize_cons, attrsSize_nil, keyAttr_data, SwFlowKey.bytes_length]
          rfl
        · simp only [attrsSize_cons, attrsSize_nil, keyAttr_data, List.length_cons, List.length_nil]
          rfl
        all_goals exact absurd hshort (by tauto)
      · rw [if_neg hshort]
        obtain ⟨hudp, hsctp, hicmp⟩ : swkey.ipProto ≠ ipprotoUdp ∧ swkey.ipProto ≠ ipprotoSctp ∧
            ¬ (swkey.ethType = ethPIp ∧ swkey.ipProto = ipprotoIcmp) := by tauto
        rw [if_neg hudp, if_neg hsctp, if_neg hicmp]
        by_cases hicmp6 : swkey.ethType = ethPIpv6 ∧ swkey.ipProto = nexthdrIcmp
        · rw [if_pos hicmp6, if_pos hicmp6, attrsSize_cons]
          have hnd : _ + spareLine (output.u8 363 = 135 ∨ output.u8 363 = 136) 28 28 = _ :=
            attrsSize_line (a := keyAttr .nd (output.bytes 404 16 ++ output.bytes 420 6 ++ output.bytes 426 6))
              (by simp) le_rfl
          rw [Nat.add_assoc, hnd]
          rfl
        · rw [if_neg hicmp6, if_neg hicmp6, attrsSize_nil, Nat.zero_add]
  · rw [if_neg hip, if_neg hip, attrsSize_nil, Nat.zero_add]

/-- What follows the tags and what it leaves free make up the lines for it. -/
theorem untagged_spare (swkey output : SwFlowKey) (is_mask : Bool) :
    attrsSize (putUntagged swkey output is_mask) + spareUntaggedOf swkey output is_mask = untaggedLines := by
  have hnetwork := network_spare swkey output
  have htransport := transport_spare swkey output
  unfold putUntagged spareUntaggedOf
  by_cases h8022 : swkey.ovsKeyMacProto = macProtoEthernet ∧ swkey.ethType = ethP8022
  · rw [if_pos h8022, if_pos h8022]
    have htype : _ + spareLine (is_mask = true ∧ output.ethType ≠ 0) 2 2 = _ :=
      attrsSize_line (a := keyAttr .ethertype (output.bytes 352 2)) (SwFlowKey.bytes_length ..) le_rfl
    rw [← Nat.add_assoc, htype]
    decide
  · rw [if_neg h8022, if_neg h8022, attrsSize_cons, keyAttr_data, SwFlowKey.bytes_length]
    by_cases htruncated : ethTypeVlan swkey.ethType
    · rw [if_pos htruncated, if_pos htruncated]
      decide
    · rw [if_neg htruncated, if_neg htruncated, attrsSize_append]
      unfold untaggedLines
      omega

theorem inPort_spare (swkey output : SwFlowKey) (is_mask : Bool) :
    attrsSize (putInPort swkey output is_mask) +
      spareLine (swkey.u16 320 ≠ inPortNone ∨ is_mask ∧ output.u16 320 = 0xFFFF) 4 4 = nlaTotalSize 4 := by
  unfold putInPort spareLine
  by_cases hport : swkey.u16 320 = inPortNone
  · rw [if_pos hport]
    by_cases hmask : is_mask = true ∧ output.u16 320 = 0xFFFF
    · rw [if_pos hmask, if_pos (Or.inr hmask)]
      rfl
    · rw [if_neg hmask, if_neg (by tauto)]
      rfl
  · rw [if_neg hport, if_pos (Or.inl hport)]
    simp

theorem ctOrigTuple_spare (swkey output : SwFlowKey) :
    attrsSize (putCtOrigTuple swkey output) +
      (if swkey.u8 355 = 0 then nlaTotalSize 40
        else if swkey.ethType = ethPIp then nlaTotalSize 40 - nlaTotalSize 16
        else if swkey.ethType = ethPIpv6 then 0 else nlaTotalSize 40) = nlaTotalSize 40 := by
  unfold putCtOrigTuple
  split_ifs
  · rfl
  · simp only [attrsSize_cons, attrsSize_nil, keyAttr_data, List.length_append, SwFlowKey.bytes_length,
      zeros_length]
    decide
  · simp only [attrsSize_cons, attrsSize_nil, keyAttr_data, List.length_append, SwFlowKey.bytes_length,
      zeros_length]
    rfl
  · rfl

/-- What the metadata takes and what it leaves free make up the lines before the Ethernet header. -/
theorem metadata_spare (env : UpcallEnv) (swkey output : SwFlowKey) (is_mask : Bool) :
    attrsSize (putMetadata ⟨env.ct_config, env.key_pad⟩ swkey output is_mask) +
      ((if swkey.u8 323 ≠ 0 ∨ is_mask then
          spareTunnel env env.key_pad output (swkey.u8 255).toNat (swkey.u8 323)
        else nlaTotalSize 0 + ovsTunKeyAttrSize env) +
      spareLine (swkey.u16 320 ≠ inPortNone ∨ is_mask ∧ output.u16 320 = 0xFFFF) 4 4 +
      spareLine (env.ct_config .ctZone) 2 2 + spareLine (env.ct_config .ctMark) 4 4 +
      spareLine (env.ct_config .ctLabels) 16 16 +
      (if swkey.u8 355 = 0 then nlaTotalSize 40
        else if swkey.ethType = ethPIp then nlaTotalSize 40 - nlaTotalSize 16
        else if swkey.ethType = ethPIpv6 then 0 else nlaTotalSize 40)) +
      (nlaTotalSize 12 + tagSize + untaggedLines) = ovsKeyAttrSize env := by
  have hport := inPort_spare swkey output is_mask
  have htuple := ctOrigTuple_spare swkey output
  have htun : attrsSize (if swkey.u8 323 ≠ 0 ∨ is_mask = true then [ipTunToNlattr env.key_pad output
        (output.tunMetadataOpts (swkey.u8 255).toNat) (swkey.u8 323)] else []) +
      (if swkey.u8 323 ≠ 0 ∨ is_mask = true then
          spareTunnel env env.key_pad output (swkey.u8 255).toNat (swkey.u8 323)
        else nlaTotalSize 0 + ovsTunKeyAttrSize env) = nlaTotalSize 0 + ovsTunKeyAttrSize env := by
    have hlen : (output.tunMetadataOpts (swkey.u8 255).toNat).length = (swkey.u8 255).toNat :=
      SwFlowKey.bytes_length ..
    have hle : (swkey.u8 255).toNat ≤ 255 := Nat.le_of_lt_succ (swkey.u8 255).isLt
    have htunnel := tunnel_spare env.key_pad_le output (hlen.trans_le hle) (swkey.u8 323)
    rw [hlen] at htunnel
    by_cases htun : swkey.u8 323 ≠ 0 ∨ is_mask = true
    · rw [if_pos htun, if_pos htun, attrsSize_cons, attrsSize_nil, ipTunToNlattr, keyAttr_data,
        nlaStream_length, nlaTotalSize_attrsSize]
      omega
    · rw [if_neg htun, if_neg htun]
      exact Nat.zero_add _
  have hzone : _ + spareLine (env.ct_config .ctZone) 2 2 = _ :=
    attrsSize_line (a := keyAttr .ctZone (output.bytes 360 2)) (SwFlowKey.bytes_length ..) le_rfl
  have hmark : _ + spareLine (env.ct_config .ctMark) 4 4 = _ :=
    attrsSize_line (a := keyAttr .ctMark (output.bytes 440 4)) (SwFlowKey.bytes_length ..) le_rfl
  have hlabels : _ + spareLine (env.ct_config .ctLabels) 16 16 = _ :=
    attrsSize_line (a := keyAttr .ctLabels (output.bytes 444 16)) (SwFlowKey.bytes_length ..) le_rfl
  unfold putMetadata ovsCtPutKey ovsKeyAttrSize tagSize untaggedLines
  simp only [attrsSize_append, attrsSize_cons, attrsSize_nil, keyAttr_data, SwFlowKey.bytes_length,
    List.length_append, zeros_length, Nat.reduceAdd]
  -- the line for the tag has room for four bytes, and two are padded to as many
  have htag : nlaTotalSize 2 = nlaTotalSize 4 := rfl
  omega

/-- The tags, what is nested in them, and what is left free. -/
theorem tagged_spare (swkey output : SwFlowKey) (is_mask : Bool) :
    attrsSize (putTagged swkey output is_mask) +
      (if swkey.vlanTci ≠ 0 ∨ ethTypeVlan swkey.ethType then
          if swkey.vlanTci = 0 ∨ ((swkey.cvlanTci ≠ 0 ∨ ethTypeVlan swkey.ethType) ∧ swkey.cvlanTci = 0) then
            untaggedLines
          else spareUntaggedOf swkey output is_mask
        else tagSize + spareUntaggedOf swkey output is_mask) =
      tagSize + untaggedLines +
        if swkey.vlanTci ≠ 0 ∧ (swkey.cvlanTci ≠ 0 ∨ ethTypeVlan swkey.ethType) then tagSize else 0 := by
  have huntagged := untagged_spare swkey output is_mask
  have htag : ∀ off (encap : List Nlattr), attrsSize (ovsNlaPutVlan output off is_mask ++
      [keyAttr .encap (nlaStream encap)]) = tagSize + attrsSize encap := by
    intro off encap
    have htype : (if is_mask = true then [0xFF, 0xFF] else output.bytes off 2).length = 2 := by
      split_ifs
      · rfl
      · exact SwFlowKey.bytes_length ..
    unfold ovsNlaPutVlan tagSize
    simp only [attrsSize_append, attrsSize_cons, attrsSize_nil, keyAttr_data, nlaStream_length,
      SwFlowKey.bytes_length, htype, nlaTotalSize_attrsSize]
    omega
  unfold putTagged
  by_cases htagged : swkey.vlanTci ≠ 0 ∨ ethTypeVlan swkey.ethType
  · rw [if_pos htagged, if_pos htagged, htag]
    by_cases houter : swkey.vlanTci = 0
    · rw [if_pos houter, if_pos (Or.inl houter), if_neg (fun h => h.1 houter)]
      exact Nat.add_right_cancel_iff.mpr (Nat.add_zero _)
    · rw [if_neg houter]
      by_cases hinner : swkey.cvlanTci ≠ 0 ∨ ethTypeVlan swkey.ethType
      · rw [if_pos hinner, htag, if_pos (show swkey.vlanTci ≠ 0 ∧ _ from ⟨houter, hinner⟩)]
        by_cases hempty : swkey.cvlanTci = 0
        · rw [if_pos hempty, if_pos (Or.inr ⟨hinner, hempty⟩), attrsSize_nil]
          omega
        · rw [if_neg hempty, if_neg (by tauto)]
          omega
      · have hrest : ¬ (swkey.vlanTci = 0 ∨ ((swkey.cvlanTci ≠ 0 ∨ ethTypeVlan swkey.ethType) ∧
            swkey.cvlanTci = 0)) := by tauto
        have hone : ¬ (swkey.vlanTci ≠ 0 ∧ (swkey.cvlanTci ≠ 0 ∨ ethTypeVlan swkey.ethType)) :=
          fun h => hinner h.2
        rw [if_neg hinner, if_neg hrest, if_neg hone]
        omega
  · rw [if_neg htagged, if_neg htagged, if_neg (by tauto)]
    omega

/-- **What a key or a mask takes and what it leaves free** make up `ovs_key_attr_size` and a second tag. -/
theorem putKey_spare (env : UpcallEnv) (swkey output : SwFlowKey) (is_mask : Bool) :
    (ovsNlaPutKey ⟨env.ct_config, env.key_pad⟩ swkey output is_mask).length +
        spareKeyOf env swkey output is_mask =
      ovsKeyAttrSize env + if hasSecondTag swkey then tagSize else 0 := by
  have hmetadata := metadata_spare env swkey output is_mask
  have huntagged := untagged_spare swkey output is_mask
  have htagged := tagged_spare swkey output is_mask
  unfold ovsNlaPutKey spareKeyOf ovsNlaPutKey1
  rw [nlaStream_length, attrsSize_append]
  by_cases heth : swkey.ovsKeyMacProto = macProtoEthernet
  · have hsecond : hasSecondTag swkey ↔ swkey.vlanTci ≠ 0 ∧ (swkey.cvlanTci ≠ 0 ∨ ethTypeVlan swkey.ethType) := by
      simp [hasSecondTag, heth]
    rw [if_pos heth, if_pos heth, attrsSize_cons, keyAttr_data, List.length_append, SwFlowKey.bytes_length,
      SwFlowKey.bytes_length]
    simp only [hsecond, Nat.reduceAdd]
    omega
  · have hsecond : hasSecondTag swkey = false := by
      simp [hasSecondTag, heth]
    rw [if_neg heth, if_neg heth, hsecond, if_neg Bool.false_ne_true]
    omega

theorem key_spare (env : UpcallEnv) (key : SwFlowKey) :
    (upcallKey env key).length + spareKey env key =
      ovsKeyAttrSize env + if hasSecondTag key then tagSize else 0 := by
  rw [spareKey_eq]
  exact putKey_spare env key key false

end Lines

/-! ## The room -/

/-- The upcall is sent, or refused before there is a message. -/
def HasRoom (result : Except UpcallError Nat) : Prop := (∃ len, result = .ok len) ∨ result = .error .efbig

/-- What `EGRESS_TUN_KEY` leaves free of its line. -/
def spareEgress (env : UpcallEnv) (upcall_info : DpUpcallInfo) : Nat :=
  match upcall_info.egress_tun_info with
  | some tun_info =>
      spareTunnel env env.egress_pad (SwFlowKey.store (fun _ => 0) [⟨256, firstBytes 56 tun_info.key⟩])
        tun_info.options_len.toNat tun_info.af
  | none => 0

/-- The bytes of the header, the key, `USERDATA` and `EGRESS_TUN_KEY`. -/
def upcallKeyLen (env : UpcallEnv) (key : SwFlowKey) (upcall_info : DpUpcallInfo) : Nat :=
  4 + nlaTotalSize (upcallKey env key).length +
    (match upcall_info.userdata with
      | some nla_len => nlaTotalSize nla_len
      | none => 0) +
    (match upcall_info.egress_tun_info with
      | some tun_info => nlaTotalSize (nlaStream (ovsNlaPutTunnelInfo env.egress_pad tun_info)).length
      | none => 0)

section Room

variable {env : UpcallEnv} {size n m w w' : Nat} {err : UpcallError}

theorem skbPut_eq_ok : skbPut size err n w = .ok w' ↔ w + n ≤ size ∧ w + n = w' := by
  unfold skbPut
  split_ifs with h
  · simp [h]
  · simp [h]

/-- Two puts that fail alike are one. -/
theorem skbPut_bind : (skbPut size err n w >>= skbPut size err m) = skbPut size err (n + m) w := by
  unfold skbPut
  split_ifs with h h'
  · rw [ok_bind, if_pos (by omega), Nat.add_assoc]
  · rw [ok_bind, if_neg (by omega)]
  · omega
  · rfl

theorem putUpcallKey_eq (size : Nat) (key : SwFlowKey) (upcall_info : DpUpcallInfo) :
    putUpcallKey env size key upcall_info = skbPut size .panic (upcallKeyLen env key upcall_info) 0 := by
  have hnone : ∀ {x : Except UpcallError Nat}, (x >>= fun w => .ok w) = x := by
    rintro (_ | _)
    · rfl
    · rfl
  unfold putUpcallKey upcallKeyLen
  cases upcall_info.userdata with
  | none =>
      cases upcall_info.egress_tun_info with
      | none =>
          simp only [hnone, Nat.add_zero]
          exact skbPut_bind
      | some tun_info =>
          simp only [ok_bind, Nat.add_zero]
          rw [← skbPut_bind, ← skbPut_bind, bind_assoc]
  | some nla_len =>
      cases upcall_info.egress_tun_info with
      | none =>
          simp only [hnone, Nat.add_zero]
          rw [← skbPut_bind, ← skbPut_bind, bind_assoc]
      | some tun_info =>
          dsimp only
          rw [← skbPut_bind, ← skbPut_bind, ← skbPut_bind, bind_assoc, bind_assoc]

/-- The bytes that are left free, together with those of `ACTIONS` and `LEN`. -/
def spareUpcall (env : UpcallEnv) (key : SwFlowKey) (upcall_info : DpUpcallInfo) (cutlen : Nat) : Nat :=
  spareKey env key + spareEgress env upcall_info + (if 0 < cutlen then 0 else nlaTotalSize 4) +
    (if upcall_info.actions_len ≠ 0 then nlaTotalSize upcall_info.actions_len else 0)

/-- The bytes of a second tag. -/
def secondTag (key : SwFlowKey) : Nat := if hasSecondTag key then tagSize else 0

/-- The bytes of `MRU` and `LEN`. -/
def mruLen (upcall_info : DpUpcallInfo) (cutlen : Nat) : Nat :=
  (if upcall_info.mru ≠ 0 then nlaTotalSize 2 else 0) + if 0 < cutlen then nlaTotalSize 4 else 0

theorem nlaTotalSize_lines (env : UpcallEnv) :
    nlaTotalSize (ovsKeyAttrSize env) = nlaTotalSize 0 + ovsKeyAttrSize env ∧
      nlaTotalSize (ovsTunKeyAttrSize env) = nlaTotalSize 0 + ovsTunKeyAttrSize env := by
  unfold ovsKeyAttrSize ovsTunKeyAttrSize nlaTotalSize64
  cases env.efficient with
  | true => decide
  | false => decide

/-- The size of the message, in terms of what is put into it and of what is left free. -/
theorem upcallMsgSize_spare (env : UpcallEnv) (key : SwFlowKey) (upcall_info : DpUpcallInfo)
    (cutlen : Nat) (hdrlen : BitVec 32) :
    upcallMsgSize env upcall_info hdrlen + secondTag key =
      upcallKeyLen env key upcall_info + mruLen upcall_info cutlen + nlaHdrlen +
        (hdrlen.toInt + 3) / 4 * 4 + spareUpcall env key upcall_info cutlen := by
  have hkey : (upcallKey env key).length + spareKey env key = ovsKeyAttrSize env + secondTag key :=
    key_spare env key
  have hkeyTotal : nlaTotalSize (upcallKey env key).length = nlaTotalSize 0 + (upcallKey env key).length := by
    unfold upcallKey ovsNlaPutKey
    rw [nlaStream_length, nlaTotalSize_attrsSize]
  have hlines := nlaTotalSize_lines env
  -- the tunnel is sized for all of its attributes, whichever are written
  have hegress : (match upcall_info.egress_tun_info with
      | some tun_info => nlaTotalSize (nlaStream (ovsNlaPutTunnelInfo env.egress_pad tun_info)).length
      | none => 0) + spareEgress env upcall_info =
      if upcall_info.egress_tun_info.isSome then nlaTotalSize (ovsTunKeyAttrSize env) else 0 := by
    unfold spareEgress
    cases upcall_info.egress_tun_info with
    | none => rfl
    | some tun_info =>
        have hlen : (firstBytes tun_info.options_len.toNat tun_info.options).length =
          tun_info.options_len.toNat := firstBytes_length ..
        have htunnel := tunnel_spare env.egress_pad_le
          (SwFlowKey.store (fun _ => 0) [⟨256, firstBytes 56 tun_info.key⟩])
          (hlen.trans_le (Nat.le_of_lt_succ tun_info.options_len.isLt)) tun_info.af
        rw [hlen] at htunnel
        dsimp only [Option.isSome_some]
        rw [nlaStream_length, nlaTotalSize_attrsSize, ovsNlaPutTunnelInfo, if_pos rfl, hlines.2]
        omega
  have hint : nlaTotalSizeInt hdrlen.toInt = nlaHdrlen + (hdrlen.toInt + 3) / 4 * 4 := by
    unfold nlaTotalSizeInt nlaHdrlen
    omega
  have hlen : (if 0 < cutlen then 0 else nlaTotalSize 4) + (if 0 < cutlen then nlaTotalSize 4 else 0) =
      nlaTotalSize 4 := by
    split_ifs
    · exact Nat.zero_add _
    · rfl
  have huserdata : (match upcall_info.userdata with
      | some nla_len => (nlaTotalSize nla_len : ℤ)
      | none => 0) = ((match upcall_info.userdata with
      | some nla_len => nlaTotalSize nla_len
      | none => 0 : Nat) : ℤ) := by
    cases upcall_info.userdata with
    | none => rfl
    | some nla_len => rfl
  unfold upcallMsgSize spareUpcall mruLen upcallKeyLen
  rw [hint, hlines.1, huserdata]
  omega

/-- The line of the packet: the head that is copied, less what is cut off the packet. -/
def packetLine (unaligned : Bool) (skb : SkbLayout) (cutlen : Nat) : ℤ :=
  ((copyHeadlen unaligned skb : ℤ) - cutlen + 3) / 4 * 4

/-- What is missing from that line. -/
def shortfall (unaligned : Bool) (skb : SkbLayout) (cutlen : Nat) : ℤ :=
  nlaAlign (min (skb.len - cutlen) (copyHeadlen unaligned skb)) - packetLine unaligned skb cutlen

/-- The bytes that `ACTIONS` takes, which it does if nothing else is left to be written. -/
def actionsTaken (env : UpcallEnv) (unaligned : Bool) (skb : SkbLayout) (key : SwFlowKey)
    (upcall_info : DpUpcallInfo) (cutlen : Nat) : Nat :=
  if upcall_info.actions_len ≠ 0 ∧ ((secondTag key + nlaTotalSize upcall_info.actions_attr_len : Nat) : ℤ) ≤
      mruLen upcall_info cutlen + nlaHdrlen + packetLine unaligned skb cutlen +
        spareUpcall env key upcall_info cutlen then
    nlaTotalSize upcall_info.actions_attr_len
  else 0

/-- What is left free makes up for a second tag, for longer actions and for a head that is cut. -/
def Enough (env : UpcallEnv) (unaligned : Bool) (skb : SkbLayout) (key : SwFlowKey)
    (upcall_info : DpUpcallInfo) (cutlen : Nat) : Prop :=
  secondTag key + actionsTaken env unaligned skb key upcall_info cutlen + shortfall unaligned skb cutlen ≤
    spareUpcall env key upcall_info cutlen

instance {unaligned : Bool} {skb : SkbLayout} {key : SwFlowKey} {upcall_info : DpUpcallInfo} {cutlen : Nat} :
    Decidable (Enough env unaligned skb key upcall_info cutlen) :=
  inferInstanceAs (Decidable (_ ≤ _))

theorem copyHeadlen_le (unaligned : Bool) (skb : SkbLayout) : copyHeadlen unaligned skb ≤ skb.len := by
  have := skb.headlen_le
  unfold copyHeadlen skbZerocopyHeadlen
  split_ifs
  all_goals omega

/-- The difference of two lengths that an attribute may have, in 32 bits. -/
theorem toInt_sub_ofNat {m n : Nat} (hm : m < 65536) (hn : n < 65536) :
    (BitVec.ofNat 32 m - BitVec.ofNat 32 n).toInt = (m : ℤ) - n := by
  have hbmod : ∀ i : ℤ, -65536 < i → i < 65536 → i.bmod (2 ^ 32) = i := by
    intro i hlo hhi
    exact Int.bmod_eq_of_le (by omega) (by omega)
  rw [BitVec.toInt_sub, BitVec.toInt_ofNat', BitVec.toInt_ofNat', hbmod m (by omega) (by omega),
    hbmod n (by omega) (by omega), hbmod _ (by omega) (by omega)]

theorem nlaTotalSize_mod (n : Nat) : nlaTotalSize n % 4 = 0 := by
  unfold nlaTotalSize nlaAlign
  omega

/-- A sum of lines is a multiple of four. -/
theorem upcallMsgSize_mod (upcall_info : DpUpcallInfo) (hdrlen : BitVec 32) :
    upcallMsgSize env upcall_info hdrlen % 4 = 0 := by
  have hline : ∀ (present : Prop) [Decidable present] (n : Nat),
      (if present then nlaTotalSize n else 0) % 4 = 0 := by
    intro present _ n
    split_ifs
    · exact nlaTotalSize_mod n
    · rfl
  have huserdata : (match upcall_info.userdata with
      | some nla_len => (nlaTotalSize nla_len : ℤ)
      | none => 0) % 4 = 0 := by
    cases upcall_info.userdata with
    | none => rfl
    | some nla_len =>
        have := nlaTotalSize_mod nla_len
        dsimp only
        omega
  have hkey := nlaTotalSize_mod (ovsKeyAttrSize env)
  have hfour := nlaTotalSize_mod 4
  have hegress := hline (upcall_info.egress_tun_info.isSome = true) (ovsTunKeyAttrSize env)
  have hactions := hline (upcall_info.actions_len ≠ 0) upcall_info.actions_len
  have hmru := hline (upcall_info.mru ≠ 0) 2
  unfold upcallMsgSize nlaTotalSizeInt
  omega

theorem upcallKeyLen_mod (env : UpcallEnv) (key : SwFlowKey) (upcall_info : DpUpcallInfo) :
    upcallKeyLen env key upcall_info % 4 = 0 := by
  have hkey := nlaTotalSize_mod (upcallKey env key).length
  have huserdata : (match upcall_info.userdata with
      | some nla_len => nlaTotalSize nla_len
      | none => 0) % 4 = 0 := by
    cases upcall_info.userdata with
    | none => rfl
    | some nla_len => exact nlaTotalSize_mod nla_len
  have hegress : (match upcall_info.egress_tun_info with
      | some tun_info => nlaTotalSize (nlaStream (ovsNlaPutTunnelInfo env.egress_pad tun_info)).length
      | none => 0) % 4 = 0 := by
    cases upcall_info.egress_tun_info with
    | none => rfl
    | some tun_info => exact nlaTotalSize_mod _
  unfold upcallKeyLen
  omega

theorem mruLen_mod (upcall_info : DpUpcallInfo) (cutlen : Nat) : mruLen upcall_info cutlen % 4 = 0 := by
  unfold mruLen
  split_ifs
  all_goals rfl

theorem padPacket_aligned {unaligned : Bool} (hw : w % 4 = 0) (hle : w ≤ size) :
    padPacket size unaligned w = .ok w := by
  unfold padPacket
  split_ifs
  · rfl
  · rw [skbPut_eq_ok]
    unfold nlaAlign
    omega

theorem exists_skbPut_bind {f : Nat → Except UpcallError Nat} :
    (∃ len, (skbPut size err n w >>= f) = .ok len) ↔ w + n ≤ size ∧ ∃ len, f (w + n) = .ok len := by
  unfold skbPut
  split_ifs with h
  · simp [h]
  · simp [h]

/-- An attribute that there may be, with the padding behind it, which there is none of. -/
theorem exists_putPadded_bind {cond unaligned : Bool} {f : Nat → Except UpcallError Nat} (hw : w % 4 = 0)
    (hle : w ≤ size) :
    (∃ len, (putPadded size unaligned cond n w >>= f) = .ok len) ↔
      w + (if cond then nlaTotalSize n else 0) ≤ size ∧
        ∃ len, f (w + if cond then nlaTotalSize n else 0) = .ok len := by
  unfold putPadded
  cases cond with
  | false => simp [hle]
  | true =>
      have halign : (w + nlaTotalSize n) % 4 = 0 := by
        unfold nlaTotalSize nlaAlign
        omega
      rw [if_pos rfl, if_pos rfl, bind_assoc, exists_skbPut_bind]
      refine and_congr_right fun hfits => ?_
      rw [padPacket_aligned halign hfits, ok_bind]

/-- The packet, with the padding behind it where it is copied whole. -/
theorem exists_skbZerocopy_bind {unaligned : Bool} {len hlen : Nat} (hsize : size % 4 = 0) :
    (∃ res, (skbZerocopy size len hlen w >>= padPacket size unaligned) = .ok res) ↔
      w + min len hlen ≤ size := by
  have hpad : ∀ {w}, w ≤ size → ∃ res, padPacket size unaligned w = .ok res := by
    intro w hle
    unfold padPacket
    split_ifs
    · exact ⟨w, rfl⟩
    · -- the size of the message is a multiple of four
      refine ⟨_, skbPut_eq_ok.mpr ⟨?_, rfl⟩⟩
      unfold nlaAlign
      omega
  unfold skbZerocopy
  split_ifs with hfits
  · refine iff_of_true (hpad hfits) ?_
    omega
  · unfold skbPut
    split_ifs with hhead
    · refine iff_of_true (hpad hhead) ?_
      omega
    · refine iff_of_false nofun ?_
      omega

/-- With the key and the actions written, the rest of the message is if the packet, or the head that is
copied, fits behind `MRU` and `LEN`. -/
theorem exists_putUpcall (unaligned : Bool) (skb : SkbLayout) (key : SwFlowKey) (upcall_info : DpUpcallInfo)
    (cutlen : Nat) (hsize : size % 4 = 0) :
    (∃ len, putUpcall env size unaligned skb key upcall_info cutlen = .ok len) ↔
      upcallKeyLen env key upcall_info ≤ size ∧
        putUpcallActions size upcall_info (upcallKeyLen env key upcall_info) + mruLen upcall_info cutlen +
          nlaHdrlen + min (skb.len - cutlen) (copyHeadlen unaligned skb) ≤ size := by
  have hkey := upcallKeyLen_mod env key upcall_info
  have hmru : (if (upcall_info.mru != 0) = true then nlaTotalSize 2 else 0) +
      (if decide (0 < cutlen) = true then nlaTotalSize 4 else 0) = mruLen upcall_info cutlen := by
    simp [mruLen]
  have hmod : (if (upcall_info.mru != 0) = true then nlaTotalSize 2 else 0) % 4 = 0 := by
    split_ifs
    · rfl
    · rfl
  unfold putUpcall
  rw [putUpcallKey_eq, exists_skbPut_bind, Nat.zero_add]
  refine and_congr_right fun hle => ?_
  have hactions : putUpcallActions size upcall_info (upcallKeyLen env key upcall_info) % 4 = 0 ∧
      putUpcallActions size upcall_info (upcallKeyLen env key upcall_info) ≤ size := by
    have := nlaTotalSize_mod upcall_info.actions_attr_len
    unfold putUpcallActions
    split_ifs
    · omega
    · omega
  generalize putUpcallActions size upcall_info (upcallKeyLen env key upcall_info) = written at hactions ⊢
  dsimp only
  rw [exists_putPadded_bind hactions.1 hactions.2]
  constructor
  · rintro ⟨hfits, h⟩
    rw [exists_putPadded_bind (by omega) hfits, exists_skbPut_bind, exists_skbZerocopy_bind hsize] at h
    omega
  · intro hall
    have hfits : written + (if (upcall_info.mru != 0) = true then nlaTotalSize 2 else 0) ≤ size := by
      omega
    refine ⟨hfits, ?_⟩
    rw [exists_putPadded_bind (by omega) hfits, exists_skbPut_bind, exists_skbZerocopy_bind hsize]
    omega

theorem bind_ne_error {ε α β : Type} {e : ε} {x : Except ε α} {f : α → Except ε β} (hx : x ≠ .error e)
    (hf : ∀ a, f a ≠ .error e) : (x >>= f) ≠ .error e := by
  cases x with
  | error e' => exact fun h => hx (by rw [Except.error.inj h])
  | ok a => exact hf a

theorem skbPut_ne_efbig (herr : err ≠ .efbig) : skbPut size err n w ≠ .error .efbig := by
  unfold skbPut
  split_ifs
  · nofun
  · exact fun h => herr (Except.error.inj h)

theorem padPacket_ne_efbig (unaligned : Bool) : padPacket size unaligned w ≠ .error .efbig := by
  unfold padPacket
  split_ifs
  · nofun
  · exact skbPut_ne_efbig (by decide)

theorem putPadded_ne_efbig (unaligned cond : Bool) : putPadded size unaligned cond n w ≠ .error .efbig := by
  unfold putPadded
  split_ifs
  · exact bind_ne_error (skbPut_ne_efbig (by decide)) fun _ => padPacket_ne_efbig unaligned
  · nofun

/-- The packet is not too large any more where the message is written. -/
theorem putUpcall_ne_efbig (unaligned : Bool) (skb : SkbLayout) (key : SwFlowKey)
    (upcall_info : DpUpcallInfo) (cutlen : Nat) :
    putUpcall env size unaligned skb key upcall_info cutlen ≠ .error .efbig := by
  have hzerocopy : ∀ w, skbZerocopy size (skb.len - cutlen) (copyHeadlen unaligned skb) w ≠
      .error .efbig := by
    intro w
    unfold skbZerocopy
    split_ifs
    · nofun
    · exact skbPut_ne_efbig (by decide)
  unfold putUpcall
  rw [putUpcallKey_eq]
  refine bind_ne_error (skbPut_ne_efbig (by decide)) fun _ => ?_
  refine bind_ne_error (putPadded_ne_efbig unaligned _) fun _ => ?_
  refine bind_ne_error (putPadded_ne_efbig unaligned _) fun _ => ?_
  refine bind_ne_error (skbPut_ne_efbig (by decide)) fun _ => ?_
  exact bind_ne_error (hzerocopy _) fun _ => padPacket_ne_efbig unaligned

/-- **An upcall message has room** for all that is written into it if and only if what is left free
makes up for what has not been provided for. -/
theorem queueUserspacePacket_hasRoom_iff (env : UpcallEnv) (unaligned : Bool) (skb : SkbLayout)
    (key : SwFlowKey) (upcall_info : DpUpcallInfo) (cutlen : Nat) (hcut : cutlen < skb.len) :
    HasRoom (queueUserspacePacket env unaligned skb key upcall_info cutlen) ↔
      65535 < nlaHdrlen + skb.len ∨ Enough env unaligned skb key upcall_info cutlen := by
  unfold queueUserspacePacket
  by_cases hlarge : 65535 < nlaHdrlen + skb.len
  · rw [if_pos hlarge]
    exact iff_of_true (.inr rfl) (.inl hlarge)
  · rw [if_neg hlarge, or_iff_right hlarge]
    have hhdr : nlaHdrlen = 4 := rfl
    have hhead := copyHeadlen_le unaligned skb
    -- the size is that of what is written, and of what is left free
    have hspare := upcallMsgSize_spare env key upcall_info cutlen
      (BitVec.ofNat 32 (copyHeadlen unaligned skb) - BitVec.ofNat 32 cutlen)
    rw [toInt_sub_ofNat (by omega) (by omega)] at hspare
    have hmod : upcallSize env unaligned skb upcall_info cutlen % 4 = 0 := upcallMsgSize_mod ..
    have hkeyMod := upcallKeyLen_mod env key upcall_info
    have hmruMod := mruLen_mod upcall_info cutlen
    have hactionsMod := nlaTotalSize_mod upcall_info.actions_attr_len
    change upcallSize env unaligned skb upcall_info cutlen + _ = _ at hspare
    unfold Enough shortfall actionsTaken packetLine nlaAlign
    by_cases hneg : upcallSize env unaligned skb upcall_info cutlen < 0
    · rw [if_pos hneg]
      refine iff_of_false nofun ?_
      split_ifs
      all_goals omega
    · rw [if_neg hneg, HasRoom, or_iff_left (fun h => putUpcall_ne_efbig _ _ _ _ _ h),
        exists_putUpcall _ _ _ _ _ (by omega)]
      unfold putUpcallActions
      split_ifs
      all_goals omega

end Room

/-- A datagram of 900 bytes with its head in the first 64 of them. -/
def longDatagram : SkBuff :=
  { wholeDatagram with data := ((wholeDatagram.data.set 16 0x03).set 17 0x76) ++ List.replicate 858 0 }

@[inherit_doc longDatagram]
def longLayout : SkbLayout := ⟨900, 64, false, false, false, by decide, by decide⟩

/-- Everything is configured, and the processor does without padding. -/
def fullEnv : UpcallEnv := ⟨fun _ => true, true, false, false, nofun, nofun⟩

/-- An upcall with nothing but the key and the packet. -/
def plainUpcall : DpUpcallInfo := ⟨none, none, 0, 0, 0⟩

/-- The key of the datagram. -/
def longKey : SwFlowKey := (ovsFlowKeyExtract plainEnv etherMeta longDatagram fun _ => 0).2.2

theorem longDatagram_hasRoom : HasRoom (queueUserspacePacket fullEnv true longLayout longKey plainUpcall 0) :=
  (queueUserspacePacket_hasRoom_iff fullEnv true longLayout longKey plainUpcall 0 (by decide)).mpr
    (.inr (by decide +kernel))

/-- Cut to the first 300 bytes, the datagram is sent up in a message that has no room for its key. -/
theorem cutDatagram_not_hasRoom :
    (ovsFlowKeyExtract plainEnv etherMeta longDatagram fun _ => 0).1 = 0 ∧
      longLayout.len = longDatagram.len ∧ 600 < longLayout.len ∧
      queueUserspacePacket fullEnv true longLayout longKey plainUpcall 600 = .error .panic ∧
      ¬ HasRoom (queueUserspacePacket fullEnv true longLayout longKey plainUpcall 600) := by
  have hpanic : queueUserspacePacket fullEnv true longLayout longKey plainUpcall 600 = .error .panic := by
    decide +kernel
  refine ⟨by decide +kernel, by decide +kernel, by decide, hpanic, ?_⟩
  rw [hpanic]
  rintro (⟨len, h⟩ | h)
  · exact nomatch h
  · exact nomatch h

end OvsDatapath.Datapath
