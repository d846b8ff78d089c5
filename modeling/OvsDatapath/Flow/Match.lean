import OvsDatapath.Flow.Mask
import OvsDatapath.Flow.Netlink

/-!
# The match of a request

`ovs_nla_get_match` (`flow_netlink.c`) turns the attributes of a request into the key and the mask of
a flow. Key and mask start zeroed and are filled by stores, the key first and then the mask, by the
same functions; `is_mask` says which of the two is written. Each of these functions is modelled by the
list of its stores. What they read of the match is the key: its tags, its type and its tunnel.

`matchValidate` is the last step: it decides which attributes a key must have and which a mask may
have.
-/

namespace OvsDatapath.Flow

open OvsDatapath.Lib

/-- What the parser gets from outside: the attributes of connection tracking that are configured,
whether the copy of a key can be allocated, and what lies behind the tables of lengths. -/
structure NetlinkEnv where
  ct_config : OvsKeyAttr → Bool
  mask_alloc : Bool
  beyond : LenTbl → Nat → AttrLen

/-- Everything configured and allocated. -/
def plainNetlink : NetlinkEnv := ⟨fun _ => true, true, fun _ _ => .variable⟩

/-- `struct sw_flow_match`. -/
structure SwFlowMatch where
  key : SwFlowKey
  range : SwFlowKeyRange
  mask : Option SwFlowMask

/-- The range after `update_range` for each of the stores. -/
def storesRange (stores : KeyStores) : SwFlowKeyRange :=
  stores.foldl (fun range s => updateRange range s.off s.vals.length) ⟨0, 0⟩

/-- The mask that the stores build. -/
def storesMask (stores : KeyStores) : SwFlowMask :=
  ⟨storesRange stores, SwFlowKey.store (fun _ => 0) stores⟩

/-- The key as a function reads it after its stores, which go elsewhere if `is_mask` is set. -/
def SwFlowKey.afterStores (key : SwFlowKey) (is_mask : Bool) (stores : KeyStores) : SwFlowKey :=
  if is_mask then key else key.store stores

/-! ## Tags -/

/-- `validate_vlan_from_nlattrs`: whether the attributes are those of a tagged frame. -/
def validateVlanFromNlattrs (p : ParsedAttrs) : Except Int Bool :=
  if !(p.has .ethernet && p.has .ethertype && ethTypeVlan (be16Of (p.data .ethertype) 0)) then .ok false
  else if !(p.has .vlan && p.has .encap) then .error einval
  else
    let tci := be16Of (p.data .vlan) 0
    if tci &&& vlanTagPresent = 0 ∧ (tci ≠ 0 ∨ (p.data .encap).length ≠ 0) then .error einval
    else .ok true

/-- `validate_vlan_mask_from_nlattrs`. The array may still hold the tag of the key. -/
def validateVlanMaskFromNlattrs (key : SwFlowKey) (p : ParsedAttrs) (inner : Bool) : Except Int Bool :=
  let encap_valid := key.vlanTci &&& vlanTagPresent != 0
  let i_encap_valid := key.cvlanTci &&& vlanTagPresent != 0
  if !p.has .encap then .ok false
  else if (!inner && !encap_valid) || (inner && !i_encap_valid) then .error einval
  else if be16Of (p.data .ethertype) 0 ≠ 0xFFFF then .error einval
  else if be16Of (p.data .vlan) 0 &&& vlanTagPresent = 0 then .error einval
  else .ok true

/-- `encode_vlan_from_nlattrs`. -/
def encodeVlanFromNlattrs (p : ParsedAttrs) (inner : Bool) : KeyStores :=
  let off := if inner then 348 else 344
  [⟨off, slice (p.data .ethertype) 0 2⟩, ⟨off + 2, slice (p.data .vlan) 0 2⟩]

/-- `__parse_vlan_from_nlattrs`. -/
def parseVlanFromNlattrs1 (key : SwFlowKey) (p : ParsedAttrs) (inner is_mask : Bool) :
    Except Int (ParsedAttrs × KeyStores) :=
  match if is_mask then validateVlanMaskFromNlattrs key p inner else validateVlanFromNlattrs p with
  | .error e => .error e
  | .ok false => .ok (p, [])
  | .ok true =>
      let stores := encodeVlanFromNlattrs p inner
      let encap := p.data .encap
      match parseFlowNlattrs is_mask encap (((p.clear .encap).clear .vlan).clear .ethertype) with
      | .error e => .error e
      | .ok p => .ok (p, stores)

/-- `parse_vlan_from_nlattrs`: one tag, or two. -/
def parseVlanFromNlattrs (key : SwFlowKey) (p : ParsedAttrs) (is_mask : Bool) :
    Except Int (ParsedAttrs × KeyStores) :=
  match parseVlanFromNlattrs1 key p false is_mask with
  | .error e => .error e
  | .ok (p, stores) =>
      let key := key.afterStores is_mask stores
      if key.vlanTci &&& vlanTagPresent ≠ 0 then
        match parseVlanFromNlattrs1 key p true is_mask with
        | .error e => .error e
        | .ok (p, inner_stores) => .ok (p, stores ++ inner_stores)
      else .ok (p, stores)

/-! ## Tunnels -/

/-- `genev_tun_opt_from_nlattr`. -/
def genevTunOptFromNlattr (key : SwFlowKey) (data : List (BitVec 8)) (is_mask : Bool) :
    Except Int KeyStores :=
  if 255 < data.length ∨ data.length % 4 ≠ 0 then .error einval
  else if is_mask ∧ (key.u8 255).toNat ≠ data.length then .error einval
  else
    .ok [⟨255, [if is_mask then 0xFF else BitVec.ofNat 8 data.length]⟩, ⟨255 - data.length, data⟩]

/-- The loop of `vxlan_tun_opt_from_nlattr`. -/
def vxlanTunOptLoop : List Nlattr → List (BitVec 8) → Except Int (List (BitVec 8))
  | [], opts => .ok opts
  | nla :: rest, _ =>
      if ovsVxlanExtMax < nla.type ∨ !checkAttrLen nla.data.length (ovsVxlanExtKeyLens nla.type) ∨
          nla.type ≠ ovsVxlanExtGbp then .error einval
      else vxlanTunOptLoop rest (slice nla.data 0 4)

/-- `vxlan_tun_opt_from_nlattr`. -/
def vxlanTunOptFromNlattr (data : List (BitVec 8)) (is_mask : Bool) : Except Int KeyStores :=
  let (nlas, rem) := nlaForEachNested data
  match vxlanTunOptLoop nlas (zeros 4) with
  | .error e => .error e
  | .ok opts =>
      if rem ≠ 0 then .error einval
      else .ok [⟨255, [if is_mask then 0xFF else 4]⟩, ⟨251, slice opts 0 4⟩]

/-- The local variables of `ip_tun_from_nlattr`, and its stores so far. -/
structure TunState where
  ttl : Bool
  ipv4 : Bool
  ipv6 : Bool
  tun_flags : BitVec 16
  opts_seen : Bool
  stores : KeyStores

/-- One attribute of a tunnel. -/
def ipTunAttr (key : SwFlowKey) (is_mask : Bool) (s : TunState) (data : List (BitVec 8)) :
    OvsTunnelKeyAttr → Except Int TunState
  | .id => .ok { s with stores := s.stores ++ [⟨256, slice data 0 8⟩], tun_flags := s.tun_flags ||| 0x04 }
  | .ipv4Src => .ok { s with stores := s.stores ++ [⟨264, slice data 0 4⟩], ipv4 := true }
  | .ipv4Dst => .ok { s with stores := s.stores ++ [⟨268, slice data 0 4⟩], ipv4 := true }
  | .ipv6Src => .ok { s with stores := s.stores ++ [⟨264, slice data 0 16⟩], ipv6 := true }
  | .ipv6Dst => .ok { s with stores := s.stores ++ [⟨280, slice data 0 16⟩], ipv6 := true }
  | .tos => .ok { s with stores := s.stores ++ [⟨298, slice data 0 1⟩] }
  | .ttl => .ok { s with stores := s.stores ++ [⟨299, slice data 0 1⟩], ttl := true }
  | .dontFragment => .ok { s with tun_flags := s.tun_flags ||| 0x0100 }
  | .csum => .ok { s with tun_flags := s.tun_flags ||| 0x01 }
  | .tpSrc => .ok { s with stores := s.stores ++ [⟨304, slice data 0 2⟩] }
  | .tpDst => .ok { s with stores := s.stores ++ [⟨306, slice data 0 2⟩] }
  | .oam => .ok { s with tun_flags := s.tun_flags ||| 0x0200 }
  | .geneveOpts =>
      if s.opts_seen then .error einval
      else
        match genevTunOptFromNlattr key data is_mask with
        | .error e => .error e
        | .ok stores => .ok { s with
            stores := s.stores ++ stores, tun_flags := s.tun_flags ||| 0x0800, opts_seen := true }
  | .vxlanOpts =>
      if s.opts_seen then .error einval
      else
        match vxlanTunOptFromNlattr data is_mask with
        | .error e => .error e
        | .ok stores => .ok { s with
            stores := s.stores ++ stores, tun_flags := s.tun_flags ||| 0x1000, opts_seen := true }
  | .pad => .ok s

/-- The loop of `ip_tun_from_nlattr`. -/
def ipTunLoop (key : SwFlowKey) (is_mask : Bool) : List Nlattr → TunState → Except Int TunState
  | [], s => .ok s
  | nla :: rest, s =>
      match ovsTunnelKeyAttrs[nla.type]? with
      | none => .error einval
      | some attr =>
          if !checkAttrLen nla.data.length (ovsTunnelKeyLens attr) then .error einval
          else
            match ipTunAttr key is_mask s nla.data attr with
            | .error e => .error e
            | .ok s => ipTunLoop key is_mask rest s

/-- `ip_tun_from_nlattr`. -/
def ipTunFromNlattr (key : SwFlowKey) (data : List (BitVec 8)) (is_mask : Bool) :
    Except Int KeyStores :=
  let (nlas, rem) := nlaForEachNested data
  match ipTunLoop key is_mask nlas ⟨false, false, false, 0, false, []⟩ with
  | .error e => .error e
  | .ok s =>
      -- `AF_INET6` or `AF_INET`
      let tun_proto : BitVec 8 := if is_mask then 0xFF else if s.ipv6 then 10 else 2
      let stores := s.stores ++ [⟨296, be16 s.tun_flags⟩, ⟨323, [tun_proto]⟩]
      let key := key.afterStores is_mask stores
      if 0 < rem ∨ (s.ipv4 ∧ s.ipv6) then .error einval
      else if !is_mask && ((!s.ipv4 && !s.ipv6) || (s.ipv4 && key.u32 268 == 0) ||
          (s.ipv6 && (List.range 16).all (fun i => key.u8 (280 + i) == 0)) || !s.ttl) then .error einval
      else .ok stores

/-! ## Metadata -/

/-- `DP_MAX_PORTS`. -/
def dpMaxPorts : Nat := 65535

/-- `parse_eth_type_from_nlattrs`. -/
def parseEthTypeFromNlattrs (p : ParsedAttrs) (is_mask : Bool) : Except Int KeyStores :=
  if is_mask then .ok [⟨352, [0xFF, 0xFF]⟩]
  else if !ethProtoIs8023 (be16Of (p.data .ethertype) 0) then .error einval
  else .ok [⟨352, slice (p.data .ethertype) 0 2⟩]

/-- The attributes that `metadata_from_nlattrs` stores as they are, and where. -/
def metadataAttrStores (data : List (BitVec 8)) : OvsKeyAttr → KeyStores
  | .dpHash => [⟨324, slice data 0 4⟩]
  | .recircId => [⟨328, slice data 0 4⟩]
  | .priority => [⟨312, slice data 0 4⟩]
  | .skbMark => [⟨316, slice data 0 4⟩]
  | .ctState => [⟨354, slice data 0 1⟩]
  | .ctZone => [⟨360, slice data 0 2⟩]
  | .ctMark => [⟨440, slice data 0 4⟩]
  | .ctLabels => [⟨444, slice data 0 16⟩]
  | .ctOrigTupleIpv4 => [⟨376, slice data 0 4⟩, ⟨380, slice data 4 4⟩, ⟨436, slice data 8 2⟩,
      ⟨438, slice data 10 2⟩, ⟨355, slice data 12 1⟩]
  | .ctOrigTupleIpv6 => [⟨404, slice data 0 16⟩, ⟨420, slice data 16 16⟩, ⟨436, slice data 32 2⟩,
      ⟨438, slice data 34 2⟩, ⟨355, slice data 36 1⟩]
  | _ => []

/-- The attributes that the first part of `metadata_from_nlattrs` handles. -/
def phyAttrs : List OvsKeyAttr := [.dpHash, .recircId, .priority]

/-- `ovs_ct_verify`. -/
def ovsCtVerify (env : NetlinkEnv) (attr : OvsKeyAttr) : Bool :=
  attr == .ctState || ([OvsKeyAttr.ctZone, .ctMark, .ctLabels].contains attr && env.ct_config attr)

/-- Those of the second part, where connection tracking supports them. -/
def ctAttrs (env : NetlinkEnv) : List OvsKeyAttr :=
  [OvsKeyAttr.ctState, .ctZone, .ctMark, .ctLabels].filter (ovsCtVerify env)

/-- Those of the third part. -/
def ctTupleAttrs : List OvsKeyAttr := [.ctOrigTupleIpv4, .ctOrigTupleIpv6]

/-- All attributes that `metadata_from_nlattrs` handles, apart from the type of a packet without an
Ethernet header. -/
def metadataAttrs (env : NetlinkEnv) : List OvsKeyAttr :=
  phyAttrs ++ [.inPort, .skbMark, .tunnel] ++ ctAttrs env ++ ctTupleAttrs

/-- The stores for those attributes of a list that are there. -/
def attrStores (f : List (BitVec 8) → OvsKeyAttr → KeyStores) (p : ParsedAttrs) (l : List OvsKeyAttr) :
    KeyStores :=
  l.flatMap fun attr => if p.has attr then f (p.data attr) attr else []

/-- `OVS_KEY_ATTR_IN_PORT`, which is always matched exactly. -/
def inPortStores (p : ParsedAttrs) (is_mask : Bool) : Except Int KeyStores :=
  if p.has .inPort then
    if is_mask then .ok [⟨320, [0xFF, 0xFF]⟩]
    else if dpMaxPorts ≤ (le32At (p.data .inPort) 0).toNat then .error einval
    else .ok [⟨320, slice (p.data .inPort) 0 2⟩]
  else if is_mask then .ok []
  else .ok [⟨320, [0xFF, 0xFF]⟩]

/-- `OVS_KEY_ATTR_TUNNEL`. -/
def tunnelAttrStores (key : SwFlowKey) (p : ParsedAttrs) (is_mask : Bool) : Except Int KeyStores :=
  if p.has .tunnel then ipTunFromNlattr key (p.data .tunnel) is_mask else .ok []

/-- The Ethernet header that the attributes stand for. -/
def ParsedAttrs.macProto (p : ParsedAttrs) : BitVec 8 :=
  if !p.has .ethernet && p.has .ethertype then macProtoNone else macProtoEthernet

/-- `metadata_from_nlattrs`. The bits of the attributes that it has stored are cleared. -/
def metadataFromNlattrs (env : NetlinkEnv) (key : SwFlowKey) (p : ParsedAttrs) (is_mask : Bool) :
    Except Int (ParsedAttrs × KeyStores) := do
  let in_port ← inPortStores p is_mask
  let tunnel ← tunnelAttrStores key p is_mask
  -- `CT_SUPPORTED_MASK`
  if OvsKeyAttr.ctState ∈ ctAttrs env ∧ p.has .ctState ∧
      le32At (p.data .ctState) 0 &&& 0xFFFFFF00 ≠ 0 then .error einval
  else
    let stores := attrStores metadataAttrStores p phyAttrs ++ in_port ++
      attrStores metadataAttrStores p [.skbMark] ++ tunnel ++
      attrStores metadataAttrStores p (ctAttrs env) ++ attrStores metadataAttrStores p ctTupleAttrs
    let stores := stores ++ [⟨322, [if is_mask then 0xFF else p.macProto]⟩]
    let attrs := p.attrs \ (metadataAttrs env).toFinset
    if p.macProto = macProtoNone then do
      let eth_type ← parseEthTypeFromNlattrs p is_mask
      .ok (⟨attrs.erase .ethertype, p.a⟩, stores ++ eth_type)
    else .ok (⟨attrs, p.a⟩, stores)

/-! ## Headers -/

/-- Where `ovs_key_from_nlattrs` stores the attributes of headers. -/
def headerAttrStores (data : List (BitVec 8)) : OvsKeyAttr → KeyStores
  | .ipv4 => [⟨356, slice data 8 1⟩, ⟨357, slice data 9 1⟩, ⟨358, slice data 10 1⟩,
      ⟨359, slice data 11 1⟩, ⟨368, slice data 0 4⟩, ⟨372, slice data 4 4⟩]
  | .ipv6 => [⟨400, slice data 32 4⟩, ⟨356, slice data 36 1⟩, ⟨357, slice data 37 1⟩,
      ⟨358, slice data 38 1⟩, ⟨359, slice data 39 1⟩, ⟨368, slice data 0 16⟩, ⟨384, slice data 16 16⟩]
  | .arp => [⟨368, slice data 0 4⟩, ⟨372, slice data 4 4⟩, ⟨356, slice data 9 1⟩,
      ⟨376, slice data 10 6⟩, ⟨382, slice data 16 6⟩]
  | .mpls => [⟨356, slice data 0 4⟩]
  | .tcp | .udp | .sctp => [⟨362, slice data 0 2⟩, ⟨364, slice data 2 2⟩]
  | .tcpFlags => [⟨366, slice data 0 2⟩]
  | .icmp | .icmpv6 => [⟨362, 0 :: slice data 0 1⟩, ⟨364, 0 :: slice data 1 1⟩]
  | .nd => [⟨404, slice data 0 16⟩, ⟨420, slice data 16 6⟩, ⟨426, slice data 22 6⟩]
  | _ => []

/-- The attributes of headers, in the order in which they are stored. -/
def headerAttrs : List OvsKeyAttr :=
  [.ipv4, .ipv6, .arp, .mpls, .tcp, .tcpFlags, .udp, .sctp, .icmp, .icmpv6, .nd]

/-- The values that a key must not have: fragment types, flow labels and opcodes out of range. -/
def headerAttrOk (data : List (BitVec 8)) : OvsKeyAttr → Bool
  | .ipv4 => byteAt data 11 ≤ ovsFragTypeLater
  | .ipv6 => byteAt data 39 ≤ ovsFragTypeLater && (be16Of data 32 &&& 0xFFF0 == 0)
  | .arp => byteAt data 8 == 0
  | _ => true

/-- `OVS_KEY_ATTR_ETHERNET` and the type of a packet with an Ethernet header. -/
def ethFromNlattrs (key : SwFlowKey) (p : ParsedAttrs) (is_mask : Bool) :
    Except Int (ParsedAttrs × KeyStores) :=
  if p.has .ethernet then
    let eth := p.data .ethernet
    let eth_stores : KeyStores := [⟨332, slice eth 0 6⟩, ⟨338, slice eth 6 6⟩]
    let p := p.clear .ethernet
    if p.has .vlan then .error einval
    else if p.has .ethertype then do
      let eth_type ← parseEthTypeFromNlattrs p is_mask
      .ok (p.clear .ethertype, eth_stores ++ eth_type)
    else if is_mask then .ok (p, eth_stores)
    else .ok (p, eth_stores ++ [⟨352, be16 ethP8022⟩])
  else if key.ethType = 0 then .error einval
  else .ok (p, [])

/-- `ovs_key_from_nlattrs`. -/
def ovsKeyFromNlattrs (env : NetlinkEnv) (key : SwFlowKey) (p : ParsedAttrs) (is_mask : Bool) :
    Except Int KeyStores := do
  let (p, stores) ← metadataFromNlattrs env key p is_mask
  let (p, eth_stores) ← ethFromNlattrs (key.afterStores is_mask stores) p is_mask
  if !is_mask && headerAttrs.any (fun attr => p.has attr && !headerAttrOk (p.data attr) attr) then
    .error einval
  else if p.attrs \ headerAttrs.toFinset ≠ ∅ then .error einval
  else .ok (stores ++ eth_stores ++ attrStores headerAttrStores p headerAttrs)

/-! ## Validation -/

/-- The attributes of the transport header that goes with a protocol. -/
def transportAttrs (icmp_proto : BitVec 8) (icmp_attr : OvsKeyAttr) (proto : BitVec 8) : Finset OvsKeyAttr :=
  if proto = ipprotoUdp then {.udp}
  else if proto = ipprotoSctp then {.sctp}
  else if proto = ipprotoTcp then {.tcp, .tcpFlags}
  else if proto = icmp_proto then {icmp_attr}
  else ∅

/-- The attributes that a mask has only if the key is of the right kind. -/
def guardedAttrs : Finset OvsKeyAttr :=
  {.ipv4, .ctOrigTupleIpv4, .ipv6, .ctOrigTupleIpv6, .tcp, .tcpFlags, .udp, .sctp, .icmp, .icmpv6, .arp,
    .nd, .mpls}

/-- The part of `match_validate` that the type of the key selects: the attributes expected in the key,
those allowed in the mask, and those not allowed after all. The flags say whether the mask matches
the type, the protocol and the ICMPv6 type exactly. -/
def typeAttrs (key : SwFlowKey) (exact_type exact_proto exact_icmpv6 : Bool) :
    Finset OvsKeyAttr × Finset OvsKeyAttr × Finset OvsKeyAttr :=
  let eth_type := key.ethType
  if eth_type = ethPArp ∨ eth_type = ethPRarp then ({.arp}, if exact_type then {.arp} else ∅, ∅)
  else if ethPMpls eth_type then ({.mpls}, if exact_type then {.mpls} else ∅, ∅)
  else if eth_type = ethPIp then
    let transport := if key.ipFrag ≠ ovsFragTypeLater then
        transportAttrs ipprotoIcmp .icmp key.ipProto
      else ∅
    ({.ipv4} ∪ transport,
      (if exact_type then {.ipv4, .ctOrigTupleIpv4} else ∅) ∪ (if exact_proto then transport else ∅), ∅)
  else if eth_type = ethPIpv6 then
    let transport := if key.ipFrag ≠ ovsFragTypeLater then
        transportAttrs nexthdrIcmp .icmpv6 key.ipProto
      else ∅
    let nd := decide (key.ipFrag ≠ ovsFragTypeLater) && key.ipProto == nexthdrIcmp &&
      (key.be16 362 == 135 || key.be16 362 == 136)
    ({.ipv6} ∪ transport ∪ (if nd then {.nd} else ∅),
      (if exact_type then {.ipv6, .ctOrigTupleIpv6} else ∅) ∪ (if exact_proto then transport else ∅) ∪
        (if nd && exact_icmpv6 then {.nd} else ∅),
      if nd then {.ctOrigTupleIpv6} else ∅)
  else (∅, ∅, ∅)

/-- `match_validate`. -/
def matchValidate (key : SwFlowKey) (mask : Option SwFlowMask) (key_attrs mask_attrs : Finset OvsKeyAttr) :
    Bool :=
  let exact (off : Nat) (v : BitVec 16) : Bool := match mask with
    | none => false
    | some mask => mask.key.be16 off == v
  let exact_proto := match mask with
    | none => false
    | some mask => mask.key.ipProto == 0xFF
  let (key_expected, allowed, excluded) := typeAttrs key (exact 352 0xFFFF) exact_proto (exact 362 0xFF)
  let mask_allowed := ((key_attrs \ guardedAttrs) ∪ {.tunnel, .inPort, .ethertype} ∪ allowed) \ excluded
  decide (key_expected ⊆ key_attrs) && decide (mask_attrs ⊆ mask_allowed)

/-! ## The match -/

/-- The attribute stream that is parsed into the mask, and the stores made before it is. -/
def maskNlattrs (env : NetlinkEnv) (key : SwFlowKey) (nla_key : List (BitVec 8)) :
    Option (List (BitVec 8)) → Except Int (List (BitVec 8) × KeyStores)
  | some nla_mask => .ok (nla_mask, [])
  | none =>
      if !env.mask_alloc then .error enomem
      else
        .ok (maskSetNlattr env.beyond 0xFF nla_key,
          if key.u8 323 ≠ 0 then [⟨256, List.replicate 56 0xFF⟩] else [])

/-- The part of `ovs_nla_get_match` for the mask: the attributes seen and the stores. -/
def maskFromNlattrs (env : NetlinkEnv) (key : SwFlowKey) (a : OvsKeyAttr → Option (List (BitVec 8)))
    (nla_key : List (BitVec 8)) (nla_mask : Option (List (BitVec 8))) :
    Except Int (Finset OvsKeyAttr × KeyStores) := do
  let (nla_mask, stores) ← maskNlattrs env key nla_key nla_mask
  let p ← parseFlowNlattrs true nla_mask ⟨∅, a⟩
  let stores := stores ++ [⟨346, [0xFF, 0xFF]⟩, ⟨350, [0xFF, 0xFF]⟩]
  let (p, vlan_stores) ← parseVlanFromNlattrs key p true
  let key_stores ← ovsKeyFromNlattrs env key p true
  .ok (p.attrs, stores ++ vlan_stores ++ key_stores)

/-- The part of `ovs_nla_get_match` for the key: the attributes seen and the stores. -/
def keyFromNlattrs (env : NetlinkEnv) (nla_key : List (BitVec 8)) :
    Except Int (ParsedAttrs × KeyStores) := do
  let p ← parseFlowNlattrs false nla_key .empty
  let (p, vlan_stores) ← parseVlanFromNlattrs (fun _ => 0) p false
  let key_stores ← ovsKeyFromNlattrs env (SwFlowKey.store (fun _ => 0) vlan_stores) p false
  .ok (p, vlan_stores ++ key_stores)

/-- The mask of a match that has one, and the attributes seen. -/
def matchMask (env : NetlinkEnv) (has_mask : Bool) (key : SwFlowKey)
    (a : OvsKeyAttr → Option (List (BitVec 8))) (nla_key : List (BitVec 8))
    (nla_mask : Option (List (BitVec 8))) : Except Int (Finset OvsKeyAttr × Option SwFlowMask) :=
  if has_mask then do
    let (mask_attrs, stores) ← maskFromNlattrs env key a nla_key nla_mask
    .ok (mask_attrs, some (storesMask stores))
  else .ok (∅, none)

/-- `ovs_nla_get_match`, into a match whose key and mask are zeroed; without a mask if `has_mask` is
not set. -/
def ovsNlaGetMatch (env : NetlinkEnv) (has_mask : Bool) (nla_key : List (BitVec 8))
    (nla_mask : Option (List (BitVec 8))) : Except Int SwFlowMatch := do
  let (p, key_stores) ← keyFromNlattrs env nla_key
  let key := SwFlowKey.store (fun _ => 0) key_stores
  let (mask_attrs, mask) ← matchMask env has_mask key p.a nla_key nla_mask
  if !matchValidate key mask p.attrs mask_attrs then .error einval
  else .ok ⟨key, storesRange key_stores, mask⟩

end OvsDatapath.Flow
