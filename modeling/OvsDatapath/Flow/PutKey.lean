import OvsDatapath.Flow.Netlink

/-!
# Writing a flow key as attributes

`__ovs_nla_put_key` (`flow_netlink.c`) writes a flow key, or a mask, as netlink attributes. Which
attributes there are is decided by the key (`swkey`), and what they hold comes from `output`, which is
the key itself or the mask.

The attributes are modelled by their list, those of a nest by the stream that is their parent's data.
`nlaStream` lays a list out, with the padding that follows each attribute.
-/

namespace OvsDatapath.Flow

/-! ## Streams -/

/-- `nla_put`: an attribute of any length, as it is laid out in a stream. -/
def nlaPutAttr (a : Nlattr) : List (BitVec 8) :=
  le16 (BitVec.ofNat 16 (nlaHdrlen + a.data.length)) ++ le16 (BitVec.ofNat 16 a.type) ++ a.data ++
    List.replicate (nlaAlign a.data.length - a.data.length) 0

/-- Attributes one behind the other. -/
def nlaStream (attrs : List Nlattr) : List (BitVec 8) := attrs.flatMap nlaPutAttr

/-- `nla_total_size`. -/
def nlaTotalSize (payload : Nat) : Nat := nlaAlign (nlaHdrlen + payload)

/-- An attribute of a flow key. -/
def keyAttr (attr : OvsKeyAttr) (data : List (BitVec 8)) : Nlattr := ⟨ovsKeyAttrs.idxOf attr, data⟩

/-- An attribute of a tunnel. -/
def tunAttr (attr : OvsTunnelKeyAttr) (data : List (BitVec 8)) : Nlattr :=
  ⟨ovsTunnelKeyAttrs.idxOf attr, data⟩

/-- A number of bytes of a key. -/
def SwFlowKey.bytes (key : SwFlowKey) (off n : Nat) : List (BitVec 8) :=
  (List.range n).map fun i => key.u8 (off + i)

@[simp] theorem SwFlowKey.bytes_length (key : SwFlowKey) (off n : Nat) : (key.bytes off n).length = n := by
  rw [SwFlowKey.bytes, List.length_map, List.length_range]

/-- `ovs_key_mac_proto`, without the flag `SW_FLOW_KEY_INVALID`. -/
def SwFlowKey.ovsKeyMacProto (key : SwFlowKey) : BitVec 8 := key.macProto &&& 0x7F

/-! ## Tunnels -/

/-- `AF_INET`. -/
def afInet : BitVec 8 := 2

/-- `AF_INET6`. -/
def afInet6 : BitVec 8 := 10

/-- `vxlan_opt_to_nlattr`. -/
def vxlanOptToNlattr (tun_opts : List (BitVec 8)) : Nlattr :=
  tunAttr .vxlanOpts (nlaStream [⟨ovsVxlanExtGbp, slice tun_opts 0 4⟩])

/-- The options of a tunnel, at the end of `__ip_tun_to_nlattr`. -/
def tunOptsToNlattr (output : SwFlowKey) (tun_opts : List (BitVec 8)) : List Nlattr :=
  if tun_opts.length = 0 then []
  else if output.be16 296 &&& 0x0800 ≠ 0 then [tunAttr .geneveOpts tun_opts]
  else if output.be16 296 &&& 0x1000 ≠ 0 then [vxlanOptToNlattr tun_opts]
  else []

/-- The addresses of a tunnel, those that are not zero. -/
def tunAddrsToNlattr (output : SwFlowKey) (tun_proto : BitVec 8) : List Nlattr :=
  if tun_proto = afInet then
    (if output.u32 264 ≠ 0 then [tunAttr .ipv4Src (output.bytes 264 4)] else []) ++
    (if output.u32 268 ≠ 0 then [tunAttr .ipv4Dst (output.bytes 268 4)] else [])
  else if tun_proto = afInet6 then
    (if output.bytes 264 16 ≠ List.replicate 16 0 then [tunAttr .ipv6Src (output.bytes 264 16)] else []) ++
    (if output.bytes 280 16 ≠ List.replicate 16 0 then [tunAttr .ipv6Dst (output.bytes 280 16)] else [])
  else []

/-- `__ip_tun_to_nlattr`, of the tunnel key in `output`. Where the machine wants 64-bit numbers aligned,
`pad` says whether an empty attribute stands before the tunnel id for that. -/
def ipTunToNlattr1 (pad : Bool) (output : SwFlowKey) (tun_opts : List (BitVec 8)) (tun_proto : BitVec 8) :
    List Nlattr :=
  let tun_flags := output.be16 296
  (if tun_flags &&& 0x04 ≠ 0 then
      (if pad then [tunAttr .pad []] else []) ++ [tunAttr .id (output.bytes 256 8)]
    else []) ++
  tunAddrsToNlattr output tun_proto ++
  (if output.u8 298 ≠ 0 then [tunAttr .tos (output.bytes 298 1)] else []) ++
  [tunAttr .ttl (output.bytes 299 1)] ++
  (if tun_flags &&& 0x0100 ≠ 0 then [tunAttr .dontFragment []] else []) ++
  (if tun_flags &&& 0x01 ≠ 0 then [tunAttr .csum []] else []) ++
  (if output.u16 304 ≠ 0 then [tunAttr .tpSrc (output.bytes 304 2)] else []) ++
  (if output.u16 306 ≠ 0 then [tunAttr .tpDst (output.bytes 306 2)] else []) ++
  (if tun_flags &&& 0x0200 ≠ 0 then [tunAttr .oam []] else []) ++
  tunOptsToNlattr output tun_opts

/-- `ip_tun_to_nlattr`. -/
def ipTunToNlattr (pad : Bool) (output : SwFlowKey) (tun_opts : List (BitVec 8)) (tun_proto : BitVec 8) :
    Nlattr :=
  keyAttr .tunnel (nlaStream (ipTunToNlattr1 pad output tun_opts tun_proto))

/-- `TUN_METADATA_OPTS`, as many bytes as `tun_opts_len` says. -/
def SwFlowKey.tunMetadataOpts (key : SwFlowKey) (opts_len : Nat) : List (BitVec 8) :=
  key.bytes (255 - opts_len) opts_len

/-! ## Metadata -/

/-- `DP_MAX_PORTS`, the number of no port. -/
def inPortNone : BitVec 16 := 0xFFFF

/-- `OVS_KEY_ATTR_IN_PORT`. -/
def putInPort (swkey output : SwFlowKey) (is_mask : Bool) : List Nlattr :=
  if swkey.u16 320 = inPortNone then
    if is_mask ∧ output.u16 320 = 0xFFFF then [keyAttr .inPort [0xFF, 0xFF, 0xFF, 0xFF]] else []
  else
    let upper_u16 : BitVec 8 := if is_mask then 0xFF else 0
    [keyAttr .inPort (output.bytes 320 2 ++ [upper_u16, upper_u16])]

/-- The original direction of the connection, at the end of `ovs_ct_put_key`. -/
def putCtOrigTuple (swkey output : SwFlowKey) : List Nlattr :=
  if swkey.u8 355 = 0 then []
  else if swkey.ethType = ethPIp then
    [keyAttr .ctOrigTupleIpv4 (output.bytes 376 4 ++ output.bytes 380 4 ++ output.bytes 436 4 ++
      output.bytes 355 1 ++ zeros 3)]
  else if swkey.ethType = ethPIpv6 then
    [keyAttr .ctOrigTupleIpv6 (output.bytes 404 16 ++ output.bytes 420 16 ++ output.bytes 436 4 ++
      output.bytes 355 1 ++ zeros 3)]
  else []

/-- `ovs_ct_put_key`; `config` tells which of the attributes have been configured. -/
def ovsCtPutKey (config : OvsKeyAttr → Bool) (swkey output : SwFlowKey) : List Nlattr :=
  [keyAttr .ctState (output.bytes 354 1 ++ zeros 3)] ++
  (if config .ctZone then [keyAttr .ctZone (output.bytes 360 2)] else []) ++
  (if config .ctMark then [keyAttr .ctMark (output.bytes 440 4)] else []) ++
  (if config .ctLabels then [keyAttr .ctLabels (output.bytes 444 16)] else []) ++
  putCtOrigTuple swkey output

/-! ## Headers -/

/-- `ovs_nla_put_vlan`, of the tag at an offset. -/
def ovsNlaPutVlan (output : SwFlowKey) (off : Nat) (is_mask : Bool) : List Nlattr :=
  [keyAttr .ethertype (if is_mask then [0xFF, 0xFF] else output.bytes off 2),
    keyAttr .vlan (output.bytes (off + 2) 2)]

/-- The attribute of the network header. -/
def putNetwork (swkey output : SwFlowKey) : List Nlattr :=
  if swkey.ethType = ethPIp then
    [keyAttr .ipv4 (output.bytes 368 4 ++ output.bytes 372 4 ++ output.bytes 356 4)]
  else if swkey.ethType = ethPIpv6 then
    [keyAttr .ipv6 (output.bytes 368 16 ++ output.bytes 384 16 ++ output.bytes 400 4 ++ output.bytes 356 4)]
  else if swkey.ethType = ethPArp ∨ swkey.ethType = ethPRarp then
    [keyAttr .arp (output.bytes 368 4 ++ output.bytes 372 4 ++ [0, output.ipProto] ++
      output.bytes 376 6 ++ output.bytes 382 6 ++ zeros 2)]
  else if ethPMpls swkey.ethType then [keyAttr .mpls (output.bytes 356 4)]
  else []

/-- The attribute for an ICMP or ICMPv6 type and code. -/
def putIcmp (attr : OvsKeyAttr) (output : SwFlowKey) : Nlattr := keyAttr attr [output.u8 363, output.u8 365]

/-- The attributes of the transport header. Whether there is one for neighbour discovery is read from
the type that has just been written. -/
def putTransport (swkey output : SwFlowKey) : List Nlattr :=
  if (swkey.ethType = ethPIp ∨ swkey.ethType = ethPIpv6) ∧ swkey.ipFrag ≠ ovsFragTypeLater then
    if swkey.ipProto = ipprotoTcp then
      [keyAttr .tcp (output.bytes 362 4), keyAttr .tcpFlags (output.bytes 366 2)]
    else if swkey.ipProto = ipprotoUdp then [keyAttr .udp (output.bytes 362 4)]
    else if swkey.ipProto = ipprotoSctp then [keyAttr .sctp (output.bytes 362 4)]
    else if swkey.ethType = ethPIp ∧ swkey.ipProto = ipprotoIcmp then [putIcmp .icmp output]
    else if swkey.ethType = ethPIpv6 ∧ swkey.ipProto = nexthdrIcmp then
      putIcmp .icmpv6 output ::
        if output.u8 363 = 135 ∨ output.u8 363 = 136 then
          [keyAttr .nd (output.bytes 404 16 ++ output.bytes 420 6 ++ output.bytes 426 6)]
        else []
    else []
  else []

/-- What follows the tags: the type, and the headers that it stands for. -/
def putUntagged (swkey output : SwFlowKey) (is_mask : Bool) : List Nlattr :=
  if swkey.ovsKeyMacProto = macProtoEthernet ∧ swkey.ethType = ethP8022 then
    -- 802.2 is told by the lack of a type
    if is_mask ∧ output.ethType ≠ 0 then [keyAttr .ethertype (output.bytes 352 2)] else []
  else
    keyAttr .ethertype (output.bytes 352 2) ::
      if ethTypeVlan swkey.ethType then [] else putNetwork swkey output ++ putTransport swkey output

/-- The tags of a frame, and what is nested in them. A frame that ends within its tags has their type. -/
def putTagged (swkey output : SwFlowKey) (is_mask : Bool) : List Nlattr :=
  let truncated := ethTypeVlan swkey.ethType
  if swkey.vlanTci ≠ 0 ∨ truncated then
    let encap :=
      if swkey.vlanTci = 0 then []
      else if swkey.cvlanTci ≠ 0 ∨ truncated then
        let in_encap := if swkey.cvlanTci = 0 then [] else putUntagged swkey output is_mask
        ovsNlaPutVlan output 348 is_mask ++ [keyAttr .encap (nlaStream in_encap)]
      else putUntagged swkey output is_mask
    ovsNlaPutVlan output 344 is_mask ++ [keyAttr .encap (nlaStream encap)]
  else putUntagged swkey output is_mask

/-- What the encoder gets from outside: what has been configured, and whether a tunnel id has an empty
attribute before it. -/
structure PutEnv where
  ct_config : OvsKeyAttr → Bool
  pad : Bool

/-- The attributes of metadata in `__ovs_nla_put_key`. -/
def putMetadata (env : PutEnv) (swkey output : SwFlowKey) (is_mask : Bool) : List Nlattr :=
  [keyAttr .recircId (output.bytes 328 4), keyAttr .dpHash (output.bytes 324 4),
    keyAttr .priority (output.bytes 312 4)] ++
  (if swkey.u8 323 ≠ 0 ∨ is_mask then
    [ipTunToNlattr env.pad output (output.tunMetadataOpts (swkey.u8 255).toNat) (swkey.u8 323)] else []) ++
  putInPort swkey output is_mask ++ [keyAttr .skbMark (output.bytes 316 4)] ++
  ovsCtPutKey env.ct_config swkey output

/-- `__ovs_nla_put_key`. -/
def ovsNlaPutKey1 (env : PutEnv) (swkey output : SwFlowKey) (is_mask : Bool) : List Nlattr :=
  putMetadata env swkey output is_mask ++
  if swkey.ovsKeyMacProto = macProtoEthernet then
    keyAttr .ethernet (output.bytes 332 6 ++ output.bytes 338 6) :: putTagged swkey output is_mask
  else putUntagged swkey output is_mask

/-- `ovs_nla_put_key`: the data of the attribute that it writes. -/
def ovsNlaPutKey (env : PutEnv) (swkey output : SwFlowKey) (is_mask : Bool) : List (BitVec 8) :=
  nlaStream (ovsNlaPutKey1 env swkey output is_mask)

/-! ## Lengths -/

/-- The bytes of a list of attributes in a stream. -/
def attrsSize (attrs : List Nlattr) : Nat := (attrs.map fun a => nlaTotalSize a.data.length).sum

@[simp] theorem attrsSize_nil : attrsSize [] = 0 := rfl

@[simp] theorem attrsSize_cons (a : Nlattr) (attrs : List Nlattr) :
    attrsSize (a :: attrs) = nlaTotalSize a.data.length + attrsSize attrs := rfl

@[simp] theorem attrsSize_append (attrs attrs' : List Nlattr) :
    attrsSize (attrs ++ attrs') = attrsSize attrs + attrsSize attrs' := by
  rw [attrsSize, List.map_append, List.sum_append]
  rfl

theorem nlaPutAttr_length (a : Nlattr) : (nlaPutAttr a).length = nlaTotalSize a.data.length := by
  simp only [nlaPutAttr, List.length_append, le16_length, List.length_replicate, nlaTotalSize, nlaAlign,
    nlaHdrlen]
  omega

@[simp] theorem nlaStream_length (attrs : List Nlattr) : (nlaStream attrs).length = attrsSize attrs := by
  induction attrs with
  | nil => rfl
  | cons a attrs ih =>
      rw [nlaStream, List.flatMap_cons, List.length_append, nlaPutAttr_length, attrsSize_cons]
      exact congrArg _ ih

theorem attrsSize_mod (attrs : List Nlattr) : attrsSize attrs % 4 = 0 := by
  induction attrs with
  | nil => rfl
  | cons a attrs ih =>
      rw [attrsSize_cons, nlaTotalSize, nlaAlign]
      omega

/-- A nest takes a header more than what is in it. -/
theorem nlaTotalSize_attrsSize (attrs : List Nlattr) :
    nlaTotalSize (attrsSize attrs) = nlaTotalSize 0 + attrsSize attrs := by
  have := attrsSize_mod attrs
  unfold nlaTotalSize nlaAlign nlaHdrlen
  omega

@[simp] theorem keyAttr_data (attr : OvsKeyAttr) (data : List (BitVec 8)) : (keyAttr attr data).data = data :=
  rfl

@[simp] theorem tunAttr_data (attr : OvsTunnelKeyAttr) (data : List (BitVec 8)) :
    (tunAttr attr data).data = data := rfl

end OvsDatapath.Flow
