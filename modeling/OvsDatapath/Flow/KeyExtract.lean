import OvsDatapath.Flow.Key
import OvsDatapath.Flow.Skbuff
import OvsDatapath.Lib.Stores

/-!
# Extracting the key of a packet

`key_extract` (`flow.c`) walks down the headers of a packet and stores what it finds into a flow key.
It returns from many places, and each has stored into a different part of the key: the rest keeps
what was in the buffer before. The model returns the stores, in their order, next to the error and
the packet, whose header offsets it sets.

`ovs_flow_key_extract` adds the metadata of a received packet, and `ovs_ct_fill_key` the state of its
connection. The latter reads the key once, to tell neighbour discovery from other ICMPv6 packets
(`sw_flow_key_is_nd`), and so is a function of the key.
-/

namespace OvsDatapath.Flow

open OvsDatapath.Lib

/-- Stores into a flow key. -/
abbrev KeyStores := List (Store (BitVec 8))

/-- The key after the stores. -/
def SwFlowKey.store (key : SwFlowKey) (stores : KeyStores) : SwFlowKey :=
  overlay (fun j : Fin swFlowKeySize => stored stores j) key

theorem SwFlowKey.store_store (key : SwFlowKey) (stores stores' : KeyStores) :
    (key.store stores).store stores' = key.store (stores ++ stores') := by
  funext j
  unfold SwFlowKey.store overlay
  dsimp only
  rw [stored_append]
  cases stored stores' j <;> rfl

/-- `memset` to zero. -/
def zeros (n : Nat) : List (BitVec 8) := List.replicate n 0

@[simp] theorem zeros_length (n : Nat) : (zeros n).length = n := List.length_replicate

/-! ## Constants -/

/-- `MAC_PROTO_NONE`. -/
def macProtoNone : BitVec 8 := 0

/-- `MAC_PROTO_ETHERNET`. -/
def macProtoEthernet : BitVec 8 := 1

/-- `ETH_P_IP`. -/
def ethPIp : BitVec 16 := 0x0800

/-- `ETH_P_ARP`. -/
def ethPArp : BitVec 16 := 0x0806

/-- `ETH_P_RARP`. -/
def ethPRarp : BitVec 16 := 0x8035

/-- `ETH_P_IPV6`. -/
def ethPIpv6 : BitVec 16 := 0x86DD

/-- `ETH_P_802_2`. -/
def ethP8022 : BitVec 16 := 0x0004

/-- `ETH_P_TEB`. -/
def ethPTeb : BitVec 16 := 0x6558

/-- `eth_proto_is_802_3`. -/
def ethProtoIs8023 (proto : BitVec 16) : Bool := proto ≥ 0x0600

/-- `eth_p_mpls`. -/
def ethPMpls (eth_type : BitVec 16) : Bool := eth_type == 0x8847 || eth_type == 0x8848

/-- `OVS_FRAG_TYPE_NONE`. -/
def ovsFragTypeNone : BitVec 8 := 0

/-- `OVS_FRAG_TYPE_FIRST`. -/
def ovsFragTypeFirst : BitVec 8 := 1

/-- `OVS_FRAG_TYPE_LATER`. -/
def ovsFragTypeLater : BitVec 8 := 2

/-- `IPPROTO_ICMP`. -/
def ipprotoIcmp : BitVec 8 := 1

/-- `IPPROTO_TCP`. -/
def ipprotoTcp : BitVec 8 := 6

/-- `IPPROTO_UDP`. -/
def ipprotoUdp : BitVec 8 := 17

/-- `IPPROTO_SCTP`. -/
def ipprotoSctp : BitVec 8 := 132

/-- `NEXTHDR_ICMP`. -/
def nexthdrIcmp : BitVec 8 := 58

/-- `NEXTHDR_NONE`. -/
def nexthdrNone : BitVec 8 := 59

/-- `MPLS_HLEN`. -/
def mplsHlen : Nat := 4

/-! ## The link layer -/

/-- `struct vlan_head`. -/
structure VlanHead where
  tpid : BitVec 16
  tci : BitVec 16

/-- `parse_vlan_tag`, with the packet data at `pos`: the result, the packet, the new position and
the tag, if one was found. -/
def parseVlanTag (env : SkbEnv) (skb : SkBuff) (pos : Nat) (untag_vlan : Bool) :
    Int × SkBuff × Nat × Option VlanHead :=
  if !ethTypeVlan (skb.be16At pos) then (0, skb, pos, none)
  else if skb.len < pos + 6 then (0, skb, pos, none)
  else if !skb.pskbMayPull env (pos + 6) then (enomem, skb, pos, none)
  else
    let tag : VlanHead := ⟨skb.be16At pos, skb.be16At (pos + 2) ||| vlanTagPresent⟩
    if untag_vlan then
      match skbVlanPopHeader env skb with
      | (0, skb, tci) => (1, skb.vlanHwaccelPutTag tag.tpid tci, pos, some tag)
      | (err, skb, _) => (err, skb, pos, some tag)
    else (1, skb, pos + 4, some tag)

/-- The stores of a tag into `key->eth.vlan` or `key->eth.cvlan`. -/
def vlanStores (off : Nat) : Option VlanHead → KeyStores
  | none => []
  | some tag => [⟨off + 2, be16 tag.tci⟩, ⟨off, be16 tag.tpid⟩]

/-- `clear_vlan`. -/
def clearVlan : KeyStores := [⟨346, zeros 2⟩, ⟨344, zeros 2⟩, ⟨350, zeros 2⟩, ⟨348, zeros 2⟩]

/-- `parse_vlan`: the result, the packet, the new position, the stores and the inner tag. -/
def parseVlan (env : SkbEnv) (skb : SkBuff) (pos : Nat) :
    Int × SkBuff × Nat × KeyStores × Option VlanHead :=
  let (res, skb, pos, vlan) :=
    if skb.vlanTagIsPresent then (1, skb, pos, some (VlanHead.mk skb.vlan_proto skb.vlan_tci))
    else parseVlanTag env skb pos true
  let stores := clearVlan ++ vlanStores 344 vlan
  if res ≤ 0 then (res, skb, pos, stores, none)
  else
    let (res, skb, pos, cvlan) := parseVlanTag env skb pos false
    let stores := stores ++ vlanStores 348 cvlan
    if res ≤ 0 then (res, skb, pos, stores, cvlan) else (0, skb, pos, stores, cvlan)

/-- `parse_ethertype`: the type, and the new position. -/
def parseEthertype (env : SkbEnv) (skb : SkBuff) (pos : Nat) : BitVec 16 × Nat :=
  let proto := skb.be16At pos
  let pos := pos + 2
  if ethProtoIs8023 proto then (proto, pos)
  else if skb.len < pos + 8 then (ethP8022, pos)
  else if !skb.pskbMayPull env (pos + 8) then (0, pos)
  -- `LLC_SAP_SNAP` twice, and no vendor
  else if skb.u8 pos ≠ 0xAA ∨ skb.u8 (pos + 1) ≠ 0xAA ∨
      (skb.u8 (pos + 3) ||| skb.u8 (pos + 4) ||| skb.u8 (pos + 5)) ≠ 0 then (ethP8022, pos)
  else
    let ethertype := skb.be16At (pos + 6)
    (if ethProtoIs8023 ethertype then ethertype else ethP8022, pos + 8)

/-- The part of `key_extract` above the network layer: the error, the packet, its type and the
stores. The headers are pulled and pushed again, so what is left is the offset of the network
header. -/
def extractLinkLayer (env : SkbEnv) (skb : SkBuff) (mac_proto : BitVec 8) :
    Int × SkBuff × BitVec 16 × KeyStores :=
  let stores := ⟨366, zeros 2⟩ :: clearVlan
  if mac_proto = macProtoNone then
    if ethTypeVlan skb.protocol then (einval, skb, 0, stores)
    else
      (0, { skb with network_header := 0, mac_len := 0 }, skb.protocol,
        stores ++ [⟨352, be16 skb.protocol⟩])
  else
    let stores := stores ++ [⟨332, skb.bytes 6 6⟩, ⟨338, skb.bytes 0 6⟩]
    let (res, skb, pos, vlan_stores, cvlan) := parseVlan env skb 12
    let stores := stores ++ vlan_stores
    if res ≠ 0 then (enomem, skb, 0, stores)
    else
      let (eth_type, pos) := parseEthertype env skb pos
      let stores := stores ++ [⟨352, be16 eth_type⟩]
      if eth_type = 0 then (enomem, skb, 0, stores)
      else
        -- `skb_vlan_pop` will look at the type of a second tag
        let protocol := match cvlan with
          | some tag => tag.tpid
          | none => eth_type
        (0, { skb with protocol := protocol, network_header := pos, mac_len := pos }, eth_type, stores)

/-! ## The network and the transport layer -/

/-- `check_header`. -/
def checkHeader (env : SkbEnv) (skb : SkBuff) (len : Nat) : Int :=
  if skb.len < len then einval else if !skb.pskbMayPull env len then enomem else 0

/-- `check_iphdr`: the error, and the packet with the transport header set. -/
def checkIphdr (env : SkbEnv) (skb : SkBuff) : Int × SkBuff :=
  let nh_ofs := skb.network_header
  let err := checkHeader env skb (nh_ofs + 20)
  if err ≠ 0 then (err, skb)
  else
    let ip_len := (skb.u8 nh_ofs &&& 0x0F).toNat * 4
    if ip_len < 20 ∨ skb.len < nh_ofs + ip_len then (einval, skb)
    else (0, { skb with transport_header := nh_ofs + ip_len })

/-- `tcphdr_ok`. -/
def tcphdrOk (env : SkbEnv) (skb : SkBuff) : Bool :=
  let th_ofs := skb.transport_header
  let tcp_len := (skb.u8 (th_ofs + 12) >>> 4).toNat * 4
  skb.pskbMayPull env (th_ofs + 20) && decide (20 ≤ tcp_len) && decide (th_ofs + tcp_len ≤ skb.len)

/-- `udphdr_ok`, `sctphdr_ok`, `icmphdr_ok` and `icmp6hdr_ok`: a transport header of a given size. -/
def transportHdrOk (env : SkbEnv) (skb : SkBuff) (size : Nat) : Bool :=
  skb.pskbMayPull env (skb.transport_header + size)

/-- `udphdr_ok`. -/
def udphdrOk (env : SkbEnv) (skb : SkBuff) : Bool := transportHdrOk env skb 8

/-- `sctphdr_ok`. -/
def sctphdrOk (env : SkbEnv) (skb : SkBuff) : Bool := transportHdrOk env skb 12

/-- `icmphdr_ok`. -/
def icmphdrOk (env : SkbEnv) (skb : SkBuff) : Bool := transportHdrOk env skb 8

/-- `icmp6hdr_ok`. -/
def icmp6hdrOk (env : SkbEnv) (skb : SkBuff) : Bool := transportHdrOk env skb 8

/-- `memset` of `key->tp`. -/
def clearTp : KeyStores := [⟨362, zeros 6⟩]

/-- The two ports at the start of a transport header, or the ICMP type and code as ports. -/
def portStores (skb : SkBuff) : KeyStores :=
  [⟨362, skb.bytes skb.transport_header 2⟩, ⟨364, skb.bytes (skb.transport_header + 2) 2⟩]

/-- The ICMP type and code, as 16-bit fields. -/
def icmpStores (skb : SkBuff) : KeyStores :=
  [⟨362, 0 :: skb.bytes skb.transport_header 1⟩, ⟨364, 0 :: skb.bytes (skb.transport_header + 1) 1⟩]

/-- The stores for TCP. -/
def tcpStores (env : SkbEnv) (skb : SkBuff) : KeyStores :=
  if tcphdrOk env skb then
    portStores skb ++
      [⟨366, [skb.u8 (skb.transport_header + 12) &&& 0x0F, skb.u8 (skb.transport_header + 13)]⟩]
  else clearTp

/-- The stores for UDP. -/
def udpStores (env : SkbEnv) (skb : SkBuff) : KeyStores :=
  if udphdrOk env skb then portStores skb else clearTp

/-- The stores for SCTP. -/
def sctpStores (env : SkbEnv) (skb : SkBuff) : KeyStores :=
  if sctphdrOk env skb then portStores skb else clearTp

/-- `IP_OFFSET`. -/
def ipOffset : BitVec 16 := 0x1FFF

/-- `IP_MF`. -/
def ipMf : BitVec 16 := 0x2000

/-- The stores for an IPv4 header. -/
def ipHeaderStores (skb : SkBuff) (nh : Nat) (frag : BitVec 8) : KeyStores :=
  [⟨368, skb.bytes (nh + 12) 4⟩, ⟨372, skb.bytes (nh + 16) 4⟩, ⟨356, skb.bytes (nh + 9) 1⟩,
    ⟨357, skb.bytes (nh + 1) 1⟩, ⟨358, skb.bytes (nh + 8) 1⟩, ⟨359, [frag]⟩]

/-- `key_extract` for `ETH_P_IP`. -/
def extractIp (env : SkbEnv) (skb : SkBuff) : Int × SkBuff × KeyStores :=
  let (error, skb) := checkIphdr env skb
  if error ≠ 0 then
    let stores := [⟨356, zeros 4⟩, ⟨368, zeros 20⟩]
    if error = einval then (0, { skb with transport_header := skb.network_header }, stores)
    else (error, skb, stores)
  else
    let nh := skb.network_header
    let proto := skb.u8 (nh + 9)
    let frag_off := skb.be16At (nh + 6)
    if frag_off &&& ipOffset ≠ 0 then (0, skb, ipHeaderStores skb nh ovsFragTypeLater)
    else
      let frag := if frag_off &&& ipMf ≠ 0 ∨ skb.gso_udp then ovsFragTypeFirst else ovsFragTypeNone
      let stores := ipHeaderStores skb nh frag
      if proto = ipprotoTcp then (0, skb, stores ++ tcpStores env skb)
      else if proto = ipprotoUdp then (0, skb, stores ++ udpStores env skb)
      else if proto = ipprotoSctp then (0, skb, stores ++ sctpStores env skb)
      else if proto = ipprotoIcmp then
        (0, skb, stores ++ if icmphdrOk env skb then icmpStores skb else clearTp)
      else (0, skb, stores)

/-- `arphdr_ok`. -/
def arphdrOk (env : SkbEnv) (skb : SkBuff) : Bool := skb.pskbMayPull env (skb.network_header + 28)

/-- `key_extract` for `ETH_P_ARP` and `ETH_P_RARP`. -/
def extractArp (env : SkbEnv) (skb : SkBuff) : KeyStores :=
  let arp := skb.network_header
  if arphdrOk env skb && skb.be16At arp == 1 && skb.be16At (arp + 2) == ethPIp &&
      skb.u8 (arp + 4) == 6 && skb.u8 (arp + 5) == 4 then
    -- only the lower 8 bits of the opcode fit
    let op := if skb.u8 (arp + 6) = 0 then skb.u8 (arp + 7) else 0
    [⟨356, [op]⟩, ⟨368, skb.bytes (arp + 14) 4⟩, ⟨372, skb.bytes (arp + 24) 4⟩,
      ⟨376, skb.bytes (arp + 8) 6⟩, ⟨382, skb.bytes (arp + 18) 6⟩]
  else [⟨356, zeros 4⟩, ⟨368, zeros 20⟩]

/-- The loop over the label stack: the packet with the inner network header at its end. The stack
ends at a label with the S bit, or where the packet does. -/
def mplsStack (env : SkbEnv) : Nat → Nat → SkBuff → SkBuff
  | 0, _, skb => skb
  | fuel + 1, stack_len, skb =>
      if checkHeader env skb (skb.mac_len + stack_len) ≠ 0 then skb
      else
        let s_bit := skb.u8 (skb.inner_network_header + 2) &&& 1
        let skb := { skb with inner_network_header := skb.mac_len + stack_len }
        if s_bit ≠ 0 then skb else mplsStack env fuel (stack_len + mplsHlen) skb

/-- `key_extract` for MPLS. Each round of the loop needs four more bytes of the packet. -/
def extractMpls (env : SkbEnv) (skb : SkBuff) : SkBuff × KeyStores :=
  let skb := { skb with inner_network_header := skb.mac_len }
  let stores := if checkHeader env skb (skb.mac_len + mplsHlen) ≠ 0 then []
    else [⟨356, skb.bytes skb.inner_network_header 4⟩]
  (mplsStack env (skb.len + 1) mplsHlen skb, stores)

/-- The type that `parse_ipv6hdr` gives to a fragment. -/
def ipv6FragType (frag_off : BitVec 16) : BitVec 8 :=
  if frag_off ≠ 0 then if frag_off &&& ~~~0x7 ≠ 0 then ovsFragTypeLater else ovsFragTypeFirst
  else ovsFragTypeNone

/-- The stores of `parse_ipv6hdr` before the end of the extension headers is known. -/
def ipv6HeaderStores (skb : SkBuff) (nh_ofs : Nat) (frag : BitVec 8) : KeyStores :=
  [⟨356, [nexthdrNone]⟩, ⟨357, [(skb.be16At nh_ofs >>> 4).setWidth 8]⟩,
    ⟨358, skb.bytes (nh_ofs + 7) 1⟩,
    ⟨400, [0, skb.u8 (nh_ofs + 1) &&& 0x0F, skb.u8 (nh_ofs + 2), skb.u8 (nh_ofs + 3)]⟩,
    ⟨368, skb.bytes (nh_ofs + 8) 16⟩, ⟨384, skb.bytes (nh_ofs + 24) 16⟩, ⟨359, [frag]⟩]

/-- `parse_ipv6hdr`: the length of the headers or an error, the packet, the stores, and what has been
stored as the protocol and the fragment type. -/
def parseIpv6hdr (env : SkbEnv) (skb : SkBuff) : Int × SkBuff × KeyStores × BitVec 8 × BitVec 8 :=
  let nh_ofs := skb.network_header
  let err := checkHeader env skb (nh_ofs + 40)
  if err ≠ 0 then (err, skb, [], 0, 0)
  else
    match env.ipv6_skip_exthdr skb.data (nh_ofs + 40) (skb.u8 (nh_ofs + 6)) with
    | (payload_ofs, nexthdr, frag_off) =>
        let frag := ipv6FragType frag_off
        let stores := ipv6HeaderStores skb nh_ofs frag
        if payload_ofs < 0 then (eproto, skb, stores, nexthdrNone, frag)
        else
          (payload_ofs - nh_ofs, { skb with transport_header := payload_ofs.toNat },
            stores ++ [⟨356, [nexthdr]⟩], nexthdr, frag)

/-- The loop over the options of a neighbour discovery message, from `offset` on with `icmp_len`
bytes left: the two link layer addresses, or nothing if one is given twice. -/
def ndOptions (skb : SkBuff) : Nat → Nat → Nat → List (BitVec 8) → List (BitVec 8) →
    Option (List (BitVec 8) × List (BitVec 8))
  | 0, _, _, sll, tll => some (sll, tll)
  | fuel + 1, offset, icmp_len, sll, tll =>
      if icmp_len < 8 then some (sll, tll)
      else
        let opt_type := skb.u8 offset
        let opt_len := (skb.u8 (offset + 1)).toNat * 8
        if opt_len = 0 ∨ icmp_len < opt_len then some (sll, tll)
        else if opt_type = 1 ∧ opt_len = 8 then
          if sll ≠ zeros 6 then none
          else ndOptions skb fuel (offset + opt_len) (icmp_len - opt_len) (skb.bytes (offset + 2) 6) tll
        else if opt_type = 2 ∧ opt_len = 8 then
          if tll ≠ zeros 6 then none
          else ndOptions skb fuel (offset + opt_len) (icmp_len - opt_len) sll (skb.bytes (offset + 2) 6)
        else ndOptions skb fuel (offset + opt_len) (icmp_len - opt_len) sll tll

/-- `parse_icmpv6`: the error and the stores. -/
def parseIcmpv6 (env : SkbEnv) (skb : SkBuff) : Int × KeyStores :=
  let th := skb.transport_header
  let stores := icmpStores skb ++ [⟨404, zeros 28⟩]
  -- neighbour solicitation and advertisement
  if skb.u8 (th + 1) = 0 ∧ (skb.u8 th = 135 ∨ skb.u8 th = 136) then
    let icmp_len := skb.len - th
    if icmp_len < 24 then (0, stores)
    else if !env.linearize then (enomem, stores)
    else
      let stores := stores ++ [⟨404, skb.bytes (th + 8) 16⟩]
      match ndOptions skb icmp_len (th + 24) (icmp_len - 24) (zeros 6) (zeros 6) with
      | some (sll, tll) => (0, stores ++ [⟨420, sll⟩, ⟨426, tll⟩])
      | none => (0, stores ++ [⟨404, zeros 16⟩, ⟨420, zeros 6⟩, ⟨426, zeros 6⟩])
  else (0, stores)

/-- `key_extract` for `ETH_P_IPV6`. -/
def extractIpv6 (env : SkbEnv) (skb : SkBuff) : Int × SkBuff × KeyStores :=
  let (nh_len, skb, stores, proto, frag) := parseIpv6hdr env skb
  if nh_len < 0 then
    if nh_len = einval then
      (0, { skb with transport_header := skb.network_header },
        stores ++ [⟨356, zeros 4⟩, ⟨368, zeros 32⟩])
    else if nh_len = eproto then (0, { skb with transport_header := skb.network_header }, stores)
    else (nh_len, skb, stores)
  else if frag = ovsFragTypeLater then (0, skb, stores)
  else
    let stores := stores ++ if skb.gso_udp then [⟨359, [ovsFragTypeFirst]⟩] else []
    if proto = ipprotoTcp then (0, skb, stores ++ tcpStores env skb)
    else if proto = ipprotoUdp then (0, skb, stores ++ udpStores env skb)
    else if proto = ipprotoSctp then (0, skb, stores ++ sctpStores env skb)
    else if proto = nexthdrIcmp then
      if icmp6hdrOk env skb then
        let (error, icmp_stores) := parseIcmpv6 env skb
        (error, skb, stores ++ icmp_stores)
      else (0, skb, stores ++ clearTp)
    else (0, skb, stores)

/-- `key_extract`: the error, the packet and the stores. The protocol of the MAC layer is the one in
the key. -/
def keyExtract (env : SkbEnv) (skb : SkBuff) (mac_proto : BitVec 8) : Int × SkBuff × KeyStores :=
  let (error, skb, eth_type, stores) := extractLinkLayer env skb mac_proto
  if error ≠ 0 then (error, skb, stores)
  else if eth_type = ethPIp then
    let (error, skb, ip_stores) := extractIp env skb
    (error, skb, stores ++ ip_stores)
  else if eth_type = ethPArp ∨ eth_type = ethPRarp then (0, skb, stores ++ extractArp env skb)
  else if ethPMpls eth_type then
    let (skb, mpls_stores) := extractMpls env skb
    (0, skb, stores ++ mpls_stores)
  else if eth_type = ethPIpv6 then
    let (error, skb, ip_stores) := extractIpv6 env skb
    (error, skb, stores ++ ip_stores)
  else (0, skb, stores)

/-! ## Metadata -/

/-- `struct nf_conntrack_tuple` and its address family. The ICMP type and code lie where the
destination port does. -/
structure NfTuple where
  l3num : BitVec 8
  src : Nat → BitVec 8
  dst : Nat → BitVec 8
  src_port : BitVec 16
  dst_port : BitVec 16
  protonum : BitVec 8

/-- `struct nf_conn`: what the key tells of a connection. `orig` is the original direction of the
connection or, if it has one, of its master. -/
structure NfConn where
  /-- `ovs_ct_get_state`. -/
  state : BitVec 8
  confirmed : Bool
  has_master : Bool
  src_nat : Bool
  dst_nat : Bool
  zone : BitVec 16
  mark : BitVec 32
  /-- The labels, if the connection has them. -/
  labels : Option (Nat → BitVec 8)
  orig : NfTuple

/-- `struct ip_tunnel_info`: the key, the options, and the address family. -/
structure IpTunnelInfo where
  af : BitVec 8
  key : Nat → BitVec 8
  options : Nat → BitVec 8
  options_len : BitVec 8

/-- What `ovs_flow_key_extract` reads of a packet besides the packet: its device and its metadata. -/
structure SkbMeta where
  /-- `skb->dev->type`. -/
  dev_type : BitVec 16
  priority : BitVec 32
  mark : BitVec 32
  /-- The number of the vport. -/
  in_port : BitVec 16
  tun_info : Option IpTunnelInfo
  /-- `nf_ct_get`. -/
  nfct : Option NfConn

/-- The first bytes of an array. -/
def firstBytes (n : Nat) (f : Nat → BitVec 8) : List (BitVec 8) := (List.range n).map f

@[simp] theorem firstBytes_length (n : Nat) (f : Nat → BitVec 8) : (firstBytes n f).length = n := by
  rw [firstBytes, List.length_map, List.length_range]

/-- The bytes of a number in the byte order of the machine. -/
def le32 (v : BitVec 32) : List (BitVec 8) :=
  [v.setWidth 8, (v >>> 8).setWidth 8, (v >>> 16).setWidth 8, (v >>> 24).setWidth 8]

/-- The bytes of a number in the byte order of the machine. -/
def le16 (v : BitVec 16) : List (BitVec 8) := [v.setWidth 8, (v >>> 8).setWidth 8]

@[simp] theorem le32_length (v : BitVec 32) : (le32 v).length = 4 := rfl

@[simp] theorem le16_length (v : BitVec 16) : (le16 v).length = 2 := rfl

/-- `ARPHRD_ETHER`. -/
def arphrdEther : BitVec 16 := 1

/-- `ARPHRD_NONE`. -/
def arphrdNone : BitVec 16 := 0xFFFE

/-- `key_extract_mac_proto`; nothing for a device of any other type. -/
def keyExtractMacProto (m : SkbMeta) (skb : SkBuff) : Option (BitVec 8) :=
  if m.dev_type = arphrdEther then some macProtoEthernet
  else if m.dev_type = arphrdNone then
    if skb.protocol = ethPTeb then some macProtoEthernet else some macProtoNone
  else none

/-- The stores for the tunnel that a packet came through. -/
def tunnelStores : Option IpTunnelInfo → KeyStores
  | some info =>
      [⟨323, [info.af]⟩, ⟨256, firstBytes 56 info.key⟩] ++
        if info.options_len ≠ 0 then
          [⟨255 - info.options_len.toNat, firstBytes info.options_len.toNat info.options⟩,
            ⟨255, [info.options_len]⟩]
        else [⟨255, [0]⟩]
  | none => [⟨323, [0]⟩, ⟨255, [0]⟩, ⟨256, zeros 56⟩]

/-- `sw_flow_key_is_nd`. -/
def SwFlowKey.isNd (key : SwFlowKey) : Bool :=
  key.u8 352 == 0x86 && key.u8 353 == 0xDD && key.ipProto == nexthdrIcmp &&
    key.u8 364 == 0 && key.u8 365 == 0 &&
    key.u8 362 == 0 && (key.u8 363 == 135 || key.u8 363 == 136)

/-- `__ovs_ct_update_key_orig_tp`. -/
def ctOrigTpStores (orig : NfTuple) (icmp_proto : BitVec 8) : KeyStores :=
  ⟨355, [orig.protonum]⟩ ::
    if orig.protonum = icmp_proto then
      [⟨436, 0 :: [(orig.dst_port >>> 8).setWidth 8]⟩, ⟨438, 0 :: [orig.dst_port.setWidth 8]⟩]
    else [⟨436, be16 orig.src_port⟩, ⟨438, be16 orig.dst_port⟩]

/-- The end of `__ovs_ct_update_key`: the original direction, where the key has room for it. The flag
says whether the key is one of neighbour discovery. -/
def ctOrigStores (eth_type : BitVec 16) (nd : Bool) (orig : NfTuple) : KeyStores :=
  if eth_type = ethPIp ∧ orig.l3num = 2 then
    [⟨376, firstBytes 4 orig.src⟩, ⟨380, firstBytes 4 orig.dst⟩] ++ ctOrigTpStores orig ipprotoIcmp
  else if eth_type = ethPIpv6 ∧ !nd ∧ orig.l3num = 10 then
    [⟨404, firstBytes 16 orig.src⟩, ⟨420, firstBytes 16 orig.dst⟩] ++ ctOrigTpStores orig nexthdrIcmp
  else [⟨355, [0]⟩]

/-- `OVS_CS_F_NEW`, `OVS_CS_F_RELATED`, `OVS_CS_F_SRC_NAT` and `OVS_CS_F_DST_NAT`, as they are added
to the state of a connection. -/
def ctState (ct : NfConn) : BitVec 8 :=
  ct.state ||| (if ct.confirmed then 0 else 0x01) ||| (if ct.has_master then 0x04 else 0) |||
    (if ct.src_nat then 0x40 else 0) ||| (if ct.dst_nat then 0x80 else 0)

/-- `ovs_ct_get_labels`: zeros for a connection without labels. -/
def ovsCtGetLabels (ct : NfConn) : List (BitVec 8) :=
  match ct.labels with
  | some labels => firstBytes 16 labels
  | none => zeros 16

@[simp] theorem ovsCtGetLabels_length (ct : NfConn) : (ovsCtGetLabels ct).length = 16 := by
  unfold ovsCtGetLabels
  split
  · exact firstBytes_length ..
  · exact zeros_length ..

/-- The stores of `ovs_ct_fill_key`. -/
def ctStores (eth_type : BitVec 16) (nd : Bool) : Option NfConn → KeyStores
  | none => [⟨354, [0]⟩, ⟨360, zeros 2⟩, ⟨440, zeros 4⟩, ⟨444, zeros 16⟩, ⟨355, [0]⟩]
  | some ct =>
      [⟨354, [ctState ct]⟩, ⟨360, le16 ct.zone⟩, ⟨440, le32 ct.mark⟩, ⟨444, ovsCtGetLabels ct⟩] ++
        ctOrigStores eth_type nd ct.orig

/-- `ovs_ct_fill_key`, which reads the type and the ICMPv6 type from the key. -/
def ovsCtFillKey (key : SwFlowKey) (nfct : Option NfConn) : KeyStores :=
  ctStores key.ethType key.isNd nfct

/-- The part of `ovs_flow_key_extract` before `key_extract`. -/
def metadataStores (m : SkbMeta) : KeyStores :=
  tunnelStores m.tun_info ++
    [⟨312, le32 m.priority⟩, ⟨320, le16 m.in_port⟩, ⟨316, le32 m.mark⟩, ⟨324, zeros 4⟩]

/-- `ovs_flow_key_extract`, into a key that holds anything: the error, the packet and the key. -/
def ovsFlowKeyExtract (env : SkbEnv) (m : SkbMeta) (skb : SkBuff) (key : SwFlowKey) :
    Int × SkBuff × SwFlowKey :=
  let stores := metadataStores m
  match keyExtractMacProto m skb with
  | none => (einval, skb, key.store stores)
  | some mac_proto =>
      let stores := stores ++ [⟨322, [mac_proto]⟩, ⟨328, zeros 4⟩]
      let (err, skb, key_stores) := keyExtract env skb mac_proto
      let key := key.store (stores ++ key_stores)
      if err ≠ 0 then (err, skb, key) else (0, skb, key.store (ovsCtFillKey key m.nfct))

end OvsDatapath.Flow
