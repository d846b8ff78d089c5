import OvsDatapath.Flow.PutKey
import OvsDatapath.Frag.Fragment

/-!
# Datagrams between conntrack and a port

`handle_fragments` of `conntrack.c` gives the fragments of a packet to `ip_defrag`, and keeps in the packet how large
they were. `do_output` of `actions.c` sends a packet, or cuts it again if it was reassembled and is larger than they
were: `prepare_frag` puts the headers of the link layer aside, and `ovs_vport_output` puts them in front of each of
the packets that `ip_do_fragment` makes. `ovs_vport_send` drops what is too long for the device.

Packets with IPv6 are left to the kernel. What `pskb_trim` makes of a packet is an answer of the kernel, too.
-/

namespace OvsDatapath.Frag

open OvsDatapath.Lib OvsDatapath.Flow OvsDatapath.Stt

/-- `struct ovs_skb_cb`. -/
structure OvsSkbCb where
  input_vport : Option Nat
  mru : BitVec 16
  cutlen : BitVec 32
  deriving DecidableEq

/-- An skb in the datapath. In front of the IPv4 header are the headers of the link layer, `ip.l2`; with MPLS the
network header is somewhere in them, and the IPv4 header is the inner one. -/
structure DpSkb where
  ip : IpSkb
  protocol : BitVec 16
  mpls_offset : BitVec 16
  inner_protocol : BitVec 16
  vlan_tci : BitVec 16
  vlan_proto : BitVec 16
  dst : Nat
  cb : OvsSkbCb
  deriving DecidableEq

namespace DpSkb

/-- `skb->len`. -/
def len (skb : DpSkb) : Nat := skb.ip.l2.length + skb.ip.iph.hdrlen + skb.ip.ipData.length

/-- `skb_vlan_tag_present`. -/
def vlanTagIsPresent (skb : DpSkb) : Bool := skb.vlan_tci &&& vlanTagPresent != 0

end DpSkb

/-- `dev->type`. -/
inductive ArpHrd where
  | none
  | ether
  | other
  deriving DecidableEq, Repr

/-- `struct vport`, and the device that it has. -/
structure VportDev where
  no : Nat
  mtu : BitVec 32
  hard_header_len : BitVec 16
  type : ArpHrd
  deriving DecidableEq

/-! ### Sending -/

/-- `packet_length`. -/
def packetLength (skb : DpSkb) (dev : VportDev) : BitVec 32 :=
  let length := BitVec.ofNat 32 skb.len - dev.hard_header_len.setWidth 32
  if !skb.vlanTagIsPresent && ethTypeVlan skb.protocol then length - 4 else length

/-- `ovs_vport_send`: the packet that the device is given, if it is not dropped. -/
def ovsVportSend (is_gso : DpSkb → Bool) (vport : VportDev) (skb : DpSkb) (mac_proto : BitVec 8) : Option DpSkb :=
  let fits (skb : DpSkb) := if vport.mtu < packetLength skb vport && !is_gso skb then none else some skb
  match vport.type with
  | .none =>
      if mac_proto = macProtoEthernet then fits { skb with protocol := ethPTeb }
      else if mac_proto ≠ macProtoNone then none
      else fits skb
  | .ether => if mac_proto ≠ macProtoEthernet then none else fits skb
  | .other => none

/-! ### Fragments -/

/-- `MAX_L2_LEN`. -/
def maxL2Len : Nat := vlanEthHlen + 3 * 4

/-- `struct ovs_frag_data`; `l2_len` is the length of `l2_data`. -/
structure OvsFragData where
  dst : Nat
  vport : VportDev
  cb : OvsSkbCb
  inner_protocol : BitVec 16
  network_offset : BitVec 16
  vlan_tci : BitVec 16
  vlan_proto : BitVec 16
  mac_proto : BitVec 8
  l2_data : List (BitVec 8)

/-- What the kernel answers while a packet is sent to a port. -/
structure PortEnv where
  is_gso : DpSkb → Bool
  pskb_trim : DpSkb → BitVec 32 → DpSkb
  /-- What `prepare_frag`, `v6ops->fragment` and `ovs_vport_output` send of a packet with IPv6. -/
  fragment6 : DpSkb → BitVec 16 → List DpSkb
  /-- Whether `ip_skb_dst_mtu` is no more than `IP_MAX_MTU`. -/
  max_mtu : Bool
  checksum_help : IpSkb → Except Int IpSkb
  cloned : Bool
  headroom : FragSkb → Nat
  shared : FragSkb → Bool
  alloc : Nat → Option Nat
  /-- `skb_cow_head` for the packets in turn. -/
  cow_head : Nat → Bool

/-- `memset` of `IPCB(skb)`. -/
def IpSkb.clearCb (skb : IpSkb) : IpSkb :=
  { skb with
    frag_complete := false
    frag_pmtu := false
    optlen := 0
    frag_max_size := 0 }

/-- `prepare_frag`: what is put aside, and the packet without it. -/
def prepareFrag (vport : VportDev) (skb : DpSkb) (orig_network_offset : BitVec 16) (mac_proto : BitVec 8) :
    OvsFragData × IpSkb :=
  ({ dst := skb.dst
     vport := vport
     cb := skb.cb
     inner_protocol := skb.inner_protocol
     network_offset := orig_network_offset
     vlan_tci := skb.vlan_tci
     vlan_proto := skb.vlan_proto
     mac_proto := mac_proto
     l2_data := skb.ip.l2 },
    { skb.ip.clearCb with l2 := [] })

/-- The packet that `ovs_vport_output` makes of one with the protocol of the whole. -/
def OvsFragData.frame (data : OvsFragData) (protocol : BitVec 16) (f : IpSkb) : DpSkb where
  ip := { f with l2 := data.l2_data }
  protocol := protocol
  mpls_offset := if ethPMpls protocol then data.network_offset else 0
  inner_protocol := data.inner_protocol
  vlan_tci := data.vlan_tci
  vlan_proto := data.vlan_proto
  dst := data.dst
  cb := data.cb

/-- `ip_do_fragment`, with the answers that it has in the datapath. -/
def PortEnv.output (env : PortEnv) (vport : VportDev) : OutputEnv where
  mtu := if env.max_mtu && (0xFFFF : BitVec 32) < vport.mtu then 0xFFFF else vport.mtu
  checksum_help := env.checksum_help
  cloned := env.cloned
  headroom := env.headroom
  shared := env.shared
  alloc := env.alloc
  output := fun n => if env.cow_head n then 0 else -12

/-- `ovs_vport_output`, for the packets that `ip_do_fragment` has made. -/
def ovsVportOutput (env : PortEnv) (data : OvsFragData) (protocol : BitVec 16) (frames : List IpSkb) : List DpSkb :=
  (frames.zipIdx.filter fun f => env.cow_head f.2).filterMap fun f =>
    ovsVportSend env.is_gso data.vport (data.frame protocol f.1) data.mac_proto

/-- `ovs_fragment`. -/
def ovsFragment (env : PortEnv) (vport : VportDev) (skb : DpSkb) (mru : BitVec 16) (key : SwFlowKey) :
    Except MemFault (List DpSkb) :=
  let orig_network_offset := if ethPMpls skb.protocol then skb.mpls_offset else 0
  if maxL2Len < skb.ip.l2.length then .ok []
  else if key.ethType = ethPIp then
    let prepared := prepareFrag vport skb orig_network_offset key.ovsKeyMacProto
    (ipDoFragment (env.output vport) { prepared.2 with frag_max_size := mru }).map fun sent =>
      ovsVportOutput env prepared.1 skb.protocol sent.1
  else if key.ethType = ethPIpv6 then .ok (env.fragment6 skb mru)
  else .ok []

/-- `__ovs_mac_header_len`. -/
def macHeaderLen (mac_proto : BitVec 8) : BitVec 32 := if mac_proto = macProtoEthernet then 14 else 0

/-- `do_output`: what the device is given. -/
def doOutput (env : PortEnv) (vport : Option VportDev) (skb : DpSkb) (key : SwFlowKey) :
    Except MemFault (List DpSkb) :=
  match vport with
  | none => .ok []
  | some vport =>
      let cutlen := skb.cb.cutlen
      let left := BitVec.ofNat 32 skb.len - cutlen
      let mac_header_len := macHeaderLen key.ovsKeyMacProto
      let skb :=
        if 0 < cutlen then env.pskb_trim skb (if mac_header_len < left then left else mac_header_len) else skb
      let mru := skb.cb.mru
      if mru = 0 ∨ skb.len ≤ mru.toNat + vport.hard_header_len.toNat then
        .ok (ovsVportSend env.is_gso vport skb key.ovsKeyMacProto).toList
      else if mru.setWidth 32 ≤ vport.mtu then ovsFragment env vport skb mru key
      else .ok []

/-! ### Conntrack -/

/-- `IP_DEFRAG_CONNTRACK_IN`. -/
def ipDefragConntrackIn : BitVec 32 := 2

/-- `handle_fragments`, for IPv4. -/
def handleFragments (find : FindEnv) (env : FragEnv) (queues : List Ipq) (zone : BitVec 16) (vif : Nat)
    (skb : DpSkb) : List Ipq × Except DefragErr DpSkb :=
  let defragged := ipDefrag find env queues skb.ip.clearCb (ipDefragConntrackIn + zone.setWidth 32) vif
  (defragged.1, defragged.2.map fun pkt =>
    { skb with
      ip := pkt
      cb := { skb.cb with mru := pkt.frag_max_size } })

end OvsDatapath.Frag
