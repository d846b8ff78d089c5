import OvsDatapath.Flow.KeyExtract

/-!
# STT offload metadata

`linux/compat/stt.c`: what the sender's network stack has left to be done for a packet, its checksum,
its segmentation, its VLAN tag, travels in the STT header, and the receiver takes it up from there.

* `sttCanOffload` decides which packets may keep their offloads, and first fills in the checksum of
  those whose offloads are incomplete.
* `pushSttHeader` writes what is left to be done into the header.
* `setOffloads` reads it.

`setOffloads_pushSttHeader` says that nothing is lost on the way.
-/

namespace OvsDatapath.Stt

open OvsDatapath.Flow

/-! ### The data -/

/-- `skb->ip_summed`. -/
inductive IpSummed where
  | checksumNone
  | checksumUnnecessary
  | checksumComplete
  | checksumPartial
  deriving DecidableEq, Repr

/-- An skb whose data start with the inner Ethernet header. The offsets of the headers count from
there, `csum_start` from the start of the buffer, `headroom` bytes before. -/
structure SttSkb where
  data : List (BitVec 8)
  headroom : Nat
  network_header : Nat
  transport_header : Nat
  protocol : BitVec 16
  vlan_tci : BitVec 16
  vlan_proto : BitVec 16
  ip_summed : IpSummed
  csum_start : BitVec 16
  csum_offset : BitVec 16
  gso_size : BitVec 16
  gso_type : BitVec 16
  gso_segs : BitVec 16
  deriving DecidableEq, Repr

/-- What the rest of the kernel answers: whether there is memory to pull bytes into the linear part
and to make the shared info private, the end of the IPv6 extension headers, and the checksums of the
pseudo headers. `gso_encap_all` are the GSO types that only encapsulated packets have. -/
structure SttKernel where
  may_pull : Nat → Bool
  unclone : Bool
  ipv6_skip_exthdr : List (BitVec 8) → Nat → BitVec 8 → Int × BitVec 8
  csum_tcpudp_magic : List (BitVec 8) → List (BitVec 8) → Nat → BitVec 8 → BitVec 16
  csum_ipv6_magic : List (BitVec 8) → List (BitVec 8) → Nat → BitVec 8 → BitVec 16
  gso_encap_all : BitVec 16

/-- `struct stthdr`. -/
structure SttHdr where
  version : BitVec 8
  flags : BitVec 8
  l4_offset : BitVec 8
  reserved : BitVec 8
  mss : BitVec 16
  vlan_tci : BitVec 16
  key : BitVec 64
  deriving DecidableEq, Repr

/-- `STT_CSUM_VERIFIED`. -/
def sttCsumVerified : BitVec 8 := 1

/-- `STT_CSUM_PARTIAL`. -/
def sttCsumPartial : BitVec 8 := 2

/-- `STT_PROTO_IPV4`. -/
def sttProtoIpv4 : BitVec 8 := 4

/-- `STT_PROTO_TCP`. -/
def sttProtoTcp : BitVec 8 := 8

/-- `SKB_GSO_TCPV4`. -/
def skbGsoTcpv4 : BitVec 16 := 1

/-- `SKB_GSO_UDP`. -/
def skbGsoUdp : BitVec 16 := 2

/-- `SKB_GSO_DODGY`. -/
def skbGsoDodgy : BitVec 16 := 4

/-- `SKB_GSO_TCPV6`. -/
def skbGsoTcpv6 : BitVec 16 := 16

/-- `SUPPORTED_GSO_TYPES`. -/
def supportedGsoTypes : BitVec 16 := skbGsoTcpv4 ||| skbGsoUdp ||| skbGsoDodgy ||| skbGsoTcpv6

/-- `sizeof(struct iphdr)`. -/
def iphdrLen : Nat := 20

/-- `sizeof(struct tcphdr)`. -/
def tcphdrLen : Nat := 20

/-- `STT_BASE_HLEN`: `struct stthdr` and `STT_ETH_PAD`. -/
def sttBaseHlen : Nat := 16 + 2

/-- `STT_HEADER_LEN`. -/
def sttHeaderLen : Nat := tcphdrLen + sttBaseHlen

namespace SttSkb

/-- `skb->len`. -/
def len (skb : SttSkb) : Nat := skb.data.length

/-- The byte at an offset. -/
def u8 (skb : SttSkb) (off : Nat) : BitVec 8 := skb.data.getD off 0

/-- Some bytes from an offset on. -/
def bytes (skb : SttSkb) (off n : Nat) : List (BitVec 8) := (skb.data.drop off).take n

/-- `eth_hdr(skb)->h_proto`. -/
def hProto (skb : SttSkb) : BitVec 16 := skb.u8 12 ++ skb.u8 13

/-- `skb_vlan_tag_present`. -/
def vlanTagIsPresent (skb : SttSkb) : Bool := skb.vlan_tci &&& vlanTagPresent != 0

end SttSkb

/-- `pskb_may_pull`. -/
def SttKernel.mayPull (env : SttKernel) (skb : SttSkb) (n : Nat) : Bool :=
  decide (n ≤ skb.len) && env.may_pull n

/-- `clear_gso`. -/
def clearGso (env : SttKernel) (skb : SttSkb) : Except Int SttSkb :=
  if skb.gso_type = 0 ∧ skb.gso_size = 0 ∧ skb.gso_segs = 0 then .ok skb
  else if env.unclone then .ok { skb with gso_type := 0, gso_size := 0, gso_segs := 0 }
  else .error enomem

/-! ### The sender -/

/-- `parse_ipv6_l4_proto`. -/
def parseIpv6L4Proto (env : SttKernel) (skb : SttSkb) : BitVec 8 :=
  let nh_ofs := skb.network_header
  if !env.mayPull skb (nh_ofs + 40) then 0
  else
    let skipped := env.ipv6_skip_exthdr skb.data (nh_ofs + 40) (skb.u8 (nh_ofs + 6))
    if skipped.1 < 0 then 0 else skipped.2

/-- `skb_get_l4_proto`. -/
def skbGetL4Proto (env : SttKernel) (skb : SttSkb) (l3_proto : BitVec 16) : BitVec 8 :=
  if l3_proto = ethPIp then
    if !env.mayPull skb (skb.network_header + iphdrLen) then 0 else skb.u8 (skb.network_header + 9)
  else if l3_proto = ethPIpv6 then parseIpv6L4Proto env skb
  else 0

/-- Where the checksum is in the header of a protocol that can be offloaded. -/
def l4CsumOffset (l4_proto : BitVec 8) : Option Nat :=
  if l4_proto = ipprotoTcp then some 16
  else if l4_proto = ipprotoUdp then some 6
  else none

/-- The checksum of the pseudo header. -/
def pseudoCsum (env : SttKernel) (skb : SttSkb) (l3_proto : BitVec 16) (l4_proto : BitVec 8) :
    Option (BitVec 16) :=
  let nh := skb.network_header
  let len := skb.len - skb.transport_header
  if l3_proto = ethPIp then
    some (env.csum_tcpudp_magic (skb.bytes (nh + 12) 4) (skb.bytes (nh + 16) 4) len l4_proto)
  else if l3_proto = ethPIpv6 then
    some (env.csum_ipv6_magic (skb.bytes (nh + 8) 16) (skb.bytes (nh + 24) 16) len l4_proto)
  else none

/-- The first part of `stt_can_offload`: a packet that is to be segmented gets a checksum that is left
to be completed. An error is the answer of the whole function. -/
def sttFillCsum (env : SttKernel) (skb : SttSkb) (l3_proto : BitVec 16) (l4_proto : BitVec 8) :
    Except Int SttSkb :=
  if skb.gso_size ≠ 0 ∧ skb.ip_summed ≠ .checksumPartial then
    match l4CsumOffset l4_proto with
    | none => .error 0
    | some csum_offset =>
        let off := skb.transport_header + csum_offset
        if !env.mayPull skb (off + 2) then .error einval
        else
          match pseudoCsum env skb l3_proto l4_proto with
          | none => .error 0
          | some csum =>
              .ok { skb with
                data := (skb.data.set off ((~~~csum >>> 8).setWidth 8)).set (off + 1)
                  ((~~~csum).setWidth 8)
                csum_start := BitVec.ofNat 16 (skb.headroom + skb.transport_header)
                csum_offset := BitVec.ofNat 16 csum_offset
                ip_summed := .checksumPartial }
  else .ok skb

/-- Where the checksum starts, relative to the Ethernet header. -/
def SttSkb.csumStartOffset (skb : SttSkb) : Int := skb.csum_start.toNat - skb.headroom

/-- The rest of `stt_can_offload`. The difference that must fit in a byte is one of unsigned numbers. -/
def sttOffloadable (skb : SttSkb) (l3_proto : BitVec 16) (l4_proto : BitVec 8) : Bool :=
  (skb.ip_summed != .checksumPartial ||
    (l3_proto == ethPIp || l3_proto == ethPIpv6) &&
    (l4_proto == ipprotoTcp || l4_proto == ipprotoUdp) &&
    decide (skb.csumStartOffset % 2 ^ 32 ≤ 255) &&
    skb.gso_type &&& ~~~supportedGsoTypes == 0) &&
  decide (skb.len + sttHeaderLen + iphdrLen ≤ 65535) &&
  (!skb.vlanTagIsPresent || skb.vlan_proto == ethP8021q)

/-- `stt_can_offload`. -/
def sttCanOffload (env : SttKernel) (skb : SttSkb) (l3_proto : BitVec 16) (l4_proto : BitVec 8) :
    Int × SttSkb :=
  match sttFillCsum env skb l3_proto l4_proto with
  | .error ret => (ret, skb)
  | .ok skb => (if sttOffloadable skb l3_proto l4_proto then 1 else 0, skb)

/-- The packet as it leaves the host: the sequence number of its TCP header, its STT header, the
packet it carries, and how it is to be cut into TCP segments. -/
structure SttFrame where
  seq : BitVec 32
  hdr : SttHdr
  data : List (BitVec 8)
  gso_type : BitVec 16
  gso_size : BitVec 16
  gso_segs : BitVec 16
  deriving DecidableEq, Repr

/-- The flags of the STT header. -/
def sttFlags (skb : SttSkb) (l3_proto : BitVec 16) (l4_proto : BitVec 8) : BitVec 8 :=
  match skb.ip_summed with
  | .checksumPartial =>
      sttCsumPartial ||| (if l3_proto = ethPIp then sttProtoIpv4 else 0) |||
        (if l4_proto = ipprotoTcp then sttProtoTcp else 0)
  | .checksumUnnecessary => sttCsumVerified
  | _ => 0

/-- The length of what the TCP header is followed by. -/
def sttDataLen (skb : SttSkb) : Nat := skb.len + sttBaseHlen

/-- The STT header that `__push_stt_header` writes. -/
def sttHdrFor (skb : SttSkb) (tun_id : BitVec 64) (l3_proto : BitVec 16) (l4_proto : BitVec 8) :
    SttHdr where
  version := 0
  flags := sttFlags skb l3_proto l4_proto
  l4_offset :=
    if skb.ip_summed = .checksumPartial then
      -- `skb_headroom` counts without the header that was pushed
      BitVec.ofInt 8 (skb.csum_start.toNat - ((skb.headroom - sttHeaderLen : Nat) + sttHeaderLen : Nat))
    else 0
  reserved := 0
  mss := if skb.ip_summed = .checksumPartial then skb.gso_size else 0
  vlan_tci := skb.vlan_tci
  key := tun_id

/-- `__push_stt_header`. -/
def pushSttHeader (env : SttKernel) (skb : SttSkb) (tun_id : BitVec 64) (l3_proto : BitVec 16)
    (l4_proto : BitVec 8) (dst_mtu : Int) : Except Int SttFrame :=
  let data_len := sttDataLen skb
  let encap_mss := BitVec.ofInt 16 (dst_mtu - iphdrLen - tcphdrLen)
  let frame (gso_type gso_size gso_segs : BitVec 16) : SttFrame :=
    { seq := BitVec.ofNat 32 (data_len <<< 16)
      hdr := sttHdrFor skb tun_id l3_proto l4_proto
      data := skb.data
      gso_type, gso_size, gso_segs }
  if encap_mss.toNat < data_len then
    if !env.unclone then .error einval
    else
      .ok (frame skbGsoTcpv4 encap_mss
        (BitVec.ofNat 16 ((data_len + encap_mss.toNat - 1) / encap_mss.toNat)))
  else
    match clearGso env skb with
    | .error _ => .error einval
    | .ok skb => .ok (frame skb.gso_type skb.gso_size skb.gso_segs)

/-! ### The receiver -/

/-- `iptunnel_pull_header` for a packet that carries Ethernet frames. -/
def iptunnelPullHeader (env : SttKernel) (skb : SttSkb) (hdr_len : Nat) : Except Int SttSkb :=
  if !env.mayPull skb hdr_len then .error enomem
  else
    let skb := { skb with data := skb.data.drop hdr_len, headroom := skb.headroom + hdr_len }
    if !env.mayPull skb ethHlen then .error enomem
    else
      let skb := { skb with
        protocol := if ethProtoIs8023 skb.hProto then skb.hProto else ethP8022, vlan_tci := 0 }
      if skb.gso_size = 0 then .ok skb
      else if env.unclone then .ok { skb with gso_type := skb.gso_type &&& ~~~env.gso_encap_all }
      else .error enomem

/-- What the receiver makes of the two protocol flags. -/
structure SttProto where
  csum_offset : BitVec 16
  gso_type : BitVec 16
  l3_header_size : Nat
  l4_header_size : Nat
  protocol : BitVec 16

/-- The `switch` of `set_offloads`. -/
def sttProto (flags : BitVec 8) : SttProto :=
  match flags &&& sttProtoIpv4 != 0, flags &&& sttProtoTcp != 0 with
  | true, true => ⟨16, skbGsoTcpv4, iphdrLen, tcphdrLen, ethPIp⟩
  | false, true => ⟨16, skbGsoTcpv6, 40, tcphdrLen, ethPIpv6⟩
  | true, false => ⟨6, skbGsoUdp, iphdrLen, 8, ethPIp⟩
  | false, false => ⟨6, skbGsoUdp, 40, 8, ethPIpv6⟩

/-- `__vlan_hwaccel_put_tag`. -/
def vlanHwaccelPutTag (skb : SttSkb) (vlan_proto vlan_tci : BitVec 16) : SttSkb :=
  { skb with vlan_proto := vlan_proto, vlan_tci := vlanTagPresent ||| vlan_tci }

/-- What is left of `set_offloads` for a checksum that is to be completed. -/
def setPartialOffloads (env : SttKernel) (skb : SttSkb) (stth : SttHdr) : Bool × SttSkb :=
  let proto := sttProto stth.flags
  let skb := { skb with protocol := proto.protocol }
  if stth.l4_offset.toNat < ethHlen + proto.l3_header_size then (false, skb)
  else if !env.mayPull skb (stth.l4_offset.toNat + proto.l4_header_size) then (false, skb)
  else
    let skb := { skb with
      csum_start := BitVec.ofNat 16 (skb.headroom + stth.l4_offset.toNat)
      csum_offset := proto.csum_offset
      ip_summed := .checksumPartial }
    if stth.mss ≠ 0 then
      if !env.unclone then (false, skb)
      else (true, { skb with
        gso_type := proto.gso_type ||| skbGsoDodgy, gso_size := stth.mss, gso_segs := 0 })
    else
      match clearGso env skb with
      | .ok skb => (true, skb)
      | .error _ => (false, skb)

/-- `set_offloads`. -/
def setOffloads (env : SttKernel) (skb : SttSkb) (stth : SttHdr) : Bool × SttSkb :=
  let skb := if stth.vlan_tci ≠ 0 then vlanHwaccelPutTag skb ethP8021q stth.vlan_tci else skb
  if stth.flags &&& sttCsumPartial = 0 then
    let skb := { skb with ip_summed :=
      if stth.flags &&& sttCsumVerified ≠ 0 then .checksumUnnecessary else .checksumNone }
    match clearGso env skb with
    | .ok skb => (true, skb)
    | .error _ => (false, skb)
  else setPartialOffloads env skb stth

/-! ### Packets whose headers agree -/

/-- The size of the fixed part of the network header. -/
def l3HeaderSize (l3_proto : BitVec 16) : Nat := if l3_proto = ethPIp then iphdrLen else 40

/-- The size of the fixed part of the transport header. -/
def l4HeaderSize (l4_proto : BitVec 8) : Nat := if l4_proto = ipprotoTcp then tcphdrLen else 8

/-- The GSO type of a protocol that can be offloaded. -/
def gsoTypeOf (l3_proto : BitVec 16) (l4_proto : BitVec 8) : BitVec 16 :=
  if l4_proto = ipprotoTcp then if l3_proto = ethPIp then skbGsoTcpv4 else skbGsoTcpv6
  else skbGsoUdp

/-- The protocol that the Ethernet header says. -/
def SttSkb.etherProtocol (skb : SttSkb) : BitVec 16 :=
  if ethProtoIs8023 skb.hProto then skb.hProto else ethP8022

/-- An Ethernet packet on its way into the tunnel. `stt_xmit_skb` has made room for the headers, a
header is within 64 KiB of the start of the buffer, and there is no VLAN tag that is not marked as
present. -/
structure InnerPacket (skb : SttSkb) : Prop where
  eth_hlen : ethHlen ≤ skb.len
  protocol : skb.protocol = skb.etherProtocol
  vlan : skb.vlan_tci ≠ 0 → skb.vlanTagIsPresent
  room : sttHeaderLen ≤ skb.headroom
  offsets : skb.headroom + skb.transport_header < 2 ^ 16

/-- The transport header is behind the network header and in the packet, and what is left to be done
for the checksum and for segmentation is meant for that header. -/
structure ConsistentL4 (skb : SttSkb) (l3_proto : BitVec 16) (l4_proto : BitVec 8) : Prop where
  after_l3 : ethHlen + l3HeaderSize l3_proto ≤ skb.transport_header
  fits : skb.transport_header + l4HeaderSize l4_proto ≤ skb.len
  csum_start : skb.ip_summed = .checksumPartial →
    skb.csum_start.toNat = skb.headroom + skb.transport_header
  csum_offset : skb.ip_summed = .checksumPartial → l4CsumOffset l4_proto = some skb.csum_offset.toNat
  gso_type : skb.gso_size ≠ 0 → skb.gso_type &&& ~~~skbGsoDodgy = gsoTypeOf l3_proto l4_proto

/-- What the sender does to a packet before the header is written: only the checksum may change, and
one that is to be segmented has a checksum to be completed. -/
structure Prepared (skb sent : SttSkb) : Prop where
  headroom : sent.headroom = skb.headroom
  transport_header : sent.transport_header = skb.transport_header
  vlan : sent.vlan_tci = skb.vlan_tci ∧ sent.vlan_proto = skb.vlan_proto
  protocol : sent.protocol = skb.protocol
  gso : sent.gso_size = skb.gso_size ∧ sent.gso_type = skb.gso_type
  len : sent.len = skb.len
  ip_summed : sent.ip_summed =
    if skb.gso_size = 0 then skb.ip_summed else .checksumPartial

/-- What the receiver gets back. -/
structure Restored (sent got : SttSkb) : Prop where
  data : got.data = sent.data
  vlan_tci : got.vlan_tci = sent.vlan_tci
  vlan_proto : sent.vlanTagIsPresent → got.vlan_proto = sent.vlan_proto
  csum : sent.ip_summed = .checksumPartial →
    got.csumStartOffset = sent.csumStartOffset ∧ got.csum_offset = sent.csum_offset
  protocol : got.protocol = sent.protocol
  gso_size : got.gso_size = sent.gso_size
  gso_type : if sent.gso_size = 0 then got.gso_type = 0
    else got.gso_type &&& ~~~skbGsoDodgy = sent.gso_type &&& ~~~skbGsoDodgy
  summed_iff : got.ip_summed = .checksumPartial ↔ sent.ip_summed = .checksumPartial
  ip_summed_unnecessary : got.ip_summed = .checksumUnnecessary ↔
    sent.ip_summed = .checksumUnnecessary

/-! ### What reaches the encoder -/

section
variable {env : SttKernel} {skb sent : SttSkb} {l3_proto : BitVec 16} {l4_proto : BitVec 8}

theorem sttCanOffload_eq_one (h : sttCanOffload env skb l3_proto l4_proto = (1, sent)) :
    sttFillCsum env skb l3_proto l4_proto = .ok sent ∧ sttOffloadable sent l3_proto l4_proto := by
  have herror : ∀ ret, sttFillCsum env skb l3_proto l4_proto = .error ret → ret ≠ 1 := by
    intro ret hret
    simp only [sttFillCsum] at hret
    have hcases : ret = 0 ∨ ret = einval := by grind
    rcases hcases with rfl | rfl <;> decide
  rw [sttCanOffload] at h
  split at h
  case h_1 ret hret =>
    obtain ⟨rfl, -⟩ := Prod.mk.inj h
    exact absurd rfl (herror _ hret)
  case h_2 filled hfill =>
    obtain ⟨hone, rfl⟩ := Prod.mk.inj h
    refine ⟨hfill, ?_⟩
    by_contra hnot
    rw [if_neg hnot] at hone
    cases hone

/-- The checksum that was filled in is that of the transport header. -/
theorem sttFillCsum_ok (h : sttFillCsum env skb l3_proto l4_proto = .ok sent) :
    Prepared skb sent ∧ (sent = skb ∨ sent.ip_summed = .checksumPartial ∧
      (∃ off, l4CsumOffset l4_proto = some off ∧ sent.csum_offset = BitVec.ofNat 16 off ∧
        ∀ i < skb.transport_header, sent.u8 i = skb.u8 i) ∧
      sent.csum_start = BitVec.ofNat 16 (skb.headroom + skb.transport_header)) := by
  rw [sttFillCsum] at h
  split at h
  case isFalse hnot =>
    obtain rfl := Except.ok.inj h
    refine ⟨⟨rfl, rfl, ⟨rfl, rfl⟩, rfl, ⟨rfl, rfl⟩, rfl, ?_⟩, Or.inl rfl⟩
    split
    · rfl
    · by_contra hunsummed
      exact hnot ⟨‹_›, hunsummed⟩
  case isTrue hgso =>
    split at h
    case h_1 => cases h
    case h_2 off hoff =>
      dsimp only at h
      split at h
      case isTrue => cases h
      case isFalse =>
        split at h
        case h_1 => cases h
        case h_2 csum _ =>
          obtain rfl := Except.ok.inj h
          refine ⟨⟨rfl, rfl, ⟨rfl, rfl⟩, rfl, ⟨rfl, rfl⟩, by simp [SttSkb.len],
            (if_neg hgso.1).symm⟩, Or.inr ⟨rfl, ⟨off, hoff, rfl, ?_⟩, rfl⟩⟩
          · intro i hi
            simp only [SttSkb.u8, List.getD_eq_getElem?_getD]
            rw [List.getElem?_set_ne (by omega), List.getElem?_set_ne (by omega)]

/-- A checksum to be completed was so before, or the packet is to be segmented. -/
theorem Prepared.offloaded (h : Prepared skb sent) (hunsummed : sent.ip_summed = .checksumPartial) :
    skb.ip_summed = .checksumPartial ∨ skb.gso_size ≠ 0 := by
  have hsummed := h.ip_summed
  rw [hunsummed] at hsummed
  by_cases hgso : skb.gso_size = 0
  case pos => exact Or.inl (by rw [hsummed, if_pos hgso])
  case neg => exact Or.inr hgso

theorem l4CsumOffset_lt {off : Nat} (h : l4CsumOffset l4_proto = some off) : off < 2 ^ 16 := by
  simp only [l4CsumOffset] at h
  grind

/-- The Ethernet header is not touched. -/
theorem hProto_eq_of_fill (hfill : sttFillCsum env skb l3_proto l4_proto = .ok sent)
    (hl4 : skb.ip_summed = .checksumPartial ∨ skb.gso_size ≠ 0 → ConsistentL4 skb l3_proto l4_proto) :
    sent.hProto = skb.hProto := by
  obtain ⟨hprep, rfl | ⟨hunsummed, ⟨off, -, -, hsame⟩, -⟩⟩ := sttFillCsum_ok hfill
  · rfl
  · have hcons := hl4 (hprep.offloaded hunsummed)
    have hafter := hcons.after_l3
    simp only [ethHlen] at hafter
    rw [SttSkb.hProto, SttSkb.hProto, hsame 12 (by omega), hsame 13 (by omega)]

/-- What was an Ethernet packet still is one. -/
theorem InnerPacket.of_prepared (h : InnerPacket skb) (hprep : Prepared skb sent)
    (hproto : sent.hProto = skb.hProto) : InnerPacket sent := by
  constructor
  case eth_hlen => exact hprep.len ▸ h.eth_hlen
  case protocol =>
    rw [hprep.protocol, h.protocol, SttSkb.etherProtocol, SttSkb.etherProtocol, hproto]
  case vlan =>
    simp only [SttSkb.vlanTagIsPresent, hprep.vlan.1]
    exact h.vlan
  case room => exact hprep.headroom ▸ h.room
  case offsets =>
    rw [hprep.headroom, hprep.transport_header]
    exact h.offsets

/-- What reaches the encoder is consistent, and to be completed if it is to be segmented. -/
theorem ConsistentL4.of_fill (hinner : InnerPacket skb)
    (hl4 : skb.ip_summed = .checksumPartial ∨ skb.gso_size ≠ 0 → ConsistentL4 skb l3_proto l4_proto)
    (hfill : sttFillCsum env skb l3_proto l4_proto = .ok sent)
    (hunsummed : sent.ip_summed = .checksumPartial) : ConsistentL4 sent l3_proto l4_proto := by
  obtain ⟨hprep, hcase⟩ := sttFillCsum_ok hfill
  rcases hcase with rfl | ⟨-, ⟨off, hoff, hcsum, -⟩, hstart⟩
  · exact hl4 (Or.inl hunsummed)
  · have hcons := hl4 (hprep.offloaded hunsummed)
    have hoffsets := hinner.offsets
    constructor
    case after_l3 => exact hprep.transport_header ▸ hcons.after_l3
    case fits =>
      rw [hprep.transport_header, hprep.len]
      exact hcons.fits
    case csum_start =>
      intro _
      rw [hstart, hprep.headroom, hprep.transport_header, BitVec.toNat_ofNat]
      exact Nat.mod_eq_of_lt hoffsets
    case csum_offset =>
      intro _
      rw [hcsum, hoff, BitVec.toNat_ofNat, Nat.mod_eq_of_lt (l4CsumOffset_lt hoff)]
    case gso_type =>
      rw [hprep.gso.1, hprep.gso.2]
      exact hcons.gso_type

end

/-! ### The header -/

section
variable {skb : SttSkb} {l3_proto : BitVec 16} {l4_proto : BitVec 8}

/-- What the receiver makes of the flags is what the sender meant. -/
theorem sttProto_sttFlags (hunsummed : skb.ip_summed = .checksumPartial)
    (hl3 : l3_proto = ethPIp ∨ l3_proto = ethPIpv6)
    (hl4 : l4_proto = ipprotoTcp ∨ l4_proto = ipprotoUdp) :
    l4CsumOffset l4_proto = some (sttProto (sttFlags skb l3_proto l4_proto)).csum_offset.toNat ∧
      (sttProto (sttFlags skb l3_proto l4_proto)).gso_type = gsoTypeOf l3_proto l4_proto ∧
      (sttProto (sttFlags skb l3_proto l4_proto)).l3_header_size = l3HeaderSize l3_proto ∧
      (sttProto (sttFlags skb l3_proto l4_proto)).l4_header_size = l4HeaderSize l4_proto ∧
      (sttProto (sttFlags skb l3_proto l4_proto)).protocol = l3_proto := by
  simp only [sttFlags, hunsummed]
  rcases hl3 with rfl | rfl <;> rcases hl4 with rfl | rfl <;> decide

/-- The flag for a checksum to be completed. -/
theorem sttFlags_unsummed : sttFlags skb l3_proto l4_proto &&& sttCsumPartial = 0 ↔
    skb.ip_summed ≠ .checksumPartial := by
  unfold sttFlags
  cases skb.ip_summed with
  | checksumPartial =>
      simp only [ne_eq, not_true_eq_false, iff_false]
      split <;> split <;> decide
  | checksumNone => simp
  | checksumUnnecessary => simp [sttCsumVerified, sttCsumPartial]
  | checksumComplete => simp

/-- The flag for a checksum that was verified. -/
theorem sttFlags_verified (h : skb.ip_summed ≠ .checksumPartial) :
    sttFlags skb l3_proto l4_proto &&& sttCsumVerified ≠ 0 ↔ skb.ip_summed = .checksumUnnecessary := by
  unfold sttFlags
  cases hsummed : skb.ip_summed with
  | checksumPartial => exact absurd hsummed h
  | checksumNone => simp
  | checksumUnnecessary => simp [sttCsumVerified]
  | checksumComplete => simp

/-- The offset of the transport header is written whole. -/
theorem sttHdrFor_l4_offset (hinner : InnerPacket skb) (hl4 : ConsistentL4 skb l3_proto l4_proto)
    (hunsummed : skb.ip_summed = .checksumPartial) (hbyte : skb.csumStartOffset % 2 ^ 32 ≤ 255)
    (tun_id : BitVec 64) :
    (sttHdrFor skb tun_id l3_proto l4_proto).l4_offset.toNat = skb.transport_header := by
  have hstart := hl4.csum_start hunsummed
  have hroom := hinner.room
  simp only [SttSkb.csumStartOffset, hstart] at hbyte
  have hlt : skb.transport_header < 2 ^ 8 := by omega
  simp only [sttHdrFor, if_pos hunsummed, hstart, Nat.sub_add_cancel hroom]
  have hcast : ((skb.headroom + skb.transport_header : Nat) : Int) - (skb.headroom : Nat) =
      (skb.transport_header : Nat) := by
    omega
  rw [hcast, BitVec.ofInt_natCast, BitVec.toNat_ofNat]
  exact Nat.mod_eq_of_lt hlt

end

/-! ### What comes out -/

section
variable {env : SttKernel} {skb sent : SttSkb} {l3_proto : BitVec 16} {l4_proto : BitVec 8}

/-- The header is written if there is memory. -/
theorem pushSttHeader_ok (henv : env.unclone) (tun_id : BitVec 64) (dst_mtu : Int) :
    ∃ frame, pushSttHeader env skb tun_id l3_proto l4_proto dst_mtu = .ok frame ∧
      frame.data = skb.data ∧ frame.hdr = sttHdrFor skb tun_id l3_proto l4_proto ∧
      frame.seq = BitVec.ofNat 32 (sttDataLen skb <<< 16) := by
  simp only [pushSttHeader, clearGso, henv]
  split
  · exact ⟨_, rfl, rfl, rfl, rfl⟩
  · split
    case h_1 => grind
    case h_2 => exact ⟨_, rfl, rfl, rfl, rfl⟩

/-- What is left when the header has been taken off. -/
theorem iptunnelPullHeader_ok (hpull : ∀ n, env.may_pull n) (hclone : env.unclone)
    (hdr_bytes : List (BitVec 8)) (hdata : skb.data = hdr_bytes ++ sent.data)
    (heth : ethHlen ≤ sent.len) : ∃ pulled,
      iptunnelPullHeader env skb hdr_bytes.length = .ok pulled ∧ pulled.data = sent.data ∧
      pulled.headroom = skb.headroom + hdr_bytes.length ∧
      pulled.protocol = sent.etherProtocol ∧ pulled.vlan_tci = 0 := by
  have hlen : hdr_bytes.length ≤ skb.data.length := by simp [hdata]
  have hrest : skb.data.drop hdr_bytes.length = sent.data := by rw [hdata, List.drop_left]
  simp only [SttSkb.len] at heth
  simp only [iptunnelPullHeader, SttKernel.mayPull, SttSkb.len, hlen, hpull, hrest, heth, hclone,
    decide_true, Bool.and_self, Bool.not_true, Bool.false_eq_true, if_false, if_true]
  split
  · exact ⟨_, rfl, rfl, rfl, rfl, rfl⟩
  · exact ⟨_, rfl, rfl, rfl, rfl, rfl⟩

theorem clearGso_ok (hclone : env.unclone) :
    clearGso env skb = .ok { skb with gso_type := 0, gso_size := 0, gso_segs := 0 } := by
  rw [clearGso, if_pos hclone]
  split
  case isTrue h =>
    cases skb
    simp_all
  case isFalse => rfl

/-- The VLAN tag is put back. -/
theorem setOffloads_vlan {pulled : SttSkb} (hinner : InnerPacket sent) (htag : pulled.vlan_tci = 0)
    (hproto : sent.vlanTagIsPresent → sent.vlan_proto = ethP8021q) :
    let got := if sent.vlan_tci ≠ 0 then vlanHwaccelPutTag pulled ethP8021q sent.vlan_tci else pulled
    got = { pulled with vlan_tci := sent.vlan_tci, vlan_proto := got.vlan_proto } ∧
      (sent.vlanTagIsPresent → got.vlan_proto = sent.vlan_proto) := by
  dsimp only
  split
  case isTrue htci =>
    have hpresent := hinner.vlan htci
    have hflag : sent.vlan_tci &&& vlanTagPresent ≠ 0 := bne_iff_ne.mp hpresent
    have hor : vlanTagPresent ||| sent.vlan_tci = sent.vlan_tci := by
      rw [← vlanTagPresent_or hflag, BitVec.or_comm, BitVec.or_assoc, BitVec.or_self]
    exact ⟨by simp only [vlanHwaccelPutTag, hor], fun _ => (hproto hpresent).symm⟩
  case isFalse htci =>
    have hzero : sent.vlan_tci = 0 := not_not.mp htci
    refine ⟨by rw [hzero, ← htag], fun hpresent => ?_⟩
    simp [SttSkb.vlanTagIsPresent, hzero] at hpresent

/-- A packet without a checksum to be completed keeps nothing but what is known about its checksum. -/
theorem setOffloads_whole {pulled : SttSkb} (hclone : env.unclone) (hinner : InnerPacket sent)
    (hwhole : sent.ip_summed ≠ .checksumPartial) (hgso : sent.gso_size = 0)
    (hproto : sent.vlanTagIsPresent → sent.vlan_proto = ethP8021q) (tun_id : BitVec 64)
    (hdata : pulled.data = sent.data) (hprotocol : pulled.protocol = sent.protocol)
    (htag : pulled.vlan_tci = 0) :
    ∃ got, setOffloads env pulled (sttHdrFor sent tun_id l3_proto l4_proto) = (true, got) ∧
      Restored sent got := by
  obtain ⟨hvlan, hvproto⟩ := setOffloads_vlan hinner htag hproto
  have hflag : (sttHdrFor sent tun_id l3_proto l4_proto).flags &&& sttCsumPartial = 0 :=
    sttFlags_unsummed.mpr hwhole
  have hverified : (sttHdrFor sent tun_id l3_proto l4_proto).flags &&& sttCsumVerified ≠ 0 ↔
      sent.ip_summed = .checksumUnnecessary :=
    sttFlags_verified hwhole
  have htci : (sttHdrFor sent tun_id l3_proto l4_proto).vlan_tci = sent.vlan_tci := rfl
  rw [setOffloads, if_pos hflag, htci]
  generalize (if sent.vlan_tci ≠ 0 then vlanHwaccelPutTag pulled ethP8021q sent.vlan_tci
    else pulled) = tagged at hvlan hvproto ⊢
  simp only [clearGso_ok hclone]
  refine ⟨_, rfl, ?_⟩
  constructor
  case data => rw [hvlan]; exact hdata
  case vlan_tci => rw [hvlan]
  case vlan_proto => exact hvproto
  case csum => exact fun hunsummed => absurd hunsummed hwhole
  case protocol => rw [hvlan]; exact hprotocol
  case gso_size => exact hgso.symm
  case gso_type => rw [if_pos hgso]
  case summed_iff =>
    simp only [hwhole, iff_false]
    split <;> simp
  case ip_summed_unnecessary =>
    rw [← hverified]
    split
    case isTrue hset => exact iff_of_true rfl hset
    case isFalse hset => exact iff_of_false (by simp) hset

/-- A packet with a checksum to be completed keeps all that is needed for it. -/
theorem setOffloads_unsummed {pulled : SttSkb} (hpull : ∀ n, env.may_pull n) (hclone : env.unclone)
    (hinner : InnerPacket sent) (hl4 : ConsistentL4 sent l3_proto l4_proto)
    (hunsummed : sent.ip_summed = .checksumPartial) (hoffload : sttOffloadable sent l3_proto l4_proto)
    (hl3 : sent.protocol = l3_proto) (tun_id : BitVec 64) (hdata : pulled.data = sent.data)
    (hroom : pulled.headroom + 255 < 2 ^ 16) (htag : pulled.vlan_tci = 0) :
    ∃ got, setOffloads env pulled (sttHdrFor sent tun_id l3_proto l4_proto) = (true, got) ∧
      Restored sent got := by
  simp only [sttOffloadable, hunsummed, bne_self_eq_false, Bool.false_or, Bool.and_eq_true,
    Bool.or_eq_true, beq_iff_eq, decide_eq_true_eq, Bool.not_eq_true'] at hoffload
  obtain ⟨⟨⟨⟨⟨hl3', hl4'⟩, hbyte⟩, -⟩, -⟩, hvlanproto⟩ := hoffload
  have hproto : sent.vlanTagIsPresent → sent.vlan_proto = ethP8021q := by
    intro hpresent
    exact hvlanproto.resolve_left (by simp [hpresent])
  obtain ⟨hvlan, hvproto⟩ := setOffloads_vlan hinner htag hproto
  obtain ⟨hcsum, hgsotype, hl3size, hl4size, hprotocol⟩ := sttProto_sttFlags hunsummed hl3' hl4'
  have hl4off := sttHdrFor_l4_offset hinner hl4 hunsummed hbyte tun_id
  have hflag : ¬ (sttHdrFor sent tun_id l3_proto l4_proto).flags &&& sttCsumPartial = 0 :=
    fun hzero => sttFlags_unsummed.mp hzero hunsummed
  have htci : (sttHdrFor sent tun_id l3_proto l4_proto).vlan_tci = sent.vlan_tci := rfl
  have hmss : (sttHdrFor sent tun_id l3_proto l4_proto).mss = sent.gso_size := if_pos hunsummed
  have hflags : (sttHdrFor sent tun_id l3_proto l4_proto).flags = sttFlags sent l3_proto l4_proto :=
    rfl
  -- from here on only what is known of the tagged packet and of the header matters
  rw [setOffloads, if_neg hflag, htci]
  generalize (if sent.vlan_tci ≠ 0 then vlanHwaccelPutTag pulled ethP8021q sent.vlan_tci
    else pulled) = tagged at hvlan hvproto ⊢
  generalize sttHdrFor sent tun_id l3_proto l4_proto = stth at hl4off hmss hflags ⊢
  have hheadroom : tagged.headroom = pulled.headroom := by rw [hvlan]
  have htagdata : tagged.data = sent.data := by rw [hvlan]; exact hdata
  -- neither of the two checks fails
  have hbehind : ¬ stth.l4_offset.toNat < ethHlen + (sttProto stth.flags).l3_header_size := by
    rw [hl4off, hflags, hl3size]
    exact Nat.not_lt.mpr hl4.after_l3
  have hfits : env.mayPull { tagged with protocol := (sttProto stth.flags).protocol }
      (stth.l4_offset.toNat + (sttProto stth.flags).l4_header_size) = true := by
    rw [SttKernel.mayPull, hpull, Bool.and_true, decide_eq_true_eq, hl4off, hflags, hl4size]
    show _ ≤ tagged.data.length
    rw [htagdata]
    exact hl4.fits
  -- the checksum is to start at the transport header again
  have hstart : ((BitVec.ofNat 16 (tagged.headroom + stth.l4_offset.toNat)).toNat : Int) -
      tagged.headroom = sent.csumStartOffset := by
    rw [BitVec.toNat_ofNat, Nat.mod_eq_of_lt (by omega), SttSkb.csumStartOffset,
      hl4.csum_start hunsummed, hl4off]
    omega
  have hoff : (sttProto stth.flags).csum_offset = sent.csum_offset := by
    rw [hflags]
    apply BitVec.eq_of_toNat_eq
    exact Option.some.inj (hcsum.symm.trans (hl4.csum_offset hunsummed))
  have hprotocol' : (sttProto stth.flags).protocol = sent.protocol := by
    rw [hflags, hprotocol, hl3]
  have htype : (sttProto stth.flags).gso_type = gsoTypeOf l3_proto l4_proto := by
    rw [hflags, hgsotype]
  have hvlantci : tagged.vlan_tci = sent.vlan_tci := by rw [hvlan]
  simp only [setPartialOffloads, if_neg hbehind, hfits, Bool.not_true, Bool.false_eq_true, if_false,
    hclone, clearGso_ok hclone, hmss]
  by_cases hgso : sent.gso_size = 0
  case pos =>
    rw [if_neg (not_not.mpr hgso)]
    refine ⟨_, rfl, htagdata, hvlantci, hvproto, fun _ => ⟨hstart, hoff⟩, hprotocol', hgso.symm, ?_, ?_, ?_⟩
    · rw [if_pos hgso]
    · simp [hunsummed]
    · simp [hunsummed]
  case neg =>
    rw [if_pos hgso]
    refine ⟨_, rfl, htagdata, hvlantci, hvproto, fun _ => ⟨hstart, hoff⟩, hprotocol', rfl, ?_, ?_, ?_⟩
    · rw [if_neg hgso, hl4.gso_type hgso, htype]
      simp only [gsoTypeOf]
      split <;> [split; skip] <;> decide
    · simp [hunsummed]
    · simp [hunsummed]

/-- The total length of the encapsulated packet and the length in the sequence number are written
whole. -/
theorem sttOffloadable_len (hoffload : sttOffloadable sent l3_proto l4_proto) :
    iphdrLen + tcphdrLen + sttDataLen sent < 2 ^ 16 ∧
      (BitVec.ofNat 32 (sttDataLen sent <<< 16)).toNat = sttDataLen sent * 2 ^ 16 := by
  simp only [sttOffloadable, Bool.and_eq_true, decide_eq_true_eq] at hoffload
  have hlen := hoffload.1.2
  simp only [sttHeaderLen, iphdrLen, tcphdrLen] at hlen
  simp only [sttDataLen, iphdrLen, tcphdrLen]
  have hsmall : (sent.len + sttBaseHlen) * 2 ^ 16 < 2 ^ 32 := by omega
  refine ⟨by omega, ?_⟩
  rw [BitVec.toNat_ofNat, Nat.shiftLeft_eq]
  exact Nat.mod_eq_of_lt hsmall

/-- A packet without a checksum to be completed is not to be segmented. -/
theorem Prepared.gso_size_eq_zero (hprep : Prepared skb sent)
    (hwhole : sent.ip_summed ≠ .checksumPartial) : sent.gso_size = 0 := by
  have hsummed := hprep.ip_summed
  by_contra hgso
  rw [hprep.gso.1] at hgso
  rw [if_neg hgso] at hsummed
  exact hwhole hsummed

end

/-! ### The round trip -/

/-- A packet that may keep its offloads arrives with them. -/
theorem setOffloads_pushSttHeader (env rcv : SttKernel) (skb sent : SttSkb) (tun_id : BitVec 64)
    (dst_mtu : Int) (henv : env.unclone) (hrcv : rcv.unclone) (hpull : ∀ n, rcv.may_pull n)
    (hinner : InnerPacket skb)
    (hl4 : skb.ip_summed = .checksumPartial ∨ skb.gso_size ≠ 0 →
      ConsistentL4 skb skb.hProto (skbGetL4Proto env skb skb.hProto))
    (hcan : sttCanOffload env skb skb.hProto (skbGetL4Proto env skb skb.hProto) = (1, sent)) :
    Prepared skb sent ∧
      ∃ frame, pushSttHeader env sent tun_id skb.hProto (skbGetL4Proto env skb skb.hProto) dst_mtu =
          .ok frame ∧
        iphdrLen + tcphdrLen + sttDataLen sent < 2 ^ 16 ∧
        frame.seq.toNat = sttDataLen sent * 2 ^ 16 ∧
        ∀ (rx : SttSkb) (hdr_bytes : List (BitVec 8)), rx.data = hdr_bytes ++ frame.data →
          hdr_bytes.length = sttBaseHlen → rx.headroom + sttBaseHlen + 255 < 2 ^ 16 →
          ∃ pulled got, iptunnelPullHeader rcv rx sttBaseHlen = .ok pulled ∧
            setOffloads rcv pulled frame.hdr = (true, got) ∧ Restored sent got := by
  generalize hproto : skb.hProto = l3_proto at hl4 hcan ⊢
  generalize skbGetL4Proto env skb l3_proto = l4_proto at hl4 hcan ⊢
  obtain ⟨hfill, hoffload⟩ := sttCanOffload_eq_one hcan
  obtain ⟨hprep, -⟩ := sttFillCsum_ok hfill
  have hsame : sent.hProto = skb.hProto := hProto_eq_of_fill hfill hl4
  have hsent : InnerPacket sent := hinner.of_prepared hprep hsame
  obtain ⟨hlen, hseq⟩ := sttOffloadable_len hoffload
  obtain ⟨frame, hpush, hdata, hhdr, hframeseq⟩ := pushSttHeader_ok henv tun_id dst_mtu
  refine ⟨hprep, frame, hpush, hlen, hframeseq ▸ hseq, ?_⟩
  intro rx hdr_bytes hrx hhdrlen hroom
  rw [hdata] at hrx
  obtain ⟨pulled, hpulled, hpdata, hphead, hpproto, hptag⟩ :=
    iptunnelPullHeader_ok hpull hrcv hdr_bytes hrx hsent.eth_hlen
  rw [hhdrlen] at hpulled hphead
  have hprotocol : pulled.protocol = sent.protocol := hpproto.trans hsent.protocol.symm
  rw [hhdr]
  -- the flag in the header splits the receiver where the checksum state splits the sender
  by_cases hunsummed : sent.ip_summed = .checksumPartial
  case pos =>
    have hcons := ConsistentL4.of_fill hinner hl4 hfill hunsummed
    have hl3 : sent.protocol = l3_proto := by
      rw [hsent.protocol, SttSkb.etherProtocol, hsame, hproto]
      simp only [sttOffloadable, hunsummed, bne_self_eq_false, Bool.false_or, Bool.and_eq_true,
        Bool.or_eq_true, beq_iff_eq] at hoffload
      rcases hoffload.1.1.1.1.1 with rfl | rfl
      · rfl
      · rfl
    obtain ⟨got, hgot, hrestored⟩ := setOffloads_unsummed hpull hrcv hsent hcons hunsummed hoffload hl3
      tun_id hpdata (by omega) hptag
    exact ⟨pulled, got, hpulled, hgot, hrestored⟩
  case neg =>
    have hvlanproto : sent.vlanTagIsPresent → sent.vlan_proto = ethP8021q := by
      intro hpresent
      simp only [sttOffloadable, Bool.and_eq_true, Bool.or_eq_true, hpresent, Bool.not_true,
        Bool.false_eq_true, false_or, beq_iff_eq] at hoffload
      exact hoffload.2
    obtain ⟨got, hgot, hrestored⟩ := setOffloads_whole hrcv hsent hunsummed
      (hprep.gso_size_eq_zero hunsummed) hvlanproto tun_id hpdata hprotocol hptag
    exact ⟨pulled, got, hpulled, hgot, hrestored⟩

/-- Enough memory, no IPv6 extension headers, and no sums. -/
def sttIdealKernel : SttKernel where
  may_pull _ := true
  unclone := true
  ipv6_skip_exthdr _ off nexthdr := (off, nexthdr)
  csum_tcpudp_magic _ _ _ _ := 0
  csum_ipv6_magic _ _ _ _ := 0
  gso_encap_all := 0x7c0

/-- A TCP segment over IPv4 that is to be segmented and has a VLAN tag. -/
def sttTcpSegment : SttSkb where
  data := List.replicate 12 0 ++ [0x08, 0x00] ++ [0x45, 0, 0, 60, 0, 0, 0, 0, 64, 6, 0, 0] ++
    List.replicate 8 10 ++ List.replicate 40 0
  headroom := 96
  network_header := 14
  transport_header := 34
  protocol := ethPIp
  vlan_tci := 0x1005
  vlan_proto := ethP8021q
  ip_summed := .checksumNone
  csum_start := 0
  csum_offset := 0
  gso_size := 10
  gso_type := 1
  gso_segs := 2

theorem setOffloads_pushSttHeader_segment :
    Prepared sttTcpSegment
        (sttCanOffload sttIdealKernel sttTcpSegment ethPIp ipprotoTcp).2 ∧
      ∃ frame, pushSttHeader sttIdealKernel
          (sttCanOffload sttIdealKernel sttTcpSegment ethPIp ipprotoTcp).2 7 ethPIp ipprotoTcp 1500 =
            .ok frame ∧
        iphdrLen + tcphdrLen + sttDataLen (sttCanOffload sttIdealKernel sttTcpSegment ethPIp
          ipprotoTcp).2 < 2 ^ 16 ∧
        frame.seq.toNat = sttDataLen (sttCanOffload sttIdealKernel sttTcpSegment ethPIp
          ipprotoTcp).2 * 2 ^ 16 ∧
        ∀ (rx : SttSkb) (hdr_bytes : List (BitVec 8)), rx.data = hdr_bytes ++ frame.data →
          hdr_bytes.length = sttBaseHlen → rx.headroom + sttBaseHlen + 255 < 2 ^ 16 →
          ∃ pulled got, iptunnelPullHeader sttIdealKernel rx sttBaseHlen = .ok pulled ∧
            setOffloads sttIdealKernel pulled frame.hdr = (true, got) ∧
            Restored (sttCanOffload sttIdealKernel sttTcpSegment ethPIp ipprotoTcp).2 got := by
  have hproto : sttTcpSegment.hProto = ethPIp := by decide
  have hl4 : skbGetL4Proto sttIdealKernel sttTcpSegment ethPIp = ipprotoTcp := by decide
  have h := setOffloads_pushSttHeader sttIdealKernel sttIdealKernel sttTcpSegment
    (sttCanOffload sttIdealKernel sttTcpSegment ethPIp ipprotoTcp).2 7 1500 rfl rfl (fun _ => rfl)
    ⟨by decide, by decide, fun _ => by decide, by decide, by decide⟩
    (fun _ => by
      rw [hproto, hl4]
      exact ⟨by decide, by decide, by decide, by decide, by decide⟩)
    (by
      rw [hproto, hl4]
      decide)
  rw [hproto, hl4] at h
  exact h

end OvsDatapath.Stt
