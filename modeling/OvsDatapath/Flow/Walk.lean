import OvsDatapath.Flow.KeyExtract
import OvsDatapath.Lib.Reading

/-!
# Extracting a key, access by access

`key_extract` over again, down to the single accesses (`flow.c`). The functions of `Walk` are those of the
same name, and read the packet byte by byte: each access says which bytes it needs, and is a fault unless
`pskb_may_pull`, or whoever has called `key_extract`, has made sure of them. `skb->data` is the pointer of
the walk, and moves where `__skb_pull` and `__skb_push` stand. The loops are given as many rounds as the
packet has bytes, and one that is not done by then is a fault, too.
-/

namespace OvsDatapath.Flow

open OvsDatapath.Lib Reading

namespace Walk

/-! ## The link layer -/

/-- `parse_vlan_tag`. -/
def parseVlanTag (env : SkbEnv) (skb : SkBuff) (untag_vlan : Bool) : Reading (Int × SkBuff × Option VlanHead) := do
  let vh ← position
  let tpid ← read vh 2 (skb.be16At vh)
  if !ethTypeVlan tpid then pure (0, skb, none)
  else if skb.len < vh + 6 then pure (0, skb, none)
  else
    let pulled ← establish (skb.pskbMayPull env (vh + 6)) (vh + 6)
    if !pulled then pure (enomem, skb, none)
    else
      let tci ← read (vh + 2) 2 (skb.be16At (vh + 2))
      let tpid ← read vh 2 (skb.be16At vh)
      let tag : VlanHead := ⟨tpid, tci ||| vlanTagPresent⟩
      if untag_vlan then
        push vh
        match skbVlanPopHeader env skb with
        | (0, skb, tci) =>
            cut 4
            pull vh
            pure (1, skb.vlanHwaccelPutTag tag.tpid tci, some tag)
        | (err, skb, _) =>
            pull vh
            pure (err, skb, some tag)
      else
        pull 4
        pure (1, skb, some tag)

/-- The first half of `parse_vlan`: the tag that the hardware has taken out, or the one in the packet. -/
def outerTag (env : SkbEnv) (skb : SkBuff) : Reading (Int × SkBuff × Option VlanHead) :=
  if skb.vlanTagIsPresent then pure (1, skb, some ⟨skb.vlan_proto, skb.vlan_tci⟩) else parseVlanTag env skb true

/-- `parse_vlan`. -/
def parseVlan (env : SkbEnv) (skb : SkBuff) : Reading (Int × SkBuff × KeyStores × Option VlanHead) := do
  let (res, skb, vlan) ← outerTag env skb
  let stores := clearVlan ++ vlanStores 344 vlan
  if res ≤ 0 then pure (res, skb, stores, none)
  else
    let (res, skb, cvlan) ← parseVlanTag env skb false
    let stores := stores ++ vlanStores 348 cvlan
    pure (if res ≤ 0 then res else 0, skb, stores, cvlan)

/-- `parse_ethertype`. -/
def parseEthertype (env : SkbEnv) (skb : SkBuff) : Reading (BitVec 16) := do
  let data ← position
  let proto ← read data 2 (skb.be16At data)
  pull 2
  let llc ← position
  if ethProtoIs8023 proto then pure proto
  else if skb.len < llc + 8 then pure ethP8022
  else
    let pulled ← establish (skb.pskbMayPull env (llc + 8)) (llc + 8)
    if !pulled then pure 0
    else
      let dsap ← read llc 1 (skb.u8 llc)
      let ssap ← read (llc + 1) 1 (skb.u8 (llc + 1))
      let oui ← read (llc + 3) 3 (skb.u8 (llc + 3) ||| skb.u8 (llc + 4) ||| skb.u8 (llc + 5))
      if dsap ≠ 0xAA ∨ ssap ≠ 0xAA ∨ oui ≠ 0 then pure ethP8022
      else
        pull 8
        let ethertype ← read (llc + 6) 2 (skb.be16At (llc + 6))
        pure (if ethProtoIs8023 ethertype then ethertype else ethP8022)

/-- The part of `key_extract` above the network layer. -/
def extractLinkLayer (env : SkbEnv) (skb : SkBuff) (mac_proto : BitVec 8) :
    Reading (Int × SkBuff × BitVec 16 × KeyStores) := do
  let stores := ⟨366, zeros 2⟩ :: clearVlan
  if mac_proto = macProtoNone then
    if ethTypeVlan skb.protocol then pure (einval, skb, 0, stores)
    else
      let network_header ← position
      pure (0, { skb with network_header := network_header, mac_len := network_header }, skb.protocol,
        stores ++ [⟨352, be16 skb.protocol⟩])
  else
    let h_source ← read 6 6 (skb.bytes 6 6)
    let h_dest ← read 0 6 (skb.bytes 0 6)
    let stores := stores ++ [⟨332, h_source⟩, ⟨338, h_dest⟩]
    pull 12
    let (res, skb, vlan_stores, cvlan) ← parseVlan env skb
    let stores := stores ++ vlan_stores
    if res ≠ 0 then pure (enomem, skb, 0, stores)
    else
      let eth_type ← parseEthertype env skb
      let stores := stores ++ [⟨352, be16 eth_type⟩]
      if eth_type = 0 then pure (enomem, skb, 0, stores)
      else
        let protocol := match cvlan with
          | some tag => tag.tpid
          | none => eth_type
        let network_header ← position
        push network_header
        pure (0, { skb with protocol := protocol, network_header := network_header, mac_len := network_header },
          eth_type, stores)

/-! ## The network and the transport layer -/

/-- `check_header`. -/
def checkHeader (env : SkbEnv) (skb : SkBuff) (len : Nat) : Reading Int :=
  if skb.len < len then pure einval
  else do
    let pulled ← establish (skb.pskbMayPull env len) len
    pure (if !pulled then enomem else 0)

/-- `check_iphdr`. -/
def checkIphdr (env : SkbEnv) (skb : SkBuff) : Reading (Int × SkBuff) := do
  let nh_ofs := skb.network_header
  let err ← checkHeader env skb (nh_ofs + 20)
  if err ≠ 0 then pure (err, skb)
  else
    let ihl ← read nh_ofs 1 (skb.u8 nh_ofs &&& 0x0F)
    let ip_len := ihl.toNat * 4
    if ip_len < 20 ∨ skb.len < nh_ofs + ip_len then pure (einval, skb)
    else pure (0, { skb with transport_header := nh_ofs + ip_len })

/-- `tcphdr_ok`. -/
def tcphdrOk (env : SkbEnv) (skb : SkBuff) : Reading Bool := do
  let th_ofs := skb.transport_header
  let pulled ← establish (skb.pskbMayPull env (th_ofs + 20)) (th_ofs + 20)
  if !pulled then pure false
  else
    let doff ← read (th_ofs + 12) 1 (skb.u8 (th_ofs + 12) >>> 4)
    let tcp_len := doff.toNat * 4
    pure (decide (20 ≤ tcp_len) && decide (th_ofs + tcp_len ≤ skb.len))

/-- `udphdr_ok`, `sctphdr_ok`, `icmphdr_ok` and `icmp6hdr_ok`. -/
def transportHdrOk (env : SkbEnv) (skb : SkBuff) (size : Nat) : Reading Bool :=
  establish (skb.pskbMayPull env (skb.transport_header + size)) (skb.transport_header + size)

/-- The ports of TCP, UDP and SCTP. -/
def portStores (skb : SkBuff) : Reading KeyStores := do
  let source ← read skb.transport_header 2 (skb.bytes skb.transport_header 2)
  let dest ← read (skb.transport_header + 2) 2 (skb.bytes (skb.transport_header + 2) 2)
  pure [⟨362, source⟩, ⟨364, dest⟩]

/-- The ICMP type and code. -/
def icmpStores (skb : SkBuff) : Reading KeyStores := do
  let type ← read skb.transport_header 1 (skb.bytes skb.transport_header 1)
  let code ← read (skb.transport_header + 1) 1 (skb.bytes (skb.transport_header + 1) 1)
  pure [⟨362, 0 :: type⟩, ⟨364, 0 :: code⟩]

/-- The stores for TCP. -/
def tcpStores (env : SkbEnv) (skb : SkBuff) : Reading KeyStores := do
  let ok ← tcphdrOk env skb
  if ok then
    let ports ← portStores skb
    let flags ← read (skb.transport_header + 12) 2
      [skb.u8 (skb.transport_header + 12) &&& 0x0F, skb.u8 (skb.transport_header + 13)]
    pure (ports ++ [⟨366, flags⟩])
  else pure clearTp

/-- The stores for UDP and SCTP, with their headers of 8 and 12 bytes. -/
def transportStores (env : SkbEnv) (skb : SkBuff) (size : Nat) : Reading KeyStores := do
  let ok ← transportHdrOk env skb size
  if ok then portStores skb else pure clearTp

/-- The stores for ICMP. -/
def icmp4Stores (env : SkbEnv) (skb : SkBuff) : Reading KeyStores := do
  let ok ← transportHdrOk env skb 8
  if ok then icmpStores skb else pure clearTp

/-- The addresses, the protocol and so on, of an IPv4 header. -/
def ipHeaderStores (skb : SkBuff) (nh : Nat) (frag : BitVec 8) : Reading KeyStores := do
  let saddr ← read (nh + 12) 4 (skb.bytes (nh + 12) 4)
  let daddr ← read (nh + 16) 4 (skb.bytes (nh + 16) 4)
  let protocol ← read (nh + 9) 1 (skb.bytes (nh + 9) 1)
  let tos ← read (nh + 1) 1 (skb.bytes (nh + 1) 1)
  let ttl ← read (nh + 8) 1 (skb.bytes (nh + 8) 1)
  pure [⟨368, saddr⟩, ⟨372, daddr⟩, ⟨356, protocol⟩, ⟨357, tos⟩, ⟨358, ttl⟩, ⟨359, [frag]⟩]

/-- `key_extract` for `ETH_P_IP`. -/
def extractIp (env : SkbEnv) (skb : SkBuff) : Reading (Int × SkBuff × KeyStores) := do
  let (error, skb) ← checkIphdr env skb
  if error ≠ 0 then
    let stores := [⟨356, zeros 4⟩, ⟨368, zeros 20⟩]
    if error = einval then pure (0, { skb with transport_header := skb.network_header }, stores)
    else pure (error, skb, stores)
  else
    let nh := skb.network_header
    let proto ← read (nh + 9) 1 (skb.u8 (nh + 9))
    let frag_off ← read (nh + 6) 2 (skb.be16At (nh + 6))
    if frag_off &&& ipOffset ≠ 0 then
      let stores ← ipHeaderStores skb nh ovsFragTypeLater
      pure (0, skb, stores)
    else
      let frag := if frag_off &&& ipMf ≠ 0 ∨ skb.gso_udp then ovsFragTypeFirst else ovsFragTypeNone
      let stores ← ipHeaderStores skb nh frag
      if proto = ipprotoTcp then
        let tp ← tcpStores env skb
        pure (0, skb, stores ++ tp)
      else if proto = ipprotoUdp then
        let tp ← transportStores env skb 8
        pure (0, skb, stores ++ tp)
      else if proto = ipprotoSctp then
        let tp ← transportStores env skb 12
        pure (0, skb, stores ++ tp)
      else if proto = ipprotoIcmp then
        let tp ← icmp4Stores env skb
        pure (0, skb, stores ++ tp)
      else pure (0, skb, stores)

/-- `key_extract` for `ETH_P_ARP` and `ETH_P_RARP`. -/
def extractArp (env : SkbEnv) (skb : SkBuff) : Reading KeyStores := do
  let arp := skb.network_header
  let available ← establish (skb.pskbMayPull env (arp + 28)) (arp + 28)
  if !available then pure [⟨356, zeros 4⟩, ⟨368, zeros 20⟩]
  else
    let good ← read arp 6 (skb.be16At arp == 1 && skb.be16At (arp + 2) == ethPIp && skb.u8 (arp + 4) == 6 &&
      skb.u8 (arp + 5) == 4)
    if !good then pure [⟨356, zeros 4⟩, ⟨368, zeros 20⟩]
    else
      let op ← read (arp + 6) 2 (if skb.u8 (arp + 6) = 0 then skb.u8 (arp + 7) else 0)
      let ar_sip ← read (arp + 14) 4 (skb.bytes (arp + 14) 4)
      let ar_tip ← read (arp + 24) 4 (skb.bytes (arp + 24) 4)
      let ar_sha ← read (arp + 8) 6 (skb.bytes (arp + 8) 6)
      let ar_tha ← read (arp + 18) 6 (skb.bytes (arp + 18) 6)
      pure [⟨356, [op]⟩, ⟨368, ar_sip⟩, ⟨372, ar_tip⟩, ⟨376, ar_sha⟩, ⟨382, ar_tha⟩]

/-- The loop of `key_extract` over the label stack. -/
def mplsStack (env : SkbEnv) : Nat → Nat → SkBuff → Reading (SkBuff × KeyStores)
  | 0, _, _ => endless
  | fuel + 1, stack_len, skb => do
      let error ← checkHeader env skb (skb.mac_len + stack_len)
      if error ≠ 0 then pure (skb, [])
      else
        let lse ← read skb.inner_network_header 4 (skb.bytes skb.inner_network_header 4)
        let stores := if stack_len = mplsHlen then [⟨356, lse⟩] else []
        let skb := { skb with inner_network_header := skb.mac_len + stack_len }
        if lse.getD 2 0 &&& 1 ≠ 0 then pure (skb, stores)
        else
          let (skb, more) ← mplsStack env fuel (stack_len + mplsHlen) skb
          pure (skb, stores ++ more)

/-- `key_extract` for MPLS. -/
def extractMpls (env : SkbEnv) (skb : SkBuff) : Reading (SkBuff × KeyStores) :=
  mplsStack env (skb.len + 1) mplsHlen { skb with inner_network_header := skb.mac_len }

/-- The fields of an IPv6 header, before the extension headers are skipped. -/
def ipv6HeaderStores (skb : SkBuff) (nh_ofs : Nat) : Reading (BitVec 8 → KeyStores) := do
  let priority ← read nh_ofs 2 ((skb.be16At nh_ofs >>> 4).setWidth 8)
  let hop_limit ← read (nh_ofs + 7) 1 (skb.bytes (nh_ofs + 7) 1)
  let label ← read nh_ofs 4 [0, skb.u8 (nh_ofs + 1) &&& 0x0F, skb.u8 (nh_ofs + 2), skb.u8 (nh_ofs + 3)]
  let saddr ← read (nh_ofs + 8) 16 (skb.bytes (nh_ofs + 8) 16)
  let daddr ← read (nh_ofs + 24) 16 (skb.bytes (nh_ofs + 24) 16)
  pure fun frag => [⟨356, [nexthdrNone]⟩, ⟨357, [priority]⟩, ⟨358, hop_limit⟩, ⟨400, label⟩, ⟨368, saddr⟩,
    ⟨384, daddr⟩, ⟨359, [frag]⟩]

/-- `parse_ipv6hdr`. `ipv6_skip_exthdr` takes care of its own accesses. -/
def parseIpv6hdr (env : SkbEnv) (skb : SkBuff) : Reading (Int × SkBuff × KeyStores × BitVec 8 × BitVec 8) := do
  let nh_ofs := skb.network_header
  let err ← checkHeader env skb (nh_ofs + 40)
  if err ≠ 0 then pure (err, skb, [], 0, 0)
  else
    let nexthdr ← read (nh_ofs + 6) 1 (skb.u8 (nh_ofs + 6))
    let header ← ipv6HeaderStores skb nh_ofs
    match env.ipv6_skip_exthdr skb.data (nh_ofs + 40) nexthdr with
    | (payload_ofs, nexthdr, frag_off) =>
        let frag := ipv6FragType frag_off
        if payload_ofs < 0 then pure (eproto, skb, header frag, nexthdrNone, frag)
        else
          pure (payload_ofs - nh_ofs, { skb with transport_header := payload_ofs.toNat },
            header frag ++ [⟨356, [nexthdr]⟩], nexthdr, frag)

/-- The loop of `parse_icmpv6` over the options. -/
def ndOptions (skb : SkBuff) : Nat → Nat → Nat → List (BitVec 8) → List (BitVec 8) →
    Reading (Option (List (BitVec 8) × List (BitVec 8)))
  | 0, _, _, _, _ => endless
  | fuel + 1, offset, icmp_len, sll, tll =>
      if icmp_len < 8 then pure (some (sll, tll))
      else do
        let nd_opt_len ← read (offset + 1) 1 (skb.u8 (offset + 1))
        let opt_len := nd_opt_len.toNat * 8
        if opt_len = 0 ∨ icmp_len < opt_len then pure (some (sll, tll))
        else
          let nd_opt_type ← read offset 1 (skb.u8 offset)
          if nd_opt_type = 1 ∧ opt_len = 8 then
            if sll ≠ zeros 6 then pure none
            else
              let sll ← read (offset + 2) 6 (skb.bytes (offset + 2) 6)
              ndOptions skb fuel (offset + opt_len) (icmp_len - opt_len) sll tll
          else if nd_opt_type = 2 ∧ opt_len = 8 then
            if tll ≠ zeros 6 then pure none
            else
              let tll ← read (offset + 2) 6 (skb.bytes (offset + 2) 6)
              ndOptions skb fuel (offset + opt_len) (icmp_len - opt_len) sll tll
          else ndOptions skb fuel (offset + opt_len) (icmp_len - opt_len) sll tll

/-- `parse_icmpv6`. -/
def parseIcmpv6 (env : SkbEnv) (skb : SkBuff) : Reading (Int × KeyStores) := do
  let th := skb.transport_header
  let icmp ← icmpStores skb
  let stores := icmp ++ [⟨404, zeros 28⟩]
  let type ← read th 1 (skb.u8 th)
  let code ← read (th + 1) 1 (skb.u8 (th + 1))
  if code = 0 ∧ (type = 135 ∨ type = 136) then
    let icmp_len := skb.len - th
    if icmp_len < 24 then pure (0, stores)
    else
      let linear ← establish env.linearize skb.len
      if !linear then pure (enomem, stores)
      else
        let target ← read (th + 8) 16 (skb.bytes (th + 8) 16)
        let stores := stores ++ [⟨404, target⟩]
        let options ← ndOptions skb icmp_len (th + 24) (icmp_len - 24) (zeros 6) (zeros 6)
        match options with
        | some (sll, tll) => pure (0, stores ++ [⟨420, sll⟩, ⟨426, tll⟩])
        | none => pure (0, stores ++ [⟨404, zeros 16⟩, ⟨420, zeros 6⟩, ⟨426, zeros 6⟩])
  else pure (0, stores)

/-- `key_extract` for `ETH_P_IPV6`. -/
def extractIpv6 (env : SkbEnv) (skb : SkBuff) : Reading (Int × SkBuff × KeyStores) := do
  let (nh_len, skb, stores, proto, frag) ← parseIpv6hdr env skb
  if nh_len < 0 then
    if nh_len = einval then
      pure (0, { skb with transport_header := skb.network_header }, stores ++ [⟨356, zeros 4⟩, ⟨368, zeros 32⟩])
    else if nh_len = eproto then pure (0, { skb with transport_header := skb.network_header }, stores)
    else pure (nh_len, skb, stores)
  else if frag = ovsFragTypeLater then pure (0, skb, stores)
  else
    let stores := stores ++ if skb.gso_udp then [⟨359, [ovsFragTypeFirst]⟩] else []
    if proto = ipprotoTcp then
      let tp ← tcpStores env skb
      pure (0, skb, stores ++ tp)
    else if proto = ipprotoUdp then
      let tp ← transportStores env skb 8
      pure (0, skb, stores ++ tp)
    else if proto = ipprotoSctp then
      let tp ← transportStores env skb 12
      pure (0, skb, stores ++ tp)
    else if proto = nexthdrIcmp then
      let ok ← transportHdrOk env skb 8
      if ok then
        let (error, icmp_stores) ← parseIcmpv6 env skb
        pure (error, skb, stores ++ icmp_stores)
      else pure (0, skb, stores ++ clearTp)
    else pure (0, skb, stores)

/-- `key_extract`. -/
def keyExtract (env : SkbEnv) (skb : SkBuff) (mac_proto : BitVec 8) : Reading (Int × SkBuff × KeyStores) := do
  let (error, skb, eth_type, stores) ← extractLinkLayer env skb mac_proto
  if error ≠ 0 then pure (error, skb, stores)
  else if eth_type = ethPIp then
    let (error, skb, ip_stores) ← extractIp env skb
    pure (error, skb, stores ++ ip_stores)
  else if eth_type = ethPArp ∨ eth_type = ethPRarp then
    let arp_stores ← extractArp env skb
    pure (0, skb, stores ++ arp_stores)
  else if ethPMpls eth_type then
    let (skb, mpls_stores) ← extractMpls env skb
    pure (0, skb, stores ++ mpls_stores)
  else if eth_type = ethPIpv6 then
    let (error, skb, ip_stores) ← extractIpv6 env skb
    pure (error, skb, stores ++ ip_stores)
  else pure (0, skb, stores)

end Walk

end OvsDatapath.Flow
