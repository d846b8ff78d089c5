import OvsDatapath.Flow.KeyExtract

/-!
# What a packet writes into the key

`key_extract` stores into different members of the key for different kinds of packets, and it decides
by the headers alone. `NetworkKind` names the exits behind the link layer, `networkKind` tells the
kind of a packet, and `NetworkKind.Writes` is the table of the bytes that are written on each exit.
What a successful extraction writes is exactly what the table says (`reaches_keyExtract`); all other
bytes of the key are those that were in the buffer before.
-/

namespace OvsDatapath.Flow

open OvsDatapath.Lib

/-- What `key_extract` stores of a transport header. -/
inductive TransportKind where
  /-- A later fragment, or a protocol without ports. -/
  | none
  | ports
  /-- An ICMPv6 message, with room for a neighbour discovery target. -/
  | icmpv6
  deriving DecidableEq, Repr

/-- What `key_extract` finds behind the link layer. -/
inductive NetworkKind where
  | badIp
  | ip (transport : TransportKind)
  | badArp
  | arp
  | badMpls
  | mpls
  | badIpv6
  | ipv6 (transport : TransportKind)
  | other
  deriving DecidableEq, Repr

/-- The bytes written for a transport header. -/
def TransportKind.Writes : TransportKind → Nat → Prop
  | .none, _ => False
  | .ports, j => 362 ≤ j ∧ j < 366
  | .icmpv6, j => (362 ≤ j ∧ j < 366) ∨ (404 ≤ j ∧ j < 432)

/-- The bytes written for what is behind the link layer. -/
def NetworkKind.Writes : NetworkKind → Nat → Prop
  | .badIp, j => (356 ≤ j ∧ j < 360) ∨ (368 ≤ j ∧ j < 388)
  | .ip transport, j => (356 ≤ j ∧ j < 360) ∨ (368 ≤ j ∧ j < 376) ∨ transport.Writes j
  | .badArp, j => (356 ≤ j ∧ j < 360) ∨ (368 ≤ j ∧ j < 388)
  | .arp, j => j = 356 ∨ (368 ≤ j ∧ j < 388)
  | .badMpls, _ => False
  | .mpls, j => 356 ≤ j ∧ j < 360
  | .badIpv6, j => (356 ≤ j ∧ j < 360) ∨ (368 ≤ j ∧ j < 400)
  | .ipv6 transport, j => (356 ≤ j ∧ j < 360) ∨ (368 ≤ j ∧ j < 404) ∨ transport.Writes j
  | .other, _ => False

/-- The bytes written for the link layer. -/
def LinkWrites (mac_proto : BitVec 8) (j : Nat) : Prop :=
  (mac_proto ≠ macProtoNone ∧ 332 ≤ j ∧ j < 344) ∨ (344 ≤ j ∧ j < 354) ∨ (366 ≤ j ∧ j < 368)

/-! ## The kind of a packet -/

/-- The protocols whose ports, or type and code, `key_extract` stores for IPv4. -/
def ipHasPorts (proto : BitVec 8) : Bool :=
  proto == ipprotoTcp || proto == ipprotoUdp || proto == ipprotoSctp || proto == ipprotoIcmp

/-- The kind of an IPv4 packet. -/
def ipKind (env : SkbEnv) (skb : SkBuff) : NetworkKind :=
  let nh := skb.network_header
  if (checkIphdr env skb).1 ≠ 0 then .badIp
  else if skb.be16At (nh + 6) &&& ipOffset ≠ 0 then .ip .none
  else if ipHasPorts (skb.u8 (nh + 9)) then .ip .ports else .ip .none

/-- The kind of an ARP packet. -/
def arpKind (env : SkbEnv) (skb : SkBuff) : NetworkKind :=
  let arp := skb.network_header
  if arphdrOk env skb && skb.be16At arp == 1 && skb.be16At (arp + 2) == ethPIp &&
      skb.u8 (arp + 4) == 6 && skb.u8 (arp + 5) == 4 then .arp
  else .badArp

/-- The kind of an MPLS packet. -/
def mplsKind (env : SkbEnv) (skb : SkBuff) : NetworkKind :=
  if checkHeader env skb (skb.mac_len + mplsHlen) ≠ 0 then .badMpls else .mpls

/-- The kind of an IPv6 packet. -/
def ipv6Kind (env : SkbEnv) (skb : SkBuff) : NetworkKind :=
  let nh := skb.network_header
  if checkHeader env skb (nh + 40) ≠ 0 then .badIpv6
  else
    match env.ipv6_skip_exthdr skb.data (nh + 40) (skb.u8 (nh + 6)) with
    | (payload_ofs, nexthdr, frag_off) =>
        if payload_ofs < 0 ∨ frag_off &&& ~~~0x7 ≠ 0 then .ipv6 .none
        else if nexthdr = ipprotoTcp ∨ nexthdr = ipprotoUdp ∨ nexthdr = ipprotoSctp then .ipv6 .ports
        else if nexthdr = nexthdrIcmp then
          if skb.pskbMayPull env (payload_ofs.toNat + 8) then .ipv6 .icmpv6 else .ipv6 .ports
        else .ipv6 .none

/-- The kind of a packet, by the type behind the link layer. -/
def networkKind (env : SkbEnv) (skb : SkBuff) (eth_type : BitVec 16) : NetworkKind :=
  if eth_type = ethPIp then ipKind env skb
  else if eth_type = ethPArp ∨ eth_type = ethPRarp then arpKind env skb
  else if ethPMpls eth_type then mplsKind env skb
  else if eth_type = ethPIpv6 then ipv6Kind env skb
  else .other

/-- The kind of a packet. -/
def packetKind (env : SkbEnv) (skb : SkBuff) (mac_proto : BitVec 8) : NetworkKind :=
  let (_, skb, eth_type, _) := extractLinkLayer env skb mac_proto
  networkKind env skb eth_type

/-! ## The link layer -/

theorem reaches_clearVlan (j : Nat) : Reaches clearVlan j ↔ 344 ≤ j ∧ j < 352 := by
  simp only [clearVlan, reaches_cons, reaches_nil, zeros_length, or_false]
  omega

theorem reaches_vlanStores {off : Nat} {tag : Option VlanHead} {j : Nat}
    (h : Reaches (vlanStores off tag) j) : off ≤ j ∧ j < off + 4 := by
  cases tag with
  | none => exact h.elim
  | some tag =>
      simp only [vlanStores, reaches_cons, reaches_nil, be16_length, or_false] at h
      omega

/-- Both tags are cleared, and then stored if they are there. -/
theorem parseVlan_stores (env : SkbEnv) (skb : SkBuff) (pos : Nat) :
    ∃ vlan cvlan, (parseVlan env skb pos).2.2.2.1 =
      clearVlan ++ vlanStores 344 vlan ++ vlanStores 348 cvlan := by
  unfold parseVlan
  generalize (if skb.vlanTagIsPresent then _ else _ : Int × SkBuff × Nat × Option VlanHead) = first
  obtain ⟨res, skb, pos, vlan⟩ := first
  by_cases hres : res ≤ 0
  · exact ⟨vlan, none, by simp [hres, vlanStores]⟩
  · refine ⟨vlan, (parseVlanTag env skb pos false).2.2.2, ?_⟩
    simp only [hres, if_false]
    split <;> rfl

theorem reaches_parseVlan (env : SkbEnv) (skb : SkBuff) (pos j : Nat) :
    Reaches (parseVlan env skb pos).2.2.2.1 j ↔ 344 ≤ j ∧ j < 352 := by
  obtain ⟨vlan, cvlan, heq⟩ := parseVlan_stores env skb pos
  have hvlan : Reaches (vlanStores 344 vlan) j → 344 ≤ j ∧ j < 344 + 4 := reaches_vlanStores
  have hcvlan : Reaches (vlanStores 348 cvlan) j → 348 ≤ j ∧ j < 348 + 4 := reaches_vlanStores
  rw [heq, reaches_append, reaches_append, reaches_clearVlan]
  grind

theorem reaches_extractLinkLayer {env : SkbEnv} {skb : SkBuff} {mac_proto : BitVec 8}
    (h : (extractLinkLayer env skb mac_proto).1 = 0) (j : Nat) :
    Reaches (extractLinkLayer env skb mac_proto).2.2.2 j ↔ LinkWrites mac_proto j := by
  have hclear := reaches_clearVlan j
  have hparse := reaches_parseVlan env skb 12 j
  unfold extractLinkLayer at h ⊢
  unfold LinkWrites
  split at h
  case isTrue hnone =>
    rw [if_pos hnone]
    split at h
    · cases h
    · rename_i hvlan
      rw [if_neg hvlan]
      simp only [reaches_append, reaches_cons, reaches_nil, zeros_length, be16_length, or_false, hclear,
        hnone, ne_eq, not_true_eq_false, false_and, false_or]
      omega
  case isFalse hether =>
    rw [if_neg hether]
    dsimp only at h ⊢
    split at h
    · cases h
    · rename_i hres
      rw [if_neg hres]
      split at h
      · cases h
      · rename_i htype
        rw [if_neg htype]
        simp only [reaches_append, reaches_cons, reaches_nil, zeros_length, be16_length, or_false, hclear,
          hparse, SkBuff.bytes_length, hether, ne_eq, not_false_eq_true, true_and]
        omega

/-! ## Transport headers -/

/-- The flags of TCP, which are written for every packet. -/
def TpFlags (j : Nat) : Prop := 366 ≤ j ∧ j < 368

theorem reaches_portStores (skb : SkBuff) (j : Nat) :
    Reaches (portStores skb) j ↔ 362 ≤ j ∧ j < 366 := by
  simp only [portStores, reaches_cons, reaches_nil, SkBuff.bytes_length, or_false]
  omega

theorem reaches_icmpStores (skb : SkBuff) (j : Nat) :
    Reaches (icmpStores skb) j ↔ 362 ≤ j ∧ j < 366 := by
  simp only [icmpStores, reaches_cons, reaches_nil, List.length_cons, SkBuff.bytes_length, or_false]
  omega

theorem reaches_clearTp (j : Nat) : Reaches clearTp j ↔ 362 ≤ j ∧ j < 368 := by
  simp only [clearTp, reaches_cons, reaches_nil, zeros_length, or_false]

theorem reaches_tcpStores (env : SkbEnv) (skb : SkBuff) (j : Nat) :
    Reaches (tcpStores env skb) j ↔ 362 ≤ j ∧ j < 368 := by
  unfold tcpStores
  split
  · simp only [reaches_append, reaches_portStores, reaches_cons, reaches_nil, List.length_cons,
      List.length_nil, or_false]
    omega
  · exact reaches_clearTp j

/-- Ports where the header is good, and zeros elsewhere, are the same bytes but for the flags. -/
theorem reaches_portStores_or_clearTp (skb : SkBuff) (ok : Bool) {j : Nat} (hflags : ¬ TpFlags j) :
    Reaches (if ok then portStores skb else clearTp) j ↔ 362 ≤ j ∧ j < 366 := by
  unfold TpFlags at hflags
  split
  · exact reaches_portStores skb j
  · rw [reaches_clearTp]
    omega

theorem reaches_icmpStores_or_clearTp (skb : SkBuff) (ok : Bool) {j : Nat} (hflags : ¬ TpFlags j) :
    Reaches (if ok then icmpStores skb else clearTp) j ↔ 362 ≤ j ∧ j < 366 := by
  unfold TpFlags at hflags
  split
  · exact reaches_icmpStores skb j
  · rw [reaches_clearTp]
    omega

/-! ## Network headers -/

/-- `check_iphdr` sets the transport header and nothing else. -/
theorem checkIphdr_eq (env : SkbEnv) (skb : SkBuff) :
    ∃ error skb', checkIphdr env skb = (error, skb') ∧ skb'.network_header = skb.network_header ∧
      skb'.u8 = skb.u8 ∧ skb'.be16At = skb.be16At := by
  unfold checkIphdr
  dsimp only
  split
  · exact ⟨_, _, rfl, rfl, rfl, rfl⟩
  · split <;> exact ⟨_, _, rfl, rfl, rfl, rfl⟩

theorem reaches_ipHeaderStores (skb : SkBuff) (nh : Nat) (frag : BitVec 8) (j : Nat) :
    Reaches (ipHeaderStores skb nh frag) j ↔ (356 ≤ j ∧ j < 360) ∨ (368 ≤ j ∧ j < 376) := by
  simp only [ipHeaderStores, reaches_cons, reaches_nil, SkBuff.bytes_length, List.length_cons,
    List.length_nil, or_false]
  omega

theorem reaches_extractIp {env : SkbEnv} {skb : SkBuff} (h : (extractIp env skb).1 = 0) {j : Nat}
    (hflags : ¬ TpFlags j) :
    Reaches (extractIp env skb).2.2 j ↔ (ipKind env skb).Writes j := by
  obtain ⟨error, skb', hcheck, hnh, hu8, hbe16⟩ := checkIphdr_eq env skb
  unfold extractIp at h ⊢
  unfold ipKind
  rw [hcheck] at h ⊢
  dsimp only at h ⊢
  rw [← hnh, ← hu8, ← hbe16]
  split at h
  case isTrue hbad =>
    rw [if_pos hbad, if_pos hbad]
    split at h
    · rename_i hinval
      rw [if_pos hinval]
      simp only [NetworkKind.Writes, reaches_cons, reaches_nil, zeros_length, or_false]
    · exact absurd h hbad
  case isFalse hgood =>
    rw [if_neg hgood, if_neg hgood]
    clear h hcheck hgood
    have htcp := reaches_tcpStores env skb' j
    have hudp : Reaches (udpStores env skb') j ↔ _ := reaches_portStores_or_clearTp skb' _ hflags
    have hsctp : Reaches (sctpStores env skb') j ↔ _ := reaches_portStores_or_clearTp skb' _ hflags
    have hicmp := reaches_icmpStores_or_clearTp skb' (icmphdrOk env skb') hflags
    unfold TpFlags at hflags
    unfold ipHasPorts
    by_cases hlater : skb'.be16At (skb'.network_header + 6) &&& ipOffset ≠ 0
    · rw [if_pos hlater, if_pos hlater, reaches_ipHeaderStores]
      simp only [NetworkKind.Writes, TransportKind.Writes, or_false]
    · rw [if_neg hlater, if_neg hlater]
      generalize skb'.u8 (skb'.network_header + 9) = proto
      generalize (if skb'.be16At (skb'.network_header + 6) &&& ipMf ≠ 0 ∨ skb'.gso_udp = true then
        ovsFragTypeFirst else ovsFragTypeNone) = frag
      -- one protocol after the other
      split
      case isTrue hproto =>
        simp only [reaches_append _ (tcpStores _ _), reaches_ipHeaderStores, htcp, hproto, BEq.rfl,
          Bool.true_or, if_true,
          NetworkKind.Writes, TransportKind.Writes]
        omega
      split
      case isTrue hproto =>
        simp only [reaches_append _ (udpStores _ _), reaches_ipHeaderStores, hudp, hproto, BEq.rfl,
          Bool.true_or, Bool.or_true,
          if_true, NetworkKind.Writes, TransportKind.Writes, or_assoc]
      split
      case isTrue hproto =>
        simp only [reaches_append _ (sctpStores _ _), reaches_ipHeaderStores, hsctp, hproto, BEq.rfl,
          Bool.true_or, Bool.or_true,
          if_true, NetworkKind.Writes, TransportKind.Writes, or_assoc]
      split
      case isTrue hproto =>
        simp only [reaches_append _ (ite _ _ _), reaches_ipHeaderStores, hicmp, hproto, BEq.rfl, Bool.or_true,
          if_true, NetworkKind.Writes, TransportKind.Writes, or_assoc]
      case isFalse h1 h2 h3 h4 =>
        simp only [reaches_ipHeaderStores, beq_eq_false_iff_ne.mpr, h1, h2, h3, h4, ne_eq,
          not_false_eq_true, Bool.or_false, Bool.false_eq_true, if_false, NetworkKind.Writes, TransportKind.Writes,
          or_false]

theorem reaches_extractArp (env : SkbEnv) (skb : SkBuff) (j : Nat) :
    Reaches (extractArp env skb) j ↔ (arpKind env skb).Writes j := by
  unfold extractArp arpKind
  dsimp only
  split
  · simp only [NetworkKind.Writes, reaches_cons, reaches_nil, SkBuff.bytes_length, List.length_cons,
      List.length_nil, or_false]
    omega
  · simp only [NetworkKind.Writes, reaches_cons, reaches_nil, zeros_length, or_false]

theorem reaches_extractMpls (env : SkbEnv) (skb : SkBuff) (j : Nat) :
    Reaches (extractMpls env skb).2 j ↔ (mplsKind env skb).Writes j := by
  show Reaches (if checkHeader env skb (skb.mac_len + mplsHlen) ≠ 0 then _ else _) j ↔ _
  unfold mplsKind
  split
  · exact Iff.rfl
  · simp only [NetworkKind.Writes, reaches_cons, reaches_nil, SkBuff.bytes_length, or_false]

theorem reaches_ipv6HeaderStores (skb : SkBuff) (nh_ofs : Nat) (frag : BitVec 8) (j : Nat) :
    Reaches (ipv6HeaderStores skb nh_ofs frag) j ↔ (356 ≤ j ∧ j < 360) ∨ (368 ≤ j ∧ j < 404) := by
  simp only [ipv6HeaderStores, reaches_cons, reaches_nil, SkBuff.bytes_length, List.length_cons,
    List.length_nil, or_false]
  omega

/-- The link layer addresses keep their size. -/
theorem ndOptions_length {skb : SkBuff} {fuel offset icmp_len : Nat} {sll tll sll' tll' : List (BitVec 8)}
    (h : ndOptions skb fuel offset icmp_len sll tll = some (sll', tll')) (hsll : sll.length = 6)
    (htll : tll.length = 6) : sll'.length = 6 ∧ tll'.length = 6 := by
  fun_induction ndOptions skb fuel offset icmp_len sll tll with
  | case1 | case2 | case3 =>
      cases h
      exact ⟨hsll, htll⟩
  | case4 | case6 => cases h
  | case5 fuel offset icmp_len sll tll _ _ _ _ _ _ ih => exact ih h (skb.bytes_length ..) htll
  | case7 fuel offset icmp_len sll tll _ _ _ _ _ _ _ ih => exact ih h hsll (skb.bytes_length ..)
  | case8 fuel offset icmp_len sll tll _ _ _ _ _ _ ih => exact ih h hsll htll

theorem reaches_parseIcmpv6 (env : SkbEnv) (skb : SkBuff) (j : Nat) :
    Reaches (parseIcmpv6 env skb).2 j ↔ (362 ≤ j ∧ j < 366) ∨ (404 ≤ j ∧ j < 432) := by
  have hicmp := reaches_icmpStores skb j
  have hstores : Reaches (icmpStores skb ++ [⟨404, zeros 28⟩]) j ↔
      (362 ≤ j ∧ j < 366) ∨ (404 ≤ j ∧ j < 432) := by
    simp only [reaches_append, hicmp, reaches_cons, reaches_nil, zeros_length, or_false]
  unfold parseIcmpv6
  dsimp only
  split
  · split
    · exact hstores
    · split
      · exact hstores
      · -- what is stored later lies in the part that has been cleared
        split
        case h_1 sll tll heq =>
          obtain ⟨hsll, htll⟩ := ndOptions_length heq (zeros_length 6) (zeros_length 6)
          simp only [reaches_append _ (_ :: _), hicmp, reaches_cons, reaches_nil, zeros_length,
            SkBuff.bytes_length, hsll, htll, or_false]
          omega
        · simp only [reaches_append _ (_ :: _), hicmp, reaches_cons, reaches_nil, zeros_length,
            SkBuff.bytes_length, or_false]
          omega
  · exact hstores

theorem checkHeader_cases (env : SkbEnv) (skb : SkBuff) (len : Nat) :
    checkHeader env skb len = 0 ∨ checkHeader env skb len = einval ∨ checkHeader env skb len = enomem := by
  unfold checkHeader
  split
  · exact .inr (.inl rfl)
  · split
    · exact .inr (.inr rfl)
    · exact .inl rfl

theorem eproto_neg : eproto < 0 := by decide

theorem eproto_ne_einval : eproto ≠ einval := by decide

/-- Only a later fragment has an offset. -/
theorem ipv6FragType_eq_later (frag_off : BitVec 16) :
    ipv6FragType frag_off = ovsFragTypeLater ↔ frag_off &&& ~~~7 ≠ 0 := by
  unfold ipv6FragType
  by_cases hzero : frag_off = 0
  · subst hzero
    decide
  · rw [if_pos hzero]
    split
    case isTrue h => exact iff_of_true rfl h
    case isFalse h => exact iff_of_false (by decide) h

theorem reaches_extractIpv6 {env : SkbEnv} {skb : SkBuff} (h : (extractIpv6 env skb).1 = 0) {j : Nat}
    (hflags : ¬ TpFlags j) :
    Reaches (extractIpv6 env skb).2.2 j ↔ (ipv6Kind env skb).Writes j := by
  by_cases hbad : checkHeader env skb (skb.network_header + 40) ≠ 0
  · have hparse : parseIpv6hdr env skb =
        (checkHeader env skb (skb.network_header + 40), skb, [], 0, 0) := if_pos hbad
    have hkind : ipv6Kind env skb = .badIpv6 := if_pos hbad
    unfold extractIpv6 at h ⊢
    rw [hparse] at h ⊢
    rw [hkind]
    dsimp only at h ⊢
    have hcases := (checkHeader_cases env skb (skb.network_header + 40)).resolve_left hbad
    rcases hcases with heq | heq
    · rw [heq, if_pos (by decide), if_pos rfl]
      simp only [List.nil_append, NetworkKind.Writes, reaches_cons, reaches_nil, zeros_length, or_false]
    · rw [heq] at h
      cases h
  · have hforward :=
      env.le_ipv6_skip_exthdr skb.data (skb.network_header + 40) (skb.u8 (skb.network_header + 6))
    unfold extractIpv6 parseIpv6hdr at h ⊢
    unfold ipv6Kind
    rw [if_neg hbad] at h ⊢
    rw [if_neg hbad]
    rcases hskip : env.ipv6_skip_exthdr skb.data (skb.network_header + 40)
      (skb.u8 (skb.network_header + 6)) with ⟨payload_ofs, nexthdr, frag_off⟩
    rw [hskip] at h hforward
    dsimp only at h hforward ⊢
    by_cases hpayload : payload_ofs < 0
    · -- no payload behind the headers
      rw [if_pos hpayload, if_pos (Or.inl hpayload)]
      dsimp only
      rw [if_pos eproto_neg, if_neg eproto_ne_einval, if_pos rfl, reaches_ipv6HeaderStores]
      simp only [NetworkKind.Writes, TransportKind.Writes, or_false]
    · have hlen : ¬ payload_ofs - (skb.network_header : Int) < 0 := by
        have := hforward (by omega)
        omega
      rw [if_neg hpayload] at h ⊢
      dsimp only at h ⊢
      rw [if_neg hlen] at h ⊢
      have hnexthdr : Reaches (ipv6HeaderStores skb skb.network_header (ipv6FragType frag_off) ++
          [⟨356, [nexthdr]⟩]) j ↔ (356 ≤ j ∧ j < 360) ∨ (368 ≤ j ∧ j < 404) := by
        simp only [reaches_append, reaches_ipv6HeaderStores, reaches_cons, reaches_nil, List.length_cons,
          List.length_nil, or_false]
        omega
      by_cases hlater : frag_off &&& ~~~7 ≠ 0
      · rw [if_pos ((ipv6FragType_eq_later frag_off).mpr hlater), if_pos (.inr hlater), hnexthdr]
        simp only [NetworkKind.Writes, TransportKind.Writes, or_false]
      · rw [if_neg (mt (ipv6FragType_eq_later frag_off).mp hlater)] at h ⊢
        rw [if_neg (not_or.mpr ⟨hpayload, hlater⟩)]
        have hgso : Reaches (ipv6HeaderStores skb skb.network_header (ipv6FragType frag_off) ++
            [⟨356, [nexthdr]⟩] ++ if skb.gso_udp then [⟨359, [ovsFragTypeFirst]⟩] else []) j ↔
              (356 ≤ j ∧ j < 360) ∨ (368 ≤ j ∧ j < 404) := by
          rw [reaches_append, hnexthdr]
          split
          · simp only [reaches_cons, reaches_nil, List.length_cons, List.length_nil, or_false]
            omega
          · simp only [reaches_nil, or_false]
        have hicmp6 : icmp6hdrOk env { skb with transport_header := payload_ofs.toNat } =
          skb.pskbMayPull env (payload_ofs.toNat + 8) := rfl
        clear h hnexthdr
        generalize ipv6HeaderStores skb skb.network_header (ipv6FragType frag_off) ++
          [⟨356, [nexthdr]⟩] ++ (if skb.gso_udp then [⟨359, [ovsFragTypeFirst]⟩] else []) = stores
          at hgso ⊢
        generalize ({ skb with transport_header := payload_ofs.toNat } : SkBuff) = skb' at hicmp6 ⊢
        have htcp := reaches_tcpStores env skb' j
        have hudp : Reaches (udpStores env skb') j ↔ _ := reaches_portStores_or_clearTp skb' _ hflags
        have hsctp : Reaches (sctpStores env skb') j ↔ _ := reaches_portStores_or_clearTp skb' _ hflags
        have hicmp := reaches_parseIcmpv6 env skb' j
        have hclear := reaches_clearTp j
        unfold TpFlags at hflags
        -- one protocol after the other
        split
        case isTrue hproto =>
          rw [if_pos (.inl hproto)]
          simp only [reaches_append, hgso, htcp, NetworkKind.Writes, TransportKind.Writes]
          omega
        split
        case isTrue hproto =>
          rw [if_pos (.inr (.inl hproto))]
          simp only [reaches_append, hgso, hudp, NetworkKind.Writes, TransportKind.Writes, or_assoc]
        split
        case isTrue hproto =>
          rw [if_pos (.inr (.inr hproto))]
          simp only [reaches_append, hgso, hsctp, NetworkKind.Writes, TransportKind.Writes, or_assoc]
        rename_i htcp' hudp' hsctp'
        rw [if_neg (not_or.mpr ⟨htcp', not_or.mpr ⟨hudp', hsctp'⟩⟩)]
        split
        case isTrue =>
          rw [← hicmp6]
          split
          · simp only [reaches_append, hgso, hicmp, NetworkKind.Writes, TransportKind.Writes, or_assoc]
          · simp only [reaches_append, hgso, hclear, NetworkKind.Writes, TransportKind.Writes]
            omega
        case isFalse => simp only [hgso, NetworkKind.Writes, TransportKind.Writes, or_false]

/-! ## The whole packet -/

/-- **What an extraction writes.** -/
theorem reaches_keyExtract {env : SkbEnv} {skb : SkBuff} {mac_proto : BitVec 8}
    (h : (keyExtract env skb mac_proto).1 = 0) (j : Nat) :
    Reaches (keyExtract env skb mac_proto).2.2 j ↔
      LinkWrites mac_proto j ∨ (packetKind env skb mac_proto).Writes j := by
  unfold keyExtract at h ⊢
  unfold packetKind networkKind
  have hlink := @reaches_extractLinkLayer env skb mac_proto
  rcases hextract : extractLinkLayer env skb mac_proto with ⟨error, skb', eth_type, stores⟩
  rw [hextract] at h hlink
  dsimp only at h hlink ⊢
  by_cases herror : error ≠ 0
  · rw [if_pos herror] at h
    exact absurd h herror
  rw [if_neg herror] at h ⊢
  have hlink := hlink (not_not.mp herror) j
  by_cases hflags : TpFlags j
  · -- the flags are written first
    have hwrites : LinkWrites mac_proto j := .inr (.inr hflags)
    have hstores := hlink.mpr hwrites
    refine iff_of_true ?_ (.inl hwrites)
    split
    · exact (reaches_append ..).mpr (.inl hstores)
    split
    · exact (reaches_append ..).mpr (.inl hstores)
    split
    · exact (reaches_append ..).mpr (.inl hstores)
    split
    · exact (reaches_append ..).mpr (.inl hstores)
    · exact hstores
  split
  case isTrue htype =>
    rw [if_pos htype] at h
    dsimp only at h ⊢
    rw [reaches_append, hlink, reaches_extractIp h hflags]
  case isFalse hip =>
  rw [if_neg hip] at h
  split
  case isTrue htype =>
    dsimp only
    rw [reaches_append, hlink, reaches_extractArp]
  case isFalse harp =>
  rw [if_neg harp] at h
  split
  case isTrue htype =>
    dsimp only
    rw [reaches_append, hlink, reaches_extractMpls]
  case isFalse hmpls =>
  rw [if_neg hmpls] at h
  split
  case isTrue htype =>
    rw [if_pos htype] at h
    dsimp only at h ⊢
    rw [reaches_append, hlink, reaches_extractIpv6 h hflags]
  case isFalse => simp only [hlink, NetworkKind.Writes, or_false]

/-! ## The type -/

/-- The type behind the link layer. -/
def packetType (env : SkbEnv) (skb : SkBuff) (mac_proto : BitVec 8) : BitVec 16 :=
  (extractLinkLayer env skb mac_proto).2.2.1

/-- The type is the last store of the link layer. -/
theorem extractLinkLayer_stores {env : SkbEnv} {skb : SkBuff} {mac_proto : BitVec 8}
    (h : (extractLinkLayer env skb mac_proto).1 = 0) :
    ∃ stores, (extractLinkLayer env skb mac_proto).2.2.2 =
      stores ++ [⟨352, be16 (packetType env skb mac_proto)⟩] := by
  unfold packetType
  unfold extractLinkLayer at h ⊢
  split at h
  case isTrue hnone =>
    rw [if_pos hnone]
    split at h
    · cases h
    · rename_i hvlan
      rw [if_neg hvlan]
      exact ⟨_, rfl⟩
  case isFalse hether =>
    rw [if_neg hether]
    dsimp only at h ⊢
    split at h
    · cases h
    · rename_i hres
      rw [if_neg hres]
      split at h
      · cases h
      · rename_i htype
        rw [if_neg htype]
        exact ⟨_, rfl⟩

theorem NetworkKind.Writes.le {kind : NetworkKind} {j : Nat} (h : kind.Writes j) : 356 ≤ j := by
  unfold NetworkKind.Writes TransportKind.Writes at h
  cases kind with
  | ip transport | ipv6 transport =>
      cases transport with
      | none =>
          simp only [or_false] at h
          omega
      | ports | icmpv6 =>
          dsimp only at h
          omega
  | badMpls | other => exact h.elim
  | badIp | badArp | arp | mpls | badIpv6 =>
      dsimp only at h
      omega

/-- What is behind the link layer is stored behind the type. -/
theorem keyExtract_stores {env : SkbEnv} {skb : SkBuff} {mac_proto : BitVec 8}
    (h : (keyExtract env skb mac_proto).1 = 0) :
    (extractLinkLayer env skb mac_proto).1 = 0 ∧
      ∃ stores, (keyExtract env skb mac_proto).2.2 =
        (extractLinkLayer env skb mac_proto).2.2.2 ++ stores ∧
        ∀ j, j < 354 → ¬ Reaches stores j := by
  unfold keyExtract at h ⊢
  rcases hextract : extractLinkLayer env skb mac_proto with ⟨error, skb', eth_type, link_stores⟩
  rw [hextract] at h
  dsimp only at h ⊢
  by_cases herror : error ≠ 0
  · rw [if_pos herror] at h
    exact absurd h herror
  rw [if_neg herror] at h ⊢
  refine ⟨not_not.mp herror, ?_⟩
  -- every kind of packet writes behind the type only
  have hflags : ∀ j, j < 354 → ¬ TpFlags j := fun j hj hflags => by
    unfold TpFlags at hflags
    omega
  split
  case isTrue htype =>
    rw [if_pos htype] at h
    refine ⟨_, rfl, fun j hj => ?_⟩
    rw [reaches_extractIp h (hflags j hj)]
    exact fun hwrites => absurd hwrites.le (by omega)
  case isFalse hip =>
  rw [if_neg hip] at h
  split
  case isTrue =>
    refine ⟨_, rfl, fun j hj => ?_⟩
    rw [reaches_extractArp]
    exact fun hwrites => absurd hwrites.le (by omega)
  case isFalse harp =>
  rw [if_neg harp] at h
  split
  case isTrue =>
    refine ⟨_, rfl, fun j hj => ?_⟩
    rw [reaches_extractMpls]
    exact fun hwrites => absurd hwrites.le (by omega)
  case isFalse hmpls =>
  rw [if_neg hmpls] at h
  split
  case isTrue htype =>
    rw [if_pos htype] at h
    refine ⟨_, rfl, fun j hj => ?_⟩
    rw [reaches_extractIpv6 h (hflags j hj)]
    exact fun hwrites => absurd hwrites.le (by omega)
  case isFalse => exact ⟨[], (List.append_nil _).symm, fun j _ => id⟩

/-! ## Metadata -/

/-- The number of bytes of tunnel options. -/
def SkbMeta.optionsLen (m : SkbMeta) : Nat :=
  match m.tun_info with
  | some info => info.options_len.toNat
  | none => 0

/-- The bytes written for the metadata. -/
def MetadataWrites (m : SkbMeta) (j : Nat) : Prop := 255 - m.optionsLen ≤ j ∧ j < 332

theorem reaches_metadataStores (m : SkbMeta) (mac_proto : BitVec 8) (j : Nat) :
    Reaches (metadataStores m ++ [⟨322, [mac_proto]⟩, ⟨328, zeros 4⟩]) j ↔ MetadataWrites m j := by
  unfold metadataStores tunnelStores MetadataWrites SkbMeta.optionsLen
  cases m.tun_info with
  | none =>
      simp only [reaches_append, reaches_cons, reaches_nil, List.length_cons, List.length_nil, zeros_length,
        le32_length, le16_length, or_false]
      omega
  | some info =>
      have hlt := info.options_len.isLt
      dsimp only
      split
      · simp only [reaches_append, reaches_cons, reaches_nil, List.length_cons, List.length_nil, zeros_length,
          le32_length, le16_length, firstBytes_length, or_false]
        omega
      case isFalse hzero =>
        have hlen : info.options_len.toNat = 0 := by
          rw [not_not.mp hzero]
          rfl
        simp only [reaches_append, reaches_cons, reaches_nil, List.length_cons, List.length_nil, zeros_length,
          le32_length, le16_length, firstBytes_length, or_false]
        omega

/-! ## The connection -/

/-- The tuple of a connection that `ovs_ct_fill_key` stores. -/
inductive CtTuple where
  | none
  | ip
  | ipv6
  deriving DecidableEq, Repr

/-- The bytes written for the connection. -/
def CtTuple.Writes (tuple : CtTuple) (j : Nat) : Prop :=
  (354 ≤ j ∧ j < 356) ∨ (360 ≤ j ∧ j < 362) ∨ (440 ≤ j ∧ j < 460) ∨
    match tuple with
    | .none => False
    | .ip => (376 ≤ j ∧ j < 384) ∨ (436 ≤ j ∧ j < 440)
    | .ipv6 => 404 ≤ j ∧ j < 440

/-- The connection is not stored over addresses and ports. -/
theorem CtTuple.Writes.bounds {tuple : CtTuple} {j : Nat} (h : tuple.Writes j) :
    (354 ≤ j ∧ j < 356) ∨ (360 ≤ j ∧ j < 362) ∨ 376 ≤ j := by
  unfold CtTuple.Writes at h
  cases tuple with
  | none =>
      simp only [or_false] at h
      omega
  | ip | ipv6 =>
      dsimp only at h
      omega

/-- The tuple that is stored, by the type of the packet and whether its key looks like neighbour
discovery. -/
def ctTuple (eth_type : BitVec 16) (nd : Bool) : Option NfConn → CtTuple
  | none => .none
  | some ct =>
      if eth_type = ethPIp ∧ ct.orig.l3num = 2 then .ip
      else if eth_type = ethPIpv6 ∧ !nd ∧ ct.orig.l3num = 10 then .ipv6
      else .none

theorem reaches_ctOrigTpStores (orig : NfTuple) (icmp_proto : BitVec 8) (j : Nat) :
    Reaches (ctOrigTpStores orig icmp_proto) j ↔ j = 355 ∨ (436 ≤ j ∧ j < 440) := by
  unfold ctOrigTpStores
  split
  · simp only [reaches_cons, reaches_nil, List.length_cons, List.length_nil, or_false]
    omega
  · simp only [reaches_cons, reaches_nil, List.length_cons, List.length_nil, be16_length, or_false]
    omega

theorem reaches_ctStores (eth_type : BitVec 16) (nd : Bool) (nfct : Option NfConn) (j : Nat) :
    Reaches (ctStores eth_type nd nfct) j ↔ (ctTuple eth_type nd nfct).Writes j := by
  unfold ctStores ctTuple CtTuple.Writes
  cases nfct with
  | none =>
      simp only [reaches_cons, reaches_nil, List.length_cons, List.length_nil, zeros_length, or_false]
      omega
  | some ct =>
      simp only [reaches_append, reaches_cons, reaches_nil, List.length_cons, List.length_nil, le32_length,
        le16_length, ovsCtGetLabels_length, or_false]
      unfold ctOrigStores
      by_cases hip : eth_type = ethPIp ∧ ct.orig.l3num = 2
      · rw [if_pos hip, if_pos hip]
        simp only [reaches_append, reaches_cons, reaches_nil, firstBytes_length, reaches_ctOrigTpStores,
          or_false]
        omega
      rw [if_neg hip, if_neg hip]
      by_cases hipv6 : eth_type = ethPIpv6 ∧ !nd ∧ ct.orig.l3num = 10
      · rw [if_pos hipv6, if_pos hipv6]
        simp only [reaches_append, reaches_cons, reaches_nil, firstBytes_length, reaches_ctOrigTpStores,
          or_false]
        omega
      · rw [if_neg hipv6, if_neg hipv6]
        simp only [reaches_cons, reaches_nil, List.length_cons, List.length_nil, or_false]
        omega

/-! ## The received key -/

theorem SwFlowKey.store_u8_of_not_reaches {stores : KeyStores} {off : Nat} (h : ¬ Reaches stores off)
    (key : SwFlowKey) : (key.store stores).u8 off = key.u8 off := by
  unfold SwFlowKey.u8
  split
  · exact overlay_none ((stored_eq_none_iff stores off).mpr h)
  · rfl

theorem SwFlowKey.store_u8_of_stored {stores : KeyStores} {off : Nat} {v : BitVec 8}
    (h : stored stores off = some v) (hoff : off < swFlowKeySize) (key : SwFlowKey) :
    (key.store stores).u8 off = v := by
  unfold SwFlowKey.u8
  rw [dif_pos hoff]
  exact overlay_some (i := (⟨off, hoff⟩ : Fin swFlowKeySize)) h

theorem SwFlowKey.store_u8_of_reaches {stores : KeyStores} {off : Nat} (h : Reaches stores off)
    (key key' : SwFlowKey) : (key.store stores).u8 off = (key'.store stores).u8 off := by
  by_cases hoff : off < swFlowKeySize
  · obtain ⟨v, hv⟩ := Option.isSome_iff_exists.mp ((stored_isSome_iff stores off).mpr h)
    rw [SwFlowKey.store_u8_of_stored hv hoff, SwFlowKey.store_u8_of_stored hv hoff]
  · unfold SwFlowKey.u8
    rw [dif_neg hoff, dif_neg hoff]

/-- The stores of `ovs_flow_key_extract` before it looks at the connection. -/
def packetStores (env : SkbEnv) (m : SkbMeta) (skb : SkBuff) (mac_proto : BitVec 8) : KeyStores :=
  metadataStores m ++ [⟨322, [mac_proto]⟩, ⟨328, zeros 4⟩] ++ (keyExtract env skb mac_proto).2.2

/-- The key of a received packet, extracted into a buffer. -/
def receivedKey (env : SkbEnv) (m : SkbMeta) (skb : SkBuff) (key : SwFlowKey) : SwFlowKey :=
  (ovsFlowKeyExtract env m skb key).2.2

/-- A packet that `ovs_vport_receive` does not drop, into whatever buffer its key is extracted. -/
structure Accepted (env : SkbEnv) (m : SkbMeta) (skb : SkBuff) (mac_proto : BitVec 8) : Prop where
  mac_proto_eq : keyExtractMacProto m skb = some mac_proto
  extracted : (keyExtract env skb mac_proto).1 = 0

theorem accepted_of_ok {env : SkbEnv} {m : SkbMeta} {skb : SkBuff} {key : SwFlowKey}
    (h : (ovsFlowKeyExtract env m skb key).1 = 0) : ∃ mac_proto, Accepted env m skb mac_proto := by
  unfold ovsFlowKeyExtract at h
  cases hmac : keyExtractMacProto m skb with
  | none =>
      rw [hmac] at h
      have hinval : einval ≠ 0 := by decide
      exact absurd h hinval
  | some mac_proto =>
      rw [hmac] at h
      dsimp only at h
      by_cases herr : (keyExtract env skb mac_proto).1 = 0
      · exact ⟨mac_proto, hmac, herr⟩
      · rw [if_pos herr] at h
        exact absurd h herr

/-- The type in the key is the one behind the link layer. -/
theorem keyExtract_ethType {env : SkbEnv} {skb : SkBuff} {mac_proto : BitVec 8}
    (h : (keyExtract env skb mac_proto).1 = 0) (key : SwFlowKey) :
    (key.store (keyExtract env skb mac_proto).2.2).ethType = packetType env skb mac_proto := by
  obtain ⟨hlink, stores, hstores, hbehind⟩ := keyExtract_stores h
  obtain ⟨link_stores, hlink_stores⟩ := extractLinkLayer_stores hlink
  have hstored : ∀ j, j < 354 → stored (keyExtract env skb mac_proto).2.2 j =
      (stored [⟨352, be16 (packetType env skb mac_proto)⟩] j).or (stored link_stores j) := by
    intro j hj
    rw [hstores, stored_append_left (hbehind j hj), hlink_stores, stored_append]
  have hhigh : stored (keyExtract env skb mac_proto).2.2 352 =
      some ((packetType env skb mac_proto >>> 8).setWidth 8) := hstored 352 (by omega)
  have hlow : stored (keyExtract env skb mac_proto).2.2 353 =
      some ((packetType env skb mac_proto).setWidth 8) := hstored 353 (by omega)
  rw [SwFlowKey.ethType, SwFlowKey.be16, SwFlowKey.store_u8_of_stored hhigh (by decide),
    SwFlowKey.store_u8_of_stored hlow (by decide), be16_bytes]

section Accepted

variable {env : SkbEnv} {m : SkbMeta} {skb : SkBuff} {mac_proto : BitVec 8}

theorem Accepted.ovsFlowKeyExtract_eq (h : Accepted env m skb mac_proto) (key : SwFlowKey) :
    ovsFlowKeyExtract env m skb key = (0, (keyExtract env skb mac_proto).2.1,
      (key.store (packetStores env m skb mac_proto)).store
        (ovsCtFillKey (key.store (packetStores env m skb mac_proto)) m.nfct)) := by
  unfold ovsFlowKeyExtract packetStores
  rw [h.mac_proto_eq]
  dsimp only
  rw [if_neg (not_not.mpr h.extracted)]

theorem Accepted.receivedKey_eq (h : Accepted env m skb mac_proto) (key : SwFlowKey) :
    receivedKey env m skb key = (key.store (packetStores env m skb mac_proto)).store
      (ovsCtFillKey (key.store (packetStores env m skb mac_proto)) m.nfct) := by
  rw [receivedKey, h.ovsFlowKeyExtract_eq]

/-- **What a received packet writes** before its connection is looked at. -/
theorem Accepted.reaches_packetStores (h : Accepted env m skb mac_proto) (j : Nat) :
    Reaches (packetStores env m skb mac_proto) j ↔
      MetadataWrites m j ∨ LinkWrites mac_proto j ∨ (packetKind env skb mac_proto).Writes j := by
  rw [packetStores, reaches_append, reaches_metadataStores, reaches_keyExtract h.extracted]

/-- The type in the key is that of the packet. -/
theorem Accepted.store_ethType (h : Accepted env m skb mac_proto) (key : SwFlowKey) :
    (key.store (packetStores env m skb mac_proto)).ethType = packetType env skb mac_proto := by
  rw [packetStores, ← SwFlowKey.store_store]
  exact keyExtract_ethType h.extracted _

end Accepted

/-! ## Two packets -/

/-- A UDP datagram from 10.0.0.1 to 10.0.0.2, in an Ethernet frame. -/
def wholeDatagram : SkBuff where
  data := List.replicate 12 0 ++ [0x08, 0x00, 0x45, 0, 0, 28, 0, 1, 0, 0, 64, 17, 0, 0,
    10, 0, 0, 1, 10, 0, 0, 2] ++ List.replicate 8 0
  protocol := ethPIp
  vlan_tci := 0
  vlan_proto := 0
  gso_udp := false
  mac_len := 0
  network_header := 0
  transport_header := 0
  inner_network_header := 0

/-- The same bytes, but as the end of a datagram that begins in another fragment. -/
def laterFragment : SkBuff := { wholeDatagram with data := wholeDatagram.data.set 21 1 }

/-- All memory is there, and no packet has extension headers. -/
def plainEnv : SkbEnv := ⟨fun _ => true, fun _ => true, true,
  fun _ start nexthdr => (start, nexthdr, 0), fun _ _ _ _ => le_rfl⟩

/-- An Ethernet device, and nothing else of note. -/
def etherMeta : SkbMeta := ⟨arphrdEther, 0, 0, 1, none, none⟩

example : packetKind plainEnv laterFragment macProtoEthernet = .ip .none := by decide

end OvsDatapath.Flow
