import OvsDatapath.Flow.PacketKind

/-!
# The same packet again

A packet that has been sent to userspace comes back in another `struct sk_buff`: the bytes are the same,
but a tag that the hardware has taken out of them is in them now (`__vlan_hwaccel_push_inside`), and the
offsets of the headers are not set. `keyExtract_congr` says that its key is the same.
-/

namespace OvsDatapath.Flow

open OvsDatapath.Lib

/-! ## Behind the link layer -/

/-- All that `key_extract` reads of a packet behind the link layer. -/
structure SameHeaders (skb skb' : SkBuff) : Prop where
  data : skb.data = skb'.data
  gso_udp : skb.gso_udp = skb'.gso_udp
  mac_len : skb.mac_len = skb'.mac_len
  network_header : skb.network_header = skb'.network_header

section Transport

variable {env : SkbEnv} {skb skb' : SkBuff} (hdata : skb.data = skb'.data)

include hdata

theorem checkHeader_congr (len : Nat) : checkHeader env skb len = checkHeader env skb' len := by
  unfold checkHeader SkBuff.pskbMayPull SkBuff.len
  rw [hdata]

theorem u8_congr : skb.u8 = skb'.u8 := by
  unfold SkBuff.u8
  rw [hdata]

theorem be16At_congr : skb.be16At = skb'.be16At := by
  unfold SkBuff.be16At
  rw [u8_congr hdata]

theorem bytes_congr : skb.bytes = skb'.bytes := by
  unfold SkBuff.bytes
  rw [u8_congr hdata]

theorem pskbMayPull_congr : skb.pskbMayPull env = skb'.pskbMayPull env := by
  unfold SkBuff.pskbMayPull SkBuff.len
  rw [hdata]

variable (hth : skb.transport_header = skb'.transport_header)

include hth

theorem portStores_congr : portStores skb = portStores skb' := by
  unfold portStores
  rw [bytes_congr hdata, hth]

theorem icmpStores_congr : icmpStores skb = icmpStores skb' := by
  unfold icmpStores
  rw [bytes_congr hdata, hth]

theorem transportHdrOk_congr (size : Nat) : transportHdrOk env skb size = transportHdrOk env skb' size := by
  unfold transportHdrOk
  rw [pskbMayPull_congr hdata, hth]

theorem tcpStores_congr : tcpStores env skb = tcpStores env skb' := by
  unfold tcpStores tcphdrOk SkBuff.len
  rw [portStores_congr hdata hth, u8_congr hdata, pskbMayPull_congr hdata, hth, hdata]

theorem udpStores_congr : udpStores env skb = udpStores env skb' := by
  unfold udpStores udphdrOk
  rw [portStores_congr hdata hth, transportHdrOk_congr hdata hth]

theorem sctpStores_congr : sctpStores env skb = sctpStores env skb' := by
  unfold sctpStores sctphdrOk
  rw [portStores_congr hdata hth, transportHdrOk_congr hdata hth]

omit hth in
theorem ndOptions_congr (fuel : Nat) :
    ∀ offset icmp_len sll tll,
      ndOptions skb fuel offset icmp_len sll tll = ndOptions skb' fuel offset icmp_len sll tll := by
  induction fuel with
  | zero =>
      intro offset icmp_len sll tll
      rfl
  | succ fuel ih =>
      intro offset icmp_len sll tll
      unfold ndOptions
      simp only [u8_congr hdata, bytes_congr hdata, ih]

theorem parseIcmpv6_congr : parseIcmpv6 env skb = parseIcmpv6 env skb' := by
  unfold parseIcmpv6 SkBuff.len
  simp only [icmpStores_congr hdata hth, ndOptions_congr hdata, u8_congr hdata, bytes_congr hdata, hth, hdata]

end Transport

section Headers

variable {env : SkbEnv} {skb skb' : SkBuff} (h : SameHeaders skb skb')

include h

/-- The header is found good or not, and its end at the same offset. -/
theorem checkIphdr_congr :
    (checkIphdr env skb).1 = (checkIphdr env skb').1 ∧
      ((checkIphdr env skb).1 = 0 → (checkIphdr env skb).2.transport_header =
        (checkIphdr env skb').2.transport_header) ∧
      SameHeaders (checkIphdr env skb).2 (checkIphdr env skb').2 := by
  unfold checkIphdr SkBuff.len
  simp only [h.network_header, checkHeader_congr h.data, u8_congr h.data, h.data]
  split_ifs with hbad hshort
  · exact ⟨rfl, fun hok => absurd hok hbad, h⟩
  · exact ⟨rfl, nofun, h⟩
  · exact ⟨rfl, fun _ => rfl, rfl, h.gso_udp, h.mac_len, rfl⟩

theorem extractIp_congr :
    (extractIp env skb).1 = (extractIp env skb').1 ∧ (extractIp env skb).2.2 = (extractIp env skb').2.2 := by
  obtain ⟨herror, hth, hsame⟩ := @checkIphdr_congr env _ _ h
  unfold extractIp
  generalize checkIphdr env skb = checked at herror hth hsame ⊢
  generalize checkIphdr env skb' = checked' at herror hth hsame ⊢
  obtain ⟨error, skb₁⟩ := checked
  obtain ⟨error', skb₁'⟩ := checked'
  obtain rfl : error = error' := herror
  dsimp only at hth hsame ⊢
  by_cases hbad : error ≠ 0
  · rw [if_pos hbad, if_pos hbad]
    split_ifs
    · exact ⟨rfl, rfl⟩
    · exact ⟨rfl, rfl⟩
  · have hth := hth (not_not.mp hbad)
    have hicmp : icmphdrOk env skb₁ = icmphdrOk env skb₁' := transportHdrOk_congr hsame.data hth 8
    have hheader : ipHeaderStores skb₁ = ipHeaderStores skb₁' := by
      unfold ipHeaderStores
      rw [bytes_congr hsame.data]
    rw [if_neg hbad, if_neg hbad]
    simp only [u8_congr hsame.data, be16At_congr hsame.data, hsame.network_header, hsame.gso_udp, hheader,
      tcpStores_congr hsame.data hth, udpStores_congr hsame.data hth, sctpStores_congr hsame.data hth,
      hicmp, icmpStores_congr hsame.data hth]
    split_ifs
    all_goals exact ⟨rfl, rfl⟩

theorem extractArp_congr : extractArp env skb = extractArp env skb' := by
  unfold extractArp arphdrOk
  simp only [u8_congr h.data, be16At_congr h.data, bytes_congr h.data, pskbMayPull_congr h.data,
    h.network_header]

theorem extractMpls_congr : (extractMpls env skb).2 = (extractMpls env skb').2 := by
  have hcheck : ∀ inner inner' len, checkHeader env { skb with inner_network_header := inner } len =
      checkHeader env { skb' with inner_network_header := inner' } len :=
    fun inner inner' len => checkHeader_congr h.data len
  have hbytes : ∀ inner inner', SkBuff.bytes { skb with inner_network_header := inner } =
      SkBuff.bytes { skb' with inner_network_header := inner' } :=
    fun inner inner' => bytes_congr h.data
  unfold extractMpls
  dsimp only
  rw [hcheck skb.mac_len skb'.mac_len, hbytes skb.mac_len skb'.mac_len, h.mac_len]

theorem parseIpv6hdr_congr :
    ∃ nh_len skb₁ skb₁' stores proto frag, parseIpv6hdr env skb = (nh_len, skb₁, stores, proto, frag) ∧
      parseIpv6hdr env skb' = (nh_len, skb₁', stores, proto, frag) ∧
      (¬ nh_len < 0 → skb₁.data = skb₁'.data ∧ skb₁.gso_udp = skb₁'.gso_udp ∧
        skb₁.transport_header = skb₁'.transport_header) := by
  have hcheck : checkHeader env skb (skb.network_header + 40) = checkHeader env skb' (skb'.network_header + 40) := by
    rw [checkHeader_congr h.data, h.network_header]
  have hskip : env.ipv6_skip_exthdr skb.data (skb.network_header + 40) (skb.u8 (skb.network_header + 6)) =
      env.ipv6_skip_exthdr skb'.data (skb'.network_header + 40) (skb'.u8 (skb'.network_header + 6)) := by
    rw [u8_congr h.data, h.data, h.network_header]
  have hheader : ipv6HeaderStores skb skb.network_header = ipv6HeaderStores skb' skb'.network_header := by
    unfold ipv6HeaderStores
    rw [bytes_congr h.data, u8_congr h.data, be16At_congr h.data, h.network_header]
  by_cases hbad : checkHeader env skb' (skb'.network_header + 40) ≠ 0
  · have hneg : checkHeader env skb' (skb'.network_header + 40) < 0 := by
      rcases (checkHeader_cases env skb' (skb'.network_header + 40)).resolve_left hbad with heq | heq
      · rw [heq]
        decide
      · rw [heq]
        decide
    refine ⟨_, skb, skb', [], 0, 0, if_pos (hcheck ▸ hbad), ?_, fun hok => absurd (hcheck ▸ hneg) hok⟩
    rw [hcheck]
    exact if_pos hbad
  · rcases heq : env.ipv6_skip_exthdr skb'.data (skb'.network_header + 40) (skb'.u8 (skb'.network_header + 6)) with
      ⟨payload_ofs, nexthdr, frag_off⟩
    rw [heq] at hskip
    unfold parseIpv6hdr
    rw [if_neg (hcheck ▸ hbad), if_neg hbad, hskip, heq, hheader, h.network_header]
    dsimp only
    by_cases hpayload : payload_ofs < 0
    · rw [if_pos hpayload, if_pos hpayload]
      exact ⟨_, _, _, _, _, _, rfl, rfl, fun hok => absurd eproto_neg hok⟩
    · rw [if_neg hpayload, if_neg hpayload]
      exact ⟨_, _, _, _, _, _, rfl, rfl, fun _ => ⟨h.data, h.gso_udp, rfl⟩⟩

theorem extractIpv6_congr :
    (extractIpv6 env skb).1 = (extractIpv6 env skb').1 ∧
      (extractIpv6 env skb).2.2 = (extractIpv6 env skb').2.2 := by
  obtain ⟨nh_len, skb₁, skb₁', stores, proto, frag, hparse, hparse', hsame⟩ := @parseIpv6hdr_congr env _ _ h
  unfold extractIpv6
  rw [hparse, hparse']
  dsimp only
  by_cases hbad : nh_len < 0
  · rw [if_pos hbad, if_pos hbad]
    split_ifs
    all_goals exact ⟨rfl, rfl⟩
  · obtain ⟨hdata, hgso, hth⟩ := hsame hbad
    have hicmp : icmp6hdrOk env skb₁ = icmp6hdrOk env skb₁' := transportHdrOk_congr hdata hth 8
    rw [if_neg hbad, if_neg hbad, tcpStores_congr hdata hth, udpStores_congr hdata hth,
      sctpStores_congr hdata hth, hicmp, hgso, parseIcmpv6_congr hdata hth]
    generalize (if skb₁'.gso_udp = true then [(⟨359, [ovsFragTypeFirst]⟩ : Store (BitVec 8))] else []) = gso
    split_ifs
    all_goals exact ⟨rfl, rfl⟩

end Headers

/-! ## The link layer -/

/-- The same bytes, the same tag that the hardware has taken out of them, and the same segmentation. -/
structure SamePacket (skb skb' : SkBuff) : Prop where
  data : skb.data = skb'.data
  vlan_tci : skb.vlan_tci = skb'.vlan_tci
  vlan_proto : skb.vlan_proto = skb'.vlan_proto
  gso_udp : skb.gso_udp = skb'.gso_udp

/-- `__vlan_hwaccel_push_inside`: the tag is put back after the addresses. -/
def vlanHwaccelPushInside (skb : SkBuff) : SkBuff :=
  { skb with
    data := skb.data.take 12 ++ (be16 skb.vlan_proto ++ be16 (skb.vlan_tci &&& ~~~vlanTagPresent)) ++
      skb.data.drop 12
    protocol := skb.vlan_proto
    vlan_tci := 0 }

/-- A frame whose tag can be put back and found again: it is a tag of VLANs, and there is memory for it. -/
structure TagMoves (env : SkbEnv) (skb : SkBuff) : Prop where
  present : skb.vlanTagIsPresent = true
  tpid : ethTypeVlan skb.vlan_proto = true
  len : ethHlen ≤ skb.len
  may_pull : env.may_pull vlanEthHlen = true
  ensure_writable : env.ensure_writable vlanEthHlen = true

/-- A packet comes back from userspace as it is, or with its tag put back. -/
def ComesBack (env : SkbEnv) (mac_proto : BitVec 8) (skb skb' : SkBuff) : Prop :=
  SamePacket skb skb' ∨
    (mac_proto ≠ macProtoNone ∧ TagMoves env skb ∧ SamePacket (vlanHwaccelPushInside skb) skb')

/-- The outer tag in `parse_vlan`. -/
def outerTag (env : SkbEnv) (skb : SkBuff) (pos : Nat) : Int × SkBuff × Nat × Option VlanHead :=
  if skb.vlanTagIsPresent then (1, skb, pos, some (VlanHead.mk skb.vlan_proto skb.vlan_tci))
  else parseVlanTag env skb pos true

/-- Two results of reading a tag are the same, up to the offsets of headers. -/
def SameTag (r r' : Int × SkBuff × Nat × Option VlanHead) : Prop :=
  r.1 = r'.1 ∧ SamePacket r.2.1 r'.2.1 ∧ r.2.2 = r'.2.2

theorem SamePacket.trans {skb skb' skb'' : SkBuff} (h : SamePacket skb skb') (h' : SamePacket skb' skb'') :
    SamePacket skb skb'' :=
  ⟨h.data.trans h'.data, h.vlan_tci.trans h'.vlan_tci, h.vlan_proto.trans h'.vlan_proto,
    h.gso_udp.trans h'.gso_udp⟩

theorem SameTag.trans {r r' r'' : Int × SkBuff × Nat × Option VlanHead} (h : SameTag r r') (h' : SameTag r' r'') :
    SameTag r r'' :=
  ⟨h.1.trans h'.1, h.2.1.trans h'.2.1, h.2.2.trans h'.2.2⟩

theorem parseVlanTag_congr {env : SkbEnv} {skb skb' : SkBuff} (h : SamePacket skb skb') (pos : Nat)
    (untag_vlan : Bool) : SameTag (parseVlanTag env skb pos untag_vlan) (parseVlanTag env skb' pos untag_vlan) := by
  have hpop : (skbVlanPopHeader env skb).1 = (skbVlanPopHeader env skb').1 ∧
      SamePacket (skbVlanPopHeader env skb).2.1 (skbVlanPopHeader env skb').2.1 ∧
      (skbVlanPopHeader env skb).2.2 = (skbVlanPopHeader env skb').2.2 := by
    unfold skbVlanPopHeader SkBuff.len
    rw [h.data, be16At_congr h.data]
    split_ifs
    · exact ⟨rfl, h, rfl⟩
    all_goals exact ⟨rfl, ⟨rfl, h.vlan_tci, h.vlan_proto, h.gso_udp⟩, rfl⟩
  unfold parseVlanTag SkBuff.len
  rw [h.data, be16At_congr h.data, pskbMayPull_congr h.data]
  generalize skbVlanPopHeader env skb = popped at hpop ⊢
  generalize skbVlanPopHeader env skb' = popped' at hpop ⊢
  obtain ⟨err, skb₁, tci⟩ := popped
  obtain ⟨err', skb₁', tci'⟩ := popped'
  obtain ⟨rfl, hsame, rfl⟩ : err = err' ∧ SamePacket skb₁ skb₁' ∧ tci = tci' := hpop
  split_ifs
  · exact ⟨rfl, h, rfl⟩
  · exact ⟨rfl, h, rfl⟩
  · exact ⟨rfl, h, rfl⟩
  · rcases err with (_ | n) | n
    · exact ⟨rfl, ⟨hsame.data, rfl, rfl, hsame.gso_udp⟩, rfl⟩
    · exact ⟨rfl, hsame, rfl⟩
    · exact ⟨rfl, hsame, rfl⟩
  · exact ⟨rfl, h, rfl⟩

theorem be16At_append {skb : SkBuff} {pre post : List (BitVec 8)} {v : BitVec 16} {off : Nat}
    (hdata : skb.data = pre ++ (be16 v ++ post)) (hoff : pre.length = off) : skb.be16At off = v := by
  have hhigh : skb.u8 off = (v >>> 8).setWidth 8 := by
    unfold SkBuff.u8
    rw [hdata, List.getD_eq_getElem?_getD, List.getElem?_append_right hoff.le, hoff, Nat.sub_self]
    rfl
  have hlow : skb.u8 (off + 1) = v.setWidth 8 := by
    unfold SkBuff.u8
    rw [hdata, List.getD_eq_getElem?_getD, List.getElem?_append_right (by omega), hoff,
      Nat.add_sub_cancel_left]
    rfl
  rw [SkBuff.be16At, hhigh, hlow, be16_bytes]

/-- The addresses stay where they are. -/
theorem pushInside_bytes {skb : SkBuff} (hlen : ethHlen ≤ skb.len) {off n : Nat} (hoff : off + n ≤ 12) :
    skb.bytes off n = (vlanHwaccelPushInside skb).bytes off n := by
  unfold SkBuff.bytes
  apply List.map_congr_left
  intro i hi
  have hi := List.mem_range.mp hi
  have htake : (skb.data.take 12).length = 12 := by
    rw [List.length_take]
    unfold SkBuff.len ethHlen at hlen
    omega
  unfold SkBuff.u8 vlanHwaccelPushInside
  dsimp only
  rw [List.append_assoc, List.getD_eq_getElem?_getD, List.getD_eq_getElem?_getD,
    List.getElem?_append_left (by omega), List.getElem?_take_of_lt (by omega)]

/-- The tag that has been put back is the first that is found, and it is taken out again. -/
theorem outerTag_pushInside {env : SkbEnv} {skb : SkBuff} (h : TagMoves env skb) :
    SameTag (outerTag env skb 12) (outerTag env (vlanHwaccelPushInside skb) 12) := by
  obtain ⟨hpresent, htpid, hlen, hpull, hwritable⟩ := h
  have htag : skb.vlan_tci &&& vlanTagPresent ≠ 0 := bne_iff_ne.mp hpresent
  -- the tag stands behind the addresses, and the type behind the tag
  have hdata : (vlanHwaccelPushInside skb).data = skb.data.take 12 ++ (be16 skb.vlan_proto ++
      (be16 (skb.vlan_tci &&& ~~~vlanTagPresent) ++ skb.data.drop 12)) := by
    unfold vlanHwaccelPushInside
    simp only [List.append_assoc]
  have htake : (skb.data.take 12).length = 12 := by
    rw [List.length_take]
    unfold SkBuff.len ethHlen at hlen
    omega
  have htype : (vlanHwaccelPushInside skb).be16At 12 = skb.vlan_proto := be16At_append hdata htake
  have htci : (vlanHwaccelPushInside skb).be16At 14 = skb.vlan_tci &&& ~~~vlanTagPresent := by
    rw [← List.append_assoc] at hdata
    apply be16At_append hdata
    rw [List.length_append, htake, be16_length]
  have hsize : (vlanHwaccelPushInside skb).len = skb.len + 4 := by
    unfold SkBuff.len at hlen ⊢
    rw [hdata]
    simp only [List.length_append, htake, be16_length, List.length_drop]
    unfold ethHlen at hlen
    omega
  -- without the four bytes of the tag it is the old packet
  have hpopped : (vlanHwaccelPushInside skb).data.take 12 ++ (vlanHwaccelPushInside skb).data.drop 16 =
      skb.data := by
    have hdrop : (skb.data.take 12 ++ (be16 skb.vlan_proto ++
        be16 (skb.vlan_tci &&& ~~~vlanTagPresent))).length = 16 := by
      simp only [List.length_append, htake, be16_length]
    have hfront : (vlanHwaccelPushInside skb).data.take 12 = skb.data.take 12 := by
      rw [hdata, List.take_left' htake]
    have hback : (vlanHwaccelPushInside skb).data.drop 16 = skb.data.drop 12 := by
      unfold vlanHwaccelPushInside
      exact List.drop_left' hdrop
    rw [hfront, hback, List.take_append_drop]
  have hnone : (vlanHwaccelPushInside skb).vlanTagIsPresent = false := by
    show ((0 : BitVec 16) &&& vlanTagPresent != 0) = false
    decide
  have hpop : ∃ popped, skbVlanPopHeader env (vlanHwaccelPushInside skb) =
      (0, popped, skb.vlan_tci &&& ~~~vlanTagPresent) ∧ popped.data = skb.data ∧ popped.gso_udp = skb.gso_udp := by
    unfold skbVlanPopHeader
    rw [hsize, hwritable, if_neg]
    · exact ⟨_, Prod.ext rfl (Prod.ext rfl htci), hpopped, rfl⟩
    · unfold vlanEthHlen
      unfold ethHlen at hlen
      simp
      omega
  obtain ⟨popped, hpop, hpopdata, hpopgso⟩ := hpop
  have hparse : parseVlanTag env (vlanHwaccelPushInside skb) 12 true =
      (1, popped.vlanHwaccelPutTag skb.vlan_proto (skb.vlan_tci &&& ~~~vlanTagPresent), 12,
        some ⟨skb.vlan_proto, skb.vlan_tci⟩) := by
    have hmay : (vlanHwaccelPushInside skb).pskbMayPull env 18 = true := by
      unfold SkBuff.pskbMayPull
      unfold ethHlen at hlen
      rw [hsize, Bool.and_eq_true, decide_eq_true_iff]
      exact ⟨by omega, hpull⟩
    unfold parseVlanTag
    rw [htype, htpid, hsize, hmay, htci, hpop, vlanTagPresent_or htag]
    unfold ethHlen at hlen
    rw [if_neg (by decide), if_neg (by omega), if_neg (by decide)]
    rfl
  unfold outerTag
  rw [hpresent, hnone, hparse]
  refine ⟨rfl, ⟨hpopdata.symm, ?_, rfl, hpopgso.symm⟩, rfl⟩
  show skb.vlan_tci = vlanTagPresent ||| skb.vlan_tci &&& ~~~vlanTagPresent
  rw [BitVec.or_comm, vlanTagPresent_or htag]

theorem outerTag_congr {env : SkbEnv} {skb skb' : SkBuff} (h : SamePacket skb skb') (pos : Nat) :
    SameTag (outerTag env skb pos) (outerTag env skb' pos) := by
  unfold outerTag SkBuff.vlanTagIsPresent
  rw [h.vlan_tci, h.vlan_proto]
  split_ifs
  · exact ⟨rfl, h, rfl⟩
  · exact parseVlanTag_congr h pos true

/-- The tags are the same, whether the first of them was in the bytes or not. -/
theorem parseVlan_congr {env : SkbEnv} {skb skb' : SkBuff} {pos : Nat}
    (h : SameTag (outerTag env skb pos) (outerTag env skb' pos)) :
    (parseVlan env skb pos).1 = (parseVlan env skb' pos).1 ∧
      SamePacket (parseVlan env skb pos).2.1 (parseVlan env skb' pos).2.1 ∧
      (parseVlan env skb pos).2.2 = (parseVlan env skb' pos).2.2 := by
  have heq : ∀ skb, parseVlan env skb pos =
      let outer := outerTag env skb pos
      let stores := clearVlan ++ vlanStores 344 outer.2.2.2
      if outer.1 ≤ 0 then (outer.1, outer.2.1, outer.2.2.1, stores, none)
      else
        let inner := parseVlanTag env outer.2.1 outer.2.2.1 false
        let stores := stores ++ vlanStores 348 inner.2.2.2
        if inner.1 ≤ 0 then (inner.1, inner.2.1, inner.2.2.1, stores, inner.2.2.2)
        else (0, inner.2.1, inner.2.2.1, stores, inner.2.2.2) := fun _ => rfl
  rw [heq, heq]
  generalize outerTag env skb pos = first at h ⊢
  generalize outerTag env skb' pos = first' at h ⊢
  obtain ⟨res, skb₁, pos₁, vlan⟩ := first
  obtain ⟨res', skb₁', pos₁', vlan'⟩ := first'
  obtain ⟨hres, hsame, hpos⟩ := h
  obtain rfl : res = res' := hres
  obtain ⟨rfl, rfl⟩ := Prod.mk.inj hpos
  dsimp only at hsame ⊢
  have hinner := @parseVlanTag_congr env _ _ hsame pos₁ false
  generalize parseVlanTag env skb₁ pos₁ false = second at hinner ⊢
  generalize parseVlanTag env skb₁' pos₁ false = second' at hinner ⊢
  obtain ⟨res₂, skb₂, pos₂, cvlan⟩ := second
  obtain ⟨res₂', skb₂', pos₂', cvlan'⟩ := second'
  obtain ⟨hres₂, hsame₂, hpos₂⟩ := hinner
  obtain rfl : res₂ = res₂' := hres₂
  obtain ⟨rfl, rfl⟩ := Prod.mk.inj hpos₂
  dsimp only at hsame₂ ⊢
  split_ifs
  · exact ⟨rfl, hsame, rfl⟩
  · exact ⟨rfl, hsame₂, rfl⟩
  · exact ⟨rfl, hsame₂, rfl⟩

theorem parseEthertype_congr {env : SkbEnv} {skb skb' : SkBuff} (hdata : skb.data = skb'.data) (pos : Nat) :
    parseEthertype env skb pos = parseEthertype env skb' pos := by
  unfold parseEthertype SkBuff.len
  rw [be16At_congr hdata, u8_congr hdata, pskbMayPull_congr hdata, hdata]

theorem extractLinkLayer_congr {env : SkbEnv} {skb skb' : SkBuff} {mac_proto : BitVec 8}
    (h : ComesBack env mac_proto skb skb') (hprotocol : mac_proto = macProtoNone → skb.protocol = skb'.protocol) :
    (extractLinkLayer env skb mac_proto).1 = (extractLinkLayer env skb' mac_proto).1 ∧
      (extractLinkLayer env skb mac_proto).2.2 = (extractLinkLayer env skb' mac_proto).2.2 ∧
      ((extractLinkLayer env skb mac_proto).1 = 0 → SameHeaders (extractLinkLayer env skb mac_proto).2.1
        (extractLinkLayer env skb' mac_proto).2.1) := by
  unfold extractLinkLayer
  by_cases hnone : mac_proto = macProtoNone
  · have hsame := h.resolve_right fun hback => hback.1 hnone
    rw [if_pos hnone, if_pos hnone, hprotocol hnone]
    split_ifs
    · exact ⟨rfl, rfl, nofun⟩
    · exact ⟨rfl, rfl, fun _ => ⟨hsame.data, hsame.gso_udp, rfl, rfl⟩⟩
  · have haddr : ∀ off, off + 6 ≤ 12 → skb.bytes off 6 = skb'.bytes off 6 := by
      intro off hoff
      rcases h with hsame | ⟨-, hmoves, hsame⟩
      · rw [bytes_congr hsame.data]
      · rw [← bytes_congr hsame.data, pushInside_bytes hmoves.len hoff]
    have htag : SameTag (outerTag env skb 12) (outerTag env skb' 12) := by
      rcases h with hsame | ⟨-, hmoves, hsame⟩
      · exact outerTag_congr hsame 12
      · exact (outerTag_pushInside hmoves).trans (outerTag_congr hsame 12)
    obtain ⟨hres, hsame, hrest⟩ := parseVlan_congr htag
    rw [if_neg hnone, if_neg hnone, haddr 6 le_rfl, haddr 0 (by decide)]
    generalize parseVlan env skb 12 = parsed at hres hsame hrest ⊢
    generalize parseVlan env skb' 12 = parsed' at hres hsame hrest ⊢
    obtain ⟨res, skb₁, pos, stores, cvlan⟩ := parsed
    obtain ⟨res', skb₁', pos', stores', cvlan'⟩ := parsed'
    obtain rfl : res = res' := hres
    obtain ⟨rfl, hstores⟩ := Prod.mk.inj hrest
    obtain ⟨rfl, rfl⟩ := Prod.mk.inj hstores
    dsimp only at hsame ⊢
    rw [parseEthertype_congr hsame.data]
    split_ifs with hbad htype
    · exact ⟨rfl, rfl, nofun⟩
    · exact ⟨rfl, rfl, nofun⟩
    · exact ⟨rfl, rfl, fun _ => ⟨hsame.data, hsame.gso_udp, rfl, rfl⟩⟩

/-- **A packet that comes back has the same key.** -/
theorem keyExtract_congr {env : SkbEnv} {skb skb' : SkBuff} {mac_proto : BitVec 8}
    (h : ComesBack env mac_proto skb skb') (hprotocol : mac_proto = macProtoNone → skb.protocol = skb'.protocol) :
    (keyExtract env skb mac_proto).1 = (keyExtract env skb' mac_proto).1 ∧
      (keyExtract env skb mac_proto).2.2 = (keyExtract env skb' mac_proto).2.2 := by
  obtain ⟨herror, hrest, hsame⟩ := extractLinkLayer_congr h hprotocol
  unfold keyExtract
  generalize extractLinkLayer env skb mac_proto = link at herror hrest hsame ⊢
  generalize extractLinkLayer env skb' mac_proto = link' at herror hrest hsame ⊢
  obtain ⟨error, skb₁, eth_type, stores⟩ := link
  obtain ⟨error', skb₁', eth_type', stores'⟩ := link'
  obtain rfl : error = error' := herror
  obtain ⟨rfl, rfl⟩ := Prod.mk.inj hrest
  dsimp only at hsame ⊢
  by_cases hbad : error ≠ 0
  · rw [if_pos hbad, if_pos hbad]
    exact ⟨rfl, rfl⟩
  have hsame := hsame (not_not.mp hbad)
  obtain ⟨hip, hipStores⟩ := @extractIp_congr env _ _ hsame
  obtain ⟨hipv6, hipv6Stores⟩ := @extractIpv6_congr env _ _ hsame
  rw [if_neg hbad, if_neg hbad, hip, hipStores, extractArp_congr hsame, extractMpls_congr hsame, hipv6,
    hipv6Stores]
  split_ifs
  all_goals exact ⟨rfl, rfl⟩

end OvsDatapath.Flow
