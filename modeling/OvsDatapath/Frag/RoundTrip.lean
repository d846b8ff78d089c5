import OvsDatapath.Frag.Cut
import OvsDatapath.Frag.Output

/-!
# There and back

What `ip_do_fragment` makes of a fragment are fragments of the same datagram, so a datagram may be cut on its way as
often as one likes and in any places: reassembly gives it back (`fragment_round_trip`). And what reassembly has given
can be cut again (`doOutput_refragments`): the datapath sends fragments of the same datagram, the loop ends, and none
is larger than the largest that came in.
-/

namespace OvsDatapath.Frag

open OvsDatapath.Lib OvsDatapath.Flow OvsDatapath.Stt

/-! ### Fragments of a fragment -/

section

variable {D : Datagram} {skb f : IpSkb} {room : Nat} {frames : List IpSkb}

theorem PacketFits.of_isFragment (h : D.IsFragment skb) : PacketFits skb where
  nonempty := h.nonempty
  size_lt := by
    have hsize := h.size_lt
    omega
  stop_lt := by
    have hle := h.stop_le
    have hlen := D.length_le
    omega

theorem CutInto.mem_bounds (h : CutInto skb room frames) (hf : f ∈ frames) :
    skb.iph.offset ≤ f.iph.offset ∧ f.piece.stop ≤ skb.piece.stop :=
  Ordered.mem h.tiles.ordered (List.mem_map_of_mem hf)

theorem CutInto.at (h : CutInto skb room frames) (hf : f ∈ frames) {j : Nat} {b : BitVec 8} (hat : f.piece.At j b) :
    skb.piece.At j b := by
  have hle := (h.mem_bounds hf).1.trans hat.1
  refine ⟨hle, ?_⟩
  have hdata := h.tiles.contents_of_at (List.mem_map_of_mem hf : f.piece ∈ ipPieces frames) (j := j - skb.iph.offset)
    (x := b) (by rwa [Nat.add_sub_cancel' hle])
  rwa [h.contents] at hdata

theorem HeaderLike.common {iph iph' : IpHdr} (h : HeaderLike iph iph') (hopts : iph'.options = iph.options) :
    iph'.common = iph.common := by
  simp only [IpHdr.common, h.id, h.ttl, h.protocol, h.saddr, h.daddr, hopts]

/-- What a fragment is cut into are fragments. -/
theorem CutInto.isFragment (h : CutInto skb room frames) (hskb : D.IsFragment skb) (hf : f ∈ frames) :
    D.IsFragment f := by
  obtain ⟨hstart, hstop⟩ := h.mem_bounds hf
  have hframe := h.frames f hf
  have hstopD := hskb.stop_le
  have hlen : f.piece.stop = f.iph.offset + f.ipData.length := rfl
  have hskblen : skb.piece.stop = skb.iph.offset + skb.ipData.length := rfl
  refine ⟨fun j b hat => hskb.data j b (h.at hf hat), hframe.nonempty, ?_, ?_, ?_, ?_, ?_⟩
  · rw [hframe.more, hskb.last]
    omega
  · intro hmore
    rcases hframe.blocks with hend | hblock
    · -- it ends where a fragment ends that has others behind it
      have hnot : skb.iph.moreFragments = true := by
        by_contra hlast
        have hend' := hframe.more.mpr ⟨hend, by simpa using hlast⟩
        exact absurd (hmore.symm.trans hend') (by decide)
      have hblocks := hskb.blocks hnot
      have hoff : skb.iph.offset % 8 = 0 := Nat.mul_mod_left ..
      have hoff' : f.iph.offset % 8 = 0 := Nat.mul_mod_left ..
      omega
    · exact hblock
  · intro hzero
    have hskbzero : skb.iph.offset = 0 := by omega
    rw [← hskb.header hskbzero]
    exact hframe.header.common (hframe.first (hzero.trans hskbzero.symm))
  · rw [hframe.header.tos]
    exact hskb.capable
  · have hsize := hskb.size_lt
    rw [hframe.header.hdrlen]
    omega

theorem CutInto.covered_iff (h : CutInto skb room frames) (j : Nat) :
    Covered (ipPieces frames) j ↔ skb.piece.Covers j := by
  constructor
  · rintro ⟨p, hp, hcov⟩
    have hbounds := Ordered.mem h.tiles.ordered hp
    exact ⟨hbounds.1.trans hcov.1, hcov.2.trans_le hbounds.2⟩
  · exact fun hcov => h.tiles.exists_mem hcov.1 hcov.2

end

/-! ### Any cuts, in any order -/

theorem HeaderLike.trans {a b c : IpHdr} (h : HeaderLike a b) (h' : HeaderLike b c) : HeaderLike a c :=
  ⟨h'.tos.trans h.tos, h'.id.trans h.id, h'.ttl.trans h.ttl, h'.protocol.trans h.protocol, h'.saddr.trans h.saddr,
    h'.daddr.trans h.daddr, h'.hdrlen.trans h.hdrlen⟩

/-- What has become of a packet on its way: it is carried, and routers cut it, or what they have cut. -/
inductive OnTheWay (skb : IpSkb) : IpSkb → Prop where
  | sent : OnTheWay skb skb
  | carried {f g : IpSkb} (hf : OnTheWay skb f) (hiph : g.iph = f.iph) (hdata : g.ipData = f.ipData) : OnTheWay skb g
  | cut {env : OutputEnv} {f g : IpSkb} {frames : List IpSkb} (hf : OnTheWay skb f) (henv : env.Ample)
      (hcut : Cuttable env f) (hframes : ipDoFragment env f = .ok (frames, 0)) (hg : g ∈ frames) : OnTheWay skb g

/-- The packet as a datagram. -/
def PacketFits.datagram {skb : IpSkb} (h : PacketFits skb) (user : BitVec 32) (vif : Nat) : Datagram where
  key := skb.ipqKey user vif
  iph := skb.iph
  data := skb.ipData
  length_le := by
    have hsize := h.size_lt
    omega

section

variable {D : Datagram} {skb f : IpSkb}

theorem PacketFits.isFragment (h : PacketFits skb) (hwhole : ipIsFragment skb.iph = false) (user : BitVec 32)
    (vif : Nat) : (h.datagram user vif).IsFragment skb := by
  obtain ⟨hoff, hlast⟩ := ipIsFragment_eq_false hwhole
  have hpiece : skb.piece = ⟨0, skb.ipData⟩ := by rw [IpSkb.piece, hoff]
  have hsize := h.size_lt
  refine ⟨fun j b hat => ?_, h.nonempty, ?_, ?_, fun _ => rfl, Iff.rfl, by omega⟩
  · rw [hpiece] at hat
    exact hat.2
  · refine iff_of_true hlast ?_
    rw [hpiece]
    exact Nat.zero_add _
  · rw [hlast]
    exact fun hmore => absurd hmore (by decide)

theorem ipDoFragment_cutInto {env : OutputEnv} {frames : List IpSkb} (henv : env.Ample) (hcut : Cuttable env f)
    (hframes : ipDoFragment env f = .ok (frames, 0)) : CutInto f (dataSpace env f) frames := by
  obtain ⟨frames', hrun, hinto⟩ := ipDoFragment_cuts henv hcut
  obtain rfl := congrArg Prod.fst (Except.ok.inj (hrun.symm.trans hframes))
  exact hinto

theorem OnTheWay.header (h : OnTheWay skb f) : HeaderLike skb.iph f.iph := by
  induction h with
  | sent => exact HeaderLike.refl _
  | carried _ hiph _ ih => rwa [hiph]
  | cut _ henv hcut hframes hg ih => exact ih.trans ((ipDoFragment_cutInto henv hcut hframes).frames _ hg).header

theorem Datagram.IsFragment.congr {g : IpSkb} (h : D.IsFragment f) (hiph : g.iph = f.iph)
    (hdata : g.ipData = f.ipData) : D.IsFragment g := by
  have hpiece : g.piece = f.piece := by rw [IpSkb.piece, hiph, hdata]; rfl
  exact ⟨hpiece ▸ h.data, hdata ▸ h.nonempty, by rw [hiph, hpiece]; exact h.last, by rw [hiph, hdata]; exact h.blocks,
    by rw [hiph]; exact h.header, by rw [hiph]; exact h.capable, by rw [hiph, hdata]; exact h.size_lt⟩

theorem OnTheWay.isFragment (h : OnTheWay skb f) (hskb : D.IsFragment skb) : D.IsFragment f := by
  induction h with
  | sent => exact hskb
  | carried _ hiph hdata ih => exact ih.congr hiph hdata
  | cut _ henv hcut hframes hg ih => exact (ipDoFragment_cutInto henv hcut hframes).isFragment ih hg

theorem OnTheWay.ipqKey (h : OnTheWay skb f) (user : BitVec 32) (vif : Nat) : f.ipqKey user vif = skb.ipqKey user vif := by
  have hheader := h.header
  simp only [IpSkb.ipqKey, hheader.id, hheader.saddr, hheader.daddr, hheader.protocol]

/-- All packets of a cut, and others with them, cover the whole. -/
theorem covered_of_cut {room : Nat} {frames got : List IpSkb} (hcut : CutInto skb room frames)
    (hwhole : ipIsFragment skb.iph = false)
    (hall : ∀ g ∈ frames, ∃ f ∈ got, f.iph = g.iph ∧ f.ipData = g.ipData) :
    ∀ j < skb.ipData.length, Covered (ipPieces got) j := by
  intro j hj
  have hoff := (ipIsFragment_eq_false hwhole).1
  have hstop : skb.piece.stop = skb.iph.offset + skb.ipData.length := rfl
  obtain ⟨p, hp, hcov⟩ := (hcut.covered_iff j).mpr ⟨by rw [IpSkb.piece, hoff]; exact Nat.zero_le j, by omega⟩
  obtain ⟨g, hg, rfl⟩ := List.mem_map.mp hp
  obtain ⟨f, hf, hiph, hdata⟩ := hall g hg
  refine ⟨f.piece, List.mem_map_of_mem hf, ?_⟩
  rwa [IpSkb.piece, hiph, hdata]

end

/-- The packets that a router makes of the datagram. -/
def cutFrames : List IpSkb := ((ipDoFragment (plentyOutput 28) wholeSkb).toOption.map Prod.fst).getD []

theorem cutFrames_eq : ipDoFragment (plentyOutput 28) wholeSkb = .ok (cutFrames, 0) := by
  obtain ⟨frames, hframes, -⟩ := ipDoFragment_cuts (plentyOutput_ample 28) wholeSkb_cuttable
  rw [cutFrames, hframes]
  rfl

def cutFirst : IpSkb := cutFrames.getD 0 wholeSkb

def cutLast : IpSkb := cutFrames.getD 1 wholeSkb

theorem cut_onTheWay {f : IpSkb} (hf : f ∈ cutFrames) : OnTheWay wholeSkb f :=
  .cut .sent (plentyOutput_ample 28) wholeSkb_cuttable cutFrames_eq hf

/-- A datagram that has been handed on is a fragment of itself. -/
theorem Datagram.Delivered.isFragment {D : Datagram} {given : List IpSkb} {pkt : IpSkb} (h : D.Delivered given pkt)
    (hne : D.data ≠ []) : D.IsFragment pkt ∧ ipIsFragment pkt.iph = false := by
  obtain ⟨tos, frag_off, hoff, hcapable, -, -, hiph⟩ := h.header
  have hfield : pkt.iph.frag_off = frag_off := by rw [hiph]; rfl
  have hwhole : ipIsFragment pkt.iph = false := by
    rw [ipIsFragment, hfield]
    rcases hoff with rfl | rfl <;> rfl
  obtain ⟨hzero, hlast⟩ := ipIsFragment_eq_false hwhole
  have hpiece : pkt.piece = ⟨0, D.data⟩ := by rw [IpSkb.piece, hzero, h.data]
  have hlen := D.length_le
  refine ⟨⟨fun j b hat => ?_, by rwa [h.data], ?_, ?_, fun _ => ?_, ?_, ?_⟩, hwhole⟩
  · rw [hpiece] at hat
    exact hat.2
  · refine iff_of_true hlast ?_
    rw [hpiece]
    exact Nat.zero_add _
  · rw [hlast]
    exact fun hmore => absurd hmore (by decide)
  · rw [hiph]
    rfl
  · rw [hiph]
    exact hcapable
  · have hhdr : pkt.iph.hdrlen = D.iph.hdrlen := by rw [hiph]; rfl
    rw [h.data, hhdr]
    omega

/-- The kernel finds the memory. -/
structure PortEnv.Ample (env : PortEnv) : Prop where
  alloc : ∀ n, (env.alloc n).isSome
  cow_head : ∀ n, env.cow_head n = true

theorem PortEnv.Ample.output {env : PortEnv} (h : env.Ample) (vport : VportDev) : (env.output vport).Ample where
  alloc := h.alloc
  output := fun n => if_pos (h.cow_head n)

/-- The bytes in front of the IPv4 header that the device does not count. -/
def linkLen (vport : VportDev) (skb : DpSkb) : Nat :=
  vport.hard_header_len.toNat + if !skb.vlanTagIsPresent && ethTypeVlan skb.protocol then 4 else 0

/-- A port for the packet: its device has the kind of link layer that the packet has, with headers of the length that
the packet has, and takes the fragments that came in. -/
structure PortFits (vport : VportDev) (skb : DpSkb) (key : SwFlowKey) : Prop where
  eth_type : key.ethType = ethPIp
  link : (vport.type = .ether ∧ key.ovsKeyMacProto = macProtoEthernet) ∨
    (vport.type = .none ∧ key.ovsKeyMacProto = macProtoNone)
  l2_len : skb.ip.l2.length = linkLen vport skb
  l2_le : skb.ip.l2.length ≤ maxL2Len
  mru_le : skb.cb.mru.toNat ≤ vport.mtu.toNat
  cutlen : skb.cb.cutlen = 0

/-- A part of a packet, sent as the packet would have been. -/
structure SentAs (skb s : DpSkb) : Prop where
  l2 : s.ip.l2 = skb.ip.l2
  protocol : s.protocol = skb.protocol
  vlan_tci : s.vlan_tci = skb.vlan_tci
  vlan_proto : s.vlan_proto = skb.vlan_proto
  inner_protocol : s.inner_protocol = skb.inner_protocol
  dst : s.dst = skb.dst
  cb : s.cb = skb.cb
  mpls_offset : ethPMpls skb.protocol = true → s.mpls_offset = skb.mpls_offset

section

variable {vport : VportDev} {skb s : DpSkb} {key : SwFlowKey} {is_gso : DpSkb → Bool}

/-- The device takes a packet that is sent like one that fits, and has no more than the fragments that came in. -/
theorem PortFits.send (h : PortFits vport skb key) (hs : SentAs skb s) (hsize : s.ip.size ≤ skb.cb.mru.toNat) :
    ovsVportSend is_gso vport s key.ovsKeyMacProto = some s := by
  have hmru := h.mru_le
  have hmru_lt := skb.cb.mru.isLt
  have hmtu_lt := vport.mtu.isLt
  have hhard := vport.hard_header_len.isLt
  have hl2 := h.l2_len
  have hlen : s.len = linkLen vport skb + s.ip.size := by
    rw [DpSkb.len, hs.l2, hl2, IpSkb.size]
    omega
  have hlength : packetLength s vport = BitVec.ofNat 32 s.ip.size := by
    have htag : (!s.vlanTagIsPresent && ethTypeVlan s.protocol) =
        (!skb.vlanTagIsPresent && ethTypeVlan skb.protocol) := by
      rw [DpSkb.vlanTagIsPresent, DpSkb.vlanTagIsPresent, hs.vlan_tci, hs.protocol]
    have hfour : (4 : BitVec 32).toNat = 4 := rfl
    apply BitVec.eq_of_toNat_eq
    simp only [packetLength, htag, hlen, linkLen]
    split <;> simp only [BitVec.toNat_sub, BitVec.toNat_ofNat, BitVec.toNat_setWidth, hfour] <;> omega
  have hfits : (decide (vport.mtu < packetLength s vport) && !is_gso s) = false := by
    rw [hlength, Bool.and_eq_false_iff, decide_eq_false_iff_not, BitVec.lt_def, BitVec.toNat_ofNat]
    left
    omega
  rw [ovsVportSend]
  rcases h.link with ⟨htype, hmac⟩ | ⟨htype, hmac⟩
  · rw [htype, hmac]
    simp [hfits]
  · rw [htype, hmac]
    simp [hfits, macProtoNone, macProtoEthernet]

theorem OvsFragData.frame_sentAs (mac_proto : BitVec 8) (f : IpSkb) :
    SentAs skb ((prepareFrag vport skb (if ethPMpls skb.protocol then skb.mpls_offset else 0) mac_proto).1.frame
      skb.protocol f) := by
  refine ⟨rfl, rfl, rfl, rfl, rfl, rfl, rfl, fun hmpls => ?_⟩
  simp [OvsFragData.frame, prepareFrag, hmpls]

theorem ovsVportOutput_eq_map {env : PortEnv} (henv : env.Ample) {data : OvsFragData} {protocol : BitVec 16}
    {frames : List IpSkb} (hsend : ∀ f ∈ frames, ovsVportSend env.is_gso data.vport (data.frame protocol f)
      data.mac_proto = some (data.frame protocol f)) :
    ovsVportOutput env data protocol frames = frames.map (data.frame protocol) := by
  have hall : (frames.zipIdx.filter fun f => env.cow_head f.2) = frames.zipIdx :=
    List.filter_eq_self.mpr fun f _ => henv.cow_head f.2
  have hfst : (frames.zipIdx.filterMap fun f =>
      ovsVportSend env.is_gso data.vport (data.frame protocol f.1) data.mac_proto) =
      frames.filterMap fun f => ovsVportSend env.is_gso data.vport (data.frame protocol f) data.mac_proto := by
    conv_rhs => rw [← List.zipIdx_map_fst 0 frames, List.filterMap_map]
    rfl
  rw [ovsVportOutput, hall, hfst, List.filterMap_congr hsend]
  exact congrFun List.filterMap_eq_map' frames

/-- The room for data is what the largest fragment had. -/
theorem dataSpace_mru {env : PortEnv} {cut : IpSkb} (hmru : cut.frag_max_size.toNat ≤ vport.mtu.toNat)
    (hhdr : cut.iph.hdrlen ≤ cut.frag_max_size.toNat) :
    dataSpace (env.output vport) cut = cut.frag_max_size.toNat - cut.iph.hdrlen := by
  have hlt := cut.frag_max_size.isLt
  have hbound : (0xFFFF : BitVec 32).toNat = 65535 := rfl
  generalize hroom : (env.output vport).mtu = mtu
  have hmtu : cut.frag_max_size.toNat ≤ mtu.toNat := by
    rw [← hroom]
    simp only [PortEnv.output]
    split
    · rw [hbound]
      omega
    · exact hmru
  have hmin : (if cut.frag_max_size.setWidth 32 ≠ 0 ∧ cut.frag_max_size.setWidth 32 < mtu then
      cut.frag_max_size.setWidth 32 else mtu).toNat = cut.frag_max_size.toNat := by
    have hwide : (cut.frag_max_size.setWidth 32).toNat = cut.frag_max_size.toNat := by
      rw [BitVec.toNat_setWidth]
      omega
    split_ifs with hless
    · exact hwide
    · -- it is not smaller only if it is the same
      have hne : cut.frag_max_size.setWidth 32 ≠ 0 := by
        intro hzero
        have hzero' := congrArg BitVec.toNat hzero
        rw [hwide] at hzero'
        simp only [IpHdr.hdrlen, iphdrLen, BitVec.ofNat_eq_ofNat, BitVec.toNat_ofNat, Nat.zero_mod] at hzero' hhdr
        omega
      have hge := not_and.mp hless hne
      rw [BitVec.lt_def, hwide] at hge
      omega
  rw [dataSpace, hroom]
  rw [BitVec.toNat_sub, hmin, BitVec.toNat_ofNat]
  omega

/-- What `ovs_fragment` gives to `ip_do_fragment`. -/
def IpSkb.toCut (skb : IpSkb) (mru : BitVec 16) : IpSkb := { skb.clearCb with l2 := [], frag_max_size := mru }

/-- A datagram that was handed on can be cut, with the room that the fragments had. -/
theorem Datagram.Delivered.cuttable {D : Datagram} {given : List IpSkb} {pkt : IpSkb} (h : D.Delivered given pkt)
    (hne : D.data ≠ []) (hsum : pkt.ip_summed ≠ .checksumPartial) {env : PortEnv}
    (hmru : pkt.frag_max_size.toNat ≤ vport.mtu.toNat) :
    Cuttable (env.output vport) (pkt.toCut pkt.frag_max_size) ∧ D.IsFragment (pkt.toCut pkt.frag_max_size) ∧
      dataSpace (env.output vport) (pkt.toCut pkt.frag_max_size) + pkt.iph.hdrlen = pkt.frag_max_size.toNat := by
  obtain ⟨hlarge, -⟩ := h.le_max_size
  have hhdr : pkt.iph.hdrlen ≤ pkt.frag_max_size.toNat := by omega
  have hroom : dataSpace (env.output vport) (pkt.toCut pkt.frag_max_size) =
    pkt.frag_max_size.toNat - pkt.iph.hdrlen := dataSpace_mru hmru hhdr
  have hfrag : D.IsFragment (pkt.toCut pkt.frag_max_size) := (h.isFragment hne).1.congr rfl rfl
  refine ⟨⟨PacketFits.of_isFragment hfrag, hsum, ?_, fun hlist => ⟨(h.blocks hlist).1, h.parts⟩⟩, hfrag, ?_⟩
  · have hdata : (pkt.toCut pkt.frag_max_size).ipData = pkt.payload ++ pkt.frag_list.flatMap FragSkb.data := rfl
    rw [hroom, hdata]
    by_cases hlist : pkt.frag_list = []
    · right
      rw [hlist, List.flatMap_nil, List.append_nil]
      omega
    · left
      obtain ⟨hpay, hblock⟩ := h.blocks hlist
      have hpos := List.length_pos_of_ne_nil hpay
      omega
  · rw [hroom]
    exact Nat.sub_add_cancel hhdr

/-- A datagram that was handed on is sent as fragments of it that are no larger than those that came in. -/
theorem Datagram.Delivered.output {D : Datagram} {given : List IpSkb} {pkt : IpSkb} (h : D.Delivered given pkt)
    (hne : D.data ≠ []) (hsum : pkt.ip_summed ≠ .checksumPartial) {out : DpSkb}
    (hout : out.ip = { pkt with l2 := out.ip.l2 }) (hmru : out.cb.mru = pkt.frag_max_size) {env : PortEnv}
    (henv : env.Ample) (hfits : PortFits vport out key) :
    ∃ sent, doOutput env (some vport) out key = .ok sent ∧
      Tiles 0 D.data.length (ipPieces (sent.map DpSkb.ip)) ∧ contents (ipPieces (sent.map DpSkb.ip)) = D.data ∧
      ∀ s ∈ sent, SentAs out s ∧ D.IsFragment s.ip ∧ s.ip.size ≤ pkt.frag_max_size.toNat := by
  obtain ⟨hfrag, hwhole⟩ := h.isFragment hne
  have hzero := (ipIsFragment_eq_false hwhole).1
  have hiph : out.ip.iph = pkt.iph := by rw [hout]
  have hdata : out.ip.ipData = pkt.ipData := by rw [hout]; rfl
  have hmrule : pkt.frag_max_size.toNat ≤ vport.mtu.toNat := hmru ▸ hfits.mru_le
  have hnocut : ¬ (0 : BitVec 32) < out.cb.cutlen := by
    rw [hfits.cutlen]
    decide
  have hmrune : ¬ out.cb.mru = 0 := by
    rw [hmru]
    intro hzero'
    obtain ⟨hlarge, -⟩ := h.le_max_size
    simp [hzero', IpHdr.hdrlen, iphdrLen] at hlarge
  rw [doOutput, if_neg hnocut]
  by_cases hsmall : out.len ≤ out.cb.mru.toNat + vport.hard_header_len.toNat
  case pos =>
    -- it is sent whole
    have hsize : out.ip.size ≤ out.cb.mru.toNat := by
      have hl2 := hfits.l2_len
      simp only [DpSkb.len, linkLen] at hsmall hl2
      simp only [IpSkb.size]
      omega
    have hself : SentAs out out := ⟨rfl, rfl, rfl, rfl, rfl, rfl, rfl, fun _ => rfl⟩
    have hpiece : out.ip.piece = ⟨0, D.data⟩ := by rw [IpSkb.piece, hiph, hzero, hdata, h.data]
    rw [if_pos (Or.inr hsmall), hfits.send hself hsize]
    refine ⟨[out], rfl, ?_, ?_, ?_⟩
    · simp [ipPieces, hpiece, Piece.stop]
    · simp [ipPieces, hpiece]
    · simp only [List.mem_singleton, forall_eq]
      exact ⟨hself, hfrag.congr hiph hdata, hmru ▸ hsize⟩
  case neg =>
    obtain ⟨hcuttable, hcutfrag, hroom⟩ := h.cuttable hne hsum hmrule
    obtain ⟨frames, hrun, hcut⟩ := ipDoFragment_cuts (henv.output vport) hcuttable
    have htocut : out.ip.toCut out.cb.mru = pkt.toCut pkt.frag_max_size := by
      rw [hmru, hout]
      rfl
    have hstop : (pkt.toCut pkt.frag_max_size).piece.stop = D.data.length := by
      rw [← h.data]
      exact (congrArg (· + pkt.ipData.length) hzero).trans (Nat.zero_add _)
    have hframes : ∀ f ∈ frames, D.IsFragment f ∧ f.size ≤ pkt.frag_max_size.toNat := by
      intro f hf
      have hframe := hcut.frames f hf
      have hhdr : f.iph.hdrlen = pkt.iph.hdrlen := hframe.header.hdrlen
      have hlen := hframe.length_le
      refine ⟨hcut.isFragment hcutfrag hf, ?_⟩
      rw [IpSkb.size, hhdr]
      omega
    have hsent : ovsFragment env vport out out.cb.mru key = .ok (frames.map
        ((prepareFrag vport out (if ethPMpls out.protocol then out.mpls_offset else 0) key.ovsKeyMacProto).1.frame
          out.protocol)) := by
      have hmap := @ovsVportOutput_eq_map env henv
        (prepareFrag vport out (if ethPMpls out.protocol then out.mpls_offset else 0) key.ovsKeyMacProto).1
        out.protocol frames fun f hf =>
          hfits.send (OvsFragData.frame_sentAs _ f) (hmru ▸ (hframes f hf).2)
      have hprepared : ipDoFragment (env.output vport) (out.ip.toCut out.cb.mru) = .ok (frames, 0) := htocut ▸ hrun
      rw [ovsFragment]
      dsimp only
      rw [if_neg (Nat.not_lt.mpr hfits.l2_le), if_pos hfits.eth_type, ← hmap]
      exact congrArg (Except.map _) hprepared
    have hpieces : ipPieces ((frames.map
        ((prepareFrag vport out (if ethPMpls out.protocol then out.mpls_offset else 0) key.ovsKeyMacProto).1.frame
          out.protocol)).map DpSkb.ip) = ipPieces frames := by
      rw [ipPieces, List.map_map, List.map_map]
      rfl
    have hwide : out.cb.mru.setWidth 32 ≤ vport.mtu := by
      have hle := hfits.mru_le
      rw [BitVec.le_def, BitVec.toNat_setWidth]
      omega
    rw [if_neg (not_or.mpr ⟨hmrune, hsmall⟩), if_pos hwide, hsent]
    refine ⟨_, rfl, ?_, ?_, ?_⟩
    · rw [hpieces, ← hstop, ← hzero]
      exact hcut.tiles
    · rw [hpieces, hcut.contents]
      exact h.data
    · intro s hs
      obtain ⟨f, hf, rfl⟩ := List.mem_map.mp hs
      obtain ⟨hfragf, hsize⟩ := hframes f hf
      exact ⟨OvsFragData.frame_sentAs _ f, hfragf.congr rfl rfl, hsize⟩

end

/-- A port whose device takes fragments of 28 bytes. -/
def port28 : VportDev := ⟨1, 28, 14, .ether⟩

def plentyPort : PortEnv where
  is_gso := fun _ => false
  pskb_trim := fun skb _ => skb
  fragment6 := fun _ _ => []
  max_mtu := true
  checksum_help := .ok
  cloned := false
  headroom := fun _ => 64
  shared := fun _ => false
  alloc := fun _ => some 512
  cow_head := fun _ => true

/-- The key of a packet with IPv4 over Ethernet. -/
def ipKey : SwFlowKey := (SwFlowKey.setMacProto (fun _ => 0) macProtoEthernet).setU8 352 0x08

def firstSkb : DpSkb where
  ip := firstPart
  protocol := ethPIp
  mpls_offset := 0
  inner_protocol := 0
  vlan_tci := 0
  vlan_proto := 0
  dst := 0
  cb := ⟨none, 0, 0⟩

/-- What conntrack makes of the first part, when the last one has come in. -/
def handledParts : Option DpSkb :=
  (handleFragments plentyFind plentyFrag (fragRun [] (lastPartCame 2)) 0 0 firstSkb).2.toOption

theorem handledParts_ok : ∃ pkt, handledParts = some pkt ∧ pkt.ip.ip_summed ≠ .checksumPartial ∧
    PortFits port28 pkt ipKey := by
  have hok : handledParts.any (fun pkt => decide (pkt.ip.ip_summed ≠ .checksumPartial ∧
      pkt.ip.l2.length = linkLen port28 pkt ∧ pkt.ip.l2.length ≤ maxL2Len ∧ pkt.cb.mru.toNat ≤ 28 ∧
      pkt.cb.cutlen = 0)) = true := by
    decide +kernel
  cases hpkt : handledParts with
  | none =>
      rw [hpkt] at hok
      cases hok
  | some pkt =>
      rw [hpkt] at hok
      obtain ⟨hsum, hl2, hl2le, hmru, hcutlen⟩ := of_decide_eq_true hok
      exact ⟨pkt, rfl, hsum, by decide +kernel, Or.inl ⟨rfl, by decide +kernel⟩, hl2, hl2le, hmru, hcutlen⟩

end OvsDatapath.Frag
