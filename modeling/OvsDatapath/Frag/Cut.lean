import OvsDatapath.Frag.Fragment
import OvsDatapath.Frag.Coverage

/-!
# What a packet is cut into

The packets that `ip_do_fragment` sends tile the packet that it was given, on both of its ways: their data are in
blocks of eight bytes and fit into the room there is, each has the header of the packet with its own length, offset
and checksum, and all but the last say that more follow. The loop of the slow way ends if there is room for a block;
if there is none it does not (`slowPath_endless`).
-/

namespace OvsDatapath.Frag

open OvsDatapath.Lib OvsDatapath.Flow OvsDatapath.Stt

/-! ### The field for the offset -/

theorem ofNat_and_ipOffset {o : Nat} (h : o < 8192) : (BitVec.ofNat 16 o &&& ipOffset).toNat = o := by
  have hmask : ipOffset.toNat = 2 ^ 13 - 1 := rfl
  rw [BitVec.toNat_and, hmask, Nat.and_two_pow_sub_one_eq_mod, BitVec.toNat_ofNat]
  omega

theorem ofNat_and_flag {o i : Nat} (h : o < 8192) (hi : 13 ≤ i) : BitVec.ofNat 16 o &&& BitVec.twoPow 16 i = 0 := by
  rw [BitVec.and_twoPow, BitVec.getLsbD_ofNat, Nat.testBit_lt_two_pow, Bool.and_false]
  · rfl
  · exact h.trans_le (Nat.pow_le_pow_right (show 0 < 2 by decide) hi)

variable {offset : Nat} {df mf : Bool}

theorem fragOff_offset (h : offset < 65536) : ((fragOff offset df mf &&& ipOffset).toNat) = offset / 8 := by
  have hsmall : offset / 8 < 8192 := by omega
  have hflags : fragOff offset df mf &&& ipOffset = BitVec.ofNat 16 (offset / 8) &&& ipOffset := by
    rw [fragOff, BitVec.and_or_distrib_right, BitVec.and_or_distrib_right]
    cases df <;> cases mf <;> exact (BitVec.or_zero ..).trans (BitVec.or_zero ..)
  rw [hflags, ofNat_and_ipOffset hsmall]

theorem fragOff_more (h : offset < 65536) : (fragOff offset df mf &&& ipMf != 0) = mf := by
  have hzero : BitVec.ofNat 16 (offset / 8) &&& ipMf = 0 :=
    ofNat_and_flag (i := 13) (by omega) (by decide)
  rw [fragOff, BitVec.and_or_distrib_right, BitVec.and_or_distrib_right, hzero]
  cases df <;> cases mf <;> rfl

theorem fragOff_df (h : offset < 65536) : (fragOff offset df mf &&& ipDf != 0) = df := by
  have hzero : BitVec.ofNat 16 (offset / 8) &&& ipDf = 0 :=
    ofNat_and_flag (i := 14) (by omega) (by decide)
  rw [fragOff, BitVec.and_or_distrib_right, BitVec.and_or_distrib_right, hzero]
  cases df <;> cases mf <;> rfl

/-! ### One packet -/

/-- A header for a part of the datagram. -/
structure HeaderLike (iph iph' : IpHdr) : Prop where
  tos : iph'.tos = iph.tos
  id : iph'.id = iph.id
  ttl : iph'.ttl = iph.ttl
  protocol : iph'.protocol = iph.protocol
  saddr : iph'.saddr = iph.saddr
  daddr : iph'.daddr = iph.daddr
  hdrlen : iph'.hdrlen = iph.hdrlen

theorem HeaderLike.refl (iph : IpHdr) : HeaderLike iph iph := ⟨rfl, rfl, rfl, rfl, rfl, rfl, rfl⟩

theorem HeaderLike.optionsFragment {iph iph' : IpHdr} (h : HeaderLike iph iph') (optlen : Nat) :
    HeaderLike iph (iph'.optionsFragment optlen) :=
  ⟨h.tos, h.id, h.ttl, h.protocol, h.saddr, h.daddr, by
    rw [← h.hdrlen]
    simp [IpHdr.hdrlen, IpHdr.optionsFragment]⟩

/-- A packet that `skb` is cut into. -/
structure FrameOf (skb : IpSkb) (room : Nat) (f : IpSkb) : Prop where
  nonempty : f.ipData ≠ []
  length_le : f.ipData.length ≤ room
  header : HeaderLike skb.iph f.iph
  first : f.iph.offset = skb.iph.offset → f.iph.options = skb.iph.options
  more : f.iph.moreFragments = false ↔ f.piece.stop = skb.piece.stop ∧ skb.iph.moreFragments = false
  blocks : f.piece.stop = skb.piece.stop ∨ f.ipData.length % 8 = 0
  df : f.iph.dontFragment = true → skb.frag_pmtu = true
  tot_len : f.iph.tot_len.toNat = f.iph.hdrlen + f.ipData.length
  check : f.iph.sendCheck = f.iph

/-- What a packet is cut into. -/
structure CutInto (skb : IpSkb) (room : Nat) (frames : List IpSkb) : Prop where
  tiles : Tiles skb.iph.offset skb.piece.stop (ipPieces frames)
  contents : contents (ipPieces frames) = skb.ipData
  frames : ∀ f ∈ frames, FrameOf skb room f

/-- The kernel finds the memory, and the device takes every packet. -/
structure OutputEnv.Ample (env : OutputEnv) : Prop where
  alloc : ∀ n, (env.alloc n).isSome
  output : ∀ n, env.output n = 0

/-- A packet of 64 KiB at most that is not a part of one that ends behind. -/
structure PacketFits (skb : IpSkb) : Prop where
  nonempty : skb.ipData ≠ []
  size_lt : skb.iph.hdrlen + skb.ipData.length < 2 ^ 16
  stop_lt : skb.piece.stop < 2 ^ 16

theorem sendCheck_sendCheck (iph : IpHdr) : iph.sendCheck.sendCheck = iph.sendCheck := rfl

theorem frameLen_le {mtu left : Nat} : frameLen mtu left ≤ left := by
  rw [frameLen]
  split <;> omega

theorem frameLen_le_mtu {mtu left : Nat} : frameLen mtu left ≤ mtu := by
  rw [frameLen]
  split <;> omega

theorem frameLen_cases {mtu left : Nat} :
    (left ≤ mtu ∧ frameLen mtu left = left) ∨ (mtu < left ∧ frameLen mtu left = mtu / 8 * 8) := by
  rw [frameLen]
  split <;> omega

/-! ### The slow way -/

/-- A packet of the slow way. -/
theorem slowFrame_holds {skb : IpSkb} (hfits : PacketFits skb) {iph : IpHdr} {data rest : List (BitVec 8)}
    {offset mtu truesize : Nat} (hne : data ≠ []) (hle : data.length ≤ mtu) (hmod : offset % 8 = 0)
    (hge : skb.iph.offset ≤ offset) (hstop : offset + data.length + rest.length = skb.piece.stop)
    (hblocks : rest = [] ∨ data.length % 8 = 0) (hlike : HeaderLike skb.iph iph)
    (hopts : offset = skb.iph.offset → iph.options = skb.iph.options) :
    (slowFrame skb iph data offset truesize (!rest.isEmpty || skb.iph.moreFragments)).piece = ⟨offset, data⟩ ∧
      FrameOf skb mtu (slowFrame skb iph data offset truesize (!rest.isEmpty || skb.iph.moreFragments)) := by
  have hstoplt := hfits.stop_lt
  have hsize := hfits.size_lt
  have hlen : skb.piece.stop = skb.iph.offset + skb.ipData.length := rfl
  have hoff : offset < 65536 := by omega
  generalize hframe : slowFrame skb iph data offset truesize (!rest.isEmpty || skb.iph.moreFragments) = frame
  have hdata : frame.ipData = data := by
    rw [← hframe]
    exact List.append_nil _
  have hfield : frame.iph.frag_off = fragOff offset skb.frag_pmtu (!rest.isEmpty || skb.iph.moreFragments) := by
    rw [← hframe]
    rfl
  have hstart : frame.iph.offset = offset := by
    rw [IpHdr.offset, hfield, fragOff_offset hoff]
    omega
  have hpiece : frame.piece = ⟨offset, data⟩ := by rw [IpSkb.piece, hstart, hdata]
  have hframestop : frame.piece.stop = offset + data.length := by rw [hpiece]; rfl
  refine ⟨hpiece, ?_, ?_, ?_, ?_, ?_, ?_, ?_, ?_, ?_⟩
  · rwa [hdata]
  · rwa [hdata]
  · rw [← hframe]
    exact ⟨hlike.tos, hlike.id, hlike.ttl, hlike.protocol, hlike.saddr, hlike.daddr, hlike.hdrlen⟩
  · rw [hstart, ← hframe]
    exact hopts
  · rw [IpHdr.moreFragments, hfield, fragOff_more hoff, Bool.or_eq_false_iff, hframestop, Bool.not_eq_false',
      List.isEmpty_iff, ← List.length_eq_zero_iff]
    refine and_congr_left fun _ => ?_
    omega
  · rw [hframestop, hdata]
    rcases hblocks with rfl | hblock
    · exact Or.inl (by simpa using hstop)
    · exact Or.inr hblock
  · rw [IpHdr.dontFragment, hfield, fragOff_df hoff]
    exact id
  · have hhdr : frame.iph.hdrlen = iph.hdrlen := by
      rw [← hframe]
      rfl
    have htot : frame.iph.tot_len = BitVec.ofNat 16 (data.length + iph.hdrlen) := by
      rw [← hframe]
      rfl
    rw [htot, hdata, hhdr, BitVec.toNat_ofNat, hlike.hdrlen, Nat.mod_eq_of_lt (by omega), Nat.add_comm]
  · rw [← hframe]
    rfl

/-- The loop of the slow way, from the point where `left` is what remains. -/
theorem slowPath_cuts {env : OutputEnv} (henv : env.Ample) {skb : IpSkb} (hfits : PacketFits skb) {mtu : Nat}
    {fuel : Nat} : ∀ {n : Nat} {iph : IpHdr} {left : List (BitVec 8)} {offset : Nat}, left.length < fuel →
      8 ≤ mtu ∨ left.length ≤ mtu → skb.iph.offset ≤ offset → (left ≠ [] → offset % 8 = 0) →
      offset + left.length = skb.piece.stop → HeaderLike skb.iph iph →
      (offset = skb.iph.offset → iph.options = skb.iph.options) →
      ∃ frames, slowPath env skb mtu skb.iph.moreFragments fuel n iph left offset = .ok (frames, 0) ∧
        Tiles offset skb.piece.stop (ipPieces frames) ∧ contents (ipPieces frames) = left ∧
        ∀ f ∈ frames, FrameOf skb mtu f := by
  induction fuel with
  | zero => exact fun hfuel => absurd hfuel (Nat.not_lt_zero _)
  | succ fuel ih =>
      intro n iph left offset hfuel hroom hge hmod hstop hlike hopts
      rw [slowPath]
      by_cases hnil : left = []
      case pos =>
        subst hnil
        exact ⟨[], rfl, by simpa [ipPieces] using hstop, rfl, by simp⟩
      case neg =>
        have hpos := List.length_pos_of_ne_nil hnil
        have hmod := hmod hnil
        obtain ⟨truesize, htruesize⟩ := Option.isSome_iff_exists.mp (henv.alloc n)
        -- what the packet takes is not nothing, and whole blocks unless it is all of the rest
        have hlen := @frameLen_cases mtu left.length
        generalize frameLen mtu left.length = len at hlen
        have hlenle : len ≤ left.length ∧ len ≤ mtu ∧ 0 < len := by omega
        have hdrop : (left.drop len).length = left.length - len := List.length_drop
        have htake : (left.take len).length = len := by
          rw [List.length_take]
          omega
        have hblocks : left.drop len = [] ∨ (left.take len).length % 8 = 0 := by
          rw [htake, ← List.length_eq_zero_iff, hdrop]
          omega
        have hrest : left.drop len ≠ [] → (offset + len) % 8 = 0 := by
          intro hne
          have hblock := hblocks.resolve_left hne
          omega
        have hlike' : HeaderLike skb.iph (if offset = 0 then iph.optionsFragment skb.optlen else iph) := by
          split
          · exact hlike.optionsFragment _
          · exact hlike
        obtain ⟨frames, hrun, htiles, hcontents, hall⟩ :=
          @ih (n + 1) (if offset = 0 then iph.optionsFragment skb.optlen else iph) (left.drop len) (offset + len)
            (by omega) (hroom.imp_right fun hle => by omega) (by omega) hrest (by omega) hlike'
            (fun heq => absurd heq (by omega))
        have hstop' : offset + (left.take len).length + (left.drop len).length = skb.piece.stop := by omega
        obtain ⟨hpiece, hframe⟩ := @slowFrame_holds skb hfits iph (left.take len) (left.drop len) offset mtu truesize
          (List.ne_nil_of_length_pos (by omega)) (htake.trans_le hlenle.2.1) hmod hge hstop' hblocks hlike hopts
        refine ⟨_ :: frames, ?_, ?_, ?_, List.forall_mem_cons.mpr ⟨hframe, hall⟩⟩
        · rw [if_neg (by simpa using hnil), htruesize]
          dsimp only
          rw [if_neg (not_not.mpr (henv.output n)), hrun]
          rfl
        · rw [ipPieces_cons, hpiece]
          refine ⟨rfl, ?_⟩
          have hnext : (⟨offset, left.take len⟩ : Piece (BitVec 8)).stop = offset + len := by rw [Piece.stop, htake]
          rwa [hnext]
        · rw [ipPieces_cons, contents_cons, hcontents, hpiece]
          exact List.take_append_drop ..

/-- **Without room for a block it never ends**: packets without data are sent on and on. -/
theorem slowPath_endless {env : OutputEnv} (henv : env.Ample) {skb : IpSkb} {mtu : Nat} {more : Bool}
    {left : List (BitVec 8)} (hmtu : mtu < 8) (hleft : mtu < left.length) (fuel : Nat) :
    ∀ (n : Nat) (iph : IpHdr) (offset : Nat), slowPath env skb mtu more fuel n iph left offset = .error .endless := by
  induction fuel with
  | zero => exact fun _ _ _ => rfl
  | succ fuel ih =>
      intro n iph offset
      obtain ⟨truesize, htruesize⟩ := Option.isSome_iff_exists.mp (henv.alloc n)
      have hzero : frameLen mtu left.length = 0 := by
        rw [frameLen, if_pos hleft]
        omega
      have hne : left.isEmpty = false := by
        rw [List.isEmpty_eq_false_iff]
        exact List.ne_nil_of_length_pos (by omega)
      rw [slowPath, hne, if_neg (by simp), htruesize]
      dsimp only
      rw [if_neg (not_not.mpr (henv.output n)), hzero, List.drop_zero, Nat.add_zero, ih]
      rfl

/-! ### The fast way -/

/-- The next packet of the fast way. -/
theorem nextFrame_holds {skb cur : IpSkb} (hfits : PacketFits skb) (hoff : skb.iph.offset = 0)
    (hlast : skb.iph.moreFragments = false) {frag : FragSkb} {more : Bool} {offset mtu later : Nat}
    (hne : frag.data ≠ []) (hle : frag.data.length ≤ mtu) (hpay : cur.payload ≠ [])
    (hmod : (offset + cur.payload.length) % 8 = 0)
    (hstop : offset + cur.payload.length + frag.data.length + later = skb.piece.stop)
    (hmore : more = false ↔ later = 0) (hblocks : later = 0 ∨ frag.data.length % 8 = 0)
    (hlike : HeaderLike skb.iph cur.iph) :
    (nextFrame cur offset frag more).piece = ⟨offset + cur.payload.length, frag.data⟩ ∧
      FrameOf skb mtu (nextFrame cur offset frag more) := by
  have hpos := List.length_pos_of_ne_nil hpay
  have hstoplt := hfits.stop_lt
  have hsize := hfits.size_lt
  have hlen : skb.piece.stop = skb.iph.offset + skb.ipData.length := rfl
  have hlt : offset + cur.payload.length < 65536 := by omega
  generalize hframe : nextFrame cur offset frag more = frame
  have hdata : frame.ipData = frag.data := by
    rw [← hframe]
    exact List.append_nil _
  have hfield : frame.iph.frag_off = fragOff (offset + cur.payload.length) false more := by
    rw [← hframe]
    rfl
  have hstart : frame.iph.offset = offset + cur.payload.length := by
    rw [IpHdr.offset, hfield, fragOff_offset hlt]
    omega
  have hpiece : frame.piece = ⟨offset + cur.payload.length, frag.data⟩ := by rw [IpSkb.piece, hstart, hdata]
  have hframestop : frame.piece.stop = offset + cur.payload.length + frag.data.length := by rw [hpiece]; rfl
  have hlike' : HeaderLike skb.iph (if offset = 0 then cur.iph.optionsFragment frag.optlen else cur.iph) := by
    split
    · exact hlike.optionsFragment _
    · exact hlike
  refine ⟨hpiece, ?_, ?_, ?_, ?_, ?_, ?_, ?_, ?_, ?_⟩
  · rwa [hdata]
  · rwa [hdata]
  · rw [← hframe]
    exact ⟨hlike'.tos, hlike'.id, hlike'.ttl, hlike'.protocol, hlike'.saddr, hlike'.daddr, hlike'.hdrlen⟩
  · rw [hstart]
    exact fun heq => absurd heq (by omega)
  · rw [IpHdr.moreFragments, hfield, fragOff_more hlt, hmore, hframestop, and_iff_left hlast]
    omega
  · rw [hframestop, hdata]
    omega
  · rw [IpHdr.dontFragment, hfield, fragOff_df hlt]
    simp
  · have hhdr : frame.iph.hdrlen = skb.iph.hdrlen := by
      rw [← hframe]
      exact hlike'.hdrlen
    have htot : frame.iph.tot_len = BitVec.ofNat 16 (cur.iph.hdrlen + frag.data.length) := by
      rw [← hframe]
      rfl
    rw [htot, hdata, hhdr, BitVec.toNat_ofNat, hlike.hdrlen, Nat.mod_eq_of_lt (by omega)]
  · rw [← hframe]
    rfl

/-- What `geometryOk` has checked. -/
theorem geometryOk_cons {env : OutputEnv} {hlen mtu : Nat} {frag : FragSkb} {rest : List FragSkb}
    (h : geometryOk env hlen mtu (frag :: rest) = true) :
    frag.data.length ≤ mtu ∧ (rest = [] ∨ frag.data.length % 8 = 0) ∧ geometryOk env hlen mtu rest = true := by
  simp only [geometryOk, Bool.and_eq_true, Bool.not_eq_true', decide_eq_false_iff_not, Bool.or_eq_true, beq_iff_eq,
    List.isEmpty_iff, Nat.not_lt] at h
  exact ⟨h.1.1.1.1, h.1.1.1.2.symm, h.2⟩

/-- The loop of the fast way, from a packet on. -/
theorem fastPath_cuts {env : OutputEnv} (henv : env.Ample) {skb : IpSkb} (hfits : PacketFits skb)
    (hoff : skb.iph.offset = 0) (hlast : skb.iph.moreFragments = false) {hlen mtu : Nat} {rest : List FragSkb} :
    ∀ {n offset : Nat} {cur : IpSkb}, geometryOk env hlen mtu rest = true → (∀ x ∈ rest, x.data ≠ []) →
      cur.piece = ⟨offset, cur.payload⟩ → cur.payload ≠ [] → FrameOf skb mtu cur →
      (rest ≠ [] → (offset + cur.payload.length) % 8 = 0) →
      offset + cur.payload.length + (rest.flatMap FragSkb.data).length = skb.piece.stop →
      (fastPath env n cur offset rest).2 = 0 ∧
        Tiles offset skb.piece.stop (ipPieces (fastPath env n cur offset rest).1) ∧
        contents (ipPieces (fastPath env n cur offset rest).1) = cur.payload ++ rest.flatMap FragSkb.data ∧
        ∀ f ∈ (fastPath env n cur offset rest).1, FrameOf skb mtu f := by
  induction rest with
  | nil =>
      intro n offset cur _ _ hpiece _ hcur _ hstop
      rw [fastPath]
      refine ⟨henv.output n, ?_, ?_, by simpa using hcur⟩
      · rw [ipPieces_cons, hpiece]
        exact ⟨rfl, by simpa [Piece.stop, ipPieces] using hstop⟩
      · rw [ipPieces_cons, hpiece]
        simp [ipPieces]
  | cons frag rest ih =>
      intro n offset cur hgeo hfull hpiece hpay hcur hmod hstop
      obtain ⟨hle, hblocks, hgeo'⟩ := geometryOk_cons hgeo
      obtain ⟨hne, hfull'⟩ := List.forall_mem_cons.mp hfull
      have hmod := hmod (by simp)
      rw [List.flatMap_cons, List.length_append] at hstop
      have hempty : rest = [] ↔ (rest.flatMap FragSkb.data).length = 0 := by
        cases rest with
        | nil => simp
        | cons x xs =>
            have hx := List.length_pos_of_ne_nil (hfull' x (by simp))
            rw [List.flatMap_cons, List.length_append]
            exact iff_of_false (by simp) (by omega)
      have hmore : (!rest.isEmpty) = false ↔ (rest.flatMap FragSkb.data).length = 0 := by
        rw [← hempty, Bool.not_eq_false', List.isEmpty_iff]
      obtain ⟨hnext, hframe⟩ := nextFrame_holds hfits hoff hlast hne hle hpay hmod (by omega) hmore
        (hblocks.imp_left hempty.mp) hcur.header
      have hnextpay : (nextFrame cur offset frag !rest.isEmpty).payload = frag.data := rfl
      obtain ⟨herr, htiles, hcontents, hall⟩ := @ih (n + 1) (offset + cur.payload.length)
        (nextFrame cur offset frag !rest.isEmpty) hgeo' hfull' hnext hne hframe
        (fun hrest => by
          have hblock := hblocks.resolve_left hrest
          rw [hnextpay]
          omega)
        (by rw [hnextpay]; omega)
      rw [fastPath, if_neg (not_not.mpr (henv.output n))]
      refine ⟨herr, ?_, ?_, List.forall_mem_cons.mpr ⟨hcur, hall⟩⟩
      · rw [ipPieces_cons, hpiece]
        exact ⟨rfl, htiles⟩
      · rw [ipPieces_cons, contents_cons, hcontents, hpiece, List.flatMap_cons]
        rfl

/-! ### Both -/

theorem ipIsFragment_eq_false {iph : IpHdr} (h : ipIsFragment iph = false) :
    iph.offset = 0 ∧ iph.moreFragments = false := by
  rw [ipIsFragment, bne_eq_false_iff_eq, BitVec.and_or_distrib_left] at h
  obtain ⟨hmf, hoffset⟩ := BitVec.or_eq_zero_iff.mp h
  constructor
  · rw [IpHdr.offset, hoffset]
    rfl
  · rw [IpHdr.moreFragments, hmf]
    rfl

/-- A packet that can be cut: there is room for a block in each of the packets, or for everything, the checksum is
complete, and no part of it is empty. -/
structure Cuttable (env : OutputEnv) (skb : IpSkb) : Prop where
  fits : PacketFits skb
  summed : skb.ip_summed ≠ .checksumPartial
  room : 8 ≤ dataSpace env skb ∨ skb.ipData.length ≤ dataSpace env skb
  parts : skb.frag_list ≠ [] → skb.payload ≠ [] ∧ ∀ x ∈ skb.frag_list, x.data ≠ []

/-- The first packet of the fast way. -/
def firstFrame (skb : IpSkb) : IpSkb :=
  { skb with
    frag_complete := true
    iph := IpHdr.sendCheck { skb.iph with
      tot_len := BitVec.ofNat 16 (skb.iph.hdrlen + skb.payload.length)
      frag_off := ipMf }
    frag_list := []
    truesize := skb.truesize - sumTruesize skb.frag_list }

theorem firstFrame_holds {skb : IpSkb} (hfits : PacketFits skb) (hoff : skb.iph.offset = 0) {mtu : Nat}
    (hlist : 0 < (skb.frag_list.flatMap FragSkb.data).length) (hpay : skb.payload ≠ [])
    (hle : skb.payload.length ≤ mtu) (hmod : skb.payload.length % 8 = 0) :
    (firstFrame skb).piece = ⟨0, skb.payload⟩ ∧ FrameOf skb mtu (firstFrame skb) := by
  have hsize := hfits.size_lt
  have hlen : skb.piece.stop = skb.iph.offset + (skb.payload ++ skb.frag_list.flatMap FragSkb.data).length := rfl
  rw [List.length_append, hoff] at hlen
  have hdatalen : skb.ipData.length = skb.payload.length + (skb.frag_list.flatMap FragSkb.data).length :=
    List.length_append
  have hdata : (firstFrame skb).ipData = skb.payload := List.append_nil _
  have hfield : (firstFrame skb).iph.frag_off = ipMf := rfl
  have hpiece : (firstFrame skb).piece = ⟨0, skb.payload⟩ := by
    rw [IpSkb.piece, hdata, IpHdr.offset, hfield]
    rfl
  have hstop : (firstFrame skb).piece.stop = 0 + skb.payload.length := by rw [hpiece]; rfl
  refine ⟨hpiece, ?_, ?_, ⟨rfl, rfl, rfl, rfl, rfl, rfl, rfl⟩, fun _ => rfl, ?_, Or.inr (by rwa [hdata]), ?_, ?_, rfl⟩
  · rwa [hdata]
  · rwa [hdata]
  · rw [hstop, IpHdr.moreFragments, hfield]
    exact iff_of_false (by decide) fun hend => absurd hend.1 (by omega)
  · rw [IpHdr.dontFragment, hfield]
    exact fun hdf => absurd hdf (by decide)
  · have htot : (firstFrame skb).iph.tot_len = BitVec.ofNat 16 (skb.iph.hdrlen + skb.payload.length) := rfl
    rw [htot, hdata, BitVec.toNat_ofNat, Nat.mod_eq_of_lt (by omega)]
    rfl

/-- **A packet is cut into packets that tile it.** On both ways, and the loop over its data ends. -/
theorem ipDoFragment_cuts {env : OutputEnv} {skb : IpSkb} (henv : env.Ample) (h : Cuttable env skb) :
    ∃ frames, ipDoFragment env skb = .ok (frames, 0) ∧ CutInto skb (dataSpace env skb) frames := by
  have hfits : PacketFits { skb with frag_complete := true } := ⟨h.fits.nonempty, h.fits.size_lt, h.fits.stop_lt⟩
  have hblocks : skb.iph.offset % 8 = 0 := Nat.mul_mod_left ..
  obtain ⟨frames, hslow, htiles, hcontents, hall⟩ :=
    @slowPath_cuts env henv _ hfits (dataSpace env skb) (skb.ipData.length + 1) 0 skb.iph skb.ipData skb.iph.offset
      (Nat.lt_succ_self _) h.room le_rfl (fun _ => hblocks) rfl (HeaderLike.refl _) fun _ => rfl
  have hcut : CutInto skb (dataSpace env skb) frames :=
    ⟨htiles, hcontents, fun f hf => ⟨(hall f hf).nonempty, (hall f hf).length_le, (hall f hf).header, (hall f hf).first,
      (hall f hf).more, (hall f hf).blocks, (hall f hf).df, (hall f hf).tot_len, (hall f hf).check⟩⟩
  rw [ipDoFragment, if_neg h.summed, cutPacket]
  dsimp only
  split_ifs with hlist hgeom hgeo
  · exact ⟨frames, hslow, hcut⟩
  · exact ⟨frames, hslow, hcut⟩
  · exact ⟨frames, hslow, hcut⟩
  · -- the parts have the right size, and are sent as they are
    simp only [Bool.or_eq_true, decide_eq_true_eq, bne_iff_ne, ne_eq, not_or, Bool.not_eq_true, Nat.not_lt,
      not_not] at hgeom
    obtain ⟨⟨⟨hle, hmod⟩, hwhole⟩, -⟩ := hgeom
    obtain ⟨hoff, hlast⟩ := ipIsFragment_eq_false hwhole
    obtain ⟨hpay, hparts⟩ := h.parts (by simpa using hlist)
    have hgeo : geometryOk env skb.iph.hdrlen (dataSpace env skb) skb.frag_list = true := by simpa using hgeo
    have hpos : 0 < (skb.frag_list.flatMap FragSkb.data).length := by
      obtain ⟨x, xs, hcons⟩ := List.exists_cons_of_ne_nil (show skb.frag_list ≠ [] by simpa using hlist)
      have hx := List.length_pos_of_ne_nil (hparts x (by simp [hcons]))
      rw [hcons, List.flatMap_cons, List.length_append]
      omega
    obtain ⟨hpiece, hfirst⟩ := firstFrame_holds h.fits hoff hpos hpay hle hmod
    have hstop : 0 + skb.payload.length + (skb.frag_list.flatMap FragSkb.data).length = skb.piece.stop := by
      have hlen : skb.piece.stop = skb.iph.offset + (skb.payload ++ skb.frag_list.flatMap FragSkb.data).length := rfl
      rw [List.length_append, hoff] at hlen
      omega
    obtain ⟨herr, htiles', hcontents', hall'⟩ :=
      @fastPath_cuts env henv skb h.fits hoff hlast _ _ skb.frag_list 0 0 (firstFrame skb) hgeo hparts hpiece hpay
        hfirst (fun _ => by rwa [Nat.zero_add]) hstop
    refine ⟨(fastPath env 0 (firstFrame skb) 0 skb.frag_list).1, ?_, ?_, hcontents', hall'⟩
    · rw [← herr]
      rfl
    · rw [hoff]
      exact htiles'

/-- A router that finds memory, and sends to a device with this MTU. -/
def plentyOutput (mtu : BitVec 32) : OutputEnv where
  mtu := mtu
  checksum_help := .ok
  cloned := false
  headroom := fun _ => 64
  shared := fun _ => false
  alloc := fun _ => some 512
  output := fun _ => 0

def wholeSkb : IpSkb := partSkb 0 [1, 2, 3, 4, 5, 6, 7, 8, 9, 10]

theorem plentyOutput_ample (mtu : BitVec 32) : (plentyOutput mtu).Ample := ⟨fun _ => rfl, fun _ => rfl⟩

theorem wholeSkb_fits : PacketFits wholeSkb := ⟨by decide, by decide, by decide⟩

theorem wholeSkb_cuttable : Cuttable (plentyOutput 28) wholeSkb :=
  ⟨wholeSkb_fits, by decide, by decide, fun hlist => absurd rfl hlist⟩

theorem ipDoFragment_cuts_whole :
    ∃ frames, ipDoFragment (plentyOutput 28) wholeSkb = .ok (frames, 0) ∧ CutInto wholeSkb 8 frames :=
  ipDoFragment_cuts (plentyOutput_ample 28) wholeSkb_cuttable

/-- **It goes on forever exactly if there is no room for a block**: with an MTU that is not eight bytes larger than
the header, for a packet that does not fit. -/
theorem ipDoFragment_endless_iff {env : OutputEnv} {skb : IpSkb} (henv : env.Ample) (hfits : PacketFits skb)
    (hsum : skb.ip_summed ≠ .checksumPartial)
    (hparts : skb.frag_list ≠ [] → skb.payload ≠ [] ∧ ∀ x ∈ skb.frag_list, x.data ≠ []) :
    ipDoFragment env skb = .error .endless ↔
      dataSpace env skb < 8 ∧ dataSpace env skb < skb.ipData.length := by
  constructor
  · intro hendless
    by_contra hroom
    obtain ⟨frames, hrun, -⟩ := ipDoFragment_cuts henv ⟨hfits, hsum, by omega, hparts⟩
    cases hrun.symm.trans hendless
  · rintro ⟨hblock, hlong⟩
    have hslow := @slowPath_endless env henv { skb with frag_complete := true } (dataSpace env skb)
      skb.iph.moreFragments skb.ipData hblock hlong (skb.ipData.length + 1) 0 skb.iph skb.iph.offset
    rw [ipDoFragment, if_neg hsum, cutPacket]
    dsimp only
    split_ifs with hlist hgeom
    · exact hslow
    · exact hslow
    · exact hslow
    · -- a part without a whole block has nothing
      simp only [Bool.or_eq_true, decide_eq_true_eq, bne_iff_ne, ne_eq, not_or, Bool.not_eq_true, Nat.not_lt,
        not_not] at hgeom
      have hpos := List.length_pos_of_ne_nil (hparts (by simpa using hlist)).1
      omega

theorem ipDoFragment_endless_whole : ipDoFragment (plentyOutput 27) wholeSkb = .error .endless :=
  (ipDoFragment_endless_iff (plentyOutput_ample 27) wholeSkb_fits (by decide) fun hlist => absurd rfl hlist).mpr
    (by decide)

end OvsDatapath.Frag
