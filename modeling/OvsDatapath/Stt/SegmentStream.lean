import OvsDatapath.Stt.ListSegment

/-!
# The stream in the segments

`skb_list_segment` (`linux/compat/stt.c`) adjusts the headers of the fragments one by one while the head gets
shorter, and those of the head last. `SegmentsMade` is what its loop has made so far: packets with the headers of
the head and with their own part of the payload, whose sequence numbers go on where the packet before ends.

In the end the segments make up the stream of the original packet (`SegmentsKept`), whatever the fragments are.
Their checksums are right only if no carry is lost, and `skbListSegment_stream` has the exact condition.
-/

namespace OvsDatapath.Stt

open OvsDatapath.Flow OvsDatapath.Lib

/-! ## Pulled packets -/

/-- The lengths of the packet are right, and what is linear the head has itself. -/
structure SegPacket.Sound (pkt : SegPacket) : Prop where
  frag_len (frag : SegSkb) : frag ∈ pkt.frag_list → frag.len = frag.data.length
  head_len : pkt.head.len = pkt.bytes.length
  data_len_le : pkt.head.data_len ≤ pkt.head.len
  headlen_le : pkt.head.headlen ≤ pkt.head.data.length

section Pull

variable {env : SegKernel} {pkt pkt' pkt'' : SegPacket} {frags : List SegSkb} {n n' : Nat}

@[simp] theorem SegSkb.pskbPull_len (frag : SegSkb) (eat : Nat) : (frag.pskbPull eat).len = frag.len - eat := rfl

@[simp] theorem SegSkb.pskbPull_data (frag : SegSkb) (eat : Nat) :
    (frag.pskbPull eat).data = frag.data.drop eat := rfl

theorem SegSkb.pskbPull_pskbPull (frag : SegSkb) (n n' : Nat) :
    (frag.pskbPull n).pskbPull n' = frag.pskbPull (n + n') := by
  simp only [SegSkb.pskbPull, List.drop_drop, Nat.sub_sub, Nat.add_assoc, Bool.or_false]

@[simp] theorem eatFrags_zero (frags : List SegSkb) : eatFrags frags 0 = frags := by
  cases frags with
  | nil => rfl
  | cons frag frags => rw [eatFrags, if_pos rfl]

theorem eatFrags_len (hfrags : ∀ frag ∈ frags, frag.len = frag.data.length) :
    ∀ frag ∈ eatFrags frags n, frag.len = frag.data.length := by
  induction frags generalizing n with
  | nil => exact hfrags
  | cons first frags ih =>
      rw [eatFrags]
      split_ifs
      · exact hfrags
      · exact ih fun frag hmem => hfrags frag (List.mem_cons_of_mem first hmem)
      · rw [List.forall_mem_cons] at hfrags ⊢
        refine ⟨?_, hfrags.2⟩
        rw [SegSkb.pskbPull_len, SegSkb.pskbPull_data, List.length_drop, hfrags.1]

/-- The bytes that are taken are the first ones. -/
theorem eatFrags_bytes (hfrags : ∀ frag ∈ frags, frag.len = frag.data.length) :
    (eatFrags frags n).flatMap (·.data) = (frags.flatMap (·.data)).drop n := by
  induction frags generalizing n with
  | nil => simp [eatFrags]
  | cons frag frags ih =>
      rw [List.forall_mem_cons] at hfrags
      rw [eatFrags, List.flatMap_cons, List.drop_append]
      split_ifs with hzero hwhole
      · simp [hzero]
      · have hnone : frag.data.drop n = [] := List.drop_eq_nil_of_le (hfrags.1 ▸ hwhole)
        rw [ih hfrags.2, hnone, List.nil_append, hfrags.1]
      · rw [List.flatMap_cons]
        have hnone : n - frag.data.length = 0 := by
          rw [hfrags.1] at hwhole
          omega
        rw [SegSkb.pskbPull_data, hnone, List.drop_zero]

/-- To take bytes out twice is to take all of them out at once. -/
theorem eatFrags_eatFrags (frags : List SegSkb) (n n' : Nat) :
    eatFrags (eatFrags frags n) n' = eatFrags frags (n + n') := by
  induction frags generalizing n with
  | nil => rfl
  | cons frag frags ih =>
      by_cases hzero : n = 0
      · rw [hzero, eatFrags_zero, Nat.zero_add]
      by_cases hzero' : n' = 0
      · rw [hzero', eatFrags_zero, Nat.add_zero]
      by_cases hwhole : frag.len ≤ n
      · rw [eatFrags, if_neg hzero, if_pos hwhole, ih, eatFrags, if_neg (by omega), if_pos (by omega)]
        congr 1
        omega
      have hsum : ¬ n + n' = 0 := by omega
      rw [eatFrags, if_neg hzero, if_neg hwhole, eatFrags, if_neg hzero', SegSkb.pskbPull_len, eatFrags, if_neg hsum]
      by_cases hrest : frag.len ≤ n + n'
      · rw [if_pos (by omega), if_pos hrest]
        congr 1
        omega
      · rw [if_neg (by omega), if_neg hrest, SegSkb.pskbPull_pskbPull]

/-- The packet after so many bytes have been made linear. -/
structure Pulled (pkt pkt' : SegPacket) (n : Nat) : Prop where
  sound : pkt'.Sound
  bytes : pkt'.bytes = pkt.bytes
  length : pkt'.head.data.length = max n pkt.head.data.length
  frag_list : pkt'.frag_list = eatFrags pkt.frag_list (n - pkt.head.data.length)

theorem pulled_of_le (hsound : pkt.Sound) (hn : n ≤ pkt.head.data.length) : Pulled pkt pkt n where
  sound := hsound
  bytes := rfl
  length := (Nat.max_eq_right hn).symm
  frag_list := by rw [Nat.sub_eq_zero_of_le hn, eatFrags_zero]

theorem Pulled.trans (h : Pulled pkt pkt' n) (h' : Pulled pkt' pkt'' n') (hle : n ≤ n') : Pulled pkt pkt'' n' where
  sound := h'.sound
  bytes := h'.bytes.trans h.bytes
  length := by
    rw [h'.length, h.length]
    omega
  frag_list := by
    rw [h'.frag_list, h.frag_list, h.length, eatFrags_eatFrags]
    congr 1
    omega

theorem pskbPullTail_pulled (hsound : pkt.Sound) (hlinear : pkt.head.headlen < n) (hn : n ≤ pkt.head.len) :
    Pulled pkt (pskbPullTail pkt (n - pkt.head.headlen)) n := by
  have heat : pkt.head.headlen + (n - pkt.head.headlen) - pkt.head.data.length = n - pkt.head.data.length := by
    omega
  have hbytes : (pskbPullTail pkt (n - pkt.head.headlen)).bytes = pkt.bytes := by
    rw [SegPacket.bytes, pskbPullTail]
    simp only
    rw [eatFrags_bytes hsound.frag_len, List.append_assoc, List.take_append_drop, SegPacket.bytes]
  have hlen := hsound.head_len
  rw [SegPacket.bytes, List.length_append] at hlen
  have hlength : (pskbPullTail pkt (n - pkt.head.headlen)).head.data.length = max n pkt.head.data.length := by
    rw [pskbPullTail]
    simp only
    rw [heat, List.length_append, List.length_take]
    omega
  refine
    { sound :=
        { frag_len := eatFrags_len hsound.frag_len
          head_len := hbytes ▸ hsound.head_len
          data_len_le := (Nat.sub_le ..).trans hsound.data_len_le
          headlen_le := ?_ }
      bytes := hbytes
      length := hlength
      frag_list := ?_ }
  · have hdata_len := hsound.data_len_le
    rw [hlength]
    unfold SegSkb.headlen at hlinear
    unfold SegSkb.headlen pskbPullTail SegSkb.headlen
    simp only
    omega
  · rw [pskbPullTail]
    simp only
    rw [heat]

theorem pskbMayPull_pulled (hsound : pkt.Sound) (h : pskbMayPull env pkt n = some pkt') : Pulled pkt pkt' n := by
  unfold pskbMayPull at h
  split_ifs at h with hlinear hlen
  · cases h
    exact pulled_of_le hsound (hlinear.trans hsound.headlen_le)
  · cases h
    exact pskbPullTail_pulled hsound (Nat.lt_of_not_le hlinear) (Nat.le_of_not_lt hlen)

end Pull

/-! ## Runs of the loop -/

/-- A packet that consists of the headers of `data`, adjusted, and of some bytes of payload. -/
structure SegmentMade (big_endian : Bool) (data : List (BitVec 8)) (l4_offset : Nat) (ipv4 first last : Bool)
    (seq : BitVec 32) (payload : List (BitVec 8)) (seg : SegSkb) : Prop where
  payload_eq : seg.data.drop (tcpHdrEnd data l4_offset) = payload
  length : seg.data.length = tcpHdrEnd data l4_offset + payload.length
  doff : byteAt seg.data (l4_offset + 12) = byteAt data (l4_offset + 12)
  ip_len : be16Of seg.data (ipLenOffset ipv4) = BitVec.ofInt 16 (seg.data.length - ipLenBase ipv4)
  seq : be32Of seg.data (l4_offset + 4) = seq
  flags : byteAt seg.data (l4_offset + 13) = segFlags (byteAt data (l4_offset + 13)) first last
  check : be16Of seg.data (l4_offset + 16) = updatedCheck big_endian (be16Of data (l4_offset + 16))
    (be16Of data (ipLenOffset ipv4)) (be16Of seg.data (ipLenOffset ipv4))

/-- The packets made from some payloads, in order: each sequence number counts the payload before. -/
inductive SegmentsMade (big_endian : Bool) (data : List (BitVec 8)) (l4_offset : Nat) (ipv4 : Bool) :
    Bool → BitVec 32 → List (List (BitVec 8)) → List SegSkb → Prop
  | nil (first : Bool) (seq : BitVec 32) : SegmentsMade big_endian data l4_offset ipv4 first seq [] []
  | cons {first : Bool} {seq : BitVec 32} {payload : List (BitVec 8)} {payloads : List (List (BitVec 8))}
      {seg : SegSkb} {segs : List SegSkb} :
      SegmentMade big_endian data l4_offset ipv4 first payloads.isEmpty seq payload seg →
      SegmentsMade big_endian data l4_offset ipv4 false (seq + BitVec.ofNat 32 payload.length) payloads segs →
      SegmentsMade big_endian data l4_offset ipv4 first seq (payload :: payloads) (seg :: segs)

section Loop

variable {env : SegKernel} {data payload : List (BitVec 8)} {l4_offset hdr_len i : Nat} {ipv4 next first : Bool}
  {seq tcp_seq : BitVec 32} {skb skb' head frag copied : SegSkb}

theorem byteAt_take_append (hi : i < hdr_len) (hfit : hdr_len ≤ data.length) :
    byteAt (data.take hdr_len ++ payload) i = byteAt data i := by
  have hlength : i < (data.take hdr_len).length := by
    rw [List.length_take]
    omega
  rw [byteAt, byteAt, List.getD_eq_getElem?_getD, List.getD_eq_getElem?_getD, List.getElem?_append_left hlength,
    List.getElem?_take, if_pos hi]

theorem be16Of_take_append (hi : i + 2 ≤ hdr_len) (hfit : hdr_len ≤ data.length) :
    be16Of (data.take hdr_len ++ payload) i = be16Of data i := by
  rw [be16Of, be16Of, byteAt_take_append (by omega) hfit, byteAt_take_append (by omega) hfit]

theorem HeadersUpdated.made {big_endian : Bool}
    (h : HeadersUpdated big_endian skb skb' next first l4_offset ipv4 tcp_seq)
    (hskb : skb.data = data.take (tcpHdrEnd data l4_offset) ++ payload) (hlen : skb.len = skb.data.length)
    (hl4 : ipHdrEnd ipv4 ≤ l4_offset) (htcp : l4_offset + tcphdrLen ≤ tcpHdrEnd data l4_offset)
    (hfit : tcpHdrEnd data l4_offset ≤ data.length)
    (hseq : seq = if first then be32Of data (l4_offset + 4) else tcp_seq) :
    SegmentMade big_endian data l4_offset ipv4 first (!next) seq payload skb' := by
  have htake : (data.take (tcpHdrEnd data l4_offset)).length = tcpHdrEnd data l4_offset := by
    rw [List.length_take, Nat.min_eq_left hfit]
  have hend : l4_offset + 20 ≤ tcpHdrEnd data l4_offset := htcp
  have hlt := ipLenOffset_lt ipv4
  refine
    { payload_eq := ?_
      length := ?_
      doff := ?_
      ip_len := ?_
      seq := ?_
      flags := ?_
      check := ?_ }
  · rw [h.rest _ htcp, hskb, List.drop_left' htake]
  · rw [h.length, hskb, List.length_append, htake]
  · rw [h.doff, hskb, byteAt_take_append (by omega) hfit]
  · rw [h.ip_len, h.length, hlen]
  · rw [h.seq, hseq, hskb, be32Of, be16Of_take_append (by omega) hfit, be16Of_take_append (by omega) hfit, ← be32Of]
  · rw [h.flags, hskb, byteAt_take_append (by omega) hfit]
  · rw [h.check, hskb, be16Of_take_append (by omega) hfit, be16Of_take_append (by omega) hfit]

theorem copyHeaders_ok {expanded : Bool} (h : copyHeaders expanded head frag hdr_len = .ok copied) :
    copied.data = head.data.take hdr_len ++ frag.data ∧ copied.len = frag.len + hdr_len := by
  unfold copyHeaders at h
  simp only at h
  split at h
  · cases h
  · cases h
    exact ⟨rfl, rfl⟩

/-- The fragments become segments, and the head loses their lengths. -/
theorem segmentFrags_made {frags segs : List SegSkb} {head' : SegSkb} {seg_len : Int}
    (hfrags : ∀ frag ∈ frags, frag.len = frag.data.length) (hl4 : ipHdrEnd ipv4 ≤ l4_offset)
    (hhdr : hdr_len = tcpHdrEnd head.data l4_offset) (htcp : l4_offset + tcphdrLen ≤ hdr_len)
    (hfit : hdr_len ≤ head.data.length)
    (h : segmentFrags env l4_offset hdr_len ipv4 head seq seg_len frags = .ok (.ok (head', segs))) :
    head'.data = head.data ∧ head'.len = head.len - (frags.map (·.len)).sum ∧
      SegmentsMade env.big_endian head.data l4_offset ipv4 false (seq + BitVec.ofInt 32 seg_len)
        (frags.map (·.data)) segs := by
  induction frags generalizing head seq seg_len segs with
  | nil =>
      rw [segmentFrags] at h
      obtain ⟨rfl, rfl⟩ := Prod.mk.inj (Except.ok.inj (Except.ok.inj h))
      exact ⟨rfl, rfl, .nil ..⟩
  | cons skb rest ih =>
      rw [List.forall_mem_cons] at hfrags
      rw [segmentFrags] at h
      split at h
      · cases h
      next copied hcopied =>
        obtain ⟨hdata, hlen⟩ := copyHeaders_ok hcopied
        obtain ⟨seg, hseg, h⟩ := bind_eq_ok.mp h
        obtain ⟨r, hrest, h⟩ := bind_eq_ok.mp h
        split at h
        · cases h
        next head'' segs' =>
          obtain ⟨rfl, rfl⟩ := Prod.mk.inj (Except.ok.inj (Except.ok.inj h))
          -- only the length of the head changes, and the headers are copied from its data
          obtain ⟨hhead, hheadlen, hmade⟩ := ih hfrags.2 (by exact hhdr) (by exact hfit) hrest
          have hdata' : copied.data = head.data.take hdr_len ++ skb.data := hdata
          have hlength : copied.data.length = hdr_len + skb.data.length := by
            rw [hdata', List.length_append, List.length_take, Nat.min_eq_left hfit]
          refine ⟨hhead, ?_, .cons ?_ ?_⟩
          · rw [hheadlen, List.map_cons, List.sum_cons]
            exact Nat.sub_sub ..
          · have hupdated := updateHeaders_spec hl4 (by omega) hseg
            have hnext : (rest.map (·.data)).isEmpty = !(!rest.isEmpty) := by
              rw [Bool.not_not, List.isEmpty_map]
            subst hhdr
            rw [hnext]
            refine hupdated.made hdata' ?_ hl4 htcp hfit rfl
            rw [hlen, hlength, hfrags.1, Nat.add_comm]
          · have hcast : BitVec.ofNat 32 skb.data.length = BitVec.ofInt 32 (skb.len : Int) := by
              rw [BitVec.ofInt_natCast, hfrags.1]
            rw [hcast]
            exact hmade

theorem SegmentsMade.isEmpty_eq {big_endian : Bool} {payloads : List (List (BitVec 8))} {segs : List SegSkb}
    (h : SegmentsMade big_endian data l4_offset ipv4 first seq payloads segs) : payloads.isEmpty = segs.isEmpty := by
  cases h with
  | nil => rfl
  | cons => rfl

end Loop

/-! ## The whole list -/

section Whole

variable {env : SegKernel} {pkt pulled : SegPacket} {ipv4 : Bool} {l4_offset i n : Nat} {segs : List SegSkb}

/-- The head has the first bytes of the packet. -/
theorem byteAt_head (hi : i < pkt.head.data.length) : byteAt pkt.head.data i = byteAt pkt.bytes i := by
  rw [byteAt, byteAt, SegPacket.bytes, List.getD_eq_getElem?_getD, List.getD_eq_getElem?_getD,
    List.getElem?_append_left hi]

theorem Pulled.byteAt_head (h : Pulled pkt pulled n) (hi : i < n) :
    byteAt pulled.head.data i = byteAt pkt.bytes i := by
  rw [Stt.byteAt_head (by rw [h.length]; omega), h.bytes]

theorem Pulled.be16Of_head (h : Pulled pkt pulled n) (hi : i + 2 ≤ n) :
    be16Of pulled.head.data i = be16Of pkt.bytes i := by
  rw [be16Of, be16Of, h.byteAt_head (by omega), h.byteAt_head (by omega)]

theorem Pulled.be32Of_head (h : Pulled pkt pulled n) (hi : i + 4 ≤ n) :
    be32Of pulled.head.data i = be32Of pkt.bytes i := by
  rw [be32Of, be32Of, h.be16Of_head (by omega), h.be16Of_head (by omega)]

theorem Pulled.tcpHdrEnd_head (h : Pulled pkt pulled n) (hn : l4_offset + tcphdrLen ≤ n) :
    tcpHdrEnd pulled.head.data l4_offset = tcpHdrEnd pkt.bytes l4_offset := by
  have hend : l4_offset + 20 ≤ n := hn
  rw [tcpHdrEnd, tcpHdrEnd, h.byteAt_head (by omega)]

/-- What a success has checked, and the packet whose headers were copied. -/
theorem skbListSegment_made (hsound : pkt.Sound) (hl4 : ipHdrEnd ipv4 ≤ l4_offset)
    (h : skbListSegment env pkt ipv4 l4_offset = .ok (.ok segs)) :
    l4_offset + tcphdrLen ≤ tcpHdrEnd pkt.bytes l4_offset ∧ ∃ pulled,
      Pulled pkt pulled (tcpHdrEnd pkt.bytes l4_offset) ∧
      SegmentsMade env.big_endian pulled.head.data l4_offset ipv4 true (be32Of pulled.head.data (l4_offset + 4))
        (pulled.head.data.drop (tcpHdrEnd pkt.bytes l4_offset) :: pulled.frag_list.map (·.data)) segs := by
  unfold skbListSegment at h
  split at h
  · cases h
  next pkt' hpull =>
    have hpulled := pskbMayPull_pulled hsound hpull
    rw [hpulled.tcpHdrEnd_head le_rfl] at h
    simp only at h
    split at h
    · cases h
    next hchecks =>
      obtain ⟨htcp, -⟩ := not_or.mp hchecks
      have hhdr : l4_offset + tcphdrLen ≤ tcpHdrEnd pkt.bytes l4_offset := Nat.le_of_not_lt htcp
      split at h
      · cases h
      next pulled hpull' =>
        -- the second pull keeps the header that the first one has made readable
        have hboth := hpulled.trans (pskbMayPull_pulled hpulled.sound hpull') hhdr
        have hsame := hboth.tcpHdrEnd_head hhdr
        have hfit : tcpHdrEnd pkt.bytes l4_offset ≤ pulled.head.data.length := by
          rw [hboth.length]
          exact Nat.le_max_left ..
        obtain ⟨r, hloop, h⟩ := bind_eq_ok.mp h
        split at h
        · cases h
        next head frags =>
          obtain ⟨first, hfirst, h⟩ := bind_eq_ok.mp h
          obtain rfl := Except.ok.inj (Except.ok.inj h)
          obtain ⟨hdata, hlen, hmade⟩ := segmentFrags_made hboth.sound.frag_len hl4 hsame.symm hhdr hfit hloop
          refine ⟨hhdr, pulled, hboth, .cons ?_ ?_⟩
          · have hupdated := updateHeaders_spec hl4 (by rw [hdata]; exact hhdr.trans hfit) hfirst
            -- the head has lost the lengths of all fragments
            have hown : head.len = head.data.length := by
              have hsum : (pulled.frag_list.map (·.len)).sum = (pulled.frag_list.flatMap (·.data)).length := by
                rw [List.length_flatMap]
                exact congrArg List.sum (List.map_congr_left hboth.sound.frag_len)
              rw [hlen, hdata, hboth.sound.head_len, SegPacket.bytes, List.length_append, hsum, Nat.add_sub_cancel]
            rw [hmade.isEmpty_eq, ← Bool.not_not frags.isEmpty]
            refine hupdated.made ?_ hown hl4 (hsame ▸ hhdr) (hsame ▸ hfit) rfl
            rw [hsame, List.take_append_drop, hdata]
          · have hcast : BitVec.ofNat 32 (pulled.head.data.drop (tcpHdrEnd pkt.bytes l4_offset)).length =
                BitVec.ofInt 32 ((pulled.head.data.length : Int) - tcpHdrEnd pkt.bytes l4_offset) := by
              rw [List.length_drop, ← Int.ofNat_sub hfit, BitVec.ofInt_natCast]
            rw [hcast]
            exact hmade

/-- The bytes behind the TCP header. -/
def tcpPayload (data : List (BitVec 8)) (l4_offset : Nat) : List (BitVec 8) := data.drop (tcpHdrEnd data l4_offset)

section Made

variable {big_endian first last : Bool} {data payload : List (BitVec 8)} {seq : BitVec 32} {seg : SegSkb}
  {payloads : List (List (BitVec 8))}

theorem SegmentMade.tcpPayload_eq (h : SegmentMade big_endian data l4_offset ipv4 first last seq payload seg) :
    tcpPayload seg.data l4_offset = payload := by
  rw [tcpPayload, tcpHdrEnd, h.doff, ← tcpHdrEnd]
  exact h.payload_eq

/-- The payloads of the segments are those that they were made from. -/
theorem SegmentsMade.payloads_eq (h : SegmentsMade big_endian data l4_offset ipv4 first seq payloads segs) :
    segs.map (fun seg => tcpPayload seg.data l4_offset) = payloads := by
  induction h with
  | nil => rfl
  | cons hseg _ ih => rw [List.map_cons, hseg.tcpPayload_eq, ih]

/-- One of the segments, with the payload before it. -/
theorem SegmentsMade.get (h : SegmentsMade big_endian data l4_offset ipv4 first seq payloads segs)
    (hseg : segs[i]? = some seg) :
    SegmentMade big_endian data l4_offset ipv4 (first && i == 0) (i + 1 == segs.length)
      (seq + BitVec.ofNat 32 ((segs.take i).flatMap fun seg => tcpPayload seg.data l4_offset).length)
      (tcpPayload seg.data l4_offset) seg := by
  induction h generalizing i with
  | nil => cases hseg
  | @cons first seq payload payloads seg' segs hfirst hrest ih =>
      cases i with
      | zero =>
          obtain rfl : seg' = seg := Option.some.inj hseg
          have hlast : (0 + 1 == (seg' :: segs).length) = payloads.isEmpty := by
            rw [hrest.isEmpty_eq]
            cases segs <;> rfl
          rw [hlast, hfirst.tcpPayload_eq, List.take_zero, List.flatMap_nil, List.length_nil, BitVec.add_zero]
          simpa using hfirst
      | succ i =>
          have hnext := ih hseg
          have hlast : (i + 1 + 1 == (seg' :: segs).length) = (i + 1 == segs.length) := by simp
          rw [hlast, List.take_succ_cons, List.flatMap_cons, List.length_append, hfirst.tcpPayload_eq,
            BitVec.ofNat_add, ← BitVec.add_assoc]
          simpa using hnext

end Made

/-- The segments carry the stream of a packet with these bytes, apart from their checksums. -/
structure SegmentsKept (bytes : List (BitVec 8)) (ipv4 : Bool) (l4_offset : Nat) (segs : List SegSkb) : Prop where
  payload : (segs.flatMap fun seg => tcpPayload seg.data l4_offset) = tcpPayload bytes l4_offset
  ip_len (seg : SegSkb) : seg ∈ segs →
    (be16Of seg.data (ipLenOffset ipv4)).toNat + ipLenBase ipv4 = seg.data.length
  seq (i : Nat) (seg : SegSkb) : segs[i]? = some seg → be32Of seg.data (l4_offset + 4) =
    be32Of bytes (l4_offset + 4) +
      BitVec.ofNat 32 ((segs.take i).flatMap fun seg => tcpPayload seg.data l4_offset).length
  flags (i : Nat) (seg : SegSkb) : segs[i]? = some seg → byteAt seg.data (l4_offset + 13) =
    segFlags (byteAt bytes (l4_offset + 13)) (i == 0) (i + 1 == segs.length)

/-- The segments carry the stream, and in the checksum of each the length of the packet has been replaced by
its own. -/
structure StreamKept (bytes : List (BitVec 8)) (ipv4 : Bool) (l4_offset : Nat) (segs : List SegSkb) : Prop
    extends SegmentsKept bytes ipv4 l4_offset segs where
  check (seg : SegSkb) : seg ∈ segs →
    (be16Of seg.data (l4_offset + 16)).toNat + (be16Of bytes (ipLenOffset ipv4)).toNat ≡
      (be16Of bytes (l4_offset + 16)).toNat + (be16Of seg.data (ipLenOffset ipv4)).toNat [MOD 65535]

/-- The lengths of the segments: the headers and what the head has itself, and the headers with what each of
the fragments has besides. -/
def SegPacket.segmentLens (pkt : SegPacket) (l4_offset : Nat) : List Nat :=
  let hdr_len := tcpHdrEnd pkt.bytes l4_offset
  max hdr_len pkt.head.data.length ::
    (eatFrags pkt.frag_list (hdr_len - pkt.head.data.length)).map fun frag => hdr_len + frag.len

theorem ipLenBase_le (ipv4 : Bool) : ipLenBase ipv4 ≤ ipHdrEnd ipv4 := by
  cases ipv4 <;> decide

theorem Pulled.hdr_le (h : Pulled pkt pulled n) : n ≤ pulled.head.data.length ∧ n ≤ pkt.bytes.length := by
  have hhead : n ≤ pulled.head.data.length := by
    rw [h.length]
    exact Nat.le_max_left ..
  refine ⟨hhead, ?_⟩
  rw [← h.bytes, SegPacket.bytes, List.length_append]
  omega

/-- What the head and the fragments are left with is the rest of the packet. -/
theorem Pulled.flatten_payloads (h : Pulled pkt pulled n) :
    (pulled.head.data.drop n :: pulled.frag_list.map (·.data)).flatten = pkt.bytes.drop n := by
  rw [← h.bytes, SegPacket.bytes, List.drop_append_of_le_length h.hdr_le.1, List.flatten_cons, List.flatMap_def]

section Segments

variable {seg : SegSkb} {hdr_len : Nat} {seq : BitVec 32} {big_endian : Bool}

theorem SegmentsMade.flatMap_payload (hpulled : Pulled pkt pulled hdr_len)
    (h : SegmentsMade big_endian pulled.head.data l4_offset ipv4 true seq
      (pulled.head.data.drop hdr_len :: pulled.frag_list.map (·.data)) segs) :
    (segs.flatMap fun seg => tcpPayload seg.data l4_offset) = pkt.bytes.drop hdr_len := by
  rw [List.flatMap_def, h.payloads_eq, hpulled.flatten_payloads]

/-- No segment is longer than the packet, so its length fits into the header. -/
theorem SegmentsMade.ip_len (hpulled : Pulled pkt pulled hdr_len)
    (hhdr : tcpHdrEnd pulled.head.data l4_offset = hdr_len)
    (h : SegmentsMade big_endian pulled.head.data l4_offset ipv4 true seq
      (pulled.head.data.drop hdr_len :: pulled.frag_list.map (·.data)) segs)
    (hbase : ipLenBase ipv4 ≤ hdr_len) (hlen : pkt.bytes.length ≤ 65535) (hseg : seg ∈ segs) :
    (be16Of seg.data (ipLenOffset ipv4)).toNat + ipLenBase ipv4 = seg.data.length := by
  obtain ⟨i, hi⟩ := List.mem_iff_getElem?.mp hseg
  have hmade := h.get hi
  have hle : (tcpPayload seg.data l4_offset).length ≤ pkt.bytes.length - hdr_len := by
    have hmem : tcpPayload seg.data l4_offset ∈ segs.map fun seg => tcpPayload seg.data l4_offset :=
      List.mem_map_of_mem hseg
    rw [h.payloads_eq] at hmem
    have hsub := (List.sublist_flatten_of_mem hmem).length_le
    rwa [hpulled.flatten_payloads, List.length_drop] at hsub
  have hlength := hmade.length
  have hfit := hpulled.hdr_le.2
  rw [hmade.ip_len, BitVec.toNat_ofInt]
  omega

theorem SegmentsMade.lengths (hpulled : Pulled pkt pulled hdr_len)
    (hhdr : tcpHdrEnd pulled.head.data l4_offset = hdr_len)
    (h : SegmentsMade big_endian pulled.head.data l4_offset ipv4 true seq
      (pulled.head.data.drop hdr_len :: pulled.frag_list.map (·.data)) segs) :
    segs.map (·.data.length) = max hdr_len pkt.head.data.length ::
      (eatFrags pkt.frag_list (hdr_len - pkt.head.data.length)).map fun frag => hdr_len + frag.len := by
  have heach : segs.map (·.data.length) =
      (segs.map fun seg => tcpPayload seg.data l4_offset).map fun payload => hdr_len + payload.length := by
    rw [List.map_map]
    apply List.map_congr_left
    intro seg hseg
    obtain ⟨i, hi⟩ := List.mem_iff_getElem?.mp hseg
    rw [(h.get hi).length, hhdr]
    rfl
  rw [heach, h.payloads_eq, List.map_cons, List.length_drop, Nat.add_sub_cancel' hpulled.hdr_le.1, hpulled.length,
    List.map_map, ← hpulled.frag_list]
  congr 1
  apply List.map_congr_left
  intro frag hfrag
  rw [hpulled.sound.frag_len frag hfrag]
  rfl

end Segments

/-- **The stream is kept**: whatever the fragments are, the segments have the payload, the sequence numbers, the
lengths and the flags that they should have. -/
theorem skbListSegment_segments (hsound : pkt.Sound) (hl4 : ipHdrEnd ipv4 ≤ l4_offset)
    (hlen : pkt.bytes.length ≤ 65535) (h : skbListSegment env pkt ipv4 l4_offset = .ok (.ok segs)) :
    SegmentsKept pkt.bytes ipv4 l4_offset segs := by
  obtain ⟨htcp, pulled, hpulled, hmade⟩ := skbListSegment_made hsound hl4 h
  have hend : l4_offset + 20 ≤ tcpHdrEnd pkt.bytes l4_offset := htcp
  have hhdr := hpulled.tcpHdrEnd_head htcp
  have hbase := ipLenBase_le ipv4
  refine
    { payload := hmade.flatMap_payload hpulled
      ip_len := fun seg => hmade.ip_len hpulled hhdr (by omega) hlen
      seq := ?_
      flags := ?_ }
  · intro i seg hseg
    rw [(hmade.get hseg).seq, hpulled.be32Of_head (by omega)]
  · intro i seg hseg
    rw [(hmade.get hseg).flags, hpulled.byteAt_head (by omega), Bool.true_and]

/-- The segments of a packet always carry its stream, with the right lengths, sequence numbers and flags. Their
checksums are right as well exactly if no carry is lost for any of the segments. -/
theorem skbListSegment_stream (env : SegKernel) (pkt : SegPacket) (ipv4 : Bool) (l4_offset : Nat) (segs : List SegSkb)
    (hsound : pkt.Sound) (hl4 : ipHdrEnd ipv4 ≤ l4_offset) (hlen : pkt.bytes.length ≤ 65535)
    (h : skbListSegment env pkt ipv4 l4_offset = .ok (.ok segs)) :
    SegmentsKept pkt.bytes ipv4 l4_offset segs ∧
      (StreamKept pkt.bytes ipv4 l4_offset segs ↔
        ∀ len ∈ pkt.segmentLens l4_offset, CarryKept env.big_endian (be16Of pkt.bytes (l4_offset + 16))
          (be16Of pkt.bytes (ipLenOffset ipv4)) (BitVec.ofInt 16 (len - ipLenBase ipv4))) := by
  obtain ⟨htcp, pulled, hpulled, hmade⟩ := skbListSegment_made hsound hl4 h
  have hend : l4_offset + 20 ≤ tcpHdrEnd pkt.bytes l4_offset := htcp
  have hlt := ipLenOffset_lt ipv4
  have hkept := skbListSegment_segments hsound hl4 hlen h
  refine ⟨hkept, ?_⟩
  -- the checksum of one segment
  have heach : ∀ seg ∈ segs,
      ((be16Of seg.data (l4_offset + 16)).toNat + (be16Of pkt.bytes (ipLenOffset ipv4)).toNat ≡
        (be16Of pkt.bytes (l4_offset + 16)).toNat + (be16Of seg.data (ipLenOffset ipv4)).toNat [MOD 65535] ↔
      CarryKept env.big_endian (be16Of pkt.bytes (l4_offset + 16)) (be16Of pkt.bytes (ipLenOffset ipv4))
        (BitVec.ofInt 16 (seg.data.length - ipLenBase ipv4))) := by
    intro seg hseg
    obtain ⟨i, hi⟩ := List.mem_iff_getElem?.mp hseg
    have hseg' := hmade.get hi
    have hcheck := hseg'.check
    rw [hpulled.be16Of_head (by omega), hpulled.be16Of_head (by omega)] at hcheck
    rw [← hseg'.ip_len, hcheck]
    exact updatedCheck_iff ..
  rw [SegPacket.segmentLens, ← hmade.lengths hpulled (hpulled.tcpHdrEnd_head htcp), List.forall_mem_map]
  constructor
  · intro hstream seg hseg
    exact (heach seg hseg).mp (hstream.check seg hseg)
  · intro hcarries
    exact ⟨hkept, fun seg hseg => (heach seg hseg).mpr (hcarries seg hseg)⟩

end Whole

/-! ## A carry that is lost -/

/-- The headers of a packet with Ethernet, IPv4 and TCP. -/
def plainHeaders (tot_len : BitVec 8) : List (BitVec 8) :=
  List.replicate 12 2 ++ [0x08, 0x00] ++
    [0x45, 0, 0, tot_len, 0, 1, 0x40, 0, 64, 6, 0, 0, 10, 0, 0, 1, 10, 0, 0, 2] ++
    [0x30, 0x39, 0, 80, 0, 0, 0x03, 0xE8, 0, 0, 0, 1, 0x50, 0x99, 0x04, 0, 0x12, 0x34, 0, 0]

/-- An skb with some bytes of its own. -/
def plainSegSkb (data : List (BitVec 8)) (data_len : Nat) : SegSkb where
  toSttSkb := { sttTcpSegment with data := data, ip_summed := .checksumPartial, gso_size := 0, gso_segs := 0 }
  len := data.length + data_len
  data_len := data_len
  truesize := 768
  cloned := false
  shared := false
  tstamp := 0
  priority := 0
  mark := 0
  secmark := 0

/-- Two bytes, one of them in the head. -/
def twoSegments : SegPacket := ⟨plainSegSkb (plainHeaders 42 ++ [0x61]) 1, [plainSegSkb [0x62] 0]⟩

/-- One byte, and the head has none. -/
def bareHead : SegPacket := ⟨plainSegSkb (plainHeaders 41) 1, [plainSegSkb [0x62] 0]⟩

/-- Enough memory, on a machine with some byte order. -/
def plainSegKernel (big_endian : Bool) : SegKernel := ⟨sttIdealKernel, big_endian, fun _ => true⟩

theorem skbListSegment_lostCarry :
    (∃ segs, skbListSegment (plainSegKernel true) twoSegments true 34 = .ok (.ok segs) ∧
      ¬ StreamKept twoSegments.bytes true 34 segs) ∧
    ∃ segs, skbListSegment (plainSegKernel false) bareHead true 34 = .ok (.ok segs) ∧
      ¬ StreamKept bareHead.bytes true 34 segs := by
  constructor
  · refine ⟨_, rfl, fun h => ?_⟩
    exact absurd (h.check _ List.mem_cons_self) (by decide)
  · refine ⟨_, rfl, fun h => ?_⟩
    exact absurd (h.check _ (List.mem_cons_of_mem _ List.mem_cons_self)) (by decide)

/-- On a machine with the low byte first the checksums of an ordinary packet are right. -/
theorem skbListSegment_stream_twoSegments :
    ∃ segs, skbListSegment (plainSegKernel false) twoSegments true 34 = .ok (.ok segs) ∧
      StreamKept twoSegments.bytes true 34 segs := by
  have hsound : twoSegments.Sound :=
    { frag_len := List.forall_mem_singleton.mpr rfl
      head_len := rfl
      data_len_le := by decide
      headlen_le := by decide }
  refine ⟨_, rfl, ?_⟩
  exact (skbListSegment_stream (plainSegKernel false) twoSegments true 34 _ hsound (by decide) (by decide) rfl).2.mpr
    (by decide)

end OvsDatapath.Stt
