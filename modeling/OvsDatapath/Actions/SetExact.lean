import OvsDatapath.Actions.SetIpv4
import OvsDatapath.Flow.PacketKind

/-!
# Setting fields of the other headers

Each of the functions for Ethernet, MPLS, the transport headers and IPv6 writes its fields under their
masks, and nothing else but the checksum that covers them. The fields of IPv6 are not made of whole bytes:
the traffic class and the label share one (`rewritten_flowWord`).
-/

namespace OvsDatapath.Actions

open OvsDatapath.Lib OvsDatapath.Flow

variable {ops : CsumOps} {env : SkbEnv} {skb skb' : SkbState} {st : SetState}
variable {stray : Nat → Prop} {off n j : Nat} {key mask data : List (BitVec 8)}

theorem ensureWritable_of {len : Nat} (hfit : len ≤ skb.len) (hwritable : env.ensure_writable len = true) :
    skb.ensureWritable env len = true := by
  rw [SkbState.ensureWritable, hwritable, Bool.and_true]
  exact decide_eq_true hfit

/-! ## Ethernet and MPLS -/

/-- The fields of an Ethernet header that can be set. -/
def ethernetFields (key mask : List (BitVec 8)) : List MaskedField :=
  [⟨6, slice key 0 6, slice mask 0 6⟩, ⟨0, slice key 6 6, slice mask 6 6⟩]

theorem rewritten_setEthAddr (ops : CsumOps) (hkey : WithinMask key mask) (hfit : ethHlen ≤ st.skb.len)
    (hwritable : env.ensure_writable ethHlen = true) :
    ∃ st', setEthAddr ops env key mask st = (0, st') ∧
      Rewritten (ethernetFields key mask) (fun _ => False) st.skb st'.skb := by
  have hok : st.skb.ensureWritable env ethHlen = true := ensureWritable_of hfit hwritable
  unfold setEthAddr
  simp only [hok, Bool.not_true, Bool.false_eq_true, if_false]
  refine ⟨_, rfl, ?_⟩
  dsimp only
  have hpull := rewritten_postpullRcsum ops (fun _ => False) st.skb 0 12
  generalize st.skb.postpullRcsum ops 0 12 = skb₁ at *
  have hlen₁ := hpull.same.len
  unfold ethHlen at hfit
  have hsrc := rewritten_put_masked 6 6 (hkey.slice 0 6) (slice_length ..)
    (by omega) (.refl (fun _ => False) skb₁)
  generalize skb₁.put 6 (ovsMasked (skb₁.bytes 6 6) (slice key 0 6) (slice mask 0 6)) = skb₂ at *
  have hlen₂ := hsrc.same.len
  have hdst := rewritten_put_masked 0 6 (hkey.slice 6 6) (slice_length ..)
    (by omega) (.refl (fun _ => False) skb₂)
  refine (hpull.after (hsrc.cons hdst ?_ fun _ _ _ _ => id) fun _ _ _ _ => id).before
    (rewritten_postpushRcsum ops _ ..) fun _ _ _ _ => id
  intro g hg j
  obtain rfl := List.mem_singleton.mp hg
  simp only [MaskedField.Covers, slice_length]
  omega

/-- The field of an MPLS label stack entry. -/
def mplsFields (mac_len : Nat) (key mask : List (BitVec 8)) : List MaskedField :=
  [⟨mac_len, slice key 0 4, slice mask 0 4⟩]

theorem rewritten_setMpls (ops : CsumOps) (hkey : WithinMask key mask) (hfit : st.skb.mac_len + mplsHlen ≤ st.skb.len)
    (hwritable : env.ensure_writable (st.skb.mac_len + mplsHlen) = true) :
    ∃ st', setMpls ops env key mask st = (0, st') ∧
      Rewritten (mplsFields st.skb.mac_len key mask) (fun _ => False) st.skb st'.skb := by
  have hok : st.skb.ensureWritable env (st.skb.mac_len + mplsHlen) = true := ensureWritable_of hfit hwritable
  unfold setMpls
  simp only [hok, Bool.not_true, Bool.false_eq_true, if_false]
  refine ⟨_, rfl, ?_⟩
  have hcsum : ∀ csum, Rewritten [] (fun _ => False) st.skb { st.skb with csum := csum } := fun csum =>
    ⟨.nil fun _ _ => rfl, ⟨rfl, rfl, rfl, rfl, rfl, rfl, rfl, rfl, rfl, rfl, rfl, rfl⟩⟩
  exact rewritten_put_masked _ _ (hkey.slice 0 4) (slice_length ..) hfit (hcsum _)

/-! ## Transport headers -/

/-- The ports of a transport header. -/
def portFields (th : Nat) (key mask : List (BitVec 8)) : List MaskedField :=
  [⟨th, slice key 0 2, slice mask 0 2⟩, ⟨th + 2, slice key 2 2, slice mask 2 2⟩]

theorem portFields_covers {th : Nat} {f : MaskedField} (hf : f ∈ portFields th key mask) (hj : f.Covers j) :
    th ≤ j ∧ j < th + 4 := by
  simp only [portFields, List.mem_cons, List.not_mem_nil, or_false] at hf
  obtain rfl | rfl := hf
  all_goals
    simp only [MaskedField.Covers, slice_length] at hj
    omega

/-- The checksum lies behind the ports. -/
theorem portFields_disjoint (key mask : List (BitVec 8)) (th n : Nat) {check : Nat} (h : 4 ≤ check) :
    ∀ f ∈ portFields th key mask, ∀ j, f.Covers j → ¬ Spans (th + check) n j := by
  intro f hf j hj
  have := portFields_covers hf hj
  unfold Spans
  omega

theorem rewritten_setChangedPort (ops : CsumOps) (stray : Nat → Prop) (st : SetState) (port member : Nat)
    {check : Nat} (hkey : WithinMask key mask) (hlen : key.length = 2)
    (hfit : port + 2 ≤ st.skb.len) (hcheck : ∀ j, Spans check 2 j → stray j) :
    Rewritten [⟨port, key, mask⟩] stray st.skb
      (setChangedPort ops port member (ovsMasked (st.skb.bytes port 2) key mask) check st).skb := by
  unfold setChangedPort
  split_ifs with hsame
  · exact rewritten_of_unchanged hkey hlen hsame
  · exact rewritten_put_masked _ _ hkey hlen hfit (rewritten_inetProtoCsumReplace ops _ hcheck ..)

/-- Both ports are set, one after the other. -/
theorem rewritten_ports {th : Nat} {skb'' : SkbState}
    (hsrc : Rewritten [⟨th, slice key 0 2, slice mask 0 2⟩] stray skb skb')
    (hdst : Rewritten [⟨th + 2, slice key 2 2, slice mask 2 2⟩] stray skb' skb'')
    (hstray : ∀ j, stray j → th + 4 ≤ j) : Rewritten (portFields th key mask) stray skb skb'' := by
  refine hsrc.cons hdst ?_ fun g hg j hj hs => ?_
  · intro g hg j
    obtain rfl := List.mem_singleton.mp hg
    simp only [MaskedField.Covers, slice_length]
    omega
  · have := hstray j hs
    have := portFields_covers hg hj
    omega

/-- The second port is as it has been, after the first one has been set. -/
theorem bytes_dst {th : Nat} (hsrc : Rewritten [⟨th, slice key 0 2, slice mask 0 2⟩] stray skb skb')
    (hstray : ∀ j, stray j → th + 4 ≤ j) : skb'.bytes (th + 2) 2 = skb.bytes (th + 2) 2 := by
  refine bytes_congr_of fun j hj => hsrc.fields.frame j (fun f hf hc => ?_) fun hs => ?_
  · rw [List.mem_singleton.mp hf, MaskedField.Covers, slice_length] at hc
    dsimp only at hc
    unfold Spans at hj
    omega
  · have := hstray j hs
    unfold Spans at hj
    omega

theorem rewritten_setTcp (ops : CsumOps) (hkey : WithinMask key mask)
    (hfit : st.skb.transport_header + 20 ≤ st.skb.len)
    (hwritable : env.ensure_writable (st.skb.transport_header + 20) = true) :
    ∃ st', setTcp ops env key mask st = (0, st') ∧
      Rewritten (portFields st.skb.transport_header key mask) (Spans (st.skb.transport_header + 16) 2)
        st.skb st'.skb := by
  have hok : st.skb.ensureWritable env (st.skb.transport_header + 20) = true := ensureWritable_of hfit hwritable
  unfold setTcp
  simp only [hok, Bool.not_true, Bool.false_eq_true, if_false]
  refine ⟨_, rfl, ?_⟩
  dsimp only
  have hsrc := rewritten_setChangedPort ops (Spans (st.skb.transport_header + 16) 2) st st.skb.transport_header 362
    (hkey.slice 0 2) (slice_length ..) (by omega) fun _ => id
  generalize setChangedPort ops st.skb.transport_header 362 _ _ st = st₁ at *
  have hdst := rewritten_setChangedPort ops (Spans (st.skb.transport_header + 16) 2) st₁
    (st.skb.transport_header + 2) 364 (hkey.slice 2 2) (slice_length ..)
    (by rw [hsrc.same.len]; omega) fun _ => id
  have hports := rewritten_ports hsrc hdst fun j hj => by unfold Spans at hj; omega
  exact hports.before (rewritten_clearHash _) (portFields_disjoint key mask _ 2 (by decide))

theorem rewritten_setUdp (ops : CsumOps) (hkey : WithinMask key mask)
    (hfit : st.skb.transport_header + 8 ≤ st.skb.len)
    (hwritable : env.ensure_writable (st.skb.transport_header + 8) = true) :
    ∃ st', setUdp ops env key mask st = (0, st') ∧
      Rewritten (portFields st.skb.transport_header key mask) (Spans (st.skb.transport_header + 6) 2)
        st.skb st'.skb := by
  have hok : st.skb.ensureWritable env (st.skb.transport_header + 8) = true := ensureWritable_of hfit hwritable
  have hbehind : ∀ j, Spans (st.skb.transport_header + 6) 2 j → st.skb.transport_header + 4 ≤ j := by
    intro j hj
    unfold Spans at hj
    omega
  have hdisjoint := portFields_disjoint key mask st.skb.transport_header 2 (show 4 ≤ 6 by decide)
  unfold setUdp
  simp only [hok, Bool.not_true, Bool.false_eq_true, if_false]
  refine ⟨_, rfl, ?_⟩
  refine Rewritten.before ?_ (rewritten_clearHash _) hdisjoint
  -- without a checksum, or with one that is still to be computed, only the ports are written
  by_cases hcheck : st.skb.be16At (st.skb.transport_header + 6) ≠ 0 ∧ st.skb.ip_summed ≠ .checksumPartial
  · rw [if_pos hcheck]
    have hsrc := rewritten_setChangedPort ops (Spans (st.skb.transport_header + 6) 2) st st.skb.transport_header 362
      (hkey.slice 0 2) (slice_length ..) (by omega) fun _ => id
    have hbytes := bytes_dst hsrc hbehind
    generalize setChangedPort ops st.skb.transport_header 362 _ _ st = st₁ at *
    have hdst := rewritten_setChangedPort ops (Spans (st.skb.transport_header + 6) 2) st₁
      (st.skb.transport_header + 2) 364 (hkey.slice 2 2) (slice_length ..)
      (by rw [hsrc.same.len]; omega) fun _ => id
    rw [hbytes] at hdst
    have hports := rewritten_ports hsrc hdst hbehind
    split_ifs
    · exact hports.before (rewritten_put _ _ fun _ => id) hdisjoint
    · exact hports
  · rw [if_neg hcheck]
    have hsrc := rewritten_put_masked st.skb.transport_header 2 (hkey.slice 0 2)
      (slice_length ..) (by omega) (.refl (Spans (st.skb.transport_header + 6) 2) st.skb)
    have hbytes := bytes_dst hsrc hbehind
    have hdst := rewritten_put_masked (st.skb.transport_header + 2) 2 (hkey.slice 2 2)
      (slice_length ..) (by rw [hsrc.same.len]; omega)
      (.refl (Spans (st.skb.transport_header + 6) 2) (st.skb.put st.skb.transport_header
        (ovsMasked (st.skb.bytes st.skb.transport_header 2) (slice key 0 2) (slice mask 0 2))))
    rw [hbytes] at hdst
    exact rewritten_ports hsrc hdst hbehind

theorem rewritten_setSctp (ops : CsumOps) (hkey : WithinMask key mask)
    (hfit : st.skb.transport_header + 12 ≤ st.skb.len)
    (hwritable : env.ensure_writable (st.skb.transport_header + 12) = true) :
    ∃ st', setSctp ops env key mask st = (0, st') ∧
      Rewritten (portFields st.skb.transport_header key mask) (Spans (st.skb.transport_header + 8) 4)
        st.skb st'.skb := by
  have hok : st.skb.ensureWritable env (st.skb.transport_header + 12) = true := ensureWritable_of hfit hwritable
  have hbehind : ∀ j, Spans (st.skb.transport_header + 8) 4 j → st.skb.transport_header + 4 ≤ j := by
    intro j hj
    unfold Spans at hj
    omega
  have hdisjoint := portFields_disjoint key mask st.skb.transport_header 4 (show 4 ≤ 8 by decide)
  unfold setSctp
  simp only [hok, Bool.not_true, Bool.false_eq_true, if_false]
  refine ⟨_, rfl, ?_⟩
  refine Rewritten.before ?_ (rewritten_clearHash _) hdisjoint
  have hsrc := rewritten_put_masked st.skb.transport_header 2 (hkey.slice 0 2)
    (slice_length ..) (by omega) (.refl (Spans (st.skb.transport_header + 8) 4) st.skb)
  have hdst := rewritten_put_masked (st.skb.transport_header + 2) 2 (hkey.slice 2 2)
    (slice_length ..) (by rw [hsrc.same.len]; omega)
    (.refl (Spans (st.skb.transport_header + 8) 4) (st.skb.put st.skb.transport_header
      (ovsMasked (st.skb.bytes st.skb.transport_header 2) (slice key 0 2) (slice mask 0 2))))
  exact (rewritten_ports hsrc hdst hbehind).before (rewritten_put _ _ fun j hj => by simpa using hj) hdisjoint

/-! ## IPv6 -/

theorem rewritten_setIpv6Address (ops : CsumOps) (stray : Nat → Prop) (st : SetState) (addr member : Nat)
    (recalc_csum : SkbState → Bool) (hkey : WithinMask key mask) (hlen : key.length = 16)
    (hfit : addr + 16 ≤ st.skb.len)
    (hl4 : ∀ j, Ipv6L4Check st.skb.transport_header st.flow_key.ipProto j → stray j) :
    Rewritten [⟨addr, key, mask⟩] stray st.skb (setIpv6Address ops addr member recalc_csum key mask st).skb := by
  unfold setIpv6Address
  dsimp only
  split_ifs with hempty hsame
  · exact rewritten_of_empty hempty _
  · exact rewritten_of_unchanged hkey hlen hsame
  · unfold setIpv6Addr
    apply rewritten_put_masked _ _ hkey hlen hfit
    refine Rewritten.trans_nil ?_ (rewritten_clearHash _)
    split_ifs
    · exact rewritten_updateIpv6Checksum hl4 ..
    · exact .refl _ _

/-- The traffic class lies across the first two bytes of the header. -/
theorem tclass_word (word : BitVec 16) (key mask : BitVec 8) :
    be16 (word &&& (((~~~mask).setWidth 16 <<< 4) ||| 0xF00F) ||| (key.setWidth 16 <<< 4)) =
      ovsMasked (be16 word) [key >>> 4, key <<< 4] [mask >>> 4, mask <<< 4] := by
  show [_, _] = [key >>> 4 ||| _, key <<< 4 ||| _]
  congr 1
  · apply BitVec.eq_of_getLsbD_eq
    intro i hi
    interval_cases i <;> simp [Bool.or_comm, byteAt]
  · congr 1
    apply BitVec.eq_of_getLsbD_eq
    intro i hi
    interval_cases i <;> simp [Bool.or_comm, byteAt]

theorem rewritten_setIpv6Tclass (stray : Nat → Prop) (st : SetState) {key mask : BitVec 8}
    (hkey : WithinMask [key >>> 4, key <<< 4] [mask >>> 4, mask <<< 4])
    (hfit : st.skb.network_header + 2 ≤ st.skb.len) :
    Rewritten [⟨st.skb.network_header, [key >>> 4, key <<< 4], [mask >>> 4, mask <<< 4]⟩] stray st.skb
      (setIpv6Tclass key mask st).skb := by
  unfold setIpv6Tclass
  dsimp only
  split_ifs with hempty
  · exact rewritten_of_empty (by simp [hempty]) _
  · rw [tclass_word, be16_be16At]
    exact rewritten_put_masked _ 2 hkey rfl hfit (.refl stray st.skb)

theorem rewritten_setIpv6Label (stray : Nat → Prop) (st : SetState) (hkey : WithinMask key mask)
    (hfit : st.skb.network_header + 4 ≤ st.skb.len) :
    Rewritten [⟨st.skb.network_header + 1, slice key 1 3, slice mask 1 3⟩] stray st.skb
      (setIpv6Label key mask st).skb := by
  unfold setIpv6Label
  dsimp only
  split_ifs with hempty
  · refine rewritten_of_empty ?_ _
    rw [List.all_eq_true] at hempty ⊢
    intro b hb
    obtain ⟨i, -, rfl⟩ := List.mem_map.mp hb
    by_cases hi : 1 + i < mask.length
    · have hbyte := hempty _ (List.getElem_mem hi)
      simpa [byteAt, hi] using hbyte
    · simp [byteAt, hi]
  · exact rewritten_put_masked _ 3 (hkey.slice 1 3) (slice_length ..) (by omega) (.refl stray st.skb)

theorem rewritten_setIpv6Hlimit (stray : Nat → Prop) (st : SetState) {key mask : BitVec 8}
    (hkey : WithinMask [key] [mask]) (hfit : st.skb.network_header + 8 ≤ st.skb.len) :
    Rewritten [⟨st.skb.network_header + 7, [key], [mask]⟩] stray st.skb (setIpv6Hlimit key mask st).skb := by
  unfold setIpv6Hlimit
  dsimp only
  split_ifs with hempty
  · exact rewritten_of_empty (by simp [hempty]) _
  · exact rewritten_put_masked _ 1 hkey rfl hfit (.refl stray st.skb)

/-- The first four bytes of an IPv6 header, apart from the version: the traffic class and the label. -/
def flowWord (tclass : BitVec 8) (label : List (BitVec 8)) : List (BitVec 8) :=
  [tclass >>> 4, tclass <<< 4 ||| byteAt label 1, byteAt label 2, byteAt label 3]

@[simp] theorem flowWord_length (tclass : BitVec 8) (label : List (BitVec 8)) :
    (flowWord tclass label).length = 4 := rfl

/-- The fields of an IPv6 header that can be set. -/
def ipv6Fields (nh : Nat) (key mask : List (BitVec 8)) : List MaskedField :=
  [⟨nh + 8, slice key 0 16, slice mask 0 16⟩, ⟨nh + 24, slice key 16 16, slice mask 16 16⟩,
    ⟨nh, flowWord (byteAt key 37) (slice key 32 4), flowWord (byteAt mask 37) (slice mask 32 4)⟩,
    ⟨nh + 7, slice key 38 1, slice mask 38 1⟩]

/-- The bits of a label that are there. -/
def LabelBits (label : List (BitVec 8)) : Prop := byteAt label 1 &&& 0xF0 = 0

/-- The two bytes of the traffic class are within those of its mask. -/
theorem withinMask_tclass {key mask : BitVec 8} (h : key &&& ~~~mask = 0) :
    WithinMask [key >>> 4, key <<< 4] [mask >>> 4, mask <<< 4] := by
  have hbits : ∀ i < 8, key.getLsbD i = true → mask.getLsbD i = true := by
    intro i hi hkey
    have hbit := congrArg (BitVec.getLsbD · i) h
    simpa [hi, hkey] using hbit
  have hhigh : key >>> 4 &&& ~~~(mask >>> 4) = 0 := by
    apply BitVec.eq_of_getLsbD_eq
    intro i hi
    have := hbits (4 + i)
    by_cases hin : 4 + i < 8
    · cases hk : key.getLsbD (4 + i) <;> simp_all
    · simp [BitVec.getLsbD_of_ge key (4 + i) (Nat.not_lt.mp hin)]
  have hlow : key <<< 4 &&& ~~~(mask <<< 4) = 0 := by
    apply BitVec.eq_of_getLsbD_eq
    intro i hi
    have := hbits (i - 4) (by omega)
    by_cases hin : i < 4
    · simp [hin]
    · cases hk : key.getLsbD (i - 4) <;> simp_all
  intro i
  match i with
  | 0 => exact hhigh
  | 1 => exact hlow
  | _ + 2 => exact BitVec.zero_and

/-- The traffic class and then the label are written into the bytes that they share. -/
theorem rewritten_flowWord {nh : Nat} {key_tclass mask_tclass : BitVec 8} {skb'' : SkbState}
    (htclass : key_tclass &&& ~~~mask_tclass = 0) (hlabel : WithinMask key mask) (hbits : LabelBits mask)
    (h : Rewritten [⟨nh, [key_tclass >>> 4, key_tclass <<< 4],
      [mask_tclass >>> 4, mask_tclass <<< 4]⟩] stray skb skb')
    (h' : Rewritten [⟨nh + 1, slice key 1 3, slice mask 1 3⟩] stray skb' skb'')
    (hstray : ∀ j, Spans nh 4 j → ¬ stray j) :
    Rewritten [⟨nh, flowWord key_tclass key, flowWord mask_tclass mask⟩] stray skb skb'' := by
  have hshared : (mask_tclass <<< 4) &&& byteAt mask 1 = 0 := by
    have hhigh : ∀ i < 8, 4 ≤ i → (byteAt mask 1).getLsbD i = false := by
      intro i hi hle
      have hbit := congrArg (BitVec.getLsbD · i) hbits
      interval_cases i <;> simpa using hbit
    apply BitVec.eq_of_getLsbD_eq
    intro i hi
    by_cases hlow : i < 4
    · simp [hlow]
    · simp [hhigh i hi (Nat.not_lt.mp hlow)]
  refine ⟨⟨fun f hf j hj => ?_, fun j hnone hnot => ?_⟩, h.same.trans h'.same⟩
  · obtain rfl := List.mem_singleton.mp hf
    have hin : Spans nh 4 j := hj
    have hkept : ¬ stray j := hstray j hin
    obtain rfl | rfl | hlast : j = nh ∨ j = nh + 1 ∨ nh + 2 ≤ j ∧ j < nh + 4 := by
      unfold Spans at hin
      omega
    · -- the version and the upper half of the traffic class
      rw [h'.fields.frame j (fun g hg hc => ?_) hkept,
        h.fields.written _ List.mem_cons_self j ⟨le_rfl, Nat.lt_add_of_pos_right Nat.two_pos⟩]
      · simp [MaskedField.byte, flowWord]
      · rw [List.mem_singleton.mp hg] at hc
        exact absurd hc.1 (by dsimp only; omega)
    · -- the lower half, and the start of the label
      rw [h'.fields.written _ List.mem_cons_self (nh + 1) ⟨le_rfl, by simp⟩,
        h.fields.written _ List.mem_cons_self (nh + 1) ⟨by simp, by simp⟩]
      have hlow : key_tclass <<< 4 &&& ~~~(mask_tclass <<< 4) = 0 := withinMask_tclass htclass 1
      have hmerge : maskedBits (maskedBits (skb.u8 (nh + 1)) (key_tclass <<< 4) (mask_tclass <<< 4))
          (byteAt key 1) (byteAt mask 1) =
          maskedBits (skb.u8 (nh + 1)) (key_tclass <<< 4 ||| byteAt key 1) (mask_tclass <<< 4 ||| byteAt mask 1) :=
        maskedBits_maskedBits hlow (hlabel 1) hshared
      simpa [MaskedField.byte, flowWord, slice] using hmerge
    · rw [h'.fields.written _ List.mem_cons_self j ⟨by dsimp only; omega, by simp; omega⟩,
        h.fields.frame j (fun g hg hc => ?_) hkept]
      · obtain rfl | rfl : j = nh + 2 ∨ j = nh + 3 := by omega
        · simp [MaskedField.byte, flowWord, slice, show nh + 2 - (nh + 1) = 1 by omega]
        · simp [MaskedField.byte, flowWord, slice, show nh + 3 - (nh + 1) = 2 by omega]
      · rw [List.mem_singleton.mp hg] at hc
        exact absurd hc.2 (by simp; omega)
  · have hout : ¬ Spans nh 4 j := hnone _ List.mem_cons_self
    rw [h'.fields.frame j (fun g hg hc => ?_) hnot, h.fields.frame j (fun g hg hc => ?_) hnot]
    all_goals
      rw [List.mem_singleton.mp hg] at hc
      obtain ⟨hle, hlt⟩ := hc
      simp at hle hlt
      unfold Spans at hout
      omega

theorem ipv6Fields_covers {nh : Nat} {f : MaskedField} (hf : f ∈ ipv6Fields nh key mask) (hj : f.Covers j) :
    nh ≤ j ∧ j < nh + 40 := by
  simp only [ipv6Fields, List.mem_cons, List.not_mem_nil, or_false] at hf
  obtain rfl | rfl | rfl | rfl := hf
  all_goals
    simp only [MaskedField.Covers, slice_length, flowWord_length] at hj
    omega

/-- A store behind the protocol does not change it. -/
theorem ipProto_store {key : SwFlowKey} {member : Nat} (bytes : List (BitVec 8)) (h : 357 ≤ member) :
    (key.store [⟨member, bytes⟩]).ipProto = key.ipProto := by
  apply SwFlowKey.store_u8_of_not_reaches
  rintro (⟨hle, -⟩ | hnil)
  · exact absurd (le_trans h hle) (by decide)
  · exact hnil

theorem ipProto_setIpv6Address (ops : CsumOps) (st : SetState) (addr member : Nat) (recalc_csum : SkbState → Bool)
    (key mask : List (BitVec 8)) (h : 357 ≤ member) :
    (setIpv6Address ops addr member recalc_csum key mask st).flow_key.ipProto = st.flow_key.ipProto := by
  unfold setIpv6Address
  dsimp only
  split_ifs
  · rfl
  · rfl
  · exact ipProto_store _ h

theorem rewritten_setIpv6 (ops : CsumOps) (hkey : WithinMask key mask) (hbits : LabelBits (slice mask 32 4))
    (hfit : st.skb.network_header + 40 ≤ st.skb.len)
    (hwritable : env.ensure_writable (st.skb.network_header + 40) = true)
    (hl4 : ∀ j, Ipv6L4Check st.skb.transport_header st.flow_key.ipProto j → st.skb.network_header + 40 ≤ j) :
    ∃ st', setIpv6 ops env key mask st = (0, st') ∧
      Rewritten (ipv6Fields st.skb.network_header key mask)
        (Ipv6L4Check st.skb.transport_header st.flow_key.ipProto) st.skb st'.skb := by
  have hok : st.skb.ensureWritable env (st.skb.network_header + 40) = true := ensureWritable_of hfit hwritable
  unfold setIpv6
  simp only [hok, Bool.not_true, Bool.false_eq_true, if_false]
  refine ⟨_, rfl, ?_⟩
  set nh := st.skb.network_header with hnh
  set astray := Ipv6L4Check st.skb.transport_header st.flow_key.ipProto with hastray
  -- one rewrite after the other, each in the packet that the one before has left
  have hsrc := rewritten_setIpv6Address ops astray st (nh + 8) 368 (fun _ => true) (hkey.slice 0 16)
    (slice_length ..) (by omega) fun _ => id
  have hproto₁ := ipProto_setIpv6Address ops st (nh + 8) 368 (fun _ => true) (slice key 0 16) (slice mask 0 16)
    (by decide)
  generalize setIpv6Address ops (nh + 8) 368 (fun _ => true) (slice key 0 16) (slice mask 0 16) st = st₁ at *
  have hdst := rewritten_setIpv6Address ops astray st₁ (nh + 24) 384 (recalcCsum ops) (hkey.slice 16 16)
    (slice_length ..) (by rw [hsrc.same.len]; omega) (by rw [hsrc.same.transport_header, hproto₁]; exact fun _ => id)
  generalize setIpv6Address ops (nh + 24) 384 (recalcCsum ops) (slice key 16 16) (slice mask 16 16) st₁ = st₂ at *
  have hsame₂ := hsrc.same.trans hdst.same
  have htclass := rewritten_setIpv6Tclass astray st₂ (withinMask_tclass (hkey 37))
    (by rw [hsame₂.network_header, hsame₂.len]; omega)
  generalize setIpv6Tclass (byteAt key 37) (byteAt mask 37) st₂ = st₃ at *
  have hsame₃ := hsame₂.trans htclass.same
  have hlabel := rewritten_setIpv6Label astray st₃ (hkey.slice 32 4)
    (by rw [hsame₃.network_header, hsame₃.len]; omega)
  generalize setIpv6Label (slice key 32 4) (slice mask 32 4) st₃ = st₄ at *
  have hsame₄ := hsame₃.trans hlabel.same
  have hhlimit := rewritten_setIpv6Hlimit astray st₄ (hkey.slice 38 1)
    (by rw [hsame₄.network_header, hsame₄.len]; omega)
  rw [hsame₂.network_header] at htclass
  rw [hsame₃.network_header] at hlabel
  rw [hsame₄.network_header] at hhlimit
  -- class and label share a byte, so they are one field
  have hword := rewritten_flowWord (hkey 37) (hkey.slice 32 4) hbits htclass hlabel fun j hj hs => by
    have := hl4 j hs
    unfold Spans at hj
    omega
  -- no checksum lies in a field
  have hstray : ∀ f ∈ ipv6Fields nh key mask, ∀ j, f.Covers j → ¬ astray j := by
    intro f hf j hj hs
    have := hl4 j hs
    have := (ipv6Fields_covers hf hj).2
    omega
  have hsub : ∀ {f : MaskedField} {fields : List MaskedField}, (∀ g ∈ f :: fields, ∀ j, g.Covers j → ¬ astray j) →
      ∀ g ∈ fields, ∀ j, g.Covers j → ¬ astray j := fun h g hg => h g (List.mem_cons_of_mem _ hg)
  refine hsrc.cons (hdst.cons (hword.cons hhlimit ?_ (hsub (hsub hstray))) ?_ (hsub hstray)) ?_ hstray
  all_goals
    intro g hg j
    simp only [List.mem_cons, List.not_mem_nil, or_false] at hg
  · subst hg
    simp only [MaskedField.Covers, slice_length, flowWord_length]
    omega
  · obtain rfl | rfl := hg
    all_goals
      simp only [MaskedField.Covers, slice_length, flowWord_length]
      omega
  · obtain rfl | rfl | rfl := hg
    all_goals
      simp only [MaskedField.Covers, slice_length, flowWord_length]
      omega

end OvsDatapath.Actions
