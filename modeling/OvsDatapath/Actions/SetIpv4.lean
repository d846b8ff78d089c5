import OvsDatapath.Actions.Rewrites

/-!
# Setting fields of an IPv4 header

Behind a header that holds together, `set_ipv4` writes its fields and checksums and nothing else
(`rewritten_setIpv4_ok`). Where the header does not hold together, key extraction lets the transport header
begin at the network header, and `update_ip_l4_checksum` does not ask: it goes by the protocol in the
packet and takes two bytes of the IPv4 header for a checksum. `setIpv4_iff` says when that leaves no trace.
-/

namespace OvsDatapath.Actions

open OvsDatapath.Lib OvsDatapath.Flow

variable {ops : CsumOps} {env : SkbEnv} {skb skb' : SkbState} {st : SetState}
variable {stray : Nat → Prop} {off n : Nat} {key mask : List (BitVec 8)}

/-- The steps of `set_ipv4`. -/
theorem rewritten_setIpv4Addr (ops : CsumOps) (stray : Nat → Prop) (st : SetState) (addr member : Nat)
    (hkey : WithinMask key mask) (hlen : key.length = 4)
    (hfit : addr + 4 ≤ st.skb.len) (hcheck : ∀ j, Spans (st.skb.network_header + 10) 2 j → stray j)
    (hl4 : ∀ j, IpL4Check st.skb.toSkBuff st.skb.transport_header j → stray j) :
    Rewritten [⟨addr, key, mask⟩] stray st.skb (setIpv4Addr ops addr member key mask st).skb := by
  unfold setIpv4Addr
  dsimp only
  split_ifs with hempty hsame
  · exact rewritten_of_empty hempty _
  · exact rewritten_of_unchanged hkey hlen hsame
  · apply rewritten_put_masked _ _ hkey hlen hfit
    exact ((rewritten_updateIpL4Checksum hl4 ..).trans_nil (rewritten_put _ _ hcheck)).trans_nil
      (rewritten_clearHash _)

theorem rewritten_setIpv4Tos (ops : CsumOps) (stray : Nat → Prop) (st : SetState) {key mask : BitVec 8}
    (hkey : WithinMask [key] [mask])
    (hfit : st.skb.network_header + 2 ≤ st.skb.len)
    (hcheck : ∀ j, Spans (st.skb.network_header + 10) 2 j → stray j) :
    Rewritten [⟨st.skb.network_header + 1, [key], [mask]⟩] stray st.skb (setIpv4Tos ops key mask st).skb := by
  unfold setIpv4Tos
  dsimp only
  split_ifs with hempty
  · exact rewritten_of_empty (by simp [hempty]) _
  · have hput := rewritten_put_masked _ 1 hkey rfl hfit (rewritten_put st.skb
      (be16 (ops.ipv4_change_dsfield (st.skb.be16At (st.skb.network_header + 10))
        (st.skb.u8 (st.skb.network_header + 1))
        (st.skb.u8 (st.skb.network_header + 1) &&& ~~~mask ||| key))) hcheck)
    rw [BitVec.or_comm]
    rw [BitVec.or_comm] at hput
    exact hput

theorem rewritten_setIpv4Ttl (ops : CsumOps) (stray : Nat → Prop) (st : SetState) {key mask : BitVec 8}
    (hkey : WithinMask [key] [mask])
    (hfit : st.skb.network_header + 9 ≤ st.skb.len)
    (hcheck : ∀ j, Spans (st.skb.network_header + 10) 2 j → stray j) :
    Rewritten [⟨st.skb.network_header + 8, [key], [mask]⟩] stray st.skb (setIpv4Ttl ops key mask st).skb := by
  unfold setIpv4Ttl
  dsimp only
  split_ifs with hempty
  · exact rewritten_of_empty (by simp [hempty]) _
  · exact rewritten_put_masked _ 1 hkey rfl hfit (rewritten_put _ _ hcheck)

/-- The fields of an IPv4 header that can be set. -/
def ipv4Fields (nh : Nat) (key mask : List (BitVec 8)) : List MaskedField :=
  [⟨nh + 12, slice key 0 4, slice mask 0 4⟩, ⟨nh + 16, slice key 4 4, slice mask 4 4⟩,
    ⟨nh + 1, slice key 9 1, slice mask 9 1⟩, ⟨nh + 8, slice key 10 1, slice mask 10 1⟩]

theorem WithinMask.slice (h : WithinMask key mask) (off n : Nat) :
    WithinMask (slice key off n) (slice mask off n) := by
  intro i
  by_cases hi : i < n
  · rw [byteAt_slice _ _ hi, byteAt_slice _ _ hi]
    exact h (off + i)
  · have hlen : (Flow.slice key off n).length ≤ i := by simpa using hi
    have hzero : byteAt (Flow.slice key off n) i = 0 := by
      rw [byteAt, List.getD, List.getElem?_eq_none hlen]
      rfl
    rw [hzero]
    exact BitVec.zero_and

/-- The end of `set_ipv4`, after the addresses. -/
def setIpv4Rest (ops : CsumOps) (key mask : List (BitVec 8)) (st : SetState) : SetState :=
  setIpv4Ttl ops (byteAt key 10) (byteAt mask 10) (setIpv4Tos ops (byteAt key 9) (byteAt mask 9) st)

/-- The end of `set_ipv4`, after the source address. -/
def setIpv4Tail (ops : CsumOps) (nh : Nat) (key mask : List (BitVec 8)) (st : SetState) : SetState :=
  setIpv4Rest ops key mask (setIpv4Addr ops (nh + 16) 372 (slice key 4 4) (slice mask 4 4) st)

theorem setIpv4_eq (h : st.skb.ensureWritable env (st.skb.network_header + 20) = true) :
    setIpv4 ops env key mask st = (0, setIpv4Tail ops st.skb.network_header key mask
      (setIpv4Addr ops (st.skb.network_header + 12) 368 (slice key 0 4) (slice mask 0 4) st)) := by
  unfold setIpv4
  simp only [h, Bool.not_true, Bool.false_eq_true, if_false]
  rfl

theorem rewritten_setIpv4Rest (ops : CsumOps) (stray : Nat → Prop) {nh : Nat} (hkey : WithinMask key mask)
    (hnh : st.skb.network_header = nh)
    (hfit : nh + 20 ≤ st.skb.len) (hcheck : ∀ j, Spans (nh + 10) 2 j → stray j)
    (hstray : ∀ f ∈ ipv4Fields nh key mask, ∀ j, f.Covers j → ¬ stray j) :
    Rewritten (ipv4Fields nh key mask).tail.tail stray st.skb (setIpv4Rest ops key mask st).skb := by
  have htos := rewritten_setIpv4Tos ops stray st (hkey.slice 9 1) (by omega)
    (by rw [hnh]; exact hcheck)
  have hnh' := htos.same.network_header.trans hnh
  have hlen' := htos.same.len
  have httl := rewritten_setIpv4Ttl ops stray (setIpv4Tos ops (byteAt key 9) (byteAt mask 9) st)
    (hkey.slice 10 1) (by rw [hnh', hlen']; omega) (by rw [hnh']; exact hcheck)
  rw [hnh] at htos
  rw [hnh'] at httl
  refine htos.cons httl ?_ fun f hf => hstray f (List.mem_of_mem_tail (List.mem_of_mem_tail hf))
  intro g hg j
  obtain rfl := List.mem_singleton.mp hg
  simp only [MaskedField.Covers, List.length_singleton]
  omega

theorem rewritten_setIpv4Tail (ops : CsumOps) (st : SetState) {nh : Nat} (hkey : WithinMask key mask)
    (hnh : st.skb.network_header = nh)
    (hfit : nh + 20 ≤ st.skb.len) (hcheck : ∀ j, Spans (nh + 10) 2 j → stray j)
    (hdst : Rewritten [⟨nh + 16, slice key 4 4, slice mask 4 4⟩] stray st.skb
      (setIpv4Addr ops (nh + 16) 372 (slice key 4 4) (slice mask 4 4) st).skb)
    (hstray : ∀ f ∈ ipv4Fields nh key mask, ∀ j, f.Covers j → ¬ stray j) :
    Rewritten (ipv4Fields nh key mask).tail stray st.skb (setIpv4Tail ops nh key mask st).skb := by
  have hrest := rewritten_setIpv4Rest ops stray hkey (hdst.same.network_header.trans hnh)
    (hdst.same.len.symm ▸ hfit) hcheck hstray
  refine hdst.cons hrest ?_ fun f hf => hstray f (List.mem_of_mem_tail hf)
  intro g hg j
  simp only [List.mem_cons, List.not_mem_nil, or_false] at hg
  obtain rfl | rfl := hg
  all_goals
    simp only [MaskedField.Covers, slice_length]
    omega

/-- The source address belongs to no other field. -/
theorem ipv4Fields_tail_covers {nh : Nat} {f : MaskedField} (hf : f ∈ (ipv4Fields nh key mask).tail)
    (hj : f.Covers j) : ¬ Spans (nh + 12) 4 j := by
  simp only [ipv4Fields, List.tail_cons, List.mem_cons, List.not_mem_nil, or_false] at hf
  unfold Spans
  obtain rfl | rfl | rfl := hf
  all_goals
    simp only [MaskedField.Covers, slice_length] at hj
    omega

/-- `set_ipv4`, if what it takes for the checksum of a transport header does not lie in a field. -/
theorem rewritten_setIpv4 (ops : CsumOps) (stray : Nat → Prop) {nh : Nat} (hkey : WithinMask key mask)
    (hnh : st.skb.network_header = nh)
    (hfit : nh + 20 ≤ st.skb.len) (hcheck : ∀ j, Spans (nh + 10) 2 j → stray j)
    (hl4 : ∀ j, IpL4Check st.skb.toSkBuff st.skb.transport_header j → stray j)
    (hl4' : ∀ skb, Rewritten [⟨nh + 12, slice key 0 4, slice mask 0 4⟩] stray st.skb skb →
      ∀ j, IpL4Check skb.toSkBuff skb.transport_header j → stray j)
    (hstray : ∀ f ∈ ipv4Fields nh key mask, ∀ j, f.Covers j → ¬ stray j) :
    Rewritten (ipv4Fields nh key mask) stray st.skb (setIpv4Tail ops nh key mask
      (setIpv4Addr ops (nh + 12) 368 (slice key 0 4) (slice mask 0 4) st)).skb := by
  have hsrc := rewritten_setIpv4Addr ops stray st (nh + 12) 368 (hkey.slice 0 4) (slice_length ..) (by omega)
    (hnh.symm ▸ hcheck) hl4
  have hl4_src := hl4' _ hsrc
  have hnh₁ := hsrc.same.network_header.trans hnh
  have hlen₁ := hsrc.same.len
  have hdst := rewritten_setIpv4Addr ops stray
    (setIpv4Addr ops (nh + 12) 368 (slice key 0 4) (slice mask 0 4) st) (nh + 16) 372 (hkey.slice 4 4)
      (slice_length ..) (by omega) (hnh₁.symm ▸ hcheck) hl4_src
  refine hsrc.cons (rewritten_setIpv4Tail ops _ hkey hnh₁ (by omega) hcheck hdst hstray) ?_ hstray
  intro g hg j hsrc_covers hcovers
  rw [MaskedField.Covers, slice_length] at hsrc_covers
  exact ipv4Fields_tail_covers hg hcovers hsrc_covers

/-- The length of an IPv4 header, and whether it holds together (`check_iphdr`). -/
def ipHdrlen (skb : SkBuff) : Nat := (skb.u8 skb.network_header &&& 0x0F).toNat * 4

@[inherit_doc ipHdrlen]
def IpHeaderOk (skb : SkBuff) : Prop :=
  20 ≤ ipHdrlen skb ∧ skb.network_header + ipHdrlen skb ≤ skb.len

instance (skb : SkBuff) : Decidable (IpHeaderOk skb) := inferInstanceAs (Decidable (_ ∧ _))

/-- The fields of a header do not reach behind it. -/
theorem ipv4Fields_covers {nh : Nat} {f : MaskedField} (hf : f ∈ ipv4Fields nh key mask) (hj : f.Covers j) :
    nh ≤ j ∧ j < nh + 20 ∧ ¬ Spans (nh + 6) 2 j ∧ j ≠ nh + 9 ∧ ¬ Spans (nh + 10) 2 j := by
  simp only [ipv4Fields, List.mem_cons, List.not_mem_nil, or_false] at hf
  unfold Spans
  obtain rfl | rfl | rfl | rfl := hf
  all_goals
    simp only [MaskedField.Covers, slice_length] at hj
    omega

/-- What decides about the checksum of the transport header. -/
theorem IpL4Check.congr {th : Nat} {skb skb' : SkBuff} (hnh : skb'.network_header = skb.network_header)
    (h : ∀ j, Spans (skb.network_header + 6) 2 j ∨ j = skb.network_header + 9 → skb'.u8 j = skb.u8 j) :
    IpL4Check skb' th j ↔ IpL4Check skb th j := by
  unfold IpL4Check SkBuff.be16At
  rw [hnh, h (skb.network_header + 6) (.inl ⟨le_rfl, by omega⟩),
    h (skb.network_header + 6 + 1) (.inl ⟨by omega, by omega⟩), h (skb.network_header + 9) (.inr rfl)]

/-- Behind a header that holds together, only checksums change besides the fields. -/
theorem rewritten_setIpv4_ok (ops : CsumOps) {nh : Nat} (hkey : WithinMask key mask)
    (hnh : st.skb.network_header = nh)
    (hfit : nh + 20 ≤ st.skb.len) (hth : nh + 20 ≤ st.skb.transport_header) :
    Rewritten (ipv4Fields nh key mask)
      (fun j => Spans (nh + 10) 2 j ∨ IpL4Check st.skb.toSkBuff st.skb.transport_header j) st.skb
      (setIpv4Tail ops nh key mask (setIpv4Addr ops (nh + 12) 368 (slice key 0 4) (slice mask 0 4) st)).skb := by
  have hbehind : ∀ j, IpL4Check st.skb.toSkBuff st.skb.transport_header j → nh + 20 ≤ j := by
    rintro j ⟨-, ⟨-, hj, -⟩ | ⟨-, hj, -⟩⟩ <;> omega
  refine rewritten_setIpv4 ops _ hkey hnh hfit (fun j => .inl) (fun j => .inr) (fun skb h j hj => .inr ?_) ?_
  · rw [h.same.transport_header] at hj
    refine (IpL4Check.congr h.same.network_header fun k hk => ?_).mp hj
    subst hnh
    apply h.fields.frame k
    · intro f hf
      obtain rfl := List.mem_singleton.mp hf
      simp only [MaskedField.Covers, slice_length]
      unfold Spans at hk
      omega
    · rintro (hcheck | hl4)
      · unfold Spans at hk hcheck
        omega
      · have := hbehind k hl4
        unfold Spans at hk
        omega
  · rintro f hf j hj (hcheck | hl4)
    · exact (ipv4Fields_covers hf hj).2.2.2.2 hcheck
    · have := hbehind j hl4
      have := (ipv4Fields_covers hf hj).2.1
      omega

/-! ### A header that does not hold together -/

theorem be16_be16At (skb : SkBuff) (off : Nat) : be16 (skb.be16At off) = skb.bytes off 2 := by
  have hbit : ∀ i, (skb.be16At off).getLsbD i =
      if i < 8 then (skb.u8 (off + 1)).getLsbD i else (skb.u8 off).getLsbD (i - 8) :=
    fun _ => BitVec.getLsbD_append
  have hhigh : (skb.be16At off >>> 8).setWidth 8 = skb.u8 off := by
    apply BitVec.eq_of_getLsbD_eq
    intro i hi
    rw [BitVec.getLsbD_setWidth, BitVec.getLsbD_ushiftRight, hbit, if_neg (by omega), Nat.add_sub_cancel_left]
    simp [hi]
  have hlow : (skb.be16At off).setWidth 8 = skb.u8 (off + 1) := by
    apply BitVec.eq_of_getLsbD_eq
    intro i hi
    rw [BitVec.getLsbD_setWidth, hbit, if_pos hi]
    simp [hi]
  rw [be16, hhigh, hlow]
  rfl

theorem be16At_put_self {c : Nat} (v : BitVec 16) (hfit : c + 2 ≤ skb.len) : (skb.put c (be16 v)).be16At c = v := by
  show (skb.put c (be16 v)).u8 c ++ (skb.put c (be16 v)).u8 (c + 1) = v
  rw [SkbState.put_u8_in ⟨le_rfl, by simp⟩ (by simpa using hfit),
    SkbState.put_u8_in ⟨by omega, by simp⟩ (by simpa using hfit), Nat.sub_self, Nat.add_sub_cancel_left]
  exact be16_bytes v

theorem be16At_congr {skb skb' : SkBuff} {c : Nat} (h : ∀ j, Spans c 2 j → skb'.u8 j = skb.u8 j) :
    skb'.be16At c = skb.be16At c := by
  unfold SkBuff.be16At
  rw [h c ⟨le_rfl, by omega⟩, h (c + 1) ⟨by omega, by omega⟩]

theorem u8_of_be16At {skb skb' : SkBuff} {c : Nat} (h : skb'.be16At c = skb.be16At c) {j : Nat}
    (hj : Spans c 2 j) : skb'.u8 j = skb.u8 j := by
  have hbytes : skb'.bytes c 2 = skb.bytes c 2 := by rw [← be16_be16At, ← be16_be16At, h]
  have hin : j - c < 2 := by
    have := hj.1
    have := hj.2
    omega
  have hbyte : byteAt (skb'.bytes c 2) (j - c) = byteAt (skb.bytes c 2) (j - c) := by rw [hbytes]
  rwa [byteAt_bytes _ _ hin, byteAt_bytes _ _ hin, Nat.add_sub_cancel' hj.1] at hbyte

theorem bytes_congr_of {skb skb' : SkBuff} (h : ∀ j, Spans off n j → skb'.u8 j = skb.u8 j) :
    skb'.bytes off n = skb.bytes off n := by
  apply List.map_congr_left
  intro i hi
  exact h (off + i) ⟨by omega, by have := List.mem_range.mp hi; omega⟩

/-- What `update_ip_l4_checksum` makes of a checksum, or of the two bytes that it takes for one, when an
address changes. -/
def replacedSum (ops : CsumOps) (skb : SkbState) (sum : BitVec 16) (addr new_addr : List (BitVec 8)) :
    BitVec 16 :=
  let replaced := ops.inet_proto_csum_replace skb.ip_summed sum addr new_addr true
  if new_addr = addr then sum
  else if skb.u8 (skb.network_header + 9) = ipprotoTcp then replaced
  else if sum = 0 ∧ skb.ip_summed ≠ .checksumPartial then sum
  else if replaced = 0 then csumMangled0 else replaced

theorem ovsMasked_of_empty (hkey : WithinMask key mask) (hempty : mask.all (· == 0) = true)
    (old : List (BitVec 8)) : ovsMasked old key mask = old := by
  apply List.ext_getElem (ovsMasked_length ..)
  intro i hi hi'
  have hbyte := byteAt_ovsMasked hkey old hi'
  have hzero : byteAt mask i = 0 := by
    by_cases hm : i < mask.length
    · have := eq_of_beq (List.all_eq_true.mp hempty _ (List.getElem_mem hm))
      simpa [byteAt, hm] using this
    · simp [byteAt, hm]
  rw [hzero, maskedBits_zero] at hbyte
  simpa [byteAt, hi, hi'] using hbyte

theorem be16At_inetProtoCsumReplace (ops : CsumOps) {c : Nat} (hc : c + 2 ≤ skb.len)
    (old new : List (BitVec 8)) (pseudohdr : Bool) :
    (skb.inetProtoCsumReplace ops c old new pseudohdr).be16At c =
      ops.inet_proto_csum_replace skb.ip_summed (skb.be16At c) old new pseudohdr := be16At_put_self _ hc

/-- What has become of the two bytes. -/
theorem be16At_updateIpL4Checksum {c len : Nat} {addr new_addr : List (BitVec 8)} (hne : new_addr ≠ addr)
    (hc : c + 2 ≤ skb.len) (hfrag : skb.be16At (skb.network_header + 6) &&& ipOffset = 0)
    (hproto : skb.u8 (skb.network_header + 9) = ipprotoTcp ∧ c = skb.transport_header + 16 ∧ len = 20 ∨
      skb.u8 (skb.network_header + 9) = ipprotoUdp ∧ c = skb.transport_header + 6 ∧ len = 8)
    (hlen : skb.transportLenGe len = true) :
    (updateIpL4Checksum ops skb addr new_addr).be16At c = replacedSum ops skb (skb.be16At c) addr new_addr := by
  unfold updateIpL4Checksum replacedSum
  dsimp only
  rw [if_neg (not_not.mpr hfrag), if_neg hne]
  obtain ⟨htcp, rfl, rfl⟩ | ⟨hudp, rfl, rfl⟩ := hproto
  · rw [if_pos htcp, if_pos htcp, if_pos hlen]
    exact be16At_inetProtoCsumReplace ops hc ..
  · have htcp : skb.u8 (skb.network_header + 9) ≠ ipprotoTcp := by
      rw [hudp]
      decide
    have hsum := be16At_inetProtoCsumReplace ops hc addr new_addr true
    rw [if_neg htcp, if_neg htcp, if_pos hudp, if_pos hlen]
    unfold updateUdpCheck
    dsimp only
    by_cases hzero : skb.be16At (skb.transport_header + 6) = 0 ∧ skb.ip_summed ≠ .checksumPartial
    · have hskip : ¬ (skb.be16At (skb.transport_header + 6) ≠ 0 ∨ skb.ip_summed = .checksumPartial) := by tauto
      rw [if_pos hzero, if_neg hskip]
    · have hupdate : skb.be16At (skb.transport_header + 6) ≠ 0 ∨ skb.ip_summed = .checksumPartial := by tauto
      rw [if_neg hzero, if_pos hupdate, hsum]
      split_ifs
      · exact be16At_put_self _ (by simpa [SkbState.inetProtoCsumReplace] using hc)
      · exact hsum

/-- The two bytes, after one of the addresses has been set. -/
theorem be16At_setIpv4Addr (ops : CsumOps) (st : SetState) (addr member c len : Nat) (hkey : WithinMask key mask)
    (hc : c + 2 ≤ st.skb.len)
    (hcheck : ∀ j, Spans c 2 j → ¬ Spans (st.skb.network_header + 10) 2 j)
    (haddr : ∀ j, Spans c 2 j → ¬ Spans addr 4 j)
    (hfrag : st.skb.be16At (st.skb.network_header + 6) &&& ipOffset = 0)
    (hproto : st.skb.u8 (st.skb.network_header + 9) = ipprotoTcp ∧ c = st.skb.transport_header + 16 ∧ len = 20 ∨
      st.skb.u8 (st.skb.network_header + 9) = ipprotoUdp ∧ c = st.skb.transport_header + 6 ∧ len = 8)
    (hlen : st.skb.transportLenGe len = true) :
    (setIpv4Addr ops addr member key mask st).skb.be16At c =
      replacedSum ops st.skb (st.skb.be16At c) (st.skb.bytes addr 4) (ovsMasked (st.skb.bytes addr 4) key mask) := by
  unfold setIpv4Addr
  dsimp only
  split_ifs with hempty hsame
  · rw [ovsMasked_of_empty hkey hempty, replacedSum, if_pos rfl]
  · rw [hsame, replacedSum, if_pos rfl]
  · rw [← be16At_updateIpL4Checksum hsame hc hfrag hproto hlen]
    show (setIpAddr ops st.skb addr _).be16At c = _
    unfold setIpAddr
    rw [be16At_congr fun j hj => SkbState.put_u8_out (by simpa using haddr j hj)]
    show (SkbState.put _ _ _).be16At c = _
    rw [be16At_congr fun j hj => SkbState.put_u8_out (by simpa using hcheck j hj)]

theorem ip_summed_setIpv4Addr (ops : CsumOps) (addr member : Nat) (key mask : List (BitVec 8)) (st : SetState) :
    (setIpv4Addr ops addr member key mask st).skb.ip_summed = st.skb.ip_summed := by
  have hudp : ∀ (skb : SkbState) check old new, (updateUdpCheck ops skb check old new).ip_summed = skb.ip_summed := by
    intro skb check old new
    unfold updateUdpCheck
    dsimp only
    split_ifs <;> rfl
  have hl4 : ∀ (skb : SkbState) old new, (updateIpL4Checksum ops skb old new).ip_summed = skb.ip_summed := by
    intro skb old new
    unfold updateIpL4Checksum
    dsimp only
    split_ifs
    all_goals first | rfl | exact hudp ..
  unfold setIpv4Addr
  dsimp only
  split_ifs
  · rfl
  · rfl
  · exact hl4 ..

theorem replacedSum_congr (hsummed : skb'.ip_summed = skb.ip_summed)
    (hproto : skb'.u8 (skb'.network_header + 9) = skb.u8 (skb.network_header + 9)) (sum : BitVec 16)
    (addr new_addr : List (BitVec 8)) :
    replacedSum ops skb' sum addr new_addr = replacedSum ops skb sum addr new_addr := by
  unfold replacedSum
  rw [hsummed, hproto]

/-- **What has been taken for a checksum leaves no trace.** In a packet that claims to be of TCP, the two
bytes belong to the destination address, and the mask of the address decides what is left of the change.
In one that claims to be of UDP they are the fragment field, and a field that says that this is a later
fragment is not changed any more. -/
def StrayKept (ops : CsumOps) (key mask : List (BitVec 8)) (skb : SkbState) : Prop :=
  let nh := skb.network_header
  let src := skb.bytes (nh + 12) 4
  let dst := skb.bytes (nh + 16) 4
  let new_src := ovsMasked src (slice key 0 4) (slice mask 0 4)
  let new_dst := ovsMasked dst (slice key 4 4) (slice mask 4 4)
  skb.be16At (nh + 6) &&& ipOffset = 0 →
    (skb.u8 (nh + 9) = ipprotoTcp →
      ovsMasked (be16 (replacedSum ops skb (skb.be16At (nh + 16)) src new_src)) (slice key 4 2) (slice mask 4 2) =
        ovsMasked (skb.bytes (nh + 16) 2) (slice key 4 2) (slice mask 4 2)) ∧
    (skb.u8 (nh + 9) = ipprotoUdp →
      let frag_off := replacedSum ops skb (skb.be16At (nh + 6)) src new_src
      (if frag_off &&& ipOffset ≠ 0 then frag_off else replacedSum ops skb frag_off dst new_dst) =
        skb.be16At (nh + 6))

/-- Nothing is taken for a checksum. -/
theorem rewritten_setIpv4_none (ops : CsumOps) {nh : Nat} (hkey : WithinMask key mask)
    (hnh : st.skb.network_header = nh)
    (hfit : nh + 20 ≤ st.skb.len)
    (hnone : ∀ j, ¬ IpL4Check st.skb.toSkBuff st.skb.transport_header j) :
    Rewritten (ipv4Fields nh key mask) (Spans (nh + 10) 2) st.skb (setIpv4Tail ops nh key mask
      (setIpv4Addr ops (nh + 12) 368 (slice key 0 4) (slice mask 0 4) st)).skb := by
  refine rewritten_setIpv4 ops _ hkey hnh hfit (fun _ => id) (fun j hj => absurd hj (hnone j)) (fun skb h j hj => ?_)
    fun f hf j hj => (ipv4Fields_covers hf hj).2.2.2.2
  exfalso
  rw [h.same.transport_header] at hj
  refine hnone j ((IpL4Check.congr h.same.network_header fun k hk => ?_).mp hj)
  subst hnh
  apply h.fields.frame k
  · intro f hf
    obtain rfl := List.mem_singleton.mp hf
    simp only [MaskedField.Covers, slice_length]
    unfold Spans at hk
    omega
  · unfold Spans at hk ⊢
    omega

/-- A packet that claims to be of UDP: the fragment field is taken for the checksum. -/
theorem setIpv4_udp_iff {nh : Nat} (hkey : WithinMask key mask) (hnh : st.skb.network_header = nh)
    (hfit : nh + 20 ≤ st.skb.len) (hth : st.skb.transport_header = nh)
    (hfrag : st.skb.be16At (nh + 6) &&& ipOffset = 0) (hudp : st.skb.u8 (nh + 9) = ipprotoUdp) :
    let skb := (setIpv4Tail ops nh key mask
      (setIpv4Addr ops (nh + 12) 368 (slice key 0 4) (slice mask 0 4) st)).skb
    SameBut st.skb skb ∧ (FieldsWritten (ipv4Fields nh key mask) (Spans (nh + 10) 2) st.skb.u8 skb.u8 ↔
      StrayKept ops key mask st.skb) := by
  have hlen : st.skb.transportLenGe 8 = true := decide_eq_true (.inr (by omega))
  have hin : ∀ skb : SkbState, skb.transport_header = nh → skb.network_header = nh →
      skb.u8 (nh + 9) = ipprotoUdp → ∀ j, IpL4Check skb.toSkBuff skb.transport_header j → Spans (nh + 6) 2 j := by
    rintro skb hth' hnh' hudp' j ⟨-, ⟨htcp', -⟩ | ⟨-, hj⟩⟩
    · rw [hnh', hudp'] at htcp'
      exact absurd htcp' (by decide)
    · rwa [hth'] at hj
  -- the steps, with the fragment field among what may go astray
  let astray : Nat → Prop := fun j => Spans (nh + 10) 2 j ∨ Spans (nh + 6) 2 j
  have hcheck : ∀ j, Spans (nh + 10) 2 j → astray j := fun _ => .inl
  have hkept : ∀ f ∈ ipv4Fields nh key mask, ∀ j, f.Covers j → ¬ astray j := by
    rintro f hf j hj (hc | hc)
    · exact (ipv4Fields_covers hf hj).2.2.2.2 hc
    · exact (ipv4Fields_covers hf hj).2.2.1 hc
  have hproto : ∀ skb, Rewritten [⟨nh + 12, slice key 0 4, slice mask 0 4⟩] astray st.skb skb →
      skb.u8 (nh + 9) = ipprotoUdp := by
    intro skb h
    rw [h.fields.frame (nh + 9), hudp]
    · intro f hf
      obtain rfl := List.mem_singleton.mp hf
      simp only [MaskedField.Covers, slice_length]
      omega
    · unfold astray Spans
      omega
  have hall := rewritten_setIpv4 ops astray hkey hnh hfit hcheck
    (fun j hj => .inr (hin st.skb hth hnh hudp j hj))
    (fun skb h j hj => .inr (hin skb (h.same.transport_header.trans hth) (h.same.network_header.trans hnh)
      (hproto skb h) j hj)) hkept
  have hsrc := rewritten_setIpv4Addr ops astray st (nh + 12) 368 (hkey.slice 0 4) (slice_length ..) (by omega)
    (hnh.symm ▸ hcheck) (fun j hj => .inr (hin st.skb hth hnh hudp j hj))
  have hsum₁ := be16At_setIpv4Addr ops st (nh + 12) 368 (nh + 6) 8
    (hkey.slice 0 4) (by omega) (by unfold Spans; omega) (by unfold Spans; omega) (hnh.symm ▸ hfrag)
    (.inr ⟨hnh.symm ▸ hudp, by omega, rfl⟩) hlen
  have hsummed := ip_summed_setIpv4Addr ops (nh + 12) 368 (slice key 0 4) (slice mask 0 4) st
  generalize setIpv4Addr ops (nh + 12) 368 (slice key 0 4) (slice mask 0 4) st = st₁ at *
  refine ⟨hall.same, ?_⟩
  have hnh₁ := hsrc.same.network_header.trans hnh
  have hth₁ := hsrc.same.transport_header.trans hth
  have hlen₁ := hsrc.same.len
  have hproto₁ := hproto st₁.skb hsrc
  have hdst : st₁.skb.bytes (nh + 16) 4 = st.skb.bytes (nh + 16) 4 := by
    refine bytes_congr_of fun j hj => hsrc.fields.frame j ?_ ?_
    · intro f hf
      obtain rfl := List.mem_singleton.mp hf
      simp only [MaskedField.Covers, slice_length]
      unfold Spans at hj
      omega
    · unfold astray Spans at *
      omega
  -- the fragment field after the second address
  have hsum₂ : (setIpv4Addr ops (nh + 16) 372 (slice key 4 4) (slice mask 4 4) st₁).skb.be16At (nh + 6) =
      if st₁.skb.be16At (nh + 6) &&& ipOffset ≠ 0 then st₁.skb.be16At (nh + 6)
      else replacedSum ops st.skb (st₁.skb.be16At (nh + 6)) (st.skb.bytes (nh + 16) 4)
        (ovsMasked (st.skb.bytes (nh + 16) 4) (slice key 4 4) (slice mask 4 4)) := by
    split_ifs with hlater
    · have hnone : ∀ j, IpL4Check st₁.skb.toSkBuff st₁.skb.transport_header j → Spans (nh + 10) 2 j :=
        fun j hj => absurd (hnh₁ ▸ hj.1) hlater
      have h := rewritten_setIpv4Addr ops _ st₁ (nh + 16) 372 (hkey.slice 4 4) (slice_length ..) (by omega)
        (by rw [hnh₁]; exact fun _ => id) hnone
      refine be16At_congr fun j hj => h.fields.frame j ?_ ?_
      · intro f hf
        obtain rfl := List.mem_singleton.mp hf
        simp only [MaskedField.Covers, slice_length]
        unfold Spans at hj
        omega
      · unfold Spans at *
        omega
    · rw [be16At_setIpv4Addr ops st₁ (nh + 16) 372 (nh + 6) 8 (hkey.slice 4 4) (by omega)
        (by unfold Spans; omega) (by unfold Spans; omega) (hnh₁.symm ▸ not_not.mp hlater)
        (.inr ⟨hnh₁.symm ▸ hproto₁, by omega, rfl⟩) (decide_eq_true (.inr (by omega))), hdst]
      exact replacedSum_congr hsummed (by rw [hnh₁, hproto₁, hnh, hudp]) ..
  have hrest : (setIpv4Tail ops nh key mask st₁).skb.be16At (nh + 6) =
      (setIpv4Addr ops (nh + 16) 372 (slice key 4 4) (slice mask 4 4) st₁).skb.be16At (nh + 6) := by
    have h := rewritten_setIpv4Addr ops astray st₁ (nh + 16) 372 (hkey.slice 4 4) (slice_length ..)
      (by omega) (hnh₁.symm ▸ hcheck)
      (fun j hj => .inr (hin st₁.skb hth₁ hnh₁ hproto₁ j hj))
    have hends := rewritten_setIpv4Rest ops (Spans (nh + 10) 2) hkey
      (h.same.network_header.trans hnh₁) (by rw [h.same.len]; omega) (fun _ => id)
      fun f hf j hj => (ipv4Fields_covers hf hj).2.2.2.2
    refine be16At_congr fun j hj => hends.fields.frame j (fun f hf hc => ?_) ?_
    · exact (ipv4Fields_covers (List.mem_of_mem_tail (List.mem_of_mem_tail hf)) hc).2.2.1 hj
    · unfold Spans at *
      omega
  have hstray : StrayKept ops key mask st.skb ↔
      (setIpv4Tail ops nh key mask st₁).skb.be16At (nh + 6) = st.skb.be16At (nh + 6) := by
    unfold StrayKept
    rw [hrest, hsum₂, hsum₁, hnh]
    simp only [hfrag, hudp, true_imp_iff, true_and, show (ipprotoUdp = ipprotoTcp) = False from by decide,
      false_imp_iff]
  rw [hstray, hall.fields.strengthen_iff]
  constructor
  · intro hkeep
    refine be16At_congr fun j hj => hkeep j (.inr hj) ?_ fun f hf hc => (ipv4Fields_covers hf hc).2.2.1 hj
    unfold Spans at *
    omega
  · rintro hsame j (hc | hj) hnot -
    · exact absurd hc hnot
    · exact u8_of_be16At hsame hj

/-- Masked runs of bytes agree byte by byte. -/
theorem ovsMasked_bytes_iff {skb skb' : SkBuff} (hkey : WithinMask key mask) :
    ovsMasked (skb'.bytes off n) key mask = ovsMasked (skb.bytes off n) key mask ↔
      ∀ j, Spans off n j → maskedBits (skb'.u8 j) (byteAt key (j - off)) (byteAt mask (j - off)) =
        maskedBits (skb.u8 j) (byteAt key (j - off)) (byteAt mask (j - off)) := by
  have hbyte : ∀ (s : SkBuff) (i : Nat), i < n → byteAt (ovsMasked (s.bytes off n) key mask) i =
      maskedBits (s.u8 (off + i)) (byteAt key i) (byteAt mask i) := by
    intro s i hi
    rw [byteAt_ovsMasked hkey _ (by simpa using hi), byteAt_bytes _ _ hi]
  constructor
  · rintro heq j ⟨hle, hlt⟩
    have h := hbyte skb' (j - off) (by omega)
    rw [heq, hbyte skb (j - off) (by omega), Nat.add_sub_cancel' hle] at h
    exact h.symm
  · intro h
    apply List.ext_getElem (by simp)
    intro i hi hi'
    have hin : i < n := by simpa using hi
    have hsame := h (off + i) ⟨by omega, by omega⟩
    rw [Nat.add_sub_cancel_left, ← hbyte skb' i hin, ← hbyte skb i hin] at hsame
    simpa only [byteAt, List.getD, List.getElem?_eq_getElem hi, List.getElem?_eq_getElem hi', Option.getD_some]
      using hsame

/-- A packet that claims to be of TCP: a part of the destination address is taken for the checksum. -/
theorem setIpv4_tcp_iff {nh : Nat} (hkey : WithinMask key mask) (hnh : st.skb.network_header = nh)
    (hfit : nh + 20 ≤ st.skb.len) (hth : st.skb.transport_header = nh)
    (hfrag : st.skb.be16At (nh + 6) &&& ipOffset = 0) (htcp : st.skb.u8 (nh + 9) = ipprotoTcp) :
    let skb := (setIpv4Tail ops nh key mask
      (setIpv4Addr ops (nh + 12) 368 (slice key 0 4) (slice mask 0 4) st)).skb
    SameBut st.skb skb ∧ (FieldsWritten (ipv4Fields nh key mask) (Spans (nh + 10) 2) st.skb.u8 skb.u8 ↔
      StrayKept ops key mask st.skb) := by
  let astray : Nat → Prop := fun j => Spans (nh + 10) 2 j ∨ Spans (nh + 16) 2 j
  have hcheck : ∀ j, Spans (nh + 10) 2 j → astray j := fun _ => .inl
  have hin : ∀ skb : SkbState, skb.transport_header = nh → skb.network_header = nh →
      skb.u8 (nh + 9) = ipprotoTcp → ∀ j, IpL4Check skb.toSkBuff skb.transport_header j → astray j := by
    rintro skb hth' hnh' htcp' j ⟨-, ⟨-, hj⟩ | ⟨hudp', -⟩⟩
    · exact .inr (by rwa [hth'] at hj)
    · rw [hnh', htcp'] at hudp'
      exact absurd hudp' (by decide)
  have hsrc := rewritten_setIpv4Addr ops astray st (nh + 12) 368 (hkey.slice 0 4) (slice_length ..)
    (by omega) (hnh.symm ▸ hcheck) (hin st.skb hth hnh htcp)
  have hsum := be16At_setIpv4Addr ops st (nh + 12) 368 (nh + 16) 20 (hkey.slice 0 4) (by omega)
    (by unfold Spans; omega) (by unfold Spans; omega) (hnh.symm ▸ hfrag)
    (.inl ⟨hnh.symm ▸ htcp, by omega, rfl⟩) (decide_eq_true (.inr (by omega)))
  generalize setIpv4Addr ops (nh + 12) 368 (slice key 0 4) (slice mask 0 4) st = st₁ at *
  have hnh₁ := hsrc.same.network_header.trans hnh
  have hth₁ := hsrc.same.transport_header.trans hth
  have hlen₁ := hsrc.same.len
  have hproto₁ : st₁.skb.u8 (nh + 9) = ipprotoTcp := by
    rw [hsrc.fields.frame (nh + 9), htcp]
    · intro f hf
      obtain rfl := List.mem_singleton.mp hf
      simp only [MaskedField.Covers, slice_length]
      omega
    · unfold astray Spans
      omega
  -- the destination address is written over what has gone astray
  have hdst : Rewritten [⟨nh + 16, slice key 4 4, slice mask 4 4⟩] (Spans (nh + 10) 2) st₁.skb
      (setIpv4Addr ops (nh + 16) 372 (slice key 4 4) (slice mask 4 4) st₁).skb := by
    have h := rewritten_setIpv4Addr ops astray st₁ (nh + 16) 372 (hkey.slice 4 4) (slice_length ..)
      (by omega) (hnh₁.symm ▸ hcheck) (hin st₁.skb hth₁ hnh₁ hproto₁)
    refine ⟨h.fields.strengthen_iff.mpr ?_, h.same⟩
    rintro j (hc | hj) hnot hnone
    · exact absurd hc hnot
    · refine absurd ?_ (hnone _ List.mem_cons_self)
      simp only [MaskedField.Covers, slice_length]
      unfold Spans at hj
      omega
  have htail := rewritten_setIpv4Tail ops st₁ hkey hnh₁ (by omega) (fun _ => id) hdst
    fun f hf j hj => (ipv4Fields_covers hf hj).2.2.2.2
  refine ⟨hsrc.same.trans htail.same, ?_⟩
  have hstray : StrayKept ops key mask st.skb ↔ ∀ j, Spans (nh + 16) 2 j →
      MaskedField.byte ⟨nh + 16, slice key 4 4, slice mask 4 4⟩ (st₁.skb.u8 j) j =
        MaskedField.byte ⟨nh + 16, slice key 4 4, slice mask 4 4⟩ (st.skb.u8 j) j := by
    unfold StrayKept
    rw [hnh]
    simp only [hfrag, htcp, true_imp_iff, show (ipprotoTcp = ipprotoUdp) = False from by decide, false_imp_iff,
      and_true]
    rw [← hsum, be16_be16At, ovsMasked_bytes_iff (hkey.slice 4 2)]
    refine forall_congr' fun j => forall_congr' fun hj => ?_
    have hin : j - (nh + 16) < 2 := by
      unfold Spans at hj
      omega
    rw [byteAt_slice _ _ hin, byteAt_slice _ _ hin, ← byteAt_slice key 4 (Nat.lt_trans hin (by decide : 2 < 4)),
      ← byteAt_slice mask 4 (Nat.lt_trans hin (by decide : 2 < 4))]
    rfl
  rw [hstray]
  constructor
  · intro hall j hj
    have hcovers : MaskedField.Covers ⟨nh + 16, slice key 4 4, slice mask 4 4⟩ j := by
      simp only [MaskedField.Covers, slice_length]
      unfold Spans at hj
      omega
    rw [← htail.fields.written _ List.mem_cons_self j hcovers]
    exact hall.written _ (List.mem_cons_of_mem _ List.mem_cons_self) j hcovers
  · intro hkept
    -- apart from the two bytes, the fields of the tail are as they have been
    have hold : ∀ f ∈ (ipv4Fields nh key mask).tail, ∀ j, f.Covers j → ¬ Spans (nh + 16) 2 j →
        st₁.skb.u8 j = st.skb.u8 j := by
      intro f hf j hj hnot
      refine hsrc.fields.frame j (fun f' hf' hc => ?_) ?_
      · rw [List.mem_singleton.mp hf', MaskedField.Covers, slice_length] at hc
        exact ipv4Fields_tail_covers hf hj hc
      · rintro (hc | hc)
        · exact (ipv4Fields_covers (List.mem_of_mem_tail hf) hj).2.2.2.2 hc
        · exact hnot hc
    refine ⟨fun f hf j hj => ?_, fun j hnone hnot => ?_⟩
    · rcases List.mem_cons.mp hf with rfl | htl
      · have hcovers : Spans (nh + 12) 4 j := by
          rw [MaskedField.Covers, slice_length] at hj
          exact hj
        rw [htail.fields.frame j (fun g hg hc => ipv4Fields_tail_covers hg hc hcovers)
          (ipv4Fields_covers hf hj).2.2.2.2]
        exact hsrc.fields.written _ List.mem_cons_self j hj
      · rw [htail.fields.written f htl j hj]
        by_cases hin : Spans (nh + 16) 2 j
        · -- only the destination address has these bytes
          rcases List.mem_cons.mp htl with rfl | hrest
          · exact hkept j hin
          · exfalso
            simp only [List.mem_cons, List.not_mem_nil, or_false] at hrest
            unfold Spans at hin
            obtain rfl | rfl := hrest
            all_goals
              simp only [MaskedField.Covers, slice_length] at hj
              omega
        · rw [hold f htl j hj hin]
    · rw [htail.fields.frame j (fun g hg => hnone g (List.mem_of_mem_tail hg)) hnot]
      refine hsrc.fields.frame j (fun f' hf' => ?_) ?_
      · rw [List.mem_singleton.mp hf']
        exact hnone _ List.mem_cons_self
      · rintro (hc | hc)
        · exact hnot hc
        · refine hnone ⟨nh + 16, slice key 4 4, slice mask 4 4⟩ (by simp [ipv4Fields]) ?_
          simp only [MaskedField.Covers, slice_length]
          unfold Spans at hc
          omega

/-- The checksums that `set_ipv4` maintains. -/
def Ipv4Maintained (skb : SkBuff) (j : Nat) : Prop :=
  Spans (skb.network_header + 10) 2 j ∨
    IpHeaderOk skb ∧ IpL4Check skb (skb.network_header + ipHdrlen skb) j

/-- **When `set_ipv4` writes nothing but its fields and checksums.** -/
theorem setIpv4_iff (ops : CsumOps) (hkey : WithinMask key mask) (hfit : st.skb.network_header + 20 ≤ st.skb.len)
    (hth : st.skb.transport_header = if IpHeaderOk st.skb.toSkBuff
      then st.skb.network_header + ipHdrlen st.skb.toSkBuff else st.skb.network_header) :
    let skb := (setIpv4Tail ops st.skb.network_header key mask
      (setIpv4Addr ops (st.skb.network_header + 12) 368 (slice key 0 4) (slice mask 0 4) st)).skb
    SameBut st.skb skb ∧
      (FieldsWritten (ipv4Fields st.skb.network_header key mask) (Ipv4Maintained st.skb.toSkBuff) st.skb.u8 skb.u8 ↔
        IpHeaderOk st.skb.toSkBuff ∨ StrayKept ops key mask st.skb) := by
  by_cases hok : IpHeaderOk st.skb.toSkBuff
  · rw [if_pos hok] at hth
    have h := rewritten_setIpv4_ok ops hkey rfl hfit (by have := hok.1; omega)
    refine ⟨h.same, iff_of_true (h.fields.mono fun j hj => ?_) (.inl hok)⟩
    exact hj.imp_right fun hl4 => ⟨hok, hth ▸ hl4⟩
  · rw [if_neg hok] at hth
    have hmaintained : Ipv4Maintained st.skb.toSkBuff = Spans (st.skb.network_header + 10) 2 := by
      funext j
      unfold Ipv4Maintained
      simp only [hok, false_and, or_false]
    rw [hmaintained, or_iff_right hok]
    by_cases hfrag : st.skb.be16At (st.skb.network_header + 6) &&& ipOffset = 0
    · by_cases htcp : st.skb.u8 (st.skb.network_header + 9) = ipprotoTcp
      · exact setIpv4_tcp_iff hkey rfl hfit hth hfrag htcp
      by_cases hudp : st.skb.u8 (st.skb.network_header + 9) = ipprotoUdp
      · exact setIpv4_udp_iff hkey rfl hfit hth hfrag hudp
      have h := rewritten_setIpv4_none ops hkey rfl hfit
        fun j hj => hj.2.elim (fun h => htcp h.1) fun h => hudp h.1
      exact ⟨h.same, iff_of_true h.fields fun _ => ⟨fun h => absurd h htcp, fun h => absurd h hudp⟩⟩
    · have h := rewritten_setIpv4_none ops hkey rfl hfit fun j hj => hfrag hj.1
      exact ⟨h.same, iff_of_true h.fields fun h => absurd h hfrag⟩

end OvsDatapath.Actions
