import OvsDatapath.Flow.Netlink
import OvsDatapath.Lib.Fault
import OvsDatapath.Lib.OnesComplement
import OvsDatapath.Lib.Patch
import OvsDatapath.Stt.Offload

/-!
# Cutting a packet at its fragments

A TCP packet that consists of a head and a list of fragments goes out in pieces: `skb_list_segment`
(`linux/compat/stt.c`) makes a packet of its own of each fragment. The headers are copied in front of it, and
then lengths, sequence number, flags and checksum are adjusted, last of all in the head.

This file has the functions, and what one call of `update_headers` does (`updateHeaders_spec`). The checksum has
the length of the packet in it, so the difference of the lengths is added to it. The sum has 32 bits, and a carry
out of them is lost: `updatedCheck_iff` says when.
-/

namespace OvsDatapath.Stt

open OvsDatapath.Flow OvsDatapath.Lib

/-! ## The data -/

/-- A `struct sk_buff` in a list. Its `data` are the bytes that it has itself, in its linear part and in its
pages; `len` also counts those of its `frag_list`. -/
structure SegSkb extends SttSkb where
  len : Nat
  data_len : Nat
  truesize : BitVec 32
  cloned : Bool
  shared : Bool
  tstamp : BitVec 64
  priority : BitVec 32
  mark : BitVec 32
  secmark : BitVec 32

/-- A packet: the first skb and its `frag_list`. -/
structure SegPacket where
  head : SegSkb
  frag_list : List SegSkb

/-- The byte order of the machine, and what the rest of the kernel answers: besides the memory for pulling and
for private data, whether `pskb_expand_head` succeeds for a fragment that so many others follow. -/
structure SegKernel extends SttKernel where
  big_endian : Bool
  pskb_expand_head : Nat → Bool

/-- A 32-bit number in network order. -/
def be32Of (l : List (BitVec 8)) (i : Nat) : BitVec 32 := be16Of l i ++ be16Of l (i + 2)

/-- The bytes of a 32-bit number in network byte order. -/
def be32 (v : BitVec 32) : List (BitVec 8) := be16 (v.extractLsb' 16 16) ++ be16 (v.extractLsb' 0 16)

/-- `skb_headlen`. -/
def SegSkb.headlen (skb : SegSkb) : Nat := skb.len - skb.data_len

/-- All bytes of the packet. -/
def SegPacket.bytes (pkt : SegPacket) : List (BitVec 8) := pkt.head.data ++ pkt.frag_list.flatMap (·.data)

/-! ## Pulling -/

/-- `pskb_pull`, as `__pskb_pull_tail` does it for a fragment: one that others use too is cloned before. -/
def SegSkb.pskbPull (frag : SegSkb) (eat : Nat) : SegSkb :=
  { frag with
    data := frag.data.drop eat
    len := frag.len - eat
    headroom := frag.headroom + eat
    cloned := frag.cloned || frag.shared
    shared := false }

/-- What `__pskb_pull_tail` leaves of the `frag_list` if so many bytes are taken out of it. -/
def eatFrags : List SegSkb → Nat → List SegSkb
  | [], _ => []
  | frag :: frags, eat =>
      if eat = 0 then frag :: frags
      else if frag.len ≤ eat then eatFrags frags (eat - frag.len)
      else frag.pskbPull eat :: frags

/-- `__pskb_pull_tail`: the linear part gets that much longer. What it does not find in the pages it takes out
of the `frag_list`. -/
def pskbPullTail (pkt : SegPacket) (delta : Nat) : SegPacket :=
  let eat := pkt.head.headlen + delta - pkt.head.data.length
  { head := { pkt.head with
      data := pkt.head.data ++ (pkt.frag_list.flatMap (·.data)).take eat
      data_len := pkt.head.data_len - delta }
    frag_list := eatFrags pkt.frag_list eat }

/-- `pskb_may_pull`, and the packet after it if it succeeds. -/
def pskbMayPull (env : SegKernel) (pkt : SegPacket) (len : Nat) : Option SegPacket :=
  if len ≤ pkt.head.headlen then some pkt
  else if pkt.head.len < len then none
  else if env.may_pull len then some (pskbPullTail pkt (len - pkt.head.headlen))
  else none

/-! ## Headers -/

/-- `sizeof(struct ipv6hdr)`. -/
def ipv6hdrLen : Nat := 40

/-- Where the length of the packet is in the IP header. -/
def ipLenOffset (ipv4 : Bool) : Nat := if ipv4 then ethHlen + 2 else ethHlen + 4

/-- What the length in the IP header does not count. -/
def ipLenBase (ipv4 : Bool) : Nat := if ipv4 then ethHlen else ethHlen + ipv6hdrLen

/-- `csum_fold`. -/
def csumFold (sum : BitVec 32) : BitVec 16 := ~~~fold sum

/-- `ip_fast_csum`. -/
def ipFastCsum (iph : List (BitVec 8)) (ihl : Nat) : BitVec 16 :=
  csumFold (BitVec.ofNat 32 ((List.range (2 * ihl)).map fun i => (be16Of iph (2 * i)).toNat).sum)

/-- `ip_send_check`, for the header behind the Ethernet header. -/
def ipSendCheck (data : List (BitVec 8)) : List (BitVec 8) :=
  let ihl := (byteAt data ethHlen &&& 0x0F).toNat
  let data := patch data (ethHlen + 10) (be16 0)
  patch data (ethHlen + 10) (be16 (ipFastCsum (data.drop ethHlen) ihl))

/-- `htons` and `ntohs`. -/
def htons (big_endian : Bool) (v : BitVec 16) : BitVec 16 := if big_endian then v else swap16 v

/-- `htonl`. -/
def htonl (big_endian : Bool) (v : BitVec 32) : BitVec 32 := if big_endian then v else swap32 v

/-- The checksum that `update_headers` computes. The members of the packet are in network order, and the sum is
one of the numbers that the machine makes of them. -/
def updatedCheck (big_endian : Bool) (check old_len new_len : BitVec 16) : BitVec 16 :=
  -- `~old_len` is the complement of an `int`
  let delta := htonl big_endian (~~~old_len.setWidth 32 + new_len.setWidth 32)
  htons big_endian (~~~csumFold ((htons big_endian check).setWidth 32 + delta))

/-- The part of `update_headers` about the IP header. -/
def updateIp (data : List (BitVec 8)) (ipv4 : Bool) (new_len : BitVec 16) : List (BitVec 8) :=
  if ipv4 then ipSendCheck (patch data (ipLenOffset true) (be16 new_len))
  else patch data (ipLenOffset false) (be16 new_len)

/-- The part of `update_headers` about sequence number and flags. -/
def updateTcp (data : List (BitVec 8)) (next head : Bool) (l4_offset : Nat) (tcp_seq : BitVec 32) :
    List (BitVec 8) :=
  let data :=
    if head then data
    else
      let data := patch data (l4_offset + 4) (be32 tcp_seq)
      patch data (l4_offset + 13) [byteAt data (l4_offset + 13) &&& ~~~0x80]
  if next then patch data (l4_offset + 13) [byteAt data (l4_offset + 13) &&& ~~~0x09] else data

/-- `update_headers`. The argument `next` is whether another skb follows. -/
def updateHeaders (env : SegKernel) (skb : SegSkb) (next head : Bool) (l4_offset hdr_len : Nat) (ipv4 : Bool)
    (tcp_seq : BitVec 32) : Except MemFault SegSkb :=
  let old_len := be16Of skb.data (ipLenOffset ipv4)
  let new_len := BitVec.ofInt 16 (skb.len - ipLenBase ipv4)
  let data := updateTcp (updateIp skb.data ipv4 new_len) next head l4_offset tcp_seq
  let check := updatedCheck env.big_endian (be16Of data (l4_offset + 16)) old_len new_len
  let skb : SegSkb := { skb with data := patch data (l4_offset + 16) (be16 check) }
  if skb.gso_size ≠ 0 ∧ ((skb.len : Int) - (hdr_len : Int)) % 2 ^ 32 ≤ (skb.gso_size.toNat : Int) then
    match clearGso env.toSttKernel skb.toSttSkb with
    | .error _ => .error .bug
    | .ok cleared => .ok { skb with toSttSkb := cleared }
  else .ok skb

/-- `copy_headers`, with the answer of `pskb_expand_head`. -/
def copyHeaders (expanded : Bool) (head frag : SegSkb) (hdr_len : Nat) : Except Int SegSkb :=
  let expand := frag.cloned || decide (frag.headroom < hdr_len)
  if expand && !expanded then .error enomem
  else
    let headroom := (if expand then frag.headroom + (hdr_len - frag.headroom) else frag.headroom) - hdr_len
    let csum_start := head.csum_start - BitVec.ofNat 16 head.headroom
    .ok { frag with
      data := head.data.take hdr_len ++ frag.data
      len := frag.len + hdr_len
      headroom := headroom
      cloned := frag.cloned && !expand
      csum_start := BitVec.ofNat 16 headroom + csum_start
      csum_offset := head.csum_offset
      ip_summed := head.ip_summed
      gso_size := head.gso_size
      gso_type := head.gso_type
      gso_segs := 0
      -- `copy_skb_metadata`
      protocol := head.protocol
      tstamp := head.tstamp
      priority := head.priority
      mark := head.mark
      vlan_tci := head.vlan_tci
      vlan_proto := head.vlan_proto
      secmark := head.secmark }

/-! ## The list -/

/-- The head without one of its fragments. -/
def SegSkb.dropFrag (head skb : SegSkb) : SegSkb :=
  { head with
    len := head.len - skb.len
    data_len := head.data_len - skb.len
    truesize := head.truesize - skb.truesize }

/-- The loop of `skb_list_segment`: the head, which gets shorter, and the packets that the fragments become. -/
def segmentFrags (env : SegKernel) (l4_offset hdr_len : Nat) (ipv4 : Bool) :
    SegSkb → BitVec 32 → Int → List SegSkb → Except MemFault (Except Int (SegSkb × List SegSkb))
  | head, _, _, [] => .ok (.ok (head, []))
  | head, seq, seg_len, skb :: rest =>
      let head := head.dropFrag skb
      let seq := seq + BitVec.ofInt 32 seg_len
      match copyHeaders (env.pskb_expand_head rest.length) head skb hdr_len with
      | .error err => .ok (.error err)
      | .ok copied => do
          let frag ← updateHeaders env copied (!rest.isEmpty) false l4_offset hdr_len ipv4 seq
          match ← segmentFrags env l4_offset hdr_len ipv4 head seq skb.len rest with
          | .error err => .ok (.error err)
          | .ok (head, frags) => .ok (.ok (head, frag :: frags))

/-- Where the TCP header ends that `doff` is in. -/
def tcpHdrEnd (data : List (BitVec 8)) (l4_offset : Nat) : Nat :=
  l4_offset + (byteAt data (l4_offset + 12) >>> 4).toNat * 4

/-- `skb_list_segment`: the packets, the head first, or an error. -/
def skbListSegment (env : SegKernel) (pkt : SegPacket) (ipv4 : Bool) (l4_offset : Nat) :
    Except MemFault (Except Int (List SegSkb)) :=
  match pskbMayPull env pkt (l4_offset + tcphdrLen) with
  | none => .ok (.error enomem)
  | some pkt =>
      let hdr_len := tcpHdrEnd pkt.head.data l4_offset
      if hdr_len < l4_offset + tcphdrLen ∨ pkt.head.len < hdr_len then .ok (.error einval)
      else
        match pskbMayPull env pkt hdr_len with
        | none => .ok (.error enomem)
        | some pkt => do
            let seq := be32Of pkt.head.data (l4_offset + 4)
            -- `skb_pagelen` counts the bytes of the head
            let seg_len : Int := pkt.head.data.length - hdr_len
            match ← segmentFrags env l4_offset hdr_len ipv4 pkt.head seq seg_len pkt.frag_list with
            | .error err => .ok (.error err)
            | .ok (head, frags) => do
                let head ← updateHeaders env head (!frags.isEmpty) true l4_offset hdr_len ipv4 0
                .ok (.ok (head :: frags))

/-! ## Fields in a packet -/

section Fields

variable {data new : List (BitVec 8)} {off i : Nat}

theorem byteAt_patch (h : i < off ∨ off + new.length ≤ i) : byteAt (patch data off new) i = byteAt data i :=
  patch_getD_of_outside h

theorem be16Of_patch (h : i + 2 ≤ off ∨ off + new.length ≤ i) : be16Of (patch data off new) i = be16Of data i := by
  rw [be16Of, be16Of, byteAt_patch (by omega), byteAt_patch (by omega)]

theorem be32Of_patch (h : i + 4 ≤ off ∨ off + new.length ≤ i) : be32Of (patch data off new) i = be32Of data i := by
  rw [be32Of, be32Of, be16Of_patch (by omega), be16Of_patch (by omega)]

theorem byteAt_patch_add {k : Nat} (hk : k < new.length) (hfit : off + k < data.length) :
    byteAt (patch data off new) (off + k) = new.getD k 0 := by
  have hbyte : byteAt (patch data off new) (off + k) = new.getD (off + k - off) 0 :=
    patch_getD_of_inside (Nat.le_add_right off k) (by rwa [Nat.add_sub_cancel_left]) hfit
  rwa [Nat.add_sub_cancel_left] at hbyte

theorem byteAt_patch_self (b : BitVec 8) (hfit : off < data.length) : byteAt (patch data off [b]) off = b :=
  byteAt_patch_add (k := 0) (Nat.zero_lt_succ 0) hfit

theorem be16Of_patch_self (v : BitVec 16) (hfit : off + 2 ≤ data.length) :
    be16Of (patch data off (be16 v)) off = v := by
  have hhigh : byteAt (patch data off (be16 v)) off = _ :=
    byteAt_patch_add (k := 0) (Nat.zero_lt_succ 1) (by omega)
  have hlow : byteAt (patch data off (be16 v)) (off + 1) = _ :=
    byteAt_patch_add Nat.one_lt_two (Nat.lt_of_succ_le hfit)
  rw [be16Of, hhigh, hlow]
  exact be16_bytes v

theorem be32Of_patch_self (v : BitVec 32) (hfit : off + 4 ≤ data.length) :
    be32Of (patch data off (be32 v)) off = v := by
  have hbyte : ∀ k, k < 4 → byteAt (patch data off (be32 v)) (off + k) = (be32 v).getD k 0 :=
    fun k hk => byteAt_patch_add hk (by omega)
  have hhigh : be16Of (patch data off (be32 v)) off = v.extractLsb' 16 16 := by
    rw [be16Of, show byteAt (patch data off (be32 v)) off = _ from hbyte 0 (by simp), hbyte 1 (by simp)]
    exact be16_bytes (v.extractLsb' 16 16)
  have hlow : be16Of (patch data off (be32 v)) (off + 2) = v.extractLsb' 0 16 := by
    rw [be16Of, hbyte 2 (by simp), show off + 2 + 1 = off + 3 from rfl, hbyte 3 (by simp)]
    exact be16_bytes (v.extractLsb' 0 16)
  rw [be32Of, hhigh, hlow]
  exact BitVec.extractLsb'_append_extractLsb'

end Fields

/-! ## The checksum -/

/-- No carry is lost when a checksum is updated. On a little-endian machine the sum wraps around only if the new
length is that of the packet or more. -/
def CarryKept (big_endian : Bool) (check old_len new_len : BitVec 16) : Prop :=
  if big_endian then check.toNat + new_len.toNat ≤ old_len.toNat
  else new_len.toNat < old_len.toNat ∨ new_len = old_len ∧ check = 0

instance (big_endian : Bool) (check old_len new_len : BitVec 16) :
    Decidable (CarryKept big_endian check old_len new_len) := by
  unfold CarryKept
  infer_instance

section Check

variable (check old_len new_len : BitVec 16)

/-- The difference of the lengths, or one less than it if it is positive. -/
theorem delta_toNat : (~~~old_len.setWidth 32 + new_len.setWidth 32).toNat =
    (2 ^ 32 - 1 - old_len.toNat + new_len.toNat) % 2 ^ 32 := by
  rw [BitVec.toNat_add, BitVec.toNat_not, BitVec.toNat_setWidth_of_le (by simp),
    BitVec.toNat_setWidth_of_le (by simp)]

theorem updatedCheck_bigEndian :
    (updatedCheck true check old_len new_len).toNat + old_len.toNat ≡ check.toNat + new_len.toNat [MOD 65535] ↔
      check.toNat + new_len.toNat ≤ old_len.toNat := by
  have hfold := fold_add_modEq check (~~~old_len.setWidth 32 + new_len.setWidth 32)
  have hsum : updatedCheck true check old_len new_len =
      fold (check.setWidth 32 + (~~~old_len.setWidth 32 + new_len.setWidth 32)) := BitVec.not_not
  rw [← hsum, delta_toNat] at hfold
  have hcheck := check.isLt
  have hold := old_len.isLt
  have hnew := new_len.isLt
  unfold Nat.ModEq at hfold ⊢
  split at hfold <;> omega

/-- The numbers of a little-endian machine are 256 times those of the network. -/
theorem updatedCheck_littleEndian_modEq :
    (updatedCheck false check old_len new_len).toNat + 256 *
        (if 2 ^ 32 ≤ (swap16 check).toNat + (swap32 (~~~old_len.setWidth 32 + new_len.setWidth 32)).toNat
          then 1 else 0) ≡
      check.toNat + (~~~old_len.setWidth 32 + new_len.setWidth 32).toNat [MOD 65535] := by
  obtain ⟨delta, hdelta⟩ : ∃ delta, delta = ~~~old_len.setWidth 32 + new_len.setWidth 32 := ⟨_, rfl⟩
  rw [← hdelta]
  have hsum : updatedCheck false check old_len new_len =
      swap16 (fold ((swap16 check).setWidth 32 + swap32 delta)) := by
    rw [hdelta]
    exact congrArg swap16 BitVec.not_not
  have hcheck : 256 * (swap16 check).toNat ≡ check.toNat [MOD 65535] :=
    ((swap16_modEq check).mul_left 256).trans (mul_256_256_modEq _)
  have hdiff : 256 * (swap32 delta).toNat ≡ delta.toNat [MOD 65535] :=
    ((swap32_modEq delta).mul_left 256).trans (mul_256_256_modEq _)
  have hfold := (fold_add_modEq (swap16 check) (swap32 delta)).mul_left 256
  rw [Nat.mul_add, Nat.mul_add] at hfold
  rw [hsum]
  exact ((swap16_modEq _).add_right _).trans (hfold.trans (hcheck.add hdiff))

/-- A machine with the low byte first loses a carry only if the lengths are the same. -/
theorem carry_littleEndian_iff :
    2 ^ 32 ≤ (swap16 check).toNat + (swap32 (~~~old_len.setWidth 32 + new_len.setWidth 32)).toNat ↔
      new_len.toNat = old_len.toNat ∧ check ≠ 0 := by
  have hdelta := delta_toNat old_len new_len
  have hcheck := (swap16 check).isLt
  have hold := old_len.isLt
  obtain hlt | heq | hgt := lt_trichotomy new_len.toNat old_len.toNat
  · -- the high half of the difference is full, and the low half is not
    obtain ⟨low, hlow⟩ : ∃ low, low = 65535 - (old_len.toNat - new_len.toNat) := ⟨_, rfl⟩
    have hhalves : (~~~old_len.setWidth 32 + new_len.setWidth 32).toNat = 65535 * 65536 + low := by omega
    have hsmall : low % 256 * 256 + low / 256 < 65535 := by omega
    rw [swap32_toNat_of_halves hhalves (by omega)]
    refine iff_of_false (by omega) fun h => ?_
    exact absurd h.1 hlt.ne
  · have hhalves : (~~~old_len.setWidth 32 + new_len.setWidth 32).toNat = 65535 * 65536 + 65535 := by omega
    have hzero : (swap16 check).toNat = 0 ↔ check = 0 := by
      rw [← swap16_eq_zero_iff check, ← BitVec.toNat_inj]
      rfl
    rw [swap32_toNat_of_halves hhalves (by omega), and_iff_right heq, Ne, ← hzero]
    omega
  · have hhalves : (~~~old_len.setWidth 32 + new_len.setWidth 32).toNat =
        0 * 65536 + (new_len.toNat - old_len.toNat - 1) := by omega
    rw [swap32_toNat_of_halves hhalves (by omega)]
    refine iff_of_false (by omega) fun h => ?_
    exact absurd h.1 hgt.ne'

theorem updatedCheck_littleEndian :
    (updatedCheck false check old_len new_len).toNat + old_len.toNat ≡ check.toNat + new_len.toNat [MOD 65535] ↔
      new_len.toNat < old_len.toNat ∨ new_len = old_len ∧ check = 0 := by
  have hfold := updatedCheck_littleEndian_modEq check old_len new_len
  simp only [carry_littleEndian_iff] at hfold
  rw [delta_toNat] at hfold
  have hcheck := check.isLt
  have hold := old_len.isLt
  have hnew := new_len.isLt
  rw [← BitVec.toNat_inj]
  unfold Nat.ModEq at hfold ⊢
  by_cases hzero : check = 0
  · rw [if_neg fun h => h.2 hzero] at hfold
    rw [eq_true hzero, and_true]
    omega
  · rw [eq_false hzero, and_false, or_false]
    by_cases heq : new_len.toNat = old_len.toNat
    · rw [if_pos ⟨heq, hzero⟩] at hfold
      omega
    · rw [if_neg fun h => heq h.1] at hfold
      omega

/-- **The exact condition** for a checksum to be updated to that of the new length. -/
theorem updatedCheck_iff (big_endian : Bool) :
    (updatedCheck big_endian check old_len new_len).toNat + old_len.toNat ≡
      check.toNat + new_len.toNat [MOD 65535] ↔ CarryKept big_endian check old_len new_len := by
  cases big_endian with
  | true => exact updatedCheck_bigEndian check old_len new_len
  | false => exact updatedCheck_littleEndian check old_len new_len

end Check

/-! ## One header -/

/-- Where the IP header ends, or the part of it that every packet has. -/
def ipHdrEnd (ipv4 : Bool) : Nat := if ipv4 then ethHlen + iphdrLen else ethHlen + ipv6hdrLen

theorem ipLenOffset_true : ipLenOffset true = 16 := rfl

theorem ipLenOffset_false : ipLenOffset false = 18 := rfl

/-- The flags of a segment: `cwr` is for the first one, `fin` and `psh` are for the last one. -/
def segFlags (flags : BitVec 8) (first last : Bool) : BitVec 8 :=
  let flags := if first then flags else flags &&& ~~~0x80
  if last then flags else flags &&& ~~~0x09

section Update

variable {env : SegKernel} {data : List (BitVec 8)} {ipv4 next head : Bool} {new_len : BitVec 16}
  {l4_offset hdr_len i n : Nat} {tcp_seq : BitVec 32} {skb skb' : SegSkb}

@[simp] theorem updateIp_length : (updateIp data ipv4 new_len).length = data.length := by
  cases ipv4 <;> simp [updateIp, ipSendCheck]

theorem updateIp_byteAt (hi : ipHdrEnd ipv4 ≤ i) : byteAt (updateIp data ipv4 new_len) i = byteAt data i := by
  cases ipv4 with
  | true =>
      have hend : 34 ≤ i := hi
      rw [updateIp, if_pos rfl, ipSendCheck, byteAt_patch, byteAt_patch, byteAt_patch]
      all_goals
        simp only [ipLenOffset_true, ethHlen, be16_length]
        right
        omega
  | false =>
      have hend : 54 ≤ i := hi
      rw [updateIp, if_neg (by simp), byteAt_patch]
      rw [ipLenOffset_false, be16_length]
      omega

theorem updateIp_be16Of (hi : ipHdrEnd ipv4 ≤ i) : be16Of (updateIp data ipv4 new_len) i = be16Of data i := by
  rw [be16Of, be16Of, updateIp_byteAt hi, updateIp_byteAt (hi.trans (Nat.le_add_right i 1))]

theorem updateIp_drop (hn : ipHdrEnd ipv4 ≤ n) : (updateIp data ipv4 new_len).drop n = data.drop n := by
  cases ipv4 with
  | true =>
      have hend : 34 ≤ n := hn
      rw [updateIp, if_pos rfl, ipSendCheck, drop_patch, drop_patch, drop_patch]
      all_goals
        simp only [ipLenOffset_true, ethHlen, be16_length]
        omega
  | false =>
      have hend : 54 ≤ n := hn
      rw [updateIp, if_neg (by simp), drop_patch]
      rw [ipLenOffset_false, be16_length]
      omega

theorem updateIp_len (hfit : ipHdrEnd ipv4 ≤ data.length) :
    be16Of (updateIp data ipv4 new_len) (ipLenOffset ipv4) = new_len := by
  cases ipv4 with
  | true =>
      have hend : 34 ≤ data.length := hfit
      rw [updateIp, if_pos rfl, ipSendCheck, be16Of_patch, be16Of_patch, be16Of_patch_self]
      all_goals
        simp only [ipLenOffset_true, ethHlen]
        omega
  | false =>
      have hend : 54 ≤ data.length := hfit
      rw [updateIp, if_neg (by simp), be16Of_patch_self]
      rw [ipLenOffset_false]
      omega

@[simp] theorem updateTcp_length : (updateTcp data next head l4_offset tcp_seq).length = data.length := by
  cases next <;> cases head <;> simp [updateTcp]

theorem updateTcp_byteAt (hi : i < l4_offset + 4 ∨ l4_offset + 8 ≤ i) (hflags : i ≠ l4_offset + 13) :
    byteAt (updateTcp data next head l4_offset tcp_seq) i = byteAt data i := by
  have hone : ∀ (l : List (BitVec 8)) (b : BitVec 8), byteAt (patch l (l4_offset + 13) [b]) i = byteAt l i := by
    intro l b
    apply byteAt_patch
    rw [List.length_singleton]
    omega
  have hseq : byteAt (patch data (l4_offset + 4) (be32 tcp_seq)) i = byteAt data i := by
    apply byteAt_patch
    have hlength : (be32 tcp_seq).length = 4 := rfl
    omega
  cases next <;> cases head <;> simp only [updateTcp, hone, hseq, if_true, Bool.false_eq_true, if_false]

theorem updateTcp_be16Of (hi : i + 2 ≤ l4_offset + 4 ∨ l4_offset + 14 ≤ i) :
    be16Of (updateTcp data next head l4_offset tcp_seq) i = be16Of data i := by
  rw [be16Of, be16Of, updateTcp_byteAt (by omega) (by omega), updateTcp_byteAt (by omega) (by omega)]

theorem updateTcp_drop (hn : l4_offset + tcphdrLen ≤ n) :
    (updateTcp data next head l4_offset tcp_seq).drop n = data.drop n := by
  have hend : l4_offset + 20 ≤ n := hn
  have hone : ∀ (l : List (BitVec 8)) (b : BitVec 8), (patch l (l4_offset + 13) [b]).drop n = l.drop n := by
    intro l b
    apply drop_patch
    rw [List.length_singleton]
    omega
  have hseq : (patch data (l4_offset + 4) (be32 tcp_seq)).drop n = data.drop n := by
    apply drop_patch
    have hlength : (be32 tcp_seq).length = 4 := rfl
    omega
  cases next <;> cases head <;> simp only [updateTcp, hone, hseq, if_true, Bool.false_eq_true, if_false]

theorem updateTcp_seq (hfit : l4_offset + tcphdrLen ≤ data.length) :
    be32Of (updateTcp data next head l4_offset tcp_seq) (l4_offset + 4) =
      if head then be32Of data (l4_offset + 4) else tcp_seq := by
  have hend : l4_offset + 20 ≤ data.length := hfit
  have hone : ∀ (l : List (BitVec 8)) (b : BitVec 8),
      be32Of (patch l (l4_offset + 13) [b]) (l4_offset + 4) = be32Of l (l4_offset + 4) := by
    intro l b
    apply be32Of_patch
    omega
  have hseq : be32Of (patch data (l4_offset + 4) (be32 tcp_seq)) (l4_offset + 4) = tcp_seq :=
    be32Of_patch_self tcp_seq (by omega)
  cases next <;> cases head <;> simp only [updateTcp, hone, hseq, if_true, Bool.false_eq_true, if_false]

theorem updateTcp_flags (hfit : l4_offset + tcphdrLen ≤ data.length) :
    byteAt (updateTcp data next head l4_offset tcp_seq) (l4_offset + 13) =
      segFlags (byteAt data (l4_offset + 13)) head (!next) := by
  have hend : l4_offset + 20 ≤ data.length := hfit
  have hone : ∀ (l : List (BitVec 8)) (b : BitVec 8), l.length = data.length →
      byteAt (patch l (l4_offset + 13) [b]) (l4_offset + 13) = b := by
    intro l b hl
    apply byteAt_patch_self
    omega
  have hseq : byteAt (patch data (l4_offset + 4) (be32 tcp_seq)) (l4_offset + 13) = byteAt data (l4_offset + 13) := by
    apply byteAt_patch
    have hlength : (be32 tcp_seq).length = 4 := rfl
    omega
  cases next <;> cases head <;>
    simp only [updateTcp, segFlags, hone, hseq, patch_length, if_true, Bool.false_eq_true, if_false, Bool.not_true,
      Bool.not_false]

/-- What `update_headers` does to a packet. -/
structure HeadersUpdated (big_endian : Bool) (skb skb' : SegSkb) (next head : Bool) (l4_offset : Nat) (ipv4 : Bool)
    (tcp_seq : BitVec 32) : Prop where
  len : skb'.len = skb.len
  length : skb'.data.length = skb.data.length
  rest (n : Nat) : l4_offset + tcphdrLen ≤ n → skb'.data.drop n = skb.data.drop n
  doff : byteAt skb'.data (l4_offset + 12) = byteAt skb.data (l4_offset + 12)
  ip_len : be16Of skb'.data (ipLenOffset ipv4) = BitVec.ofInt 16 (skb.len - ipLenBase ipv4)
  seq : be32Of skb'.data (l4_offset + 4) = if head then be32Of skb.data (l4_offset + 4) else tcp_seq
  flags : byteAt skb'.data (l4_offset + 13) = segFlags (byteAt skb.data (l4_offset + 13)) head (!next)
  check : be16Of skb'.data (l4_offset + 16) = updatedCheck big_endian (be16Of skb.data (l4_offset + 16))
    (be16Of skb.data (ipLenOffset ipv4)) (be16Of skb'.data (ipLenOffset ipv4))

theorem clearGso_data {kernel : SttKernel} {sent cleared : SttSkb} (h : clearGso kernel sent = .ok cleared) :
    cleared.data = sent.data := by
  unfold clearGso at h
  split at h
  · cases h
    rfl
  · split at h
    · cases h
      rfl
    · cases h

/-- Where the length is, the TCP header is not. -/
theorem ipLenOffset_lt (ipv4 : Bool) : ipLenOffset ipv4 + 2 ≤ ipHdrEnd ipv4 := by
  cases ipv4 <;> decide

theorem updateHeaders_spec (hl4 : ipHdrEnd ipv4 ≤ l4_offset) (hfit : l4_offset + tcphdrLen ≤ skb.data.length)
    (h : updateHeaders env skb next head l4_offset hdr_len ipv4 tcp_seq = .ok skb') :
    HeadersUpdated env.big_endian skb skb' next head l4_offset ipv4 tcp_seq := by
  have hend : l4_offset + 20 ≤ skb.data.length := hfit
  have hlt := ipLenOffset_lt ipv4
  obtain ⟨new_len, hnew⟩ : ∃ new_len, new_len = BitVec.ofInt 16 (skb.len - ipLenBase ipv4) := ⟨_, rfl⟩
  obtain ⟨ip, hip⟩ : ∃ ip, ip = updateIp skb.data ipv4 new_len := ⟨_, rfl⟩
  obtain ⟨tcp, htcp⟩ : ∃ tcp, tcp = updateTcp ip next head l4_offset tcp_seq := ⟨_, rfl⟩
  obtain ⟨check, hcheck⟩ : ∃ check, check = updatedCheck env.big_endian (be16Of tcp (l4_offset + 16))
      (be16Of skb.data (ipLenOffset ipv4)) new_len := ⟨_, rfl⟩
  -- the offloads do not matter
  have hdata : skb'.data = patch tcp (l4_offset + 16) (be16 check) ∧ skb'.len = skb.len := by
    unfold updateHeaders at h
    simp only [← hnew, ← hip, ← htcp, ← hcheck] at h
    split at h
    · split at h
      · cases h
      next cleared hcleared =>
        cases h
        exact ⟨clearGso_data hcleared, rfl⟩
    · cases h
      exact ⟨rfl, rfl⟩
  have hlength : tcp.length = skb.data.length := by rw [htcp, updateTcp_length, hip, updateIp_length]
  have hip_len : be16Of ip (ipLenOffset ipv4) = new_len := by
    rw [hip]
    exact updateIp_len (by omega)
  have htcp_check : be16Of tcp (l4_offset + 16) = be16Of skb.data (l4_offset + 16) := by
    rw [htcp, updateTcp_be16Of (by omega), hip, updateIp_be16Of (by omega)]
  have hlen : be16Of skb'.data (ipLenOffset ipv4) = new_len := by
    rw [hdata.1, be16Of_patch (by omega), htcp, updateTcp_be16Of (by omega), hip_len]
  refine
    { len := hdata.2
      length := ?_
      rest := ?_
      doff := ?_
      ip_len := hlen.trans hnew
      seq := ?_
      flags := ?_
      check := ?_ }
  · rw [hdata.1, patch_length, hlength]
  · intro n hn
    have hbehind : l4_offset + 20 ≤ n := hn
    rw [hdata.1, drop_patch (by rw [be16_length]; omega), htcp, updateTcp_drop hn, hip, updateIp_drop (by omega)]
  · rw [hdata.1, byteAt_patch (by omega), htcp, updateTcp_byteAt (by omega) (by omega), hip,
      updateIp_byteAt (by omega)]
  · rw [hdata.1, be32Of_patch (by omega), htcp, updateTcp_seq (by rw [hip, updateIp_length]; exact hfit), hip, be32Of,
      updateIp_be16Of (by omega), updateIp_be16Of (by omega), ← be32Of]
  · rw [hdata.1, byteAt_patch (by omega), htcp, updateTcp_flags (by rw [hip, updateIp_length]; exact hfit), hip,
      updateIp_byteAt (by omega)]
  · rw [hlen, hdata.1, be16Of_patch_self check (by omega), hcheck, htcp_check]

end Update

end OvsDatapath.Stt
