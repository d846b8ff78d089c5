import OvsDatapath.Actions.Edits
import OvsDatapath.Actions.SetExact
import OvsDatapath.Lib.ByteSum
import OvsDatapath.Lib.OnesComplement

/-!
# The checksum of the whole packet

A device may have summed up a packet, `CHECKSUM_COMPLETE`: then `skb->csum` is the sum of all its bytes, and whoever
changes the packet has to change it. `SkbState.drift` is how far it is off. For each action it is worked out what it
adds to the drift (`doEdit_drift`), so that one knows of every list of actions whether the sum is still right at its
end.

Nothing is lost where headers are pushed and pulled, where an address is written that the IPv4 header has a checksum
for, or a port that TCP and UDP have one for. Where there is no such checksum, for the fields of IPv6 and the ports of
SCTP, the change is not accounted for at all. And where `update_ethertype` and `set_mpls` account for one, they
account for its negative.
-/

namespace OvsDatapath.Actions

open OvsDatapath.Lib OvsDatapath.Flow

/-- The checksum functions of the kernel are right, on a machine whose byte order is that of the packet or the other
one: `order` is 1 or 256. -/
structure CsumOps.Sound (ops : CsumOps) (order : OnesSum) : Prop where
  csum_partial : ∀ (bytes : List (BitVec 8)) (sum : BitVec 32), bytes.length % 2 = 0 →
    order * onesOf (ops.csum_partial bytes sum) = order * onesOf sum + byteSum bytes
  csum_sub : ∀ a b : BitVec 32, onesOf (ops.csum_sub a b) = onesOf a - onesOf b
  csum_replace : ∀ (check : BitVec 16) (old new : List (BitVec 8)), old.length % 2 = 0 → new.length = old.length →
    onesOf (ops.csum_replace check old new) = onesOf check + (byteSum old - byteSum new)
  inet_proto_csum_replace : ∀ (summed : IpSummed) (check : BitVec 16) (old new : List (BitVec 8)) (pseudohdr : Bool),
    summed ≠ .checksumPartial → old.length % 2 = 0 → new.length = old.length →
    onesOf (ops.inet_proto_csum_replace summed check old new pseudohdr) = onesOf check + (byteSum old - byteSum new)
  inet_proto_skb_csum : ∀ (csum : BitVec 32) (old new : List (BitVec 8)) (pseudohdr : Bool),
    old.length % 2 = 0 → new.length = old.length →
    order * onesOf (ops.inet_proto_skb_csum .checksumComplete csum old new pseudohdr) =
      order * onesOf csum + if pseudohdr then byteSum old - byteSum new else 0
  ipv4_change_dsfield : ∀ (check : BitVec 16) (old new : BitVec 8),
    onesOf (ops.ipv4_change_dsfield check old new) = onesOf check + (onesOf old - onesOf new)

/-- How far `skb->csum` is off. -/
def SkbState.drift (order : OnesSum) (skb : SkbState) : OnesSum := order * onesOf skb.csum - byteSum skb.data

/-! ### Reading and writing -/

section

variable {ops : CsumOps} {order : OnesSum} {skb : SkbState} {off n : Nat} {bytes old new : List (BitVec 8)}

theorem bytes_eq_take (skb : SkBuff) (h : off + n ≤ skb.len) : skb.bytes off n = (skb.data.drop off).take n := by
  have hlen : skb.len = skb.data.length := rfl
  apply List.ext_getElem
  · rw [SkBuff.bytes_length, List.length_take, List.length_drop]
    omega
  · intro i hi hi'
    rw [SkBuff.bytes_length] at hi
    rw [List.getElem_take, List.getElem_drop]
    simp only [SkBuff.bytes, List.getElem_map, List.getElem_range, SkBuff.u8]
    rw [List.getD_eq_getElem?_getD, List.getElem?_eq_getElem (by omega)]
    rfl

theorem byteSum_be16 (v : BitVec 16) : byteSum (be16 v) = onesOf v := by
  have hlt := v.isLt
  have hhigh : ((v >>> 8).setWidth 8).toNat = v.toNat / 256 := by
    rw [BitVec.toNat_setWidth, BitVec.toNat_ushiftRight, Nat.shiftRight_eq_div_pow]
    omega
  have hlow : (v.setWidth 8).toNat = v.toNat % 256 := BitVec.toNat_setWidth ..
  rw [be16, byteSum_pair, onesOf, onesOf, onesOf, hhigh, hlow]
  exact_mod_cast congrArg (Nat.cast (R := OnesSum)) (Nat.div_add_mod v.toNat 256)

theorem onesOf_be16At (skb : SkBuff) (off : Nat) : onesOf (skb.be16At off) = byteSum (skb.bytes off 2) := by
  have hbytes : skb.bytes off 2 = [skb.u8 off, skb.u8 (off + 1)] := rfl
  rw [hbytes, byteSum_pair, onesOf, SkBuff.be16At, toNat_append, Nat.cast_add, Nat.cast_mul, mul_comm]
  rfl

/-- What is written counts, and what was there does not count any more. -/
theorem drift_put (order : OnesSum) (skb : SkbState) {off : Nat} {new : List (BitVec 8)} (hfit : off + new.length ≤ skb.len) : (skb.put off new).drift order =
    skb.drift order - 256 ^ off * (byteSum new - byteSum (skb.bytes off new.length)) := by
  have hpatch : (skb.put off new).data = patch skb.data off new := rfl
  have hcsum : (skb.put off new).csum = skb.csum := rfl
  rw [SkbState.drift, SkbState.drift, hpatch, hcsum, byteSum_patch hfit, bytes_eq_take _ hfit]
  ring

theorem drift_insert (hoff : off % 2 = 0) (hbytes : bytes.length % 2 = 0) (hfit : off ≤ skb.len) :
    (skb.insert off bytes).drift order = skb.drift order - byteSum bytes := by
  have hlen : (skb.data.take off).length = off := by
    rw [List.length_take]
    exact Nat.min_eq_left hfit
  have hall : byteSum skb.data = byteSum (skb.data.take off) + byteSum (skb.data.drop off) := by
    conv_lhs => rw [← List.take_append_drop off skb.data]
    exact byteSum_append_even (by omega) _
  have hdata : (skb.insert off bytes).data = skb.data.take off ++ (bytes ++ skb.data.drop off) := rfl
  have hcsum : (skb.insert off bytes).csum = skb.csum := rfl
  rw [SkbState.drift, SkbState.drift, hdata, hcsum, hall, byteSum_append_even (by omega), byteSum_append_even hbytes]
  ring

theorem drift_remove (hoff : off % 2 = 0) (hn : n % 2 = 0) (hfit : off + n ≤ skb.len) :
    (skb.remove off n).drift order = skb.drift order + byteSum (skb.bytes off n) := by
  have hlen : (skb.data.take off).length = off := by
    rw [List.length_take]
    exact Nat.min_eq_left (by omega : off ≤ skb.len)
  have hdata : (skb.remove off n).data = skb.data.take off ++ skb.data.drop (off + n) := rfl
  have hcsum : (skb.remove off n).csum = skb.csum := rfl
  rw [SkbState.drift, SkbState.drift, hdata, hcsum, byteSum_split off n hfit, bytes_eq_take _ hfit,
    byteSum_append_even (by omega), pow_256_even hoff, pow_256_even hn]
  ring

theorem drift_of_data (order : OnesSum) (skb skb' : SkbState) (h : skb'.data = skb.data) :
    skb'.drift order = skb.drift order + (order * onesOf skb'.csum - order * onesOf skb.csum) := by
  rw [SkbState.drift, SkbState.drift, h]
  ring

theorem bytes_even (skb : SkBuff) (off : Nat) (hn : n % 2 = 0) : (skb.bytes off n).length % 2 = 0 := by
  rwa [SkBuff.bytes_length]

variable (hops : ops.Sound order)
include hops

theorem drift_postpushRcsum (hsum : skb.ip_summed = .checksumComplete) (hn : n % 2 = 0) :
    (skb.postpushRcsum ops off n).drift order = skb.drift order + byteSum (skb.bytes off n) := by
  have hpush : skb.postpushRcsum ops off n = { skb with csum := ops.csum_partial (skb.bytes off n) skb.csum } := by
    rw [SkbState.postpushRcsum, hsum]
  have hcsum := hops.csum_partial _ skb.csum (bytes_even skb.toSkBuff off hn)
  have hdrift := drift_of_data order skb { skb with csum := ops.csum_partial (skb.bytes off n) skb.csum } rfl
  rw [hpush, hdrift, hcsum]
  ring

theorem order_csum_partial_zero (hbytes : bytes.length % 2 = 0) :
    order * onesOf (ops.csum_partial bytes 0) = byteSum bytes := by
  rw [hops.csum_partial _ _ hbytes]
  simp [onesOf]

theorem drift_postpullRcsum (hsum : skb.ip_summed = .checksumComplete) (hn : n % 2 = 0) :
    (skb.postpullRcsum ops off n).drift order = skb.drift order - byteSum (skb.bytes off n) := by
  have hpull : skb.postpullRcsum ops off n =
      { skb with csum := ops.csum_sub skb.csum (ops.csum_partial (skb.bytes off n) 0) } := by
    rw [SkbState.postpullRcsum, hsum]
  have hcsum := order_csum_partial_zero hops (bytes_even skb.toSkBuff off hn)
  have hdrift := drift_of_data order skb
    { skb with csum := ops.csum_sub skb.csum (ops.csum_partial (skb.bytes off n) 0) } rfl
  rw [hpull, hdrift, hops.csum_sub, mul_sub, hcsum]
  ring

/-- `update_ethertype` and `set_mpls` tell `skb->csum` of a change the wrong way round. -/
theorem order_csum_diff (csum : BitVec 32) (hold : old.length % 2 = 0) (hnew : new.length % 2 = 0) :
    order * onesOf (~~~ops.csum_partial (old.map (~~~·) ++ new) (~~~csum)) =
      order * onesOf csum + (byteSum old - byteSum new) := by
  have hlen : (old.map (~~~·) ++ new).length % 2 = 0 := by
    rw [List.length_append, List.length_map]
    omega
  rw [onesOf_not32, mul_neg, hops.csum_partial _ _ hlen, onesOf_not32,
    byteSum_append_even (by rwa [List.length_map]), byteSum_not _ hold]
  ring

/-- Bytes that are replaced, and `skb->csum` told of it the wrong way round. -/
theorem drift_put_diff (hoff : off % 2 = 0) (hnew : new.length % 2 = 0) (hfit : off + new.length ≤ skb.len) :
    (({ skb with csum := ~~~ops.csum_partial ((skb.bytes off new.length).map (~~~·) ++ new) (~~~skb.csum) } :
      SkbState).put off new).drift order =
        skb.drift order + 2 * (byteSum (skb.bytes off new.length) - byteSum new) := by
  generalize hcsum : ~~~ops.csum_partial ((skb.bytes off new.length).map (~~~·) ++ new) (~~~skb.csum) = csum
  have hput := drift_put order { skb with csum := csum } hfit
  have hdiff := order_csum_diff hops skb.csum (bytes_even skb.toSkBuff off hnew) hnew
  have hdrift := drift_of_data order skb { skb with csum := csum } rfl
  rw [hcsum] at hdiff
  rw [hput, hdrift, hdiff, pow_256_even hoff]
  dsimp only
  ring

theorem drift_updateEthertype (hsum : skb.ip_summed = .checksumComplete) (hoff : off % 2 = 0)
    (hfit : off + 2 ≤ skb.len) (ethertype : BitVec 16) :
    (updateEthertype ops skb off ethertype).drift order =
      skb.drift order + 2 * (onesOf (skb.be16At off) - onesOf ethertype) := by
  rw [updateEthertype, if_pos hsum, onesOf_be16At, ← byteSum_be16]
  have heven : (be16 ethertype).length % 2 = 0 := by rw [be16_length]
  exact drift_put_diff hops hoff heven hfit

/-- The checksum of a transport header, for the change of an address in its pseudo header or of a port behind it. -/
theorem drift_inetProtoCsumReplace (hsum : skb.ip_summed = .checksumComplete) (hoff : off % 2 = 0)
    (hfit : off + 2 ≤ skb.len) (hold : old.length % 2 = 0) (hnew : new.length = old.length) (pseudohdr : Bool) :
    (skb.inetProtoCsumReplace ops off old new pseudohdr).drift order =
      skb.drift order - if pseudohdr then 0 else byteSum old - byteSum new := by
  have hcsum := hops.inet_proto_skb_csum skb.csum old new pseudohdr hold hnew
  have hcheck := hops.inet_proto_csum_replace skb.ip_summed (skb.be16At off) old new pseudohdr
    (by rw [hsum]; decide) hold hnew
  generalize hnewcheck : ops.inet_proto_csum_replace skb.ip_summed (skb.be16At off) old new pseudohdr = newcheck
    at hcheck
  have hput := @drift_put order skb off (be16 newcheck) hfit
  rw [pow_256_even hoff, byteSum_be16, hcheck, be16_length, ← onesOf_be16At] at hput
  have hdata : (skb.inetProtoCsumReplace ops off old new pseudohdr).data = (skb.put off (be16 newcheck)).data := by
    rw [← hnewcheck]
    rfl
  have hsame : order * onesOf (skb.inetProtoCsumReplace ops off old new pseudohdr).csum =
      order * onesOf skb.csum + if pseudohdr then byteSum old - byteSum new else 0 := by
    rw [SkbState.inetProtoCsumReplace, hsum, hcsum]
  rw [drift_of_data order _ _ hdata, hsame, hput]
  dsimp only [SkbState.put]
  split_ifs <;> ring

end

/-! ### Helpers that keep the layout

A helper of a set action may change the drift, but for most of them there is a part of the packet that tells of it:
the drift and the sum over that part have the same sum before and after. -/

/-- The headers are where they were, in a packet that is as long. -/
structure SameLayout (skb skb' : SkbState) : Prop where
  len : skb'.len = skb.len
  mac_len : skb'.mac_len = skb.mac_len
  network_header : skb'.network_header = skb.network_header
  transport_header : skb'.transport_header = skb.transport_header

theorem SameBut.layout {skb skb' : SkbState} (h : SameBut skb skb') : SameLayout skb skb' :=
  ⟨h.len, h.mac_len, h.network_header, h.transport_header⟩

theorem SameLayout.trans {skb skb' skb'' : SkbState} (h : SameLayout skb skb') (h' : SameLayout skb' skb'') :
    SameLayout skb skb'' where
  len := h'.len.trans h.len
  mac_len := h'.mac_len.trans h.mac_len
  network_header := h'.network_header.trans h.network_header
  transport_header := h'.transport_header.trans h.transport_header

/-- The layout stays, and the drift with something that makes up for it. -/
structure Balanced (order : OnesSum) (rest : SkbState → OnesSum) (skb skb' : SkbState) : Prop where
  same : SameLayout skb skb'
  ip_summed : skb'.ip_summed = skb.ip_summed
  drift : skb'.drift order + rest skb' = skb.drift order + rest skb

/-- Nothing has to make up for anything. -/
def noRest : SkbState → OnesSum := fun _ => 0

/-- The sum over some bytes. -/
def sumOver (off n : Nat) : SkbState → OnesSum := fun skb => byteSum (skb.bytes off n)

section

variable {order : OnesSum} {rest : SkbState → OnesSum} {skb skb' skb'' : SkbState} {off n : Nat}

theorem Balanced.refl (order : OnesSum) (rest : SkbState → OnesSum) (skb : SkbState) : Balanced order rest skb skb :=
  ⟨(SameBut.refl skb).layout, rfl, rfl⟩

theorem Balanced.trans (h : Balanced order rest skb skb') (h' : Balanced order rest skb' skb'') :
    Balanced order rest skb skb'' :=
  ⟨h.same.trans h'.same, h'.ip_summed.trans h.ip_summed, h'.drift.trans h.drift⟩

theorem balanced_of_drift (hsame : SameLayout skb skb') (hsum : skb'.ip_summed = skb.ip_summed)
    (h : skb'.drift order = skb.drift order) : Balanced order noRest skb skb' := by
  refine ⟨hsame, hsum, ?_⟩
  rw [h]
  rfl

/-- What keeps the drift and a part of the packet. -/
theorem Balanced.over (h : Balanced order noRest skb skb') (hbytes : skb'.bytes off n = skb.bytes off n) :
    Balanced order (sumOver off n) skb skb' := by
  refine ⟨h.same, h.ip_summed, ?_⟩
  have hdrift : skb'.drift order = skb.drift order := by simpa [noRest] using h.drift
  rw [sumOver, sumOver, hdrift, hbytes]

/-- What is written into a part of the packet. -/
theorem balanced_put {bytes : List (BitVec 8)} {pos : Nat} (hoff : off % 2 = 0) (hfit : off + n ≤ skb.len)
    (hle : off ≤ pos) (hend : pos + bytes.length ≤ off + n) :
    Balanced order (sumOver off n) skb (skb.put pos bytes) := by
  refine ⟨(sameBut_put skb pos bytes).layout, rfl, ?_⟩
  have hlen : (skb.put pos bytes).len = skb.len := skb.put_len pos bytes
  have hpatch : (skb.put pos bytes).data = patch skb.data pos bytes := rfl
  have hbefore : (patch skb.data pos bytes).take off = skb.data.take off := take_patch hle
  have hafter : (patch skb.data pos bytes).drop (off + n) = skb.data.drop (off + n) := drop_patch hend
  have hsplit := byteSum_split off n (l := skb.data) hfit
  have hsplit' := byteSum_split off n (l := patch skb.data pos bytes) (by rwa [patch_length])
  rw [hbefore, hafter] at hsplit'
  have hcsum : (skb.put pos bytes).csum = skb.csum := rfl
  rw [SkbState.drift, SkbState.drift, sumOver, sumOver, hcsum, bytes_eq_take _ hfit,
    bytes_eq_take _ (by rwa [hlen]), hpatch, hsplit, hsplit', pow_256_even hoff]
  ring

end

/-- The headers have even numbers of bytes in front of them and begin in the packet, which has been summed up. -/
structure Placed (skb : SkbState) : Prop where
  mac_len : skb.mac_len % 2 = 0
  network : skb.network_header % 2 = 0
  transport : skb.transport_header % 2 = 0
  mac_len_le : skb.mac_len ≤ skb.len
  network_le : skb.network_header ≤ skb.len
  transport_le : skb.transport_header ≤ skb.len
  complete : skb.ip_summed = .checksumComplete

section

variable {ops : CsumOps} {env : SkbEnv} {order : OnesSum} {rest : SkbState → OnesSum} {skb skb' : SkbState}
variable {st : SetState} {off n : Nat} {old new key mask : List (BitVec 8)}

theorem Placed.balanced (h : Placed skb) (hbal : Balanced order rest skb skb') : Placed skb' where
  mac_len := by rw [hbal.same.mac_len]; exact h.mac_len
  network := by rw [hbal.same.network_header]; exact h.network
  transport := by rw [hbal.same.transport_header]; exact h.transport
  mac_len_le := by rw [hbal.same.mac_len, hbal.same.len]; exact h.mac_len_le
  network_le := by rw [hbal.same.network_header, hbal.same.len]; exact h.network_le
  transport_le := by rw [hbal.same.transport_header, hbal.same.len]; exact h.transport_le
  complete := by rw [hbal.ip_summed]; exact h.complete

theorem Placed.transport_fit (h : Placed skb) (hlen : skb.transportLenGe n = true) :
    skb.transport_header + n ≤ skb.len := by
  have hle := h.transport_le
  have hcases := of_decide_eq_true hlen
  omega

theorem ensureWritable_le (h : skb.ensureWritable env n = true) : n ≤ skb.len :=
  of_decide_eq_true (Bool.and_eq_true_iff.mp h).1

theorem balanced_clearHash (order : OnesSum) (rest : SkbState → OnesSum)
    (hrest : rest skb.clearHash = rest skb) : Balanced order rest skb skb.clearHash :=
  ⟨⟨rfl, rfl, rfl, rfl⟩, rfl, by rw [hrest]; rfl⟩

/-- The hash does not count. -/
theorem Balanced.clearHash (h : Balanced order noRest skb skb') : Balanced order noRest skb skb'.clearHash :=
  h.trans (balanced_clearHash order noRest rfl)

/-- A checksum of zero is written in the other way. -/
theorem balanced_putMangled (order : OnesSum) (hoff : off % 2 = 0) (hfit : off + 2 ≤ skb.len)
    (hzero : skb.be16At off = 0) : Balanced order noRest skb (skb.put off (be16 csumMangled0)) := by
  have hdrift := @drift_put order skb off (be16 csumMangled0) hfit
  have hones : onesOf csumMangled0 = 0 := by decide
  rw [byteSum_be16, be16_length, ← onesOf_be16At, hzero, hones, pow_256_even hoff] at hdrift
  exact balanced_of_drift (sameBut_put ..).layout rfl (by rw [hdrift]; simp [onesOf])

/-- A header with a checksum, which takes up the change of any other field. -/
theorem balanced_checked {check field : Nat} {sum : BitVec 16} {before after : OnesSum} (hcheck : check % 2 = 0)
    (hfit : check + 2 ≤ skb.len) (hfield : field + new.length ≤ skb.len)
    (hapart : ∀ j, Spans field new.length j → ¬ Spans check 2 j)
    (hsum : onesOf sum = onesOf (skb.be16At check) + (before - after))
    (hchange : 256 ^ field * (byteSum new - byteSum (skb.bytes field new.length)) = after - before) :
    Balanced order noRest skb ((skb.put check (be16 sum)).put field new) := by
  have hbytes : (skb.put check (be16 sum)).bytes field new.length = skb.bytes field new.length :=
    bytes_congr_of fun j hj => SkbState.put_u8_out (hapart j hj)
  have hput := @drift_put order skb check (be16 sum) hfit
  have hput' := @drift_put order (skb.put check (be16 sum)) field new (by rwa [SkbState.put_len])
  rw [be16_length, byteSum_be16, ← onesOf_be16At, pow_256_even hcheck, hsum] at hput
  rw [hbytes, hchange] at hput'
  refine balanced_of_drift ((sameBut_put ..).trans (sameBut_put ..)).layout rfl ?_
  rw [hput', hput]
  ring

variable (hops : ops.Sound order)
include hops

theorem balanced_inetProtoCsumReplace (hsum : skb.ip_summed = .checksumComplete) (hoff : off % 2 = 0)
    (hfit : off + 2 ≤ skb.len) (hold : old.length % 2 = 0) (hnew : new.length = old.length) :
    Balanced order noRest skb (skb.inetProtoCsumReplace ops off old new true) := by
  have hwritten : Rewritten [] (fun _ => True) skb (skb.inetProtoCsumReplace ops off old new true) :=
    rewritten_inetProtoCsumReplace ops skb (fun _ _ => trivial) old new true
  refine balanced_of_drift hwritten.same.layout rfl ?_
  rw [drift_inetProtoCsumReplace hops hsum hoff hfit hold hnew, if_pos rfl, sub_zero]

theorem balanced_updateUdpCheck (hsum : skb.ip_summed = .checksumComplete) (hoff : off % 2 = 0)
    (hfit : off + 2 ≤ skb.len) (hold : old.length % 2 = 0) (hnew : new.length = old.length) :
    Balanced order noRest skb (updateUdpCheck ops skb off old new) := by
  have hreplace := balanced_inetProtoCsumReplace hops hsum hoff hfit hold hnew
  unfold updateUdpCheck
  dsimp only
  split_ifs with hcheck hzero
  · exact hreplace.trans (balanced_putMangled order hoff (by rwa [hreplace.same.len]) hzero)
  · exact hreplace
  · exact .refl order noRest skb

theorem balanced_updateIpL4Checksum (h : Placed skb) (hold : old.length % 2 = 0) (hnew : new.length = old.length) :
    Balanced order noRest skb (updateIpL4Checksum ops skb old new) := by
  have htransport := h.transport
  unfold updateIpL4Checksum
  dsimp only
  split_ifs with hfrag htcp hlen hudp hlen
  · exact .refl order noRest skb
  · have hfit := h.transport_fit hlen
    exact balanced_inetProtoCsumReplace hops h.complete (by omega) (by omega) hold hnew
  · exact .refl order noRest skb
  · have hfit := h.transport_fit hlen
    exact balanced_updateUdpCheck hops h.complete (by omega) (by omega) hold hnew
  · exact .refl order noRest skb
  · exact .refl order noRest skb

theorem balanced_updateIpv6Checksum {l4_proto : BitVec 8} (h : Placed skb) (hold : old.length % 2 = 0)
    (hnew : new.length = old.length) : Balanced order noRest skb (updateIpv6Checksum ops skb l4_proto old new) := by
  have htransport := h.transport
  unfold updateIpv6Checksum
  dsimp only
  split_ifs with htcp hlen hudp hlen hicmp hlen
  · have hfit := h.transport_fit hlen
    exact balanced_inetProtoCsumReplace hops h.complete (by omega) (by omega) hold hnew
  · exact .refl order noRest skb
  · have hfit := h.transport_fit hlen
    exact balanced_updateUdpCheck hops h.complete (by omega) (by omega) hold hnew
  · exact .refl order noRest skb
  · have hfit := h.transport_fit hlen
    exact balanced_inetProtoCsumReplace hops h.complete (by omega) (by omega) hold hnew
  · exact .refl order noRest skb
  · exact .refl order noRest skb

/-! ### IPv4 -/

theorem balanced_setIpAddr {addr : Nat} (h : Placed skb) (haddr : addr % 2 = 0)
    (hbehind : skb.network_header + 12 ≤ addr) (hend : addr + 4 ≤ skb.len) (hnew : new.length = 4) :
    Balanced order noRest skb (setIpAddr ops skb addr new) := by
  unfold setIpAddr
  dsimp only
  have hl4 := balanced_updateIpL4Checksum hops h (bytes_even skb.toSkBuff addr (n := 4) rfl)
    (hnew.trans (SkBuff.bytes_length ..).symm)
  generalize updateIpL4Checksum ops skb (skb.bytes addr 4) new = skb₁ at hl4 ⊢
  have hnh := hl4.same.network_header
  have hlen := hl4.same.len
  have hnetwork := h.network
  have hsum := hops.csum_replace (skb₁.be16At (skb.network_header + 10)) (skb₁.bytes addr 4) new
    (bytes_even skb₁.toSkBuff addr rfl) (hnew.trans (SkBuff.bytes_length ..).symm)
  have hchange : 256 ^ addr * (byteSum new - byteSum (skb₁.bytes addr new.length)) =
      byteSum new - byteSum (skb₁.bytes addr 4) := by rw [hnew, pow_256_even haddr, one_mul]
  have hapart : ∀ j, Spans addr new.length j → ¬ Spans (skb.network_header + 10) 2 j := by
    intro j hj hj'
    unfold Spans at hj hj'
    omega
  have hbal := @balanced_checked order _ _ _ _ _ _ _ (by omega) (by omega) (by omega) hapart hsum hchange
  exact hl4.trans (hbal.trans (balanced_clearHash order noRest rfl))

theorem balanced_setIpv4Addr {addr : Nat} (member : Nat) (h : Placed st.skb) (haddr : addr % 2 = 0)
    (hbehind : st.skb.network_header + 12 ≤ addr) (hend : addr + 4 ≤ st.skb.len) :
    Balanced order noRest st.skb (setIpv4Addr ops addr member key mask st).skb := by
  unfold setIpv4Addr
  dsimp only
  split_ifs
  · exact .refl order noRest st.skb
  · exact .refl order noRest st.skb
  · exact balanced_setIpAddr hops h haddr hbehind hend (by simp)

theorem balanced_setIpv4Tos {key mask : BitVec 8} (h : Placed st.skb)
    (hfit : st.skb.network_header + 20 ≤ st.skb.len) :
    Balanced order noRest st.skb (setIpv4Tos ops key mask st).skb := by
  have hnetwork := h.network
  unfold setIpv4Tos
  dsimp only
  split_ifs
  · exact .refl order noRest st.skb
  · generalize st.skb.u8 (st.skb.network_header + 1) &&& ~~~mask ||| key = dsfield
    have hodd : (st.skb.network_header + 1) % 2 = 1 := by omega
    have hsum := hops.ipv4_change_dsfield (st.skb.be16At (st.skb.network_header + 10))
      (st.skb.u8 (st.skb.network_header + 1)) dsfield
    refine balanced_checked (by omega) (by omega) (by simp; omega) ?_ hsum ?_
    · intro j hj hj'
      simp only [Spans, List.length_singleton] at hj hj'
      omega
    · rw [pow_256_odd hodd]
      have hbytes : st.skb.bytes (st.skb.network_header + 1) 1 = [st.skb.u8 (st.skb.network_header + 1)] := rfl
      rw [List.length_singleton, hbytes, byteSum_cons, byteSum_cons, byteSum_nil]
      linear_combination (onesOf dsfield - onesOf (st.skb.u8 (st.skb.network_header + 1))) * mul_256_256

theorem balanced_setIpv4Ttl {key mask : BitVec 8} (h : Placed st.skb)
    (hfit : st.skb.network_header + 20 ≤ st.skb.len) :
    Balanced order noRest st.skb (setIpv4Ttl ops key mask st).skb := by
  have hnetwork := h.network
  unfold setIpv4Ttl
  dsimp only
  split_ifs
  · exact .refl order noRest st.skb
  · generalize key ||| st.skb.u8 (st.skb.network_header + 8) &&& ~~~mask = new_ttl
    have hsum := hops.csum_replace (st.skb.be16At (st.skb.network_header + 10))
      [st.skb.u8 (st.skb.network_header + 8), 0] [new_ttl, 0] (by simp) rfl
    refine balanced_checked (by omega) (by omega) (by simp; omega) ?_ hsum ?_
    · intro j hj hj'
      simp only [Spans, List.length_singleton] at hj hj'
      omega
    · have hbytes : st.skb.bytes (st.skb.network_header + 8) 1 = [st.skb.u8 (st.skb.network_header + 8)] := rfl
      rw [pow_256_even (by omega), List.length_singleton, hbytes, byteSum_pair, byteSum_pair, byteSum_cons,
        byteSum_cons, byteSum_nil]
      ring

theorem balanced_setIpv4Rest (h : Placed st.skb) (hfit : st.skb.network_header + 20 ≤ st.skb.len) :
    Balanced order noRest st.skb (setIpv4Rest ops key mask st).skb := by
  have htos : Balanced order noRest st.skb (setIpv4Tos ops (byteAt key 9) (byteAt mask 9) st).skb :=
    balanced_setIpv4Tos hops h hfit
  refine htos.trans (balanced_setIpv4Ttl hops (h.balanced htos) ?_)
  rw [htos.same.network_header, htos.same.len]
  exact hfit

theorem balanced_setIpv4 (h : Placed st.skb) :
    Balanced order noRest st.skb (setIpv4 ops env key mask st).2.skb := by
  cases hwritable : st.skb.ensureWritable env (st.skb.network_header + 20) with
  | false =>
      rw [setIpv4, if_pos (by simp [hwritable])]
      exact .refl order noRest st.skb
  | true =>
      have hfit := ensureWritable_le hwritable
      have hnetwork := h.network
      rw [setIpv4_eq hwritable, setIpv4Tail]
      have hsrc : Balanced order noRest st.skb (setIpv4Addr ops (st.skb.network_header + 12) 368 (slice key 0 4)
          (slice mask 0 4) st).skb := balanced_setIpv4Addr hops 368 h (by omega) (by omega) (by omega)
      generalize setIpv4Addr ops (st.skb.network_header + 12) 368 (slice key 0 4) (slice mask 0 4) st = st₁ at hsrc ⊢
      have hnh := hsrc.same.network_header
      have hlen := hsrc.same.len
      have hdst : Balanced order noRest st₁.skb (setIpv4Addr ops (st.skb.network_header + 16) 372 (slice key 4 4)
          (slice mask 4 4) st₁).skb :=
        balanced_setIpv4Addr hops 372 (h.balanced hsrc) (by omega) (by omega) (by omega)
      generalize setIpv4Addr ops (st.skb.network_header + 16) 372 (slice key 4 4) (slice mask 4 4) st₁ = st₂ at hdst ⊢
      have hnh' := hdst.same.network_header
      have hlen' := hdst.same.len
      exact hsrc.trans (hdst.trans (balanced_setIpv4Rest hops ((h.balanced hsrc).balanced hdst) (by omega)))

/-! ### IPv6 -/

/-- The checksum of a transport header that is behind some bytes. -/
theorem balanced_ipv6Checksum_over {l4_proto : BitVec 8} (h : Placed skb) (hbehind : off + n ≤ skb.transport_header)
    (hold : old.length % 2 = 0) (hnew : new.length = old.length) :
    Balanced order (sumOver off n) skb (updateIpv6Checksum ops skb l4_proto old new) := by
  refine (balanced_updateIpv6Checksum hops h hold hnew).over (bytes_congr_of fun j hj => ?_)
  have hwritten : Rewritten [] (Ipv6L4Check skb.transport_header l4_proto) skb
      (updateIpv6Checksum ops skb l4_proto old new) := rewritten_updateIpv6Checksum (fun j hj => hj) old new
  refine hwritten.u8 fun hcheck => ?_
  have hend := hj.2
  obtain ⟨-, hle, -⟩ | ⟨-, hle, -⟩ | ⟨-, hle, -⟩ := hcheck <;> omega

/-- A header of IPv6, and a transport header behind it. -/
structure Ipv6Placed (nh : Nat) (skb : SkbState) : Prop extends Placed skb where
  header : skb.network_header = nh
  fit : nh + 40 ≤ skb.len
  behind : nh + 40 ≤ skb.transport_header

omit hops in
theorem Ipv6Placed.balanced {nh : Nat} (h : Ipv6Placed nh skb) (hbal : Balanced order rest skb skb') :
    Ipv6Placed nh skb' where
  toPlaced := h.toPlaced.balanced hbal
  header := by rw [hbal.same.network_header]; exact h.header
  fit := by rw [hbal.same.len]; exact h.fit
  behind := by rw [hbal.same.transport_header]; exact h.behind

/-- What is set in the header is not accounted for. -/
theorem balanced_setIpv6Address {addr nh : Nat} {recalc_csum : SkbState → Bool} (member : Nat)
    (h : Ipv6Placed nh st.skb) (hle : nh ≤ addr) (hend : addr + 16 ≤ nh + 40) :
    Balanced order (sumOver nh 40) st.skb (setIpv6Address ops addr member recalc_csum key mask st).skb := by
  have hnetwork := h.network
  rw [h.header] at hnetwork
  have hput : ∀ skb' : SkbState, skb'.len = st.skb.len → Balanced order (sumOver nh 40) skb'
      (skb'.clearHash.put addr (ovsMasked (st.skb.bytes addr 16) key mask)) := by
    intro skb' hlen
    have hclear : Balanced order (sumOver nh 40) skb' skb'.clearHash := balanced_clearHash order _ rfl
    refine hclear.trans (balanced_put hnetwork ?_ hle ?_)
    · rw [hclear.same.len, hlen]
      exact h.fit
    · rwa [ovsMasked_length, SkBuff.bytes_length]
  unfold setIpv6Address setIpv6Addr
  dsimp only
  split_ifs with hempty hsame hrecalc
  · exact .refl order _ st.skb
  · exact .refl order _ st.skb
  · have hl4 : Balanced order (sumOver nh 40) st.skb (updateIpv6Checksum ops st.skb st.flow_key.ipProto
        (st.skb.bytes addr 16) (ovsMasked (st.skb.bytes addr 16) key mask)) :=
      balanced_ipv6Checksum_over hops h.toPlaced h.behind (bytes_even _ addr rfl) (by simp)
    exact hl4.trans (hput _ hl4.same.len)
  · exact hput st.skb rfl

omit hops in
/-- A field in the header. -/
theorem Ipv6Placed.put {nh pos : Nat} (h : Ipv6Placed nh skb) (hle : nh ≤ pos) (hend : pos + new.length ≤ nh + 40) :
    Balanced order (sumOver nh 40) skb (skb.put pos new) := by
  have hnetwork := h.network
  rw [h.header] at hnetwork
  exact balanced_put hnetwork h.fit hle hend

omit hops in
theorem balanced_setIpv6Tclass {nh : Nat} {key mask : BitVec 8} (h : Ipv6Placed nh st.skb) :
    Balanced order (sumOver nh 40) st.skb (setIpv6Tclass key mask st).skb := by
  unfold setIpv6Tclass
  rw [h.header]
  dsimp only
  split_ifs
  · exact .refl order _ st.skb
  · exact h.put le_rfl (by rw [be16_length]; omega)

omit hops in
theorem balanced_setIpv6Label {nh : Nat} (h : Ipv6Placed nh st.skb) :
    Balanced order (sumOver nh 40) st.skb (setIpv6Label key mask st).skb := by
  unfold setIpv6Label
  rw [h.header]
  dsimp only
  split_ifs
  · exact .refl order _ st.skb
  · exact h.put (by omega) (by rw [ovsMasked_length, SkBuff.bytes_length]; omega)

omit hops in
theorem balanced_setIpv6Hlimit {nh : Nat} {key mask : BitVec 8} (h : Ipv6Placed nh st.skb) :
    Balanced order (sumOver nh 40) st.skb (setIpv6Hlimit key mask st).skb := by
  unfold setIpv6Hlimit
  rw [h.header]
  dsimp only
  split_ifs
  · exact .refl order _ st.skb
  · exact h.put (by omega) (by rw [List.length_singleton]; omega)

theorem balanced_setIpv6 (h : Placed st.skb) (hbehind : st.skb.network_header + 40 ≤ st.skb.transport_header) :
    Balanced order (sumOver st.skb.network_header 40) st.skb (setIpv6 ops env key mask st).2.skb := by
  unfold setIpv6
  dsimp only
  split_ifs with hwritable
  · exact .refl order _ st.skb
  · have hplaced : Ipv6Placed st.skb.network_header st.skb :=
      ⟨h, rfl, ensureWritable_le (by simpa using hwritable), hbehind⟩
    generalize st.skb.network_header = nh at hplaced ⊢
    have hsrc : Balanced order (sumOver nh 40) st.skb (setIpv6Address ops (nh + 8) 368 (fun _ => true)
        (slice key 0 16) (slice mask 0 16) st).skb :=
      balanced_setIpv6Address hops 368 hplaced (by omega) (by omega)
    generalize setIpv6Address ops (nh + 8) 368 (fun _ => true) (slice key 0 16) (slice mask 0 16) st = st₁ at hsrc ⊢
    replace hplaced := hplaced.balanced hsrc
    have hdst : Balanced order (sumOver nh 40) st₁.skb (setIpv6Address ops (nh + 24) 384 (recalcCsum ops)
        (slice key 16 16) (slice mask 16 16) st₁).skb :=
      balanced_setIpv6Address hops 384 hplaced (by omega) (by omega)
    generalize setIpv6Address ops (nh + 24) 384 (recalcCsum ops) (slice key 16 16) (slice mask 16 16) st₁ = st₂
      at hdst ⊢
    replace hplaced := hplaced.balanced hdst
    have htclass : Balanced order (sumOver nh 40) st₂.skb (setIpv6Tclass (byteAt key 37) (byteAt mask 37) st₂).skb :=
      balanced_setIpv6Tclass hplaced
    generalize setIpv6Tclass (byteAt key 37) (byteAt mask 37) st₂ = st₃ at htclass ⊢
    replace hplaced := hplaced.balanced htclass
    have hlabel : Balanced order (sumOver nh 40) st₃.skb (setIpv6Label (slice key 32 4) (slice mask 32 4) st₃).skb :=
      balanced_setIpv6Label hplaced
    exact (hsrc.trans hdst).trans ((htclass.trans hlabel).trans (balanced_setIpv6Hlimit (hplaced.balanced hlabel)))

/-! ### Transport headers -/

/-- A port that the checksum is told of. -/
theorem balanced_setChangedPort {port check : Nat} (member : Nat) (hsum : st.skb.ip_summed = .checksumComplete)
    (hport : port % 2 = 0) (hcheck : check % 2 = 0) (hle : port + 2 ≤ check) (hfit : check + 2 ≤ st.skb.len)
    (hnew : new.length = 2) :
    Balanced order noRest st.skb (setChangedPort ops port member new check st).skb := by
  unfold setChangedPort setTpPort
  split_ifs
  · exact .refl order noRest st.skb
  · dsimp only
    have hold := bytes_even st.skb.toSkBuff port (n := 2) rfl
    have hlen : new.length = (st.skb.bytes port 2).length := hnew.trans (SkBuff.bytes_length ..).symm
    have hdrift := drift_inetProtoCsumReplace hops hsum hcheck hfit hold hlen false
    have hwritten : Rewritten [] (Spans check 2) st.skb
        (st.skb.inetProtoCsumReplace ops check (st.skb.bytes port 2) new false) :=
      rewritten_inetProtoCsumReplace ops st.skb (fun j hj => hj) _ _ _
    have hbytes : (st.skb.inetProtoCsumReplace ops check (st.skb.bytes port 2) new false).bytes port 2 =
        st.skb.bytes port 2 := by
      refine bytes_congr_of fun j hj => hwritten.u8 fun hj' => ?_
      unfold Spans at hj hj'
      omega
    have hput := @drift_put order (st.skb.inetProtoCsumReplace ops check (st.skb.bytes port 2) new false) port new
      (by rw [hwritten.same.len]; omega)
    rw [hnew, hbytes, pow_256_even hport, hdrift] at hput
    refine balanced_of_drift (hwritten.same.trans (sameBut_put ..)).layout rfl ?_
    rw [hput, if_neg Bool.false_ne_true]
    ring

theorem balanced_changedPorts {th check : Nat} {src dst : List (BitVec 8)} (h : Placed st.skb) (hth : th % 2 = 0)
    (hcheck : check % 2 = 0) (hle : th + 4 ≤ check) (hfit : check + 2 ≤ st.skb.len) (hsrc : src.length = 2)
    (hdst : dst.length = 2) :
    Balanced order noRest st.skb
      (setChangedPort ops (th + 2) 364 dst check (setChangedPort ops th 362 src check st)).skb := by
  have hfirst : Balanced order noRest st.skb (setChangedPort ops th 362 src check st).skb :=
    balanced_setChangedPort hops 362 h.complete hth hcheck (by omega) hfit hsrc
  refine hfirst.trans (balanced_setChangedPort hops 364 (h.balanced hfirst).complete ?_ hcheck ?_ ?_ hdst)
  · omega
  · omega
  · rw [hfirst.same.len]
    exact hfit

theorem balanced_setTcp (h : Placed st.skb) :
    Balanced order noRest st.skb (setTcp ops env key mask st).2.skb := by
  have htransport := h.transport
  unfold setTcp
  dsimp only
  split_ifs with hwritable
  · exact .refl order noRest st.skb
  · have hfit : st.skb.transport_header + 20 ≤ st.skb.len := ensureWritable_le (by simpa using hwritable)
    exact (balanced_changedPorts hops h htransport (by omega) (by omega) (by omega) (by simp) (by simp)).clearHash

/-- Without a checksum in the packet, the ports are not accounted for. -/
def udpRest (skb : SkbState) : SkbState → OnesSum :=
  if skb.be16At (skb.transport_header + 6) = 0 then sumOver skb.transport_header 4 else noRest

theorem balanced_setUdp (h : Placed st.skb) :
    Balanced order (udpRest st.skb) st.skb (setUdp ops env key mask st).2.skb := by
  have htransport := h.transport
  unfold setUdp
  dsimp only
  have hsrc : (ovsMasked (st.skb.bytes st.skb.transport_header 2) (slice key 0 2) (slice mask 0 2)).length = 2 := by
    simp
  have hdst : (ovsMasked (st.skb.bytes (st.skb.transport_header + 2) 2) (slice key 2 2) (slice mask 2 2)).length =
      2 := by simp
  generalize ovsMasked (st.skb.bytes st.skb.transport_header 2) (slice key 0 2) (slice mask 0 2) = src at hsrc ⊢
  generalize ovsMasked (st.skb.bytes (st.skb.transport_header + 2) 2) (slice key 2 2) (slice mask 2 2) = dst
    at hdst ⊢
  split_ifs with hwritable hcheck hzero
  · exact .refl order _ st.skb
  all_goals
    have hfit : st.skb.transport_header + 8 ≤ st.skb.len := ensureWritable_le (by simpa using hwritable)
  · rw [udpRest, if_neg hcheck.1]
    have hports := balanced_changedPorts hops h htransport (by omega : (st.skb.transport_header + 6) % 2 = 0)
      (by omega) (by omega) hsrc hdst
    refine (hports.trans (balanced_putMangled order (by omega) ?_ hzero)).clearHash
    rw [hports.same.len]
    omega
  · rw [udpRest, if_neg hcheck.1]
    exact (balanced_changedPorts hops h htransport (by omega) (by omega) (by omega) hsrc hdst).clearHash
  · have hnone : st.skb.be16At (st.skb.transport_header + 6) = 0 := by
      by_contra hsome
      exact hcheck ⟨hsome, by rw [h.complete]; decide⟩
    rw [udpRest, if_pos hnone]
    have hput : Balanced order (sumOver st.skb.transport_header 4) st.skb
        (st.skb.put st.skb.transport_header src) := balanced_put htransport (by omega) le_rfl (by omega)
    refine hput.trans (.trans (balanced_put htransport ?_ (Nat.le_add_right _ 2) (by omega))
      (balanced_clearHash order _ rfl))
    rw [hput.same.len]
    omega

omit hops in
theorem balanced_setSctp (h : Placed st.skb) :
    Balanced order (sumOver st.skb.transport_header 12) st.skb (setSctp ops env key mask st).2.skb := by
  have htransport := h.transport
  unfold setSctp
  dsimp only
  split_ifs with hwritable
  · exact .refl order _ st.skb
  · have hfit : st.skb.transport_header + 12 ≤ st.skb.len := ensureWritable_le (by simpa using hwritable)
    generalize st.skb.transport_header = th at hfit htransport ⊢
    have hput : ∀ (skb : SkbState) (pos : Nat) (bytes : List (BitVec 8)), skb.len = st.skb.len → th ≤ pos →
        pos + bytes.length ≤ th + 12 → Balanced order (sumOver th 12) skb (skb.put pos bytes) := by
      intro skb pos bytes hlen hle hend
      exact balanced_put htransport (by omega) hle hend
    have hsrc := hput st.skb th (ovsMasked (st.skb.bytes th 2) (slice key 0 2) (slice mask 0 2)) rfl le_rfl (by simp)
    generalize st.skb.put th (ovsMasked (st.skb.bytes th 2) (slice key 0 2) (slice mask 0 2)) = skb₁ at hsrc ⊢
    have hdst := hput skb₁ (th + 2) (ovsMasked (skb₁.bytes (th + 2) 2) (slice key 2 2) (slice mask 2 2))
      hsrc.same.len (by omega) (by simp)
    generalize skb₁.put (th + 2) (ovsMasked (skb₁.bytes (th + 2) 2) (slice key 2 2) (slice mask 2 2)) = skb₂
      at hdst ⊢
    have hboth := hsrc.trans hdst
    exact hboth.trans (.trans (hput skb₂ (th + 8) _ hboth.same.len (by omega) (by simp))
      (balanced_clearHash order _ rfl))

/-! ### Ethernet and MPLS -/

omit hops in
theorem complete_postpullRcsum (hsum : skb.ip_summed = .checksumComplete) :
    (skb.postpullRcsum ops off n).ip_summed = .checksumComplete := by
  rw [SkbState.postpullRcsum, hsum]

omit hops in
theorem complete_postpushRcsum (hsum : skb.ip_summed = .checksumComplete) :
    (skb.postpushRcsum ops off n).ip_summed = .checksumComplete := by
  rw [SkbState.postpushRcsum, hsum]

/-- Some bytes are taken out of the sum, changed, and added to it again. -/
theorem balanced_resummed (hsum : skb.ip_summed = .checksumComplete) (hn : n % 2 = 0)
    (h : Balanced order (sumOver off n) (skb.postpullRcsum ops off n) skb') :
    Balanced order noRest skb (skb'.postpushRcsum ops off n) := by
  have hpulled : Rewritten [] (fun _ => False) skb (skb.postpullRcsum ops off n) :=
    rewritten_postpullRcsum ops _ skb off n
  have hpushed : Rewritten [] (fun _ => False) skb' (skb'.postpushRcsum ops off n) :=
    rewritten_postpushRcsum ops _ skb' off n
  have hsum₁ : (skb.postpullRcsum ops off n).ip_summed = .checksumComplete := complete_postpullRcsum hsum
  have hsum' : skb'.ip_summed = .checksumComplete := h.ip_summed.trans hsum₁
  have hbytes : (skb.postpullRcsum ops off n).bytes off n = skb.bytes off n :=
    bytes_congr_of fun j _ => hpulled.u8 not_false
  have hbalance := h.drift
  rw [sumOver, sumOver, hbytes, drift_postpullRcsum hops hsum hn] at hbalance
  refine balanced_of_drift ((hpulled.same.layout.trans h.same).trans hpushed.same.layout) ?_ ?_
  · rw [complete_postpushRcsum hsum', hsum]
  · rw [drift_postpushRcsum hops hsum' hn, hbalance]
    ring

theorem balanced_setEthAddr (h : Placed st.skb) :
    Balanced order noRest st.skb (setEthAddr ops env key mask st).2.skb := by
  unfold setEthAddr
  dsimp only
  split_ifs with hwritable
  · exact .refl order noRest st.skb
  · have hfit : ethHlen ≤ st.skb.len := ensureWritable_le (by simpa using hwritable)
    have hpulled : Rewritten [] (fun _ => False) st.skb (st.skb.postpullRcsum ops 0 12) :=
      rewritten_postpullRcsum ops _ st.skb 0 12
    rw [← hpulled.same.len, ethHlen] at hfit
    refine balanced_resummed hops h.complete rfl ?_
    refine .trans (balanced_put rfl (by omega) (Nat.zero_le 6) ?_) (balanced_put rfl ?_ le_rfl ?_)
    · rw [ovsMasked_length, SkBuff.bytes_length]
    · rw [SkbState.put_len]
      omega
    · rw [ovsMasked_length, SkBuff.bytes_length]
      omega

omit hops in
/-- What has been written is read again. -/
theorem bytes_put_self (hfit : off + new.length ≤ skb.len) : (skb.put off new).bytes off new.length = new := by
  apply List.ext_getElem
  · exact SkBuff.bytes_length ..
  · intro i hi hi'
    rw [SkBuff.bytes_length] at hi
    have hbyte := byteAt_bytes (skb.put off new).toSkBuff off hi
    rw [SkbState.put_u8_in ⟨Nat.le_add_right off i, by omega⟩ hfit, Nat.add_sub_cancel_left] at hbyte
    simpa [byteAt, hi] using hbyte

/-- The label stack entry is accounted for the wrong way round. -/
theorem balanced_setMpls (h : Placed st.skb) :
    Balanced order (fun skb => 2 * sumOver st.skb.mac_len 4 skb) st.skb (setMpls ops env key mask st).2.skb := by
  unfold setMpls
  dsimp only
  split_ifs with hwritable hsum
  · exact .refl order _ st.skb
  · have hfit := ensureWritable_le (n := st.skb.mac_len + mplsHlen) (by simpa using hwritable)
    unfold mplsHlen at hfit
    have hlse : (ovsMasked (st.skb.bytes st.skb.mac_len 4) (slice key 0 4) (slice mask 0 4)).length = 4 := by simp
    generalize ovsMasked (st.skb.bytes st.skb.mac_len 4) (slice key 0 4) (slice mask 0 4) = lse at hlse ⊢
    have hdrift := drift_put_diff hops h.mac_len (by omega : lse.length % 2 = 0) (by rwa [hlse])
    rw [hlse] at hdrift
    refine ⟨⟨st.skb.put_len _ _, rfl, rfl, rfl⟩, rfl, ?_⟩
    have hfit' : st.skb.mac_len + lse.length ≤ ({ st.skb with
        csum := ~~~ops.csum_partial ((st.skb.bytes st.skb.mac_len 4).map (~~~·) ++ lse) (~~~st.skb.csum) } :
        SkbState).len := by rwa [hlse]
    have hread := bytes_put_self hfit'
    rw [hlse] at hread
    dsimp only
    rw [hdrift, sumOver, sumOver, hread]
    ring
  · exact absurd h.complete hsum

/-! ### Any set action -/

/-- What makes up for the drift of a set action. -/
def setRest (attr : List (BitVec 8)) (skb : SkbState) : SkbState → OnesSum :=
  match setKey attr with
  | some (.ipv6, _) => sumOver skb.network_header 40
  | some (.udp, _) => udpRest skb
  | some (.sctp, _) => sumOver skb.transport_header 12
  | some (.mpls, _) => fun skb' => 2 * sumOver skb.mac_len 4 skb'
  | _ => noRest

/-- The change of an ethertype is told the wrong way round, if there is one. -/
def ethertypeSlip (ethernet : Bool) (before after : BitVec 16) : OnesSum :=
  if ethernet then 2 * (onesOf before - onesOf after) else 0

/-- **A set action accounts for what it changes** but for the fields of IPv6, the ports of SCTP and those of UDP
without a checksum, and it accounts for the negative where it sets a label. -/
theorem balanced_executeMaskedSetAction (h : Placed st.skb) {attr : List (BitVec 8)}
    (hbehind : ∀ data, setKey attr = some (.ipv6, data) →
      st.skb.network_header + 40 ≤ st.skb.transport_header) :
    Balanced order (setRest attr st.skb) st.skb (executeMaskedSetAction ops env attr st).2.skb := by
  unfold executeMaskedSetAction setRest
  cases hset : setKey attr with
  | none => exact .refl order noRest st.skb
  | some found =>
      obtain ⟨type, data⟩ := found
      have hmeta : ∀ skb' : SkbState, skb'.toSkBuff = st.skb.toSkBuff → skb'.ip_summed = st.skb.ip_summed →
          skb'.csum = st.skb.csum → Balanced order noRest st.skb skb' := by
        intro skb' hskb hsum hcsum
        refine balanced_of_drift ⟨?_, ?_, ?_, ?_⟩ hsum ?_
        · rw [hskb]
        · rw [hskb]
        · rw [hskb]
        · rw [hskb]
        · rw [SkbState.drift, SkbState.drift, hskb, hcsum]
      cases type with
      | priority => exact hmeta _ rfl rfl rfl
      | skbMark => exact hmeta _ rfl rfl rfl
      | ethernet => exact balanced_setEthAddr hops h
      | ipv4 => exact balanced_setIpv4 hops h
      | ipv6 => exact balanced_setIpv6 hops h (hbehind data hset)
      | tcp => exact balanced_setTcp hops h
      | udp => exact balanced_setUdp hops h
      | sctp => exact balanced_setSctp h
      | mpls => exact balanced_setMpls hops h
      | _ => exact .refl order noRest st.skb

end

/-! ### Functions that are right -/

/-- A number of so many bits for a sum. -/
def onesNumber (w : Nat) (x : OnesSum) : BitVec w := BitVec.ofNat w x.val

theorem onesOf_onesNumber {w : Nat} (hw : 16 ≤ w) (x : OnesSum) : onesOf (onesNumber w x) = x := by
  have hlt : x.val < 2 ^ w := (ZMod.val_lt x).trans (by
    have hpow := Nat.pow_le_pow_right (by decide : 0 < 2) hw
    omega)
  rw [onesOf, onesNumber, BitVec.toNat_ofNat, Nat.mod_eq_of_lt hlt, ZMod.natCast_zmod_val]

/-- The checksum functions of a machine with the byte order of the network. -/
def foldedOps : CsumOps where
  csum_partial bytes sum := onesNumber 32 (onesOf sum + byteSum bytes)
  csum_sub a b := onesNumber 32 (onesOf a - onesOf b)
  csum_replace check old new := onesNumber 16 (onesOf check + (byteSum old - byteSum new))
  inet_proto_csum_replace summed check old new pseudohdr :=
    if summed ≠ .checksumPartial then onesNumber 16 (onesOf check + (byteSum old - byteSum new))
    else if pseudohdr then onesNumber 16 (onesOf check - (byteSum old - byteSum new)) else check
  inet_proto_skb_csum summed csum old new pseudohdr :=
    if summed = .checksumComplete ∧ pseudohdr then onesNumber 32 (onesOf csum + (byteSum old - byteSum new)) else csum
  ipv4_change_dsfield check old new := onesNumber 16 (onesOf check + (onesOf old - onesOf new))
  sctp_compute_cksum _ _ := List.replicate 4 0
  sctp_compute_cksum_length _ _ := rfl
  ipv6_ext_hdr _ := false
  ipv6_find_hdr _ _ := 0

theorem foldedOps_sound : foldedOps.Sound 1 where
  csum_partial bytes sum _ := by
    rw [one_mul, one_mul]
    exact onesOf_onesNumber (by decide) _
  csum_sub a b := onesOf_onesNumber (by decide) _
  csum_replace check old new _ _ := onesOf_onesNumber (by decide) _
  inet_proto_csum_replace summed check old new pseudohdr hsummed _ _ := by
    refine (congrArg onesOf (if_pos hsummed)).trans ?_
    exact onesOf_onesNumber (by decide) _
  inet_proto_skb_csum csum old new pseudohdr _ _ := by
    rw [one_mul, one_mul]
    cases pseudohdr with
    | true => exact onesOf_onesNumber (by decide) _
    | false => exact (add_zero _).symm
  ipv4_change_dsfield check old new := onesOf_onesNumber (by decide) _

end OvsDatapath.Actions
