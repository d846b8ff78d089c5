import OvsDatapath.Actions.SetFields
import OvsDatapath.Lib.MaskedWrite
import OvsDatapath.Lib.Patch

/-!
# Rewriting fields of a packet

`Rewritten fields stray skb skb'` says that a function has written some fields of a packet under their
masks, may have written the bytes of `stray` (checksums), and has kept the rest of the packet and of its
metadata but for the hash and the state of the checksum. It holds of each of the helpers of a set action.
-/

namespace OvsDatapath.Actions

open OvsDatapath.Lib OvsDatapath.Flow

variable {ops : CsumOps} {env : SkbEnv} {skb skb' skb'' : SkbState} {st st' : SetState}
variable {stray stray' : Nat → Prop} {off n j : Nat} {key mask bytes : List (BitVec 8)}

/-- One of some bytes from an offset on. -/
def Spans (off n j : Nat) : Prop := off ≤ j ∧ j < off + n

instance (off n j : Nat) : Decidable (Spans off n j) := inferInstanceAs (Decidable (_ ∧ _))

/-! ## Writing into the packet -/

namespace SkbState

@[simp] theorem put_len (skb : SkbState) (off : Nat) (bytes : List (BitVec 8)) :
    (skb.put off bytes).len = skb.len := patch_length skb.data off bytes

/-- A byte that has been written. -/
theorem put_u8_in (hj : Spans off bytes.length j) (hfit : off + bytes.length ≤ skb.len) :
    (skb.put off bytes).u8 j = byteAt bytes (j - off) := by
  obtain ⟨hle, hlt⟩ := hj
  exact patch_getD_of_inside hle (by omega) (hlt.trans_le hfit)

theorem put_u8_out (hj : ¬ Spans off bytes.length j) : (skb.put off bytes).u8 j = skb.u8 j := by
  apply patch_getD_of_outside
  unfold Spans at hj
  omega

end SkbState

/-- A byte of a run of bytes. -/
theorem byteAt_bytes (skb : SkBuff) (off : Nat) {n i : Nat} (hi : i < n) :
    byteAt (skb.bytes off n) i = skb.u8 (off + i) := by
  simp [byteAt, SkBuff.bytes, hi]

theorem byteAt_slice (l : List (BitVec 8)) (off : Nat) {n i : Nat} (hi : i < n) :
    byteAt (slice l off n) i = byteAt l (off + i) := by
  simp [byteAt, slice, hi]

/-- The same packet buffer but for the bytes of the packet, the hash and the checksum. -/
structure SameBut (skb skb' : SkbState) : Prop where
  len : skb'.len = skb.len
  protocol : skb'.protocol = skb.protocol
  vlan_tci : skb'.vlan_tci = skb.vlan_tci
  vlan_proto : skb'.vlan_proto = skb.vlan_proto
  gso_udp : skb'.gso_udp = skb.gso_udp
  mac_len : skb'.mac_len = skb.mac_len
  network_header : skb'.network_header = skb.network_header
  transport_header : skb'.transport_header = skb.transport_header
  inner_network_header : skb'.inner_network_header = skb.inner_network_header
  csum_start : skb'.csum_start = skb.csum_start
  priority : skb'.priority = skb.priority
  mark : skb'.mark = skb.mark

theorem SameBut.refl (skb : SkbState) : SameBut skb skb :=
  ⟨rfl, rfl, rfl, rfl, rfl, rfl, rfl, rfl, rfl, rfl, rfl, rfl⟩

theorem SameBut.trans (h : SameBut skb skb') (h' : SameBut skb' skb'') : SameBut skb skb'' where
  len := h'.len.trans h.len
  protocol := h'.protocol.trans h.protocol
  vlan_tci := h'.vlan_tci.trans h.vlan_tci
  vlan_proto := h'.vlan_proto.trans h.vlan_proto
  gso_udp := h'.gso_udp.trans h.gso_udp
  mac_len := h'.mac_len.trans h.mac_len
  network_header := h'.network_header.trans h.network_header
  transport_header := h'.transport_header.trans h.transport_header
  inner_network_header := h'.inner_network_header.trans h.inner_network_header
  csum_start := h'.csum_start.trans h.csum_start
  priority := h'.priority.trans h.priority
  mark := h'.mark.trans h.mark

/-- Some fields have been written, other bytes may have gone astray, and the packet buffer is the same
but for the hash and the checksum. -/
structure Rewritten (fields : List MaskedField) (stray : Nat → Prop) (skb skb' : SkbState) : Prop where
  fields : FieldsWritten fields stray skb.u8 skb'.u8
  same : SameBut skb skb'

theorem Rewritten.refl (stray : Nat → Prop) (skb : SkbState) : Rewritten [] stray skb skb :=
  ⟨.nil fun _ _ => rfl, .refl skb⟩

theorem Rewritten.mono {fields : List MaskedField} (h : Rewritten fields stray skb skb')
    (hle : ∀ j, stray j → stray' j) : Rewritten fields stray' skb skb' := ⟨h.fields.mono hle, h.same⟩

theorem Rewritten.u8 (h : Rewritten [] stray skb skb') (hj : ¬ stray j) : skb'.u8 j = skb.u8 j :=
  h.fields.frame j nofun hj

/-- First nothing but what may go astray is written, then some fields. -/
theorem Rewritten.after {fields : List MaskedField} (h : Rewritten [] stray skb skb')
    (hrest : Rewritten fields stray skb' skb'') (hstray : ∀ f ∈ fields, ∀ j, f.Covers j → ¬ stray j) :
    Rewritten fields stray skb skb'' := by
  refine ⟨⟨fun f hf j hj => ?_, fun j hnone hnot => ?_⟩, h.same.trans hrest.same⟩
  · rw [hrest.fields.written f hf j hj, h.u8 (hstray f hf j hj)]
  · rw [hrest.fields.frame j hnone hnot, h.u8 hnot]

/-- First some fields are written, then nothing but what may go astray. -/
theorem Rewritten.before {fields : List MaskedField} (h : Rewritten fields stray skb skb')
    (hrest : Rewritten [] stray skb' skb'') (hstray : ∀ f ∈ fields, ∀ j, f.Covers j → ¬ stray j) :
    Rewritten fields stray skb skb'' := by
  refine ⟨⟨fun f hf j hj => ?_, fun j hnone hnot => ?_⟩, h.same.trans hrest.same⟩
  · rw [hrest.u8 (hstray f hf j hj)]
    exact h.fields.written f hf j hj
  · rw [hrest.u8 hnot]
    exact h.fields.frame j hnone hnot

theorem Rewritten.trans_nil (h : Rewritten [] stray skb skb') (h' : Rewritten [] stray skb' skb'') :
    Rewritten [] stray skb skb'' := h.after h' nofun

/-- One field is written, and then the others. -/
theorem Rewritten.cons {f : MaskedField} {rest : List MaskedField} (h : Rewritten [f] stray skb skb')
    (hrest : Rewritten rest stray skb' skb'') (hdisjoint : ∀ g ∈ rest, ∀ j, f.Covers j → ¬ g.Covers j)
    (hstray : ∀ g ∈ f :: rest, ∀ j, g.Covers j → ¬ stray j) : Rewritten (f :: rest) stray skb skb'' :=
  ⟨h.fields.cons hrest.fields hdisjoint (hstray f List.mem_cons_self)
    fun g hg => hstray g (List.mem_cons_of_mem _ hg), h.same.trans hrest.same⟩

/-! ## What is written by the helpers -/

theorem sameBut_put (skb : SkbState) (off : Nat) (bytes : List (BitVec 8)) : SameBut skb (skb.put off bytes) :=
  ⟨skb.put_len off bytes, rfl, rfl, rfl, rfl, rfl, rfl, rfl, rfl, rfl, rfl, rfl⟩

/-- Bytes that may go astray. -/
theorem rewritten_put (skb : SkbState) (bytes : List (BitVec 8))
    (hstray : ∀ j, Spans off bytes.length j → stray j) : Rewritten [] stray skb (skb.put off bytes) :=
  ⟨.nil fun j hj => SkbState.put_u8_out fun hin => hj (hstray j hin), sameBut_put skb off bytes⟩

theorem rewritten_clearHash (skb : SkbState) : Rewritten [] stray skb skb.clearHash :=
  ⟨.nil fun _ _ => rfl, ⟨rfl, rfl, rfl, rfl, rfl, rfl, rfl, rfl, rfl, rfl, rfl, rfl⟩⟩

theorem rewritten_postpullRcsum (ops : CsumOps) (stray : Nat → Prop) (skb : SkbState) (start len : Nat) :
    Rewritten [] stray skb (skb.postpullRcsum ops start len) := by
  unfold SkbState.postpullRcsum
  split
  · exact ⟨.nil fun _ _ => rfl, ⟨rfl, rfl, rfl, rfl, rfl, rfl, rfl, rfl, rfl, rfl, rfl, rfl⟩⟩
  · split_ifs
    · exact ⟨.nil fun _ _ => rfl, ⟨rfl, rfl, rfl, rfl, rfl, rfl, rfl, rfl, rfl, rfl, rfl, rfl⟩⟩
    · exact .refl _ skb
  · exact .refl _ skb

theorem rewritten_postpushRcsum (ops : CsumOps) (stray : Nat → Prop) (skb : SkbState) (start len : Nat) :
    Rewritten [] stray skb (skb.postpushRcsum ops start len) := by
  unfold SkbState.postpushRcsum
  split
  · exact ⟨.nil fun _ _ => rfl, ⟨rfl, rfl, rfl, rfl, rfl, rfl, rfl, rfl, rfl, rfl, rfl, rfl⟩⟩
  · exact .refl _ skb

theorem rewritten_inetProtoCsumReplace (ops : CsumOps) (skb : SkbState) {check : Nat}
    (hstray : ∀ j, Spans check 2 j → stray j)
    (old new : List (BitVec 8)) (pseudohdr : Bool) :
    Rewritten [] stray skb (skb.inetProtoCsumReplace ops check old new pseudohdr) := by
  have hput := rewritten_put skb
    (be16 (ops.inet_proto_csum_replace skb.ip_summed (skb.be16At check) old new pseudohdr))
    hstray
  exact ⟨hput.fields, ⟨hput.same.len, rfl, rfl, rfl, rfl, rfl, rfl, rfl, rfl, rfl, rfl, rfl⟩⟩

/-- What is outside the mask is not written. -/
def WithinMask (key mask : List (BitVec 8)) : Prop := ∀ i, byteAt key i &&& ~~~byteAt mask i = 0

theorem byteAt_ovsMasked (h : WithinMask key mask) (old : List (BitVec 8)) {i : Nat} (hi : i < old.length) :
    byteAt (ovsMasked old key mask) i = maskedBits (byteAt old i) (byteAt key i) (byteAt mask i) := by
  rw [← or_eq_maskedBits _ (h i)]
  simp [byteAt, ovsMasked, hi]

/-- The value of a field under its mask. -/
theorem rewritten_put_masked (off n : Nat) (hkey : WithinMask key mask) (hlen : key.length = n)
    (hfit : off + n ≤ skb.len)
    (h : Rewritten [] stray skb skb') :
    Rewritten [⟨off, key, mask⟩] stray skb (skb'.put off (ovsMasked (skb.bytes off n) key mask)) := by
  subst hlen
  have hwidth : (ovsMasked (skb.bytes off key.length) key mask).length = key.length := by simp
  refine ⟨⟨fun f hf j hj => ?_, fun j hnone hnot => ?_⟩, h.same.trans (sameBut_put ..)⟩
  · obtain rfl := List.mem_singleton.mp hf
    have hin : j - off < key.length := by
      have := hj.1
      have := hj.2
      dsimp only at *
      omega
    rw [SkbState.put_u8_in (hwidth.symm ▸ hj) (by rw [hwidth, h.same.len]; exact hfit),
      byteAt_ovsMasked hkey _ (by simpa using hin), byteAt_bytes _ _ hin, Nat.add_sub_cancel' hj.1]
    rfl
  · rw [SkbState.put_u8_out, h.u8 hnot]
    rw [hwidth]
    exact hnone _ List.mem_cons_self

/-- With an empty mask there is nothing to write. -/
theorem rewritten_of_empty (h : mask.all (· == 0) = true) (skb : SkbState) :
    Rewritten [⟨off, key, mask⟩] stray skb skb := by
  have hzero : ∀ i, mask.getD i 0 = 0 := by
    intro i
    by_cases hi : i < mask.length
    · have hbyte := eq_of_beq (List.all_eq_true.mp h _ (List.getElem_mem hi))
      simpa [hi] using hbyte
    · simp [hi]
  refine ⟨⟨fun f hf j hj => ?_, fun j _ _ => rfl⟩, .refl skb⟩
  obtain rfl := List.mem_singleton.mp hf
  rw [MaskedField.byte, hzero, maskedBits_zero]

/-- A field that has its value already. -/
theorem rewritten_of_unchanged (hkey : WithinMask key mask) (hlen : key.length = n)
    (h : ovsMasked (skb.bytes off n) key mask = skb.bytes off n) : Rewritten [⟨off, key, mask⟩] stray skb skb := by
  subst hlen
  refine ⟨⟨fun f hf j hj => ?_, fun j _ _ => rfl⟩, .refl skb⟩
  obtain rfl := List.mem_singleton.mp hf
  have hin : j - off < key.length := by
    have := hj.1
    have := hj.2
    dsimp only at *
    omega
  have hbyte := byteAt_ovsMasked hkey (skb.bytes off key.length) (by simpa using hin)
  rw [h, byteAt_bytes _ _ hin, Nat.add_sub_cancel' hj.1] at hbyte
  exact hbyte

/-! ## Checksums of transport headers -/

theorem rewritten_updateUdpCheck {check : Nat} (hstray : ∀ j, Spans check 2 j → stray j)
    (addr new_addr : List (BitVec 8)) : Rewritten [] stray skb (updateUdpCheck ops skb check addr new_addr) := by
  unfold updateUdpCheck
  split_ifs
  · have hreplace := rewritten_inetProtoCsumReplace ops skb hstray addr new_addr true
    dsimp only
    split_ifs
    · exact hreplace.trans_nil (rewritten_put _ _ hstray)
    · exact hreplace
  · exact .refl _ skb

/-- The checksum of the transport header of an IPv4 packet, if the header is at an offset. -/
def IpL4Check (skb : SkBuff) (th j : Nat) : Prop :=
  skb.be16At (skb.network_header + 6) &&& ipOffset = 0 ∧
    (skb.u8 (skb.network_header + 9) = ipprotoTcp ∧ Spans (th + 16) 2 j ∨
      skb.u8 (skb.network_header + 9) = ipprotoUdp ∧ Spans (th + 6) 2 j)

theorem rewritten_updateIpL4Checksum (hstray : ∀ j, IpL4Check skb.toSkBuff skb.transport_header j → stray j)
    (addr new_addr : List (BitVec 8)) :
    Rewritten [] stray skb (updateIpL4Checksum ops skb addr new_addr) := by
  unfold updateIpL4Checksum
  dsimp only
  split_ifs with hfrag htcp hlen hudp hlen
  · exact .refl _ skb
  · exact rewritten_inetProtoCsumReplace ops skb (fun j hj => hstray j ⟨not_not.mp hfrag, .inl ⟨htcp, hj⟩⟩) ..
  · exact .refl _ skb
  · exact rewritten_updateUdpCheck (fun j hj => hstray j ⟨not_not.mp hfrag, .inr ⟨hudp, hj⟩⟩) ..
  · exact .refl _ skb
  · exact .refl _ skb

/-- The checksum of a transport header of an IPv6 packet, if the header is at an offset. -/
def Ipv6L4Check (th : Nat) (l4_proto : BitVec 8) (j : Nat) : Prop :=
  l4_proto = ipprotoTcp ∧ Spans (th + 16) 2 j ∨ l4_proto = ipprotoUdp ∧ Spans (th + 6) 2 j ∨
    l4_proto = nexthdrIcmp ∧ Spans (th + 2) 2 j

theorem rewritten_updateIpv6Checksum {l4_proto : BitVec 8}
    (hstray : ∀ j, Ipv6L4Check skb.transport_header l4_proto j → stray j) (addr new_addr : List (BitVec 8)) :
    Rewritten [] stray skb (updateIpv6Checksum ops skb l4_proto addr new_addr) := by
  unfold updateIpv6Checksum
  dsimp only
  split_ifs with htcp hlen hudp hlen hicmp hlen
  · exact rewritten_inetProtoCsumReplace ops skb (fun j hj => hstray j (.inl ⟨htcp, hj⟩)) ..
  · exact .refl _ skb
  · exact rewritten_updateUdpCheck (fun j hj => hstray j (.inr (.inl ⟨hudp, hj⟩))) ..
  · exact .refl _ skb
  · exact rewritten_inetProtoCsumReplace ops skb (fun j hj => hstray j (.inr (.inr ⟨hicmp, hj⟩))) ..
  · exact .refl _ skb
  · exact .refl _ skb

end OvsDatapath.Actions
