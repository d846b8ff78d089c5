import Mathlib.Tactic

/-!
# The switch flow key

`struct sw_flow_key` (`flow.h`) as the machine holds it: a string of bytes. Several members lie in
unions, masks and lookups work on the key word by word, and packets of different kinds leave
different parts of it unwritten, so the bytes are the faithful view. A member is read at its
offset, in the byte order of a little-endian 64-bit machine.
-/

namespace OvsDatapath.Flow

/-- `sizeof(struct sw_flow_key)`. -/
abbrev swFlowKeySize : Nat := 464

/-- The bytes of a `struct sw_flow_key`. -/
abbrev SwFlowKey := Fin swFlowKeySize → BitVec 8

/-! ## Error numbers -/

/-- `-ENOMEM`. -/
def enomem : Int := -12

/-- `-EINVAL`. -/
def einval : Int := -22

/-- `-EPROTO`. -/
def eproto : Int := -71

/-! ## Members -/

/-- The two bytes of a 16-bit number. -/
theorem be16_bytes (v : BitVec 16) : (v >>> 8).setWidth 8 ++ v.setWidth 8 = v := by
  apply BitVec.eq_of_getLsbD_eq
  intro i hi
  rw [BitVec.getLsbD_append]
  by_cases h : i < 8
  · simp [h]
  · have heq : 8 + (i - 8) = i := by omega
    simp [h, heq]
    intro _
    omega

namespace SwFlowKey

/-- The byte at an offset. -/
def u8 (key : SwFlowKey) (off : Nat) : BitVec 8 :=
  if h : off < swFlowKeySize then key ⟨off, h⟩ else 0

/-- The 16-bit word at an offset. -/
def u16 (key : SwFlowKey) (off : Nat) : BitVec 16 := key.u8 (off + 1) ++ key.u8 off

/-- The 32-bit word at an offset. -/
def u32 (key : SwFlowKey) (off : Nat) : BitVec 32 := key.u16 (off + 2) ++ key.u16 off

/-- A 16-bit member in network order. -/
def be16 (key : SwFlowKey) (off : Nat) : BitVec 16 := key.u8 off ++ key.u8 (off + 1)

/-- The key with the byte at an offset replaced. -/
def setU8 (key : SwFlowKey) (off : Nat) (v : BitVec 8) : SwFlowKey :=
  fun j => if (j : Nat) = off then v else key j

/-- The key with the 32-bit word at an offset replaced. -/
def setU32 (key : SwFlowKey) (off : Nat) (v : BitVec 32) : SwFlowKey :=
  fun j => if off ≤ j ∧ (j : Nat) < off + 4 then (v >>> (8 * (j - off))).setWidth 8 else key j

/-- `key->mac_proto`, which also holds the flag `SW_FLOW_KEY_INVALID`. -/
def macProto (key : SwFlowKey) : BitVec 8 := key.u8 322

/-- Store into `key->mac_proto`. -/
def setMacProto (key : SwFlowKey) (v : BitVec 8) : SwFlowKey := key.setU8 322 v

/-- Store into `key->ovs_flow_hash`. -/
def setOvsFlowHash (key : SwFlowKey) (v : BitVec 32) : SwFlowKey := key.setU32 324 v

/-- `key->recirc_id`. -/
def recircId (key : SwFlowKey) : BitVec 32 := key.u32 328

/-- Store into `key->recirc_id`. -/
def setRecircId (key : SwFlowKey) (v : BitVec 32) : SwFlowKey := key.setU32 328 v

/-- `key->eth.type`. -/
def ethType (key : SwFlowKey) : BitVec 16 := key.be16 352

/-- `key->eth.vlan.tci`. -/
def vlanTci (key : SwFlowKey) : BitVec 16 := key.be16 346

/-- `key->eth.cvlan.tci`. -/
def cvlanTci (key : SwFlowKey) : BitVec 16 := key.be16 350

/-- `key->ip.proto`. -/
def ipProto (key : SwFlowKey) : BitVec 8 := key.u8 356

/-- `key->ip.frag`. -/
def ipFrag (key : SwFlowKey) : BitVec 8 := key.u8 359

/-- `key->tp.src`. -/
def tpSrc (key : SwFlowKey) : BitVec 16 := key.u16 362

/-- `key->tp.dst`. -/
def tpDst (key : SwFlowKey) : BitVec 16 := key.u16 364

/-- `key->ipv4.addr.src`; in a key of an IPv6 packet, the first word of the source address. -/
def ipv4Src (key : SwFlowKey) : BitVec 32 := key.u32 368

/-- `key->ipv4.addr.dst`; in a key of an IPv6 packet, the second word of the source address. -/
def ipv4Dst (key : SwFlowKey) : BitVec 32 := key.u32 372

end SwFlowKey

end OvsDatapath.Flow
