import OvsDatapath.Flow.Key

/-!
# Packet buffers

`struct sk_buff` as the datapath reads it: the bytes of the packet from the MAC header on, the VLAN
tag that the hardware has taken out of them, and the offsets of the headers. Headers in the packet
are in network byte order; a `__be16` is modelled by the number that `ntohs` makes of it.

What the kernel decides, whether there is memory to make bytes accessible or writable and where the
IPv6 extension headers end, is a parameter, `SkbEnv`.
-/

namespace OvsDatapath.Flow

/-- `struct sk_buff`. The offsets of the headers count from the MAC header. -/
structure SkBuff where
  data : List (BitVec 8)
  protocol : BitVec 16
  vlan_tci : BitVec 16
  vlan_proto : BitVec 16
  gso_udp : Bool
  mac_len : Nat
  network_header : Nat
  transport_header : Nat
  inner_network_header : Nat

/-- The answers of the kernel about one packet. -/
structure SkbEnv where
  /-- `pskb_may_pull`, for no more bytes than there are. -/
  may_pull : Nat → Bool
  /-- `skb_ensure_writable`, likewise. -/
  ensure_writable : Nat → Bool
  /-- `skb_linearize`, which returns an error if this is false. -/
  linearize : Bool
  /-- `ipv6_skip_exthdr`: the packet, the offset of the first extension header and its type; then
  the offset of the payload, negative if there is none, its type and the fragment offset field. -/
  ipv6_skip_exthdr : List (BitVec 8) → Nat → BitVec 8 → Int × BitVec 8 × BitVec 16
  /-- The headers are skipped forwards. -/
  le_ipv6_skip_exthdr : ∀ data start nexthdr, 0 ≤ (ipv6_skip_exthdr data start nexthdr).1 →
    (start : Int) ≤ (ipv6_skip_exthdr data start nexthdr).1

/-- `VLAN_TAG_PRESENT`. -/
def vlanTagPresent : BitVec 16 := 0x1000

/-- The flag for the presence of a tag is lost and found. -/
theorem vlanTagPresent_or {tci : BitVec 16} (h : tci &&& vlanTagPresent ≠ 0) :
    tci &&& ~~~vlanTagPresent ||| vlanTagPresent = tci := by
  have hbit : vlanTagPresent = BitVec.twoPow 16 12 := rfl
  have hset : tci.getLsbD 12 = true := by
    rw [hbit, BitVec.and_twoPow] at h
    by_contra hclear
    exact h (if_neg hclear)
  apply BitVec.eq_of_getLsbD_eq
  intro i hi
  rw [hbit, BitVec.getLsbD_or, BitVec.getLsbD_and, BitVec.getLsbD_not, BitVec.getLsbD_twoPow]
  by_cases h12 : 12 = i
  · subst h12
    simp [hset]
  · simp [hi, h12]

/-- `ETH_P_8021Q`. -/
def ethP8021q : BitVec 16 := 0x8100

/-- `ETH_P_8021AD`. -/
def ethP8021ad : BitVec 16 := 0x88A8

/-- `eth_type_vlan`. -/
def ethTypeVlan (ethertype : BitVec 16) : Bool := ethertype == ethP8021q || ethertype == ethP8021ad

/-- The bytes of a 16-bit number in network byte order. -/
def be16 (v : BitVec 16) : List (BitVec 8) := [(v >>> 8).setWidth 8, v.setWidth 8]

@[simp] theorem be16_length (v : BitVec 16) : (be16 v).length = 2 := rfl

namespace SkBuff

/-- `skb->len`, with `skb->data` at the MAC header. -/
def len (skb : SkBuff) : Nat := skb.data.length

/-- The byte at an offset. -/
def u8 (skb : SkBuff) (off : Nat) : BitVec 8 := skb.data.getD off 0

/-- The 16-bit field at an offset. -/
def be16At (skb : SkBuff) (off : Nat) : BitVec 16 := skb.u8 off ++ skb.u8 (off + 1)

/-- A number of bytes from an offset on. -/
def bytes (skb : SkBuff) (off n : Nat) : List (BitVec 8) := (List.range n).map fun i => skb.u8 (off + i)

@[simp] theorem bytes_length (skb : SkBuff) (off n : Nat) : (skb.bytes off n).length = n := by
  rw [bytes, List.length_map, List.length_range]

/-- `skb_vlan_tag_present`. -/
def vlanTagIsPresent (skb : SkBuff) : Bool := skb.vlan_tci &&& vlanTagPresent != 0

/-- `pskb_may_pull`. -/
def pskbMayPull (skb : SkBuff) (env : SkbEnv) (len : Nat) : Bool :=
  decide (len ≤ skb.len) && env.may_pull len

/-- `__vlan_hwaccel_put_tag`. -/
def vlanHwaccelPutTag (skb : SkBuff) (vlan_proto vlan_tci : BitVec 16) : SkBuff :=
  { skb with vlan_proto := vlan_proto, vlan_tci := vlanTagPresent ||| vlan_tci }

end SkBuff

/-- `ETH_HLEN`. -/
def ethHlen : Nat := 14

/-- `VLAN_ETH_HLEN`. -/
def vlanEthHlen : Nat := 18

/-- `__skb_vlan_pop`: take the tag after the addresses out of the packet. The type that the tag has
been in front of becomes `skb->protocol`, if it is one (`vlan_set_encap_proto`). -/
def skbVlanPopHeader (env : SkbEnv) (skb : SkBuff) : Int × SkBuff × BitVec 16 :=
  if skb.len < vlanEthHlen ∨ !env.ensure_writable vlanEthHlen then (enomem, skb, 0)
  else
    let tci := skb.be16At ethHlen
    let encap := skb.be16At (ethHlen + 2)
    -- a length and no type: the test for IPX reads the start of the frame
    let protocol := if encap ≥ 0x0600 then encap
      else if skb.be16At 0 = 0xFFFF then 0x0001 else 0x0004
    let network_header := if skb.network_header < vlanEthHlen then ethHlen
      else skb.network_header - 4
    (0, { skb with
          data := skb.data.take 12 ++ skb.data.drop 16
          protocol := protocol
          network_header := network_header
          mac_len := network_header }, tci)

end OvsDatapath.Flow
