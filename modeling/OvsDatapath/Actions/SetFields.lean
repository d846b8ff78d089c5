import OvsDatapath.Actions.CopyActions
import OvsDatapath.Flow.KeyExtract

/-!
# Set actions

`execute_masked_set_action` and the functions that rewrite a header each. A header is written in place, at
the offsets that the packet buffer keeps of its headers, and the flow key is updated along with it. The
checksums are updated for what has changed and not computed again.

The arithmetic of the checksums is the kernel's and a parameter, `CsumOps`. Values are runs of bytes in
the order in which they lie in the packet, so that nothing depends on the order of the machine.
-/

namespace OvsDatapath.Actions

open OvsDatapath.Lib OvsDatapath.Flow

/-- `skb->ip_summed`. -/
inductive IpSummed where
  | checksumNone
  | checksumUnnecessary
  | checksumComplete
  | checksumPartial
  deriving DecidableEq, Repr

/-- A packet buffer with what set actions read and write besides the packet. -/
structure SkbState extends SkBuff where
  ip_summed : IpSummed
  csum : BitVec 32
  /-- `skb_checksum_start_offset`. -/
  csum_start : Int
  hash : BitVec 32
  l4_hash : Bool
  priority : BitVec 32
  mark : BitVec 32

/-- The functions of the kernel for checksums and IPv6 headers. -/
structure CsumOps where
  csum_partial : List (BitVec 8) → BitVec 32 → BitVec 32
  csum_sub : BitVec 32 → BitVec 32 → BitVec 32
  /-- `csum_replace2` and `csum_replace4`: the checksum, the bytes to be replaced and those in their
  place. -/
  csum_replace : BitVec 16 → List (BitVec 8) → List (BitVec 8) → BitVec 16
  /-- `inet_proto_csum_replace2`, `inet_proto_csum_replace4` and `inet_proto_csum_replace16`, as far as
  they change the checksum in the packet; the last argument is `pseudohdr`. -/
  inet_proto_csum_replace : IpSummed → BitVec 16 → List (BitVec 8) → List (BitVec 8) → Bool → BitVec 16
  /-- The same functions, as far as they change `skb->csum`. -/
  inet_proto_skb_csum : IpSummed → BitVec 32 → List (BitVec 8) → List (BitVec 8) → Bool → BitVec 32
  /-- `ipv4_change_dsfield`, as far as it changes the checksum: the old and the new field. -/
  ipv4_change_dsfield : BitVec 16 → BitVec 8 → BitVec 8 → BitVec 16
  /-- `sctp_compute_cksum` of a packet, from an offset on. -/
  sctp_compute_cksum : List (BitVec 8) → Nat → List (BitVec 8)
  sctp_compute_cksum_length : ∀ data off, (sctp_compute_cksum data off).length = 4
  ipv6_ext_hdr : BitVec 8 → Bool
  /-- `ipv6_find_hdr` for a routing header with segments left, in a packet whose network header is at an
  offset. -/
  ipv6_find_hdr : List (BitVec 8) → Nat → Int

/-- `OVS_MASKED`, byte by byte. -/
def ovsMasked (old key mask : List (BitVec 8)) : List (BitVec 8) :=
  old.mapIdx fun i b => byteAt key i ||| (b &&& ~~~byteAt mask i)

@[simp] theorem ovsMasked_length (old key mask : List (BitVec 8)) :
    (ovsMasked old key mask).length = old.length := List.length_mapIdx

/-- `CSUM_MANGLED_0`. -/
def csumMangled0 : BitVec 16 := 0xFFFF

/-- `NEXTHDR_ROUTING`. -/
def nexthdrRouting : Int := 43

/-- `IPV6_FLOWINFO_FLOWLABEL`, as far as it lies in the byte that it shares. -/
def flowLabelHigh : BitVec 8 := 0x0F

namespace SkbState

/-- `skb_ensure_writable`. -/
def ensureWritable (skb : SkbState) (env : SkbEnv) (len : Nat) : Bool :=
  decide (len ≤ skb.len) && env.ensure_writable len

/-- Write bytes into the packet. What would lie behind its end is not a part of it. -/
def put (skb : SkbState) (off : Nat) (bytes : List (BitVec 8)) : SkbState :=
  { skb with data := skb.data.mapIdx fun j b => if off ≤ j then bytes.getD (j - off) b else b }

/-- `skb_clear_hash`. -/
def clearHash (skb : SkbState) : SkbState := { skb with hash := 0, l4_hash := false }

/-- `skb_postpull_rcsum`. -/
def postpullRcsum (ops : CsumOps) (skb : SkbState) (start len : Nat) : SkbState :=
  match skb.ip_summed with
  | .checksumComplete =>
      { skb with csum := ops.csum_sub skb.csum (ops.csum_partial (skb.bytes start len) 0) }
  | .checksumPartial => if skb.csum_start < 0 then { skb with ip_summed := .checksumNone } else skb
  | _ => skb

/-- `skb_postpush_rcsum`. -/
def postpushRcsum (ops : CsumOps) (skb : SkbState) (start len : Nat) : SkbState :=
  match skb.ip_summed with
  | .checksumComplete => { skb with csum := ops.csum_partial (skb.bytes start len) skb.csum }
  | _ => skb

/-- `inet_proto_csum_replace2`, `inet_proto_csum_replace4` and `inet_proto_csum_replace16`, for the
checksum at an offset. -/
def inetProtoCsumReplace (ops : CsumOps) (skb : SkbState) (check : Nat) (old new : List (BitVec 8))
    (pseudohdr : Bool) : SkbState :=
  { skb.put check
      (be16 (ops.inet_proto_csum_replace skb.ip_summed (skb.be16At check) old new pseudohdr)) with
    csum := ops.inet_proto_skb_csum skb.ip_summed skb.csum old new pseudohdr }

/-- Whether the transport header is not shorter than a length. The length of what is there is an `int`
that is compared with a `size_t`, so one below zero passes. -/
def transportLenGe (skb : SkbState) (len : Nat) : Bool :=
  decide (skb.len < skb.transport_header ∨ skb.transport_header + len ≤ skb.len)

end SkbState

/-- A packet, and the flow key that goes with it. -/
structure SetState where
  skb : SkbState
  flow_key : SwFlowKey

variable (ops : CsumOps)

/-! ## Ethernet and MPLS -/

/-- `set_eth_addr`. -/
def setEthAddr (env : SkbEnv) (key mask : List (BitVec 8)) (st : SetState) : Int × SetState :=
  if !st.skb.ensureWritable env ethHlen then (enomem, st)
  else
    let skb := st.skb.postpullRcsum ops 0 12
    let skb := skb.put 6 (ovsMasked (skb.bytes 6 6) (slice key 0 6) (slice mask 0 6))
    let skb := skb.put 0 (ovsMasked (skb.bytes 0 6) (slice key 6 6) (slice mask 6 6))
    let skb := skb.postpushRcsum ops 0 12
    (0, ⟨skb, st.flow_key.store [⟨332, skb.bytes 6 6⟩, ⟨338, skb.bytes 0 6⟩]⟩)

/-- `set_mpls`. -/
def setMpls (env : SkbEnv) (key mask : List (BitVec 8)) (st : SetState) : Int × SetState :=
  let stack := st.skb.mac_len
  if !st.skb.ensureWritable env (stack + mplsHlen) then (enomem, st)
  else
    let old := st.skb.bytes stack 4
    let lse := ovsMasked old (slice key 0 4) (slice mask 0 4)
    let csum := if st.skb.ip_summed = .checksumComplete
      then ~~~ops.csum_partial (old.map (~~~·) ++ lse) (~~~st.skb.csum) else st.skb.csum
    (0, ⟨{ st.skb with csum := csum }.put stack lse, st.flow_key.store [⟨356, lse⟩]⟩)

/-! ## IPv4 -/

/-- The checksum of a UDP header is updated if there is one, and then it is not zero. -/
def updateUdpCheck (skb : SkbState) (check : Nat) (addr new_addr : List (BitVec 8)) : SkbState :=
  if skb.be16At check ≠ 0 ∨ skb.ip_summed = .checksumPartial then
    let skb := skb.inetProtoCsumReplace ops check addr new_addr true
    if skb.be16At check = 0 then skb.put check (be16 csumMangled0) else skb
  else skb

/-- `update_ip_l4_checksum`. -/
def updateIpL4Checksum (skb : SkbState) (addr new_addr : List (BitVec 8)) : SkbState :=
  let nh := skb.network_header
  let th := skb.transport_header
  if skb.be16At (nh + 6) &&& ipOffset ≠ 0 then skb
  else if skb.u8 (nh + 9) = ipprotoTcp then
    if skb.transportLenGe 20 then skb.inetProtoCsumReplace ops (th + 16) addr new_addr true else skb
  else if skb.u8 (nh + 9) = ipprotoUdp then
    if skb.transportLenGe 8 then updateUdpCheck ops skb (th + 6) addr new_addr else skb
  else skb

/-- `set_ip_addr`, for the address at an offset. -/
def setIpAddr (skb : SkbState) (addr : Nat) (new_addr : List (BitVec 8)) : SkbState :=
  let check := skb.network_header + 10
  let skb := updateIpL4Checksum ops skb (skb.bytes addr 4) new_addr
  let skb := skb.put check (be16 (ops.csum_replace (skb.be16At check) (skb.bytes addr 4) new_addr))
  skb.clearHash.put addr new_addr

/-- The part of `set_ipv4` for one of the addresses: its offsets in the packet and in the flow key. -/
def setIpv4Addr (addr member : Nat) (key mask : List (BitVec 8)) (st : SetState) : SetState :=
  if mask.all (· == 0) then st
  else
    let new_addr := ovsMasked (st.skb.bytes addr 4) key mask
    if new_addr = st.skb.bytes addr 4 then st
    else ⟨setIpAddr ops st.skb addr new_addr, st.flow_key.store [⟨member, new_addr⟩]⟩

/-- The part of `set_ipv4` for the type of service, with `ipv4_change_dsfield`. -/
def setIpv4Tos (key mask : BitVec 8) (st : SetState) : SetState :=
  if mask = 0 then st
  else
    let nh := st.skb.network_header
    let old := st.skb.u8 (nh + 1)
    let dsfield := (old &&& ~~~mask) ||| key
    let skb := st.skb.put (nh + 10) (be16 (ops.ipv4_change_dsfield (st.skb.be16At (nh + 10)) old dsfield))
    ⟨skb.put (nh + 1) [dsfield], st.flow_key.store [⟨357, [dsfield]⟩]⟩

/-- The part of `set_ipv4` for the time to live, with `set_ip_ttl`. -/
def setIpv4Ttl (key mask : BitVec 8) (st : SetState) : SetState :=
  if mask = 0 then st
  else
    let nh := st.skb.network_header
    let old := st.skb.u8 (nh + 8)
    let new_ttl := key ||| (old &&& ~~~mask)
    let skb := st.skb.put (nh + 10) (be16 (ops.csum_replace (st.skb.be16At (nh + 10)) [old, 0] [new_ttl, 0]))
    ⟨skb.put (nh + 8) [new_ttl], st.flow_key.store [⟨358, [new_ttl]⟩]⟩

/-- `set_ipv4`. -/
def setIpv4 (env : SkbEnv) (key mask : List (BitVec 8)) (st : SetState) : Int × SetState :=
  let nh := st.skb.network_header
  if !st.skb.ensureWritable env (nh + 20) then (enomem, st)
  else
    let st := setIpv4Addr ops (nh + 12) 368 (slice key 0 4) (slice mask 0 4) st
    let st := setIpv4Addr ops (nh + 16) 372 (slice key 4 4) (slice mask 4 4) st
    let st := setIpv4Tos ops (byteAt key 9) (byteAt mask 9) st
    let st := setIpv4Ttl ops (byteAt key 10) (byteAt mask 10) st
    (0, st)

/-! ## IPv6 -/

/-- `update_ipv6_checksum`. -/
def updateIpv6Checksum (skb : SkbState) (l4_proto : BitVec 8) (addr new_addr : List (BitVec 8)) : SkbState :=
  let th := skb.transport_header
  if l4_proto = ipprotoTcp then
    if skb.transportLenGe 20 then skb.inetProtoCsumReplace ops (th + 16) addr new_addr true else skb
  else if l4_proto = ipprotoUdp then
    if skb.transportLenGe 8 then updateUdpCheck ops skb (th + 6) addr new_addr else skb
  else if l4_proto = nexthdrIcmp then
    if skb.transportLenGe 8 then skb.inetProtoCsumReplace ops (th + 2) addr new_addr true else skb
  else skb

/-- `set_ipv6_addr`, for the address at an offset. -/
def setIpv6Addr (skb : SkbState) (l4_proto : BitVec 8) (addr : Nat) (new_addr : List (BitVec 8))
    (recalculate_csum : Bool) : SkbState :=
  let skb := if recalculate_csum
    then updateIpv6Checksum ops skb l4_proto (skb.bytes addr 16) new_addr else skb
  skb.clearHash.put addr new_addr

/-- Whether a new destination address changes the checksum: not if a routing header leads on to another
one. -/
def recalcCsum (skb : SkbState) : Bool :=
  !ops.ipv6_ext_hdr (skb.u8 (skb.network_header + 6)) ||
    decide (ops.ipv6_find_hdr skb.data skb.network_header ≠ nexthdrRouting)

/-- The part of `set_ipv6` for one of the addresses. -/
def setIpv6Address (addr member : Nat) (recalc_csum : SkbState → Bool) (key mask : List (BitVec 8))
    (st : SetState) : SetState :=
  if mask.all (· == 0) then st
  else
    let masked := ovsMasked (st.skb.bytes addr 16) key mask
    if masked = st.skb.bytes addr 16 then st
    else ⟨setIpv6Addr ops st.skb st.flow_key.ipProto addr masked (recalc_csum st.skb),
      st.flow_key.store [⟨member, masked⟩]⟩

/-- The part of `set_ipv6` for the traffic class, with `ipv6_change_dsfield`. -/
def setIpv6Tclass (key mask : BitVec 8) (st : SetState) : SetState :=
  if mask = 0 then st
  else
    let nh := st.skb.network_header
    let word := st.skb.be16At nh &&& (((~~~mask).setWidth 16 <<< 4) ||| 0xF00F) ||| (key.setWidth 16 <<< 4)
    ⟨st.skb.put nh (be16 word), st.flow_key.store [⟨357, [(word >>> 4).setWidth 8]⟩]⟩

/-- The part of `set_ipv6` for the flow label, with `set_ipv6_fl`. -/
def setIpv6Label (key mask : List (BitVec 8)) (st : SetState) : SetState :=
  if mask.all (· == 0) then st
  else
    let nh := st.skb.network_header
    let flow_lbl := ovsMasked (st.skb.bytes (nh + 1) 3) (slice key 1 3) (slice mask 1 3)
    ⟨st.skb.put (nh + 1) flow_lbl,
      st.flow_key.store [⟨400, [0, byteAt flow_lbl 0 &&& flowLabelHigh, byteAt flow_lbl 1, byteAt flow_lbl 2]⟩]⟩

/-- The part of `set_ipv6` for the hop limit. -/
def setIpv6Hlimit (key mask : BitVec 8) (st : SetState) : SetState :=
  if mask = 0 then st
  else
    let nh := st.skb.network_header
    let hop_limit := key ||| (st.skb.u8 (nh + 7) &&& ~~~mask)
    ⟨st.skb.put (nh + 7) [hop_limit], st.flow_key.store [⟨358, [hop_limit]⟩]⟩

/-- `set_ipv6`. -/
def setIpv6 (env : SkbEnv) (key mask : List (BitVec 8)) (st : SetState) : Int × SetState :=
  let nh := st.skb.network_header
  if !st.skb.ensureWritable env (nh + 40) then (enomem, st)
  else
    let st := setIpv6Address ops (nh + 8) 368 (fun _ => true) (slice key 0 16) (slice mask 0 16) st
    let st := setIpv6Address ops (nh + 24) 384 (recalcCsum ops) (slice key 16 16) (slice mask 16 16) st
    let st := setIpv6Tclass (byteAt key 37) (byteAt mask 37) st
    let st := setIpv6Label (slice key 32 4) (slice mask 32 4) st
    let st := setIpv6Hlimit (byteAt key 38) (byteAt mask 38) st
    (0, st)

/-! ## Transport headers -/

/-- `set_tp_port`, for the port and the checksum at some offsets. -/
def setTpPort (skb : SkbState) (port : Nat) (new_port : List (BitVec 8)) (check : Nat) : SkbState :=
  (skb.inetProtoCsumReplace ops check (skb.bytes port 2) new_port false).put port new_port

/-- The part of `set_tcp` and `set_udp` for a port that has changed. -/
def setChangedPort (port member : Nat) (new_port : List (BitVec 8)) (check : Nat) (st : SetState) : SetState :=
  if new_port = st.skb.bytes port 2 then st
  else ⟨setTpPort ops st.skb port new_port check, st.flow_key.store [⟨member, new_port⟩]⟩

/-- `set_udp`. -/
def setUdp (env : SkbEnv) (key mask : List (BitVec 8)) (st : SetState) : Int × SetState :=
  let th := st.skb.transport_header
  if !st.skb.ensureWritable env (th + 8) then (enomem, st)
  else
    let src := ovsMasked (st.skb.bytes th 2) (slice key 0 2) (slice mask 0 2)
    let dst := ovsMasked (st.skb.bytes (th + 2) 2) (slice key 2 2) (slice mask 2 2)
    let st := if st.skb.be16At (th + 6) ≠ 0 ∧ st.skb.ip_summed ≠ .checksumPartial then
        let st := setChangedPort ops th 362 src (th + 6) st
        let st := setChangedPort ops (th + 2) 364 dst (th + 6) st
        if st.skb.be16At (th + 6) = 0 then { st with skb := st.skb.put (th + 6) (be16 csumMangled0) } else st
      else
        ⟨(st.skb.put th src).put (th + 2) dst, st.flow_key.store [⟨362, src⟩, ⟨364, dst⟩]⟩
    (0, { st with skb := st.skb.clearHash })

/-- `set_tcp`. -/
def setTcp (env : SkbEnv) (key mask : List (BitVec 8)) (st : SetState) : Int × SetState :=
  let th := st.skb.transport_header
  if !st.skb.ensureWritable env (th + 20) then (enomem, st)
  else
    let src := ovsMasked (st.skb.bytes th 2) (slice key 0 2) (slice mask 0 2)
    let st := setChangedPort ops th 362 src (th + 16) st
    let dst := ovsMasked (st.skb.bytes (th + 2) 2) (slice key 2 2) (slice mask 2 2)
    let st := setChangedPort ops (th + 2) 364 dst (th + 16) st
    (0, { st with skb := st.skb.clearHash })

/-- `set_sctp`. -/
def setSctp (env : SkbEnv) (key mask : List (BitVec 8)) (st : SetState) : Int × SetState :=
  let sctphoff := st.skb.transport_header
  if !st.skb.ensureWritable env (sctphoff + 12) then (enomem, st)
  else
    let old_csum := st.skb.bytes (sctphoff + 8) 4
    let old_correct_csum := ops.sctp_compute_cksum st.skb.data sctphoff
    let src := ovsMasked (st.skb.bytes sctphoff 2) (slice key 0 2) (slice mask 0 2)
    let skb := st.skb.put sctphoff src
    let dst := ovsMasked (skb.bytes (sctphoff + 2) 2) (slice key 2 2) (slice mask 2 2)
    let skb := skb.put (sctphoff + 2) dst
    let new_csum := ops.sctp_compute_cksum skb.data sctphoff
    let skb := skb.put (sctphoff + 8)
      (old_csum.mapIdx fun i b => b ^^^ byteAt old_correct_csum i ^^^ byteAt new_csum i)
    (0, ⟨skb.clearHash, st.flow_key.store [⟨362, src⟩, ⟨364, dst⟩]⟩)

/-! ## The action -/

/-- `execute_masked_set_action`. The mask lies behind a whole key. -/
def executeMaskedSetAction (env : SkbEnv) (a : List (BitVec 8)) (st : SetState) : Int × SetState :=
  match setKey a with
  | none => (0, st)
  | some (attr, data) =>
      match attr with
      | .priority =>
          let priority := le32At data 0 ||| (st.skb.priority &&& ~~~le32At data 4)
          (0, ⟨{ st.skb with priority := priority }, st.flow_key.store [⟨312, le32 priority⟩]⟩)
      | .skbMark =>
          let mark := le32At data 0 ||| (st.skb.mark &&& ~~~le32At data 4)
          (0, ⟨{ st.skb with mark := mark }, st.flow_key.store [⟨316, le32 mark⟩]⟩)
      | .tunnelInfo => (einval, st)
      | .ethernet => setEthAddr ops env (data.take 12) (data.drop 12) st
      | .ipv4 => setIpv4 ops env (data.take 12) (data.drop 12) st
      | .ipv6 => setIpv6 ops env (data.take 40) (data.drop 40) st
      | .tcp => setTcp ops env (data.take 4) (data.drop 4) st
      | .udp => setUdp ops env (data.take 4) (data.drop 4) st
      | .sctp => setSctp ops env (data.take 4) (data.drop 4) st
      | .mpls => setMpls ops env (data.take 4) (data.drop 4) st
      | .ctState | .ctZone | .ctMark | .ctLabels | .ctOrigTupleIpv4 | .ctOrigTupleIpv6 => (einval, st)
      | _ => (0, st)

end OvsDatapath.Actions
