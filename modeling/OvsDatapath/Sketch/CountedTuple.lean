import OvsDatapath.Flow.PacketKind
import OvsDatapath.Sketch.SketchManage

/-!
# The five-tuple of a received packet

`ovs_vport_receive` extracts the key of a packet into a buffer on the stack, and `my_label_sketch`
reads the five-tuple from fixed members of that key, for packets of every kind. The tuple, and with
it the decision whether to count the packet, is a function of the packet exactly for the kinds whose
ports are extracted (`countedAs_agree_iff`); for all others the ports are leftovers of earlier packets.
-/

namespace OvsDatapath.Sketch

open OvsDatapath.Lib OvsDatapath.Flow

/-- The kinds of packets whose ports, or ICMP type and code, are in the key. -/
def hasPorts : NetworkKind → Bool
  | .ip transport | .ipv6 transport => transport != .none
  | _ => false

/-- A received packet whose ports are extracted: over IPv4 or IPv6 with a good header, no later
fragment, and of a protocol with ports. -/
def portsExtracted (env : SkbEnv) (m : SkbMeta) (skb : SkBuff) : Bool :=
  match keyExtractMacProto m skb with
  | none => false
  | some mac_proto => hasPorts (packetKind env skb mac_proto)

/-- What `my_label_sketch` does for a packet: the sketch that counts it, if any, and the tuple that
is counted. -/
def countedAs (dev_name : List (BitVec 8)) (key : SwFlowKey) :
    Except MemFault (Option (Nat × FlowKey)) :=
  (labelTarget dev_name key).map fun target => target.map fun dev_id => (dev_id, extract5Tuple key)

/-- The sketches after a packet depend on the key through `countedAs` alone. -/
theorem myLabelSketch_congr {dev_name : List (BitVec 8)} {key key' : SwFlowKey}
    (h : countedAs dev_name key = countedAs dev_name key') (s : Sketches) :
    myLabelSketch s dev_name key = myLabelSketch s dev_name key' := by
  unfold countedAs at h
  unfold myLabelSketch
  generalize extract5Tuple key = tuple at h ⊢
  generalize extract5Tuple key' = tuple' at h ⊢
  generalize labelTarget dev_name key = target at h ⊢
  generalize labelTarget dev_name key' = target' at h ⊢
  cases target with
  | error e =>
      cases target' with
      | error e' =>
          rw [Except.error.inj h]
      | ok target' => cases h
  | ok target =>
      cases target' with
      | error e' => cases h
      | ok target' =>
          have hmap := Except.ok.inj h
          cases target with
          | none =>
              cases target' with
              | none => rfl
              | some dev_id' => cases hmap
          | some dev_id =>
              cases target' with
              | none => cases hmap
              | some dev_id' =>
                  obtain ⟨hdev, htuple⟩ := Prod.mk.inj (Option.some.inj hmap)
                  rw [hdev, htuple]

theorem and_one_eq (h : BitVec 32) : h &&& 1 = if h.getLsbD 0 then 1 else 0 := by
  rw [show (1 : BitVec 32) = 1#32 from rfl, BitVec.and_one_eq_setWidth_ofBool_getLsbD]
  cases h.getLsbD 0 <;> rfl

/-- The lowest bit of the hash goes over to the other value with the lowest bit of the destination
port, in the order of the machine. -/
theorem flowKeyHash_parity (srcip dstip : BitVec 32) (protocol : BitVec 16) :
    flowKeyHash ⟨srcip, dstip, 0, 0, protocol⟩ 16 &&& 1 = 0 ↔
      flowKeyHash ⟨srcip, dstip, 0, 1, protocol⟩ 16 &&& 1 ≠ 0 := by
  have hzero : sketchHash32 ((0 : BitVec 16) ++ (0 : BitVec 16)) 16 = 0 := by decide
  have hone : sketchHash32 ((1 : BitVec 16) ++ (0 : BitVec 16)) 16 = 1 := by decide
  unfold flowKeyHash FlowKey.port
  dsimp only
  rw [hzero, hone]
  generalize sketchHash32 srcip 16 ^^^ sketchHash32 dstip 16 = hash
  rw [and_one_eq, and_one_eq, BitVec.getLsbD_xor, BitVec.getLsbD_xor]
  cases hash.getLsbD 0 <;> decide

/-! ## The bytes of the tuple -/

/-- The bytes of the key that the five-tuple is read from. -/
def TupleByte (j : Nat) : Prop := j = 356 ∨ (362 ≤ j ∧ j < 366) ∨ (368 ≤ j ∧ j < 376)

theorem u16_congr {key key' : SwFlowKey} {off : Nat}
    (h : ∀ j, off ≤ j ∧ j < off + 2 → key.u8 j = key'.u8 j) : key.u16 off = key'.u16 off := by
  rw [SwFlowKey.u16, SwFlowKey.u16, h off (by omega), h (off + 1) (by omega)]

theorem u32_congr {key key' : SwFlowKey} {off : Nat}
    (h : ∀ j, off ≤ j ∧ j < off + 4 → key.u8 j = key'.u8 j) : key.u32 off = key'.u32 off := by
  have hlow : key.u16 off = key'.u16 off := u16_congr fun j hj => h j (by omega)
  have hhigh : key.u16 (off + 2) = key'.u16 (off + 2) := u16_congr fun j hj => h j (by omega)
  rw [SwFlowKey.u32, SwFlowKey.u32, hlow, hhigh]

theorem extract5Tuple_congr {key key' : SwFlowKey} (h : ∀ j, TupleByte j → key.u8 j = key'.u8 j) :
    extract5Tuple key = extract5Tuple key' := by
  have hsrcip : key.ipv4Src = key'.ipv4Src := u32_congr fun j hj => h j (.inr (.inr (by omega)))
  have hdstip : key.ipv4Dst = key'.ipv4Dst := u32_congr fun j hj => h j (.inr (.inr (by omega)))
  have hsrcport : key.tpSrc = key'.tpSrc := u16_congr fun j hj => h j (.inr (.inl (by omega)))
  have hdstport : key.tpDst = key'.tpDst := u16_congr fun j hj => h j (.inr (.inl (by omega)))
  have hproto : key.ipProto = key'.ipProto := h 356 (.inl rfl)
  rw [extract5Tuple, hsrcip, hdstip, hsrcport, hdstport, hproto]
  rfl

/-- A packet whose ports are extracted has all bytes of the tuple written. -/
theorem writes_tupleByte {kind : NetworkKind} (h : hasPorts kind = true) {j : Nat}
    (hj : TupleByte j) : kind.Writes j := by
  unfold TupleByte at hj
  unfold NetworkKind.Writes TransportKind.Writes
  cases kind with
  | ip transport | ipv6 transport =>
      cases transport with
      | none => cases h
      | ports | icmpv6 =>
          dsimp only
          omega
  | _ => cases h

/-- Of any other packet, no byte of the ports is written. -/
theorem not_writes_ports {kind : NetworkKind} (h : hasPorts kind = false) {j : Nat}
    (hj : 362 ≤ j ∧ j < 366) : ¬ kind.Writes j := by
  unfold NetworkKind.Writes TransportKind.Writes
  cases kind with
  | ip transport | ipv6 transport =>
      cases transport with
      | none =>
          dsimp only
          simp only [or_false]
          omega
      | ports | icmpv6 => cases h
  | badMpls | other => exact id
  | badIp | badArp | arp | mpls | badIpv6 =>
      dsimp only
      omega

/-! ## The tuple of a received packet -/

theorem not_metadataWrites_tupleByte (m : SkbMeta) {j : Nat} (hj : TupleByte j) :
    ¬ MetadataWrites m j := by
  unfold MetadataWrites
  unfold TupleByte at hj
  omega

theorem not_linkWrites_tupleByte (mac_proto : BitVec 8) {j : Nat} (hj : TupleByte j) :
    ¬ LinkWrites mac_proto j := by
  unfold LinkWrites
  unfold TupleByte at hj
  omega

section Received

variable {env : SkbEnv} {m : SkbMeta} {skb : SkBuff} {mac_proto : BitVec 8}

/-- A byte of the tuple is written exactly if the kind of the packet has it. -/
theorem reaches_packetStores_tupleByte (haccepted : Accepted env m skb mac_proto) {j : Nat}
    (hj : TupleByte j) :
    Reaches (packetStores env m skb mac_proto) j ↔ (packetKind env skb mac_proto).Writes j := by
  rw [haccepted.reaches_packetStores, or_iff_right (not_metadataWrites_tupleByte m hj),
    or_iff_right (not_linkWrites_tupleByte mac_proto hj)]

/-- The connection leaves the tuple alone. -/
theorem store_ovsCtFillKey_tupleByte (key : SwFlowKey) (nfct : Option NfConn) {j : Nat}
    (hj : TupleByte j) : (key.store (ovsCtFillKey key nfct)).u8 j = key.u8 j := by
  apply SwFlowKey.store_u8_of_not_reaches
  rw [ovsCtFillKey, reaches_ctStores]
  intro hwrites
  have hbounds := hwrites.bounds
  unfold TupleByte at hj
  omega

/-- A byte of the tuple that is written, or is the same in both buffers, is the same. -/
theorem u8_receivedKey_congr (haccepted : Accepted env m skb mac_proto) {key key' : SwFlowKey}
    {j : Nat} (hj : TupleByte j)
    (h : (packetKind env skb mac_proto).Writes j ∨ key.u8 j = key'.u8 j) :
    (receivedKey env m skb key).u8 j = (receivedKey env m skb key').u8 j := by
  rw [haccepted.receivedKey_eq, haccepted.receivedKey_eq, store_ovsCtFillKey_tupleByte _ _ hj,
    store_ovsCtFillKey_tupleByte _ _ hj]
  by_cases hreaches : Reaches (packetStores env m skb mac_proto) j
  · exact SwFlowKey.store_u8_of_reaches hreaches key key'
  · rw [SwFlowKey.store_u8_of_not_reaches hreaches, SwFlowKey.store_u8_of_not_reaches hreaches]
    exact h.resolve_left (mt (reaches_packetStores_tupleByte haccepted hj).mpr hreaches)

/-- Without extracted ports, the ports are those of the buffer. -/
theorem u8_receivedKey_ports (haccepted : Accepted env m skb mac_proto)
    (hports : hasPorts (packetKind env skb mac_proto) = false) (key : SwFlowKey) {j : Nat}
    (hj : 362 ≤ j ∧ j < 366) : (receivedKey env m skb key).u8 j = key.u8 j := by
  have htuple : TupleByte j := .inr (.inl hj)
  have hreaches := mt (reaches_packetStores_tupleByte haccepted htuple).mp
    (not_writes_ports hports hj)
  rw [haccepted.receivedKey_eq, store_ovsCtFillKey_tupleByte _ _ htuple]
  exact SwFlowKey.store_u8_of_not_reaches hreaches key

/-- Two buffers that differ in the lowest bit of the destination port. -/
def zeroKey : SwFlowKey := fun _ => 0

@[inherit_doc zeroKey]
def oneKey : SwFlowKey := zeroKey.setU8 364 1

theorem oneKey_u8 {j : Nat} (hj : j ≠ 364) : zeroKey.u8 j = oneKey.u8 j := by
  unfold oneKey SwFlowKey.u8
  split
  case isTrue hlt =>
    show zeroKey ⟨j, hlt⟩ = if j = 364 then 1 else zeroKey ⟨j, hlt⟩
    rw [if_neg hj]
  case isFalse => rfl

/-- Over the two buffers, a packet without extracted ports gets two tuples, which are counted by
different switches. -/
theorem extract5Tuple_zeroKey_oneKey (haccepted : Accepted env m skb mac_proto)
    (hports : hasPorts (packetKind env skb mac_proto) = false) :
    ∃ srcip dstip protocol,
      extract5Tuple (receivedKey env m skb zeroKey) = ⟨srcip, dstip, 0, 0, protocol⟩ ∧
        extract5Tuple (receivedKey env m skb oneKey) = ⟨srcip, dstip, 0, 1, protocol⟩ := by
  have hsame : ∀ j, TupleByte j → j ≠ 364 →
      (receivedKey env m skb zeroKey).u8 j = (receivedKey env m skb oneKey).u8 j := fun j hj hne =>
    u8_receivedKey_congr haccepted hj (.inr (oneKey_u8 hne))
  have hsrcip : (receivedKey env m skb oneKey).ipv4Src = (receivedKey env m skb zeroKey).ipv4Src :=
    (u32_congr fun j hj => hsame j (.inr (.inr (by omega))) (by omega)).symm
  have hdstip : (receivedKey env m skb oneKey).ipv4Dst = (receivedKey env m skb zeroKey).ipv4Dst :=
    (u32_congr fun j hj => hsame j (.inr (.inr (by omega))) (by omega)).symm
  have hproto : (receivedKey env m skb oneKey).ipProto = (receivedKey env m skb zeroKey).ipProto :=
    (hsame 356 (.inl rfl) (by decide)).symm
  have hport : ∀ key, (receivedKey env m skb key).tpSrc = key.tpSrc ∧
      (receivedKey env m skb key).tpDst = key.tpDst := fun key =>
    ⟨u16_congr fun j hj => u8_receivedKey_ports haccepted hports key (by omega),
      u16_congr fun j hj => u8_receivedKey_ports haccepted hports key (by omega)⟩
  refine ⟨(receivedKey env m skb zeroKey).ipv4Src, (receivedKey env m skb zeroKey).ipv4Dst,
    (receivedKey env m skb zeroKey).ipProto.setWidth 16, ?_, ?_⟩
  · rw [extract5Tuple, (hport zeroKey).1, (hport zeroKey).2]
    rfl
  · rw [extract5Tuple, (hport oneKey).1, (hport oneKey).2, hsrcip, hdstip, hproto]
    rfl

end Received

theorem labelTarget_of_countedAs {dev_name : List (BitVec 8)} {key key' : SwFlowKey}
    (h : countedAs dev_name key = countedAs dev_name key') :
    labelTarget dev_name key = labelTarget dev_name key' := by
  have hmap := congrArg (Except.map (Option.map Prod.fst)) h
  have hfst : ∀ key, Except.map (Option.map Prod.fst) (countedAs dev_name key) =
      labelTarget dev_name key := by
    intro key
    unfold countedAs
    rcases labelTarget dev_name key with e | _ | dev_id <;> rfl
  rwa [hfst, hfst] at hmap

theorem iff_of_ite_some {α : Type} {a : α} {p q : Prop} [Decidable p] [Decidable q]
    (h : (if p then some a else none) = if q then some a else none) : p ↔ q := by
  split_ifs at h with hp hq hq
  · exact iff_of_true hp hq
  · exact iff_of_false hp hq

/-- The decision of a counting switch tells the parity of the hash. -/
theorem parity_of_labelTarget {dev_name : List (BitVec 8)} {dev_id : Nat} {key key' : SwFlowKey}
    (hdev : labelDevId dev_name = some dev_id) (hlt : dev_id < swCount)
    (hrole : switchType ⟨dev_id, hlt⟩ ≠ .filter)
    (h : labelTarget dev_name key = labelTarget dev_name key') :
    flowKeyHash (extract5Tuple key) 16 &&& 1 = 0 ↔ flowKeyHash (extract5Tuple key') 16 &&& 1 = 0 := by
  have htarget := @labelTarget_of_devId ⟨dev_name, key⟩ dev_id hdev hlt
  have htarget' := @labelTarget_of_devId ⟨dev_name, key'⟩ dev_id hdev hlt
  dsimp only at htarget htarget'
  rw [htarget, htarget'] at h
  generalize flowKeyHash (extract5Tuple key) 16 &&& 1 = bit at h ⊢
  generalize flowKeyHash (extract5Tuple key') 16 &&& 1 = bit' at h ⊢
  cases hcase : switchType ⟨dev_id, hlt⟩ with
  | filter => exact absurd hcase hrole
  | egress =>
      rw [hcase] at h
      exact not_iff_not.mp (iff_of_ite_some (Except.ok.inj h))
  | ingress =>
      rw [hcase] at h
      exact iff_of_ite_some (Except.ok.inj h)

/-- **The counted tuple is a function of the packet** exactly for the packets whose ports are
extracted: for all others there are two buffers for which the packet is counted and not counted. -/
theorem countedAs_agree_iff {env : SkbEnv} {m : SkbMeta} {skb : SkBuff} {key₀ : SwFlowKey}
    {dev_name : List (BitVec 8)} {dev_id : Nat}
    (haccept : (ovsFlowKeyExtract env m skb key₀).1 = 0)
    (hdev : labelDevId dev_name = some dev_id) (hlt : dev_id < swCount)
    (hrole : switchType ⟨dev_id, hlt⟩ ≠ .filter) :
    (∀ key key', countedAs dev_name (receivedKey env m skb key) =
        countedAs dev_name (receivedKey env m skb key')) ↔
      portsExtracted env m skb = true := by
  obtain ⟨mac_proto, haccepted⟩ := accepted_of_ok haccept
  have hextracted : portsExtracted env m skb = hasPorts (packetKind env skb mac_proto) := by
    rw [portsExtracted, haccepted.mac_proto_eq]
  rw [hextracted]
  constructor
  · intro hagree
    by_contra hports
    obtain ⟨srcip, dstip, protocol, hzero, hone⟩ :=
      extract5Tuple_zeroKey_oneKey haccepted (Bool.not_eq_true _ ▸ hports)
    have hparity := parity_of_labelTarget hdev hlt hrole
      (labelTarget_of_countedAs (hagree zeroKey oneKey))
    rw [hzero, hone, flowKeyHash_parity] at hparity
    exact iff_not_self hparity.symm
  · intro hports key key'
    have htuple : extract5Tuple (receivedKey env m skb key) =
        extract5Tuple (receivedKey env m skb key') :=
      extract5Tuple_congr fun j hj =>
        u8_receivedKey_congr haccepted hj (.inl (writes_tupleByte hports hj))
    unfold countedAs labelTarget
    rw [htuple]

/-- The fragment is accepted, and whether `s4` counts it depends on the bytes on the stack. -/
theorem countedAs_laterFragment :
    (ovsFlowKeyExtract plainEnv etherMeta laterFragment zeroKey).1 = 0 ∧
      countedAs nameS4 (receivedKey plainEnv etherMeta laterFragment zeroKey) ≠
        countedAs nameS4 (receivedKey plainEnv etherMeta laterFragment oneKey) := by
  constructor
  · decide +kernel
  · decide +kernel

theorem countedAs_wholeDatagram :
    (∀ key key', countedAs nameS4 (receivedKey plainEnv etherMeta wholeDatagram key) =
        countedAs nameS4 (receivedKey plainEnv etherMeta wholeDatagram key')) ↔
      portsExtracted plainEnv etherMeta wholeDatagram = true := by
  have hdev : labelDevId nameS4 = some 4 := by decide
  have haccept : (ovsFlowKeyExtract plainEnv etherMeta wholeDatagram zeroKey).1 = 0 := by
    decide +kernel
  exact countedAs_agree_iff haccept hdev (by decide) (by decide)

end OvsDatapath.Sketch
