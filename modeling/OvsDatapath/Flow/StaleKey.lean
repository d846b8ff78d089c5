import OvsDatapath.Flow.Match
import OvsDatapath.Flow.PacketKind
import OvsDatapath.Lib.Fault

/-!
# Flows and stale bytes of a key

`ovs_vport_receive` extracts the key of a packet into a buffer that has not been initialized, and the
table then compares the key with the masked keys of the flows. A flow must not look at bytes that the
extraction has left alone. `match_validate` sees to that from the key and the mask of the flow, but
not for every packet that the flow can meet: a mask may look at the ports and not at the fragment type.

`ovs_ct_fill_key` even reads stale bytes: for a later fragment of an ICMPv6 message, the type of the
message, which decides whether there is room for the tuple of the connection. All other packets
write the same bytes into every buffer.
-/

namespace OvsDatapath.Flow

open OvsDatapath.Lib

/-- A flow selects a packet: the key of the packet agrees with that of the flow under the mask. -/
def Selects (key mask received : SwFlowKey) : Prop :=
  ∀ j, received j &&& mask j = key j &&& mask j

instance (key mask received : SwFlowKey) : Decidable (Selects key mask received) :=
  inferInstanceAs (Decidable (∀ j, received j &&& mask j = key j &&& mask j))

section Packet

variable (env : SkbEnv) (m : SkbMeta) (skb : SkBuff) (mac_proto : BitVec 8)

/-- The stores of a whole extraction; the flag says whether the key was found to be one of neighbour
discovery. -/
def receivedStores (nd : Bool) : KeyStores :=
  packetStores env m skb mac_proto ++ ctStores (packetType env skb mac_proto) nd m.nfct

/-- Whether the key in a buffer is found to be one of neighbour discovery. -/
def foundNd (buf : SwFlowKey) : Bool := (buf.store (packetStores env m skb mac_proto)).isNd

/-- The bytes that a packet writes. -/
def PacketWrites (nd : Bool) (j : Nat) : Prop :=
  MetadataWrites m j ∨ LinkWrites mac_proto j ∨ (packetKind env skb mac_proto).Writes j ∨
    (ctTuple (packetType env skb mac_proto) nd m.nfct).Writes j

/-- A byte of the ports that the packet leaves alone. -/
def StaleTp (j : Fin swFlowKeySize) : Prop :=
  (362 ≤ (j : Nat) ∧ (j : Nat) < 366) ∧ ¬ (packetKind env skb mac_proto).Writes j

variable (key mask : SwFlowKey)

/-- A byte that the packet writes differs from the flow under the mask. -/
def WrittenDiffers (nd : Bool) : Prop :=
  ∃ (j : Fin swFlowKeySize) (v : BitVec 8),
    stored (receivedStores env m skb mac_proto nd) j = some v ∧ v &&& mask j ≠ key j &&& mask j

/-- The flow does not look at bytes that the packet leaves alone. -/
def StaleIgnored (nd : Bool) : Prop :=
  ∀ j : Fin swFlowKeySize, ¬ PacketWrites env m skb mac_proto nd j → mask j = 0

/-- The stale ports that the flow takes are all of neighbour discovery, or all not. -/
def StaleTpOnly (nd : Bool) : Prop :=
  ∀ buf : SwFlowKey, (∀ j, StaleTp env skb mac_proto j → buf j &&& mask j = key j &&& mask j) →
    foundNd env m skb mac_proto buf = nd

/-- The outcome for a packet is settled by what it writes: whatever the key is found to be, a byte
that is written differs, or else all that the flow looks at is written and agrees. -/
def SettledFor : Prop :=
  (∀ nd, WrittenDiffers env m skb mac_proto key mask nd ∨
      StaleTpOnly env m skb mac_proto key mask (!nd)) ∨
    ∀ nd, (∃ buf, foundNd env m skb mac_proto buf = nd) →
      ¬ WrittenDiffers env m skb mac_proto key mask nd ∧ StaleIgnored env m skb mac_proto mask nd

end Packet

/-- `SettledFor` a packet with the protocol of the MAC layer that its device gives it. -/
def Settled (env : SkbEnv) (m : SkbMeta) (skb : SkBuff) (key mask : SwFlowKey) : Prop :=
  match keyExtractMacProto m skb with
  | none => True
  | some mac_proto => SettledFor env m skb mac_proto key mask

section Accepted

variable {env : SkbEnv} {m : SkbMeta} {skb : SkBuff} {mac_proto : BitVec 8} {key mask : SwFlowKey}

theorem Accepted.receivedKey_eq_store (h : Accepted env m skb mac_proto) (buf : SwFlowKey) :
    receivedKey env m skb buf =
      buf.store (receivedStores env m skb mac_proto (foundNd env m skb mac_proto buf)) := by
  rw [h.receivedKey_eq, ovsCtFillKey, h.store_ethType, SwFlowKey.store_store]
  rfl

theorem Accepted.reaches_receivedStores (h : Accepted env m skb mac_proto) (nd : Bool) (j : Nat) :
    Reaches (receivedStores env m skb mac_proto nd) j ↔ PacketWrites env m skb mac_proto nd j := by
  rw [receivedStores, reaches_append, h.reaches_packetStores, reaches_ctStores, PacketWrites]
  simp only [or_assoc]

/-- Every IPv6 packet writes its protocol. -/
theorem networkKind_ipv6_writes (env : SkbEnv) (skb : SkBuff) :
    (networkKind env skb ethPIpv6).Writes 356 := by
  have hkind : networkKind env skb ethPIpv6 = ipv6Kind env skb := rfl
  rw [hkind]
  unfold ipv6Kind NetworkKind.Writes
  dsimp only
  split_ifs <;> simp

/-- What the key is found to be depends on stale ports alone. -/
theorem Accepted.foundNd_congr (h : Accepted env m skb mac_proto) {buf buf' : SwFlowKey}
    (hbuf : ∀ j, StaleTp env skb mac_proto j → buf j = buf' j) :
    foundNd env m skb mac_proto buf = foundNd env m skb mac_proto buf' := by
  have hwritten : ∀ j, Reaches (packetStores env m skb mac_proto) j →
      (buf.store (packetStores env m skb mac_proto)).u8 j =
        (buf'.store (packetStores env m skb mac_proto)).u8 j :=
    fun j hj => SwFlowKey.store_u8_of_reaches hj buf buf'
  have htype : ∀ j, 352 ≤ j ∧ j < 354 → Reaches (packetStores env m skb mac_proto) j := fun j hj =>
    (h.reaches_packetStores j).mpr (.inr (.inl (.inr (.inl ⟨by omega, by omega⟩))))
  have hport : ∀ j, 362 ≤ j ∧ j < 366 → (buf.store (packetStores env m skb mac_proto)).u8 j =
      (buf'.store (packetStores env m skb mac_proto)).u8 j := by
    intro j hj
    by_cases hreaches : Reaches (packetStores env m skb mac_proto) j
    · exact hwritten j hreaches
    · rw [SwFlowKey.store_u8_of_not_reaches hreaches, SwFlowKey.store_u8_of_not_reaches hreaches]
      have hkind : ¬ (packetKind env skb mac_proto).Writes j := fun hwrites =>
        hreaches ((h.reaches_packetStores j).mpr (.inr (.inr hwrites)))
      have hlt : j < swFlowKeySize := by
        simp only [swFlowKeySize]
        omega
      unfold SwFlowKey.u8
      rw [dif_pos hlt, dif_pos hlt]
      exact hbuf ⟨j, hlt⟩ ⟨hj, hkind⟩
  unfold foundNd SwFlowKey.isNd
  rw [hwritten 352 (htype 352 (by omega)), hwritten 353 (htype 353 (by omega)), hport 362 (by omega),
    hport 363 (by omega), hport 364 (by omega), hport 365 (by omega)]
  by_cases hipv6 : packetType env skb mac_proto = ethPIpv6
  · have hproto : Reaches (packetStores env m skb mac_proto) 356 := by
      refine (h.reaches_packetStores 356).mpr (.inr (.inr ?_))
      show (networkKind env _ (packetType env skb mac_proto)).Writes 356
      rw [hipv6]
      exact networkKind_ipv6_writes env _
    have hipProto := hwritten 356 hproto
    rw [SwFlowKey.ipProto, SwFlowKey.ipProto, hipProto]
  · -- the type rules neighbour discovery out
    have hbytes : ¬ ((buf'.store (packetStores env m skb mac_proto)).u8 352 = 0x86 ∧
        (buf'.store (packetStores env m skb mac_proto)).u8 353 = 0xDD) := by
      rintro ⟨hhigh, hlow⟩
      have heq := h.store_ethType buf'
      rw [SwFlowKey.ethType, SwFlowKey.be16, hhigh, hlow] at heq
      exact hipv6 heq.symm
    have hfalse : ((buf'.store (packetStores env m skb mac_proto)).u8 352 == 0x86 &&
        (buf'.store (packetStores env m skb mac_proto)).u8 353 == 0xDD) = false := by
      rw [← Bool.not_eq_true, Bool.and_eq_true, beq_iff_eq, beq_iff_eq]
      exact hbytes
    rw [hfalse]
    simp only [Bool.false_and]

/-- The stores of a whole extraction as new values of a key. -/
def newValues (env : SkbEnv) (m : SkbMeta) (skb : SkBuff) (mac_proto : BitVec 8) (nd : Bool)
    (j : Fin swFlowKeySize) : Option (BitVec 8) := stored (receivedStores env m skb mac_proto nd) j

theorem masked_forall_iff {k msk : BitVec 8} : (∀ v, v &&& msk = k &&& msk) ↔ msk = 0 := by
  constructor
  · intro h
    have hzero := h 0#8
    have hones := h (BitVec.allOnes 8)
    rw [BitVec.zero_and] at hzero
    rw [BitVec.allOnes_and, ← hzero] at hones
    exact hones
  · rintro rfl v
    exact BitVec.and_zero.trans BitVec.and_zero.symm

theorem Accepted.ignores_iff (h : Accepted env m skb mac_proto) (nd : Bool) :
    Ignores (newValues env m skb mac_proto) (fun j v => v &&& mask j = key j &&& mask j) nd ↔
      StaleIgnored env m skb mac_proto mask nd := by
  apply forall_congr'
  intro j
  rw [masked_forall_iff, newValues, stored_eq_none_iff, h.reaches_receivedStores]

/-- **A flow does not depend on stale bytes** of the key of a packet exactly if what the packet writes
settles the outcome. -/
theorem selects_agree_iff {buf₀ : SwFlowKey} (haccept : (ovsFlowKeyExtract env m skb buf₀).1 = 0) :
    (∀ buf buf', Selects key mask (receivedKey env m skb buf) ↔
        Selects key mask (receivedKey env m skb buf')) ↔
      Settled env m skb key mask := by
  obtain ⟨mac_proto, haccepted⟩ := accepted_of_ok haccept
  rw [Settled, haccepted.mac_proto_eq]
  have hselects : ∀ buf, Selects key mask (receivedKey env m skb buf) ↔
      ∀ j, overlay (newValues env m skb mac_proto (foundNd env m skb mac_proto buf)) buf j &&& mask j =
        key j &&& mask j := fun buf => by
    rw [haccepted.receivedKey_eq_store]
    rfl
  have hsat : ∀ j : Fin swFlowKeySize, ∃ v : BitVec 8, v &&& mask j = key j &&& mask j :=
    fun j => ⟨key j, rfl⟩
  have hcls : ∀ buf buf' : SwFlowKey, (∀ j, StaleTp env skb mac_proto j → buf j = buf' j) →
      foundNd env m skb mac_proto buf = foundNd env m skb mac_proto buf' :=
    fun buf buf' hbuf => haccepted.foundNd_congr hbuf
  have hstale : ∀ nd j, StaleTp env skb mac_proto j → newValues env m skb mac_proto nd j = none := by
    rintro nd j ⟨hj, hkind⟩
    rw [newValues, stored_eq_none_iff, haccepted.reaches_receivedStores]
    rintro (hmeta | hlink | hwrites | hct)
    · unfold MetadataWrites at hmeta
      omega
    · unfold LinkWrites at hlink
      omega
    · exact hkind hwrites
    · have hbounds := hct.bounds
      omega
  simp only [hselects]
  rw [agree_iff_forall_not_or_forall]
  apply or_congr
  · exact @overlay_none_passes_iff _ _ _ _ (fun j v => v &&& mask j = key j &&& mask j) _ hsat hcls hstale
  · refine (@overlay_all_pass_iff _ _ _ _ (fun j v => v &&& mask j = key j &&& mask j) _ hcls hstale).trans ?_
    simp only [haccepted.ignores_iff]
    rfl

/-- The key of a flow for UDP packets to port 53. -/
def dnsKeyAttrs : List (BitVec 8) :=
  nlaPut .ethernet (List.replicate 12 0) ++ nlaPut .ethertype [0x08, 0x00] ++
    nlaPut .ipv4 [10, 0, 0, 1, 10, 0, 0, 2, 17, 0, 64, 0] ++ nlaPut .udp [0, 0, 0, 53]

/-- Its mask: the type, the protocol and the port. -/
def dnsMaskAttrs : List (BitVec 8) :=
  nlaPut .ethertype [0xFF, 0xFF] ++ nlaPut .ipv4 [0, 0, 0, 0, 0, 0, 0, 0, 0xFF, 0, 0, 0] ++
    nlaPut .udp [0, 0, 0xFF, 0xFF]

/-- A buffer that has last held the key of a packet to port 53. -/
def dnsBuf : SwFlowKey := SwFlowKey.setU8 (fun _ => 0) 365 53

/-- The flow is accepted, and it selects the later fragment of a UDP packet or not, as the buffer has
it. -/
theorem selects_laterFragment :
    ∃ flow mask, ovsNlaGetMatch plainNetlink true dnsKeyAttrs (some dnsMaskAttrs) = .ok flow ∧
      flow.mask = some mask ∧
      (ovsFlowKeyExtract plainEnv etherMeta laterFragment dnsBuf).1 = 0 ∧
      Selects flow.key mask.key (receivedKey plainEnv etherMeta laterFragment dnsBuf) ∧
      ¬ Selects flow.key mask.key (receivedKey plainEnv etherMeta laterFragment fun _ => 0) := by
  have haccept : (ovsFlowKeyExtract plainEnv etherMeta laterFragment dnsBuf).1 = 0 := by
    decide +kernel
  have hselects : ((ovsNlaGetMatch plainNetlink true dnsKeyAttrs (some dnsMaskAttrs)).toOption.any fun m =>
      m.mask.any fun mask =>
        decide (Selects m.key mask.key (receivedKey plainEnv etherMeta laterFragment dnsBuf)) &&
          !decide (Selects m.key mask.key (receivedKey plainEnv etherMeta laterFragment fun _ => 0))) = true := by
    decide +kernel
  obtain ⟨m, heq, hselects⟩ := toOption_any_iff.mp hselects
  cases hmask : m.mask with
  | none =>
      rw [hmask] at hselects
      cases hselects
  | some mask =>
      rw [hmask, Option.any_some, Bool.and_eq_true, decide_eq_true_iff, Bool.not_eq_true',
        decide_eq_false_iff_not] at hselects
      exact ⟨m, mask, heq, hmask, haccept, hselects⟩

theorem selects_agree_iff_laterFragment :
    (∀ buf buf', Selects (fun _ => 0) (fun _ => 0)
          (receivedKey plainEnv etherMeta laterFragment buf) ↔
        Selects (fun _ => 0) (fun _ => 0) (receivedKey plainEnv etherMeta laterFragment buf')) ↔
      Settled plainEnv etherMeta laterFragment (fun _ => 0) fun _ => 0 := by
  have haccept : (ovsFlowKeyExtract plainEnv etherMeta laterFragment fun _ => 0).1 = 0 := by
    decide +kernel
  exact selects_agree_iff haccept

/-- Where every buffer leads to the same finding, the outcome is settled if a byte that is written
differs or nothing stale is looked at. -/
theorem settledFor_iff {nd : Bool} (hnd : ∀ buf, foundNd env m skb mac_proto buf = nd)
    : SettledFor env m skb mac_proto key mask ↔
      WrittenDiffers env m skb mac_proto key mask nd ∨ StaleIgnored env m skb mac_proto mask nd := by
  have honly : ¬ StaleTpOnly env m skb mac_proto key mask (!nd) := fun hother =>
    (Bool.eq_not_self nd).mp ((hnd key).symm.trans (hother key fun _ _ => rfl))
  constructor
  · rintro (hdiffers | hagrees)
    · exact .inl ((hdiffers nd).resolve_right honly)
    · exact .inr (hagrees nd ⟨key, hnd key⟩).2
  · intro h
    by_cases hdiffers : WrittenDiffers env m skb mac_proto key mask nd
    · refine .inl fun nd' => ?_
      by_cases heq : nd' = nd
      · exact .inl (heq ▸ hdiffers)
      · refine .inr fun buf _ => ?_
        rw [hnd, Bool.eq_not.mpr (Ne.symm heq)]
    · refine .inr ?_
      rintro nd' ⟨buf, rfl⟩
      rw [hnd]
      exact ⟨hdiffers, h.resolve_left hdiffers⟩

end Accepted

end OvsDatapath.Flow
