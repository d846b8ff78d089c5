import OvsDatapath.Flow.TunnelAttrs

/-!
# The attributes of a written key

`__ovs_nla_put_key` writes every attribute once (`ovsNlaPutKey1_nodup`), with the length that the parser
expects (`ovsNlaPutKey1_good`), so the parser collects all of them.
-/

namespace OvsDatapath.Flow

open OvsDatapath.Lib

/-! ## Types -/

/-- The types of a list of attributes are among others, in this order. -/
def TypesIn (attrs : List Nlattr) (types : List OvsKeyAttr) : Prop :=
  (attrs.map Nlattr.type).Sublist (types.map ovsKeyAttrs.idxOf)

theorem TypesIn.append {attrs attrs' : List Nlattr} {types types' : List OvsKeyAttr}
    (h : TypesIn attrs types) (h' : TypesIn attrs' types') : TypesIn (attrs ++ attrs') (types ++ types') := by
  unfold TypesIn
  rw [List.map_append, List.map_append]
  exact List.Sublist.append h h'

theorem typesIn_nil (types : List OvsKeyAttr) : TypesIn [] types := List.nil_sublist _

theorem typesIn_single (attr : OvsKeyAttr) (data : List (BitVec 8)) : TypesIn [keyAttr attr data] [attr] :=
  List.Sublist.refl _

theorem typesIn_opt (c : Prop) [Decidable c] (attr : OvsKeyAttr) (data : List (BitVec 8)) :
    TypesIn (if c then [keyAttr attr data] else []) [attr] := by
  split_ifs
  · exact typesIn_single ..
  · exact typesIn_nil _

theorem TypesIn.mono {attrs : List Nlattr} {types types' : List OvsKeyAttr} (h : TypesIn attrs types)
    (hle : types.Sublist types') : TypesIn attrs types' :=
  List.Sublist.trans h (hle.map _)

theorem TypesIn.nodup {attrs : List Nlattr} {types : List OvsKeyAttr} (h : TypesIn attrs types)
    (hnodup : types.Nodup) : (attrs.map Nlattr.type).Nodup :=
  List.Sublist.nodup h (hnodup.map fun _ _ => ovsKeyAttrs_idxOf_inj)

/-- A type that is not among them is not there. -/
theorem TypesIn.attrData {attrs : List Nlattr} {types : List OvsKeyAttr} (h : TypesIn attrs types)
    {attr : OvsKeyAttr} (hattr : attr ∉ types) : attrData attrs attr = none := by
  apply attrData_eq_none
  intro hmem
  obtain ⟨attr', hattr', heq⟩ := List.mem_map.mp (h.subset hmem)
  exact hattr (ovsKeyAttrs_idxOf_inj heq ▸ hattr')

/-- The metadata, in the order in which it is written. -/
def metadataTypes : List OvsKeyAttr :=
  [.recircId, .dpHash, .priority, .tunnel, .inPort, .skbMark, .ctState, .ctZone, .ctMark, .ctLabels,
    .ctOrigTupleIpv4, .ctOrigTupleIpv6]

/-- The headers. -/
def headerTypes : List OvsKeyAttr :=
  [.ipv4, .ipv6, .arp, .mpls, .tcp, .tcpFlags, .udp, .sctp, .icmp, .icmpv6, .nd]

section Types

variable (env : PutEnv) (swkey output : SwFlowKey) (is_mask : Bool)

theorem putMetadata_types : TypesIn (putMetadata env swkey output is_mask) metadataTypes := by
  have hin_port : TypesIn (putInPort swkey output is_mask) [.inPort] := by
    unfold putInPort
    dsimp only
    by_cases hnone : swkey.u16 320 = inPortNone
    · rw [if_pos hnone]
      exact typesIn_opt ..
    · rw [if_neg hnone]
      exact typesIn_single ..
  have htuple : TypesIn (putCtOrigTuple swkey output) [.ctOrigTupleIpv4, .ctOrigTupleIpv6] := by
    unfold putCtOrigTuple
    split_ifs
    · exact typesIn_nil _
    · exact (typesIn_single ..).mono (by decide)
    · exact (typesIn_single ..).mono (by decide)
    · exact typesIn_nil _
  have hct : TypesIn (ovsCtPutKey env.ct_config swkey output)
      ([.ctState] ++ [.ctZone] ++ [.ctMark] ++ [.ctLabels] ++ [.ctOrigTupleIpv4, .ctOrigTupleIpv6]) :=
    ((((typesIn_single ..).append (typesIn_opt ..)).append (typesIn_opt ..)).append (typesIn_opt ..)).append
      htuple
  have hfirst : TypesIn [keyAttr .recircId (output.bytes 328 4), keyAttr .dpHash (output.bytes 324 4),
      keyAttr .priority (output.bytes 312 4)] [.recircId, .dpHash, .priority] := List.Sublist.refl _
  exact (((hfirst.append (typesIn_opt ..)).append hin_port).append (typesIn_single ..)).append hct

theorem putTransport_types : TypesIn (putTransport swkey output)
    [.tcp, .tcpFlags, .udp, .sctp, .icmp, .icmpv6, .nd] := by
  have htcp : TypesIn [keyAttr .tcp (output.bytes 362 4), keyAttr .tcpFlags (output.bytes 366 2)]
      [.tcp, .tcpFlags] := List.Sublist.refl _
  have hnd : TypesIn (putIcmp .icmpv6 output :: if output.u8 363 = 135 ∨ output.u8 363 = 136 then
      [keyAttr .nd (output.bytes 404 16 ++ output.bytes 420 6 ++ output.bytes 426 6)] else [])
      ([.icmpv6] ++ [.nd]) := (typesIn_single ..).append (typesIn_opt ..)
  unfold putTransport
  by_cases htransport : (swkey.ethType = ethPIp ∨ swkey.ethType = ethPIpv6) ∧ swkey.ipFrag ≠ ovsFragTypeLater
  · rw [if_pos htransport]
    by_cases hproto : swkey.ipProto = ipprotoTcp
    · rw [if_pos hproto]
      exact htcp.mono (by decide)
    rw [if_neg hproto]
    by_cases hproto : swkey.ipProto = ipprotoUdp
    · rw [if_pos hproto]
      exact (typesIn_single ..).mono (by decide)
    rw [if_neg hproto]
    by_cases hproto : swkey.ipProto = ipprotoSctp
    · rw [if_pos hproto]
      exact (typesIn_single ..).mono (by decide)
    rw [if_neg hproto]
    by_cases hproto : swkey.ethType = ethPIp ∧ swkey.ipProto = ipprotoIcmp
    · rw [if_pos hproto]
      exact (typesIn_single ..).mono (by decide)
    rw [if_neg hproto]
    by_cases hproto : swkey.ethType = ethPIpv6 ∧ swkey.ipProto = nexthdrIcmp
    · rw [if_pos hproto]
      exact hnd.mono (by decide)
    · rw [if_neg hproto]
      exact typesIn_nil _
  · rw [if_neg htransport]
    exact typesIn_nil _

theorem putUntagged_types :
    TypesIn (putUntagged swkey output is_mask) (.ethertype :: headerTypes) := by
  have hnetwork : TypesIn (putNetwork swkey output) [.ipv4, .ipv6, .arp, .mpls] := by
    unfold putNetwork
    split_ifs
    · exact (typesIn_single ..).mono (by decide)
    · exact (typesIn_single ..).mono (by decide)
    · exact (typesIn_single ..).mono (by decide)
    · exact (typesIn_single ..).mono (by decide)
    · exact typesIn_nil _
  have hheaders : TypesIn (if ethTypeVlan swkey.ethType then [] else
      putNetwork swkey output ++ putTransport swkey output) headerTypes := by
    split_ifs
    · exact typesIn_nil _
    · exact hnetwork.append (putTransport_types swkey output)
  unfold putUntagged
  by_cases h8022 : swkey.ovsKeyMacProto = macProtoEthernet ∧ swkey.ethType = ethP8022
  · rw [if_pos h8022]
    exact (typesIn_opt ..).mono (by decide)
  · rw [if_neg h8022]
    exact (typesIn_single ..).append hheaders

/-- What stands in place of the headers of a tagged frame. -/
theorem putVlan_types (off : Nat) (encap : List (BitVec 8)) :
    TypesIn (ovsNlaPutVlan output off is_mask ++ [keyAttr .encap encap]) [.ethertype, .vlan, .encap] :=
  List.Sublist.refl _

theorem putTagged_types : TypesIn (putTagged swkey output is_mask)
    (.ethertype :: .vlan :: .encap :: headerTypes) := by
  unfold putTagged
  by_cases htagged : swkey.vlanTci ≠ 0 ∨ ethTypeVlan swkey.ethType
  · rw [if_pos htagged]
    exact (putVlan_types ..).mono (by decide)
  · rw [if_neg htagged]
    exact (putUntagged_types ..).mono (by decide)

theorem ovsNlaPutKey1_types : TypesIn (ovsNlaPutKey1 env swkey output is_mask)
    (metadataTypes ++ .ethernet :: .ethertype :: .vlan :: .encap :: headerTypes) := by
  unfold ovsNlaPutKey1
  apply (putMetadata_types ..).append
  by_cases heth : swkey.ovsKeyMacProto = macProtoEthernet
  · rw [if_pos heth]
    exact (typesIn_single ..).append (putTagged_types ..)
  · rw [if_neg heth]
    exact (putUntagged_types ..).mono (by decide)

/-- No attribute is written twice. -/
theorem ovsNlaPutKey1_nodup : ((ovsNlaPutKey1 env swkey output is_mask).map Nlattr.type).Nodup :=
  (ovsNlaPutKey1_types env swkey output is_mask).nodup (by decide)

end Types

/-! ## Lengths -/

/-- All attributes have the length that they have to have. -/
def AllGood (attrs : List Nlattr) : Prop := ∀ a ∈ attrs, a.Good

@[simp] theorem allGood_nil : AllGood [] := nofun

@[simp] theorem allGood_append {attrs attrs' : List Nlattr} :
    AllGood (attrs ++ attrs') ↔ AllGood attrs ∧ AllGood attrs' :=
  List.forall_mem_append

@[simp] theorem allGood_cons {attr : OvsKeyAttr} {data : List (BitVec 8)} {attrs : List Nlattr} :
    AllGood (keyAttr attr data :: attrs) ↔
      (checkAttrLen data.length (ovsKeyLens attr) = true ∧ data.length < 65532) ∧ AllGood attrs := by
  unfold AllGood
  rw [List.forall_mem_cons]
  apply and_congr_left'
  constructor
  · rintro ⟨⟨hfits, -⟩, attr', htype, hlen⟩
    obtain rfl := ovsKeyAttrs_idxOf_inj htype
    have hlt : 4 + data.length < 65536 := hfits
    exact ⟨hlen, by omega⟩
  · rintro ⟨hlen, hfits⟩
    exact keyAttr_good hlen hfits

@[simp] theorem allGood_ite (c : Prop) [Decidable c] (attrs attrs' : List Nlattr) :
    AllGood (if c then attrs else attrs') ↔ if c then AllGood attrs else AllGood attrs' := by
  split_ifs
  · rfl
  · rfl

theorem attrsSize_ite_le {c : Prop} [Decidable c] {attrs attrs' : List Nlattr} {n : Nat}
    (h : attrsSize attrs ≤ n) (h' : attrsSize attrs' ≤ n) :
    attrsSize (if c then attrs else attrs') ≤ n := by
  split_ifs
  · exact h
  · exact h'

/-- A tunnel fits into an attribute. -/
theorem ipTunToNlattr1_size (pad : Bool) (output : SwFlowKey) {tun_opts : List (BitVec 8)}
    (hlen : tun_opts.length ≤ 255) (tun_proto : BitVec 8) :
    attrsSize (ipTunToNlattr1 pad output tun_opts tun_proto) ≤ 400 := by
  -- an attribute that may be left out
  have hopt : ∀ (c : Prop) [Decidable c] (attr : OvsTunnelKeyAttr) (data : List (BitVec 8)),
      attrsSize (if c then [tunAttr attr data] else []) ≤ nlaTotalSize data.length := by
    intro c _ attr data
    exact attrsSize_ite_le le_rfl (Nat.zero_le _)
  have hid : attrsSize (if output.be16 296 &&& 0x04 ≠ 0 then
      (if pad then [tunAttr .pad []] else []) ++ [tunAttr .id (output.bytes 256 8)] else []) ≤ 16 := by
    apply attrsSize_ite_le
    · have hpad := hopt (pad = true) .pad []
      rw [attrsSize_append, attrsSize_cons, tunAttr_data, SwFlowKey.bytes_length]
      exact Nat.add_le_add hpad (le_refl 12)
    · exact Nat.zero_le _
  have haddrs : attrsSize (tunAddrsToNlattr output tun_proto) ≤ 40 := by
    unfold tunAddrsToNlattr
    apply attrsSize_ite_le
    · rw [attrsSize_append]
      have hsrc := hopt (output.u32 264 ≠ 0) .ipv4Src (output.bytes 264 4)
      have hdst := hopt (output.u32 268 ≠ 0) .ipv4Dst (output.bytes 268 4)
      rw [SwFlowKey.bytes_length] at hsrc hdst
      exact (Nat.add_le_add hsrc hdst).trans (by decide)
    · apply attrsSize_ite_le
      · rw [attrsSize_append]
        have hsrc := hopt (output.bytes 264 16 ≠ List.replicate 16 0) .ipv6Src (output.bytes 264 16)
        have hdst := hopt (output.bytes 280 16 ≠ List.replicate 16 0) .ipv6Dst (output.bytes 280 16)
        rw [SwFlowKey.bytes_length] at hsrc hdst
        exact Nat.add_le_add hsrc hdst
      · exact Nat.zero_le _
  have hopts : attrsSize (tunOptsToNlattr output tun_opts) ≤ 260 := by
    unfold tunOptsToNlattr
    apply attrsSize_ite_le (Nat.zero_le _)
    apply attrsSize_ite_le
    · show nlaTotalSize tun_opts.length + 0 ≤ 260
      unfold nlaTotalSize nlaAlign nlaHdrlen
      omega
    · apply attrsSize_ite_le
      · show nlaTotalSize (nlaStream [⟨ovsVxlanExtGbp, slice tun_opts 0 4⟩]).length + 0 ≤ 260
        rw [nlaStream_length, attrsSize_cons, slice_length]
        decide
      · exact Nat.zero_le _
  unfold ipTunToNlattr1
  simp only [attrsSize_append]
  have htos := hopt (output.u8 298 ≠ 0) .tos (output.bytes 298 1)
  have httl : attrsSize [tunAttr .ttl (output.bytes 299 1)] = 8 := by
    rw [attrsSize_cons, tunAttr_data, SwFlowKey.bytes_length]
    rfl
  have hdf := hopt (output.be16 296 &&& 0x0100 ≠ 0) .dontFragment []
  have hcsum := hopt (output.be16 296 &&& 0x01 ≠ 0) .csum []
  have hsrc := hopt (output.u16 304 ≠ 0) .tpSrc (output.bytes 304 2)
  have hdst := hopt (output.u16 306 ≠ 0) .tpDst (output.bytes 306 2)
  have hoam := hopt (output.be16 296 &&& 0x0200 ≠ 0) .oam []
  have hone : nlaTotalSize 1 = 8 := rfl
  have htwo : nlaTotalSize 2 = 8 := rfl
  have hnone : nlaTotalSize 0 = 4 := rfl
  simp only [SwFlowKey.bytes_length, List.length_nil, hone, htwo, hnone] at htos hsrc hdst hdf hcsum hoam
  omega

/-- The length of an attribute is fixed, and it is short. -/
def ShortAttr (attr : OvsKeyAttr) : Prop := ∃ len, ovsKeyLens attr = .fixed len ∧ len ≤ 40

/-- Attributes without nests fit into an attribute. -/
theorem TypesIn.attrsSize_le {attrs : List Nlattr} {types : List OvsKeyAttr} (h : TypesIn attrs types)
    (hgood : AllGood attrs) (hshort : ∀ attr ∈ types, ShortAttr attr) :
    attrsSize attrs ≤ types.length * 44 := by
  have hsize : ∀ n ∈ attrs.map fun a => nlaTotalSize a.data.length, n ≤ 44 := by
    intro n hn
    obtain ⟨a, ha, rfl⟩ := List.mem_map.mp hn
    obtain ⟨-, attr, htype, hlen⟩ := hgood a ha
    obtain ⟨attr', hattr', heq⟩ := List.mem_map.mp (h.subset (List.mem_map_of_mem ha))
    obtain rfl := ovsKeyAttrs_idxOf_inj (heq.trans htype)
    obtain ⟨len, hlens, hle⟩ := hshort attr' hattr'
    rw [hlens] at hlen
    have hlen : len = a.data.length := eq_of_beq hlen
    unfold nlaTotalSize nlaAlign nlaHdrlen
    omega
  have hsum := List.sum_le_card_nsmul _ 44 hsize
  have hcard := h.length_le
  rw [List.length_map] at hsum
  rw [List.length_map, List.length_map] at hcard
  exact hsum.trans (Nat.mul_le_mul_right 44 hcard)

section Good

variable (env : PutEnv) (swkey output : SwFlowKey) (is_mask : Bool)

theorem putMetadata_good : AllGood (putMetadata env swkey output is_mask) := by
  have hsize := @ipTunToNlattr1_size env.pad output (output.tunMetadataOpts (swkey.u8 255).toNat)
    (by rw [SwFlowKey.tunMetadataOpts_length]; exact Nat.le_of_lt_succ (swkey.u8 255).isLt) (swkey.u8 323)
  have htuple : AllGood (putCtOrigTuple swkey output) := by
    unfold putCtOrigTuple
    simp [ovsKeyLens, checkAttrLen]
  have hin_port : AllGood (putInPort swkey output is_mask) := by
    unfold putInPort
    simp [ovsKeyLens, checkAttrLen]
  unfold putMetadata ovsCtPutKey ipTunToNlattr
  simp [ovsKeyLens, checkAttrLen, htuple, hin_port]
  omega

theorem putUntagged_good : AllGood (putUntagged swkey output is_mask) := by
  have hnetwork : AllGood (putNetwork swkey output) := by
    unfold putNetwork
    simp [ovsKeyLens, checkAttrLen]
  have htransport : AllGood (putTransport swkey output) := by
    unfold putTransport putIcmp
    simp [ovsKeyLens, checkAttrLen]
  unfold putUntagged
  simp [ovsKeyLens, checkAttrLen, hnetwork, htransport]

/-- The headers have no nest among them. -/
theorem headerTypes_short : ∀ attr ∈ OvsKeyAttr.ethertype :: headerTypes, ShortAttr attr := by
  simp [headerTypes, ShortAttr, ovsKeyLens]

theorem putUntagged_size : attrsSize (putUntagged swkey output is_mask) ≤ 528 :=
  (putUntagged_types swkey output is_mask).attrsSize_le (putUntagged_good swkey output is_mask)
    headerTypes_short

theorem ovsNlaPutVlan_good (off : Nat) : AllGood (ovsNlaPutVlan output off is_mask) := by
  unfold ovsNlaPutVlan
  simp [ovsKeyLens, checkAttrLen]
  split_ifs
  · exact ⟨rfl, by decide⟩
  · simp

/-- What is nested in a tag. -/
def putEncap : List Nlattr :=
  if swkey.vlanTci = 0 then []
  else if swkey.cvlanTci ≠ 0 ∨ ethTypeVlan swkey.ethType then
    ovsNlaPutVlan output 348 is_mask ++
      [keyAttr .encap (nlaStream (if swkey.cvlanTci = 0 then [] else putUntagged swkey output is_mask))]
  else putUntagged swkey output is_mask

theorem putTagged_eq (htagged : swkey.vlanTci ≠ 0 ∨ ethTypeVlan swkey.ethType = true) :
    putTagged swkey output is_mask =
      ovsNlaPutVlan output 344 is_mask ++ [keyAttr .encap (nlaStream (putEncap swkey output is_mask))] :=
  if_pos htagged

theorem putEncap_size : attrsSize (putEncap swkey output is_mask) ≤ 600 := by
  have hinner : attrsSize (if swkey.cvlanTci = 0 then [] else putUntagged swkey output is_mask) ≤ 528 :=
    attrsSize_ite_le (Nat.zero_le _) (putUntagged_size ..)
  have hvlan : attrsSize (ovsNlaPutVlan output 348 is_mask) = 16 := by
    unfold ovsNlaPutVlan
    simp only [attrsSize_cons, attrsSize_nil, keyAttr_data, SwFlowKey.bytes_length]
    split_ifs
    · rfl
    · rw [SwFlowKey.bytes_length]
      rfl
  unfold putEncap
  apply attrsSize_ite_le (Nat.zero_le _)
  apply attrsSize_ite_le
  · rw [attrsSize_append, hvlan, attrsSize_cons, keyAttr_data, nlaStream_length, nlaTotalSize_attrsSize]
    have hheader : nlaTotalSize 0 = 4 := rfl
    rw [hheader, attrsSize_nil]
    omega
  · exact (putUntagged_size swkey output is_mask).trans (by decide)

theorem putTagged_good : AllGood (putTagged swkey output is_mask) := by
  by_cases htagged : swkey.vlanTci ≠ 0 ∨ ethTypeVlan swkey.ethType = true
  · have hsize := putEncap_size swkey output is_mask
    rw [putTagged_eq _ _ _ htagged, allGood_append, allGood_cons, nlaStream_length]
    exact ⟨ovsNlaPutVlan_good _ _ _, ⟨rfl, by omega⟩, allGood_nil⟩
  · unfold putTagged
    rw [if_neg htagged]
    exact putUntagged_good _ _ _

/-- **Every attribute has the length** that the parser expects. -/
theorem ovsNlaPutKey1_good : AllGood (ovsNlaPutKey1 env swkey output is_mask) := by
  unfold ovsNlaPutKey1
  rw [allGood_append]
  refine ⟨putMetadata_good _ _ _ _, ?_⟩
  rw [allGood_ite]
  split_ifs
  · rw [allGood_cons]
    refine ⟨⟨?_, ?_⟩, putTagged_good _ _ _⟩
    · simp [checkAttrLen, ovsKeyLens]
    · simp
  · exact putUntagged_good _ _ _

end Good

end OvsDatapath.Flow
