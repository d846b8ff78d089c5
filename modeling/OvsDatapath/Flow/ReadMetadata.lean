import OvsDatapath.Flow.WrittenKey

/-!
# The metadata of a written key

`metadata_from_nlattrs` reads the attributes of metadata that `__ovs_nla_put_key` has written. What it
stores are copies of bytes of the key (`metadataFromNlattrs_put`), apart from the tunnel: only what has
not been written, or what it does not take, is missing from them.
-/

namespace OvsDatapath.Flow

open OvsDatapath.Lib

/-! ## Collected attributes -/

/-- What has been collected of some types is what a list of attributes says of them. -/
structure Tells (p : ParsedAttrs) (attrs : List Nlattr) (types : List OvsKeyAttr) : Prop where
  has : ∀ attr ∈ types, p.has attr = (attrData attrs attr).isSome
  data : ∀ attr ∈ types, ∀ data, attrData attrs attr = some data → p.data attr = data

theorem Collects.tells {attrs : List Nlattr} {p : ParsedAttrs} (h : Collects .empty attrs p)
    (types : List OvsKeyAttr) : Tells p attrs types := by
  constructor
  · intro attr _
    rw [ParsedAttrs.has, Bool.eq_iff_iff, decide_eq_true_iff, h.mem_attrs]
    simp [ParsedAttrs.empty]
  · intro attr _ data hdata
    rw [ParsedAttrs.data, h.a, hdata]
    rfl

theorem Tells.mono {p : ParsedAttrs} {attrs : List Nlattr} {types types' : List OvsKeyAttr}
    (h : Tells p attrs types) (hsub : types' ⊆ types) : Tells p attrs types' :=
  ⟨fun attr hattr => h.has attr (hsub hattr), fun attr hattr => h.data attr (hsub hattr)⟩

/-- The stores for an attribute, if a list has it. -/
def dataStores (f : List (BitVec 8) → OvsKeyAttr → KeyStores) (attrs : List Nlattr) (attr : OvsKeyAttr) :
    KeyStores :=
  match attrData attrs attr with
  | some data => f data attr
  | none => []

theorem Tells.attrStores_eq {p : ParsedAttrs} {attrs : List Nlattr} {types : List OvsKeyAttr}
    (h : Tells p attrs types) (f : List (BitVec 8) → OvsKeyAttr → KeyStores) :
    attrStores f p types = types.flatMap (dataStores f attrs) := by
  unfold attrStores
  apply List.flatMap_congr
  intro attr hattr
  unfold dataStores
  rw [h.has attr hattr]
  cases hdata : attrData attrs attr with
  | none => rfl
  | some data =>
      rw [h.data attr hattr data hdata]
      rfl

theorem attrStores_filter (f : List (BitVec 8) → OvsKeyAttr → KeyStores) (p : ParsedAttrs)
    (q : OvsKeyAttr → Bool) (types : List OvsKeyAttr) :
    attrStores f p (types.filter q) = attrStores (fun data attr => if q attr then f data attr else []) p types := by
  unfold attrStores
  induction types with
  | nil => rfl
  | cons attr types ih =>
      rw [List.filter_cons, List.flatMap_cons, ← ih]
      by_cases hq : q attr = true
      · simp [hq]
      · simp [hq]

/-! ## What is written -/

section Written

variable (put : PutEnv) (key : SwFlowKey)

/-- The stores that the tuple of a connection leads to. -/
def ctTupleKeyStores : KeyStores :=
  if key.u8 355 = 0 then []
  else if key.ethType = ethPIp then
    [⟨376, key.bytes 376 4⟩, ⟨380, key.bytes 380 4⟩, ⟨436, key.bytes 436 2⟩, ⟨438, key.bytes 438 2⟩,
      ⟨355, key.bytes 355 1⟩]
  else if key.ethType = ethPIpv6 then
    [⟨404, key.bytes 404 16⟩, ⟨420, key.bytes 420 16⟩, ⟨436, key.bytes 436 2⟩, ⟨438, key.bytes 438 2⟩,
      ⟨355, key.bytes 355 1⟩]
  else []

/-- The stores for an attribute of connection tracking that both sides have been configured for. -/
def ctKeyStores (netlink : NetlinkEnv) (attr : OvsKeyAttr) (off n : Nat) : KeyStores :=
  if put.ct_config attr = true ∧ netlink.ct_config attr = true then [⟨off, key.bytes off n⟩] else []

/-- The stores that the metadata of a key leads to, with those for its tunnel. -/
def metadataKeyStores (netlink : NetlinkEnv) (tunnel : KeyStores) : KeyStores :=
  [⟨324, key.bytes 324 4⟩, ⟨328, key.bytes 328 4⟩, ⟨312, key.bytes 312 4⟩] ++ [⟨320, key.bytes 320 2⟩] ++
    [⟨316, key.bytes 316 4⟩] ++ tunnel ++
    ([⟨354, key.bytes 354 1⟩] ++ ctKeyStores put key netlink .ctZone 360 2 ++
      ctKeyStores put key netlink .ctMark 440 4 ++ ctKeyStores put key netlink .ctLabels 444 16) ++
    ctTupleKeyStores key

/-- What the parser makes of the tunnel of a key. -/
def tunnelKeyStores (key0 : SwFlowKey) : Except Int KeyStores :=
  if key.u8 323 ≠ 0 then
    ipTunFromNlattr key0 (nlaStream (ipTunToNlattr1 put.pad key
      (key.tunMetadataOpts (key.u8 255).toNat) (key.u8 323))) false
  else .ok []

/-- What the metadata of a key says of a type. -/
theorem attrData_putMetadata (attr : OvsKeyAttr) :
    attrData (putMetadata put key key false) attr =
      match attr with
      | .recircId => some (key.bytes 328 4)
      | .dpHash => some (key.bytes 324 4)
      | .priority => some (key.bytes 312 4)
      | .tunnel => if key.u8 323 ≠ 0 then some (nlaStream (ipTunToNlattr1 put.pad key
          (key.tunMetadataOpts (key.u8 255).toNat) (key.u8 323))) else none
      | .inPort => if key.u16 320 = inPortNone then none else some (key.bytes 320 2 ++ [0, 0])
      | .skbMark => some (key.bytes 316 4)
      | .ctState => some (key.bytes 354 1 ++ zeros 3)
      | .ctZone => if put.ct_config .ctZone then some (key.bytes 360 2) else none
      | .ctMark => if put.ct_config .ctMark then some (key.bytes 440 4) else none
      | .ctLabels => if put.ct_config .ctLabels then some (key.bytes 444 16) else none
      | .ctOrigTupleIpv4 => attrData (putCtOrigTuple key key) .ctOrigTupleIpv4
      | .ctOrigTupleIpv6 => attrData (putCtOrigTuple key key) .ctOrigTupleIpv6
      | _ => none := by
  have hin_port : attrData (putInPort key key false) attr = if attr = .inPort then
      if key.u16 320 = inPortNone then none else some (key.bytes 320 2 ++ [0, 0]) else none := by
    unfold putInPort
    dsimp only
    rw [attrData_ite]
    cases attr with
    | _ => simp
  have htuple : attr ≠ .ctOrigTupleIpv4 → attr ≠ .ctOrigTupleIpv6 →
      attrData (putCtOrigTuple key key) attr = none := by
    intro h4 h6
    unfold putCtOrigTuple
    simp [attrData_ite, h4.symm, h6.symm]
  unfold putMetadata ovsCtPutKey ipTunToNlattr
  simp only [attrData_append, attrData_cons, attrData_nil, attrData_ite, hin_port]
  cases attr with
  | ctOrigTupleIpv4 | ctOrigTupleIpv6 => simp
  | _ =>
      rw [htuple (by decide) (by decide)]
      simp

/-- The tuple is read from where it has been written. -/
theorem dataStores_ctTuple :
    ctTupleAttrs.flatMap (dataStores metadataAttrStores (putMetadata put key key false)) =
      ctTupleKeyStores key := by
  have h4 := attrData_putMetadata put key .ctOrigTupleIpv4
  have h6 := attrData_putMetadata put key .ctOrigTupleIpv6
  dsimp only at h4 h6
  unfold ctTupleAttrs dataStores
  rw [List.flatMap_cons, List.flatMap_cons, List.flatMap_nil, h4, h6]
  unfold putCtOrigTuple ctTupleKeyStores
  by_cases hproto : key.u8 355 = 0
  · simp [hproto]
  by_cases hip : key.ethType = ethPIp
  · rw [if_neg hproto, if_neg hproto, if_pos hip, if_pos hip]
    rfl
  by_cases hipv6 : key.ethType = ethPIpv6
  · rw [if_neg hproto, if_neg hproto, if_neg hip, if_neg hip, if_pos hipv6, if_pos hipv6]
    rfl
  · simp [hip, hipv6]

/-- The state of a connection, and what has been configured. -/
theorem attrStores_ctAttrs {p : ParsedAttrs} (netlink : NetlinkEnv)
    (h : Tells p (putMetadata put key key false) metadataTypes) :
    attrStores metadataAttrStores p (ctAttrs netlink) =
      [⟨354, key.bytes 354 1⟩] ++ ctKeyStores put key netlink .ctZone 360 2 ++
        ctKeyStores put key netlink .ctMark 440 4 ++ ctKeyStores put key netlink .ctLabels 444 16 := by
  have hstate : slice (key.bytes 354 1 ++ zeros 3) 0 1 = key.bytes 354 1 := rfl
  rw [ctAttrs, attrStores_filter,
    (h.mono (show [OvsKeyAttr.ctState, .ctZone, .ctMark, .ctLabels] ⊆ metadataTypes by decide)).attrStores_eq]
  simp only [List.flatMap_cons, List.flatMap_nil, dataStores, attrData_putMetadata, List.append_nil,
    ovsCtVerify, metadataAttrStores, List.append_assoc]
  unfold ctKeyStores
  cases hzone : put.ct_config .ctZone <;> cases hmark : put.ct_config .ctMark <;>
    cases hlabels : put.ct_config .ctLabels <;> simp [hstate]

theorem inPortStores_put {p : ParsedAttrs} (h : Tells p (putMetadata put key key false) metadataTypes) :
    inPortStores p false = .ok [⟨320, key.bytes 320 2⟩] := by
  have hdata := attrData_putMetadata put key .inPort
  have hhas := h.has .inPort (by decide)
  dsimp only at hdata
  unfold inPortStores
  by_cases hnone : key.u16 320 = inPortNone
  · rw [if_pos hnone] at hdata
    rw [hhas, hdata]
    have hbytes : inPortNone = (0xFF : BitVec 8) ++ (0xFF : BitVec 8) := by decide
    rw [SwFlowKey.u16, hbytes] at hnone
    have hport := bitVec_append_inj.mp hnone
    have hport320 : key.bytes 320 2 = [key.u8 320, key.u8 (320 + 1)] := rfl
    rw [hport320, hport.1, hport.2]
    rfl
  · rw [if_neg hnone] at hdata
    rw [hhas, hdata, h.data .inPort (by decide) _ hdata]
    have hin_port : le32At (key.bytes 320 2 ++ [0, 0]) 0 =
        ((0 : BitVec 8) ++ (0 : BitVec 8)) ++ key.u16 320 := rfl
    have hzero : (0 : BitVec 8) ++ (0 : BitVec 8) = (0 : BitVec 16) := rfl
    have hlt : ¬ dpMaxPorts ≤ ((0 : BitVec 16) ++ key.u16 320).toNat := by
      intro hle
      apply hnone
      apply BitVec.eq_of_toNat_eq
      have hlt := (key.u16 320).isLt
      have happend : ((0 : BitVec 16) ++ key.u16 320).toNat = (key.u16 320).toNat := by
        rw [BitVec.toNat_append]
        show (0 : Nat) <<< 16 ||| _ = _
        rw [Nat.zero_shiftLeft, Nat.zero_or]
      rw [happend] at hle
      have hmax : inPortNone.toNat = 65535 := rfl
      rw [hmax]
      unfold dpMaxPorts at hle
      omega
    rw [hin_port, hzero, if_neg hlt]
    rfl

theorem tunnelAttrStores_put {p : ParsedAttrs} (key0 : SwFlowKey)
    (h : Tells p (putMetadata put key key false) metadataTypes) :
    tunnelAttrStores key0 p false = tunnelKeyStores put key key0 := by
  have hdata := attrData_putMetadata put key .tunnel
  have hhas := h.has .tunnel (by decide)
  dsimp only at hdata
  unfold tunnelAttrStores tunnelKeyStores
  rw [hhas]
  by_cases htunnel : key.u8 323 ≠ 0
  · rw [if_pos htunnel] at hdata
    rw [hdata, if_pos htunnel, h.data .tunnel (by decide) _ hdata]
    exact if_pos rfl
  · rw [if_neg htunnel] at hdata
    rw [hdata, if_neg htunnel]
    rfl

/-- **The metadata of a written key** is read as copies of its bytes. -/
theorem metadataFromNlattrs_put {p : ParsedAttrs} (netlink : NetlinkEnv) (key0 : SwFlowKey)
    (h : Tells p (putMetadata put key key false) metadataTypes) :
    metadataFromNlattrs netlink key0 p false = (do
      let tunnel ← tunnelKeyStores put key key0
      let stores := metadataKeyStores put key netlink tunnel ++ [⟨322, [p.macProto]⟩]
      let attrs := p.attrs \ (metadataAttrs netlink).toFinset
      if p.macProto = macProtoNone then do
        let eth_type ← parseEthTypeFromNlattrs p false
        .ok (⟨attrs.erase .ethertype, p.a⟩, stores ++ eth_type)
      else .ok (⟨attrs, p.a⟩, stores)) := by
  have hstate : p.data .ctState = key.bytes 354 1 ++ zeros 3 :=
    h.data .ctState (by decide) _ (attrData_putMetadata put key .ctState)
  have hsupported : le32At (key.bytes 354 1 ++ zeros 3) 0 &&& 0xFFFFFF00 = 0 := by
    have hword : le32At (key.bytes 354 1 ++ zeros 3) 0 =
        ((0 : BitVec 8) ++ (0 : BitVec 8)) ++ ((0 : BitVec 8) ++ key.u8 354) := rfl
    rw [hword]
    generalize key.u8 354 = state
    revert state
    decide
  have hphy : attrStores metadataAttrStores p phyAttrs =
      [⟨324, key.bytes 324 4⟩, ⟨328, key.bytes 328 4⟩, ⟨312, key.bytes 312 4⟩] := by
    rw [(h.mono (show phyAttrs ⊆ metadataTypes by decide)).attrStores_eq]
    simp [phyAttrs, dataStores, attrData_putMetadata, metadataAttrStores]
  have hmark : attrStores metadataAttrStores p [.skbMark] = [⟨316, key.bytes 316 4⟩] := by
    rw [(h.mono (show [OvsKeyAttr.skbMark] ⊆ metadataTypes by decide)).attrStores_eq]
    simp [dataStores, attrData_putMetadata, metadataAttrStores]
  have htuple : attrStores metadataAttrStores p ctTupleAttrs = ctTupleKeyStores key := by
    rw [(h.mono (show ctTupleAttrs ⊆ metadataTypes by decide)).attrStores_eq, dataStores_ctTuple]
  unfold metadataFromNlattrs
  rw [inPortStores_put put key h, tunnelAttrStores_put put key key0 h, hphy, hmark, htuple,
    attrStores_ctAttrs put key netlink h, hstate, hsupported]
  simp only [ne_eq, not_true_eq_false, and_false, if_false]
  rfl

end Written

end OvsDatapath.Flow
