import OvsDatapath.Flow.MatchFacts
import OvsDatapath.Flow.Streams

/-!
# What a mask says by itself

The mask of a match is parsed with the array of pointers that the parse of the key has filled. Almost
everywhere the bit of an attribute decides whether its pointer is used. The tags are an exception:
`encode_vlan_from_nlattrs` and the check before it use the pointers of VLAN and ETHERTYPE if there are
any, and these may be those of the key, or those of the tag outside.

`ownMask` is the mask that the attributes of the mask stand for, the key aside. An attribute that is
missing, or that holds only zeros, has no part in it (`ownMask_bits`). `mask_own_iff` says that the mask
of a match is its own if and only if each ENCAP in it comes with its VLAN and its ETHERTYPE.
-/

namespace OvsDatapath.Flow

open OvsDatapath.Lib

/-! ## The attributes of a mask -/

/-- An attribute of a level that does not hold only zeros. -/
def maskAttr (l : List (BitVec 8)) (attr : OvsKeyAttr) : Option (List (BitVec 8)) :=
  attrData (keptAttrs true (attrsOf l)) attr

/-- The attributes of a tag, which are used up with it. -/
def tagAttrs : List OvsKeyAttr := [.encap, .vlan, .ethertype]

/-- The attributes inside a tag, with those outside that are no part of the tag. -/
def innerAttrs (f : OvsKeyAttr → Option (List (BitVec 8))) (l : List (BitVec 8)) (attr : OvsKeyAttr) :
    Option (List (BitVec 8)) :=
  (maskAttr l attr).or (if attr ∈ tagAttrs then none else f attr)

/-- The stores for those attributes that there are, in the order of a list. -/
def fieldStores (g : List (BitVec 8) → OvsKeyAttr → KeyStores)
    (f : OvsKeyAttr → Option (List (BitVec 8))) (l : List OvsKeyAttr) : KeyStores :=
  l.flatMap fun attr => match f attr with
    | none => []
    | some data => g data attr

/-- The bit of `tun_flags` for an attribute of a tunnel. -/
def tunnelFlag : OvsTunnelKeyAttr → BitVec 16
  | .id => 0x04
  | .dontFragment => 0x0100
  | .csum => 0x01
  | .oam => 0x0200
  | .geneveOpts => 0x0800
  | .vxlanOpts => 0x1000
  | _ => 0

/-- The VXLAN options: the last policy given. -/
def vxlanOpts (data : List (BitVec 8)) : List (BitVec 8) :=
  (attrsOf data).foldl (fun _ nla => slice nla.data 0 4) (zeros 4)

/-- The part of a mask that an attribute of a tunnel stands for. -/
def tunnelFieldStores (data : List (BitVec 8)) : OvsTunnelKeyAttr → KeyStores
  | .id => [⟨256, slice data 0 8⟩]
  | .ipv4Src => [⟨264, slice data 0 4⟩]
  | .ipv4Dst => [⟨268, slice data 0 4⟩]
  | .ipv6Src => [⟨264, slice data 0 16⟩]
  | .ipv6Dst => [⟨280, slice data 0 16⟩]
  | .tos => [⟨298, slice data 0 1⟩]
  | .ttl => [⟨299, slice data 0 1⟩]
  | .tpSrc => [⟨304, slice data 0 2⟩]
  | .tpDst => [⟨306, slice data 0 2⟩]
  | .geneveOpts => [⟨255, [0xFF]⟩, ⟨255 - data.length, data⟩]
  | .vxlanOpts => [⟨255, [0xFF]⟩, ⟨251, slice (vxlanOpts data) 0 4⟩]
  | .dontFragment | .csum | .oam | .pad => []

/-- The stores of the attributes of a tunnel. -/
def tunnelAttrsStores (nlas : List Nlattr) : KeyStores :=
  nlas.flatMap fun nla => match ovsTunnelKeyAttrs[nla.type]? with
    | none => []
    | some attr => tunnelFieldStores nla.data attr

/-- The bits of `tun_flags` for the attributes of a tunnel. -/
def tunnelFlags (nlas : List Nlattr) (flags : BitVec 16) : BitVec 16 :=
  nlas.foldl (fun flags nla => match ovsTunnelKeyAttrs[nla.type]? with
    | none => flags
    | some attr => flags ||| tunnelFlag attr) flags

/-- The part of a mask that a tunnel stands for. The kind of tunnel is always matched exactly. -/
def tunnelMaskStores (data : List (BitVec 8)) : KeyStores :=
  tunnelAttrsStores (attrsOf data) ++ [⟨296, be16 (tunnelFlags (attrsOf data) 0)⟩, ⟨323, [0xFF]⟩]

/-- The part of a mask that an attribute stands for. Ports and types are always matched exactly. -/
def maskAttrStores (data : List (BitVec 8)) : OvsKeyAttr → KeyStores
  | .inPort => [⟨320, [0xFF, 0xFF]⟩]
  | .tunnel => tunnelMaskStores data
  | .ethernet => [⟨332, slice data 0 6⟩, ⟨338, slice data 6 6⟩]
  | .ethertype => [⟨352, [0xFF, 0xFF]⟩]
  | attr => metadataAttrStores data attr ++ headerAttrStores data attr

/-- The part of a mask that the attributes without tags stand for. Whether there is an Ethernet header
is always matched exactly. -/
def ownFields (env : NetlinkEnv) (f : OvsKeyAttr → Option (List (BitVec 8))) : KeyStores :=
  fieldStores maskAttrStores f (phyAttrs ++ [.inPort, .skbMark, .tunnel] ++ ctAttrs env ++ ctTupleAttrs) ++
    [⟨322, [0xFF]⟩] ++ fieldStores maskAttrStores f ([.ethernet, .ethertype] ++ headerAttrs)

/-- The part of a mask that the attributes of a tag stand for. -/
def tagFieldStores (off : Nat) (data : List (BitVec 8)) : OvsKeyAttr → KeyStores
  | .ethertype => [⟨off, slice data 0 2⟩]
  | .vlan => [⟨off + 2, slice data 0 2⟩]
  | _ => []

/-- The part of a mask that a tag stands for; nothing where an attribute is missing. -/
def ownTag (off : Nat) (f : OvsKeyAttr → Option (List (BitVec 8))) : KeyStores :=
  [.ethertype, .vlan].flatMap fun attr => tagFieldStores off ((f attr).getD []) attr

/-- The stores for both tags before they are parsed: a frame without a tag is matched exactly. -/
def tciStores : KeyStores := [⟨346, [0xFF, 0xFF]⟩, ⟨350, [0xFF, 0xFF]⟩]

/-- The part of a mask that the tags of a stream and everything else in it stand for. -/
def ownStores (env : NetlinkEnv) (l : List (BitVec 8)) : KeyStores :=
  match maskAttr l .encap with
  | none => ownFields env (maskAttr l)
  | some l₁ =>
      ownTag 344 (maskAttr l) ++
        match maskAttr l₁ .encap with
        | none => ownFields env (innerAttrs (maskAttr l) l₁)
        | some l₂ => ownTag 348 (maskAttr l₁) ++ ownFields env (innerAttrs (innerAttrs (maskAttr l) l₁) l₂)

/-- **The mask that a stream of attributes stands for**, whatever the key is. -/
def ownMask (env : NetlinkEnv) (l : List (BitVec 8)) : SwFlowMask := storesMask (tciStores ++ ownStores env l)

/-- A tag comes with its TCI and its type. -/
def tagOwn (l : List (BitVec 8)) : Bool := (maskAttr l .vlan).isSome && (maskAttr l .ethertype).isSome

/-- **Each tag of a mask is its own**: with an OVS_KEY_ATTR_ENCAP there are, at the same level, an
OVS_KEY_ATTR_VLAN and an OVS_KEY_ATTR_ETHERTYPE that do not hold only zeros. -/
def tagsOwn (l : List (BitVec 8)) : Bool :=
  match maskAttr l .encap with
  | none => true
  | some l₁ => tagOwn l && ((maskAttr l₁ .encap).isNone || tagOwn l₁)

/-! ## What is collected -/

variable {env : NetlinkEnv} {key : SwFlowKey} {p p' : ParsedAttrs} {stores : KeyStores}
variable {data l : List (BitVec 8)} {f : OvsKeyAttr → Option (List (BitVec 8))}

theorem attrData_some {nlas : List Nlattr} {attr : OvsKeyAttr} (h : attrData nlas attr = some data) :
    ∃ nla ∈ nlas, ovsKeyAttrs[nla.type]? = some attr ∧ nla.data = data := by
  obtain ⟨nla, hfind, rfl⟩ := Option.map_eq_some_iff.mp h
  have htype : nla.type = ovsKeyAttrs.idxOf attr := by simpa using List.find?_some hfind
  exact ⟨nla, List.mem_of_find?_eq_some hfind, htype ▸ ovsKeyAttrs_idxOf attr, rfl⟩

theorem attrData_isSome {nlas : List Nlattr} {nla : Nlattr} {attr : OvsKeyAttr} (h : nla ∈ nlas)
    (hattr : ovsKeyAttrs[nla.type]? = some attr) : (attrData nlas attr).isSome := by
  unfold attrData
  rw [Option.isSome_map, List.find?_isSome]
  exact ⟨nla, h, beq_iff_eq.mpr (eq_idxOf hattr)⟩

theorem mem_keptAttrs {nz : Bool} {nlas : List Nlattr} {nla : Nlattr} {attr : OvsKeyAttr}
    (hattr : ovsKeyAttrs[nla.type]? = some attr) :
    nla ∈ keptAttrs nz nlas ↔ nla ∈ nlas ∧ (nz && isAllZero nla.data (ovsKeyLens attr)) = false := by
  unfold keptAttrs keepAttr
  rw [List.mem_filter, hattr, Bool.not_eq_true']

/-- The attributes that the loop has gone through are collected. -/
theorem Collected.collects {nz : Bool} {nlas : List Nlattr} (h : Collected nz nlas p p') :
    Collects p (keptAttrs nz nlas) p' := by
  obtain ⟨hknown, hkept, hnew, hstale⟩ := h
  have hmem : ∀ attr, attr ∈ p'.attrs ↔ attr ∈ p.attrs ∨ (attrData (keptAttrs nz nlas) attr).isSome := by
    intro attr
    constructor
    · intro hin
      by_cases hold : attr ∈ p.attrs
      · exact .inl hold
      · obtain ⟨nla, hnla, hattr, -, hnz, -⟩ := hnew attr hin hold
        exact .inr (attrData_isSome ((mem_keptAttrs hattr).mpr ⟨hnla, hnz⟩) hattr)
    · rintro (hold | hsome)
      · exact (hkept attr hold).1
      · obtain ⟨data, hdata⟩ := Option.isSome_iff_exists.mp hsome
        obtain ⟨nla, hnla, hattr, -⟩ := attrData_some hdata
        obtain ⟨hin, hnz⟩ := (mem_keptAttrs hattr).mp hnla
        obtain ⟨attr', hattr', -, -, hset⟩ := hknown nla hin
        obtain rfl := Option.some.inj (hattr.symm.trans hattr')
        exact (hset hnz).1
  refine ⟨hmem, fun attr => ?_⟩
  cases hdata : attrData (keptAttrs nz nlas) attr with
  | some data =>
      obtain ⟨nla, hnla, hattr, rfl⟩ := attrData_some hdata
      obtain ⟨hin, hnz⟩ := (mem_keptAttrs hattr).mp hnla
      obtain ⟨attr', hattr', -, -, hset⟩ := hknown nla hin
      obtain rfl := Option.some.inj (hattr.symm.trans hattr')
      exact (hset hnz).2
  | none =>
      rw [Option.none_or]
      by_cases hold : attr ∈ p.attrs
      · exact (hkept attr hold).2
      · apply hstale
        rw [hmem, hdata]
        exact fun hin => hin.elim hold nofun

theorem parseFlowNlattrs_mask (h : parseFlowNlattrs true l p = .ok p') (attr : OvsKeyAttr) :
    (attr ∈ p'.attrs ↔ attr ∈ p.attrs ∨ (maskAttr l attr).isSome) ∧
      p'.a attr = (maskAttr l attr).or (p.a attr) := by
  obtain ⟨hmem, ha⟩ := (parseFlowNlattrs_ok h).2.collects
  exact ⟨hmem attr, ha attr⟩

/-- The bits of the parser are those of certain attributes, and so are the pointers where the bits are
set. -/
structure OwnAttrs (f : OvsKeyAttr → Option (List (BitVec 8))) (p : ParsedAttrs) : Prop where
  mem : ∀ attr, attr ∈ p.attrs ↔ (f attr).isSome
  data : ∀ attr data, f attr = some data → p.data attr = data

theorem OwnAttrs.has (hp : OwnAttrs f p) (attr : OvsKeyAttr) : p.has attr = (f attr).isSome := by
  rw [Bool.eq_iff_iff, ← hp.mem]
  exact decide_eq_true_iff

/-- The outer level, whatever the array held before. -/
theorem ownAttrs_outer {a : OvsKeyAttr → Option (List (BitVec 8))}
    (h : parseFlowNlattrs true l ⟨∅, a⟩ = .ok p) : OwnAttrs (maskAttr l) p := by
  refine ⟨fun attr => ?_, fun attr data hdata => ?_⟩
  · rw [(parseFlowNlattrs_mask h attr).1]
    exact or_iff_right (Finset.notMem_empty attr)
  · unfold ParsedAttrs.data
    rw [(parseFlowNlattrs_mask h attr).2, hdata]
    rfl

/-- The attributes without those of a tag. -/
def ParsedAttrs.clearTag (p : ParsedAttrs) : ParsedAttrs := ((p.clear .encap).clear .vlan).clear .ethertype

theorem ParsedAttrs.mem_clearTag (p : ParsedAttrs) (attr : OvsKeyAttr) :
    attr ∈ p.clearTag.attrs ↔ attr ∉ tagAttrs ∧ attr ∈ p.attrs := by
  unfold clearTag clear tagAttrs
  simp only [Finset.mem_erase, List.mem_cons, List.not_mem_nil, or_false, not_or]
  tauto

/-- A level inside a tag. -/
theorem OwnAttrs.inner (hp : OwnAttrs f p) (h : parseFlowNlattrs true l p.clearTag = .ok p') :
    OwnAttrs (innerAttrs f l) p' := by
  refine ⟨fun attr => ?_, fun attr data hdata => ?_⟩
  · rw [(parseFlowNlattrs_mask h attr).1, p.mem_clearTag, hp.mem]
    unfold innerAttrs
    rw [Option.isSome_or, Bool.or_eq_true]
    by_cases htag : attr ∈ tagAttrs
    · simp only [htag, not_true_eq_false, false_and, false_or, if_true, Option.isSome_none,
        Bool.false_eq_true, or_false]
    · simp only [htag, not_false_eq_true, true_and, if_false]
      exact or_comm
  · unfold ParsedAttrs.data
    unfold innerAttrs at hdata
    rw [(parseFlowNlattrs_mask h attr).2]
    obtain hin | ⟨hnone, hout⟩ := Option.or_eq_some_iff.mp hdata
    · rw [hin]
      rfl
    · split_ifs at hout
      rw [hnone, Option.none_or]
      exact hp.data attr data hout

/-! ## What is stored -/

theorem vxlanTunOptLoop_opts {nlas : List Nlattr} {opts opts' : List (BitVec 8)}
    (h : vxlanTunOptLoop nlas opts = .ok opts') :
    opts' = nlas.foldl (fun _ nla => slice nla.data 0 4) opts := by
  induction nlas generalizing opts with
  | nil => exact (Except.ok.inj h).symm
  | cons nla rest ih =>
      unfold vxlanTunOptLoop at h
      split_ifs at h
      exact ih h

theorem vxlanTunOpt_stores (h : vxlanTunOptFromNlattr data true = .ok stores) :
    stores = tunnelFieldStores data .vxlanOpts := by
  unfold vxlanTunOptFromNlattr at h
  dsimp only at h
  split at h
  · cases h
  · rename_i hloop
    obtain rfl := vxlanTunOptLoop_opts hloop
    rw [if_pos rfl] at h
    split_ifs at h
    exact (Except.ok.inj h).symm

theorem genevTunOpt_stores (h : genevTunOptFromNlattr key data true = .ok stores) :
    stores = tunnelFieldStores data .geneveOpts := by
  unfold genevTunOptFromNlattr at h
  rw [show (if true = true then (0xFF : BitVec 8) else BitVec.ofNat 8 data.length) = 0xFF from if_pos rfl] at h
  split_ifs at h
  exact (Except.ok.inj h).symm

/-- One attribute of a tunnel: what it stores does not depend on the key. -/
theorem ipTunAttr_own {s s' : TunState} {attr : OvsTunnelKeyAttr}
    (h : ipTunAttr key true s data attr = .ok s') :
    s'.stores = s.stores ++ tunnelFieldStores data attr ∧ s'.tun_flags = s.tun_flags ||| tunnelFlag attr := by
  cases attr with
  | geneveOpts =>
      dsimp only [ipTunAttr] at h
      split_ifs at h
      split at h
      · cases h
      · rename_i hopts
        obtain rfl := Except.ok.inj h
        exact ⟨congrArg _ (genevTunOpt_stores hopts), rfl⟩
  | vxlanOpts =>
      dsimp only [ipTunAttr] at h
      split_ifs at h
      split at h
      · cases h
      · rename_i hopts
        obtain rfl := Except.ok.inj h
        exact ⟨congrArg _ (vxlanTunOpt_stores hopts), rfl⟩
  | _ =>
      obtain rfl := Except.ok.inj h
      simp [tunnelFieldStores, tunnelFlag]

theorem ipTunLoop_own {nlas : List Nlattr} {s s' : TunState} (h : ipTunLoop key true nlas s = .ok s') :
    s'.stores = s.stores ++ tunnelAttrsStores nlas ∧ s'.tun_flags = tunnelFlags nlas s.tun_flags := by
  induction nlas generalizing s with
  | nil =>
      obtain rfl := Except.ok.inj h
      exact ⟨(List.append_nil _).symm, rfl⟩
  | cons nla rest ih =>
      unfold ipTunLoop at h
      split at h
      · cases h
      · rename_i attr hattr
        split_ifs at h
        split at h
        · cases h
        · rename_i s₁ hstep
          obtain ⟨hstores, hflags⟩ := ih h
          obtain ⟨hstores₁, hflags₁⟩ := ipTunAttr_own hstep
          have hcons : tunnelAttrsStores (nla :: rest) =
              tunnelFieldStores nla.data attr ++ tunnelAttrsStores rest := by
            unfold tunnelAttrsStores
            rw [List.flatMap_cons, hattr]
          have hflag : tunnelFlags (nla :: rest) s.tun_flags =
              tunnelFlags rest (s.tun_flags ||| tunnelFlag attr) := by
            unfold tunnelFlags
            rw [List.foldl_cons, hattr]
          rw [hcons, hflag, ← List.append_assoc, ← hstores₁, ← hflags₁]
          exact ⟨hstores, hflags⟩

theorem ipTun_own (h : ipTunFromNlattr key data true = .ok stores) : stores = tunnelMaskStores data := by
  unfold ipTunFromNlattr at h
  dsimp only at h
  split at h
  · cases h
  · rename_i s hloop
    obtain ⟨hstores, hflags⟩ := ipTunLoop_own hloop
    simp only [Bool.not_true, Bool.false_and, Bool.false_eq_true, if_false, if_true] at h
    split_ifs at h
    obtain rfl := Except.ok.inj h
    rw [hstores, hflags]
    rfl

/-- The Geneve options of a tunnel fit into the key. -/
def GeneveFits (nlas : List Nlattr) : Prop :=
  ∀ nla ∈ nlas, ovsTunnelKeyAttrs[nla.type]? = some .geneveOpts → nla.data.length ≤ 255

theorem ipTunLoop_geneve {is_mask : Bool} {nlas : List Nlattr} {s s' : TunState}
    (h : ipTunLoop key is_mask nlas s = .ok s') : GeneveFits nlas := by
  induction nlas generalizing s with
  | nil => exact nofun
  | cons nla rest ih =>
      unfold ipTunLoop at h
      split at h
      · cases h
      · rename_i attr hattr
        split_ifs at h
        split at h
        · cases h
        · rename_i s₁ hstep
          refine List.forall_mem_cons.mpr ⟨fun hopts => ?_, ih h⟩
          obtain rfl := Option.some.inj (hattr.symm.trans hopts)
          dsimp only [ipTunAttr] at hstep
          split_ifs at hstep
          split at hstep
          · cases hstep
          · rename_i hgeneve
            unfold genevTunOptFromNlattr at hgeneve
            split_ifs at hgeneve with hlen
            all_goals omega

theorem ipTun_geneve {is_mask : Bool} (h : ipTunFromNlattr key data is_mask = .ok stores) :
    GeneveFits (attrsOf data) := by
  unfold ipTunFromNlattr at h
  dsimp only at h
  split at h
  · cases h
  · rename_i hloop
    exact ipTunLoop_geneve hloop

/-- The attributes of a list, as the parser has them. -/
theorem OwnAttrs.attrStores (hp : OwnAttrs f p) {g : List (BitVec 8) → OvsKeyAttr → KeyStores}
    {attrs : List OvsKeyAttr} (hg : ∀ attr ∈ attrs, ∀ data, g data attr = maskAttrStores data attr) :
    attrStores g p attrs = fieldStores maskAttrStores f attrs := by
  unfold Flow.attrStores fieldStores
  apply List.flatMap_congr
  intro attr hmem
  rw [hp.has]
  cases hdata : f attr with
  | none => rfl
  | some data =>
      rw [Option.isSome_some, if_pos rfl, hp.data attr data hdata]
      exact hg attr hmem data

theorem fieldStores_append (g : List (BitVec 8) → OvsKeyAttr → KeyStores) (l l' : List OvsKeyAttr) :
    fieldStores g f (l ++ l') = fieldStores g f l ++ fieldStores g f l' :=
  List.flatMap_append

theorem fieldStores_singleton (g : List (BitVec 8) → OvsKeyAttr → KeyStores) (attr : OvsKeyAttr) :
    fieldStores g f [attr] = match f attr with
      | none => []
      | some data => g data attr :=
  List.flatMap_singleton ..

theorem OwnAttrs.inPort (hp : OwnAttrs f p) (h : inPortStores p true = .ok stores) :
    stores = fieldStores maskAttrStores f [.inPort] := by
  rw [fieldStores_singleton]
  unfold inPortStores at h
  rw [hp.has] at h
  cases hport : f .inPort with
  | none =>
      rw [hport] at h
      exact (Except.ok.inj h).symm
  | some data =>
      rw [hport] at h
      exact (Except.ok.inj h).symm

theorem OwnAttrs.tunnel (hp : OwnAttrs f p) (h : tunnelAttrStores key p true = .ok stores) :
    stores = fieldStores maskAttrStores f [.tunnel] ∧
      ∀ data, f .tunnel = some data → GeneveFits (attrsOf data) := by
  rw [fieldStores_singleton]
  unfold tunnelAttrStores at h
  rw [hp.has] at h
  cases htunnel : f .tunnel with
  | none =>
      rw [htunnel] at h
      exact ⟨(Except.ok.inj h).symm, nofun⟩
  | some data =>
      rw [htunnel, Option.isSome_some, if_pos rfl, hp.data _ _ htunnel] at h
      refine ⟨ipTun_own h, fun data' heq => ?_⟩
      obtain rfl := Option.some.inj heq
      exact ipTun_geneve h

/-- The attributes that `metadata_from_nlattrs` does not look at are left. -/
theorem MetadataParsed.left {is_mask : Bool} (h : MetadataParsed env key p is_mask p' stores)
    {attr : OvsKeyAttr} (hmeta : attr ∉ metadataAttrs env) (hne : attr ≠ .ethertype) :
    attr ∈ p'.attrs ↔ attr ∈ p.attrs := by
  rw [h.attrs]
  split_ifs
  · rw [Finset.mem_erase, Finset.mem_sdiff, List.mem_toFinset]
    exact ⟨fun hin => hin.2.1, fun hin => ⟨hne, hin, hmeta⟩⟩
  · rw [Finset.mem_sdiff, List.mem_toFinset]
    exact and_iff_left hmeta

theorem ethernet_notMem_metadata : OvsKeyAttr.ethernet ∉ metadataAttrs env := by
  simp [metadataAttrs, ctAttrs, phyAttrs, ctTupleAttrs]

theorem ethertype_notMem_metadata : OvsKeyAttr.ethertype ∉ metadataAttrs env := by
  simp [metadataAttrs, ctAttrs, phyAttrs, ctTupleAttrs]

theorem header_notMem_metadata {attr : OvsKeyAttr} (h : attr ∈ headerAttrs) : attr ∉ metadataAttrs env := by
  unfold metadataAttrs ctAttrs
  cases attr <;> simp_all [phyAttrs, ctTupleAttrs, headerAttrs]

/-- The Ethernet header and the type, which is metadata if there is no such header. -/
theorem OwnAttrs.ethernet (hp : OwnAttrs f p) {p₁ : ParsedAttrs} {meta_stores eth_type eth_stores : KeyStores}
    (hmeta : MetadataParsed env key p true p₁ meta_stores)
    (heth_type : if p.macProto = macProtoNone then parseEthTypeFromNlattrs p true = .ok eth_type
      else eth_type = [])
    (heth : ethFromNlattrs key p₁ true = .ok (p', eth_stores)) :
    eth_type ++ eth_stores = fieldStores maskAttrStores f [.ethernet, .ethertype] := by
  have hhas : p₁.has .ethernet = (f .ethernet).isSome := by
    rw [← hp.has]
    exact decide_eq_decide.mpr (hmeta.left ethernet_notMem_metadata nofun)
  rw [show [OvsKeyAttr.ethernet, .ethertype] = [.ethernet] ++ [.ethertype] from rfl, fieldStores_append,
    fieldStores_singleton, fieldStores_singleton]
  unfold ethFromNlattrs at heth
  rw [hhas] at heth
  cases hethernet : f .ethernet with
  | none =>
      unfold ParsedAttrs.macProto at heth_type
      rw [hp.has, hp.has, hethernet] at heth_type
      rw [hethernet] at heth
      simp only [Option.isSome_none, Bool.false_eq_true, if_false, Bool.not_false, Bool.true_and] at heth heth_type
      split_ifs at heth
      obtain ⟨-, rfl⟩ := Prod.mk.inj (Except.ok.inj heth)
      rw [List.append_nil, List.nil_append]
      cases htype : f .ethertype with
      | none =>
          rw [htype] at heth_type
          exact heth_type
      | some data =>
          rw [htype] at heth_type
          exact (Except.ok.inj heth_type).symm
  | some data =>
      have hnone : p.macProto ≠ macProtoNone := by
        unfold ParsedAttrs.macProto
        rw [hp.has, hethernet, if_neg (by simp)]
        decide
      have htype_left : OvsKeyAttr.ethertype ∈ p₁.attrs ↔ OvsKeyAttr.ethertype ∈ p.attrs := by
        rw [hmeta.attrs, if_neg hnone, Finset.mem_sdiff, List.mem_toFinset]
        exact and_iff_left ethertype_notMem_metadata
      have hdata : p₁.data .ethernet = data := by
        unfold ParsedAttrs.data
        rw [hmeta.a]
        exact hp.data _ _ hethernet
      have hhas_type : (p₁.clear .ethernet).has .ethertype = (f .ethertype).isSome := by
        rw [← hp.has]
        apply decide_eq_decide.mpr
        rw [← htype_left]
        exact Finset.mem_erase.trans (and_iff_right nofun)
      rw [if_neg hnone] at heth_type
      subst heth_type
      rw [hethernet] at heth
      rw [Option.isSome_some, if_pos rfl] at heth
      dsimp only at heth
      rw [hhas_type, hdata] at heth
      rw [List.nil_append]
      simp only [if_true] at heth
      split_ifs at heth with hvlan hsome
      · obtain ⟨eth_type, htype, heth⟩ := bind_eq_ok.mp heth
        obtain ⟨-, rfl⟩ := Prod.mk.inj (Except.ok.inj heth)
        obtain rfl := Except.ok.inj htype
        obtain ⟨type, htype⟩ := Option.isSome_iff_exists.mp hsome
        rw [htype]
        rfl
      · obtain ⟨-, rfl⟩ := Prod.mk.inj (Except.ok.inj heth)
        rw [Option.not_isSome_iff_eq_none.mp hsome]
        rfl

theorem maskAttrStores_header : ∀ attr ∈ headerAttrs, ∀ data,
    headerAttrStores data attr = maskAttrStores data attr := by
  unfold headerAttrs
  simp only [List.forall_mem_cons]
  exact ⟨fun _ => rfl, fun _ => rfl, fun _ => rfl, fun _ => rfl, fun _ => rfl, fun _ => rfl, fun _ => rfl,
    fun _ => rfl, fun _ => rfl, fun _ => rfl, fun _ => rfl, nofun⟩

theorem maskAttrStores_metadata : ∀ attr ∈ phyAttrs ++ [.skbMark, .ctState, .ctZone, .ctMark, .ctLabels] ++
    ctTupleAttrs, ∀ data, metadataAttrStores data attr = maskAttrStores data attr := by
  unfold phyAttrs ctTupleAttrs
  simp only [List.forall_mem_append, List.forall_mem_cons]
  exact ⟨⟨⟨fun _ => rfl, fun _ => rfl, fun _ => rfl, nofun⟩, fun _ => rfl, fun _ => rfl, fun _ => rfl,
    fun _ => rfl, fun _ => rfl, nofun⟩, fun _ => rfl, fun _ => rfl, nofun⟩

/-- **What is stored into a mask beside the tags does not depend on the key.** -/
theorem OwnAttrs.fields (hp : OwnAttrs f p) (h : ovsKeyFromNlattrs env key p true = .ok stores) :
    stores = ownFields env f ∧ ∀ data, f .tunnel = some data → GeneveFits (attrsOf data) := by
  obtain ⟨p₁, meta_stores, p₂, eth_stores, hmeta, heth, -, -, rfl⟩ := ovsKeyFromNlattrs_ok h
  obtain ⟨in_port, tunnel, eth_type, hin_port, htunnel, heth_type, rfl⟩ := hmeta.parts
  obtain ⟨ha, hrest⟩ := ethFromNlattrs_rest heth
  have hheaders : Flow.attrStores headerAttrStores p₂ headerAttrs = fieldStores maskAttrStores f headerAttrs := by
    rw [← hp.attrStores (g := headerAttrStores)]
    · unfold Flow.attrStores
      apply List.flatMap_congr
      intro attr hmem
      have hhas : p₂.has attr = p.has attr := by
        apply decide_eq_decide.mpr
        rw [hrest attr (by rintro rfl; revert hmem; decide) (by rintro rfl; revert hmem; decide)]
        exact hmeta.left (header_notMem_metadata hmem) (by rintro rfl; revert hmem; decide)
      have hdata : p₂.data attr = p.data attr := by
        unfold ParsedAttrs.data
        rw [ha, hmeta.a]
      rw [hhas, hdata]
    · exact maskAttrStores_header
  have hmetadata := fun (attrs : List OvsKeyAttr) (hsub : attrs ⊆ phyAttrs ++
      [.skbMark, .ctState, .ctZone, .ctMark, .ctLabels] ++ ctTupleAttrs) =>
    hp.attrStores (g := metadataAttrStores) fun attr hmem => maskAttrStores_metadata attr (hsub hmem)
  have hct : ctAttrs env ⊆ [.ctState, .ctZone, .ctMark, .ctLabels] := List.filter_sublist.subset
  obtain ⟨htun, hgeneve⟩ := hp.tunnel htunnel
  refine ⟨?_, hgeneve⟩
  rw [hmetadata phyAttrs, hp.inPort hin_port, hmetadata [.skbMark], htun,
    hmetadata (ctAttrs env), hmetadata ctTupleAttrs, hheaders, List.append_assoc _ eth_type,
    hp.ethernet hmeta heth_type heth]
  · unfold ownFields
    rw [show [OvsKeyAttr.inPort, .skbMark, .tunnel] = [.inPort] ++ [.skbMark] ++ [.tunnel] from rfl]
    simp only [fieldStores_append, List.append_assoc, if_true]
  · exact List.subset_append_right _ _
  · intro attr hmem
    exact List.mem_append_left _ (List.mem_append_right _ (List.mem_cons_of_mem _ (hct hmem)))
  · exact fun attr hmem => List.mem_append_left _
      (List.mem_append_right _ (List.mem_singleton.mp hmem ▸ List.mem_cons_self))
  · exact fun attr hmem => List.mem_append_left _ (List.mem_append_left _ hmem)

/-! ## What the stores reach -/

theorem reaches_fieldStores {g : List (BitVec 8) → OvsKeyAttr → KeyStores} {attrs : List OvsKeyAttr} {j : Nat}
    (h : Reaches (fieldStores g f attrs) j) :
    ∃ attr ∈ attrs, ∃ data, f attr = some data ∧ Reaches (g data attr) j := by
  obtain ⟨attr, hmem, hreach⟩ := (reaches_flatMap ..).mp h
  refine ⟨attr, hmem, ?_⟩
  cases hdata : f attr with
  | none =>
      rw [hdata] at hreach
      cases hreach
  | some data =>
      rw [hdata] at hreach
      exact ⟨data, rfl, hreach⟩

/-- The part of a tunnel ends before that of the tags. -/
theorem tunnelMaskStores_lt (hgeneve : GeneveFits (attrsOf data)) {j : Nat}
    (h : Reaches (tunnelMaskStores data) j) : j < 344 := by
  unfold tunnelMaskStores at h
  rw [reaches_append] at h
  obtain h | h := h
  · obtain ⟨nla, hnla, hreach⟩ := (reaches_flatMap ..).mp h
    split at hreach
    · cases hreach
    · rename_i attr hattr
      cases attr with
      | geneveOpts =>
          have hlen := hgeneve nla hnla hattr
          simp [tunnelFieldStores] at hreach
          omega
      | _ =>
          simp [tunnelFieldStores] at hreach
          try omega
  · simp [be16_length] at h
    omega

/-- No attribute has a part where the tags are. -/
theorem maskAttrStores_noTag {attr : OvsKeyAttr} (hgeneve : attr = .tunnel → GeneveFits (attrsOf data))
    {j : Nat} (h : Reaches (maskAttrStores data attr) j) : j < 344 ∨ 352 ≤ j := by
  cases attr with
  | tunnel => exact .inl (tunnelMaskStores_lt (hgeneve rfl) h)
  | _ =>
      simp [maskAttrStores, metadataAttrStores, headerAttrStores] at h
      try omega

theorem ownFields_noTag (hgeneve : ∀ data, f .tunnel = some data → GeneveFits (attrsOf data)) {j : Nat}
    (h : Reaches (ownFields env f) j) : j < 344 ∨ 352 ≤ j := by
  unfold ownFields at h
  simp only [reaches_append] at h
  obtain (h | h) | h := h
  · obtain ⟨attr, -, data, hdata, hreach⟩ := reaches_fieldStores h
    exact maskAttrStores_noTag (by rintro rfl; exact hgeneve data hdata) hreach
  · simp at h
    omega
  · obtain ⟨attr, -, data, hdata, hreach⟩ := reaches_fieldStores h
    exact maskAttrStores_noTag (by rintro rfl; exact hgeneve data hdata) hreach

/-! ## Tags -/

variable {inner : Bool} {off : Nat} {x x' y y' : List (BitVec 8)}

/-- The stores for the type and the TCI of a tag. -/
def tagPair (off : Nat) (x y : List (BitVec 8)) : KeyStores := [⟨off, slice x 0 2⟩, ⟨off + 2, slice y 0 2⟩]

theorem ownTag_eq (off : Nat) (f : OvsKeyAttr → Option (List (BitVec 8))) :
    ownTag off f = tagPair off ((f .ethertype).getD []) ((f .vlan).getD []) := rfl

theorem encodeVlan_eq (p : ParsedAttrs) (inner : Bool) :
    encodeVlanFromNlattrs p inner =
      tagPair (if inner then 348 else 344) (p.data .ethertype) (p.data .vlan) := rfl

theorem stored_tagPair_type (off : Nat) (x y : List (BitVec 8)) {i : Nat} (hi : i < 2) :
    stored (tagPair off x y) (off + i) = some (byteAt x i) := by
  unfold tagPair
  obtain rfl | rfl : i = 0 ∨ i = 1 := by omega
  all_goals simp [stored, Store.at, slice]

theorem stored_tagPair_tci (off : Nat) (x y : List (BitVec 8)) {i : Nat} (hi : i < 2) :
    stored (tagPair off x y) (off + 2 + i) = some (byteAt y i) := by
  unfold tagPair
  obtain rfl | rfl : i = 0 ∨ i = 1 := by omega
  all_goals simp [stored, Store.at, slice]

/-- Masks that are the same agree on a tag that is stored into both. -/
theorem tagPair_inj {a a' r r' : KeyStores} (hoff : off + 4 ≤ swFlowKeySize)
    (hr : ∀ j, off ≤ j → j < off + 4 → ¬ Reaches r j) (hr' : ∀ j, off ≤ j → j < off + 4 → ¬ Reaches r' j)
    (h : storesMask (a ++ (tagPair off x y ++ r)) = storesMask (a' ++ (tagPair off x' y' ++ r'))) :
    be16Of x 0 = be16Of x' 0 ∧ be16Of y 0 = be16Of y' 0 := by
  have hbyte : ∀ (j : Nat) (v v' : BitVec 8), off ≤ j → j < off + 4 → stored (tagPair off x y) j = some v →
      stored (tagPair off x' y') j = some v' → v = v' := by
    intro j v v' hj hj' hv hv'
    have hu8 := congrArg (fun mask : SwFlowMask => mask.key.u8 j) h
    dsimp only [storesMask] at hu8
    rw [SwFlowKey.store_u8 (by omega), SwFlowKey.store_u8 (by omega), stored_mid hv (hr j hj hj'),
      stored_mid hv' (hr' j hj hj')] at hu8
    exact hu8
  have htype : ∀ i < 2, byteAt x i = byteAt x' i := fun i hi => hbyte (off + i) _ _ (by omega) (by omega)
    (stored_tagPair_type off x y hi) (stored_tagPair_type off x' y' hi)
  have htci : ∀ i < 2, byteAt y i = byteAt y' i := fun i hi => hbyte (off + 2 + i) _ _ (by omega) (by omega)
    (stored_tagPair_tci off x y hi) (stored_tagPair_tci off x' y' hi)
  unfold be16Of
  rw [htype 0 (by omega), htype 1 (by omega), htci 0 (by omega), htci 1 (by omega)]
  exact ⟨rfl, rfl⟩

/-- What is known of a tag that the parser accepts in a mask. -/
structure TagParsed (f : OvsKeyAttr → Option (List (BitVec 8))) (l : List (BitVec 8)) (p p' : ParsedAttrs) :
    Prop where
  type : be16Of (p.data .ethertype) 0 = 0xFFFF
  tci : be16Of (p.data .vlan) 0 &&& vlanTagPresent ≠ 0
  attrs : OwnAttrs (innerAttrs f l) p'

theorem OwnAttrs.noTag (hp : OwnAttrs f p) (hencap : f .encap = none)
    (h : parseVlanFromNlattrs1 key p inner true = .ok (p', stores)) : p' = p ∧ stores = [] := by
  unfold parseVlanFromNlattrs1 validateVlanMaskFromNlattrs at h
  rw [if_pos rfl, hp.has, hencap] at h
  obtain ⟨rfl, rfl⟩ := Prod.mk.inj (Except.ok.inj h)
  exact ⟨rfl, rfl⟩

theorem OwnAttrs.tag (hp : OwnAttrs f p) (hencap : f .encap = some l)
    (h : parseVlanFromNlattrs1 key p inner true = .ok (p', stores)) :
    (inner = false → key.vlanTci &&& vlanTagPresent ≠ 0) ∧ TagParsed f l p p' ∧
      stores = encodeVlanFromNlattrs p inner := by
  unfold parseVlanFromNlattrs1 validateVlanMaskFromNlattrs at h
  rw [if_pos rfl, hp.has, hencap] at h
  simp only [Option.isSome_some, Bool.not_true, Bool.false_eq_true, if_false] at h
  split_ifs at h with hvalid htype htci
  dsimp only at h
  rw [hp.data _ _ hencap] at h
  split at h
  · cases h
  · rename_i p₁ hparse
    obtain ⟨rfl, rfl⟩ := Prod.mk.inj (Except.ok.inj h)
    refine ⟨?_, ⟨not_not.mp htype, htci, hp.inner hparse⟩, rfl⟩
    rintro rfl hzero
    apply hvalid
    rw [hzero]
    rfl

/-- A tag whose attributes are there is stored as it is. -/
theorem OwnAttrs.tag_own (hp : OwnAttrs f p) (hvlan : (f .vlan).isSome) (htype : (f .ethertype).isSome) :
    encodeVlanFromNlattrs p inner = ownTag (if inner then 348 else 344) f := by
  obtain ⟨vlan, hvlan⟩ := Option.isSome_iff_exists.mp hvlan
  obtain ⟨type, htype⟩ := Option.isSome_iff_exists.mp htype
  rw [encodeVlan_eq, ownTag_eq, hp.data _ _ hvlan, hp.data _ _ htype, hvlan, htype]
  rfl

/-- A tag whose attributes are not all there is not stored as it is: what is stored has passed a test
that zeros do not pass. -/
theorem TagParsed.own (h : TagParsed f l p p')
    (heq : be16Of (p.data .ethertype) 0 = be16Of ((f .ethertype).getD []) 0 ∧
      be16Of (p.data .vlan) 0 = be16Of ((f .vlan).getD []) 0) :
    (f .vlan).isSome ∧ (f .ethertype).isSome := by
  obtain ⟨htype, htci, -⟩ := h
  rw [heq.1] at htype
  rw [heq.2] at htci
  constructor
  · cases hvlan : f .vlan with
    | none =>
        rw [hvlan] at htci
        exact absurd rfl htci
    | some data => rfl
  · cases htype' : f .ethertype with
    | none =>
        rw [htype'] at htype
        cases htype
    | some data => rfl

theorem innerAttrs_tag {attr : OvsKeyAttr} (h : attr ∈ tagAttrs) : innerAttrs f l attr = maskAttr l attr := by
  unfold innerAttrs
  rw [if_pos h, Option.or_none]

/-- The tags of a mask, level by level. -/
theorem parseVlan_mask (h : parseVlanFromNlattrs key p true = .ok (p', stores)) :
    ∃ p₁ stores₁ stores₂, parseVlanFromNlattrs1 key p false true = .ok (p₁, stores₁) ∧
      stores = stores₁ ++ stores₂ ∧
      if key.vlanTci &&& vlanTagPresent ≠ 0 then parseVlanFromNlattrs1 key p₁ true true = .ok (p', stores₂)
      else p' = p₁ ∧ stores₂ = [] := by
  unfold parseVlanFromNlattrs at h
  split at h
  · cases h
  · rename_i p₁ stores₁ hfirst
    dsimp only [SwFlowKey.afterStores] at h
    rw [if_pos rfl] at h
    by_cases hvalid : key.vlanTci &&& vlanTagPresent ≠ 0
    · rw [if_pos hvalid] at h
      split at h
      · cases h
      · rename_i p₂ stores₂ hsecond
        obtain ⟨rfl, rfl⟩ := Prod.mk.inj (Except.ok.inj h)
        exact ⟨p₁, stores₁, stores₂, hfirst, rfl, by rwa [if_pos hvalid]⟩
    · rw [if_neg hvalid] at h
      obtain ⟨rfl, rfl⟩ := Prod.mk.inj (Except.ok.inj h)
      exact ⟨p₁, stores₁, [], hfirst, (List.append_nil _).symm, by rw [if_neg hvalid]; exact ⟨rfl, rfl⟩⟩

/-- Without a tag the mask is its own. -/
theorem storesMask_noTag {p₁ : ParsedAttrs} {key_stores : KeyStores} (hp : OwnAttrs (maskAttr l) p)
    (hencap : maskAttr l .encap = none) (hvlan : parseVlanFromNlattrs key p true = .ok (p₁, stores))
    (hkey : ovsKeyFromNlattrs env key p₁ true = .ok key_stores) :
    storesMask (tciStores ++ (stores ++ key_stores)) = ownMask env l := by
  obtain ⟨p₂, stores₁, stores₂, hfirst, rfl, hsecond⟩ := parseVlan_mask hvlan
  obtain ⟨rfl, rfl⟩ := hp.noTag hencap hfirst
  obtain ⟨rfl, rfl⟩ : p₁ = p₂ ∧ stores₂ = [] := by
    split_ifs at hsecond
    · exact hp.noTag hencap hsecond
    · exact hsecond
  obtain ⟨rfl, -⟩ := hp.fields hkey
  unfold ownMask ownStores
  rw [hencap]
  rfl

/-- With one tag. -/
theorem storesMask_oneTag {p₁ p₂ : ParsedAttrs} {l₁ : List (BitVec 8)} {key_stores : KeyStores}
    (hp : OwnAttrs (maskAttr l) p) (hencap : maskAttr l .encap = some l₁) (hencap₁ : maskAttr l₁ .encap = none)
    (htag : TagParsed (maskAttr l) l₁ p p₁)
    (hsecond : parseVlanFromNlattrs1 key p₁ true true = .ok (p₂, stores))
    (hkey : ovsKeyFromNlattrs env key p₂ true = .ok key_stores) :
    storesMask (tciStores ++ (encodeVlanFromNlattrs p false ++ stores ++ key_stores)) = ownMask env l ↔
      tagsOwn l = true := by
  obtain ⟨rfl, rfl⟩ := htag.attrs.noTag ((innerAttrs_tag List.mem_cons_self).trans hencap₁) hsecond
  obtain ⟨rfl, hgeneve⟩ := htag.attrs.fields hkey
  unfold ownMask ownStores tagsOwn tagOwn
  rw [hencap]
  dsimp only
  rw [hencap₁, List.append_nil, Option.isNone_none, Bool.true_or, Bool.and_true, Bool.and_eq_true]
  constructor
  · intro heq
    apply htag.own
    rw [encodeVlan_eq, ownTag_eq, if_neg Bool.false_ne_true] at heq
    have hfields : ∀ j, 344 ≤ j → j < 344 + 4 → ¬ Reaches (ownFields env (innerAttrs (maskAttr l) l₁)) j := by
      intro j hj hj' hreach
      have := ownFields_noTag hgeneve hreach
      omega
    exact tagPair_inj (by decide) hfields hfields heq
  · rintro ⟨hvlan, htype⟩
    rw [hp.tag_own hvlan htype]
    rfl

/-- With two tags. -/
theorem storesMask_twoTags {p₁ p₂ : ParsedAttrs} {l₁ l₂ : List (BitVec 8)} {key_stores : KeyStores}
    (hp : OwnAttrs (maskAttr l) p) (hencap : maskAttr l .encap = some l₁)
    (hencap₁ : maskAttr l₁ .encap = some l₂) (htag : TagParsed (maskAttr l) l₁ p p₁)
    (hsecond : parseVlanFromNlattrs1 key p₁ true true = .ok (p₂, stores))
    (hkey : ovsKeyFromNlattrs env key p₂ true = .ok key_stores) :
    storesMask (tciStores ++ (encodeVlanFromNlattrs p false ++ stores ++ key_stores)) = ownMask env l ↔
      tagsOwn l = true := by
  have hattrs := htag.attrs
  have hinner : innerAttrs (maskAttr l) l₁ .encap = some l₂ := (innerAttrs_tag List.mem_cons_self).trans hencap₁
  have hvlan₁ : innerAttrs (maskAttr l) l₁ .vlan = maskAttr l₁ .vlan := innerAttrs_tag (by decide)
  have htype₁ : innerAttrs (maskAttr l) l₁ .ethertype = maskAttr l₁ .ethertype := innerAttrs_tag (by decide)
  obtain ⟨-, htag₁, rfl⟩ := hattrs.tag hinner hsecond
  obtain ⟨rfl, hgeneve⟩ := htag₁.attrs.fields hkey
  unfold ownMask ownStores tagsOwn tagOwn
  rw [hencap]
  dsimp only
  rw [hencap₁, Option.isNone_some, Bool.false_or, Bool.and_eq_true, Bool.and_eq_true, Bool.and_eq_true]
  constructor
  · intro heq
    rw [encodeVlan_eq, encodeVlan_eq, ownTag_eq, ownTag_eq, if_neg Bool.false_ne_true, if_pos rfl,
      List.append_assoc] at heq
    constructor
    · -- the outer tag is stored where nothing behind it is, so it can be read off
      apply htag.own
      have hrest : ∀ (z w : List (BitVec 8)) (j : Nat), 344 ≤ j → j < 344 + 4 →
          ¬ Reaches (tagPair 348 z w ++ ownFields env (innerAttrs (innerAttrs (maskAttr l) l₁) l₂)) j := by
        intro z w j hj hj' hreach
        rw [reaches_append] at hreach
        obtain hreach | hreach := hreach
        · simp [tagPair] at hreach
          omega
        · have := ownFields_noTag hgeneve hreach
          omega
      exact tagPair_inj (by decide) (hrest _ _) (hrest _ _) heq
    · rw [← hvlan₁, ← htype₁]
      -- and so can the inner one
      apply htag₁.own
      have hfields : ∀ j, 348 ≤ j → j < 348 + 4 →
          ¬ Reaches (ownFields env (innerAttrs (innerAttrs (maskAttr l) l₁) l₂)) j := by
        intro j hj hj' hreach
        have := ownFields_noTag hgeneve hreach
        omega
      rw [hvlan₁, htype₁]
      rw [← List.append_assoc, ← List.append_assoc tciStores (tagPair 344 ((maskAttr l .ethertype).getD []) _)] at heq
      exact tagPair_inj (by decide) hfields hfields heq
  · rintro ⟨⟨hvlan, htype⟩, hvlan', htype'⟩
    rw [hp.tag_own hvlan htype, hattrs.tag_own (by rwa [hvlan₁]) (by rwa [htype₁]), ownTag_eq, ownTag_eq,
      ownTag_eq, hvlan₁, htype₁, List.append_assoc]
    rfl

theorem maskFromNlattrs_own_iff {a : OvsKeyAttr → Option (List (BitVec 8))} {nla_key : List (BitVec 8)}
    {mask_attrs : Finset OvsKeyAttr} (h : maskFromNlattrs env key a nla_key (some l) = .ok (mask_attrs, stores)) :
    storesMask stores = ownMask env l ↔ tagsOwn l = true := by
  obtain ⟨data, tun_stores, p₁, p₂, vlan_stores, key_stores, hdata, hparse, hvlan, hkey, -, rfl⟩ :=
    maskFromNlattrs_ok h
  obtain ⟨rfl, rfl⟩ := Prod.mk.inj (Except.ok.inj hdata)
  have hp := ownAttrs_outer hparse
  rw [List.nil_append, List.append_assoc]
  cases hencap : maskAttr l .encap with
  | none =>
      refine iff_of_true (storesMask_noTag hp hencap hvlan hkey) ?_
      unfold tagsOwn
      rw [hencap]
  | some l₁ =>
      obtain ⟨p₃, stores₁, stores₂, hfirst, rfl, hsecond⟩ := parseVlan_mask hvlan
      obtain ⟨hvalid, htag, rfl⟩ := hp.tag hencap hfirst
      rw [if_pos (hvalid rfl)] at hsecond
      cases hencap₁ : maskAttr l₁ .encap with
      | none => exact storesMask_oneTag hp hencap hencap₁ htag hsecond hkey
      | some l₂ => exact storesMask_twoTags hp hencap hencap₁ htag hsecond hkey

/-! ## The bits of a mask -/

/-- The levels of a mask, from the outside in. -/
def maskLevels (l : List (BitVec 8)) : List (List (BitVec 8)) :=
  l :: match maskAttr l .encap with
    | none => []
    | some l₁ => l₁ :: match maskAttr l₁ .encap with
      | none => []
      | some l₂ => [l₂]

/-- The bytes that are matched exactly whatever the attributes hold: whether there is an Ethernet header,
the kind of a tunnel if one is given, and the TCI of a tag that is not there. -/
def MatchedExactly (l : List (BitVec 8)) (j : Nat) : Prop :=
  j = 322 ∨ (j = 323 ∧ ∃ l' ∈ maskLevels l, (maskAttr l' .tunnel).isSome) ∨
    ((j = 346 ∨ j = 347) ∧ maskAttr l .encap = none) ∨
    ((j = 350 ∨ j = 351) ∧ ∀ l₁, maskAttr l .encap = some l₁ → maskAttr l₁ .encap = none)

/-- The part of a mask that an attribute stands for, as a field or in a tag. -/
def StandsFor (attr : OvsKeyAttr) (data : List (BitVec 8)) (j : Nat) : Prop :=
  Reaches (maskAttrStores data attr) j ∨ ∃ off ∈ [344, 348], Reaches (tagFieldStores off data attr) j

/-- An attribute that does not hold only zeros stands for the byte. -/
def Contributed (l : List (BitVec 8)) (j : Nat) : Prop :=
  ∃ l' ∈ maskLevels l, ∃ attr data, maskAttr l' attr = some data ∧ (∃ b ∈ data, b ≠ 0) ∧ StandsFor attr data j

theorem byteAt_ne_zero {i : Nat} (h : byteAt data i ≠ 0) : ∃ b ∈ data, b ≠ 0 := by
  unfold byteAt at h
  rw [List.getD_eq_getElem?_getD] at h
  cases hb : data[i]? with
  | none =>
      rw [hb] at h
      exact absurd rfl h
  | some b =>
      rw [hb] at h
      exact ⟨b, List.mem_of_getElem? hb, h⟩

/-- A kept attribute holds something, unless it is a nest. -/
theorem maskAttr_ne_zero {attr : OvsKeyAttr} (h : maskAttr l attr = some data) :
    (attr = .encap ∨ attr = .tunnel) ∨ ∃ b ∈ data, b ≠ 0 := by
  obtain ⟨nla, hnla, hattr, rfl⟩ := attrData_some h
  have hnz := ((mem_keptAttrs hattr).mp hnla).2
  rw [Bool.true_and] at hnz
  cases hlen : ovsKeyLens attr with
  | fixed len =>
      right
      rw [hlen] at hnz
      unfold isAllZero at hnz
      dsimp only at hnz
      obtain ⟨b, hb, hne⟩ := List.all_eq_false.mp hnz
      obtain ⟨i, -, rfl⟩ := List.mem_map.mp hb
      rw [Nat.zero_add] at hne
      exact byteAt_ne_zero fun heq => hne (beq_iff_eq.mpr heq)
  | nested =>
      left
      cases attr <;> first | exact .inl rfl | exact .inr rfl | cases hlen
  | _ => cases attr <;> cases hlen

/-- A tunnel of zeros has no attributes. -/
theorem attrsOf_zeros (h : ¬ ∃ b ∈ data, b ≠ 0) : attrsOf data = [] := by
  have hlen : (le16At data 0).toNat = 0 := by
    have hbyte : ∀ i, byteAt data i = 0 := fun i => not_not.mp fun hne => h (byteAt_ne_zero hne)
    unfold le16At
    rw [hbyte, hbyte]
    rfl
  have hok : nlaOk data = none := by
    unfold nlaOk
    rw [hlen]
    exact if_pos (.inr (.inl (by decide)))
  unfold attrsOf nlaForEachNested
  cases hn : data.length with
  | zero => rw [nlaForEach]
  | succ n => rw [nlaForEach, hok]

/-- What sets a bit of a byte, among the fields. -/
theorem fields_bits {attrs : List OvsKeyAttr} {j : Nat} {v : BitVec 8}
    (hf : ∀ attr data, f attr = some data → (attr = .encap ∨ attr = .tunnel) ∨ ∃ b ∈ data, b ≠ 0)
    (h : stored (fieldStores maskAttrStores f attrs) j = some v) (hv : v ≠ 0) :
    (j = 323 ∧ (f .tunnel).isSome) ∨
      ∃ attr data, f attr = some data ∧ (∃ b ∈ data, b ≠ 0) ∧ Reaches (maskAttrStores data attr) j := by
  obtain ⟨s, hs, hat⟩ := stored_eq_some h
  obtain ⟨attr, -, hs⟩ := List.mem_flatMap.mp hs
  cases hdata : f attr with
  | none =>
      rw [hdata] at hs
      cases hs
  | some data =>
      rw [hdata] at hs
      dsimp only at hs
      have hreach : Reaches (maskAttrStores data attr) j := reaches_of_mem hs hat
      by_cases hzero : ∃ b ∈ data, b ≠ 0
      · exact .inr ⟨attr, data, hdata, hzero, hreach⟩
      · left
        obtain (rfl | rfl) | hne := hf attr data hdata
        · cases hs
        · -- an empty tunnel stores the flags, none of which is set, and its kind
          have hstores : maskAttrStores data .tunnel = [⟨296, [0, 0]⟩, ⟨323, [0xFF]⟩] := by
            unfold maskAttrStores tunnelMaskStores
            rw [attrsOf_zeros hzero]
            rfl
          rw [hstores] at hs
          refine ⟨?_, by rw [hdata]; rfl⟩
          obtain rfl | hs := List.mem_cons.mp hs
          · exfalso
            have hmem : v ∈ ([0, 0] : List (BitVec 8)) := by
              unfold Store.at at hat
              split_ifs at hat
              exact List.mem_of_getElem? hat
            exact hv (by simpa using hmem)
          · obtain rfl := List.mem_singleton.mp hs
            unfold Store.at at hat
            split_ifs at hat with hle
            have hlt := (List.getElem?_eq_some_iff.mp hat).1
            simp at hle hlt
            omega
        · exact absurd hne hzero

theorem ownFields_bits {j : Nat} {v : BitVec 8}
    (hf : ∀ attr data, f attr = some data → (attr = .encap ∨ attr = .tunnel) ∨ ∃ b ∈ data, b ≠ 0)
    (h : stored (ownFields env f) j = some v) (hv : v ≠ 0) :
    j = 322 ∨ (j = 323 ∧ (f .tunnel).isSome) ∨
      ∃ attr data, f attr = some data ∧ (∃ b ∈ data, b ≠ 0) ∧ Reaches (maskAttrStores data attr) j := by
  unfold ownFields at h
  rw [stored_append, stored_append] at h
  obtain h | ⟨-, h⟩ := Option.or_eq_some_iff.mp h
  · exact .inr (fields_bits hf h hv)
  · obtain h | ⟨-, h⟩ := Option.or_eq_some_iff.mp h
    · left
      have hreach := (stored_isSome_iff _ j).mp (by rw [h]; rfl)
      simp at hreach
      omega
    · exact .inr (fields_bits hf h hv)

theorem ownTag_bits {j : Nat} {v : BitVec 8} (h : stored (ownTag off f) j = some v) (hv : v ≠ 0) :
    ∃ attr ∈ tagAttrs, ∃ data, f attr = some data ∧ (∃ b ∈ data, b ≠ 0) ∧
      Reaches (tagFieldStores off data attr) j := by
  obtain ⟨s, hs, hat⟩ := stored_eq_some h
  obtain ⟨attr, hattr, hs⟩ := List.mem_flatMap.mp hs
  have hreach : Reaches (tagFieldStores off ((f attr).getD []) attr) j := reaches_of_mem hs hat
  have hslice : ∃ b ∈ (f attr).getD [], b ≠ 0 := by
    have hvals : s.vals = slice ((f attr).getD []) 0 2 := by
      obtain rfl | hattr := List.mem_cons.mp hattr
      · obtain rfl := List.mem_singleton.mp hs
        rfl
      · obtain rfl := List.mem_singleton.mp hattr
        obtain rfl := List.mem_singleton.mp hs
        rfl
    unfold Store.at at hat
    split_ifs at hat
    obtain ⟨i, -, rfl⟩ := List.mem_map.mp (hvals ▸ List.mem_of_getElem? hat)
    exact byteAt_ne_zero hv
  refine ⟨attr, List.mem_cons_of_mem _ (by simpa [or_comm] using hattr), ?_⟩
  cases hdata : f attr with
  | none =>
      rw [hdata] at hslice
      obtain ⟨b, hb, -⟩ := hslice
      cases hb
  | some data =>
      rw [hdata] at hslice hreach
      exact ⟨data, rfl, hslice, hreach⟩

/-- Every attribute inside the tags is one of a level. -/
theorem innerAttrs_level {attr : OvsKeyAttr} (h : innerAttrs f l attr = some data) :
    maskAttr l attr = some data ∨ f attr = some data := by
  unfold innerAttrs at h
  obtain h | ⟨-, h⟩ := Option.or_eq_some_iff.mp h
  · exact .inl h
  · split_ifs at h
    exact .inr h

/-- The fields of a mask, given where their attributes come from. -/
theorem ownFields_contributed {j : Nat} {v : BitVec 8}
    (hf : ∀ attr data, f attr = some data → ∃ l' ∈ maskLevels l, maskAttr l' attr = some data)
    (h : stored (ownFields env f) j = some v) (hv : v ≠ 0) : MatchedExactly l j ∨ Contributed l j := by
  have hne : ∀ attr data, f attr = some data → (attr = .encap ∨ attr = .tunnel) ∨ ∃ b ∈ data, b ≠ 0 := by
    intro attr data hdata
    obtain ⟨l', -, hattr⟩ := hf attr data hdata
    exact maskAttr_ne_zero hattr
  obtain rfl | ⟨rfl, htunnel⟩ | ⟨attr, data, hdata, hzero, hreach⟩ := ownFields_bits hne h hv
  · exact .inl (.inl rfl)
  · obtain ⟨data, hdata⟩ := Option.isSome_iff_exists.mp htunnel
    obtain ⟨l', hl', hattr⟩ := hf _ _ hdata
    exact .inl (.inr (.inl ⟨rfl, l', hl', by rw [hattr]; rfl⟩))
  · obtain ⟨l', hl', hattr⟩ := hf _ _ hdata
    exact .inr ⟨l', hl', attr, data, hattr, hzero, .inl hreach⟩

theorem ownTag_contributed {j : Nat} {v : BitVec 8} {l' : List (BitVec 8)} (hl' : l' ∈ maskLevels l)
    (hoff : off ∈ [344, 348]) (h : stored (ownTag off (maskAttr l')) j = some v) (hv : v ≠ 0) :
    Contributed l j := by
  obtain ⟨attr, -, data, hattr, hzero, hreach⟩ := ownTag_bits h hv
  exact ⟨l', hl', attr, data, hattr, hzero, .inr ⟨off, hoff, hreach⟩⟩

theorem tciStores_reach {j : Nat} {v : BitVec 8} (h : stored tciStores j = some v) :
    (j = 346 ∨ j = 347) ∨ j = 350 ∨ j = 351 := by
  have hreach := (stored_isSome_iff _ j).mp (by rw [h]; rfl)
  simp [tciStores] at hreach
  omega

theorem ownTag_tci {j : Nat} (h : stored (ownTag off f) j = none) : j ≠ off + 2 ∧ j ≠ off + 3 := by
  rw [stored_eq_none_iff, ownTag_eq] at h
  simp [tagPair] at h
  omega

theorem ownStores_bits {j : Nat} {v : BitVec 8} (h : stored (tciStores ++ ownStores env l) j = some v)
    (hv : v ≠ 0) : MatchedExactly l j ∨ Contributed l j := by
  have houter : l ∈ maskLevels l := List.mem_cons_self
  unfold ownStores at h
  cases hencap : maskAttr l .encap with
  | none =>
      rw [hencap] at h
      dsimp only at h
      rw [stored_append] at h
      obtain h | ⟨-, h⟩ := Option.or_eq_some_iff.mp h
      · exact ownFields_contributed (fun attr data hdata => ⟨l, houter, hdata⟩) h hv
      · obtain htci | htci := tciStores_reach h
        · exact .inl (.inr (.inr (.inl ⟨htci, hencap⟩)))
        · exact .inl (.inr (.inr (.inr ⟨htci, fun l₁ hl₁ => by rw [hencap] at hl₁; cases hl₁⟩)))
  -- with an ENCAP the fields come from the innermost level, and each level around it has a tag
  | some l₁ =>
      have hinner : l₁ ∈ maskLevels l := by
        unfold maskLevels
        rw [hencap]
        exact List.mem_cons_of_mem _ List.mem_cons_self
      have hattrs : ∀ attr data, innerAttrs (maskAttr l) l₁ attr = some data →
          ∃ l' ∈ maskLevels l, maskAttr l' attr = some data := by
        intro attr data hdata
        obtain hdata | hdata := innerAttrs_level hdata
        · exact ⟨l₁, hinner, hdata⟩
        · exact ⟨l, houter, hdata⟩
      rw [hencap] at h
      dsimp only at h
      cases hencap₁ : maskAttr l₁ .encap with
      | none =>
          rw [hencap₁] at h
          dsimp only at h
          rw [stored_append, stored_append] at h
          obtain h | ⟨hnone, h⟩ := Option.or_eq_some_iff.mp h
          · obtain h | ⟨-, h⟩ := Option.or_eq_some_iff.mp h
            · exact ownFields_contributed hattrs h hv
            · exact .inr (ownTag_contributed houter (by decide) h hv)
          · have htag := ownTag_tci (Option.or_eq_none_iff.mp hnone).2
            obtain htci | htci := tciStores_reach h
            · omega
            · refine .inl (.inr (.inr (.inr ⟨htci, fun l' hl' => ?_⟩)))
              obtain rfl := Option.some.inj (hencap.symm.trans hl')
              exact hencap₁
      | some l₂ =>
          have hinnermost : l₂ ∈ maskLevels l := by
            unfold maskLevels
            rw [hencap]
            dsimp only
            rw [hencap₁]
            exact List.mem_cons_of_mem _ (List.mem_cons_of_mem _ List.mem_cons_self)
          rw [hencap₁] at h
          dsimp only at h
          rw [stored_append, stored_append, stored_append] at h
          obtain h | ⟨hnone, h⟩ := Option.or_eq_some_iff.mp h
          · obtain h | ⟨-, h⟩ := Option.or_eq_some_iff.mp h
            · obtain h | ⟨-, h⟩ := Option.or_eq_some_iff.mp h
              · refine ownFields_contributed (fun attr data hdata => ?_) h hv
                obtain hdata | hdata := innerAttrs_level hdata
                · exact ⟨l₂, hinnermost, hdata⟩
                · exact hattrs attr data hdata
              · exact .inr (ownTag_contributed hinner (by decide) h hv)
            · exact .inr (ownTag_contributed houter (by decide) h hv)
          · -- two tags are written, so that the stores for the tag alone are covered
            obtain ⟨hrest, htag⟩ := Option.or_eq_none_iff.mp hnone
            have htag₁ := ownTag_tci (Option.or_eq_none_iff.mp hrest).2
            have htag := ownTag_tci htag
            obtain htci | htci := tciStores_reach h <;> omega

/-- **Where a mask that is its own has a bit**, an attribute that does not hold only zeros stands for the
byte, or it is one of those that are always matched exactly. -/
theorem ownMask_bits (env : NetlinkEnv) (l : List (BitVec 8)) {j : Fin swFlowKeySize}
    (h : (ownMask env l).key j ≠ 0) : MatchedExactly l j ∨ Contributed l j := by
  have hold : SwFlowKey.u8 (fun _ => 0) j = 0 := dif_pos j.2
  have hbyte : (ownMask env l).key.u8 j = (stored (tciStores ++ ownStores env l) j).getD 0 :=
    (SwFlowKey.store_u8 j.2).trans (congrArg _ hold)
  have hu8 : (ownMask env l).key.u8 j = (ownMask env l).key j := dif_pos j.2
  rw [← hu8, hbyte] at h
  cases hstored : stored (tciStores ++ ownStores env l) j with
  | none =>
      rw [hstored] at h
      exact absurd rfl h
  | some v =>
      rw [hstored] at h
      exact ownStores_bits hstored h

/-! ## The mask of a match -/

/-- **The mask of a match is its own if and only if its tags are.** Then no value of the key has a part
in it, and no attribute that is missing or holds only zeros. -/
theorem mask_own_iff {nla_key nla_mask : List (BitVec 8)} {m : SwFlowMatch}
    (h : ovsNlaGetMatch env true nla_key (some nla_mask) = .ok m) :
    (m.mask = some (ownMask env nla_mask) ∧ ∀ j : Fin swFlowKeySize, (ownMask env nla_mask).key j ≠ 0 →
        MatchedExactly nla_mask j ∨ Contributed nla_mask j) ↔
      tagsOwn nla_mask = true := by
  obtain ⟨⟨p, key_stores⟩, -, h⟩ := bind_eq_ok.mp h
  obtain ⟨⟨mask_attrs, mask⟩, hmask, h⟩ := bind_eq_ok.mp h
  dsimp only at h
  split_ifs at h
  obtain rfl := Except.ok.inj h
  obtain ⟨⟨attrs, stores⟩, hstores, hmask⟩ := bind_eq_ok.mp hmask
  obtain ⟨-, rfl⟩ := Prod.mk.inj (Except.ok.inj hmask)
  rw [← maskFromNlattrs_own_iff hstores]
  constructor
  · rintro ⟨hmask, -⟩
    exact Option.some.inj hmask
  · intro heq
    exact ⟨congrArg some heq, fun j hj => ownMask_bits env nla_mask hj⟩

/-- The key of a tagged frame. -/
def taggedKey (tci : List (BitVec 8)) : List (BitVec 8) :=
  nlaStream [keyAttr .ethernet (zeros 12), keyAttr .ethertype [0x81, 0x00], keyAttr .vlan tci,
    keyAttr .encap (nlaStream [keyAttr .ethertype [0x88, 0xB5]])]

/-- A mask of both types. -/
def typesMask : List (BitVec 8) :=
  nlaStream [keyAttr .ethertype [0xFF, 0xFF], keyAttr .encap (nlaStream [keyAttr .ethertype [0xFF, 0xFF]])]

/-- A mask of both types and the tag. -/
def tagMask : List (BitVec 8) :=
  nlaStream [keyAttr .ethertype [0xFF, 0xFF], keyAttr .vlan [0x10, 0x00],
    keyAttr .encap (nlaStream [keyAttr .ethertype [0xFF, 0xFF]])]

/-- The TCI of the mask of a match. -/
def SwFlowMatch.maskTci (m : SwFlowMatch) : Option (BitVec 16) := m.mask.map fun mask => mask.key.vlanTci

/-- A tagged frame, and a mask with the tag. -/
theorem mask_own_tag : ∃ m, ovsNlaGetMatch plainNetlink true (taggedKey [0x10, 0x05]) (some tagMask) = .ok m ∧
    m.mask = some (ownMask plainNetlink tagMask) := by
  have haccepted : (ovsNlaGetMatch plainNetlink true (taggedKey [0x10, 0x05]) (some tagMask)).toBool = true := by
    decide +kernel
  obtain ⟨m, hm⟩ : ∃ m, ovsNlaGetMatch plainNetlink true (taggedKey [0x10, 0x05]) (some tagMask) = .ok m := by
    cases hmatch : ovsNlaGetMatch plainNetlink true (taggedKey [0x10, 0x05]) (some tagMask) with
    | error e =>
        rw [hmatch] at haccepted
        cases haccepted
    | ok m => exact ⟨m, rfl⟩
  exact ⟨m, hm, ((mask_own_iff hm).mpr (by decide +kernel)).1⟩

/-- Without the tag, the mask matches the bits that are set in the tag of the key: two keys that differ
in a value get different masks from the same attributes. -/
theorem mask_not_own :
    ((ovsNlaGetMatch plainNetlink true (taggedKey [0x10, 0x05]) (some typesMask)).map
        SwFlowMatch.maskTci).toOption = some (some 0x1005) ∧
      ((ovsNlaGetMatch plainNetlink true (taggedKey [0x10, 0x0A]) (some typesMask)).map
        SwFlowMatch.maskTci).toOption = some (some 0x100A) ∧
      (ownMask plainNetlink typesMask).key.vlanTci = 0 := by
  refine ⟨?_, ?_, ?_⟩
  all_goals decide +kernel

end OvsDatapath.Flow
