import OvsDatapath.Flow.Match
import OvsDatapath.Flow.MaskArray

/-!
# The key and the mask of a match

What is known about the result of `ovs_nla_get_match` whatever the attributes are.

Every store stays inside the key, so the mask is one that the flow table can use (`BuiltMask`).
-/

namespace OvsDatapath.Flow

open OvsDatapath.Lib

/-! ## Stores that stay inside the key -/

/-- Every store ends inside the key. -/
def StoresFit (stores : KeyStores) : Prop := ∀ s ∈ stores, s.off + s.vals.length ≤ swFlowKeySize

@[simp] theorem storesFit_nil : StoresFit [] := nofun

@[simp] theorem storesFit_cons {s : Store (BitVec 8)} {stores : KeyStores} :
    StoresFit (s :: stores) ↔ s.off + s.vals.length ≤ swFlowKeySize ∧ StoresFit stores :=
  List.forall_mem_cons

@[simp] theorem storesFit_append {stores stores' : KeyStores} :
    StoresFit (stores ++ stores') ↔ StoresFit stores ∧ StoresFit stores' :=
  List.forall_mem_append

/-- One store into a mask, as the key and as the mask see it. -/
theorem maskStore_apply (s : Store (BitVec 8)) (hfit : s.off + s.vals.length ≤ swFlowKeySize)
    (mask : SwFlowMask) :
    MaskStore.apply ⟨s.off, s.vals, hfit⟩ mask =
      ⟨updateRange mask.range s.off s.vals.length, mask.key.store [s]⟩ := by
  unfold MaskStore.apply SwFlowKey.store
  congr 1
  funext j
  unfold overlay stored
  simp only [stored_nil, Option.none_or]
  split_ifs with h
  · have hlt : (j : Nat) - s.off < s.vals.length := by omega
    simp [Store.at, h.1, List.getD_eq_getElem?_getD, List.getElem?_eq_getElem hlt]
  · rw [(s.at_eq_none_iff j).mpr h]
    rfl

/-- Stores that fit build a mask. -/
theorem builtMask_storesMask {stores : KeyStores} (h : StoresFit stores) : BuiltMask (storesMask stores) := by
  have hall : ∀ (l : KeyStores), StoresFit l → ∀ mask : SwFlowMask, ∃ built : List MaskStore,
      (⟨l.foldl (fun range s => updateRange range s.off s.vals.length) mask.range, mask.key.store l⟩ :
        SwFlowMask) = built.foldl (fun m store => store.apply m) mask := by
    intro l
    induction l with
    | nil => exact fun _ mask => ⟨[], rfl⟩
    | cons s l ih =>
        intro hl mask
        obtain ⟨hs, hl⟩ := storesFit_cons.mp hl
        obtain ⟨built, heq⟩ := ih hl (MaskStore.apply ⟨s.off, s.vals, hs⟩ mask)
        refine ⟨⟨s.off, s.vals, hs⟩ :: built, ?_⟩
        rw [List.foldl_cons]
        refine Eq.trans ?_ heq
        rw [maskStore_apply]
        dsimp only
        rw [SwFlowKey.store_store]
        rfl
  exact hall stores h zeroMask

/-! ## The stores of the parser -/

variable {env : NetlinkEnv} {key : SwFlowKey} {p p' : ParsedAttrs} {is_mask inner : Bool}
variable {stores : KeyStores} {data : List (BitVec 8)}

theorem storesFit_parseVlan1 (h : parseVlanFromNlattrs1 key p inner is_mask = .ok (p', stores)) :
    StoresFit stores := by
  unfold parseVlanFromNlattrs1 at h
  split at h
  · cases h
  · obtain ⟨-, rfl⟩ := Prod.mk.inj (Except.ok.inj h)
    exact storesFit_nil
  · dsimp only at h
    split at h
    · cases h
    · obtain ⟨-, rfl⟩ := Prod.mk.inj (Except.ok.inj h)
      cases inner <;> simp [encodeVlanFromNlattrs, swFlowKeySize]

theorem storesFit_parseVlan (h : parseVlanFromNlattrs key p is_mask = .ok (p', stores)) :
    StoresFit stores := by
  unfold parseVlanFromNlattrs at h
  split at h
  · cases h
  · rename_i p₁ stores₁ hfirst
    dsimp only at h
    split_ifs at h
    · split at h
      · cases h
      · rename_i p₂ stores₂ hsecond
        obtain ⟨-, rfl⟩ := Prod.mk.inj (Except.ok.inj h)
        exact storesFit_append.mpr ⟨storesFit_parseVlan1 hfirst, storesFit_parseVlan1 hsecond⟩
    · obtain ⟨-, rfl⟩ := Prod.mk.inj (Except.ok.inj h)
      exact storesFit_parseVlan1 hfirst

theorem storesFit_genevTunOpt (h : genevTunOptFromNlattr key data is_mask = .ok stores) :
    StoresFit stores := by
  unfold genevTunOptFromNlattr at h
  split_ifs at h with hlen
  all_goals
    obtain rfl := Except.ok.inj h
    simp [swFlowKeySize]
    omega

theorem storesFit_vxlanTunOpt (h : vxlanTunOptFromNlattr data is_mask = .ok stores) :
    StoresFit stores := by
  unfold vxlanTunOptFromNlattr at h
  dsimp only at h
  split at h
  · cases h
  · split_ifs at h
    all_goals
      obtain rfl := Except.ok.inj h
      simp [swFlowKeySize]

theorem storesFit_ipTunAttr {s s' : TunState} {attr : OvsTunnelKeyAttr}
    (h : ipTunAttr key is_mask s data attr = .ok s') (hfit : StoresFit s.stores) :
    StoresFit s'.stores := by
  cases attr with
  | geneveOpts =>
      dsimp only [ipTunAttr] at h
      split_ifs at h
      split at h
      · cases h
      · rename_i hopts
        obtain rfl := Except.ok.inj h
        exact storesFit_append.mpr ⟨hfit, storesFit_genevTunOpt hopts⟩
  | vxlanOpts =>
      dsimp only [ipTunAttr] at h
      split_ifs at h
      split at h
      · cases h
      · rename_i hopts
        obtain rfl := Except.ok.inj h
        exact storesFit_append.mpr ⟨hfit, storesFit_vxlanTunOpt hopts⟩
  | _ =>
      obtain rfl := Except.ok.inj h
      simp [hfit, swFlowKeySize]

theorem storesFit_ipTunLoop {nlas : List Nlattr} {s s' : TunState}
    (h : ipTunLoop key is_mask nlas s = .ok s') (hfit : StoresFit s.stores) : StoresFit s'.stores := by
  induction nlas generalizing s with
  | nil =>
      obtain rfl := Except.ok.inj h
      exact hfit
  | cons nla rest ih =>
      unfold ipTunLoop at h
      split at h
      · cases h
      · split_ifs at h
        split at h
        · cases h
        · rename_i hattr
          exact ih h (storesFit_ipTunAttr hattr hfit)

theorem storesFit_ipTun (h : ipTunFromNlattr key data is_mask = .ok stores) : StoresFit stores := by
  unfold ipTunFromNlattr at h
  dsimp only at h
  split at h
  · cases h
  · rename_i s hloop
    split_ifs at h
    all_goals
      obtain rfl := Except.ok.inj h
      simp [storesFit_ipTunLoop hloop storesFit_nil, be16_length, swFlowKeySize]

theorem storesFit_attrStores {f : List (BitVec 8) → OvsKeyAttr → KeyStores} {l : List OvsKeyAttr}
    (h : ∀ data attr, StoresFit (f data attr)) : StoresFit (attrStores f p l) := by
  intro s hs
  obtain ⟨attr, -, hs⟩ := List.mem_flatMap.mp hs
  split_ifs at hs
  · exact h _ _ s hs
  · cases hs

theorem storesFit_metadataAttr (data : List (BitVec 8)) (attr : OvsKeyAttr) :
    StoresFit (metadataAttrStores data attr) := by
  cases attr <;> simp [metadataAttrStores, swFlowKeySize]

theorem storesFit_headerAttr (data : List (BitVec 8)) (attr : OvsKeyAttr) :
    StoresFit (headerAttrStores data attr) := by
  cases attr <;> simp [headerAttrStores, swFlowKeySize]

/-- What `metadata_from_nlattrs` stores. -/
structure MetadataParsed (env : NetlinkEnv) (key : SwFlowKey) (p : ParsedAttrs) (is_mask : Bool)
    (p' : ParsedAttrs) (stores : KeyStores) : Prop where
  parts : ∃ in_port tunnel eth_type,
    inPortStores p is_mask = .ok in_port ∧ tunnelAttrStores key p is_mask = .ok tunnel ∧
    (if p.macProto = macProtoNone then parseEthTypeFromNlattrs p is_mask = .ok eth_type
      else eth_type = []) ∧
    stores = attrStores metadataAttrStores p phyAttrs ++ in_port ++
      attrStores metadataAttrStores p [.skbMark] ++ tunnel ++
      attrStores metadataAttrStores p (ctAttrs env) ++ attrStores metadataAttrStores p ctTupleAttrs ++
      [⟨322, [if is_mask then 0xFF else p.macProto]⟩] ++ eth_type
  attrs : p'.attrs = if p.macProto = macProtoNone then
      (p.attrs \ (metadataAttrs env).toFinset).erase .ethertype
    else p.attrs \ (metadataAttrs env).toFinset
  a : p'.a = p.a

theorem metadataFromNlattrs_ok (h : metadataFromNlattrs env key p is_mask = .ok (p', stores)) :
    MetadataParsed env key p is_mask p' stores := by
  obtain ⟨in_port, hin_port, h⟩ := bind_eq_ok.mp h
  obtain ⟨tunnel, htunnel, h⟩ := bind_eq_ok.mp h
  by_cases hstate : OvsKeyAttr.ctState ∈ ctAttrs env ∧ p.has .ctState ∧
      le32At (p.data .ctState) 0 &&& 0xFFFFFF00 ≠ 0
  · rw [if_pos hstate] at h
    cases h
  rw [if_neg hstate] at h
  dsimp only at h
  by_cases hmac : p.macProto = macProtoNone
  · rw [if_pos hmac] at h
    obtain ⟨eth_type, heth, h⟩ := bind_eq_ok.mp h
    obtain ⟨rfl, rfl⟩ := Prod.mk.inj (Except.ok.inj h)
    exact ⟨⟨in_port, tunnel, eth_type, hin_port, htunnel, by rwa [if_pos hmac], rfl⟩,
      by rw [if_pos hmac], rfl⟩
  · rw [if_neg hmac] at h
    obtain ⟨rfl, rfl⟩ := Prod.mk.inj (Except.ok.inj h)
    exact ⟨⟨in_port, tunnel, [], hin_port, htunnel, by rw [if_neg hmac], (List.append_nil _).symm⟩,
      by rw [if_neg hmac], rfl⟩

theorem storesFit_ethType (h : parseEthTypeFromNlattrs p is_mask = .ok stores) : StoresFit stores := by
  unfold parseEthTypeFromNlattrs at h
  split_ifs at h
  all_goals
    obtain rfl := Except.ok.inj h
    simp [swFlowKeySize]

theorem storesFit_inPort (h : inPortStores p is_mask = .ok stores) : StoresFit stores := by
  unfold inPortStores at h
  split_ifs at h
  all_goals
    obtain rfl := Except.ok.inj h
    simp [swFlowKeySize]

theorem storesFit_tunnelAttr (h : tunnelAttrStores key p is_mask = .ok stores) : StoresFit stores := by
  unfold tunnelAttrStores at h
  split_ifs at h
  · exact storesFit_ipTun h
  · obtain rfl := Except.ok.inj h
    exact storesFit_nil

theorem MetadataParsed.storesFit (h : MetadataParsed env key p is_mask p' stores) : StoresFit stores := by
  obtain ⟨in_port, tunnel, eth_type, hin_port, htunnel, heth, rfl⟩ := h.parts
  have hattr : ∀ l, StoresFit (attrStores metadataAttrStores p l) :=
    fun _ => storesFit_attrStores storesFit_metadataAttr
  have heth_type : StoresFit eth_type := by
    split_ifs at heth
    · exact storesFit_ethType heth
    · exact heth ▸ storesFit_nil
  have hmac : StoresFit [⟨322, [if is_mask then 0xFF else p.macProto]⟩] := by simp [swFlowKeySize]
  simp only [storesFit_append]
  exact ⟨⟨⟨⟨⟨⟨⟨hattr _, storesFit_inPort hin_port⟩, hattr _⟩, storesFit_tunnelAttr htunnel⟩, hattr _⟩,
    hattr _⟩, hmac⟩, heth_type⟩

theorem storesFit_eth (h : ethFromNlattrs key p is_mask = .ok (p', stores)) : StoresFit stores := by
  unfold ethFromNlattrs at h
  dsimp only at h
  by_cases heth : p.has .ethernet
  · rw [if_pos heth] at h
    split_ifs at h
    · obtain ⟨eth_type, heth_type, h⟩ := bind_eq_ok.mp h
      obtain ⟨-, rfl⟩ := Prod.mk.inj (Except.ok.inj h)
      simp [storesFit_ethType heth_type, swFlowKeySize]
    · obtain ⟨-, rfl⟩ := Prod.mk.inj (Except.ok.inj h)
      simp [swFlowKeySize]
    · obtain ⟨-, rfl⟩ := Prod.mk.inj (Except.ok.inj h)
      simp [be16_length, swFlowKeySize]
  · rw [if_neg heth] at h
    split_ifs at h
    obtain ⟨-, rfl⟩ := Prod.mk.inj (Except.ok.inj h)
    exact storesFit_nil

/-- The attributes that an Ethernet header does not take are left. -/
theorem ethFromNlattrs_rest (h : ethFromNlattrs key p is_mask = .ok (p', stores)) :
    p'.a = p.a ∧ ∀ attr, attr ≠ .ethernet → attr ≠ .ethertype → (attr ∈ p'.attrs ↔ attr ∈ p.attrs) := by
  unfold ethFromNlattrs at h
  dsimp only at h
  by_cases heth : p.has .ethernet
  · rw [if_pos heth] at h
    split_ifs at h
    · obtain ⟨eth_type, -, h⟩ := bind_eq_ok.mp h
      obtain ⟨rfl, -⟩ := Prod.mk.inj (Except.ok.inj h)
      refine ⟨rfl, fun attr hne hne' => ?_⟩
      simp only [ParsedAttrs.clear, Finset.mem_erase, ne_eq, hne, hne', not_false_eq_true, true_and]
    all_goals
      obtain ⟨rfl, -⟩ := Prod.mk.inj (Except.ok.inj h)
      refine ⟨rfl, fun attr hne hne' => ?_⟩
      simp only [ParsedAttrs.clear, Finset.mem_erase, ne_eq, hne, not_false_eq_true, true_and]
  · rw [if_neg heth] at h
    split_ifs at h
    obtain ⟨rfl, -⟩ := Prod.mk.inj (Except.ok.inj h)
    exact ⟨rfl, fun _ _ _ => Iff.rfl⟩

/-- What `ovs_key_from_nlattrs` stores. -/
theorem ovsKeyFromNlattrs_ok (h : ovsKeyFromNlattrs env key p is_mask = .ok stores) :
    ∃ p₁ meta_stores p₂ eth_stores, MetadataParsed env key p is_mask p₁ meta_stores ∧
      ethFromNlattrs (key.afterStores is_mask meta_stores) p₁ is_mask = .ok (p₂, eth_stores) ∧
      (is_mask = false → ∀ attr ∈ headerAttrs, p₂.has attr → headerAttrOk (p₂.data attr) attr) ∧
      p₂.attrs ⊆ headerAttrs.toFinset ∧
      stores = meta_stores ++ eth_stores ++ attrStores headerAttrStores p₂ headerAttrs := by
  obtain ⟨⟨p₁, meta_stores⟩, hmeta, h⟩ := bind_eq_ok.mp h
  obtain ⟨⟨p₂, eth_stores⟩, heth, h⟩ := bind_eq_ok.mp h
  dsimp only at h
  split_ifs at h with hbad hleft
  obtain rfl := Except.ok.inj h
  refine ⟨p₁, meta_stores, p₂, eth_stores, metadataFromNlattrs_ok hmeta, heth, ?_, ?_, rfl⟩
  · rintro rfl attr hattr hhas
    by_contra hok
    apply hbad
    rw [Bool.not_false, Bool.true_and, List.any_eq_true]
    exact ⟨attr, hattr, by simp [hhas, hok]⟩
  · exact Finset.sdiff_eq_empty_iff_subset.mp (not_not.mp hleft)

theorem storesFit_ovsKeyFromNlattrs (h : ovsKeyFromNlattrs env key p is_mask = .ok stores) :
    StoresFit stores := by
  obtain ⟨p₁, meta_stores, p₂, eth_stores, hmeta, heth, -, -, rfl⟩ := ovsKeyFromNlattrs_ok h
  simp only [storesFit_append]
  exact ⟨⟨hmeta.storesFit, storesFit_eth heth⟩, storesFit_attrStores storesFit_headerAttr⟩

/-! ## The mask -/

variable {a : OvsKeyAttr → Option (List (BitVec 8))} {nla_key : List (BitVec 8)}
variable {nla_mask : Option (List (BitVec 8))} {mask_attrs : Finset OvsKeyAttr} {has_mask : Bool}

/-- What is stored into the mask: first all of both tags, then what the attributes say. -/
theorem maskFromNlattrs_ok (h : maskFromNlattrs env key a nla_key nla_mask = .ok (mask_attrs, stores)) :
    ∃ data tun_stores p₁ p₂ vlan_stores key_stores,
      maskNlattrs env key nla_key nla_mask = .ok (data, tun_stores) ∧
      parseFlowNlattrs true data ⟨∅, a⟩ = .ok p₁ ∧
      parseVlanFromNlattrs key p₁ true = .ok (p₂, vlan_stores) ∧
      ovsKeyFromNlattrs env key p₂ true = .ok key_stores ∧ mask_attrs = p₂.attrs ∧
      stores = tun_stores ++ [⟨346, [0xFF, 0xFF]⟩, ⟨350, [0xFF, 0xFF]⟩] ++ vlan_stores ++ key_stores := by
  obtain ⟨⟨data, tun_stores⟩, hdata, h⟩ := bind_eq_ok.mp h
  obtain ⟨p₁, hparse, h⟩ := bind_eq_ok.mp h
  obtain ⟨⟨p₂, vlan_stores⟩, hvlan, h⟩ := bind_eq_ok.mp h
  obtain ⟨key_stores, hkey, h⟩ := bind_eq_ok.mp h
  obtain ⟨rfl, rfl⟩ := Prod.mk.inj (Except.ok.inj h)
  exact ⟨data, tun_stores, p₁, p₂, vlan_stores, key_stores, hdata, hparse, hvlan, hkey, rfl, rfl⟩

theorem storesFit_maskNlattrs (h : maskNlattrs env key nla_key nla_mask = .ok (data, stores)) :
    StoresFit stores := by
  unfold maskNlattrs at h
  split at h
  · obtain ⟨-, rfl⟩ := Prod.mk.inj (Except.ok.inj h)
    exact storesFit_nil
  · split_ifs at h
    · obtain ⟨-, rfl⟩ := Prod.mk.inj (Except.ok.inj h)
      simp [swFlowKeySize]
    · obtain ⟨-, rfl⟩ := Prod.mk.inj (Except.ok.inj h)
      exact storesFit_nil

/-- **The mask of a match is one that the flow table can use.** -/
theorem ovsNlaGetMatch_builtMask {m : SwFlowMatch}
    (h : ovsNlaGetMatch env has_mask nla_key nla_mask = .ok m) : BuiltMask (m.mask.getD zeroMask) := by
  obtain ⟨⟨p, key_stores⟩, -, h⟩ := bind_eq_ok.mp h
  obtain ⟨⟨mask_attrs, mask⟩, hmask, h⟩ := bind_eq_ok.mp h
  dsimp only at h
  split_ifs at h
  obtain rfl := Except.ok.inj h
  unfold matchMask at hmask
  cases has_mask with
  | false =>
      obtain ⟨-, rfl⟩ := Prod.mk.inj (Except.ok.inj hmask)
      exact ⟨[], rfl⟩
  | true =>
      obtain ⟨⟨attrs, stores⟩, hstores, hmask⟩ := bind_eq_ok.mp hmask
      obtain ⟨-, rfl⟩ := Prod.mk.inj (Except.ok.inj hmask)
      obtain ⟨data, tun_stores, p₁, p₂, vlan_stores, key_stores, hdata, -, hvlan, hkey, -, rfl⟩ :=
        maskFromNlattrs_ok hstores
      apply builtMask_storesMask
      simp only [storesFit_append]
      exact ⟨⟨⟨storesFit_maskNlattrs hdata, by simp [swFlowKeySize]⟩, storesFit_parseVlan hvlan⟩,
        storesFit_ovsKeyFromNlattrs hkey⟩

theorem ovsNlaGetMatch_aligned {m : SwFlowMatch} {mask : SwFlowMask}
    (h : ovsNlaGetMatch env has_mask nla_key nla_mask = .ok m) (hmask : m.mask = some mask) : mask.Aligned := by
  have hbuilt : BuiltMask mask := by simpa [hmask] using ovsNlaGetMatch_builtMask h
  exact hbuilt.aligned

/-- **The range of the mask covers the mask.** So keys are equal under the mask if the words of the range
are, and masks are equal if their ranges and the words of these are. -/
theorem ovsNlaGetMatch_maskRange {m : SwFlowMatch} {mask : SwFlowMask}
    (h : ovsNlaGetMatch env has_mask nla_key nla_mask = .ok m) (hmask : m.mask = some mask) :
    mask.Aligned ∧
      (∀ key1 key2 stack1 stack2,
        (AgreeOn mask.range (ovsFlowMaskKey stack1 key1 false mask) (ovsFlowMaskKey stack2 key2 false mask) ↔
          key1.masked mask.key = key2.masked mask.key) ∧
        (cmpKey (ovsFlowMaskKey stack1 key1 false mask) (ovsFlowMaskKey stack2 key2 false mask)
            mask.range.start mask.range.stop = true ↔
          key1.masked mask.key = key2.masked mask.key)) ∧
      ∀ env' has_mask' nla_key' nla_mask' m' mask',
        ovsNlaGetMatch env' has_mask' nla_key' nla_mask' = .ok m' → m'.mask = some mask' →
          (maskEqual mask mask' = true ↔ mask.key = mask'.key ∧ mask.range = mask'.range) := by
  have haligned := ovsNlaGetMatch_aligned h hmask
  refine ⟨haligned, fun key1 key2 stack1 stack2 => ?_, ?_⟩
  · have hagree := agreeOn_maskKeys_iff haligned key1 key2 stack1 stack2
    exact ⟨hagree, (cmpKey_iff haligned).trans hagree⟩
  · intro env' has_mask' nla_key' nla_mask' m' mask' h' hmask'
    rw [maskEqual_iff haligned (ovsNlaGetMatch_aligned h' hmask')]
    constructor
    · rintro rfl
      exact ⟨rfl, rfl⟩
    · rintro ⟨hkey, hrange⟩
      cases mask
      cases mask'
      obtain rfl : _ = _ := hkey
      obtain rfl : _ = _ := hrange
      rfl

/-- The key of a frame without a type, which stands for its own mask. -/
theorem ovsNlaGetMatch_maskRange_frame : ∃ m mask,
    ovsNlaGetMatch plainNetlink true (nlaPut .ethernet (zeros 12)) none = .ok m ∧ m.mask = some mask ∧
      mask.range = ⟨320, 352⟩ ∧ mask.Aligned := by
  have haccepted : ((ovsNlaGetMatch plainNetlink true (nlaPut .ethernet (zeros 12)) none).toOption.any fun m =>
      m.mask.any fun mask => mask.range == ⟨320, 352⟩) = true := by
    decide +kernel
  obtain ⟨m, heq, hrange⟩ := toOption_any_iff.mp haccepted
  cases hmask : m.mask with
  | none =>
      rw [hmask] at hrange
      cases hrange
  | some mask =>
      rw [hmask] at hrange
      exact ⟨m, mask, heq, hmask, eq_of_beq hrange, (ovsNlaGetMatch_maskRange heq hmask).1⟩

/-! ## The range of the key -/

theorem storesFit_keyFromNlattrs {p' : ParsedAttrs} (h : keyFromNlattrs env nla_key = .ok (p', stores)) :
    StoresFit stores := by
  obtain ⟨p₁, -, h⟩ := bind_eq_ok.mp h
  obtain ⟨⟨p₂, vlan_stores⟩, hvlan, h⟩ := bind_eq_ok.mp h
  obtain ⟨key_stores, hkey, h⟩ := bind_eq_ok.mp h
  obtain ⟨-, rfl⟩ := Prod.mk.inj (Except.ok.inj h)
  exact storesFit_append.mpr ⟨storesFit_parseVlan hvlan, storesFit_ovsKeyFromNlattrs hkey⟩

/-- A range that is not empty only grows. -/
theorem le_storesRange {stores : KeyStores} (hfit : StoresFit stores) :
    ∀ {range : SwFlowKeyRange}, 8 ∣ range.start → 8 ∣ range.stop → range.start < range.stop →
      range.stop ≤ swFlowKeySize →
      range.stop ≤ (stores.foldl (fun range s => updateRange range s.off s.vals.length) range).stop := by
  induction stores with
  | nil => exact fun _ _ _ _ => le_rfl
  | cons s stores ih =>
      intro range hstart hstop hlt hle
      obtain ⟨hs, hfit⟩ := storesFit_cons.mp hfit
      obtain ⟨hstart', hstop', -, hle', -, -, hold⟩ := updateRange_spec hstart hstop hlt.le hle hs
      obtain ⟨hlo, hhi⟩ := hold.resolve_left hlt.ne
      exact hhi.trans (ih hfit hstart' hstop' (by omega) hle')

/-- The range of stores reaches to the end of each. -/
theorem storesRange_covers {stores : KeyStores} (hfit : StoresFit stores) {s : Store (BitVec 8)}
    (hs : s ∈ stores) (hvals : s.vals ≠ []) : s.off + s.vals.length ≤ (storesRange stores).stop := by
  have hlength := List.length_pos_iff.mpr hvals
  have hall : ∀ (l : KeyStores), StoresFit l → s ∈ l → ∀ range : SwFlowKeyRange, 8 ∣ range.start →
      8 ∣ range.stop → range.start ≤ range.stop → range.stop ≤ swFlowKeySize →
      s.off + s.vals.length ≤
        (l.foldl (fun range s => updateRange range s.off s.vals.length) range).stop := by
    intro l
    induction l with
    | nil => nofun
    | cons s' l ih =>
        intro hl hmem range hstart hstop hle hsize
        obtain ⟨hs', hl'⟩ := storesFit_cons.mp hl
        obtain ⟨hstart', hstop', hle', hsize', hlo, hhi, -⟩ := updateRange_spec hstart hstop hle hsize hs'
        rw [List.foldl_cons]
        obtain rfl | hmem := List.mem_cons.mp hmem
        · exact hhi.trans (le_storesRange hl' hstart' hstop' (by omega) hsize')
        · exact ih hl' hmem _ hstart' hstop' hle' hsize'
  exact hall stores hfit hs ⟨0, 0⟩ (dvd_zero _) (dvd_zero _) le_rfl (Nat.zero_le _)

/-- The range of a match consists of whole words and holds everything that is set in the key. -/
theorem ovsNlaGetMatch_range {m : SwFlowMatch} (h : ovsNlaGetMatch env has_mask nla_key nla_mask = .ok m) :
    SwFlowMask.Aligned ⟨m.range, m.key⟩ := by
  obtain ⟨⟨p, key_stores⟩, hkey, h⟩ := bind_eq_ok.mp h
  obtain ⟨⟨mask_attrs, mask⟩, -, h⟩ := bind_eq_ok.mp h
  dsimp only at h
  split_ifs at h
  obtain rfl := Except.ok.inj h
  exact (builtMask_storesMask (storesFit_keyFromNlattrs hkey)).aligned

/-! ## The attributes of a level -/

/-- What the parser has made of the attributes of one level, and what it has left alone. -/
structure Collected (nz : Bool) (nlas : List Nlattr) (p p' : ParsedAttrs) : Prop where
  known : ∀ nla ∈ nlas, ∃ attr, ovsKeyAttrs[nla.type]? = some attr ∧ attr ∉ p.attrs ∧
    checkAttrLen nla.data.length (ovsKeyLens attr) = true ∧
    ((nz && isAllZero nla.data (ovsKeyLens attr)) = false → attr ∈ p'.attrs ∧ p'.a attr = some nla.data)
  kept : ∀ attr ∈ p.attrs, attr ∈ p'.attrs ∧ p'.a attr = p.a attr
  new : ∀ attr ∈ p'.attrs, attr ∉ p.attrs → ∃ nla ∈ nlas, ovsKeyAttrs[nla.type]? = some attr ∧
    checkAttrLen nla.data.length (ovsKeyLens attr) = true ∧
    (nz && isAllZero nla.data (ovsKeyLens attr)) = false ∧ p'.a attr = some nla.data
  stale : ∀ attr ∉ p'.attrs, p'.a attr = p.a attr

theorem parseFlowNlattrsLoop_ok (nz : Bool) {nlas : List Nlattr}
    (h : parseFlowNlattrsLoop nz nlas p = .ok p') : Collected nz nlas p p' := by
  induction nlas generalizing p with
  | nil =>
      obtain rfl := Except.ok.inj h
      exact ⟨nofun, fun _ hattr => ⟨hattr, rfl⟩, fun _ hattr hnot => absurd hattr hnot, fun _ _ => rfl⟩
  | cons nla rest ih =>
      unfold parseFlowNlattrsLoop at h
      cases hattr : ovsKeyAttrs[nla.type]? with
      | none =>
          rw [hattr] at h
          cases h
      | some attr =>
          rw [hattr] at h
          dsimp only at h
          split_ifs at h with hhas hlen hzero
          all_goals
            have hnot : attr ∉ p.attrs := fun hmem => hhas (decide_eq_true hmem)
            have hcheck : checkAttrLen nla.data.length (ovsKeyLens attr) = true := by simpa using hlen
          · -- an attribute of zeros is passed over
            obtain ⟨hknown, hkept, hnew, hstale⟩ := ih h
            refine ⟨List.forall_mem_cons.mpr ⟨⟨attr, hattr, hnot, hcheck, ?_⟩, hknown⟩, hkept, ?_, hstale⟩
            · intro hnz
              rw [hzero] at hnz
              cases hnz
            · intro attr' hmem hout
              obtain ⟨nla', hnla', hrest⟩ := hnew attr' hmem hout
              exact ⟨nla', List.mem_cons_of_mem _ hnla', hrest⟩
          · -- and any other one is collected, so that its type is not accepted again
            obtain ⟨hknown, hkept, hnew, hstale⟩ := ih h
            have hself := hkept attr (Finset.mem_insert_self _ _)
            have hdata : p'.a attr = some nla.data := hself.2.trans (Function.update_self _ _ _)
            refine ⟨List.forall_mem_cons.mpr ⟨⟨attr, hattr, hnot, hcheck, fun _ => ⟨hself.1, hdata⟩⟩, ?_⟩,
              ?_, ?_, ?_⟩
            · intro nla' hnla'
              obtain ⟨attr', hattr', hout, hrest⟩ := hknown nla' hnla'
              exact ⟨attr', hattr', fun hmem => hout (Finset.mem_insert_of_mem hmem), hrest⟩
            · intro attr' hmem
              have hne : attr' ≠ attr := fun heq => hnot (heq ▸ hmem)
              obtain ⟨hin, ha⟩ := hkept attr' (Finset.mem_insert_of_mem hmem)
              exact ⟨hin, ha.trans (Function.update_of_ne hne _ _)⟩
            · intro attr' hmem hout
              by_cases heq : attr' = attr
              · subst heq
                exact ⟨nla, List.mem_cons_self, hattr, hcheck, Bool.not_eq_true _ ▸ hzero, hdata⟩
              · have hout' : attr' ∉ (p.set attr nla.data).attrs := by
                  intro hin
                  exact hout (Finset.mem_of_mem_insert_of_ne hin heq)
                obtain ⟨nla', hnla', hrest⟩ := hnew attr' hmem hout'
                exact ⟨nla', List.mem_cons_of_mem _ hnla', hrest⟩
            · intro attr' hout
              have hne : attr' ≠ attr := fun heq => hout (heq ▸ hself.1)
              exact (hstale attr' hout).trans (Function.update_of_ne hne _ _)

/-- What an accepted level consists of. -/
theorem parseFlowNlattrs_ok {nz : Bool} (h : parseFlowNlattrs nz data p = .ok p') :
    (nlaForEachNested data).2 = 0 ∧ Collected nz (nlaForEachNested data).1 p p' := by
  unfold parseFlowNlattrs at h
  dsimp only at h
  split at h
  · cases h
  · rename_i p₁ hloop
    split_ifs at h with hrem
    obtain rfl := Except.ok.inj h
    exact ⟨not_not.mp hrem, parseFlowNlattrsLoop_ok nz hloop⟩

end OvsDatapath.Flow
