import OvsDatapath.Flow.Streams

/-!
# The attributes of a tunnel

`__ip_tun_to_nlattr` leaves out what is zero, and tells the flags of a tunnel by which attributes there
are. `ip_tun_from_nlattr` reads them back: `ipTunLoop_put` is the state that its loop ends in, with any
key or mask that has been written, and `ipTunFromNlattr_put` what it makes of a key.

The way through the attributes loses what no attribute stands for. `TunnelKept` says that there is
nothing of that kind in a key.
-/

namespace OvsDatapath.Flow

open OvsDatapath.Lib

/-! ## The loop -/

theorem slice_self {l : List (BitVec 8)} {n : Nat} (h : l.length = n) : slice l 0 n = l := by
  apply List.ext_getElem
  · rw [slice_length, h]
  · intro i hi hi'
    simp [slice, byteAt, List.getD_eq_getElem?_getD, hi']

@[simp] theorem slice_bytes (key : SwFlowKey) (off n : Nat) : slice (key.bytes off n) 0 n = key.bytes off n :=
  slice_self (key.bytes_length off n)

theorem ovsTunnelKeyAttrs_idxOf (attr : OvsTunnelKeyAttr) :
    ovsTunnelKeyAttrs[ovsTunnelKeyAttrs.idxOf attr]? = some attr := by
  cases attr <;> rfl

theorem tunAttr_fits (attr : OvsTunnelKeyAttr) {data : List (BitVec 8)} (h : data.length < 65532) :
    (tunAttr attr data).Fits := by
  have hlt := (List.getElem?_eq_some_iff.mp (ovsTunnelKeyAttrs_idxOf attr)).1
  refine ⟨?_, hlt.trans (by decide)⟩
  show 4 + data.length < 65536
  omega

section Loop

variable {key : SwFlowKey} {is_mask : Bool} {rest : List Nlattr} {s s' : TunState} {attr : OvsTunnelKeyAttr}
  {data : List (BitVec 8)}

theorem ipTunLoop_cons (hlen : checkAttrLen data.length (ovsTunnelKeyLens attr) = true)
    (hattr : ipTunAttr key is_mask s data attr = .ok s') :
    ipTunLoop key is_mask (tunAttr attr data :: rest) s = ipTunLoop key is_mask rest s' := by
  have htype : ovsTunnelKeyAttrs[(tunAttr attr data).type]? = some attr := ovsTunnelKeyAttrs_idxOf attr
  have hdata : (tunAttr attr data).data = data := rfl
  rw [ipTunLoop, htype, hdata]
  simp [hlen, hattr]

theorem ipTunLoop_error {e : Int} (hlen : checkAttrLen data.length (ovsTunnelKeyLens attr) = true)
    (hattr : ipTunAttr key is_mask s data attr = .error e) :
    ipTunLoop key is_mask (tunAttr attr data :: rest) s = .error e := by
  have htype : ovsTunnelKeyAttrs[(tunAttr attr data).type]? = some attr := ovsTunnelKeyAttrs_idxOf attr
  have hdata : (tunAttr attr data).data = data := rfl
  rw [ipTunLoop, htype, hdata]
  simp [hlen, hattr]

/-- An attribute that may be there. -/
theorem ipTunLoop_opt {c : Prop} [Decidable c] {s'' : TunState}
    (hlen : checkAttrLen data.length (ovsTunnelKeyLens attr) = true)
    (hattr : ipTunAttr key is_mask s data attr = .ok s') (heq : (if c then s' else s) = s'') :
    ipTunLoop key is_mask ((if c then [tunAttr attr data] else []) ++ rest) s =
      ipTunLoop key is_mask rest s'' := by
  subst heq
  split_ifs
  · exact ipTunLoop_cons hlen hattr
  · rfl

/-- An attribute that is stored, if it is there. -/
theorem ipTunLoop_store {c : Prop} [Decidable c] {stores : KeyStores}
    (hlen : checkAttrLen data.length (ovsTunnelKeyLens attr) = true)
    (hattr : ipTunAttr key is_mask s data attr = .ok { s with stores := s.stores ++ stores }) :
    ipTunLoop key is_mask ((if c then [tunAttr attr data] else []) ++ rest) s =
      ipTunLoop key is_mask rest { s with stores := s.stores ++ if c then stores else [] } := by
  apply ipTunLoop_opt hlen hattr
  split_ifs
  · rfl
  · rw [List.append_nil]

/-- An attribute that is a flag, if it is there. -/
theorem ipTunLoop_flag {c : Prop} [Decidable c] {bit : BitVec 16}
    (hlen : checkAttrLen 0 (ovsTunnelKeyLens attr) = true)
    (hattr : ipTunAttr key is_mask s [] attr = .ok { s with tun_flags := s.tun_flags ||| bit }) :
    ipTunLoop key is_mask ((if c then [tunAttr attr []] else []) ++ rest) s =
      ipTunLoop key is_mask rest { s with tun_flags := s.tun_flags ||| if c then bit else 0 } := by
  apply ipTunLoop_opt (show checkAttrLen [].length _ = true from hlen) hattr
  split_ifs
  · rfl
  · rw [BitVec.ofNat_eq_ofNat, BitVec.or_zero]

/-- An address of IPv4, if it is there. -/
theorem ipTunLoop_ipv4 {c : Prop} [Decidable c] {stores : KeyStores}
    (hlen : checkAttrLen data.length (ovsTunnelKeyLens attr) = true)
    (hattr : ipTunAttr key is_mask s data attr = .ok { s with stores := s.stores ++ stores, ipv4 := true }) :
    ipTunLoop key is_mask ((if c then [tunAttr attr data] else []) ++ rest) s =
      ipTunLoop key is_mask rest { s with
        stores := s.stores ++ (if c then stores else []), ipv4 := s.ipv4 || decide c } := by
  apply ipTunLoop_opt hlen hattr
  split_ifs with hc
  · simp [hc]
  · simp [hc]

/-- An address of IPv6, if it is there. -/
theorem ipTunLoop_ipv6 {c : Prop} [Decidable c] {stores : KeyStores}
    (hlen : checkAttrLen data.length (ovsTunnelKeyLens attr) = true)
    (hattr : ipTunAttr key is_mask s data attr = .ok { s with stores := s.stores ++ stores, ipv6 := true }) :
    ipTunLoop key is_mask ((if c then [tunAttr attr data] else []) ++ rest) s =
      ipTunLoop key is_mask rest { s with
        stores := s.stores ++ (if c then stores else []), ipv6 := s.ipv6 || decide c } := by
  apply ipTunLoop_opt hlen hattr
  split_ifs with hc
  · simp [hc]
  · simp [hc]

/-- The tunnel id, which is a flag as well. -/
theorem ipTunLoop_id {c : Prop} [Decidable c] {pad : Bool} (hlen : data.length = 8) :
    ipTunLoop key is_mask ((if c then (if pad then [tunAttr .pad []] else []) ++ [tunAttr .id data] else []) ++
        rest) s =
      ipTunLoop key is_mask rest { s with
        stores := s.stores ++ (if c then [⟨256, data⟩] else []),
        tun_flags := s.tun_flags ||| if c then 0x04 else 0 } := by
  have hid : ipTunLoop key is_mask (tunAttr .id data :: rest) s = ipTunLoop key is_mask rest { s with
      stores := s.stores ++ [⟨256, data⟩], tun_flags := s.tun_flags ||| 0x04 } := by
    apply ipTunLoop_cons
    · show (8 == data.length) = true
      simp [hlen]
    · rw [ipTunAttr, slice_self hlen]
  by_cases hc : c
  · simp only [hc, if_true]
    cases pad with
    | false => exact hid
    | true =>
        show ipTunLoop key is_mask (tunAttr .pad [] :: tunAttr .id data :: rest) s = _
        rw [ipTunLoop_cons rfl rfl]
        exact hid
  · simp [hc]

end Loop

/-- The flag of an attribute that is written if the flag is set. -/
def SwFlowKey.tunBit (output : SwFlowKey) (bit : BitVec 16) : BitVec 16 :=
  if output.be16 296 &&& bit ≠ 0 then bit else 0

/-- The stores for the addresses of a tunnel. -/
def tunAddrStores (output : SwFlowKey) (tun_proto : BitVec 8) : KeyStores :=
  if tun_proto = afInet then
    (if output.u32 264 ≠ 0 then [⟨264, output.bytes 264 4⟩] else []) ++
    (if output.u32 268 ≠ 0 then [⟨268, output.bytes 268 4⟩] else [])
  else if tun_proto = afInet6 then
    (if output.bytes 264 16 ≠ zeros 16 then [⟨264, output.bytes 264 16⟩] else []) ++
    (if output.bytes 280 16 ≠ zeros 16 then [⟨280, output.bytes 280 16⟩] else [])
  else []

/-- Whether there is an address of IPv4. -/
def hasTunIpv4 (output : SwFlowKey) (tun_proto : BitVec 8) : Bool :=
  decide (tun_proto = afInet ∧ (output.u32 264 ≠ 0 ∨ output.u32 268 ≠ 0))

/-- Whether there is an address of IPv6. -/
def hasTunIpv6 (output : SwFlowKey) (tun_proto : BitVec 8) : Bool :=
  decide (tun_proto = afInet6 ∧ (output.bytes 264 16 ≠ zeros 16 ∨ output.bytes 280 16 ≠ zeros 16))

/-- The stores for the options, and their flag. -/
def tunOptStores (key : SwFlowKey) (is_mask : Bool) (output : SwFlowKey) (tun_opts : List (BitVec 8)) :
    Except Int (KeyStores × BitVec 16) :=
  if tun_opts.length = 0 then .ok ([], 0)
  else if output.be16 296 &&& 0x0800 ≠ 0 then
    match genevTunOptFromNlattr key tun_opts is_mask with
    | .error e => .error e
    | .ok stores => .ok (stores, 0x0800)
  else if output.be16 296 &&& 0x1000 ≠ 0 then
    .ok ([⟨255, [if is_mask then 0xFF else 4]⟩, ⟨251, slice tun_opts 0 4⟩], 0x1000)
  else .ok ([], 0)

/-- The stores for all attributes but the options. -/
def tunFieldStores (output : SwFlowKey) (tun_proto : BitVec 8) : KeyStores :=
  (if output.be16 296 &&& 0x04 ≠ 0 then [⟨256, output.bytes 256 8⟩] else []) ++
  tunAddrStores output tun_proto ++
  (if output.u8 298 ≠ 0 then [⟨298, output.bytes 298 1⟩] else []) ++
  [⟨299, output.bytes 299 1⟩] ++
  (if output.u16 304 ≠ 0 then [⟨304, output.bytes 304 2⟩] else []) ++
  (if output.u16 306 ≠ 0 then [⟨306, output.bytes 306 2⟩] else [])

/-- The flags that are told by attributes other than the options. -/
def tunFieldFlags (output : SwFlowKey) : BitVec 16 :=
  output.tunBit 0x04 ||| output.tunBit 0x0100 ||| output.tunBit 0x01 ||| output.tunBit 0x0200

theorem ipTunLoop_addrs {key output : SwFlowKey} {is_mask : Bool} {tun_proto : BitVec 8} {rest : List Nlattr}
    {s : TunState} :
    ipTunLoop key is_mask (tunAddrsToNlattr output tun_proto ++ rest) s =
      ipTunLoop key is_mask rest { s with
        stores := s.stores ++ tunAddrStores output tun_proto,
        ipv4 := s.ipv4 || hasTunIpv4 output tun_proto,
        ipv6 := s.ipv6 || hasTunIpv6 output tun_proto } := by
  have hne : afInet ≠ afInet6 := by decide
  have hlen : ∀ off n : Nat, checkAttrLen (output.bytes off n).length (.fixed n) = true := by
    simp [checkAttrLen]
  unfold tunAddrsToNlattr tunAddrStores hasTunIpv4 hasTunIpv6
  by_cases h4 : tun_proto = afInet
  · have hsrc : ∀ s : TunState, ipTunAttr key is_mask s (output.bytes 264 4) .ipv4Src =
        .ok { s with stores := s.stores ++ [⟨264, output.bytes 264 4⟩], ipv4 := true } := by
      simp [ipTunAttr]
    have hdst : ∀ s : TunState, ipTunAttr key is_mask s (output.bytes 268 4) .ipv4Dst =
        .ok { s with stores := s.stores ++ [⟨268, output.bytes 268 4⟩], ipv4 := true } := by
      simp [ipTunAttr]
    rw [if_pos h4, if_pos h4, List.append_assoc, ipTunLoop_ipv4 (hlen 264 4) (hsrc _),
      ipTunLoop_ipv4 (hlen 268 4) (hdst _)]
    simp [h4, hne, Bool.or_assoc]
  · have hsrc : ∀ s : TunState, ipTunAttr key is_mask s (output.bytes 264 16) .ipv6Src =
        .ok { s with stores := s.stores ++ [⟨264, output.bytes 264 16⟩], ipv6 := true } := by
      simp [ipTunAttr]
    have hdst : ∀ s : TunState, ipTunAttr key is_mask s (output.bytes 280 16) .ipv6Dst =
        .ok { s with stores := s.stores ++ [⟨280, output.bytes 280 16⟩], ipv6 := true } := by
      simp [ipTunAttr]
    rw [if_neg h4, if_neg h4]
    by_cases h6 : tun_proto = afInet6
    · rw [if_pos h6, if_pos h6, List.append_assoc]
      show ipTunLoop key is_mask ((if output.bytes 264 16 ≠ zeros 16 then _ else _) ++
        ((if output.bytes 280 16 ≠ zeros 16 then _ else _) ++ rest)) s = _
      rw [ipTunLoop_ipv6 (hlen 264 16) (hsrc _), ipTunLoop_ipv6 (hlen 280 16) (hdst _)]
      simp [h6, hne.symm, Bool.or_assoc]
    · simp [h4, h6]

theorem ipTunLoop_opts {key output : SwFlowKey} {is_mask : Bool} {tun_opts : List (BitVec 8)} {s : TunState}
    (hseen : s.opts_seen = false) :
    ipTunLoop key is_mask (tunOptsToNlattr output tun_opts) s =
      match tunOptStores key is_mask output tun_opts with
      | .error e => .error e
      | .ok (stores, flag) => .ok { s with
          stores := s.stores ++ stores, tun_flags := s.tun_flags ||| flag, opts_seen := flag != 0 } := by
  have hnone : (.ok s : Except Int TunState) = .ok { s with
      stores := s.stores ++ [], tun_flags := s.tun_flags ||| 0, opts_seen := (0 : BitVec 16) != 0 } := by
    simp [← hseen]
  unfold tunOptsToNlattr tunOptStores
  by_cases hlen : tun_opts.length = 0
  · rw [if_pos hlen, if_pos hlen]
    exact hnone
  rw [if_neg hlen, if_neg hlen]
  by_cases hgeneve : output.be16 296 &&& 0x0800 ≠ 0
  · rw [if_pos hgeneve, if_pos hgeneve]
    cases hgenev : genevTunOptFromNlattr key tun_opts is_mask with
    | error e =>
        rw [ipTunLoop_error rfl]
        rw [ipTunAttr, hseen, if_neg Bool.false_ne_true, hgenev]
    | ok stores =>
        rw [ipTunLoop_cons rfl]
        · rfl
        · rw [ipTunAttr, hseen, if_neg Bool.false_ne_true, hgenev]
          rfl
  rw [if_neg hgeneve, if_neg hgeneve]
  by_cases hvxlan : output.be16 296 &&& 0x1000 ≠ 0
  · have hext : nlaForEachNested (nlaStream [⟨ovsVxlanExtGbp, slice tun_opts 0 4⟩]) =
        ([⟨ovsVxlanExtGbp, slice tun_opts 0 4⟩], 0) := by
      apply nlaForEachNested_nlaStream
      intro a ha
      rw [List.mem_singleton.mp ha]
      refine ⟨?_, show 1 < 16384 by decide⟩
      rw [slice_length]
      decide
    have hloop : vxlanTunOptLoop [⟨ovsVxlanExtGbp, slice tun_opts 0 4⟩] (zeros 4) = .ok (slice tun_opts 0 4) := by
      rw [vxlanTunOptLoop]
      simp [ovsVxlanExtMax, ovsVxlanExtGbp, checkAttrLen, ovsVxlanExtKeyLens, vxlanTunOptLoop,
        slice_self]
    have hfrom : vxlanTunOptFromNlattr (nlaStream [⟨ovsVxlanExtGbp, slice tun_opts 0 4⟩]) is_mask =
        .ok [⟨255, [if is_mask then 0xFF else 4]⟩, ⟨251, slice tun_opts 0 4⟩] := by
      rw [vxlanTunOptFromNlattr, hext]
      dsimp only
      rw [hloop]
      simp [slice_self]
    rw [if_pos hvxlan, if_pos hvxlan, vxlanOptToNlattr, ipTunLoop_cons rfl]
    · rfl
    · rw [ipTunAttr, hseen, if_neg Bool.false_ne_true, hfrom]
      rfl
  · rw [if_neg hvxlan, if_neg hvxlan]
    exact hnone

/-- **The loop over a tunnel that has been written.** -/
theorem ipTunLoop_put (key : SwFlowKey) (is_mask pad : Bool) (output : SwFlowKey) (tun_opts : List (BitVec 8))
    (tun_proto : BitVec 8) :
    ipTunLoop key is_mask (ipTunToNlattr1 pad output tun_opts tun_proto) ⟨false, false, false, 0, false, []⟩ =
      match tunOptStores key is_mask output tun_opts with
      | .error e => .error e
      | .ok (stores, flag) => .ok ⟨true, hasTunIpv4 output tun_proto, hasTunIpv6 output tun_proto,
          tunFieldFlags output ||| flag, flag != 0, tunFieldStores output tun_proto ++ stores⟩ := by
  have hlen : ∀ off n : Nat, checkAttrLen (output.bytes off n).length (.fixed n) = true := by
    simp [checkAttrLen]
  have htos : ∀ s : TunState, ipTunAttr key is_mask s (output.bytes 298 1) .tos =
      .ok { s with stores := s.stores ++ [⟨298, output.bytes 298 1⟩] } := by
    simp [ipTunAttr]
  have httl : ∀ s : TunState, ipTunAttr key is_mask s (output.bytes 299 1) .ttl =
      .ok { s with stores := s.stores ++ [⟨299, output.bytes 299 1⟩], ttl := true } := by
    simp [ipTunAttr]
  have hsrc : ∀ s : TunState, ipTunAttr key is_mask s (output.bytes 304 2) .tpSrc =
      .ok { s with stores := s.stores ++ [⟨304, output.bytes 304 2⟩] } := by
    simp [ipTunAttr]
  have hdst : ∀ s : TunState, ipTunAttr key is_mask s (output.bytes 306 2) .tpDst =
      .ok { s with stores := s.stores ++ [⟨306, output.bytes 306 2⟩] } := by
    simp [ipTunAttr]
  unfold ipTunToNlattr1
  simp only [List.append_assoc]
  rw [ipTunLoop_id (output.bytes_length 256 8), ipTunLoop_addrs, ipTunLoop_store (hlen 298 1) (htos _),
    List.singleton_append, ipTunLoop_cons (hlen 299 1) (httl _), ipTunLoop_flag rfl rfl, ipTunLoop_flag rfl rfl,
    ipTunLoop_store (hlen 304 2) (hsrc _), ipTunLoop_store (hlen 306 2) (hdst _), ipTunLoop_flag rfl rfl,
    ipTunLoop_opts rfl]
  simp only [Bool.false_or, List.nil_append, tunFieldStores, tunFieldFlags, SwFlowKey.tunBit,
    List.append_assoc, BitVec.ofNat_eq_ofNat, BitVec.zero_or]

/-! ## A key that is read back -/

theorem ipTunToNlattr1_fits (pad : Bool) (output : SwFlowKey) {tun_opts : List (BitVec 8)}
    (hlen : tun_opts.length ≤ 255) (tun_proto : BitVec 8) :
    ∀ a ∈ ipTunToNlattr1 pad output tun_opts tun_proto, a.Fits := by
  have hbytes : ∀ attr off n, n < 65532 → (tunAttr attr (output.bytes off n)).Fits := by
    intro attr off n hn
    exact tunAttr_fits attr (by rwa [output.bytes_length])
  have hflag : ∀ attr, (tunAttr attr []).Fits := fun attr => tunAttr_fits attr (by decide)
  have hopts : ∀ a ∈ tunOptsToNlattr output tun_opts, a.Fits := by
    unfold tunOptsToNlattr vxlanOptToNlattr
    split_ifs
    · simp
    · simpa using tunAttr_fits .geneveOpts (by omega)
    · simpa using tunAttr_fits .vxlanOpts (by simp [nlaTotalSize, nlaAlign, nlaHdrlen])
    · simp
  have haddrs : ∀ a ∈ tunAddrsToNlattr output tun_proto, a.Fits := by
    unfold tunAddrsToNlattr
    split_ifs <;> simp [hbytes]
  have hopt : ∀ {c : Prop} [Decidable c] {a : Nlattr}, a.Fits → ∀ b ∈ (if c then [a] else []), b.Fits := by
    intro c _ a ha b hb
    split_ifs at hb
    · rwa [List.mem_singleton.mp hb]
    · exact absurd hb List.not_mem_nil
  unfold ipTunToNlattr1
  simp only [List.forall_mem_append]
  refine ⟨⟨⟨⟨⟨⟨⟨⟨⟨?_, haddrs⟩, hopt (hbytes _ _ _ (by decide))⟩, ?_⟩, hopt (hflag _)⟩, hopt (hflag _)⟩,
    hopt (hbytes _ _ _ (by decide))⟩, hopt (hbytes _ _ _ (by decide))⟩, hopt (hflag _)⟩, hopts⟩
  · split_ifs <;> simp [hflag, hbytes]
  · simp [hbytes]

/-- A tunnel that has a destination address. -/
def TunReadable (output : SwFlowKey) (tun_proto : BitVec 8) : Prop :=
  (tun_proto = afInet ∧ output.u32 268 ≠ 0) ∨ (tun_proto = afInet6 ∧ output.bytes 280 16 ≠ zeros 16)

instance (output : SwFlowKey) (tun_proto : BitVec 8) : Decidable (TunReadable output tun_proto) :=
  inferInstanceAs (Decidable (_ ∨ _))

theorem copies_tunFieldStores (output : SwFlowKey) (tun_proto : BitVec 8) :
    Copies output (tunFieldStores output tun_proto) := by
  unfold tunFieldStores tunAddrStores
  simp

theorem reaches_tunAddrStores (output : SwFlowKey) (tun_proto : BitVec 8) (j : Nat) :
    Reaches (tunAddrStores output tun_proto) j ↔
      if tun_proto = afInet then
        (output.u32 264 ≠ 0 ∧ 264 ≤ j ∧ j < 268) ∨ (output.u32 268 ≠ 0 ∧ 268 ≤ j ∧ j < 272)
      else tun_proto = afInet6 ∧
        ((output.bytes 264 16 ≠ zeros 16 ∧ 264 ≤ j ∧ j < 280) ∨
          (output.bytes 280 16 ≠ zeros 16 ∧ 280 ≤ j ∧ j < 296)) := by
  unfold tunAddrStores
  simp

/-- The bytes of the addresses of a family. -/
def TunAddrByte (tun_proto : BitVec 8) (j : Nat) : Prop :=
  264 ≤ j ∧ ((tun_proto = afInet ∧ j < 272) ∨ (tun_proto = afInet6 ∧ j < 296))

/-- Where no address is stored there are zeros. -/
theorem tunAddrStores_zero {output : SwFlowKey} {tun_proto : BitVec 8} {j : Nat} (hj : TunAddrByte tun_proto j)
    (hnone : ¬ Reaches (tunAddrStores output tun_proto) j) : output.u8 j = 0 := by
  rw [reaches_tunAddrStores] at hnone
  obtain ⟨hle, ⟨h4, hlt⟩ | ⟨h6, hlt⟩⟩ := hj
  · rw [if_pos h4] at hnone
    push Not at hnone
    by_cases hsrc : j < 268
    · have hzero : output.u32 264 = 0 := by
        by_contra hne
        exact absurd (hnone.1 hne hle) (by omega)
      exact SwFlowKey.u32_eq_zero_iff.mp hzero j hle (by omega)
    · have hzero : output.u32 268 = 0 := by
        by_contra hne
        exact absurd (hnone.2 hne (by omega)) (by omega)
      exact SwFlowKey.u32_eq_zero_iff.mp hzero j (by omega) (by omega)
  · have hne : afInet6 ≠ afInet := by decide
    rw [h6, if_neg hne] at hnone
    push Not at hnone
    by_cases hsrc : j < 280
    · have hzero : output.bytes 264 16 = zeros 16 := by
        by_contra hne
        exact absurd ((hnone rfl).1 hne hle) (by omega)
      exact SwFlowKey.bytes_eq_zeros_iff.mp hzero j hle (by omega)
    · have hzero : output.bytes 280 16 = zeros 16 := by
        by_contra hne
        exact absurd ((hnone rfl).2 hne (by omega)) (by omega)
      exact SwFlowKey.bytes_eq_zeros_iff.mp hzero j (by omega) (by omega)

theorem reaches_tunFieldStores (output : SwFlowKey) (tun_proto : BitVec 8) (j : Nat) :
    Reaches (tunFieldStores output tun_proto) j ↔
      (output.be16 296 &&& 0x04 ≠ 0 ∧ 256 ≤ j ∧ j < 264) ∨ Reaches (tunAddrStores output tun_proto) j ∨
        (output.u8 298 ≠ 0 ∧ 298 ≤ j ∧ j < 299) ∨ (299 ≤ j ∧ j < 300) ∨
        (output.u16 304 ≠ 0 ∧ 304 ≤ j ∧ j < 306) ∨ (output.u16 306 ≠ 0 ∧ 306 ≤ j ∧ j < 308) := by
  unfold tunFieldStores
  simp

/-- The flag of the options that are written. -/
def tunOptFlag (output : SwFlowKey) (opts_len : Nat) : BitVec 16 :=
  if opts_len = 0 then 0
  else if output.be16 296 &&& 0x0800 ≠ 0 then 0x0800
  else if output.be16 296 &&& 0x1000 ≠ 0 then 0x1000
  else 0

/-- The stores for the options of a key. -/
def tunOptKeyStores (output : SwFlowKey) (tun_opts : List (BitVec 8)) : KeyStores :=
  if tunOptFlag output tun_opts.length = 0x0800 then
    [⟨255, [BitVec.ofNat 8 tun_opts.length]⟩, ⟨255 - tun_opts.length, tun_opts⟩]
  else if tunOptFlag output tun_opts.length = 0x1000 then [⟨255, [4]⟩, ⟨251, slice tun_opts 0 4⟩]
  else []

/-- Options of Geneve that do not end at a word are refused. -/
def TunOptsRefused (output : SwFlowKey) (opts_len : Nat) : Prop :=
  tunOptFlag output opts_len = 0x0800 ∧ opts_len % 4 ≠ 0

instance (output : SwFlowKey) (opts_len : Nat) : Decidable (TunOptsRefused output opts_len) :=
  inferInstanceAs (Decidable (_ ∧ _))

theorem tunOptStores_key (key output : SwFlowKey) {tun_opts : List (BitVec 8)} (hlen : tun_opts.length ≤ 255) :
    tunOptStores key false output tun_opts =
      if TunOptsRefused output tun_opts.length then .error einval
      else .ok (tunOptKeyStores output tun_opts, tunOptFlag output tun_opts.length) := by
  unfold tunOptStores TunOptsRefused tunOptKeyStores tunOptFlag genevTunOptFromNlattr
  by_cases hnone : tun_opts.length = 0
  · simp [hnone]
  by_cases hgeneve : output.be16 296 &&& 0x0800 = 0
  · by_cases hvxlan : output.be16 296 &&& 0x1000 = 0
    · simp_all
    · simp_all
  · by_cases hmod : tun_opts.length % 4 = 0
    · simp_all
      rw [if_neg (by omega)]
    · simp_all

/-- All stores of a tunnel that is read back as a key. -/
def tunKeyStores (output : SwFlowKey) (tun_opts : List (BitVec 8)) (tun_proto : BitVec 8) : KeyStores :=
  tunFieldStores output tun_proto ++ tunOptKeyStores output tun_opts ++
    [⟨296, be16 (tunFieldFlags output ||| tunOptFlag output tun_opts.length)⟩, ⟨323, [tun_proto]⟩]

theorem reaches_tunOptKeyStores {output : SwFlowKey} {tun_opts : List (BitVec 8)}
    (hlen : tun_opts.length ≤ 255) {j : Nat} (hj : Reaches (tunOptKeyStores output tun_opts) j) : j < 256 := by
  unfold tunOptKeyStores at hj
  split_ifs at hj
  · simp at hj
    omega
  · simp at hj
    omega
  · exact hj.elim

/-- The addresses that the parser finds in the key. -/
theorem tunKeyStores_addr {key0 output : SwFlowKey} {tun_opts : List (BitVec 8)} {tun_proto : BitVec 8}
    (hzero : ∀ j, 264 ≤ j → j < 296 → key0.u8 j = 0) (hlen : tun_opts.length ≤ 255) (tail : KeyStores)
    (htail : ∀ j, 264 ≤ j → j < 296 → ¬ Reaches tail j) {j : Nat} (hj : TunAddrByte tun_proto j) :
    (key0.store (tunFieldStores output tun_proto ++ tunOptKeyStores output tun_opts ++ tail)).u8 j =
      output.u8 j := by
  have hbounds : 264 ≤ j ∧ j < 296 := by
    unfold TunAddrByte at hj
    omega
  have hopts : ¬ Reaches (tunOptKeyStores output tun_opts) j := fun h => by
    have := reaches_tunOptKeyStores hlen h
    omega
  rw [SwFlowKey.store_u8 (by show j < 464; omega), stored_append_left (htail j hbounds.1 hbounds.2),
    stored_append_left hopts]
  by_cases hreach : Reaches (tunFieldStores output tun_proto) j
  · rw [(copies_tunFieldStores output tun_proto).stored_eq hreach]
    rfl
  · have haddr : ¬ Reaches (tunAddrStores output tun_proto) j := fun h =>
      hreach ((reaches_tunFieldStores ..).mpr (.inr (.inl h)))
    rw [(stored_eq_none_iff _ j).mpr hreach, tunAddrStores_zero hj haddr]
    exact hzero j hbounds.1 hbounds.2

theorem all_zero_iff {key : SwFlowKey} {off n : Nat} :
    ((List.range n).all fun i => key.u8 (off + i) == 0) = decide (key.bytes off n = zeros n) := by
  rw [Bool.eq_iff_iff, decide_eq_true_iff, SwFlowKey.bytes_eq_zeros_iff, List.all_eq_true]
  constructor
  · intro h j hle hlt
    have := h (j - off) (List.mem_range.mpr (by omega))
    rwa [Nat.add_sub_cancel' hle, beq_iff_eq] at this
  · intro h i hi
    rw [beq_iff_eq]
    exact h (off + i) (Nat.le_add_right ..) (Nat.add_lt_add_left (List.mem_range.mp hi) _)

/-- What is decided behind the loop. -/
theorem ipTunFromNlattr_of_loop {key0 : SwFlowKey} {data : List (BitVec 8)} {nlas : List Nlattr}
    {ipv4 ipv6 opts_seen : Bool} {tun_flags : BitVec 16} {stores all : KeyStores} {proto : BitVec 8}
    (hnlas : nlaForEachNested data = (nlas, 0))
    (hloop : ipTunLoop key0 false nlas ⟨false, false, false, 0, false, []⟩ =
      .ok ⟨true, ipv4, ipv6, tun_flags, opts_seen, stores⟩)
    (hproto : (if ipv6 then afInet6 else afInet) = proto)
    (hall : stores ++ [⟨296, be16 tun_flags⟩, ⟨323, [proto]⟩] = all) :
    ipTunFromNlattr key0 data false =
      if ipv4 = ipv6 ∨ (ipv4 = true ∧ (key0.store all).u32 268 = 0) ∨
          (ipv6 = true ∧ (key0.store all).bytes 280 16 = zeros 16) then .error einval
      else .ok all := by
  rw [ipTunFromNlattr, hnlas]
  dsimp only
  rw [hloop]
  dsimp only
  simp only [Bool.false_eq_true, if_false, SwFlowKey.afterStores, all_zero_iff]
  have hten : (10 : BitVec 8) = afInet6 := rfl
  have htwo : (2 : BitVec 8) = afInet := rfl
  rw [hten, htwo, hproto, hall]
  generalize key0.store all = key
  cases ipv4 <;> cases ipv6 <;> simp

/-- **A tunnel that has been written is read back** if it has a destination address, and options of whole
words. -/
theorem ipTunFromNlattr_put {key0 : SwFlowKey} (hzero : ∀ j, 264 ≤ j → j < 296 → key0.u8 j = 0) (pad : Bool)
    (output : SwFlowKey) {tun_opts : List (BitVec 8)} (hlen : tun_opts.length ≤ 255) (tun_proto : BitVec 8) :
    ipTunFromNlattr key0 (nlaStream (ipTunToNlattr1 pad output tun_opts tun_proto)) false =
      if TunOptsRefused output tun_opts.length ∨ ¬ TunReadable output tun_proto then .error einval
      else .ok (tunKeyStores output tun_opts tun_proto) := by
  have hnlas := nlaForEachNested_nlaStream (ipTunToNlattr1_fits pad output hlen tun_proto)
  have hloop := ipTunLoop_put key0 false pad output tun_opts tun_proto
  rw [tunOptStores_key key0 output hlen] at hloop
  by_cases hrefused : TunOptsRefused output tun_opts.length
  · rw [if_pos hrefused] at hloop
    rw [if_pos (Or.inl hrefused), ipTunFromNlattr, hnlas]
    dsimp only
    rw [hloop]
  rw [if_neg hrefused] at hloop
  -- all the stores, in the order in which the loop makes them
  have hall : tunFieldStores output tun_proto ++ tunOptKeyStores output tun_opts ++
      [⟨296, be16 (tunFieldFlags output ||| tunOptFlag output tun_opts.length)⟩, ⟨323, [tun_proto]⟩] =
        tunKeyStores output tun_opts tun_proto := rfl
  have haddr : ∀ j, TunAddrByte tun_proto j →
      (key0.store (tunKeyStores output tun_opts tun_proto)).u8 j = output.u8 j := by
    intro j hj
    apply tunKeyStores_addr hzero hlen _ _ hj
    simp
    omega
  have hne : afInet ≠ afInet6 := by decide
  -- the family is that of the addresses that have been written
  by_cases h4 : tun_proto = afInet
  · have h6 : hasTunIpv6 output tun_proto = false := by
      simp [hasTunIpv6, h4, hne]
    have hdst : (key0.store (tunKeyStores output tun_opts tun_proto)).u32 268 = output.u32 268 := by
      unfold SwFlowKey.u32 SwFlowKey.u16
      rw [haddr, haddr, haddr, haddr]
      all_goals exact ⟨by decide, .inl ⟨h4, by decide⟩⟩
    have hproto : (if hasTunIpv6 output tun_proto then afInet6 else afInet) = tun_proto := by
      rw [h6]
      exact h4.symm
    rw [ipTunFromNlattr_of_loop hnlas hloop hproto hall, hdst, h6]
    by_cases hzero : output.u32 268 = 0
    · have hunreadable : ¬ TunReadable output tun_proto := by
        simp [TunReadable, h4, hne, hzero]
      rw [if_pos (Or.inr hunreadable), if_pos]
      cases hasTunIpv4 output tun_proto <;> simp [hzero]
    · have hreadable : TunReadable output tun_proto := .inl ⟨h4, hzero⟩
      rw [if_neg (not_or.mpr ⟨hrefused, not_not.mpr hreadable⟩), if_neg]
      simp [hasTunIpv4, h4]
      exact ⟨fun _ => hzero, fun _ => hzero⟩
  · have hno4 : hasTunIpv4 output tun_proto = false := by
      simp [hasTunIpv4, h4]
    by_cases h6 : hasTunIpv6 output tun_proto = true
    · have hproto : tun_proto = afInet6 := (of_decide_eq_true h6).1
      have hdst : (key0.store (tunKeyStores output tun_opts tun_proto)).bytes 280 16 = output.bytes 280 16 := by
        rw [SwFlowKey.bytes_eq_iff]
        intro j hle hlt
        exact haddr j ⟨by omega, .inr ⟨hproto, by omega⟩⟩
      have hsix : (if hasTunIpv6 output tun_proto then afInet6 else afInet) = tun_proto := by
        rw [h6]
        exact hproto.symm
      rw [ipTunFromNlattr_of_loop hnlas hloop hsix hall, hdst, hno4, h6]
      by_cases hzero : output.bytes 280 16 = zeros 16
      · have hunreadable : ¬ TunReadable output tun_proto := by
          simp [TunReadable, h4, hzero]
        rw [if_pos (Or.inr hunreadable), if_pos (by simp [hzero])]
      · have hreadable : TunReadable output tun_proto := .inr ⟨hproto, hzero⟩
        rw [if_neg (not_or.mpr ⟨hrefused, not_not.mpr hreadable⟩), if_neg (by simp [hzero])]
    · have hunreadable : ¬ TunReadable output tun_proto := by
        rintro (⟨h, -⟩ | ⟨h, hdst⟩)
        · exact h4 h
        · exact h6 (decide_eq_true ⟨h, .inr hdst⟩)
      rw [ipTunFromNlattr_of_loop hnlas hloop rfl rfl, if_pos (Or.inr hunreadable), hno4,
        Bool.eq_false_iff.mpr h6]
      exact if_pos (.inl rfl)

/-! ## What is kept -/

theorem and_eq_self_iff {n : Nat} (f m : BitVec n) : f &&& m = f ↔ f &&& ~~~m = 0 := by
  constructor
  · intro h
    rw [← h, BitVec.and_assoc]
    simp
  · intro h
    apply BitVec.eq_of_getLsbD_eq
    intro i hi
    have := congrArg (fun x => x.getLsbD i) h
    simp [hi] at this ⊢
    assumption

theorem bit_eq_and (f : BitVec 16) (i : Nat) :
    (if f &&& BitVec.twoPow 16 i ≠ 0 then BitVec.twoPow 16 i else 0) = f &&& BitVec.twoPow 16 i := by
  rw [BitVec.and_twoPow]
  split_ifs <;> simp_all

/-- Each flag that is told by an attribute is told as it is. -/
theorem tunFieldFlags_eq (output : SwFlowKey) : tunFieldFlags output = output.be16 296 &&& 0x0305 := by
  have hbit : ∀ i, output.tunBit (BitVec.twoPow 16 i) = output.be16 296 &&& BitVec.twoPow 16 i :=
    fun i => bit_eq_and _ i
  show output.tunBit (BitVec.twoPow 16 2) ||| output.tunBit (BitVec.twoPow 16 8) |||
    output.tunBit (BitVec.twoPow 16 0) ||| output.tunBit (BitVec.twoPow 16 9) = _
  rw [hbit, hbit, hbit, hbit, ← BitVec.and_or_distrib_left, ← BitVec.and_or_distrib_left,
    ← BitVec.and_or_distrib_left]
  rfl

/-- The flag of the options is one that the tunnel has. -/
theorem tunOptFlag_and (output : SwFlowKey) (opts_len : Nat) :
    output.be16 296 &&& tunOptFlag output opts_len = tunOptFlag output opts_len := by
  have hbit : ∀ i, output.be16 296 &&& BitVec.twoPow 16 i ≠ 0 →
      output.be16 296 &&& BitVec.twoPow 16 i = BitVec.twoPow 16 i := by
    intro i hne
    rw [← bit_eq_and, if_pos hne]
  unfold tunOptFlag
  split_ifs with hnone hgeneve hvxlan
  · exact BitVec.and_zero
  · exact hbit 11 hgeneve
  · exact hbit 12 hvxlan
  · exact BitVec.and_zero

/-- All flags are told if there are no others. -/
theorem tunFlags_eq_iff (output : SwFlowKey) (opts_len : Nat) :
    tunFieldFlags output ||| tunOptFlag output opts_len = output.be16 296 ↔
      output.be16 296 &&& ~~~(0x0305 ||| tunOptFlag output opts_len) = 0 := by
  rw [← and_eq_self_iff, BitVec.and_or_distrib_left, tunOptFlag_and, tunFieldFlags_eq]

/-- The bytes of the tunnel in a key. -/
def TunByte (key : SwFlowKey) (j : Nat) : Prop := (255 - (key.u8 255).toNat ≤ j ∧ j < 312) ∨ j = 323

/-- A tunnel of which nothing is lost on the way through its attributes. -/
structure TunnelKept (key : SwFlowKey) : Prop where
  readable : TunReadable key (key.u8 323)
  opts_words : ¬ TunOptsRefused key (key.u8 255).toNat
  /-- The options have a flag that tells of what kind they are, and those of VXLAN their length. -/
  opts : (key.u8 255).toNat = 0 ∨ tunOptFlag key (key.u8 255).toNat = 0x0800 ∨
    (tunOptFlag key (key.u8 255).toNat = 0x1000 ∧ (key.u8 255).toNat = 4)
  /-- There is an attribute for every flag. -/
  flags : key.be16 296 &&& ~~~(0x0305 ||| tunOptFlag key (key.u8 255).toNat) = 0
  tun_id : key.be16 296 &&& 0x04 = 0 → key.bytes 256 8 = zeros 8
  addrs : key.u8 323 = afInet → key.bytes 272 24 = zeros 24
  label : key.bytes 300 4 = zeros 4
  padding : key.bytes 308 4 = zeros 4

section Kept

variable {output : SwFlowKey} {tun_opts : List (BitVec 8)} {tun_proto : BitVec 8} {j : Nat}

theorem reaches_tunFieldStores_bounds (h : Reaches (tunFieldStores output tun_proto) j) :
    256 ≤ j ∧ j < 308 ∧ j ≠ 296 ∧ j ≠ 297 := by
  rw [reaches_tunFieldStores, reaches_tunAddrStores] at h
  split_ifs at h
  all_goals omega

theorem stored_tunKeyStores_opts (hlt : j < 256) :
    stored (tunKeyStores output tun_opts tun_proto) j = stored (tunOptKeyStores output tun_opts) j := by
  unfold tunKeyStores
  rw [stored_append_left, stored_append, (stored_eq_none_iff (tunFieldStores ..) j).mpr, Option.or_none]
  · intro h
    have := reaches_tunFieldStores_bounds h
    omega
  · simp
    omega

theorem stored_tunKeyStores_field (hlen : tun_opts.length ≤ 255) (hle : 256 ≤ j) (hlt : j < 312)
    (hflags : j ≠ 296 ∧ j ≠ 297) :
    stored (tunKeyStores output tun_opts tun_proto) j = stored (tunFieldStores output tun_proto) j := by
  unfold tunKeyStores
  rw [stored_append_left, stored_append_left]
  · intro h
    have := reaches_tunOptKeyStores hlen h
    omega
  · simp
    omega

end Kept

@[simp] theorem SwFlowKey.tunMetadataOpts_length (key : SwFlowKey) (opts_len : Nat) :
    (key.tunMetadataOpts opts_len).length = opts_len := key.bytes_length ..

theorem SwFlowKey.bytes_one (key : SwFlowKey) (off : Nat) : key.bytes off 1 = [key.u8 off] := rfl

/-- The options are there again if they are of Geneve, or of VXLAN and as long as those are. -/
theorem tunOpts_kept_iff (key : SwFlowKey) :
    (∀ j, 255 - (key.u8 255).toNat ≤ j → j < 256 →
        (stored (tunOptKeyStores key (key.tunMetadataOpts (key.u8 255).toNat)) j).getD 0 = key.u8 j) ↔
      (key.u8 255).toNat = 0 ∨ tunOptFlag key (key.u8 255).toNat = 0x0800 ∨
        (tunOptFlag key (key.u8 255).toNat = 0x1000 ∧ (key.u8 255).toNat = 4) := by
  have hlt := (key.u8 255).isLt
  have hopts : ∀ n, key.tunMetadataOpts n = key.bytes (255 - n) n := fun _ => rfl
  unfold tunOptKeyStores
  rw [SwFlowKey.tunMetadataOpts_length]
  by_cases hgeneve : tunOptFlag key (key.u8 255).toNat = 0x0800
  · refine iff_of_true ?_ (.inr (.inl hgeneve))
    intro j hle hj
    rw [if_pos hgeneve]
    have hcopies : Copies key [⟨255, [BitVec.ofNat 8 (key.u8 255).toNat]⟩,
        ⟨255 - (key.u8 255).toNat, key.tunMetadataOpts (key.u8 255).toNat⟩] := by
      simp [hopts, SwFlowKey.bytes_one]
    rw [hcopies.stored_eq]
    · rfl
    · simp
      omega
  rw [if_neg hgeneve]
  by_cases hvxlan : tunOptFlag key (key.u8 255).toNat = 0x1000
  · rw [if_pos hvxlan]
    by_cases hfour : (key.u8 255).toNat = 4
    · refine iff_of_true ?_ (.inr (.inr ⟨hvxlan, hfour⟩))
      intro j hle hj
      have hbyte : key.u8 255 = 4 := BitVec.eq_of_toNat_eq hfour
      have hcopies : Copies key [⟨255, [4]⟩, ⟨251, slice (key.tunMetadataOpts (key.u8 255).toNat) 0 4⟩] := by
        rw [hfour]
        simp [hopts, SwFlowKey.bytes_one, hbyte]
      rw [hcopies.stored_eq]
      · rfl
      · simp
        omega
    · have hzero : (key.u8 255).toNat ≠ 0 := by
        intro h
        unfold tunOptFlag at hvxlan
        rw [if_pos h] at hvxlan
        exact absurd hvxlan (by decide)
      refine iff_of_false ?_ (not_or.mpr ⟨hzero, not_or.mpr ⟨hgeneve, fun h => hfour h.2⟩⟩)
      intro hall
      have hlast : (4 : BitVec 8) = key.u8 255 := hall 255 (by omega) (by omega)
      exact hfour (by rw [← hlast]; rfl)
  · rw [if_neg hvxlan]
    simp only [hgeneve, hvxlan, false_and, or_false]
    constructor
    · intro hall
      have hlast : (0 : BitVec 8) = key.u8 255 := hall 255 (by omega) (by omega)
      rw [← hlast]
      rfl
    · intro hzero j hle hj
      obtain rfl : j = 255 := by omega
      exact (BitVec.eq_of_toNat_eq hzero).symm

/-- Where no field is stored there are zeros, if there are zeros where no field is. -/
theorem tunFields_zero {key : SwFlowKey} {tun_proto : BitVec 8} (hproto : tun_proto = afInet ∨ tun_proto = afInet6)
    (haddrs : tun_proto = afInet → ∀ j, 272 ≤ j → j < 272 + 24 → key.u8 j = 0)
    (hlabel : ∀ j, 300 ≤ j → j < 300 + 4 → key.u8 j = 0) {j : Nat} (hle : 264 ≤ j) (hlt : j < 308)
    (hflags : j ≠ 296 ∧ j ≠ 297) (hnot : ¬ Reaches (tunFieldStores key tun_proto) j) : key.u8 j = 0 := by
  rw [reaches_tunFieldStores] at hnot
  simp only [not_or, not_and, ne_eq] at hnot
  obtain ⟨-, hnoaddr, hnotos, hnottl, hnosrc, hnodst⟩ := hnot
  -- the fields in the order in which they lie in the key
  by_cases h296 : j < 296
  · by_cases hfamily : TunAddrByte tun_proto j
    · exact tunAddrStores_zero hfamily hnoaddr
    · unfold TunAddrByte at hfamily
      rcases hproto with h4 | h6
      · apply haddrs h4 j _ (by omega)
        by_contra hlow
        exact hfamily ⟨by omega, .inl ⟨h4, by omega⟩⟩
      · exact absurd ⟨by omega, .inr ⟨h6, h296⟩⟩ hfamily
  by_cases h300 : j < 300
  · obtain rfl | rfl : j = 298 ∨ j = 299 := by omega
    · by_contra htos
      exact hnotos htos le_rfl (by decide)
    · exact absurd (show 299 < 300 by decide) (hnottl le_rfl)
  by_cases h304 : j < 304
  · exact hlabel j (by omega) (by omega)
  by_cases h306 : j < 306
  · have hsrc : key.u16 304 = 0 := by
      by_contra hsrc
      exact hnosrc hsrc (by omega) h306
    exact SwFlowKey.u16_eq_zero_iff.mp hsrc j (by omega) (by omega)
  · have hdst : key.u16 306 = 0 := by
      by_contra hdst
      exact hnodst hdst (by omega) hlt
    exact SwFlowKey.u16_eq_zero_iff.mp hdst j (by omega) (by omega)

/-- The fields are there again if nothing is where nothing is stored. -/
theorem tunFields_kept_iff {key : SwFlowKey} {tun_proto : BitVec 8}
    (hproto : tun_proto = afInet ∨ tun_proto = afInet6) :
    (∀ j, 256 ≤ j → j < 312 → j ≠ 296 ∧ j ≠ 297 → (stored (tunFieldStores key tun_proto) j).getD 0 = key.u8 j) ↔
      (key.be16 296 &&& 0x04 = 0 → key.bytes 256 8 = zeros 8) ∧
        (tun_proto = afInet → key.bytes 272 24 = zeros 24) ∧ key.bytes 300 4 = zeros 4 ∧
        key.bytes 308 4 = zeros 4 := by
  have haddr : ∀ j, Reaches (tunAddrStores key tun_proto) j → 264 ≤ j ∧ j < 296 ∧ (tun_proto = afInet → j < 272) := by
    intro j
    rw [reaches_tunAddrStores]
    split_ifs
    all_goals
      intro hreach
      refine ⟨by omega, by omega, fun h4 => ?_⟩
      first | omega | contradiction
  simp only [(copies_tunFieldStores key tun_proto).getD_eq_iff, SwFlowKey.bytes_eq_zeros_iff]
  constructor
  · intro hall
    simp only [reaches_tunFieldStores] at hall
    refine ⟨fun hkey j hle hlt => hall j hle (by omega) (by omega) ?_,
      fun h4 j hle hlt => hall j (by omega) (by omega) (by omega) ?_,
      fun j hle hlt => hall j (by omega) (by omega) (by omega) ?_,
      fun j hle hlt => hall j (by omega) (by omega) (by omega) ?_⟩
    · rintro (h | h | h)
      · exact h.1 hkey
      · have := haddr j h
        omega
      · omega
    · rintro (h | h | h)
      · omega
      · have := (haddr j h).2.2 h4
        omega
      · omega
    all_goals
      rintro (h | h | h)
      · omega
      · have := haddr j h
        omega
      · omega
  · rintro ⟨hid, haddrs, hlabel, hpad⟩ j hle hlt hflags hnot
    by_cases h264 : j < 264
    · rw [reaches_tunFieldStores] at hnot
      apply hid _ j hle h264
      by_contra hkey
      exact hnot (.inl ⟨hkey, hle, h264⟩)
    by_cases h308 : j < 308
    · exact tunFields_zero hproto haddrs hlabel (by omega) h308 hflags hnot
    · exact hpad j (by omega) (by omega)

theorem be16_inj {v w : BitVec 16} : be16 v = be16 w ↔ v = w := by
  constructor
  · intro h
    rw [be16, be16, List.cons.injEq, List.cons.injEq] at h
    rw [← be16_bytes v, ← be16_bytes w, h.1, h.2.1]
  · rintro rfl
    rfl

theorem be16_append (a b : BitVec 8) : be16 (a ++ b) = [a, b] := by
  have h := bitVec_append_inj.mp (be16_bytes (a ++ b))
  rw [be16, h.1, h.2]

/-- The flags are there again if there is an attribute for each. -/
theorem tunFlags_kept_iff (key : SwFlowKey) (tun_opts : List (BitVec 8)) (tun_proto : BitVec 8) :
    (∀ j, 296 ≤ j → j < 298 → (stored (tunKeyStores key tun_opts tun_proto) j).getD 0 = key.u8 j) ↔
      key.be16 296 &&& ~~~(0x0305 ||| tunOptFlag key tun_opts.length) = 0 := by
  rw [← tunFlags_eq_iff, ← be16_inj, SwFlowKey.be16, be16_append]
  unfold tunKeyStores
  generalize tunFieldFlags key ||| tunOptFlag key tun_opts.length = tun_flags
  have hhigh : stored (tunFieldStores key tun_proto ++ tunOptKeyStores key tun_opts ++
      [⟨296, be16 tun_flags⟩, ⟨323, [tun_proto]⟩]) 296 = some ((tun_flags >>> 8).setWidth 8) := by
    rw [stored_append]
    rfl
  have hlow : stored (tunFieldStores key tun_proto ++ tunOptKeyStores key tun_opts ++
      [⟨296, be16 tun_flags⟩, ⟨323, [tun_proto]⟩]) 297 = some (tun_flags.setWidth 8) := by
    rw [stored_append]
    rfl
  have hbe : be16 tun_flags = [key.u8 296, key.u8 (296 + 1)] ↔
      (tun_flags >>> 8).setWidth 8 = key.u8 296 ∧ tun_flags.setWidth 8 = key.u8 297 := by
    simp [be16]
  rw [hbe]
  constructor
  · intro h
    have h296 := h 296 le_rfl (by decide)
    have h297 := h 297 (by decide) (by decide)
    rw [hhigh] at h296
    rw [hlow] at h297
    exact ⟨h296, h297⟩
  · rintro ⟨h296, h297⟩ j hle hlt
    obtain rfl | rfl : j = 296 ∨ j = 297 := by omega
    · rw [hhigh]
      exact h296
    · rw [hlow]
      exact h297

/-- **A tunnel is kept** exactly if there are attributes for all that it has. -/
theorem tunnelKept_iff {key0 : SwFlowKey} (hzero : ∀ j, 264 ≤ j → j < 296 → key0.u8 j = 0) (pad : Bool)
    (key : SwFlowKey) :
    (∃ stores, ipTunFromNlattr key0 (nlaStream (ipTunToNlattr1 pad key
          (key.tunMetadataOpts (key.u8 255).toNat) (key.u8 323))) false = .ok stores ∧
        ∀ j, TunByte key j → (stored stores j).getD 0 = key.u8 j) ↔ TunnelKept key := by
  have hlen : (key.tunMetadataOpts (key.u8 255).toNat).length ≤ 255 := by
    rw [SwFlowKey.tunMetadataOpts_length]
    exact Nat.le_of_lt_succ (key.u8 255).isLt
  have hopts := tunOpts_kept_iff key
  have hflags := tunFlags_kept_iff key (key.tunMetadataOpts (key.u8 255).toNat) (key.u8 323)
  rw [SwFlowKey.tunMetadataOpts_length] at hflags
  rw [ipTunFromNlattr_put hzero pad key hlen, SwFlowKey.tunMetadataOpts_length]
  constructor
  · rintro ⟨stores, hstores, hbytes⟩
    split_ifs at hstores with hrefused
    obtain ⟨hwords, hreadable⟩ := not_or.mp hrefused
    obtain rfl := Except.ok.inj hstores
    have hreadable := not_not.mp hreadable
    have hproto : key.u8 323 = afInet ∨ key.u8 323 = afInet6 := hreadable.imp And.left And.left
    obtain ⟨hid, haddrs, hlabel, hpad⟩ := (tunFields_kept_iff hproto).mp fun j hle hlt hne => by
      rw [← stored_tunKeyStores_field hlen hle hlt hne]
      exact hbytes j (.inl ⟨by omega, hlt⟩)
    refine ⟨hreadable, hwords, hopts.mp fun j hle hlt => ?_, hflags.mp fun j hle hlt => ?_, hid, haddrs,
      hlabel, hpad⟩
    · rw [← stored_tunKeyStores_opts hlt]
      exact hbytes j (.inl ⟨hle, by omega⟩)
    · exact hbytes j (.inl ⟨by omega, by omega⟩)
  · intro h
    have hproto : key.u8 323 = afInet ∨ key.u8 323 = afInet6 := h.readable.imp And.left And.left
    refine ⟨_, if_neg (not_or.mpr ⟨h.opts_words, not_not.mpr h.readable⟩), ?_⟩
    rintro j (⟨hle, hlt⟩ | rfl)
    · by_cases hopt : j < 256
      · rw [stored_tunKeyStores_opts hopt]
        exact hopts.mpr h.opts j hle hopt
      by_cases hflag : j = 296 ∨ j = 297
      · exact hflags.mpr h.flags j (by omega) (by omega)
      · rw [stored_tunKeyStores_field hlen (by omega) hlt (by omega)]
        exact (tunFields_kept_iff hproto).mpr ⟨h.tun_id, h.addrs, h.label, h.padding⟩ j (by omega) hlt (by omega)
    · rw [tunKeyStores, stored_append]
      rfl

end OvsDatapath.Flow
