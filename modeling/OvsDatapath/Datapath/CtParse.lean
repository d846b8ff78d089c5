import OvsDatapath.Datapath.PutActions

/-!
# Parsing a CT action

`parse_ct` (`conntrack.c`) fills a `struct ovs_conntrack_info` from the attributes that are nested in a CT
action, and `parse_nat` the part about NAT. The mark and the labels come as a value and a mask. The masks
must not be empty and need the commit flag (`parseCt_commits`), but nothing is said of the values: bits
outside the mask stay in them.
-/

namespace OvsDatapath.Datapath

open OvsDatapath.Lib OvsDatapath.Flow OvsDatapath.Actions

/-- What is configured, and `NF_CT_HELPER_NAME_LEN`. -/
structure CtConfig where
  zones : Bool
  mark : Bool
  labels : Bool
  nat_needed : Bool
  /-- Whether there is `NF_NAT_RANGE_PROTO_RANDOM_FULLY`. -/
  nat_random_fully : Bool
  helper_name_len : Nat

/-! ## NAT -/

/-- `OVS_CT_NAT`. -/
def ovsCtNat : BitVec 3 := 1

/-- `ovs_nat_attr_lens`. -/
def ovsNatAttrLen (family : NfProto) : OvsNatAttr → Nat
  | .ipMin | .ipMax => family.addrLen
  | .protoMin | .protoMax => 2
  | _ => 0

/-- The variables of `parse_nat`. -/
structure NatParse where
  info : OvsConntrackInfo
  have_ip_max : Bool
  have_proto_max : Bool

/-- The range with a flag set. -/
def NfNatRange.setFlag (range : NfNatRange) (flag : BitVec 32) : NfNatRange :=
  { range with flags := range.flags ||| flag }

/-- Change the range. -/
def NatParse.range (st : NatParse) (f : NfNatRange → NfNatRange) : NatParse :=
  { st with info := { st.info with range := f st.info.range } }

/-- The switch of `parse_nat`. -/
def natAttrSwitch (cfg : CtConfig) (data : List (BitVec 8)) (st : NatParse) : OvsNatAttr → Except Int NatParse
  | .unspec => .error einval
  | .src =>
      if st.info.nat ≠ 0 then .error erange
      else .ok { st with info := { st.info with nat := ovsCtNat ||| ovsCtSrcNat } }
  | .dst =>
      if st.info.nat ≠ 0 then .error erange
      else .ok { st with info := { st.info with nat := ovsCtNat ||| ovsCtDstNat } }
  | .ipMin => .ok (st.range fun r => { r with min_addr := byteAt data }.setFlag nfNatRangeMapIps)
  | .ipMax =>
      .ok { st.range fun r => { r with max_addr := byteAt data }.setFlag nfNatRangeMapIps with have_ip_max := true }
  | .protoMin => .ok (st.range fun r => { r with min_proto := le16At data 0 }.setFlag nfNatRangeProtoSpecified)
  | .protoMax =>
      .ok { st.range fun r => { r with max_proto := le16At data 0 }.setFlag nfNatRangeProtoSpecified with
        have_proto_max := true }
  | .persistent => .ok (st.range (·.setFlag nfNatRangePersistent))
  | .protoHash => .ok (st.range (·.setFlag nfNatRangeProtoRandom))
  | .protoRandom =>
      if cfg.nat_random_fully then .ok (st.range (·.setFlag nfNatRangeProtoRandomFully))
      else
        let st := st.range (·.setFlag nfNatRangeProtoRandom)
        .ok { st with info := { st.info with random_fully_compat := true } }

/-- The loop of `parse_nat`. -/
def parseNatLoop (cfg : CtConfig) : List Nlattr → NatParse → Except Int NatParse
  | [], st => .ok st
  | a :: rest, st =>
      match ovsNatAttrs[a.type]? with
      | none => .error einval
      | some attr =>
          if a.data.length ≠ ovsNatAttrLen st.info.family attr then .error einval
          else do
            let st ← natAttrSwitch cfg a.data st attr
            parseNatLoop cfg rest st

/-- What `parse_nat` completes: the highest address and port, if only the lowest has been given. -/
def NatParse.complete (st : NatParse) : OvsConntrackInfo :=
  let range := st.info.range
  let range := if range.flags &&& nfNatRangeMapIps ≠ 0 ∧ !st.have_ip_max then
    { range with max_addr := range.min_addr } else range
  let range := if range.flags &&& nfNatRangeProtoSpecified ≠ 0 ∧ !st.have_proto_max then
    { range with max_proto := range.min_proto } else range
  { st.info with range := range }

/-- `parse_nat`. -/
def parseNat (cfg : CtConfig) (attr : List (BitVec 8)) (info : OvsConntrackInfo) :
    Except Int OvsConntrackInfo := do
  let (nlas, rem) := nlaForEachNested attr
  let st ← parseNatLoop cfg nlas ⟨info, false, false⟩
  if 0 < rem then .error einval
  else if st.info.nat = 0 then
    if st.info.range.flags ≠ 0 then .error einval
    else .ok { st with info := { st.info with nat := ovsCtNat } }.complete
  else if !st.info.commit then .error einval
  else .ok st.complete

/-! ## CT -/

/-- `ovs_ct_attr_lens`: the least and the greatest length. -/
def ovsCtAttrLens (cfg : CtConfig) : OvsCtAttr → Nat × Nat
  | .unspec | .commit | .forceCommit => (0, 0)
  | .zone => (2, 2)
  | .mark => (8, 8)
  | .labels => (32, 32)
  | .helper => (1, cfg.helper_name_len)
  | .nat => if cfg.nat_needed then (0, 2 ^ 31 - 1) else (0, 0)
  | .eventmask => (4, 4)

/-- The variables of `parse_ct`: the information, and the name of the helper. -/
abbrev CtParse := OvsConntrackInfo × Option (List (BitVec 8))

/-- The switch of `parse_ct`. -/
def ctAttrSwitch (cfg : CtConfig) (data : List (BitVec 8)) (st : CtParse) : OvsCtAttr → Except Int CtParse
  | .unspec => .error einval
  | .forceCommit => .ok ({ st.1 with force := true, commit := true }, st.2)
  | .commit => .ok ({ st.1 with commit := true }, st.2)
  | .zone => if cfg.zones then .ok ({ st.1 with zone := le16At data 0 }, st.2) else .error einval
  | .mark =>
      if !cfg.mark ∨ le32At data 4 = 0 then .error einval
      else .ok ({ st.1 with mark_value := le32At data 0, mark_mask := le32At data 4 }, st.2)
  | .labels =>
      if !cfg.labels ∨ !labelsNonzero (fun i => byteAt data (16 + i)) then .error einval
      else .ok ({ st.1 with labels_value := byteAt data, labels_mask := fun i => byteAt data (16 + i) }, st.2)
  | .helper => if 0 ∈ data then .ok (st.1, some (data.takeWhile (· ≠ 0))) else .error einval
  | .nat =>
      if cfg.nat_needed then do
        let info ← parseNat cfg data st.1
        .ok (info, st.2)
      else .error einval
  | .eventmask => .ok ({ st.1 with have_eventmask := true, eventmask := le32At data 0 }, st.2)

/-- The loop of `parse_ct`. -/
def parseCtLoop (cfg : CtConfig) : List Nlattr → CtParse → Except Int CtParse
  | [], st => .ok st
  | a :: rest, st =>
      match ovsCtAttrs[a.type]? with
      | none => .error einval
      | some attr =>
          if a.data.length < (ovsCtAttrLens cfg attr).1 ∨ (ovsCtAttrLens cfg attr).2 < a.data.length then
            .error einval
          else do
            let st ← ctAttrSwitch cfg a.data st attr
            parseCtLoop cfg rest st

/-- The information that `ovs_ct_copy_action` starts with. -/
def ctInfoInit (family : NfProto) : OvsConntrackInfo where
  helper := none
  zone := 0
  commit := false
  nat := 0
  random_fully_compat := false
  force := false
  have_eventmask := false
  family := family
  eventmask := 0
  mark_value := 0
  mark_mask := 0
  labels_value _ := 0
  labels_mask _ := 0
  range := ⟨0, fun _ => 0, fun _ => 0, 0, 0⟩

/-- `parse_ct`. -/
def parseCt (cfg : CtConfig) (family : NfProto) (attr : List (BitVec 8)) : Except Int CtParse := do
  let (nlas, rem) := nlaForEachNested attr
  let st ← parseCtLoop cfg nlas (ctInfoInit family, none)
  if cfg.mark ∧ !st.1.commit ∧ st.1.mark_mask ≠ 0 then .error einval
  else if cfg.labels ∧ !st.1.commit ∧ labelsNonzero st.1.labels_mask then .error einval
  else if 0 < rem then .error einval
  else .ok st

/-! ## What is accepted -/

/-- The fields that a step of `parse_nat` does not write. -/
structure SameMarks (info info' : OvsConntrackInfo) : Prop where
  commit : info'.commit = info.commit
  mark_mask : info'.mark_mask = info.mark_mask
  labels_mask : info'.labels_mask = info.labels_mask

variable {cfg : CtConfig} {data : List (BitVec 8)}

theorem natAttrSwitch_same {st st' : NatParse} {attr : OvsNatAttr} (h : natAttrSwitch cfg data st attr = .ok st') :
    SameMarks st.info st'.info := by
  cases attr with
  | unspec => cases h
  | src | dst | protoRandom =>
      rw [natAttrSwitch] at h
      split_ifs at h
      all_goals
        cases h
        exact ⟨rfl, rfl, rfl⟩
  | ipMin | ipMax | protoMin | protoMax | persistent | protoHash =>
      cases h
      exact ⟨rfl, rfl, rfl⟩

theorem parseNatLoop_same {nlas : List Nlattr} {st st' : NatParse} (h : parseNatLoop cfg nlas st = .ok st') :
    SameMarks st.info st'.info := by
  induction nlas generalizing st with
  | nil =>
      cases h
      exact ⟨rfl, rfl, rfl⟩
  | cons a rest ih =>
      rw [parseNatLoop] at h
      cases hattr : ovsNatAttrs[a.type]? with
      | none =>
          rw [hattr] at h
          cases h
      | some attr =>
          rw [hattr] at h
          dsimp only at h
          split_ifs at h with hlen
          obtain ⟨mid, hmid, hrest⟩ := bind_eq_ok.mp h
          have hstep := natAttrSwitch_same hmid
          have hloop := ih hrest
          exact ⟨hloop.commit.trans hstep.commit, hloop.mark_mask.trans hstep.mark_mask,
            hloop.labels_mask.trans hstep.labels_mask⟩

theorem parseNat_same {info info' : OvsConntrackInfo} (h : parseNat cfg data info = .ok info') :
    SameMarks info info' := by
  unfold parseNat at h
  obtain ⟨st, hloop, hrest⟩ := bind_eq_ok.mp h
  have hsame : SameMarks info st.info := parseNatLoop_same hloop
  split_ifs at hrest
  all_goals
    cases hrest
    exact ⟨hsame.commit, hsame.mark_mask, hsame.labels_mask⟩

/-- A mask that is not empty has been asked for with an attribute that is configured. -/
structure MasksConfigured (cfg : CtConfig) (info : OvsConntrackInfo) : Prop where
  mark : info.mark_mask ≠ 0 → cfg.mark
  labels : labelsNonzero info.labels_mask → cfg.labels

theorem ctAttrSwitch_configured {st st' : CtParse} {attr : OvsCtAttr} (hst : MasksConfigured cfg st.1)
    (h : ctAttrSwitch cfg data st attr = .ok st') : MasksConfigured cfg st'.1 := by
  cases attr with
  | unspec => cases h
  | forceCommit | commit | eventmask =>
      cases h
      exact ⟨hst.mark, hst.labels⟩
  | zone | helper =>
      rw [ctAttrSwitch] at h
      split_ifs at h
      cases h
      exact ⟨hst.mark, hst.labels⟩
  | mark =>
      rw [ctAttrSwitch] at h
      split_ifs at h with hbad
      cases h
      exact ⟨fun _ => by simpa using (not_or.mp hbad).1, hst.labels⟩
  | labels =>
      rw [ctAttrSwitch] at h
      split_ifs at h with hbad
      cases h
      exact ⟨hst.mark, fun _ => by simpa using (not_or.mp hbad).1⟩
  | nat =>
      rw [ctAttrSwitch] at h
      split_ifs at h
      obtain ⟨info, hinfo, hrest⟩ := bind_eq_ok.mp h
      cases hrest
      have hsame := parseNat_same hinfo
      exact ⟨fun hmask => hst.mark (hsame.mark_mask ▸ hmask), fun hmask => hst.labels (hsame.labels_mask ▸ hmask)⟩

theorem parseCtLoop_configured {nlas : List Nlattr} {st st' : CtParse} (hst : MasksConfigured cfg st.1)
    (h : parseCtLoop cfg nlas st = .ok st') : MasksConfigured cfg st'.1 := by
  induction nlas generalizing st with
  | nil =>
      cases h
      exact hst
  | cons a rest ih =>
      rw [parseCtLoop] at h
      cases hattr : ovsCtAttrs[a.type]? with
      | none =>
          rw [hattr] at h
          cases h
      | some attr =>
          rw [hattr] at h
          dsimp only at h
          split_ifs at h with hlen
          obtain ⟨mid, hmid, hrest⟩ := bind_eq_ok.mp h
          exact ih (ctAttrSwitch_configured hst hmid) hrest

/-- An action that writes the mark or the labels commits. -/
theorem parseCt_commits {family : NfProto} {st : CtParse} (h : parseCt cfg family data = .ok st)
    (hmask : st.1.mark_mask ≠ 0 ∨ labelsNonzero st.1.labels_mask) : st.1.commit := by
  unfold parseCt at h
  obtain ⟨st', hloop, hrest⟩ := bind_eq_ok.mp h
  have hinit : MasksConfigured cfg (ctInfoInit family) :=
    ⟨fun hmark => absurd rfl hmark, fun hlabels =>
      absurd (show labelsNonzero (fun _ => 0) = true from hlabels) (by decide)⟩
  have hconfigured : MasksConfigured cfg st'.1 := parseCtLoop_configured hinit hloop
  split_ifs at hrest with hmark hlabels hrem
  cases hrest
  by_contra hcommit
  rcases hmask with hmask | hmask
  · exact hmark ⟨hconfigured.mark hmask, by simpa using hcommit, hmask⟩
  · exact hlabels ⟨hconfigured.labels hmask, by simpa using hcommit, hmask⟩

end OvsDatapath.Datapath
