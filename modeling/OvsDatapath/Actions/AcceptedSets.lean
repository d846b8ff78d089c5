import OvsDatapath.Actions.SetExact
import OvsDatapath.Flow.ExtractReads

/-!
# Accepted set actions

`SetsExactly` says of a set action that it rewrites the fields of its header under their masks and the
checksums that cover them, and leaves everything else in the packet and in its metadata alone. A set action
that the validator has let pass does so, with one exception: in an IPv4 packet whose header does not hold
together, a part of this header is taken for the checksum of TCP or UDP.
-/

namespace OvsDatapath.Actions

open OvsDatapath.Lib OvsDatapath.Flow

variable {ops : CsumOps} {env : SkbEnv} {skb skb' : SkbState} {st : SetState}
variable {key mask data : List (BitVec 8)}

/-! ## Keys and masks -/

/-- The validator has accepted a set action, with a mask or without one, and stored it with a mask. -/
def CopiedSet (aenv : ActionsEnv) (key : SwFlowKey) (cst : CopyState) (data : List (BitVec 8)) (masked : Bool)
    (a : List (BitVec 8)) : Prop :=
  ∃ sfa o sfa', validateSet aenv key cst sfa data masked = .ok (o, sfa') ∧
    sfa'.actions ++ o.toList = sfa.actions ++ [.setMasked a]

/-- What is known of the key and the mask of such an action. -/
structure Settable (attr : OvsKeyAttr) (data : List (BitVec 8)) : Prop where
  masked : ∀ n, ovsKeyLens attr = .fixed n → WithinMask (data.take n) (data.drop n)
  label : attr = .ipv6 → LabelBits (slice (data.drop 40) 32 4)

theorem byteAt_take (l : List (BitVec 8)) {n i : Nat} (hi : i < n) : byteAt (l.take n) i = byteAt l i := by
  simp [byteAt, hi]

theorem byteAt_take_ge (l : List (BitVec 8)) {n i : Nat} (hi : n ≤ i) : byteAt (l.take n) i = 0 := by
  have hlen : (l.take n).length ≤ i := le_trans (List.length_take_le n l) hi
  rw [byteAt, List.getD, List.getElem?_eq_none hlen]
  rfl

theorem byteAt_drop (l : List (BitVec 8)) (n i : Nat) : byteAt (l.drop n) i = byteAt l (n + i) := by
  simp [byteAt]

theorem withinMask_of_validateMasked {n : Nat} (h : validateMasked data n = true) :
    WithinMask (data.take n) (data.drop n) := by
  intro i
  by_cases hi : i < n
  · rw [byteAt_take _ hi, byteAt_drop]
    exact eq_of_beq (List.all_eq_true.mp h i (List.mem_range.mpr hi))
  · rw [byteAt_take_ge _ (Nat.not_lt.mp hi)]
    exact BitVec.zero_and

/-- The upper bits of a label are tested in the number that its first bytes make. -/
theorem label_bytes {i : Nat} (h : be16Of data i &&& 0xFFF0 = 0) :
    byteAt data i = 0 ∧ byteAt data (i + 1) &&& 0xF0 = 0 := by
  have hbit : ∀ k, (be16Of data i).getLsbD k =
      if k < 8 then (byteAt data (i + 1)).getLsbD k else (byteAt data i).getLsbD (k - 8) :=
    fun _ => BitVec.getLsbD_append
  have hzero : ∀ k, 4 ≤ k → k < 16 → (be16Of data i).getLsbD k = false := by
    intro k hle hlt
    have hk := congrArg (BitVec.getLsbD · k) h
    interval_cases k <;> simpa using hk
  constructor
  · apply BitVec.eq_of_getLsbD_eq
    intro k hk
    have := hzero (k + 8) (by omega) (by omega)
    rw [hbit, if_neg (by omega), Nat.add_sub_cancel] at this
    simpa using this
  · apply BitVec.eq_of_getLsbD_eq
    intro k hk
    by_cases hlow : k < 4
    · interval_cases k <;> simp
    · have := hzero k (by omega) (by omega)
      rw [hbit, if_pos hk] at this
      simp [this]

theorem byteAt_fullMask {attr : OvsKeyAttr} {n i : Nat} (hi : i < n)
    (h : attr = .ipv6 → n = 40 ∧ i ≠ 32 ∧ i ≠ 33) : byteAt (fullMask attr n) i = 0xFF := by
  unfold fullMask byteAt
  dsimp only
  split_ifs with hattr
  · obtain ⟨rfl, h32, h33⟩ := h hattr
    interval_cases i <;> first | rfl | exact absurd rfl h32 | exact absurd rfl h33
  · simp [hi]

/-- A set action without a mask gets one that covers what it sets. -/
theorem withinMask_fullMask {attr : OvsKeyAttr} {ovs_key : List (BitVec 8)}
    (hlen : attr = .ipv6 → ovs_key.length = 40) (hlabel : attr = .ipv6 → be16Of ovs_key 32 &&& 0xFFF0 = 0) :
    WithinMask ovs_key (fullMask attr ovs_key.length) := by
  intro i
  by_cases hi : i < ovs_key.length
  · by_cases hspecial : attr = .ipv6 ∧ (i = 32 ∨ i = 33)
    · obtain ⟨rfl, hi'⟩ := hspecial
      obtain ⟨hfirst, hsecond⟩ := label_bytes (hlabel rfl)
      rw [hlen rfl]
      obtain rfl | rfl := hi'
      · rw [hfirst]
        exact BitVec.zero_and
      · exact hsecond
    · rw [byteAt_fullMask hi fun hattr => ⟨hlen hattr, by tauto, by tauto⟩]
      exact BitVec.and_zero
  · have hzero : byteAt ovs_key i = 0 := by
      rw [byteAt, List.getD, List.getElem?_eq_none (Nat.not_lt.mp hi)]
      rfl
    rw [hzero]
    exact BitVec.zero_and

/-- An accepted set action has a key within its mask. -/
theorem CopiedSet.settable {aenv : ActionsEnv} {flow_key : SwFlowKey} {cst : CopyState} {masked : Bool}
    {a : List (BitVec 8)} (h : CopiedSet aenv flow_key cst data masked a) :
    ∃ attr ovs_key, setKey a = some (attr, ovs_key) ∧ Settable attr ovs_key := by
  obtain ⟨sfa, action, sfa', h, happended⟩ := h
  cases setCopied_of_validateSet h with
  | tunnel hactions =>
      -- a tunnel is set by an action of its own
      rw [hactions] at happended
      simp at happended
  | @masked attr ovs_key hread _ hlen hmasked hkey hsfa =>
      obtain rfl : data = a := by simpa [hsfa] using happended
      refine ⟨attr, ovs_key, hread, fun n hn => ?_, fun hipv6 => ?_⟩
      · rw [hn, checkAttrLen, beq_iff_eq] at hlen
        subst hlen
        exact withinMask_of_validateMasked hmasked
      · subst hipv6
        simp only [validateSetKey, if_true, Bool.and_eq_true, beq_iff_eq] at hkey
        have hlabel := (label_bytes hkey.1.2.2).2
        rwa [LabelBits, byteAt_slice _ _ (by decide), byteAt_drop]
  | @whole attr ovs_key hread _ hlen hipv6 hkey hactions =>
      rw [hactions] at happended
      obtain rfl : nlaBytes attr (ovs_key ++ fullMask attr ovs_key.length) = a := by
        simpa using happended
      refine ⟨attr, _, hread, fun n hn => ?_, fun hattr => ?_⟩
      · obtain rfl : ovs_key.length = n := AttrLen.fixed.inj (hlen.symm.trans hn)
        rw [List.take_left, List.drop_left]
        apply withinMask_fullMask hipv6
        rintro rfl
        simp only [validateSetKey, Bool.false_eq_true, if_false, Bool.and_eq_true, beq_iff_eq] at hkey
        exact hkey.2
      · subst hattr
        rw [← hipv6 rfl, List.drop_left, hipv6 rfl]
        rfl

/-! ## What a set action is for -/

/-- The fields that a set action writes. -/
def settableFields (attr : OvsKeyAttr) (skb : SkBuff) (data : List (BitVec 8)) : List MaskedField :=
  match attr with
  | .ethernet => ethernetFields (data.take 12) (data.drop 12)
  | .ipv4 => ipv4Fields skb.network_header (data.take 12) (data.drop 12)
  | .ipv6 => ipv6Fields skb.network_header (data.take 40) (data.drop 40)
  | .tcp | .udp | .sctp => portFields skb.transport_header (data.take 4) (data.drop 4)
  | .mpls => mplsFields skb.mac_len (data.take 4) (data.drop 4)
  | _ => []

/-- The checksums that a set action maintains. -/
def Maintained (attr : OvsKeyAttr) (st : SetState) (j : Nat) : Prop :=
  match attr with
  | .ipv4 => Ipv4Maintained st.skb.toSkBuff j
  | .ipv6 => st.flow_key.ipFrag ≠ ovsFragTypeLater ∧
      Ipv6L4Check st.skb.transport_header st.flow_key.ipProto j
  | .tcp => Spans (st.skb.transport_header + 16) 2 j
  | .udp => Spans (st.skb.transport_header + 6) 2 j
  | .sctp => Spans (st.skb.transport_header + 8) 4 j
  | _ => False

/-- The packet buffer with the metadata that a set action is to write. -/
def withMetadata (attr : OvsKeyAttr) (data : List (BitVec 8)) (skb : SkbState) : SkbState :=
  { skb with
    priority := if attr = .priority then maskedBits skb.priority (le32At data 0) (le32At data 4) else skb.priority
    mark := if attr = .skbMark then maskedBits skb.mark (le32At data 0) (le32At data 4) else skb.mark }

/-- **A set action changes what it sets, and nothing else.** The fields are written under their masks. Apart
from them only checksums, the hash and the state of the checksum may change. -/
structure SetsExactly (attr : OvsKeyAttr) (data : List (BitVec 8)) (st st' : SetState) : Prop where
  fields : FieldsWritten (settableFields attr st.skb.toSkBuff data) (Maintained attr st) st.skb.u8 st'.skb.u8
  same : SameBut (withMetadata attr data st.skb) st'.skb

/-- The end of the header that a set action writes to. -/
def headerEnd (attr : OvsKeyAttr) (skb : SkBuff) : Nat :=
  match attr with
  | .ethernet => ethHlen
  | .ipv4 => skb.network_header + 20
  | .ipv6 => skb.network_header + 40
  | .tcp => skb.transport_header + 20
  | .udp => skb.transport_header + 8
  | .sctp => skb.transport_header + 12
  | .mpls => skb.mac_len + mplsHlen
  | _ => 0

/-- A packet that carries the header, with its transport header where key extraction has found it. -/
structure Carries (attr : OvsKeyAttr) (st : SetState) : Prop where
  settable : attr ∈ [OvsKeyAttr.ethernet, .ipv4, .ipv6, .tcp, .udp, .sctp, .mpls, .priority, .skbMark]
  whole : headerEnd attr st.skb.toSkBuff ≤ st.skb.len
  ipv4 : attr = .ipv4 → st.skb.transport_header =
    if IpHeaderOk st.skb.toSkBuff then st.skb.network_header + ipHdrlen st.skb.toSkBuff
    else st.skb.network_header
  ipv6 : attr = .ipv6 → (∀ j, ¬ Ipv6L4Check st.skb.transport_header st.flow_key.ipProto j) ∨
    st.skb.network_header + 40 ≤ st.skb.transport_header ∧ st.flow_key.ipFrag ≠ ovsFragTypeLater

theorem le32At_withinMask (h : WithinMask (data.take 4) (data.drop 4)) :
    le32At data 0 &&& ~~~le32At data 4 = 0 := by
  have hbyte : ∀ i < 4, byteAt data i &&& ~~~byteAt data (4 + i) = 0 := by
    intro i hi
    have := h i
    rwa [byteAt_take _ hi, byteAt_drop] at this
  unfold le32At le16At
  rw [BitVec.not_append, BitVec.not_append, BitVec.not_append, BitVec.and_append, BitVec.and_append,
    BitVec.and_append, hbyte 0 (by decide), hbyte 1 (by decide), hbyte 2 (by decide), hbyte 3 (by decide)]
  rfl

/-- A rewrite of the packet, for a header. -/
theorem setsExactly_of {attr : OvsKeyAttr} {st' : SetState} {stray : Nat → Prop}
    (hpriority : attr ≠ .priority) (hmark : attr ≠ .skbMark)
    (h : Rewritten (settableFields attr st.skb.toSkBuff data) stray st.skb st'.skb)
    (hstray : ∀ j, stray j → Maintained attr st j) : SetsExactly attr data st st' := by
  refine ⟨h.fields.mono hstray, ?_⟩
  unfold withMetadata
  rw [if_neg hpriority, if_neg hmark]
  exact h.same

/-- Every header but that of IPv4. -/
theorem executeMaskedSetAction_settable (ops : CsumOps) {a : List (BitVec 8)} {attr : OvsKeyAttr}
    (hattr : setKey a = some (attr, data))
    (hsettable : Settable attr data) (hcarries : Carries attr st)
    (hwritable : env.ensure_writable (headerEnd attr st.skb.toSkBuff) = true) (hipv4 : attr ≠ .ipv4) :
    ∃ st', executeMaskedSetAction ops env a st = (0, st') ∧ SetsExactly attr data st st' := by
  obtain ⟨hmem, hfit, -, hl4⟩ := hcarries
  unfold executeMaskedSetAction
  rw [hattr]
  simp only [List.mem_cons, List.not_mem_nil, or_false] at hmem
  obtain rfl | rfl | rfl | rfl | rfl | rfl | rfl | rfl | rfl := hmem
  · obtain ⟨st', hset, h⟩ := rewritten_setEthAddr ops (hsettable.masked 12 rfl) hfit hwritable
    exact ⟨st', hset, setsExactly_of nofun nofun h fun _ => False.elim⟩
  · exact absurd rfl hipv4
  · have hkey := hsettable.masked 40 rfl
    obtain ⟨st', hset, h⟩ := rewritten_setIpv6 ops hkey (hsettable.label rfl) hfit hwritable fun j hj =>
      (hl4 rfl).elim (fun hnone => absurd hj (hnone j)) fun hbehind => by
        obtain ⟨-, hj⟩ | ⟨-, hj⟩ | ⟨-, hj⟩ := hj
        all_goals
          unfold Spans at hj
          omega
    refine ⟨st', hset, setsExactly_of nofun nofun h fun j hj => ⟨?_, hj⟩⟩
    exact (hl4 rfl).elim (fun hnone => absurd hj (hnone j)) And.right
  · obtain ⟨st', hset, h⟩ := rewritten_setTcp ops (hsettable.masked 4 rfl) hfit hwritable
    exact ⟨st', hset, setsExactly_of nofun nofun h fun _ => id⟩
  · obtain ⟨st', hset, h⟩ := rewritten_setUdp ops (hsettable.masked 4 rfl) hfit hwritable
    exact ⟨st', hset, setsExactly_of nofun nofun h fun _ => id⟩
  · obtain ⟨st', hset, h⟩ := rewritten_setSctp ops (hsettable.masked 4 rfl) hfit hwritable
    exact ⟨st', hset, setsExactly_of nofun nofun h fun _ => id⟩
  · obtain ⟨st', hset, h⟩ := rewritten_setMpls ops (hsettable.masked 4 rfl) hfit hwritable
    exact ⟨st', hset, setsExactly_of nofun nofun h fun _ => False.elim⟩
  · have hvalue := or_eq_maskedBits st.skb.priority (le32At_withinMask (hsettable.masked 4 rfl))
    refine ⟨_, rfl, .nil fun _ _ => rfl, ?_⟩
    rw [hvalue]
    exact .refl _
  · have hvalue := or_eq_maskedBits st.skb.mark (le32At_withinMask (hsettable.masked 4 rfl))
    refine ⟨_, rfl, .nil fun _ _ => rfl, ?_⟩
    rw [hvalue]
    exact .refl _

/-- **When an accepted set action changes what it sets and nothing else.** -/
theorem executeMaskedSetAction_exact_iff (ops : CsumOps) (env : SkbEnv) {aenv : ActionsEnv}
    {flow_key : SwFlowKey} {cst : CopyState}
    {masked : Bool} {a ovs_key : List (BitVec 8)} {attr : OvsKeyAttr}
    (hcopied : CopiedSet aenv flow_key cst data masked a) (hattr : setKey a = some (attr, ovs_key))
    (hcarries : Carries attr st) (hwritable : env.ensure_writable (headerEnd attr st.skb.toSkBuff) = true) :
    ∃ st', executeMaskedSetAction ops env a st = (0, st') ∧
      (SetsExactly attr ovs_key st st' ↔
        (attr = .ipv4 → IpHeaderOk st.skb.toSkBuff ∨ StrayKept ops (ovs_key.take 12) (ovs_key.drop 12) st.skb)) := by
  obtain ⟨attr', ovs_key', hattr', hsettable⟩ := hcopied.settable
  obtain ⟨rfl, rfl⟩ := Prod.mk.inj (Option.some.inj (hattr'.symm.trans hattr))
  by_cases hipv4 : attr' = .ipv4
  · subst hipv4
    have hkey := hsettable.masked 12 rfl
    have hfit : st.skb.network_header + 20 ≤ st.skb.len := hcarries.whole
    have hset : executeMaskedSetAction ops env a st = (0, setIpv4Tail ops st.skb.network_header (ovs_key'.take 12)
        (ovs_key'.drop 12) (setIpv4Addr ops (st.skb.network_header + 12) 368 (slice (ovs_key'.take 12) 0 4)
          (slice (ovs_key'.drop 12) 0 4) st)) := by
      unfold executeMaskedSetAction
      rw [hattr]
      exact setIpv4_eq (ensureWritable_of hfit hwritable)
    obtain ⟨hsame, hiff⟩ := setIpv4_iff ops hkey hfit (hcarries.ipv4 rfl)
    exact ⟨_, hset, fun h _ => hiff.mp h.fields, fun h => ⟨hiff.mpr (h rfl), hsame⟩⟩
  · obtain ⟨st', hset, h⟩ := executeMaskedSetAction_settable ops hattr hsettable hcarries hwritable hipv4
    exact ⟨st', hset, iff_of_true h fun hip => absurd hip hipv4⟩

/-! ### Packets whose key has been extracted -/

/-- Where key extraction leaves the transport header of an IPv4 packet. -/
theorem extractIp_transport_header {skb skb' : SkBuff} {stores : KeyStores}
    (h : extractIp env skb = (0, skb', stores)) :
    skb'.transport_header =
      if IpHeaderOk skb' then skb'.network_header + ipHdrlen skb' else skb'.network_header := by
  have hcheck : (checkIphdr env skb).1 = 0 ∧ skb' = (checkIphdr env skb).2 ∨
      (checkIphdr env skb).1 = einval ∧
        skb' = { (checkIphdr env skb).2 with transport_header := (checkIphdr env skb).2.network_header } := by
    unfold extractIp at h
    rcases hiphdr : checkIphdr env skb with ⟨error, skb₁⟩
    rw [hiphdr] at h
    dsimp only at h ⊢
    split_ifs at h with herror hinval
    all_goals
      obtain ⟨herr, rfl, -⟩ : _ ∧ _ ∧ _ := by simpa only [Prod.mk.injEq] using h
    · exact .inr ⟨hinval, rfl⟩
    · exact absurd herr herror
    all_goals exact .inl ⟨not_not.mp herror, rfl⟩
  unfold checkIphdr at hcheck
  dsimp only at hcheck
  split_ifs at hcheck with hheader hlen
  · obtain ⟨hzero, -⟩ | ⟨hinval, rfl⟩ := hcheck
    · exact absurd hzero hheader
    · have hshort : skb.len < skb.network_header + 20 := by
        unfold checkHeader at hinval
        split_ifs at hinval with hshort
        · exact hshort
        · cases hinval
        · cases hinval
      have hbad : ¬ IpHeaderOk { skb with transport_header := skb.network_header } := by
        rintro ⟨hle, hfit⟩
        have hfit : skb.network_header + ipHdrlen _ ≤ skb.len := hfit
        omega
      rw [if_neg hbad]
  · obtain ⟨hzero, -⟩ | ⟨-, rfl⟩ := hcheck
    · cases hzero
    · have hbad : ¬ IpHeaderOk { skb with transport_header := skb.network_header } := fun hok => by
        obtain hlt | hlt := hlen
        · exact absurd hok.1 (Nat.not_le.mpr hlt)
        · exact absurd hok.2 (Nat.not_le.mpr hlt)
      rw [if_neg hbad]
  · obtain ⟨-, rfl⟩ | ⟨hzero, -⟩ := hcheck
    · have hok : IpHeaderOk { skb with
          transport_header := skb.network_header + (skb.u8 skb.network_header &&& 0x0F).toNat * 4 } := by
        rw [not_or, Nat.not_lt, Nat.not_lt] at hlen
        exact hlen
      rw [if_pos hok]
      rfl
    · cases hzero

/-- The kernel stops at the header of a later fragment. -/
def StopsAtFragment (env : SkbEnv) : Prop :=
  ∀ data start nexthdr, (env.ipv6_skip_exthdr data start nexthdr).2.2 &&& ~~~0x7 ≠ 0 →
    (env.ipv6_skip_exthdr data start nexthdr).2.1 = 44

theorem ipv6L4Check_none {l4_proto : BitVec 8} (htcp : l4_proto ≠ ipprotoTcp) (hudp : l4_proto ≠ ipprotoUdp)
    (hicmp : l4_proto ≠ nexthdrIcmp) (th j : Nat) : ¬ Ipv6L4Check th l4_proto j := by
  rintro (⟨h, -⟩ | ⟨h, -⟩ | ⟨h, -⟩)
  · exact htcp h
  · exact hudp h
  · exact hicmp h

/-- What is stored of the transport header lies behind the type of fragment. -/
theorem extractIpv6_tail (env : SkbEnv) (skb : SkBuff) (stores : KeyStores) (proto : BitVec 8) :
    ∃ error tp, (if proto = ipprotoTcp then (0, skb, stores ++ tcpStores env skb)
      else if proto = ipprotoUdp then (0, skb, stores ++ udpStores env skb)
      else if proto = ipprotoSctp then (0, skb, stores ++ sctpStores env skb)
      else if proto = nexthdrIcmp then
        if icmp6hdrOk env skb then
          let (error, icmp_stores) := parseIcmpv6 env skb
          (error, skb, stores ++ icmp_stores)
        else (0, skb, stores ++ clearTp)
      else (0, skb, stores) : Int × SkBuff × KeyStores) = (error, skb, stores ++ tp) ∧ ¬ Reaches tp 359 := by
  have hports : ∀ ok : Bool, ¬ Reaches (if ok then portStores skb else clearTp) 359 := by
    intro ok hreach
    have := (reaches_portStores_or_clearTp skb ok (by unfold TpFlags; omega)).mp hreach
    omega
  split_ifs
  · refine ⟨0, _, rfl, fun hreach => ?_⟩
    have := (reaches_tcpStores env skb 359).mp hreach
    omega
  · exact ⟨0, _, rfl, hports _⟩
  · exact ⟨0, _, rfl, hports _⟩
  · refine ⟨_, _, rfl, fun hreach => ?_⟩
    have := (reaches_parseIcmpv6 env skb 359).mp hreach
    omega
  · exact ⟨0, _, rfl, hports false⟩
  · exact ⟨0, [], by rw [List.append_nil], id⟩

/-- What key extraction says of the transport header of an IPv6 packet. -/
theorem extractIpv6_transport_header {skb skb' : SkBuff} {stores : KeyStores} (hstops : StopsAtFragment env)
    (hwhole : skb.network_header + 40 ≤ skb.len) (h : extractIpv6 env skb = (0, skb', stores)) (key : SwFlowKey) :
    (∀ j, ¬ Ipv6L4Check skb'.transport_header (key.store stores).ipProto j) ∨
      skb'.network_header + 40 ≤ skb'.transport_header ∧ (key.store stores).ipFrag ≠ ovsFragTypeLater := by
  have hforward := env.le_ipv6_skip_exthdr skb.data (skb.network_header + 40) (skb.u8 (skb.network_header + 6))
  have hstops := hstops skb.data (skb.network_header + 40) (skb.u8 (skb.network_header + 6))
  unfold extractIpv6 parseIpv6hdr at h
  obtain hok | hinval | hnomem := checkHeader_cases env skb (skb.network_header + 40)
  · rw [if_neg (not_not.mpr hok)] at h
    rcases hskip : env.ipv6_skip_exthdr skb.data (skb.network_header + 40)
      (skb.u8 (skb.network_header + 6)) with ⟨payload_ofs, nexthdr, frag_off⟩
    rw [hskip] at h hforward hstops
    dsimp only at h hforward hstops
    by_cases hpayload : payload_ofs < 0
    · -- no payload behind the headers
      rw [if_pos hpayload] at h
      dsimp only at h
      rw [if_pos eproto_neg, if_neg eproto_ne_einval, if_pos rfl] at h
      obtain ⟨-, rfl, rfl⟩ : _ ∧ _ ∧ _ := by simpa only [Prod.mk.injEq] using h
      have hproto : (key.store (ipv6HeaderStores skb skb.network_header (ipv6FragType frag_off))).ipProto =
          nexthdrNone := SwFlowKey.store_u8_of_stored rfl (by decide) key
      rw [hproto]
      exact .inl (ipv6L4Check_none (by decide) (by decide) (by decide) _)
    · have hlen : ¬ payload_ofs - (skb.network_header : Int) < 0 := by
        have := hforward (by omega)
        omega
      rw [if_neg hpayload] at h
      dsimp only at h
      rw [if_neg hlen] at h
      by_cases hlater : ipv6FragType frag_off = ovsFragTypeLater
      · rw [if_pos hlater] at h
        obtain ⟨-, rfl, rfl⟩ : _ ∧ _ ∧ _ := by simpa only [Prod.mk.injEq] using h
        have hproto : (key.store (ipv6HeaderStores skb skb.network_header (ipv6FragType frag_off) ++
            [⟨356, [nexthdr]⟩])).ipProto = nexthdr := SwFlowKey.store_u8_of_stored rfl (by decide) key
        rw [hproto, hstops ((ipv6FragType_eq_later frag_off).mp hlater)]
        exact .inl (ipv6L4Check_none (by decide) (by decide) (by decide) _)
      · rw [if_neg hlater] at h
        right
        obtain ⟨error, tp, htail, htp⟩ := extractIpv6_tail env { skb with transport_header := payload_ofs.toNat }
          (ipv6HeaderStores skb skb.network_header (ipv6FragType frag_off) ++ [⟨356, [nexthdr]⟩] ++
            if skb.gso_udp then [⟨359, [ovsFragTypeFirst]⟩] else []) nexthdr
        rw [htail] at h
        obtain ⟨-, rfl, rfl⟩ : _ ∧ _ ∧ _ := by simpa only [Prod.mk.injEq] using h
        refine ⟨?_, ?_⟩
        · show skb.network_header + 40 ≤ payload_ofs.toNat
          have := hforward (by omega)
          omega
        · cases hgso : skb.gso_udp with
          | true =>
              have hfirst := SwFlowKey.store_u8_of_stored ((stored_append_left htp).trans
                (rfl : stored (ipv6HeaderStores skb skb.network_header (ipv6FragType frag_off) ++
                  [⟨356, [nexthdr]⟩] ++ [⟨359, [ovsFragTypeFirst]⟩]) 359 = _)) (by decide) key
              rw [if_pos rfl, SwFlowKey.ipFrag, hfirst]
              decide
          | false =>
              have hown := SwFlowKey.store_u8_of_stored ((stored_append_left htp).trans
                (rfl : stored (ipv6HeaderStores skb skb.network_header (ipv6FragType frag_off) ++
                  [⟨356, [nexthdr]⟩] ++ []) 359 = _)) (by decide) key
              rw [if_neg (by decide), SwFlowKey.ipFrag, hown]
              exact hlater
  · unfold checkHeader at hinval
    split_ifs at hinval with hshort
    · omega
    · cases hinval
    · cases hinval
  · rw [if_pos (by rw [hnomem]; decide)] at h
    dsimp only at h
    rw [hnomem, if_pos (by decide), if_neg (by decide), if_neg (by decide)] at h
    cases h

/-- A packet whose key has been extracted carries the header that it has. -/
theorem Carries.of_extractIp {skb : SkBuff} {stores : KeyStores}
    (h : extractIp env skb = (0, st.skb.toSkBuff, stores))
    (hwhole : st.skb.network_header + 20 ≤ st.skb.len) : Carries .ipv4 st :=
  ⟨by decide, hwhole, fun _ => extractIp_transport_header h, nofun⟩

@[inherit_doc Carries.of_extractIp]
theorem Carries.of_extractIpv6 {skb : SkBuff} {stores : KeyStores} {key : SwFlowKey} (hstops : StopsAtFragment env)
    (h : extractIpv6 env skb = (0, st.skb.toSkBuff, stores)) (hkey : st.flow_key = key.store stores)
    (hwhole : st.skb.network_header + 40 ≤ st.skb.len) : Carries .ipv6 st := by
  refine ⟨by decide, hwhole, nofun, fun _ => ?_⟩
  obtain ⟨th, hskb, -⟩ := extractIpv6_order (congrArg Prod.fst h)
  rw [h] at hskb
  have hwhole' : skb.network_header + 40 ≤ skb.len := by
    have hnh := congrArg SkBuff.network_header hskb
    have hlen := congrArg SkBuff.len hskb
    dsimp only at hnh
    rw [hnh, hlen] at hwhole
    exact hwhole
  rw [hkey]
  exact extractIpv6_transport_header hstops hwhole' h key

/-! ### A header of sixteen bytes -/

/-- The arithmetic of checksums, in one's complement, for a packet that has not been summed up. -/
def onesSum : List (BitVec 8) → Nat
  | high :: low :: rest => (high ++ low).toNat + onesSum rest
  | _ => 0

@[inherit_doc onesSum]
def onesFold (sum : Nat) : BitVec 16 := if sum = 0 then 0 else BitVec.ofNat 16 ((sum - 1) % 0xFFFF + 1)

@[inherit_doc onesSum]
def onesReplace (sum : BitVec 16) (old new : List (BitVec 8)) : BitVec 16 :=
  ~~~onesFold ((~~~sum).toNat + onesSum (old.map (~~~·)) + onesSum new)

@[inherit_doc onesSum]
def onesOps : CsumOps where
  csum_partial bytes sum := (onesFold (sum.toNat + onesSum bytes)).setWidth 32
  csum_sub sum addend := sum - addend
  csum_replace := onesReplace
  inet_proto_csum_replace _ sum old new _ := onesReplace sum old new
  inet_proto_skb_csum _ csum _ _ _ := csum
  ipv4_change_dsfield sum old new := onesReplace sum [0, old] [0, new]
  sctp_compute_cksum _ _ := zeros 4
  sctp_compute_cksum_length _ _ := rfl
  ipv6_ext_hdr _ := false
  ipv6_find_hdr _ _ := 0

/-- A packet whose key has been extracted. -/
def receivedState (skb : SkBuff) : SetState :=
  match keyExtract plainEnv skb macProtoEthernet with
  | (_, skb, stores) =>
      ⟨{ skb with
          ip_summed := .checksumNone, csum := 0, csum_start := 0, hash := 0, l4_hash := false
          priority := 0, mark := 0 }, SwFlowKey.store (fun _ => 0) stores⟩

/-- A packet that claims to be of TCP, with an IPv4 header of sixteen bytes. -/
def shortHeader : SkBuff := { wholeDatagram with data := (wholeDatagram.data.set 14 0x44).set 23 6 }

/-- A new source address, 10.0.0.9, and nothing else: the key and the mask, and the action. -/
def setSourceKey : List (BitVec 8) :=
  [10, 0, 0, 9, 0, 0, 0, 0, 0, 0, 0, 0] ++ [255, 255, 255, 255, 0, 0, 0, 0, 0, 0, 0, 0]

@[inherit_doc setSourceKey]
def setSource : List (BitVec 8) := nlaBytes .ipv4 setSourceKey

/-- A validator without shortage of memory. -/
def ampleEnv : ActionsEnv where
  max_actions_bufsize := 32768
  sfa_alloc := true
  reserve_sfa_size _ _ := 0
  tun_dst := 0
  upstream_tunnel := true
  ct_info _ _ := .error einval

theorem copied_setSource (key : SwFlowKey) :
    CopiedSet ampleEnv key ⟨macProtoEthernet, ethPIp, 0⟩ setSource true setSource :=
  ⟨⟨0, []⟩, some (.setMasked setSource), ⟨0, []⟩, rfl, rfl⟩

theorem carries_shortHeader : Carries .ipv4 (receivedState shortHeader) :=
  ⟨by decide, by decide, fun _ => by decide, nofun⟩

theorem carries_wholeDatagram : Carries .ipv4 (receivedState wholeDatagram) :=
  ⟨by decide, by decide, fun _ => by decide, nofun⟩

/-- In a whole datagram only the source address changes. -/
theorem executeMaskedSetAction_exact_datagram :
    ∃ st', executeMaskedSetAction onesOps plainEnv setSource (receivedState wholeDatagram) = (0, st') ∧
      SetsExactly .ipv4 setSourceKey (receivedState wholeDatagram) st' := by
  obtain ⟨st', hset, hiff⟩ := executeMaskedSetAction_exact_iff onesOps plainEnv
    (copied_setSource (receivedState wholeDatagram).flow_key) rfl carries_wholeDatagram rfl
  exact ⟨st', hset, hiff.mpr fun _ => .inl (by decide)⟩

/-- In the packet with the short header the destination address changes along with the source. -/
theorem executeMaskedSetAction_not_exact :
    CopiedSet ampleEnv (receivedState shortHeader).flow_key ⟨macProtoEthernet, ethPIp, 0⟩ setSource true setSource ∧
      setKey setSource = some (.ipv4, setSourceKey) ∧ Carries .ipv4 (receivedState shortHeader) ∧
      ¬ ∃ st', executeMaskedSetAction onesOps plainEnv setSource (receivedState shortHeader) = (0, st') ∧
        SetsExactly .ipv4 setSourceKey (receivedState shortHeader) st' := by
  refine ⟨copied_setSource _, rfl, carries_shortHeader, ?_⟩
  rintro ⟨st', hset, hexact⟩
  have hdst := hexact.fields.written _ (List.mem_cons_of_mem _ List.mem_cons_self) 31 (by decide)
  have hchanged :
      (executeMaskedSetAction onesOps plainEnv setSource (receivedState shortHeader)).2.skb.u8 31 = 248 := by
    decide
  rw [hset, hdst] at hchanged
  exact absurd hchanged (by decide)

end OvsDatapath.Actions
