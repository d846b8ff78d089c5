import OvsDatapath.Datapath.CtParse
import OvsDatapath.Datapath.FlowCmd
import OvsDatapath.Flow.NdOptions
import OvsDatapath.Flow.Streams
import OvsDatapath.Lib.Hoare
import OvsDatapath.Lib.MaskedWrite

/-!
# Committing a connection

`ovs_ct_commit` (`conntrack.c`) finds the connection of a packet, writes the mark and the labels of the CT
action under their masks, and confirms the connection. The mark is written by `ovs_ct_set_mark`, the labels
of a new connection by `ovs_ct_init_labels` and those of a confirmed one by `ovs_ct_set_labels`. The three
differ: the mark is not masked, and it gets into the flow key only if it has changed. `ovsCtCommit_iff` says
when that makes no difference.

The connection table, NAT and the helpers are the kernel's. A packet comes with its connection, if it has
one, and the state of the connection in view of the packet.
-/

namespace OvsDatapath.Datapath

open OvsDatapath.Lib OvsDatapath.Flow

/-- `ENOSPC`. -/
def enospc : Int := -28

/-- `ENOTSUPP`. -/
def enotsupp : Int := -524

/-- `enum ip_conntrack_info`. -/
inductive IpConntrackInfo where
  | established
  | related
  | new
  | establishedReply
  | relatedReply
  deriving DecidableEq, Repr

/-- `CTINFO2DIR`: whether the packet is a reply. -/
def IpConntrackInfo.isReply : IpConntrackInfo → Bool
  | .established | .related | .new => false
  | .establishedReply | .relatedReply => true

/-- `ovs_ct_get_state`. -/
def ovsCtGetState (ctinfo : IpConntrackInfo) : BitVec 8 :=
  let reply_dir : BitVec 8 := if ctinfo.isReply then 0x08 else 0
  match ctinfo with
  | .established | .establishedReply => 0x20 ||| reply_dir ||| 0x02
  | .related | .relatedReply => 0x20 ||| reply_dir ||| 0x04
  | .new => 0x20 ||| reply_dir ||| 0x01

/-- What is asked of the master of a connection. -/
structure MasterConn where
  labels : Option (Nat → BitVec 8)
  orig : NfTuple

/-- `struct nf_conn`. -/
structure Connection where
  confirmed : Bool
  /-- Whether it belongs to the network namespace of the datapath. -/
  net_eq : Bool
  zone : BitVec 16
  mark : BitVec 32
  /-- `nf_ct_labels_find`. -/
  labels : Option (Nat → BitVec 8)
  master : Option MasterConn
  /-- `nfct_help`, and the helper in it. -/
  help : Option (Option (List (BitVec 8)))
  src_nat : Bool
  dst_nat : Bool
  seen_reply : Bool
  expected : Bool
  /-- The event mask in `nf_ct_ecache_find`. -/
  ecache : Option (BitVec 32)
  orig : NfTuple

/-- The connection as the flow key shows it. -/
def Connection.nfConn (ct : Connection) (ctinfo : IpConntrackInfo) : NfConn where
  state := ovsCtGetState ctinfo
  confirmed := ct.confirmed
  has_master := ct.master.isSome
  src_nat := ct.src_nat
  dst_nat := ct.dst_nat
  zone := ct.zone
  mark := ct.mark
  labels := ct.labels
  orig := (ct.master.map MasterConn.orig).getD ct.orig

/-- `nf_ct_get` of a packet. -/
abbrev Nfct := Option (Connection × IpConntrackInfo)

/-- What a CT action works on. -/
structure CtState where
  skb : SkBuff
  nfct : Nfct
  key : SwFlowKey

/-- The rest of the kernel. -/
structure CtEnv where
  cfg : CtConfig
  /-- `nf_ct_get_tuple`, with the search for the transport header before it. -/
  nf_ct_get_tuple : NfProto → SkBuff → Option NfTuple
  nf_ct_invert_tuple : NfTuple → Option NfTuple
  /-- `nf_conntrack_find_get`, and whether the tuple is that of the reply direction. -/
  nf_conntrack_find_get : BitVec 16 → NfTuple → Option (Connection × Bool)
  /-- `nf_conntrack_in`, with the template of the action: the packet and its connection if it is accepted. -/
  nf_conntrack_in : OvsConntrackInfo → SkBuff → Option (SkBuff × Nfct)
  nf_ct_nat_ext_add : Connection → Bool
  /-- `ovs_ct_nat_execute`, of the source if the flag is set: whether the packet is accepted, the NAT that
  its connection has, and the packet. -/
  ovs_ct_nat_execute : OvsConntrackInfo → Connection → IpConntrackInfo → Bool → SkBuff →
    Bool × (Bool × Bool) × SkBuff
  /-- `__nf_ct_try_assign_helper`. -/
  nf_ct_try_assign_helper : Connection → Int
  /-- `ovs_ct_helper`: whether the packet is accepted. -/
  ovs_ct_helper : Connection → IpConntrackInfo → SkBuff → Bool × SkBuff
  /-- `nf_ct_labels_ext_add`: whether there is room for the labels. -/
  nf_ct_labels_ext_add : Connection → Bool
  /-- `nf_connlabels_replace` of labels, by a value under a mask: an error, and the labels. -/
  nf_connlabels_replace : (Nat → BitVec 8) → (Nat → BitVec 8) → (Nat → BitVec 8) → Int × (Nat → BitVec 8)
  nf_conntrack_confirm : Connection → Bool

/-- A computation on a packet and its connection. -/
abbrev CtM := Effect CtState Int

/-! ## The flow key -/

/-- `ovs_ct_get_mark`. -/
def ovsCtGetMark (env : CtEnv) (nfct : Nfct) : BitVec 32 :=
  match nfct with
  | some (ct, _) => if env.cfg.mark then ct.mark else 0
  | none => 0

/-- `__ovs_ct_update_key`. -/
def updateKeyStores (env : CtEnv) (key : SwFlowKey) (state : BitVec 8) (zone : BitVec 16) (nfct : Nfct) :
    KeyStores :=
  match nfct with
  | some (ct, ctinfo) =>
      [⟨354, [state]⟩, ⟨360, le16 zone⟩, ⟨440, le32 (ovsCtGetMark env nfct)⟩,
        ⟨444, ovsCtGetLabels (ct.nfConn ctinfo)⟩] ++ ctOrigStores key.ethType key.isNd (ct.nfConn ctinfo).orig
  | none => [⟨354, [state]⟩, ⟨360, le16 zone⟩, ⟨440, le32 0⟩, ⟨444, zeros 16⟩, ⟨355, [0]⟩]

/-- `OVS_CS_F_NAT_MASK`. -/
def ovsCsFNatMask : BitVec 8 := 0xC0

/-- The state in `ovs_ct_update_key`. -/
def updateKeyState (info : OvsConntrackInfo) (key : SwFlowKey) (post_ct keep_nat_flags : Bool) :
    Nfct → BitVec 8 × BitVec 16
  | some (ct, ctinfo) =>
      let state := ovsCtGetState ctinfo ||| (if ct.confirmed then 0 else 0x01) |||
        (if ct.master.isSome then 0x04 else 0)
      if keep_nat_flags then (state ||| (key.u8 354 &&& ovsCsFNatMask), ct.zone)
      else (state ||| (if ct.src_nat then 0x40 else 0) ||| (if ct.dst_nat then 0x80 else 0), ct.zone)
  | none => if post_ct then (0x30, info.zone) else (0, 0)

/-- `ovs_ct_update_key`. -/
def ovsCtUpdateKey (env : CtEnv) (info : OvsConntrackInfo) (post_ct keep_nat_flags : Bool) (s : CtState) :
    CtState :=
  let (state, zone) := updateKeyState info s.key post_ct keep_nat_flags s.nfct
  { s with key := s.key.store (updateKeyStores env s.key state zone s.nfct) }

/-- For a packet that has just been received this is `ovs_ct_fill_key`. -/
theorem ovsCtUpdateKey_received {env : CtEnv} (hmark : env.cfg.mark = true) (info : OvsConntrackInfo) (s : CtState) :
    (ovsCtUpdateKey env info false false s).key =
      s.key.store (ovsCtFillKey s.key (s.nfct.map fun c => c.1.nfConn c.2)) := by
  unfold ovsCtUpdateKey ovsCtFillKey
  cases s.nfct with
  | none =>
      have hzone : le16 0 = zeros 2 := by decide
      have hmark : le32 0 = zeros 4 := by decide
      show s.key.store [_, ⟨360, le16 0⟩, ⟨440, le32 0⟩, _, _] = _
      rw [hzone, hmark]
      rfl
  | some c =>
      show s.key.store ([_, _, ⟨440, le32 (if env.cfg.mark then c.1.mark else 0)⟩, _] ++ _) = _
      rw [if_pos hmark]
      rfl

/-! ## Finding the connection -/

/-- Write to the connection of the packet. -/
def CtState.writeConn (f : Connection → Connection) (s : CtState) : CtState :=
  { s with nfct := s.nfct.map fun c => (f c.1, c.2) }

/-- Store into the flow key. -/
def CtState.writeKey (stores : KeyStores) (s : CtState) : CtState := { s with key := s.key.store stores }

/-- `ovs_ct_get_info`. -/
def ovsCtGetInfo (ct : Connection) (reply : Bool) : IpConntrackInfo :=
  if reply then .establishedReply
  else if ct.seen_reply then .established
  else if ct.expected then .related
  else .new

/-- `ovs_ct_find_existing`. -/
def ovsCtFindExisting (env : CtEnv) (zone : BitVec 16) (l3num : NfProto) (skb : SkBuff) (natted : Bool) : Nfct := do
  let tuple ← env.nf_ct_get_tuple l3num skb
  let tuple ← if natted then env.nf_ct_invert_tuple tuple else some tuple
  let (ct, reply) ← env.nf_conntrack_find_get zone tuple
  -- the inverted tuple is that of the other direction
  some (ct, ovsCtGetInfo ct (if natted then !reply else reply))

/-- `ovs_ct_executed`, and the connection it has found. -/
def ovsCtExecuted (env : CtEnv) (info : OvsConntrackInfo) (s : CtState) : Bool × Nfct :=
  let ct_state := s.key.u8 354
  let ct_executed := ct_state &&& 0x20 != 0 && ct_state &&& 0x10 == 0 && s.key.u16 360 == info.zone
  (ct_executed,
    if ct_executed ∨ (ct_state = 0 ∧ info.force) then
      ovsCtFindExisting env info.zone info.family s.skb (ct_state &&& ovsCsFNatMask != 0)
    else none)

/-- `skb_nfct_cached`, with the packet, which may get or lose a connection. -/
def skbNfctCached (env : CtEnv) (info : OvsConntrackInfo) (s : CtState) : Bool × CtState :=
  let (ct_executed, nfct) := if s.nfct.isSome then (true, s.nfct) else ovsCtExecuted env info s
  match nfct with
  | none => (false, { s with nfct := none })
  | some (ct, ctinfo) =>
      if !ct.net_eq ∨ ct.zone ≠ info.zone then (false, { s with nfct })
      else if info.helper.isSome ∧ ct.help.any (· ≠ info.helper) then (false, { s with nfct })
      else if info.force ∧ ctinfo.isReply then (false, { s with nfct := none })
      else (ct_executed, { s with nfct })

/-- The part of `ovs_ct_nat` that finds out what is translated, if anything: the source or not. -/
def natManip (info : OvsConntrackInfo) (ct : Connection) (ctinfo : IpConntrackInfo) : Option Bool :=
  if info.nat &&& ovsCtNat ≠ 0 ∧ ctinfo ≠ .new ∧ (ct.src_nat ∨ ct.dst_nat) ∧ (ctinfo ≠ .related ∨ info.commit) then
    if ctinfo.isReply then some !ct.src_nat else some ct.src_nat
  else if info.nat &&& ovsCtSrcNat ≠ 0 then some true
  else if info.nat &&& ovsCtDstNat ≠ 0 then some false
  else none

/-- The stores of `ovs_nat_update_key`. -/
def natKeyStores (key : SwFlowKey) (skb : SkBuff) (src : Bool) : KeyStores :=
  let nh := skb.network_header
  let th := skb.transport_header
  let ports : KeyStores :=
    if key.ipProto = ipprotoUdp ∨ key.ipProto = ipprotoTcp ∨ key.ipProto = ipprotoSctp then
      if src then [⟨362, skb.bytes th 2⟩] else [⟨364, skb.bytes (th + 2) 2⟩]
    else []
  ⟨354, [key.u8 354 ||| if src then 0x40 else 0x80]⟩ ::
    if key.ethType = ethPIp then
      (if src then ⟨368, skb.bytes (nh + 12) 4⟩ else ⟨372, skb.bytes (nh + 16) 4⟩) :: ports
    else if key.ethType = ethPIpv6 then
      (if src then ⟨368, skb.bytes (nh + 8) 16⟩ else ⟨384, skb.bytes (nh + 24) 16⟩) :: ports
    else []

/-- `ovs_ct_nat`, which accepts what need not be translated. -/
def ovsCtNatPacket (env : CtEnv) (info : OvsConntrackInfo) (ct : Connection) (ctinfo : IpConntrackInfo) : CtM Unit :=
  if !env.cfg.nat_needed ∨ (!ct.confirmed ∧ !env.nf_ct_nat_ext_add ct) then pure ()
  else
    match natManip info ct ctinfo with
    | none => pure ()
    | some src => do
        let s ← get
        let (accept, (src_nat, dst_nat), skb) := env.ovs_ct_nat_execute info ct ctinfo src s.skb
        modify fun s => { s with skb }.writeConn ({ · with src_nat, dst_nat })
        if !accept then throw einval
        else modify fun s => s.writeKey (natKeyStores s.key s.skb src)

/-- The part of `__ovs_ct_lookup` about NAT. -/
def lookupNat (env : CtEnv) (info : OvsConntrackInfo) (ct : Connection) (ctinfo : IpConntrackInfo) : CtM Unit := do
  let s ← get
  if info.nat ≠ 0 ∧ s.key.u8 354 &&& ovsCsFNatMask = 0 ∧ (ct.confirmed ∨ info.commit) then
    ovsCtNatPacket env info ct ctinfo
  else pure ()

/-- The part of `__ovs_ct_lookup` that attaches a helper to a new connection. -/
def lookupAssign (env : CtEnv) (info : OvsConntrackInfo) (ct : Connection) : CtM Unit :=
  if !ct.confirmed ∧ info.commit ∧ info.helper.isSome ∧ ct.help.isNone then
    if env.nf_ct_try_assign_helper ct ≠ 0 then throw (env.nf_ct_try_assign_helper ct)
    else modify (·.writeConn ({ · with help := some info.helper }))
  else pure ()

/-- The part of `__ovs_ct_lookup` that calls the helper. -/
def lookupHelp (env : CtEnv) (info : OvsConntrackInfo) (cached : Bool) (ct : Connection) (ctinfo : IpConntrackInfo) :
    CtM Unit :=
  if (if ct.confirmed then !cached else info.commit) then do
    let s ← get
    let (accept, skb) := env.ovs_ct_helper ct ctinfo s.skb
    modify ({ · with skb })
    if !accept then throw einval else pure ()
  else pure ()

/-- The part of `__ovs_ct_lookup` behind the lookup. -/
def lookupFinish (env : CtEnv) (info : OvsConntrackInfo) (cached : Bool) : CtM Unit := do
  let s ← get
  match s.nfct with
  | none => pure ()
  | some (ct, ctinfo) => do
      lookupNat env info ct ctinfo
      lookupAssign env info ct
      lookupHelp env info cached ct ctinfo

/-- The part of `__ovs_ct_lookup` that goes through conntrack. -/
def lookupIn (env : CtEnv) (info : OvsConntrackInfo) (cached : Bool) : CtM Unit := do
  let s ← get
  if cached then pure ()
  else
    match env.nf_conntrack_in info s.skb with
    | none => throw enoent
    | some (skb, nfct) =>
        -- the NAT flags are cleared before they are kept
        modify fun s => ovsCtUpdateKey env info true true ({ s with skb, nfct }.writeKey [⟨354, [0]⟩])

/-- `__ovs_ct_lookup`. -/
def ovsCtLookup (env : CtEnv) (info : OvsConntrackInfo) : CtM Unit := do
  let s ← get
  let (cached, s') := skbNfctCached env info s
  set s'
  lookupIn env info cached
  lookupFinish env info cached

/-! ## Writing the mark and the labels -/

/-- `ovs_ct_set_mark`. -/
def ovsCtSetMark (env : CtEnv) (ct : Connection) (ct_mark mask : BitVec 32) : CtM Unit :=
  if !env.cfg.mark then throw enotsupp
  else
    let new_mark := ct_mark ||| (ct.mark &&& ~~~mask)
    if ct.mark ≠ new_mark then
      modify fun s => (s.writeConn ({ · with mark := new_mark })).writeKey [⟨440, le32 new_mark⟩]
    else pure ()

/-- `ovs_ct_get_conn_labels`: labels that have just been added are zero. -/
def ovsCtGetConnLabels (env : CtEnv) (ct : Connection) : CtM (Nat → BitVec 8) :=
  match ct.labels with
  | some bits => pure bits
  | none =>
      if env.nf_ct_labels_ext_add ct then do
        modify (·.writeConn ({ · with labels := some fun _ => 0 }))
        pure fun _ => 0
      else throw enospc

/-- The labels of the connection go into the key. -/
def CtState.writeLabels (bits : Nat → BitVec 8) (s : CtState) : CtState :=
  (s.writeConn ({ · with labels := some bits })).writeKey [⟨444, firstBytes 16 bits⟩]

/-- `ovs_ct_init_labels`. -/
def ovsCtInitLabels (env : CtEnv) (ct : Connection) (labels mask : Nat → BitVec 8) : CtM Unit :=
  let master_cl := ct.master.bind MasterConn.labels
  if master_cl.isNone ∧ !labelsNonzero mask then pure ()
  else do
    let own ← ovsCtGetConnLabels env ct
    let bits := master_cl.getD own
    let bits := if labelsNonzero mask then fun i => (bits i &&& ~~~mask i) ||| (labels i &&& mask i) else bits
    modify (·.writeLabels bits)

/-- `ovs_ct_set_labels`. -/
def ovsCtSetLabels (env : CtEnv) (ct : Connection) (labels mask : Nat → BitVec 8) : CtM Unit := do
  let own ← ovsCtGetConnLabels env ct
  let (err, bits) := env.nf_connlabels_replace own labels mask
  if err ≠ 0 then throw err
  else modify (·.writeLabels bits)

/-- The part of `ovs_ct_commit` about events. -/
def commitEventmask (info : OvsConntrackInfo) : CtM Unit :=
  if info.have_eventmask then
    modify (·.writeConn fun ct => { ct with ecache := ct.ecache.map fun _ => info.eventmask })
  else pure ()

/-- The part of `ovs_ct_commit` about the mark. -/
def commitMark (env : CtEnv) (info : OvsConntrackInfo) (ct : Connection) : CtM Unit :=
  if info.mark_mask ≠ 0 then ovsCtSetMark env ct info.mark_value info.mark_mask else pure ()

/-- The part of `ovs_ct_commit` about the labels. -/
def commitLabels (env : CtEnv) (info : OvsConntrackInfo) (ct : Connection) : CtM Unit :=
  if !ct.confirmed then ovsCtInitLabels env ct info.labels_value info.labels_mask
  else if labelsNonzero info.labels_mask then ovsCtSetLabels env ct info.labels_value info.labels_mask
  else pure ()

/-- The part of `ovs_ct_commit` that confirms the connection. -/
def commitConfirm (env : CtEnv) (ct : Connection) : CtM Unit :=
  if !env.nf_conntrack_confirm ct then throw einval
  else modify (·.writeConn ({ · with confirmed := true }))

/-- `ovs_ct_commit` for the connection it has found. -/
def commitFound (env : CtEnv) (info : OvsConntrackInfo) (ct : Connection) : CtM Unit := do
  commitEventmask info
  commitMark env info ct
  commitLabels env info ct
  commitConfirm env ct

/-- `ovs_ct_commit`. -/
def ovsCtCommit (env : CtEnv) (info : OvsConntrackInfo) : CtM Unit := do
  ovsCtLookup env info
  let s ← get
  match s.nfct with
  | none => pure ()
  | some (ct, _) => commitFound env info ct

/-! ## What a commit promises -/

/-- `key->ct.mark`. -/
def CtState.keyMark (s : CtState) : List (BitVec 8) := s.key.bytes 440 4

/-- `key->ct.labels`. -/
def CtState.keyLabels (s : CtState) : List (BitVec 8) := s.key.bytes 444 16

/-- The labels of a connection, zeros if it has none. -/
def Connection.labelBytes (ct : Connection) : List (BitVec 8) := firstBytes 16 (ct.labels.getD fun _ => 0)

/-- The labels that those of the action are written over: a new connection starts with the labels of its
master, if that has any. -/
def Connection.oldLabels (ct : Connection) : Nat → BitVec 8 :=
  let own := ct.labels.getD fun _ => 0
  if ct.confirmed then own else (ct.master.bind MasterConn.labels).getD own

/-- The mark has been written under its mask, and the key has it. -/
def MarkWritten (info : OvsConntrackInfo) (old : BitVec 32) (s : CtState) : Prop :=
  info.mark_mask ≠ 0 → ∃ ct ctinfo, s.nfct = some (ct, ctinfo) ∧
    ct.mark = maskedBits old info.mark_value info.mark_mask ∧ s.keyMark = le32 ct.mark

/-- The labels have been written under their mask, and the key has them. -/
def LabelsWritten (info : OvsConntrackInfo) (old : Nat → BitVec 8) (s : CtState) : Prop :=
  labelsNonzero info.labels_mask → ∃ ct ctinfo, s.nfct = some (ct, ctinfo) ∧
    ct.labelBytes = firstBytes 16 (fun i => maskedBits (old i) (info.labels_value i) (info.labels_mask i)) ∧
      s.keyLabels = ct.labelBytes

/-- What `nf_connlabels_replace` is there for: the bits of the mask are replaced. -/
def ReplacesLabels (replace : (Nat → BitVec 8) → (Nat → BitVec 8) → (Nat → BitVec 8) → Int × (Nat → BitVec 8)) :
    Prop :=
  ∀ own value mask, (replace own value mask).1 = 0 →
    ∀ i < 16, (replace own value mask).2 i = maskedBits (own i) (value i) (mask i)

/-- `rpl_nf_connlabels_replace` (`nf_conntrack_labels.h`), for kernels that report changes of labels even if
there are none. -/
def rplNfConnlabelsReplace (own value mask : Nat → BitVec 8) : Int × (Nat → BitVec 8) :=
  (0, fun i => (own i &&& ~~~mask i) ^^^ value i)

/-- It replaces the bits of the mask, and flips what the value has outside of it. -/
theorem rplNfConnlabelsReplace_iff (own value mask : Nat → BitVec 8) (i : Nat) :
    (rplNfConnlabelsReplace own value mask).2 i = maskedBits (own i) (value i) (mask i) ↔
      value i &&& ~~~mask i = 0 :=
  xor_eq_maskedBits_iff

/-! ## What the lookup leaves alone -/

section Lookup

variable {env : CtEnv} {info : OvsConntrackInfo} {s s' : CtState} {ct : Connection} {ctinfo : IpConntrackInfo}

theorem keyMark_writeKey {stores : KeyStores} (h : ∀ j, 440 ≤ j → j < 444 → ¬ Reaches stores j) (s : CtState) :
    (s.writeKey stores).keyMark = s.keyMark := by
  apply SwFlowKey.bytes_eq_iff.mpr
  intro j hle hlt
  exact SwFlowKey.store_u8_of_not_reaches (h j hle hlt) s.key

/-- The mark of the connection of a packet. -/
def CtState.connMark (s : CtState) : Option (BitVec 32) := s.nfct.map fun c => c.1.mark

/-- The same mark, in the connection and in the key. -/
def SameMark (s s' : CtState) : Prop := s'.connMark = s.connMark ∧ s'.keyMark = s.keyMark

instance : IsPreorder CtState SameMark where
  refl _ := ⟨rfl, rfl⟩
  trans _ _ _ h h' := ⟨h'.1.trans h.1, h'.2.trans h.2⟩

theorem sameMark_writeConn {f : Connection → Connection} (hs : SameMark s s') (h : ∀ ct, (f ct).mark = ct.mark) :
    SameMark s (s'.writeConn f) := by
  refine ⟨Eq.trans ?_ hs.1, hs.2⟩
  unfold CtState.connMark CtState.writeConn
  cases s'.nfct with
  | none => rfl
  | some c => exact congrArg some (h c.1)

theorem natKeyStores_outside (key : SwFlowKey) (skb : SkBuff) (src : Bool) (j : Nat) (hle : 440 ≤ j) :
    ¬ Reaches (natKeyStores key skb src) j := by
  unfold natKeyStores
  dsimp only
  split_ifs
  all_goals
    simp only [reaches_cons, reaches_nil, SkBuff.bytes_length, List.length_cons, List.length_nil, or_false]
    omega

theorem ovsCtNatPacket_moves (ct : Connection) (ctinfo : IpConntrackInfo) :
    Moves SameMark (ovsCtNatPacket env info ct ctinfo) := by
  unfold ovsCtNatPacket
  split_ifs with hskip
  · exact Moves.pure _
  cases natManip info ct ctinfo with
  | none => exact Moves.pure _
  | some src =>
      refine Moves.bind Moves.get fun s => ?_
      dsimp only
      apply Moves.bind
      · apply Moves.modify
        intro s
        apply sameMark_writeConn ⟨rfl, rfl⟩
        exact fun _ => rfl
      · intro _
        split_ifs
        · exact Moves.throw _
        · apply Moves.modify
          intro s
          exact ⟨rfl, keyMark_writeKey (fun j hle _ => natKeyStores_outside _ _ _ j hle) s⟩

theorem lookupNat_moves (ct : Connection) (ctinfo : IpConntrackInfo) :
    Moves SameMark (lookupNat env info ct ctinfo) := by
  refine Moves.bind Moves.get fun s => ?_
  split_ifs
  · exact ovsCtNatPacket_moves ct ctinfo
  · exact Moves.pure _

theorem lookupAssign_moves (ct : Connection) : Moves SameMark (lookupAssign env info ct) := by
  unfold lookupAssign
  split_ifs
  · exact Moves.throw _
  · apply Moves.modify
    intro s
    apply sameMark_writeConn ⟨rfl, rfl⟩
    exact fun _ => rfl
  · exact Moves.pure _

theorem lookupHelp_moves (cached : Bool) (ct : Connection) (ctinfo : IpConntrackInfo) :
    Moves SameMark (lookupHelp env info cached ct ctinfo) := by
  unfold lookupHelp
  by_cases hdue : (if ct.confirmed then !cached else info.commit) = true
  · rw [if_pos hdue]
    refine Moves.bind Moves.get fun s => ?_
    refine Moves.bind (Moves.modify fun s => ⟨rfl, rfl⟩) fun _ => ?_
    split_ifs
    · exact Moves.throw _
    · exact Moves.pure _
  · rw [if_neg hdue]
    exact Moves.pure _

theorem lookupFinish_moves (cached : Bool) : Moves SameMark (lookupFinish env info cached) := by
  refine Moves.bind Moves.get fun s => ?_
  cases s.nfct with
  | none => exact Moves.pure _
  | some c =>
      exact Moves.bind (lookupNat_moves c.1 c.2) fun _ =>
        Moves.bind (lookupAssign_moves c.1) fun _ => lookupHelp_moves cached c.1 c.2

theorem skbNfctCached_key (env : CtEnv) (info : OvsConntrackInfo) (s : CtState) :
    (skbNfctCached env info s).2.key = s.key := by
  unfold skbNfctCached
  dsimp only
  split
  · rfl
  · split_ifs <;> rfl

theorem reaches_ctOrigStores {eth_type : BitVec 16} {nd : Bool} {orig : NfTuple} {j : Nat}
    (h : Reaches (ctOrigStores eth_type nd orig) j) : j < 440 := by
  unfold ctOrigStores at h
  split_ifs at h
  all_goals
    simp only [reaches_append, reaches_cons, reaches_nil, reaches_ctOrigTpStores, firstBytes_length, List.length_cons,
      List.length_nil, or_false] at h
    omega

theorem keyMark_ovsCtUpdateKey {post_ct keep_nat_flags : Bool} (hmark : env.cfg.mark = true) {mark : BitVec 32}
    (hconn : s.connMark = some mark) : (ovsCtUpdateKey env info post_ct keep_nat_flags s).keyMark = le32 mark := by
  obtain ⟨⟨ct, ctinfo⟩, hnfct, rfl⟩ := Option.map_eq_some_iff.mp hconn
  unfold ovsCtUpdateKey CtState.keyMark
  rw [hnfct]
  generalize updateKeyState info s.key post_ct keep_nat_flags (some (ct, ctinfo)) = st
  show (s.key.store ([⟨354, [st.1]⟩, ⟨360, le16 st.2⟩] ++ ([⟨440, le32 (ovsCtGetMark env (some (ct, ctinfo)))⟩] ++
    (⟨444, ovsCtGetLabels (ct.nfConn ctinfo)⟩ ::
      ctOrigStores s.key.ethType s.key.isNd (ct.nfConn ctinfo).orig)))).bytes
      440 4 = _
  rw [SwFlowKey.bytes_store _ _ _ (le32_length _) (by decide)]
  · rw [ovsCtGetMark, if_pos hmark]
  · intro j hle hlt
    rw [reaches_cons]
    rintro (hlabels | horig)
    · exact absurd (show 444 ≤ j from hlabels.1) (by omega)
    · exact absurd (reaches_ctOrigStores horig) (by omega)

/-- After the lookup the key has the mark of the connection, unless the lookup has been cached. -/
theorem ovsCtLookup_keyMark (hmark : env.cfg.mark = true) {u : Unit} (h : (ovsCtLookup env info).exec s = (.ok u, s'))
    (hnfct : s'.nfct = some (ct, ctinfo)) :
    s'.keyMark = if (skbNfctCached env info s).1 then s.keyMark else le32 ct.mark := by
  unfold ovsCtLookup at h
  rw [exec_bind, exec_get] at h
  dsimp only at h
  rw [exec_bind, exec_set] at h
  dsimp only at h
  obtain ⟨u', mid, hin, hfinish⟩ := exec_bind_ok.mp h
  have hsame : SameMark mid s' := (lookupFinish_moves _).of_exec hfinish
  have hconn : mid.connMark = some ct.mark := by
    rw [← hsame.1, CtState.connMark, hnfct]
    rfl
  rw [hsame.2]
  unfold lookupIn at hin
  rw [exec_bind, exec_get] at hin
  dsimp only at hin
  split_ifs at hin with hcached
  · obtain ⟨-, rfl⟩ := Prod.mk.inj hin
    rw [if_pos hcached]
    show (skbNfctCached env info s).2.key.bytes 440 4 = _
    rw [skbNfctCached_key]
    rfl
  · rw [if_neg hcached]
    split at hin
    · cases (Prod.mk.inj hin).1
    · obtain ⟨-, rfl⟩ := Prod.mk.inj hin
      exact keyMark_ovsCtUpdateKey hmark hconn

end Lookup

/-! ## The mark -/

section Commit

variable {env : CtEnv} {info : OvsConntrackInfo} {s s' : CtState} {ct : Connection} {u : Unit}

theorem commitEventmask_moves : Moves SameMark (commitEventmask info) := by
  unfold commitEventmask
  split_ifs
  · apply Moves.modify
    intro s
    apply sameMark_writeConn ⟨rfl, rfl⟩
    exact fun _ => rfl
  · exact Moves.pure _

theorem keyMark_writeLabels (bits : Nat → BitVec 8) (s : CtState) : (s.writeLabels bits).keyMark = s.keyMark := by
  apply keyMark_writeKey
  intro j hle hlt
  rw [reaches_cons, firstBytes_length]
  rintro (hin | hnil)
  · exact absurd (show 444 ≤ j from hin.1) (by omega)
  · exact hnil

theorem writeLabels_sameMark (bits : Nat → BitVec 8) (s : CtState) : SameMark s (s.writeLabels bits) := by
  have hconn : SameMark s (s.writeConn ({ · with labels := some bits })) := by
    apply sameMark_writeConn ⟨rfl, rfl⟩
    exact fun _ => rfl
  exact ⟨hconn.1, keyMark_writeLabels bits s⟩

theorem ovsCtGetConnLabels_moves (ct : Connection) : Moves SameMark (ovsCtGetConnLabels env ct) := by
  unfold ovsCtGetConnLabels
  split
  · exact Moves.pure _
  split_ifs
  · refine Moves.bind (Moves.modify fun s => ?_) fun _ => Moves.pure _
    apply sameMark_writeConn ⟨rfl, rfl⟩
    exact fun _ => rfl
  · exact Moves.throw _

theorem commitLabels_moves (ct : Connection) : Moves SameMark (commitLabels env info ct) := by
  unfold commitLabels
  split_ifs
  · unfold ovsCtInitLabels
    dsimp only
    by_cases hnothing : (ct.master.bind MasterConn.labels).isNone ∧ !labelsNonzero info.labels_mask
    · rw [if_pos hnothing]
      exact Moves.pure _
    · rw [if_neg hnothing]
      exact Moves.bind (ovsCtGetConnLabels_moves ct) fun _ => Moves.modify fun s => writeLabels_sameMark _ s
  · refine Moves.bind (ovsCtGetConnLabels_moves ct) fun own => ?_
    dsimp only
    split_ifs
    · exact Moves.throw _
    · exact Moves.modify fun s => writeLabels_sameMark _ s
  · exact Moves.pure _

theorem commitConfirm_moves (ct : Connection) : Moves SameMark (commitConfirm env ct) := by
  unfold commitConfirm
  split_ifs
  · exact Moves.throw _
  · apply Moves.modify
    intro s
    apply sameMark_writeConn ⟨rfl, rfl⟩
    exact fun _ => rfl

/-- The mark that `ovs_ct_set_mark` makes. -/
def newMark (info : OvsConntrackInfo) (old : BitVec 32) : BitVec 32 :=
  info.mark_value ||| (old &&& ~~~info.mark_mask)

/-- The mark is written if there is a mask, and the key if the mark has changed. -/
theorem commitMark_mark (h : (commitMark env info ct).exec s = (.ok u, s')) (hmask : info.mark_mask ≠ 0)
    (hconn : s.connMark = some ct.mark) :
    env.cfg.mark = true ∧ s'.connMark = some (newMark info ct.mark) ∧
      s'.keyMark = if ct.mark = newMark info ct.mark then s.keyMark else le32 (newMark info ct.mark) := by
  obtain ⟨⟨ct', ctinfo⟩, hnfct, hmark'⟩ := Option.map_eq_some_iff.mp hconn
  rw [commitMark, if_pos hmask, ovsCtSetMark] at h
  split_ifs at h with hcfg
  · cases (Prod.mk.inj h).1
  have hcfg' : env.cfg.mark = true := by simpa using hcfg
  dsimp only at h
  by_cases hsame : ct.mark = newMark info ct.mark
  · have hkeep : ¬ ct.mark ≠ info.mark_value ||| (ct.mark &&& ~~~info.mark_mask) := not_not_intro hsame
    rw [if_neg hkeep] at h
    obtain ⟨-, rfl⟩ := Prod.mk.inj h
    rw [if_pos hsame, ← hsame]
    exact ⟨hcfg', hconn, rfl⟩
  · have hchange : ct.mark ≠ info.mark_value ||| (ct.mark &&& ~~~info.mark_mask) := hsame
    rw [if_pos hchange] at h
    obtain ⟨-, rfl⟩ := Prod.mk.inj h
    rw [if_neg hsame]
    refine ⟨hcfg', ?_, ?_⟩
    · show Option.map _ (s.nfct.map _) = _
      rw [hnfct]
      rfl
    · exact SwFlowKey.bytes_store s.key [] [] (le32_length _) (by decide) fun _ _ _ => id

/-! ## The labels -/

theorem firstBytes_congr {n : Nat} {f g : Nat → BitVec 8} (h : ∀ i < n, f i = g i) :
    firstBytes n f = firstBytes n g :=
  List.map_congr_left fun i hi => h i (List.mem_range.mp hi)

theorem labelsWritten_writeLabels {old bits : Nat → BitVec 8} (hconn : s.nfct.isSome)
    (hbits : ∀ i < 16, bits i = maskedBits (old i) (info.labels_value i) (info.labels_mask i)) :
    LabelsWritten info old (s.writeLabels bits) := by
  intro _
  obtain ⟨⟨ct, ctinfo⟩, hnfct⟩ := Option.isSome_iff_exists.mp hconn
  refine ⟨{ ct with labels := some bits }, ctinfo, ?_, firstBytes_congr hbits, ?_⟩
  · show s.nfct.map _ = _
    rw [hnfct]
    rfl
  · exact SwFlowKey.bytes_store s.key [] [] (firstBytes_length ..) (by decide) fun _ _ _ => id

theorem ovsCtGetConnLabels_ok {own : Nat → BitVec 8} (h : (ovsCtGetConnLabels env ct).exec s = (.ok own, s')) :
    own = ct.labels.getD (fun _ => 0) ∧ s'.nfct.isSome = s.nfct.isSome := by
  unfold ovsCtGetConnLabels at h
  cases hlabels : ct.labels with
  | some bits =>
      rw [hlabels] at h
      obtain ⟨hown, rfl⟩ := Prod.mk.inj h
      cases hown
      exact ⟨rfl, rfl⟩
  | none =>
      rw [hlabels] at h
      dsimp only at h
      split_ifs at h
      · obtain ⟨u, mid, hadd, hret⟩ := exec_bind_ok.mp h
        obtain ⟨-, rfl⟩ := Prod.mk.inj hadd
        obtain ⟨hown, rfl⟩ := Prod.mk.inj hret
        cases hown
        exact ⟨rfl, Option.isSome_map⟩
      · cases (Prod.mk.inj h).1

/-- Under a mask that is not empty the labels are written, whichever function does it. -/
theorem commitLabels_written (hreplace : ReplacesLabels env.nf_connlabels_replace) (hconn : s.nfct.isSome)
    (h : (commitLabels env info ct).exec s = (.ok u, s')) : LabelsWritten info ct.oldLabels s' := by
  intro hmask
  unfold commitLabels at h
  split_ifs at h with hnew
  · unfold ovsCtInitLabels at h
    dsimp only at h
    have hnot : ¬ ((ct.master.bind MasterConn.labels).isNone ∧ !labelsNonzero info.labels_mask) := fun hnone =>
      absurd hmask (by simpa using hnone.2)
    rw [if_neg hnot] at h
    obtain ⟨own, mid, hown, hwrite⟩ := exec_bind_ok.mp h
    obtain ⟨rfl, hsome⟩ := ovsCtGetConnLabels_ok hown
    obtain ⟨-, rfl⟩ := Prod.mk.inj hwrite
    refine labelsWritten_writeLabels (hsome.trans hconn) (fun i _ => ?_) hmask
    rw [if_pos hmask, maskedBits, BitVec.or_comm, Connection.oldLabels, if_neg (by simpa using hnew)]
  · obtain ⟨own, mid, hown, hwrite⟩ := exec_bind_ok.mp h
    obtain ⟨rfl, hsome⟩ := ovsCtGetConnLabels_ok hown
    dsimp only at hwrite
    split_ifs at hwrite with herr
    · cases (Prod.mk.inj hwrite).1
    · obtain ⟨-, rfl⟩ := Prod.mk.inj hwrite
      refine labelsWritten_writeLabels (hsome.trans hconn) (fun i hi => ?_) hmask
      rw [hreplace _ _ _ (not_not.mp herr) i hi, Connection.oldLabels, if_pos (by simpa using hnew)]

theorem LabelsWritten.confirm {old : Nat → BitVec 8} (hwritten : LabelsWritten info old s)
    (h : (commitConfirm env ct).exec s = (.ok u, s')) : LabelsWritten info old s' := by
  intro hmask
  obtain ⟨ct', ctinfo, hnfct, hlabels, hkey⟩ := hwritten hmask
  unfold commitConfirm at h
  split_ifs at h
  · cases (Prod.mk.inj h).1
  · obtain ⟨-, rfl⟩ := Prod.mk.inj h
    refine ⟨{ ct' with confirmed := true }, ctinfo, ?_, hlabels, hkey⟩
    show s.nfct.map _ = _
    rw [hnfct]
    rfl

/-! ## The commit -/

theorem isSome_of_connMark {mark : BitVec 32} (h : s.connMark = some mark) : s.nfct.isSome := by
  rw [← Option.isSome_map, show s.nfct.map _ = some mark from h]
  rfl

/-- The mark of a connection is what it should be. -/
theorem markWritten_iff {old mark : BitVec 32} (hconn : s.connMark = some mark) :
    MarkWritten info old s ↔
      (info.mark_mask ≠ 0 → mark = maskedBits old info.mark_value info.mark_mask ∧ s.keyMark = le32 mark) := by
  obtain ⟨⟨ct, ctinfo⟩, hnfct, rfl⟩ := Option.map_eq_some_iff.mp hconn
  refine forall_congr' fun _ => ⟨?_, fun h => ⟨ct, ctinfo, hnfct, h⟩⟩
  rintro ⟨ct', ctinfo', hnfct', h⟩
  rw [hnfct] at hnfct'
  cases hnfct'
  exact h

/-- **Mark and labels.** A commit that succeeds writes the labels under their mask and into the key. For the
mark it does so if the bits of the value outside the mask are set in the connection already, and if the key
has the mark already where it does not change. It can only lack it if the lookup has been cached. -/
theorem ovsCtCommit_iff (env : CtEnv) (info : OvsConntrackInfo) (s s' : CtState) (ct : Connection)
    (ctinfo : IpConntrackInfo) (hreplace : ReplacesLabels env.nf_connlabels_replace)
    (hfound : ((ovsCtLookup env info).exec s).2.nfct = some (ct, ctinfo))
    (hok : (ovsCtCommit env info).exec s = (.ok (), s')) :
    MarkWritten info ct.mark s' ∧ LabelsWritten info ct.oldLabels s' ↔
      (info.mark_mask ≠ 0 →
        info.mark_value &&& ~~~info.mark_mask &&& ~~~ct.mark = 0 ∧
          (maskedBits ct.mark info.mark_value info.mark_mask = ct.mark → (skbNfctCached env info s).1 = true →
            s.keyMark = le32 ct.mark)) := by
  obtain ⟨_, s₁, hlookup, hrest⟩ := exec_bind_ok.mp hok
  rw [hlookup] at hfound
  rw [exec_bind, exec_get] at hrest
  dsimp only at hrest hfound
  rw [hfound] at hrest
  -- the steps: events, mark, labels, confirm
  obtain ⟨_, s₂, hevents, hrest⟩ := exec_bind_ok.mp hrest
  obtain ⟨_, s₃, hmark, hrest⟩ := exec_bind_ok.mp hrest
  obtain ⟨_, s₄, hlabels, hconfirm⟩ := exec_bind_ok.mp hrest
  have hsame₂ : SameMark s₁ s₂ := commitEventmask_moves.of_exec hevents
  have hsame' : SameMark s₃ s' :=
    trans_of SameMark ((commitLabels_moves ct).of_exec hlabels) ((commitConfirm_moves ct).of_exec hconfirm)
  have hconn₂ : s₂.connMark = some ct.mark := by
    rw [hsame₂.1, CtState.connMark, hfound]
    rfl
  have hwritten : s₃.nfct.isSome → LabelsWritten info ct.oldLabels s' := fun hsome =>
    (commitLabels_written hreplace hsome hlabels).confirm hconfirm
  by_cases hmask : info.mark_mask = 0
  · rw [commitMark, if_neg (not_not.mpr hmask)] at hmark
    obtain ⟨-, rfl⟩ := Prod.mk.inj hmark
    exact ⟨fun _ h => absurd hmask h, fun _ => ⟨fun h => absurd hmask h, hwritten (isSome_of_connMark hconn₂)⟩⟩
  · obtain ⟨hcfg, hconn₃, hkey₃⟩ := commitMark_mark hmark hmask hconn₂
    rw [and_iff_left (hwritten (isSome_of_connMark hconn₃)), markWritten_iff (hsame'.1.trans hconn₃), hsame'.2,
      hkey₃, hsame₂.2, ovsCtLookup_keyMark hcfg hlookup hfound]
    refine forall_congr' fun _ => ?_
    rw [← or_eq_maskedBits_iff]
    refine and_congr_right fun hexact => ?_
    rw [← hexact]
    show _ ↔ (newMark info ct.mark = ct.mark → _)
    by_cases hsame : ct.mark = newMark info ct.mark
    · rw [if_pos hsame, ← hsame]
      split_ifs with hcached
      · exact ⟨fun h _ _ => h, fun h => h rfl hcached⟩
      · exact ⟨fun _ _ h => absurd h hcached, fun _ => rfl⟩
    · rw [if_neg hsame]
      exact ⟨fun _ h => absurd h.symm hsame, fun _ => rfl⟩

end Commit

/-! ## Bits outside the mask -/

/-- A kernel that does what it is asked for. -/
def plainEnv : CtEnv where
  cfg := ⟨true, true, true, true, true, 16⟩
  nf_ct_get_tuple _ _ := none
  nf_ct_invert_tuple := some
  nf_conntrack_find_get _ _ := none
  nf_conntrack_in _ skb := some (skb, none)
  nf_ct_nat_ext_add _ := true
  ovs_ct_nat_execute _ _ _ _ skb := (true, (false, false), skb)
  nf_ct_try_assign_helper _ := 0
  ovs_ct_helper _ _ skb := (true, skb)
  nf_ct_labels_ext_add _ := true
  nf_connlabels_replace own value mask := (0, fun i => maskedBits (own i) (value i) (mask i))
  nf_conntrack_confirm _ := true

/-- A confirmed connection without a mark. -/
def unmarkedConn : Connection where
  confirmed := true
  net_eq := true
  zone := 0
  mark := 0
  labels := none
  master := none
  help := none
  src_nat := false
  dst_nat := false
  seen_reply := true
  expected := false
  ecache := none
  orig := ⟨2, fun _ => 0, fun _ => 0, 0, 0, 6⟩

/-- A packet of it. -/
def unmarkedState : CtState where
  skb := ⟨[], ethPIp, 0, 0, false, 14, 14, 34, 0⟩
  nfct := some (unmarkedConn, .established)
  key := fun _ => 0

/-- `commit, mark=0xff/0xf`: the value has bits outside the mask. -/
def outsideAttr : List (BitVec 8) := [4, 0, 1, 0, 12, 0, 3, 0, 0xFF, 0, 0, 0, 0x0F, 0, 0, 0]

/-- What is parsed from it. -/
def outsideInfo : OvsConntrackInfo :=
  { ctInfoInit .ipv4 with commit := true, mark_value := 0xFF, mark_mask := 0x0F }

theorem ovsCtCommit_iff_outside :
    MarkWritten outsideInfo 0 ((ovsCtCommit plainEnv outsideInfo).exec unmarkedState).2 ∧
        LabelsWritten outsideInfo unmarkedConn.oldLabels ((ovsCtCommit plainEnv outsideInfo).exec unmarkedState).2 ↔
      (outsideInfo.mark_mask ≠ 0 →
        outsideInfo.mark_value &&& ~~~outsideInfo.mark_mask &&& ~~~(0 : BitVec 32) = 0 ∧
          (maskedBits 0 outsideInfo.mark_value outsideInfo.mark_mask = 0 →
            (skbNfctCached plainEnv outsideInfo unmarkedState).1 = true → unmarkedState.keyMark = le32 0)) :=
  ovsCtCommit_iff plainEnv outsideInfo unmarkedState _ unmarkedConn .established (fun _ _ _ _ _ _ => rfl) rfl rfl

/-- The action is accepted, and the mark gets all bits of the value. -/
theorem ovsCtCommit_outsideMask :
    parseCt plainEnv.cfg .ipv4 outsideAttr = .ok (outsideInfo, none) ∧ outsideInfo.commit = true ∧
      ReplacesLabels plainEnv.nf_connlabels_replace ∧
      ∃ s', (ovsCtCommit plainEnv outsideInfo).exec unmarkedState = (.ok (), s') ∧
        s'.nfct.map (fun c => c.1.mark) = some 0xFF ∧ ¬ MarkWritten outsideInfo unmarkedConn.mark s' := by
  refine ⟨rfl, rfl, fun _ _ _ _ _ _ => rfl, _, rfl, rfl, fun hwritten => ?_⟩
  obtain ⟨ct, ctinfo, hnfct, hmark, -⟩ := hwritten (by decide)
  cases hnfct
  exact absurd hmark (by decide)

end OvsDatapath.Datapath
