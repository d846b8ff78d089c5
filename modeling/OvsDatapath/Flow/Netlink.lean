import OvsDatapath.Flow.KeyExtract

/-!
# Netlink attributes of a flow key

A request carries the key and the mask of a flow as two streams of netlink attributes. An attribute
is four bytes of length and type, and the bytes that follow; nested attributes are streams in these
bytes. `parseFlowNlattrs` collects the attributes of a stream (`parse_flow_nlattrs`), and
`maskSetNlattr` turns a key into the mask that is used for a request without one.
-/

namespace OvsDatapath.Flow

/-! ## Streams of attributes -/

/-- An attribute: `nla_type`, and the bytes that `nla_data` points to. -/
structure Nlattr where
  type : Nat
  data : List (BitVec 8)

/-- `NLA_HDRLEN`. -/
def nlaHdrlen : Nat := 4

/-- A byte of a stream. -/
def byteAt (l : List (BitVec 8)) (i : Nat) : BitVec 8 := l.getD i 0

/-- A 16-bit number in the order of the machine. -/
def le16At (l : List (BitVec 8)) (i : Nat) : BitVec 16 := byteAt l (i + 1) ++ byteAt l i

/-- A 32-bit number in the order of the machine. -/
def le32At (l : List (BitVec 8)) (i : Nat) : BitVec 32 := le16At l (i + 2) ++ le16At l i

/-- A 16-bit number in network order. -/
def be16Of (l : List (BitVec 8)) (i : Nat) : BitVec 16 := byteAt l i ++ byteAt l (i + 1)

/-- A number of bytes from an offset on. -/
def slice (l : List (BitVec 8)) (off n : Nat) : List (BitVec 8) :=
  (List.range n).map fun i => byteAt l (off + i)

@[simp] theorem slice_length (l : List (BitVec 8)) (off n : Nat) : (slice l off n).length = n := by
  rw [slice, List.length_map, List.length_range]

/-- `nla_ok`, and the length that the header gives. -/
def nlaOk (l : List (BitVec 8)) : Option Nat :=
  let nla_len := (le16At l 0).toNat
  if l.length < nlaHdrlen ∨ nla_len < nlaHdrlen ∨ l.length < nla_len then none else some nla_len

/-- `nla_type`, without the flags. -/
def nlaType (l : List (BitVec 8)) : Nat := (le16At l 2 &&& 0x3FFF).toNat

/-- `NLA_ALIGN`. -/
def nlaAlign (len : Nat) : Nat := (len + 3) / 4 * 4

/-- The attributes of a stream, at most `fuel` of them, and the bytes that remain, less than none if
the padding of the last attribute is missing. -/
def nlaForEach : Nat → List (BitVec 8) → List Nlattr × Int
  | 0, l => ([], l.length)
  | fuel + 1, l =>
      match nlaOk l with
      | none => ([], l.length)
      | some nla_len =>
          let nla : Nlattr := ⟨nlaType l, (l.take nla_len).drop nlaHdrlen⟩
          if l.length < nlaAlign nla_len then ([nla], l.length - nlaAlign nla_len)
          else
            let (rest, rem) := nlaForEach fuel (l.drop (nlaAlign nla_len))
            (nla :: rest, rem)

/-- `nla_for_each_nested`. Every attribute takes four bytes or more. -/
def nlaForEachNested (data : List (BitVec 8)) : List Nlattr × Int := nlaForEach data.length data

section Streams

variable {l : List (BitVec 8)} {nla_len : Nat}

theorem nlaOk_bounds (h : nlaOk l = some nla_len) : nlaHdrlen ≤ nla_len ∧ nla_len ≤ l.length := by
  unfold nlaOk at h
  dsimp only at h
  split_ifs at h with hshort
  push Not at hshort
  obtain rfl := Option.some.inj h
  exact ⟨hshort.2.1, hshort.2.2⟩

theorem le_nlaAlign (len : Nat) : len ≤ nlaAlign len := by
  unfold nlaAlign
  omega

theorem nlaForEach_nil (n : Nat) : nlaForEach n [] = ([], 0) := by
  cases n <;> rfl

theorem nlaForEach_cons (h : nlaOk l = some nla_len) (n : Nat) :
    (nlaForEach (n + 1) l).1 =
      ⟨nlaType l, (l.take nla_len).drop nlaHdrlen⟩ :: (nlaForEach n (l.drop (nlaAlign nla_len))).1 := by
  rw [nlaForEach, h]
  dsimp only
  split_ifs with hshort
  · rw [List.drop_eq_nil_of_le hshort.le, nlaForEach_nil]
  · rfl

end Streams

/-! ## The attributes of a flow key -/

/-- `enum ovs_key_attr`. -/
inductive OvsKeyAttr where
  | unspec
  | encap
  | priority
  | inPort
  | ethernet
  | vlan
  | ethertype
  | ipv4
  | ipv6
  | tcp
  | udp
  | icmp
  | icmpv6
  | arp
  | nd
  | skbMark
  | tunnel
  | sctp
  | tcpFlags
  | dpHash
  | recircId
  | mpls
  | ctState
  | ctZone
  | ctMark
  | ctLabels
  | ctOrigTupleIpv4
  | ctOrigTupleIpv6
  | tunnelInfo
  deriving DecidableEq, Repr

/-- The attributes by their number. -/
def ovsKeyAttrs : List OvsKeyAttr :=
  [.unspec, .encap, .priority, .inPort, .ethernet, .vlan, .ethertype, .ipv4, .ipv6, .tcp, .udp, .icmp,
    .icmpv6, .arp, .nd, .skbMark, .tunnel, .sctp, .tcpFlags, .dpHash, .recircId, .mpls, .ctState,
    .ctZone, .ctMark, .ctLabels, .ctOrigTupleIpv4, .ctOrigTupleIpv6, .tunnelInfo]

/-- `enum ovs_tunnel_key_attr`. -/
inductive OvsTunnelKeyAttr where
  | id
  | ipv4Src
  | ipv4Dst
  | tos
  | ttl
  | dontFragment
  | csum
  | oam
  | geneveOpts
  | tpSrc
  | tpDst
  | vxlanOpts
  | ipv6Src
  | ipv6Dst
  | pad
  deriving DecidableEq, Repr

/-- The attributes by their number. -/
def ovsTunnelKeyAttrs : List OvsTunnelKeyAttr :=
  [.id, .ipv4Src, .ipv4Dst, .tos, .ttl, .dontFragment, .csum, .oam, .geneveOpts, .tpSrc, .tpDst,
    .vxlanOpts, .ipv6Src, .ipv6Dst, .pad]

/-- `OVS_VXLAN_EXT_GBP` and `OVS_VXLAN_EXT_MAX`. -/
def ovsVxlanExtGbp : Nat := 1

@[inherit_doc ovsVxlanExtGbp]
def ovsVxlanExtMax : Nat := 8

/-- `struct ovs_len_tbl`, without the table for nested attributes. -/
inductive AttrLen where
  | fixed (len : Nat)
  | nested
  | variable
  deriving DecidableEq, Repr

/-- `ovs_key_lens`; zero where the table has no entry. -/
def ovsKeyLens : OvsKeyAttr → AttrLen
  | .unspec | .tunnelInfo => .fixed 0
  | .encap | .tunnel => .nested
  | .priority | .inPort | .skbMark | .recircId | .dpHash | .mpls | .ctState | .ctMark => .fixed 4
  | .ethernet => .fixed 12
  | .vlan | .ethertype | .tcpFlags | .icmp | .icmpv6 | .ctZone => .fixed 2
  | .ipv4 => .fixed 12
  | .ipv6 => .fixed 40
  | .tcp | .udp | .sctp => .fixed 4
  | .arp => .fixed 24
  | .nd => .fixed 28
  | .ctLabels => .fixed 16
  | .ctOrigTupleIpv4 => .fixed 16
  | .ctOrigTupleIpv6 => .fixed 40

/-- `ovs_tunnel_key_lens`. -/
def ovsTunnelKeyLens : OvsTunnelKeyAttr → AttrLen
  | .id => .fixed 8
  | .ipv4Src | .ipv4Dst => .fixed 4
  | .tos | .ttl => .fixed 1
  | .dontFragment | .csum | .oam | .pad => .fixed 0
  | .geneveOpts => .variable
  | .tpSrc | .tpDst => .fixed 2
  | .vxlanOpts => .nested
  | .ipv6Src | .ipv6Dst => .fixed 16

/-- `ovs_vxlan_ext_key_lens`. -/
def ovsVxlanExtKeyLens (type : Nat) : AttrLen :=
  if type = ovsVxlanExtGbp then .fixed 4 else .fixed 0

/-- `check_attr_len`. -/
def checkAttrLen (attr_len : Nat) : AttrLen → Bool
  | .fixed len => len == attr_len
  | .nested | .variable => true

/-- `is_all_zero`. For a nested attribute the expected length is a huge number, and the test runs on
until it meets a byte that is not zero. -/
def isAllZero (data : List (BitVec 8)) : AttrLen → Bool
  | .fixed len => (slice data 0 len).all (· == 0)
  | .nested | .variable => false

/-- `nla_put`: an attribute of a flow key, as it is laid out in a stream. -/
def nlaPut (attr : OvsKeyAttr) (data : List (BitVec 8)) : List (BitVec 8) :=
  let nla_len := nlaHdrlen + data.length
  [BitVec.ofNat 8 nla_len, 0, BitVec.ofNat 8 (ovsKeyAttrs.idxOf attr), 0] ++ data ++
    List.replicate (nlaAlign nla_len - nla_len) 0

/-! ## Collecting attributes -/

/-- What `parse_flow_nlattrs` fills: the bits of the attributes seen, and the array of pointers to
them, which keeps pointers of attributes whose bit is not set any more. -/
structure ParsedAttrs where
  attrs : Finset OvsKeyAttr
  a : OvsKeyAttr → Option (List (BitVec 8))

/-- No attribute seen, and an array that has not been written. -/
def ParsedAttrs.empty : ParsedAttrs := ⟨∅, fun _ => none⟩

/-- Whether the bit of an attribute is set. -/
def ParsedAttrs.has (p : ParsedAttrs) (attr : OvsKeyAttr) : Bool := decide (attr ∈ p.attrs)

/-- The data of an attribute. -/
def ParsedAttrs.data (p : ParsedAttrs) (attr : OvsKeyAttr) : List (BitVec 8) := (p.a attr).getD []

/-- Clear the bit of an attribute. -/
def ParsedAttrs.clear (p : ParsedAttrs) (attr : OvsKeyAttr) : ParsedAttrs :=
  { p with attrs := p.attrs.erase attr }

/-- Set the bit and the pointer of an attribute. -/
def ParsedAttrs.set (p : ParsedAttrs) (attr : OvsKeyAttr) (data : List (BitVec 8)) : ParsedAttrs :=
  ⟨insert attr p.attrs, Function.update p.a attr (some data)⟩

/-- The loop of `__parse_flow_nlattrs`. -/
def parseFlowNlattrsLoop (nz : Bool) : List Nlattr → ParsedAttrs → Except Int ParsedAttrs
  | [], p => .ok p
  | nla :: rest, p =>
      match ovsKeyAttrs[nla.type]? with
      | none => .error einval
      | some attr =>
          if p.has attr then .error einval
          else if !checkAttrLen nla.data.length (ovsKeyLens attr) then .error einval
          else if nz && isAllZero nla.data (ovsKeyLens attr) then parseFlowNlattrsLoop nz rest p
          else parseFlowNlattrsLoop nz rest (p.set attr nla.data)

/-- `parse_flow_nlattrs`, and `parse_flow_mask_nlattrs` if `nz` is set. -/
def parseFlowNlattrs (nz : Bool) (data : List (BitVec 8)) (p : ParsedAttrs) : Except Int ParsedAttrs :=
  let (nlas, rem) := nlaForEachNested data
  match parseFlowNlattrsLoop nz nlas p with
  | .error e => .error e
  | .ok p => if rem ≠ 0 then .error einval else .ok p

/-! ## The mask of a request without one -/

/-- The tables of lengths. -/
inductive LenTbl where
  | key
  | tunnel
  | vxlan
  deriving DecidableEq, Repr

/-- The entry of a table, if it has so many. -/
def LenTbl.len (tbl : LenTbl) (type : Nat) : Option AttrLen :=
  match tbl with
  | .key => (ovsKeyAttrs[type]?).map ovsKeyLens
  | .tunnel => (ovsTunnelKeyAttrs[type]?).map ovsTunnelKeyLens
  | .vxlan => if type ≤ ovsVxlanExtMax then some (ovsVxlanExtKeyLens type) else none

/-- The table for the attributes nested in an attribute, if the entry names one. -/
def LenTbl.next (tbl : LenTbl) (type : Nat) : Option LenTbl :=
  match tbl with
  | .key => if ovsKeyAttrs[type]? = some .tunnel then some .tunnel else none
  | .tunnel => if ovsTunnelKeyAttrs[type]? = some .vxlanOpts then some .vxlan else none
  | .vxlan => none

/-- `nlattr_set`. The table for nested attributes stays in use for the attributes after them; an
entry that it does not have is what `beyond` says. -/
def nlattrSet (beyond : LenTbl → Nat → AttrLen) (val : BitVec 8) :
    Nat → LenTbl → List (BitVec 8) → List (BitVec 8)
  | 0, _, l => l
  | fuel + 1, tbl, l =>
      match nlaOk l with
      | none => l
      | some nla_len =>
          let type := nlaType l
          let data := (l.take nla_len).drop nlaHdrlen
          let len := (tbl.len type).getD (beyond tbl type)
          let tbl' := if len = .nested then (tbl.next type).getD tbl else tbl
          let data := if len = .nested then nlattrSet beyond val fuel tbl' data
            else List.replicate data.length val
          -- `CT_SUPPORTED_MASK` has no bits above the lowest byte
          let data := if ovsKeyAttrs[type]? = some .ctState then
              data.take 1 ++ List.replicate (min 3 (data.length - 1)) 0 ++ data.drop 4
            else data
          l.take nlaHdrlen ++ data ++ (l.drop nla_len).take (nlaAlign nla_len - nla_len) ++
            nlattrSet beyond val fuel tbl' (l.drop (nlaAlign nla_len))

/-- `mask_set_nlattr`. -/
def maskSetNlattr (beyond : LenTbl → Nat → AttrLen) (val : BitVec 8) (data : List (BitVec 8)) :
    List (BitVec 8) :=
  nlattrSet beyond val data.length .key data

end OvsDatapath.Flow
