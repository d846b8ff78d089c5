import OvsDatapath.Actions.SetFields

/-!
# Actions that change the headers of a packet

`push_vlan` to `pop_eth` of `actions.c`, with `skb_vlan_push` and `skb_vlan_pop` as `linux/compat` has them, and the
set actions beside them. A header is put in front of the packet or taken away from it, and `skb->csum` is told of it
if the hardware has summed up the packet.

The offsets of the headers count from the MAC header, so they change when something is put in front of them.
-/

namespace OvsDatapath.Actions

open OvsDatapath.Lib OvsDatapath.Flow

/-- `ENOTSUPP`. -/
def enotsupp : Int := -524

/-- A packet with its key, and what `push_mpls` reads and writes besides. -/
structure EditState extends SetState where
  encapsulation : Bool
  inner_protocol : BitVec 16

/-- The answers of the kernel: those for the packet, those for a second VLAN tag, and whether `skb_cow_head`
succeeds. -/
structure EditEnv extends SkbEnv where
  next_tag : SkbEnv
  cow_head : Bool

namespace SkbState

/-- `skb_push` of some bytes that stand behind a number of others, which move up. -/
def insert (skb : SkbState) (off : Nat) (bytes : List (BitVec 8)) : SkbState :=
  { skb with
    data := skb.data.take off ++ (bytes ++ skb.data.drop off)
    network_header := skb.network_header + bytes.length
    transport_header := skb.transport_header + bytes.length
    inner_network_header := skb.inner_network_header + bytes.length
    csum_start := skb.csum_start + bytes.length }

/-- `__skb_pull` of a number of bytes that stand behind some others, which move down. -/
def remove (skb : SkbState) (off n : Nat) : SkbState :=
  { skb with
    data := skb.data.take off ++ skb.data.drop (off + n)
    network_header := skb.network_header - n
    transport_header := skb.transport_header - n
    inner_network_header := skb.inner_network_header - n
    csum_start := skb.csum_start - n }

/-- `skb_set_network_header`. -/
def setNetworkHeader (skb : SkbState) (offset : Nat) : SkbState := { skb with network_header := offset }

/-- `skb_reset_mac_len`. -/
def resetMacLen (skb : SkbState) : SkbState := { skb with mac_len := skb.network_header }

/-- `skb_pull_rcsum`. -/
def pullRcsum (ops : CsumOps) (skb : SkbState) (len : Nat) : SkbState :=
  let pulled := skb.remove 0 len
  match skb.ip_summed with
  | .checksumComplete => { pulled with csum := ops.csum_sub skb.csum (ops.csum_partial (skb.bytes 0 len) 0) }
  | .checksumPartial => if pulled.csum_start < 0 then { pulled with ip_summed := .checksumNone } else pulled
  | _ => pulled

end SkbState

/-- `invalidate_flow_key`. -/
def invalidateFlowKey (key : SwFlowKey) : SwFlowKey := key.setMacProto (key.macProto ||| swFlowKeyInvalid)

variable (ops : CsumOps)

/-! ## MPLS -/

/-- `update_ethertype`, for the header whose type is at an offset. -/
def updateEthertype (skb : SkbState) (off : Nat) (ethertype : BitVec 16) : SkbState :=
  let csum := if skb.ip_summed = .checksumComplete
    then ~~~ops.csum_partial ((skb.bytes off 2).map (~~~·) ++ be16 ethertype) (~~~skb.csum) else skb.csum
  { skb with csum := csum }.put off (be16 ethertype)

/-- A label stack entry is put behind the MAC header. -/
def SkbState.pushLse (skb : SkbState) (mpls_lse : List (BitVec 8)) (mpls_ethertype : BitVec 16)
    (ethernet : Bool) : SkbState :=
  let skb := skb.insert skb.mac_len mpls_lse
  let skb := skb.postpushRcsum ops skb.mac_len mplsHlen
  let skb := if ethernet then updateEthertype ops skb 12 mpls_ethertype else skb
  { skb with protocol := mpls_ethertype }

/-- `push_mpls`. -/
def pushMpls (env : EditEnv) (mpls_lse : List (BitVec 8)) (mpls_ethertype : BitVec 16) (st : EditState) :
    Int × EditState :=
  if st.encapsulation then (enotsupp, st)
  else if !env.cow_head then (enomem, st)
  else
    let inner := st.inner_protocol = 0
    let skb := if inner then { st.skb with inner_network_header := st.skb.mac_len } else st.skb
    (0, { st with
      skb := skb.pushLse ops mpls_lse mpls_ethertype (ovsKeyMacProto st.flow_key == macProtoEthernet)
      flow_key := invalidateFlowKey st.flow_key
      inner_protocol := if inner then st.skb.protocol else st.inner_protocol })

/-- The label stack entry behind the MAC header is taken away. -/
def SkbState.removeLse (skb : SkbState) : SkbState :=
  ((skb.postpullRcsum ops skb.mac_len mplsHlen).remove skb.mac_len mplsHlen).setNetworkHeader skb.mac_len

/-- The same, with the ethertype, which stands before it with or without VLAN tags. -/
def SkbState.popLse (skb : SkbState) (ethertype : BitVec 16) (ethernet : Bool) : SkbState :=
  let removed := skb.removeLse ops
  let removed := if ethernet then updateEthertype ops removed (skb.mac_len - 2) ethertype else removed
  { removed with protocol := if ethPMpls removed.protocol then ethertype else removed.protocol }

/-- `pop_mpls`. -/
def popMpls (env : EditEnv) (ethertype : BitVec 16) (st : EditState) : Int × EditState :=
  if !st.skb.ensureWritable env.toSkbEnv (st.skb.mac_len + mplsHlen) then (enomem, st)
  else (0, { st with
    skb := st.skb.popLse ops ethertype (ovsKeyMacProto st.flow_key == macProtoEthernet)
    flow_key := invalidateFlowKey st.flow_key })

/-! ## VLAN tags -/

/-- `__skb_vlan_pop`: the error, the packet, and the tag. -/
def skbVlanPopTag (env : SkbEnv) (skb : SkbState) : Int × SkbState × BitVec 16 :=
  if !skb.ensureWritable env vlanEthHlen then (enomem, skb, 0)
  else
    let tci := skb.be16At ethHlen
    let encap := skb.be16At (ethHlen + 2)
    let popped := (skb.postpullRcsum ops 12 4).remove 12 4
    -- `vlan_set_encap_proto`
    let protocol := if encap ≥ 0x0600 then encap else if popped.be16At 0 = 0xFFFF then 0x0001 else 0x0004
    let network_header := if popped.network_header < ethHlen then ethHlen else popped.network_header
    (0, ({ popped with protocol := protocol }.setNetworkHeader network_header).resetMacLen, tci)

/-- The end of `skb_vlan_pop`: the next tag becomes the one that the hardware knows. -/
def skbVlanNextTag (env : SkbEnv) (skb : SkbState) : Int × SkbState :=
  if !ethTypeVlan skb.protocol ∨ skb.len < vlanEthHlen then (0, skb)
  else
    let popped := skbVlanPopTag ops env skb
    if popped.1 ≠ 0 then (popped.1, popped.2.1)
    else (0, { popped.2.1 with vlan_proto := ethP8021q, vlan_tci := vlanTagPresent ||| popped.2.2 })

/-- `skb_vlan_pop`. -/
def skbVlanPop (env : EditEnv) (skb : SkbState) : Int × SkbState :=
  if skb.vlanTagIsPresent then skbVlanNextTag ops env.next_tag { skb with vlan_tci := 0 }
  else if !ethTypeVlan skb.protocol ∨ skb.len < vlanEthHlen then (0, skb)
  else
    let popped := skbVlanPopTag ops env.toSkbEnv skb
    if popped.1 ≠ 0 then (popped.1, popped.2.1) else skbVlanNextTag ops env.next_tag popped.2.1

/-- `__vlan_insert_tag`, and `csum_add` for the tag. -/
def SkbState.insertTag (skb : SkbState) : SkbState :=
  let skb := skb.insert 12 (be16 skb.vlan_proto ++ be16 (skb.vlan_tci &&& ~~~vlanTagPresent))
  { skb with
    mac_len := skb.mac_len + 4
    csum := if skb.ip_summed = .checksumComplete
      then ops.csum_sub skb.csum (~~~ops.csum_partial (skb.bytes 12 4) 0) else skb.csum }

/-- `skb_vlan_push`. -/
def skbVlanPush (env : EditEnv) (vlan_proto vlan_tci : BitVec 16) (skb : SkbState) : Int × SkbState :=
  if skb.vlanTagIsPresent && !env.cow_head then (enomem, skb)
  else
    let skb := if skb.vlanTagIsPresent then skb.insertTag ops else skb
    (0, { skb with vlan_proto := vlan_proto, vlan_tci := vlanTagPresent ||| vlan_tci })

/-- `pop_vlan`. -/
def popVlan (env : EditEnv) (st : EditState) : Int × EditState :=
  let popped := skbVlanPop ops env st.skb
  (popped.1, { st with
    skb := popped.2
    flow_key := if popped.2.vlanTagIsPresent then invalidateFlowKey st.flow_key
      else st.flow_key.store [⟨346, zeros 2⟩, ⟨344, zeros 2⟩] })

/-- `push_vlan`. -/
def pushVlan (env : EditEnv) (vlan_tpid vlan_tci : BitVec 16) (st : EditState) : Int × EditState :=
  let pushed := skbVlanPush ops env vlan_tpid (vlan_tci &&& ~~~vlanTagPresent) st.skb
  (pushed.1, { st with
    skb := pushed.2
    flow_key := if st.skb.vlanTagIsPresent then invalidateFlowKey st.flow_key
      else st.flow_key.store [⟨346, be16 vlan_tci⟩, ⟨344, be16 vlan_tpid⟩] })

/-! ## Ethernet -/

/-- `pop_eth`. -/
def popEth (st : EditState) : Int × EditState :=
  (0, { st with
    skb := (st.skb.pullRcsum ops ethHlen).resetMacLen
    flow_key := invalidateFlowKey (st.flow_key.setMacProto macProtoNone) })

/-- `push_eth`. -/
def pushEth (env : EditEnv) (eth_src eth_dst : List (BitVec 8)) (st : EditState) : Int × EditState :=
  if !env.cow_head then (enomem, st)
  else
    let skb := (st.skb.insert 0 (eth_dst ++ (eth_src ++ be16 st.skb.protocol))).resetMacLen
    (0, { st with
      skb := skb.postpushRcsum ops 0 ethHlen
      flow_key := invalidateFlowKey (st.flow_key.setMacProto macProtoEthernet) })

/-! ## Any of them -/

/-- A member of a struct with a number of bytes. -/
abbrev Octets (n : Nat) := { bytes : List (BitVec 8) // bytes.length = n }

/-- An action that changes the packet. -/
inductive Edit where
  | set (attr : List (BitVec 8))
  | pushMpls (mpls_lse : Octets 4) (mpls_ethertype : BitVec 16)
  | popMpls (ethertype : BitVec 16)
  | pushVlan (vlan_tpid vlan_tci : BitVec 16)
  | popVlan
  | pushEth (eth_src eth_dst : Octets 6)
  | popEth

/-- The case of `do_execute_actions` for the action. -/
def doEdit (env : EditEnv) (st : EditState) : Edit → Int × EditState
  | .set attr =>
      let done := executeMaskedSetAction ops env.toSkbEnv attr st.toSetState
      (done.1, { st with toSetState := done.2 })
  | .pushMpls mpls_lse mpls_ethertype => pushMpls ops env mpls_lse mpls_ethertype st
  | .popMpls ethertype => popMpls ops env ethertype st
  | .pushVlan vlan_tpid vlan_tci => pushVlan ops env vlan_tpid vlan_tci st
  | .popVlan => popVlan ops env st
  | .pushEth eth_src eth_dst => pushEth ops env eth_src eth_dst st
  | .popEth => popEth ops st

/-- A list of actions, with what the kernel answers to each, as far as `do_execute_actions` comes with it. -/
def doEdits (st : EditState) : List (EditEnv × Edit) → Int × EditState
  | [] => (0, st)
  | (env, a) :: rest =>
      let done := doEdit ops env st a
      if done.1 ≠ 0 then done else doEdits done.2 rest

end OvsDatapath.Actions
