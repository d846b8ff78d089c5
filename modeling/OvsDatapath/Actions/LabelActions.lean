import OvsDatapath.Actions.CsumRuns

/-!
# Actions on the label stack

What `push_mpls`, `pop_mpls` and `set_mpls` are for: a frame has an ethertype and a stack of labels, `LabelFrame`, and
they push an entry, pop one, or set the one at the top. The datapath does it on the bytes of the packet, in the place
that `skb->mac_len` tells, and comes to the same frame (`doEdits_labels`), with `skb->protocol` the ethertype in it.

Each push and each pop tells `skb->csum` of the new ethertype the wrong way round. These mistakes add up to one
between the first and the last ethertype, so the sum of the packet is right again exactly when that is back
(`doEdits_labels_drift`).
-/

namespace OvsDatapath.Actions

open OvsDatapath.Lib OvsDatapath.Flow

/-- A frame without a VLAN tag: its addresses, its ethertype, the label stack from the top, and the rest. -/
structure LabelFrame where
  addresses : Octets 12
  type : BitVec 16
  stack : List (Octets 4)
  payload : List (BitVec 8)

namespace LabelFrame

/-- The frame as it is transmitted. -/
def bytes (f : LabelFrame) : List (BitVec 8) :=
  f.addresses.1 ++ (be16 f.type ++ (f.stack.flatMap Subtype.val ++ f.payload))

/-- The entry at the top, under a mask. -/
def maskTop (top : Octets 4) (data : List (BitVec 8)) : Octets 4 :=
  ⟨ovsMasked top.1 (slice (data.take 4) 0 4) (slice (data.drop 4) 0 4), by rw [ovsMasked_length, top.2]⟩

/-- What an action on the label stack is for. -/
def edit (f : LabelFrame) : Edit → Option LabelFrame
  | .pushMpls mpls_lse mpls_ethertype => some { f with type := mpls_ethertype, stack := mpls_lse :: f.stack }
  | .popMpls ethertype =>
      match f.stack with
      | _ :: rest => if ethPMpls f.type then some { f with type := ethertype, stack := rest } else none
      | [] => none
  | .set attr =>
      match setKey attr, f.stack with
      | some (.mpls, data), top :: rest => some { f with stack := maskTop top data :: rest }
      | _, _ => none
  | _ => none

/-- Some of them, one after the other. -/
def edits (f : LabelFrame) : List (EditEnv × Edit) → Option LabelFrame
  | [] => some f
  | (_, a) :: rest => (f.edit a).bind fun f' => f'.edits rest

/-- The packet buffer holds the frame. -/
structure Held (f : LabelFrame) (st : EditState) : Prop where
  data : st.skb.data = f.bytes
  mac_len : st.skb.mac_len = ethHlen
  protocol : st.skb.protocol = f.type
  ethernet : ovsKeyMacProto st.flow_key = macProtoEthernet

end LabelFrame

variable {ops : CsumOps} {env : EditEnv} {st : EditState} {f f' : LabelFrame}

/-! ### What stays of the key -/

theorem macProto_setMacProto (key : SwFlowKey) (v : BitVec 8) : (key.setMacProto v).macProto = v := rfl

theorem ovsKeyMacProto_invalidate (key : SwFlowKey) : ovsKeyMacProto (invalidateFlowKey key) = ovsKeyMacProto key := by
  unfold ovsKeyMacProto invalidateFlowKey
  rw [macProto_setMacProto]
  apply BitVec.eq_of_getLsbD_eq
  intro i hi
  simp only [BitVec.getLsbD_and, BitVec.getLsbD_or, BitVec.getLsbD_not]
  cases swFlowKeyInvalid.getLsbD i <;> simp

/-- A store behind the flag does not change it. -/
theorem ovsKeyMacProto_store (key : SwFlowKey) {member : Nat} (bytes : List (BitVec 8)) (h : 323 ≤ member) :
    ovsKeyMacProto (key.store [⟨member, bytes⟩]) = ovsKeyMacProto key := by
  have hstore : (key.store [⟨member, bytes⟩]).macProto = key.macProto := by
    apply SwFlowKey.store_u8_of_not_reaches
    rintro (⟨hle, -⟩ | hnil)
    · exact absurd (le_trans h hle) (by decide)
    · exact hnil
  rw [ovsKeyMacProto, ovsKeyMacProto, hstore]

/-! ### What is written -/

section

variable {skb : SkbState} {addresses rest lse : List (BitVec 8)} {type : BitVec 16}

theorem postpushRcsum_data (ops : CsumOps) (skb : SkbState) (off n : Nat) :
    (skb.postpushRcsum ops off n).data = skb.data := by
  unfold SkbState.postpushRcsum
  cases skb.ip_summed <;> rfl

theorem postpullRcsum_data (ops : CsumOps) (skb : SkbState) (off n : Nat) :
    (skb.postpullRcsum ops off n).data = skb.data := by
  unfold SkbState.postpullRcsum
  cases skb.ip_summed with
  | checksumPartial =>
      dsimp only
      split_ifs <;> rfl
  | _ => rfl

theorem updateEthertype_data (haddr : addresses.length = 12) (hdata : skb.data = addresses ++ (be16 type ++ rest))
    (ethertype : BitVec 16) :
    (updateEthertype ops skb 12 ethertype).data = addresses ++ (be16 ethertype ++ rest) := by
  have hpatch : (updateEthertype ops skb 12 ethertype).data = patch skb.data 12 (be16 ethertype) := rfl
  rw [hpatch, hdata, ← haddr]
  exact patch_append addresses (be16 type) rest rfl

theorem pushLse_data (haddr : addresses.length = 12) (hmac : skb.mac_len = ethHlen)
    (hdata : skb.data = addresses ++ (be16 type ++ rest)) (ethertype : BitVec 16) :
    (skb.pushLse ops lse ethertype true).data = addresses ++ (be16 ethertype ++ (lse ++ rest)) := by
  have hinsert : (skb.insert skb.mac_len lse).data = addresses ++ (be16 type ++ (lse ++ rest)) := by
    have hinsert : (skb.insert skb.mac_len lse).data =
      skb.data.take skb.mac_len ++ (lse ++ skb.data.drop skb.mac_len) := rfl
    have hlen : (addresses ++ be16 type).length = skb.mac_len := by
      rw [List.length_append, haddr, hmac]
      rfl
    rw [hinsert, hdata, ← List.append_assoc addresses, ← hlen, List.take_left, List.drop_left, List.append_assoc]
  exact updateEthertype_data haddr ((postpushRcsum_data ..).trans hinsert) ethertype

theorem removeLse_data (haddr : addresses.length = 12) (hlse : lse.length = mplsHlen) (hmac : skb.mac_len = ethHlen)
    (hdata : skb.data = addresses ++ (be16 type ++ (lse ++ rest))) :
    (skb.removeLse ops).data = addresses ++ (be16 type ++ rest) := by
  have hremove : (skb.removeLse ops).data = (skb.postpullRcsum ops skb.mac_len mplsHlen).data.take skb.mac_len ++
    (skb.postpullRcsum ops skb.mac_len mplsHlen).data.drop (skb.mac_len + mplsHlen) := rfl
  have hlen : (addresses ++ be16 type).length = skb.mac_len := by
    rw [List.length_append, haddr, hmac]
    rfl
  rw [hremove, postpullRcsum_data, hdata, ← List.append_assoc addresses, ← hlen, List.take_left, ← hlse, ← List.drop_drop,
    List.drop_left, List.drop_left, List.append_assoc]

theorem popLse_data (haddr : addresses.length = 12) (hlse : lse.length = mplsHlen) (hmac : skb.mac_len = ethHlen)
    (hdata : skb.data = addresses ++ (be16 type ++ (lse ++ rest))) (ethertype : BitVec 16) :
    (skb.popLse ops ethertype true).data = addresses ++ (be16 ethertype ++ rest) := by
  have hpop : (skb.popLse ops ethertype true).data =
    (updateEthertype ops (skb.removeLse ops) (skb.mac_len - 2) ethertype).data := rfl
  rw [hpop, hmac]
  exact updateEthertype_data haddr (removeLse_data haddr hlse hmac hdata) ethertype

theorem setMpls_cases (ops : CsumOps) (env : SkbEnv) (key mask : List (BitVec 8)) (st : SetState) :
    (setMpls ops env key mask st).1 ≠ 0 ∨ (setMpls ops env key mask st).1 = 0 ∧
      ∃ csum, (setMpls ops env key mask st).2 = ⟨{ st.skb with csum := csum }.put st.skb.mac_len
        (ovsMasked (st.skb.bytes st.skb.mac_len 4) (slice key 0 4) (slice mask 0 4)), st.flow_key.store [⟨356,
          ovsMasked (st.skb.bytes st.skb.mac_len 4) (slice key 0 4) (slice mask 0 4)⟩]⟩ := by
  unfold setMpls
  dsimp only
  split_ifs
  · exact .inl (by decide : enomem ≠ 0)
  · exact .inr ⟨rfl, _, rfl⟩
  · exact .inr ⟨rfl, _, rfl⟩

end

/-! ### What the actions are for -/

theorem LabelFrame.Held.isEthernet (h : f.Held st) : (ovsKeyMacProto st.flow_key == macProtoEthernet) = true := by
  rw [h.ethernet]
  rfl

theorem pushMpls_held {mpls_lse : Octets 4} {ethertype : BitVec 16} (h : f.Held st)
    (hok : (pushMpls ops env mpls_lse.1 ethertype st).1 = 0) :
    ({ f with type := ethertype, stack := mpls_lse :: f.stack } : LabelFrame).Held
      (pushMpls ops env mpls_lse.1 ethertype st).2 := by
  obtain ⟨herr, -⟩ | ⟨-, hkey, inner_network_header, hskb⟩ := pushMpls_cases ops env mpls_lse.1 ethertype st
  · exact absurd hok herr
  · rw [h.isEthernet] at hskb
    have hmac : ({ st.skb with inner_network_header := inner_network_header } : SkbState).mac_len = ethHlen :=
      h.mac_len
    refine ⟨?_, ?_, ?_, ?_⟩
    · rw [hskb]
      refine (pushLse_data f.addresses.2 hmac h.data ethertype).trans ?_
      rw [LabelFrame.bytes, List.flatMap_cons, List.append_assoc]
    · rw [hskb]
      exact (rewritten_postpushRcsum ops (fun _ => False) _ _ _).same.mac_len.trans h.mac_len
    · rw [hskb]
      rfl
    · rw [hkey, ovsKeyMacProto_invalidate, h.ethernet]

theorem popMpls_held {top : Octets 4} {rest : List (Octets 4)} {ethertype : BitVec 16} (h : f.Held st)
    (hstack : f.stack = top :: rest) (hmpls : ethPMpls f.type = true)
    (hok : (popMpls ops env ethertype st).1 = 0) :
    ({ f with type := ethertype, stack := rest } : LabelFrame).Held (popMpls ops env ethertype st).2 := by
  obtain ⟨herr, -⟩ | ⟨-, hkey, -, hskb⟩ := popMpls_cases ops env ethertype st
  · exact absurd hok herr
  · rw [h.isEthernet] at hskb
    have hpulled := (rewritten_postpullRcsum ops (fun _ => False) st.skb st.skb.mac_len mplsHlen).same
    have hdata := h.data
    rw [LabelFrame.bytes, hstack, List.flatMap_cons, List.append_assoc] at hdata
    refine ⟨?_, ?_, ?_, ?_⟩
    · rw [hskb, popLse_data f.addresses.2 top.2 h.mac_len hdata, LabelFrame.bytes]
    · rw [hskb]
      exact hpulled.mac_len.trans h.mac_len
    · have hprotocol : ethPMpls (st.skb.postpullRcsum ops st.skb.mac_len mplsHlen).protocol = true := by
        rw [hpulled.protocol, h.protocol, hmpls]
      rw [hskb]
      exact if_pos hprotocol
    · rw [hkey, ovsKeyMacProto_invalidate, h.ethernet]

theorem setMpls_held {top : Octets 4} {rest : List (Octets 4)} {data : List (BitVec 8)} (h : f.Held st)
    (hstack : f.stack = top :: rest)
    (hok : (setMpls ops env.toSkbEnv (data.take 4) (data.drop 4) st.toSetState).1 = 0) :
    ({ f with stack := LabelFrame.maskTop top data :: rest } : LabelFrame).Held
      { st with toSetState := (setMpls ops env.toSkbEnv (data.take 4) (data.drop 4) st.toSetState).2 } := by
  obtain herr | ⟨-, csum, hset⟩ := setMpls_cases ops env.toSkbEnv (data.take 4) (data.drop 4) st.toSetState
  · exact absurd hok herr
  · have hdata := h.data
    rw [LabelFrame.bytes, hstack, List.flatMap_cons, List.append_assoc, ← List.append_assoc f.addresses.1] at hdata
    have hmac : (f.addresses.1 ++ be16 f.type).length = st.skb.mac_len := by
      rw [List.length_append, f.addresses.2, h.mac_len]
      rfl
    have hlen : st.skb.mac_len + 4 ≤ st.skb.len := by
      have hskb : st.skb.len = st.skb.data.length := rfl
      rw [hskb, hdata, List.length_append, hmac, List.length_append, top.2]
      omega
    have hold : st.skb.bytes st.skb.mac_len 4 = top.1 := by
      rw [bytes_eq_take _ hlen, hdata, ← hmac, List.drop_left, List.take_left' top.2]
    rw [hset, hold]
    refine ⟨?_, h.mac_len, h.protocol, (ovsKeyMacProto_store _ _ (by decide)).trans h.ethernet⟩
    refine Eq.trans (b := patch st.skb.data st.skb.mac_len (LabelFrame.maskTop top data).1) rfl ?_
    rw [hdata, ← hmac, patch_append _ _ _ ((LabelFrame.maskTop top data).2.trans top.2.symm), LabelFrame.bytes,
      List.flatMap_cons, List.append_assoc, List.append_assoc]

/-- A set action that is one on the label stack. -/
theorem LabelFrame.edit_set {attr : List (BitVec 8)} (h : f.edit (.set attr) = some f') :
    ∃ data top rest, setKey attr = some (.mpls, data) ∧ f.stack = top :: rest ∧
      { f with stack := maskTop top data :: rest } = f' := by
  unfold LabelFrame.edit at h
  dsimp only at h
  split at h
  · next data top rest hset hstack => exact ⟨data, top, rest, hset, hstack, Option.some.inj h⟩
  · cases h

/-- An entry that can be popped. -/
theorem LabelFrame.edit_pop {ethertype : BitVec 16} (h : f.edit (.popMpls ethertype) = some f') :
    ∃ top rest, f.stack = top :: rest ∧ ethPMpls f.type = true ∧
      { f with type := ethertype, stack := rest } = f' := by
  cases hstack : f.stack with
  | nil =>
      rw [LabelFrame.edit, hstack] at h
      cases h
  | cons top rest =>
      rw [LabelFrame.edit, hstack] at h
      obtain ⟨hmpls, hsome⟩ := Option.ite_none_right_eq_some.mp h
      exact ⟨top, rest, rfl, hmpls, Option.some.inj hsome⟩

/-- **An action on the packet is the action on the frame.** -/
theorem doEdit_label (a : Edit) (h : f.Held st) (hedit : f.edit a = some f') (hok : (doEdit ops env st a).1 = 0) :
    f'.Held (doEdit ops env st a).2 := by
  cases a with
  | pushMpls mpls_lse mpls_ethertype =>
      obtain rfl := Option.some.inj hedit
      exact pushMpls_held h hok
  | popMpls ethertype =>
      obtain ⟨top, rest, hstack, hmpls, rfl⟩ := LabelFrame.edit_pop hedit
      exact popMpls_held h hstack hmpls hok
  | set attr =>
      obtain ⟨data, top, rest, hset, hstack, rfl⟩ := LabelFrame.edit_set hedit
      rw [doEdit, executeMaskedSetAction, hset] at hok ⊢
      exact setMpls_held h hstack hok
  | pushVlan vlan_tpid vlan_tci => cases hedit
  | popVlan => cases hedit
  | pushEth eth_src eth_dst => cases hedit
  | popEth => cases hedit

/-- An action that pushes an entry or pops one. -/
def Edit.PushOrPop : Edit → Prop
  | .pushMpls .. | .popMpls .. => True
  | _ => False

theorem LabelFrame.Held.onesOf_type (h : f.Held st) : onesOf (st.skb.be16At 12) = onesOf f.type := by
  have hdata : st.skb.data = f.addresses.1 ++ (be16 f.type ++ (f.stack.flatMap Subtype.val ++ f.payload)) := h.data
  have hlen : 12 + 2 ≤ st.skb.len := by
    have hskb : st.skb.len = st.skb.data.length := rfl
    rw [hskb, hdata, List.length_append, f.addresses.2, List.length_append, be16_length]
    omega
  rw [onesOf_be16At, bytes_eq_take _ hlen, hdata, List.drop_left' f.addresses.2, List.take_left' (be16_length _),
    byteSum_be16]

variable {order : OnesSum}

theorem doEdit_label_drift (hops : ops.Sound order) {a : Edit} (ha : a.PushOrPop) (h : f.Held st)
    (hplaced : Placed st.skb) (hedit : f.edit a = some f') (hok : (doEdit ops env st a).1 = 0) :
    Drifted order (2 * (onesOf f.type - onesOf f'.type)) st.skb (doEdit ops env st a).2.skb := by
  have hfits : ovsKeyMacProto st.flow_key = macProtoEthernet → ethHlen ≤ st.skb.mac_len := fun _ => h.mac_len.ge
  cases a with
  | pushMpls mpls_lse mpls_ethertype =>
      obtain rfl := Option.some.inj hedit
      have hdrift := @doEdit_drift ops env order st hops hplaced (.pushMpls mpls_lse mpls_ethertype) hfits
      have hslip : (Edit.pushMpls mpls_lse mpls_ethertype).slip ops env st =
          ethertypeSlip (ovsKeyMacProto st.flow_key == macProtoEthernet) (st.skb.be16At 12) mpls_ethertype := if_pos hok
      rw [hslip, ethertypeSlip, if_pos h.isEthernet, h.onesOf_type] at hdrift
      exact hdrift
  | popMpls ethertype =>
      obtain ⟨top, rest, hstack, hmpls, rfl⟩ := LabelFrame.edit_pop hedit
      have hdrift := @doEdit_drift ops env order st hops hplaced (.popMpls ethertype) hfits
      have hslip : (Edit.popMpls ethertype).slip ops env st = ethertypeSlip
          (ovsKeyMacProto st.flow_key == macProtoEthernet) (st.skb.be16At (st.skb.mac_len - 2)) ethertype := if_pos hok
      rw [hslip, ethertypeSlip, if_pos h.isEthernet, h.mac_len] at hdrift
      rw [← h.onesOf_type]
      exact hdrift
  | _ => exact ha.elim

/-- The mistakes add up to one between the first and the last ethertype. -/
theorem drifted_labels (hops : ops.Sound order) (l : List (EditEnv × Edit)) (hl : ∀ p ∈ l, p.2.PushOrPop)
    (h : f.Held st) (hplaced : Placed st.skb) (hedits : f.edits l = some f') (hok : (doEdits ops st l).1 = 0) :
    Drifted order (2 * (onesOf f.type - onesOf f'.type)) st.skb (doEdits ops st l).2.skb := by
  induction l generalizing st f with
  | nil =>
      obtain rfl := Option.some.inj hedits
      have hrefl := Drifted.refl order hplaced
      rwa [← mul_zero 2, ← sub_self (onesOf f.type)] at hrefl
  | cons first rest ih =>
      obtain ⟨env, a⟩ := first
      obtain ⟨f₁, hedit, hrest⟩ := Option.bind_eq_some_iff.mp hedits
      by_cases hstep : (doEdit ops env st a).1 = 0
      · rw [doEdits, if_neg (not_not.mpr hstep)] at hok ⊢
        have hfirst := doEdit_label_drift hops (hl _ List.mem_cons_self) h hplaced hedit hstep
        have hall := hfirst.trans (ih (fun p hp => hl p (List.mem_cons_of_mem _ hp)) (doEdit_label a h hedit hstep)
          hfirst.placed hrest hok)
        rwa [← mul_add, sub_add_sub_cancel] at hall
      · rw [doEdits, if_pos hstep] at hok
        exact absurd hok hstep

/-- What `summedFrame` is. -/
def plainFrame : LabelFrame := ⟨⟨zeros 12, rfl⟩, ethPIp, [], List.replicate 20 1⟩

theorem held_summedFrame : plainFrame.Held summedFrame := ⟨by decide, rfl, rfl, by decide⟩

/-- The frame with the other ethertype. -/
theorem plainFrame_edits : plainFrame.edits labelAndBack = some { plainFrame with type := ethPIpv6 } := rfl

end OvsDatapath.Actions
