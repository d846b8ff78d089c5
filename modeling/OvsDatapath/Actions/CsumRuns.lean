import OvsDatapath.Actions.CompleteCsum

/-!
# The checksum of the whole packet, over a list of actions

What is pushed in front of a packet or pulled from it is added to its sum or taken away, so the drift changes by the
ethertype only, which `update_ethertype` accounts for the negative of (`doEdit_drift`). Together with the set actions,
it is known of every list of actions by how much it lets `skb->csum` drift (`doEdits_drift`).
-/

namespace OvsDatapath.Actions

open OvsDatapath.Lib OvsDatapath.Flow

/-- The drift has changed by so much, and the headers are still placed. -/
structure Drifted (order slip : OnesSum) (skb skb' : SkbState) : Prop where
  placed : Placed skb'
  drift : skb'.drift order = skb.drift order + slip

section

variable {ops : CsumOps} {env : EditEnv} {order slip slip' : OnesSum} {skb skb' skb'' : SkbState}
variable {st : EditState} {off n : Nat} {bytes : List (BitVec 8)}

theorem Drifted.refl (order : OnesSum) (h : Placed skb) : Drifted order 0 skb skb := ⟨h, (add_zero _).symm⟩

theorem Drifted.trans (h : Drifted order slip skb skb') (h' : Drifted order slip' skb' skb'') :
    Drifted order (slip + slip') skb skb'' := ⟨h'.placed, by rw [h'.drift, h.drift, add_assoc]⟩

theorem Balanced.drifted {rest : SkbState → OnesSum} (h : Placed skb) (hbal : Balanced order rest skb skb') :
    Drifted order (rest skb - rest skb') skb skb' := by
  refine ⟨h.balanced hbal, ?_⟩
  rw [← add_sub_assoc, ← hbal.drift]
  ring

/-! ### Headers that come and go -/

theorem insert_len (bytes : List (BitVec 8)) (hfit : off ≤ skb.len) : (skb.insert off bytes).len = skb.len + bytes.length := by
  have hdata : (skb.insert off bytes).data = skb.data.take off ++ (bytes ++ skb.data.drop off) := rfl
  have hlen : skb.len = skb.data.length := rfl
  rw [SkBuff.len, hdata, List.length_append, List.length_append, List.length_take, List.length_drop]
  omega

theorem remove_len (hfit : off + n ≤ skb.len) : (skb.remove off n).len = skb.len - n := by
  have hdata : (skb.remove off n).data = skb.data.take off ++ skb.data.drop (off + n) := rfl
  have hlen : skb.len = skb.data.length := rfl
  rw [SkBuff.len, hdata, List.length_append, List.length_take, List.length_drop]
  omega

theorem bytes_insert (bytes : List (BitVec 8)) (hfit : off ≤ skb.len) : (skb.insert off bytes).bytes off bytes.length = bytes := by
  have hlen := insert_len bytes hfit
  have hdata : (skb.insert off bytes).data = skb.data.take off ++ (bytes ++ skb.data.drop off) := rfl
  have htake : (skb.data.take off).length = off := List.length_take_of_le hfit
  rw [bytes_eq_take _ (by omega), hdata, List.drop_append_of_le_length (by omega), List.drop_of_length_le (by omega),
    List.nil_append, List.take_left]

theorem Placed.insert (h : Placed skb) (hbytes : bytes.length % 2 = 0) (hfit : off ≤ skb.len) :
    Placed (skb.insert off bytes) := by
  have hlen := insert_len bytes hfit
  have hmac := h.mac_len
  have hnetwork := h.network
  have htransport := h.transport
  have hmac_le := h.mac_len_le
  have hnetwork_le := h.network_le
  have htransport_le := h.transport_le
  have hmac' : (skb.insert off bytes).mac_len = skb.mac_len := rfl
  have hnetwork' : (skb.insert off bytes).network_header = skb.network_header + bytes.length := rfl
  have htransport' : (skb.insert off bytes).transport_header = skb.transport_header + bytes.length := rfl
  constructor <;> first | exact h.complete | omega

/-- A header has been removed. -/
theorem Placed.shortened (h : Placed skb) (hn : n % 2 = 0) (hlen : skb'.len + n = skb.len)
    (hmac : skb'.mac_len % 2 = 0) (hmac_le : skb'.mac_len ≤ skb'.len) (hnetwork : skb'.network_header % 2 = 0)
    (hnetwork_le : skb'.network_header ≤ skb'.len) (htransport : skb'.transport_header = skb.transport_header - n)
    (hsum : skb'.ip_summed = .checksumComplete) : Placed skb' where
  mac_len := hmac
  network := hnetwork
  transport := by
    have heven := h.transport
    omega
  mac_len_le := hmac_le
  network_le := hnetwork_le
  transport_le := by
    have hle := h.transport_le
    omega
  complete := hsum

/-- Only the sum changes. -/
theorem Placed.summed (h : Placed skb) (hsame : SameLayout skb skb') (hsum : skb'.ip_summed = .checksumComplete) :
    Placed skb' where
  mac_len := by rw [hsame.mac_len]; exact h.mac_len
  network := by rw [hsame.network_header]; exact h.network
  transport := by rw [hsame.transport_header]; exact h.transport
  mac_len_le := by rw [hsame.mac_len, hsame.len]; exact h.mac_len_le
  network_le := by rw [hsame.network_header, hsame.len]; exact h.network_le
  transport_le := by rw [hsame.transport_header, hsame.len]; exact h.transport_le
  complete := hsum

variable (hops : ops.Sound order)
include hops

/-- Bytes that are pushed are added to the sum. -/
theorem drifted_pushed (h : Placed skb) (hoff : off % 2 = 0) (hbytes : bytes.length % 2 = 0) (hfit : off ≤ skb.len) :
    Drifted order 0 skb ((skb.insert off bytes).postpushRcsum ops off bytes.length) := by
  have hplaced := h.insert hbytes hfit
  have hpushed : Rewritten [] (fun _ => False) _ ((skb.insert off bytes).postpushRcsum ops off bytes.length) :=
    rewritten_postpushRcsum ops _ _ off _
  refine ⟨hplaced.summed hpushed.same.layout (complete_postpushRcsum hplaced.complete), ?_⟩
  rw [drift_postpushRcsum hops hplaced.complete hbytes, drift_insert hoff hbytes hfit, bytes_insert bytes hfit]
  ring

/-- Bytes that are pulled are taken out of the sum before. -/
theorem drift_pulled (off n : Nat) (h : Placed skb) (hoff : off % 2 = 0) (hn : n % 2 = 0) (hfit : off + n ≤ skb.len) :
    ((skb.postpullRcsum ops off n).remove off n).drift order = skb.drift order := by
  have hpulled : Rewritten [] (fun _ => False) skb (skb.postpullRcsum ops off n) :=
    rewritten_postpullRcsum ops _ skb off n
  have hbytes : (skb.postpullRcsum ops off n).bytes off n = skb.bytes off n :=
    bytes_congr_of fun j _ => hpulled.u8 not_false
  rw [drift_remove hoff hn (by rw [hpulled.same.len]; exact hfit), drift_postpullRcsum hops h.complete hn, hbytes]
  ring

theorem drifted_updateEthertype (off : Nat) (h : Placed skb) (hoff : off % 2 = 0) (hfit : off + 2 ≤ skb.len)
    (ethertype : BitVec 16) :
    Drifted order (2 * (onesOf (skb.be16At off) - onesOf ethertype)) skb
      (updateEthertype ops skb off ethertype) := by
  have hsame : SameLayout skb (updateEthertype ops skb off ethertype) := ⟨SkbState.put_len _ _ _, rfl, rfl, rfl⟩
  exact ⟨h.summed hsame h.complete, drift_updateEthertype hops h.complete hoff hfit ethertype⟩

omit hops in
/-- Neither the packet nor its layout, nor what has been summed up, changes. -/
theorem Drifted.unchanged (h : Drifted order slip skb skb') (hdata : skb''.data = skb'.data)
    (hcsum : skb''.csum = skb'.csum) (hmac : skb''.mac_len = skb'.mac_len)
    (hnetwork : skb''.network_header = skb'.network_header)
    (htransport : skb''.transport_header = skb'.transport_header) (hsum : skb''.ip_summed = skb'.ip_summed) :
    Drifted order slip skb skb'' := by
  have hlen : skb''.len = skb'.len := congrArg List.length hdata
  refine ⟨h.placed.summed ⟨hlen, hmac, hnetwork, htransport⟩ (hsum.trans h.placed.complete), ?_⟩
  rw [← h.drift, SkbState.drift, SkbState.drift, hdata, hcsum]

/-! ### The actions -/

omit hops in
theorem u8_insert {j : Nat} (hj : j < off) (hfit : off ≤ skb.len) : (skb.insert off bytes).u8 j = skb.u8 j := by
  have hdata : (skb.insert off bytes).data = skb.data.take off ++ (bytes ++ skb.data.drop off) := rfl
  have htake : (skb.data.take off).length = off := List.length_take_of_le hfit
  rw [SkBuff.u8, SkBuff.u8, hdata, List.getD_eq_getElem?_getD, List.getD_eq_getElem?_getD,
    List.getElem?_append_left (by omega), List.getElem?_take_of_lt hj]

theorem drifted_pushLse {mpls_lse : List (BitVec 8)} {ethernet : Bool} (ethertype : BitVec 16) (h : Placed skb)
    (hlse : mpls_lse.length = mplsHlen) (hmac : ethernet = true → 14 ≤ skb.mac_len) :
    Drifted order (ethertypeSlip ethernet (skb.be16At 12) ethertype) skb
      (skb.pushLse ops mpls_lse ethertype ethernet) := by
  have hpush : Drifted order 0 skb
      ((skb.insert skb.mac_len mpls_lse).postpushRcsum ops skb.mac_len mpls_lse.length) :=
    drifted_pushed hops h h.mac_len (by rw [hlse]; rfl) h.mac_len_le
  rw [hlse] at hpush
  have hpushed : Rewritten [] (fun _ => False) (skb.insert skb.mac_len mpls_lse)
      ((skb.insert skb.mac_len mpls_lse).postpushRcsum ops skb.mac_len mplsHlen) :=
    rewritten_postpushRcsum ops _ _ _ _
  cases ethernet with
  | false => exact hpush.unchanged rfl rfl rfl rfl rfl rfl
  | true =>
      have hbehind := hmac rfl
      have hfit : 12 + 2 ≤ ((skb.insert skb.mac_len mpls_lse).postpushRcsum ops skb.mac_len mplsHlen).len := by
        have hmac_le := h.mac_len_le
        rw [hpushed.same.len, insert_len _ h.mac_len_le]
        omega
      have htype : ((skb.insert skb.mac_len mpls_lse).postpushRcsum ops skb.mac_len mplsHlen).be16At 12 =
          skb.be16At 12 := by
        refine be16At_congr fun j hj => ?_
        have hend := hj.2
        rw [hpushed.u8 not_false, u8_insert (by omega) h.mac_len_le]
      have hupdate := hpush.trans (drifted_updateEthertype hops 12 hpush.placed rfl hfit ethertype)
      rw [zero_add, htype] at hupdate
      exact hupdate.unchanged rfl rfl rfl rfl rfl rfl

omit hops in
theorem u8_remove {j : Nat} (hj : j < off) (hfit : off ≤ skb.len) : (skb.remove off n).u8 j = skb.u8 j := by
  have hdata : (skb.remove off n).data = skb.data.take off ++ skb.data.drop (off + n) := rfl
  have htake : (skb.data.take off).length = off := List.length_take_of_le hfit
  rw [SkBuff.u8, SkBuff.u8, hdata, List.getD_eq_getElem?_getD, List.getD_eq_getElem?_getD,
    List.getElem?_append_left (by omega), List.getElem?_take_of_lt hj]

omit hops in
/-- The label stack entry is gone, and what is before it is not. -/
theorem removeLse_len (ops : CsumOps) (hfit : skb.mac_len + mplsHlen ≤ skb.len) :
    (skb.removeLse ops).len = skb.len - mplsHlen := by
  have hpulled : Rewritten [] (fun _ => False) skb (skb.postpullRcsum ops skb.mac_len mplsHlen) :=
    rewritten_postpullRcsum ops _ skb _ _
  rw [← hpulled.same.len]
  exact remove_len (by rw [hpulled.same.len]; exact hfit)

omit hops in
theorem u8_removeLse {j : Nat} (hj : j < skb.mac_len) (hfit : skb.mac_len ≤ skb.len) :
    (skb.removeLse ops).u8 j = skb.u8 j := by
  have hpulled : Rewritten [] (fun _ => False) skb (skb.postpullRcsum ops skb.mac_len mplsHlen) :=
    rewritten_postpullRcsum ops _ skb _ _
  rw [← hpulled.u8 not_false]
  exact u8_remove hj (by rw [hpulled.same.len]; exact hfit)

theorem drifted_removeLse (h : Placed skb) (hfit : skb.mac_len + mplsHlen ≤ skb.len) :
    Drifted order 0 skb (skb.removeLse ops) := by
  have hpulled : Rewritten [] (fun _ => False) skb (skb.postpullRcsum ops skb.mac_len mplsHlen) :=
    rewritten_postpullRcsum ops _ skb _ _
  have hlen := removeLse_len ops hfit
  have hmac : (skb.removeLse ops).mac_len = skb.mac_len := hpulled.same.mac_len
  have hnetwork : (skb.removeLse ops).network_header = skb.mac_len := rfl
  have htransport : (skb.removeLse ops).transport_header = skb.transport_header - mplsHlen :=
    congrArg (· - mplsHlen) hpulled.same.transport_header
  have heven := h.mac_len
  refine ⟨h.shortened rfl ?_ ?_ ?_ ?_ ?_ htransport (complete_postpullRcsum h.complete), ?_⟩
  · omega
  · rwa [hmac]
  · omega
  · rwa [hnetwork]
  · omega
  · rw [add_zero]
    exact drift_pulled hops _ _ h h.mac_len rfl hfit

theorem drifted_popLse {ethernet : Bool} (ethertype : BitVec 16) (h : Placed skb)
    (hfit : skb.mac_len + mplsHlen ≤ skb.len) (hmac : ethernet = true → 14 ≤ skb.mac_len) :
    Drifted order (ethertypeSlip ethernet (skb.be16At (skb.mac_len - 2)) ethertype) skb
      (skb.popLse ops ethertype ethernet) := by
  have hremove := drifted_removeLse hops h hfit
  cases ethernet with
  | false => exact hremove.unchanged rfl rfl rfl rfl rfl rfl
  | true =>
      have hbehind := hmac rfl
      have heven := h.mac_len
      have hshort := removeLse_len ops hfit
      have htype : (skb.removeLse ops).be16At (skb.mac_len - 2) = skb.be16At (skb.mac_len - 2) := by
        refine be16At_congr fun j hj => u8_removeLse ?_ h.mac_len_le
        have hend := hj.2
        omega
      have hupdate := hremove.trans (drifted_updateEthertype hops (skb.mac_len - 2) hremove.placed (by omega)
        (by omega) ethertype)
      rw [zero_add, htype] at hupdate
      exact hupdate.unchanged rfl rfl rfl rfl rfl rfl

/-! ### VLAN tags and Ethernet headers -/

theorem drifted_skbVlanPopTag (env : SkbEnv) (h : Placed skb) :
    Drifted order 0 skb (skbVlanPopTag ops env skb).2.1 := by
  unfold skbVlanPopTag
  split_ifs with hwritable
  · exact .refl order h
  · have hfit : vlanEthHlen ≤ skb.len := ensureWritable_le (by simpa using hwritable)
    unfold vlanEthHlen at hfit
    have hpulled : Rewritten [] (fun _ => False) skb (skb.postpullRcsum ops 12 4) :=
      rewritten_postpullRcsum ops _ skb _ _
    have hlen : ((skb.postpullRcsum ops 12 4).remove 12 4).len = skb.len - 4 := by
      rw [← hpulled.same.len]
      exact remove_len (by rw [hpulled.same.len]; omega)
    have hnetwork : ((skb.postpullRcsum ops 12 4).remove 12 4).network_header = skb.network_header - 4 :=
      congrArg (· - 4) hpulled.same.network_header
    have htransport : ((skb.postpullRcsum ops 12 4).remove 12 4).transport_header = skb.transport_header - 4 :=
      congrArg (· - 4) hpulled.same.transport_header
    have hdrift := drift_pulled hops 12 4 h rfl rfl (by omega)
    have hsum : ((skb.postpullRcsum ops 12 4).remove 12 4).ip_summed = .checksumComplete :=
      complete_postpullRcsum h.complete
    generalize (skb.postpullRcsum ops 12 4).remove 12 4 = popped at hlen hnetwork htransport hdrift hsum
    have heven := h.network
    have hle := h.network_le
    have hnh : (if popped.network_header < ethHlen then ethHlen else popped.network_header) % 2 = 0 ∧
        (if popped.network_header < ethHlen then ethHlen else popped.network_header) ≤ popped.len := by
      unfold ethHlen
      split_ifs <;> omega
    refine ⟨h.shortened (rfl : 4 % 2 = 0) ?_ hnh.1 hnh.2 hnh.1 hnh.2 htransport hsum, ?_⟩
    · exact (congrArg (· + 4) hlen).trans (by omega)
    · rw [add_zero, ← hdrift]
      rfl

theorem drifted_skbVlanNextTag (env : SkbEnv) (h : Placed skb) :
    Drifted order 0 skb (skbVlanNextTag ops env skb).2 := by
  have hpop := drifted_skbVlanPopTag hops env h
  unfold skbVlanNextTag
  dsimp only
  split_ifs
  · exact .refl order h
  · exact hpop
  · exact hpop.unchanged rfl rfl rfl rfl rfl rfl

theorem drifted_skbVlanPop (h : Placed skb) : Drifted order 0 skb (skbVlanPop ops env skb).2 := by
  have hpop := drifted_skbVlanPopTag hops env.toSkbEnv h
  have hclear : Drifted order 0 skb { skb with vlan_tci := 0 } :=
    (Drifted.refl order h).unchanged rfl rfl rfl rfl rfl rfl
  unfold skbVlanPop
  dsimp only
  split_ifs
  · have hboth := hclear.trans (drifted_skbVlanNextTag hops env.next_tag hclear.placed)
    rwa [add_zero] at hboth
  · exact .refl order h
  · exact hpop
  · have hboth := hpop.trans (drifted_skbVlanNextTag hops env.next_tag hpop.placed)
    rwa [add_zero] at hboth

/-- What `csum_add` adds is the sum of the tag. -/
theorem order_csum_add (csum : BitVec 32) (hbytes : bytes.length % 2 = 0) :
    order * onesOf (ops.csum_sub csum (~~~ops.csum_partial bytes 0)) = order * onesOf csum + byteSum bytes := by
  rw [hops.csum_sub, onesOf_not32, sub_neg_eq_add, mul_add, order_csum_partial_zero hops hbytes]

theorem drifted_insertTag (h : Placed skb) (hfit : 12 ≤ skb.len) : Drifted order 0 skb (skb.insertTag ops) := by
  unfold SkbState.insertTag
  dsimp only
  generalize htag : be16 skb.vlan_proto ++ be16 (skb.vlan_tci &&& ~~~vlanTagPresent) = tag
  have htag_len : tag.length = 4 := by
    rw [← htag]
    rfl
  have heven : tag.length % 2 = 0 := by rw [htag_len]
  have hbytes := bytes_insert tag hfit
  have hinserted := h.insert heven hfit
  have hlen := insert_len tag hfit
  have hmac := h.mac_len
  have hmac_le := h.mac_len_le
  rw [htag_len] at hbytes hlen
  refine ⟨⟨?_, hinserted.network, hinserted.transport, ?_, hinserted.network_le, hinserted.transport_le,
    hinserted.complete⟩, ?_⟩
  · exact (by omega : (skb.mac_len + 4) % 2 = 0)
  · exact (by omega : skb.mac_len + 4 ≤ skb.len + 4).trans hlen.ge
  · rw [if_pos hinserted.complete, hbytes]
    have hdata := drift_of_data order (skb.insert 12 tag) { skb.insert 12 tag with
      mac_len := (skb.insert 12 tag).mac_len + 4
      csum := ops.csum_sub (skb.insert 12 tag).csum (~~~ops.csum_partial tag 0) } rfl
    rw [hdata, drift_insert rfl heven hfit, order_csum_add hops _ heven]
    ring

theorem drifted_skbVlanPush {vlan_proto vlan_tci : BitVec 16} (h : Placed skb) (hfit : 12 ≤ skb.len) :
    Drifted order 0 skb (skbVlanPush ops env vlan_proto vlan_tci skb).2 := by
  unfold skbVlanPush
  dsimp only
  split_ifs
  · exact .refl order h
  · exact (drifted_insertTag hops h hfit).unchanged rfl rfl rfl rfl rfl rfl
  · exact (Drifted.refl order h).unchanged rfl rfl rfl rfl rfl rfl

omit hops in
theorem pullRcsum_complete (hsum : skb.ip_summed = .checksumComplete) :
    skb.pullRcsum ops n = (skb.postpullRcsum ops 0 n).remove 0 n := by
  obtain ⟨base, summed, csum, csum_start, hash, l4_hash, priority, mark⟩ := skb
  subst hsum
  rfl

omit hops in
theorem resetMacLen_postpush (skb : SkbState) :
    skb.resetMacLen.postpushRcsum ops off n = (skb.postpushRcsum ops off n).resetMacLen := by
  obtain ⟨base, summed, csum, csum_start, hash, l4_hash, priority, mark⟩ := skb
  cases summed <;> rfl

omit hops in
theorem Drifted.resetMacLen (h : Drifted order slip skb skb') : Drifted order slip skb skb'.resetMacLen :=
  ⟨⟨h.placed.network, h.placed.network, h.placed.transport, h.placed.network_le, h.placed.network_le,
    h.placed.transport_le, h.placed.complete⟩, h.drift⟩

theorem drifted_popEth (h : Placed st.skb) (hfit : ethHlen ≤ st.skb.len) :
    Drifted order 0 st.skb (popEth ops st).2.skb := by
  unfold ethHlen at hfit
  have hpulled : Rewritten [] (fun _ => False) st.skb (st.skb.postpullRcsum ops 0 14) :=
    rewritten_postpullRcsum ops _ st.skb _ _
  have hnetwork : ((st.skb.postpullRcsum ops 0 14).remove 0 14).network_header = st.skb.network_header - 14 :=
    congrArg (· - 14) hpulled.same.network_header
  have htransport : ((st.skb.postpullRcsum ops 0 14).remove 0 14).transport_header = st.skb.transport_header - 14 :=
    congrArg (· - 14) hpulled.same.transport_header
  have hlen : ((st.skb.postpullRcsum ops 0 14).remove 0 14).len = st.skb.len - 14 := by
    rw [← hpulled.same.len]
    exact remove_len (by rw [hpulled.same.len]; omega)
  have hdrift := drift_pulled hops 0 14 h rfl rfl (by omega)
  have hsum : ((st.skb.postpullRcsum ops 0 14).remove 0 14).ip_summed = .checksumComplete :=
    complete_postpullRcsum h.complete
  have heven := h.network
  have hle := h.network_le
  unfold popEth
  dsimp only
  rw [pullRcsum_complete h.complete, ethHlen]
  generalize (st.skb.postpullRcsum ops 0 14).remove 0 14 = popped at hnetwork htransport hlen hdrift hsum ⊢
  refine ⟨h.shortened (rfl : 14 % 2 = 0) ?_ ?_ ?_ ?_ ?_ htransport hsum, hdrift.trans (add_zero _).symm⟩
  · exact (congrArg (· + 14) hlen).trans (by omega)
  · exact (by omega : popped.network_header % 2 = 0)
  · exact (by omega : popped.network_header ≤ popped.len)
  · exact (by omega : popped.network_header % 2 = 0)
  · exact (by omega : popped.network_header ≤ popped.len)

theorem drifted_pushEth {eth_src eth_dst : Octets 6} (h : Placed st.skb) :
    Drifted order 0 st.skb (pushEth ops env eth_src eth_dst st).2.skb := by
  have hlen : (eth_dst.1 ++ (eth_src.1 ++ be16 st.skb.protocol)).length = ethHlen := by
    rw [List.length_append, List.length_append, eth_dst.2, eth_src.2]
    rfl
  unfold pushEth
  split_ifs
  · exact .refl order h
  · dsimp only
    rw [resetMacLen_postpush, ← hlen]
    exact (drifted_pushed hops h rfl (by rw [hlen]; rfl) (Nat.zero_le _)).resetMacLen

end

/-! ### Lists of actions -/

/-- The header that an action takes away or writes into is there: what is an Ethernet frame by its key has a MAC
header, and the transport header is behind a header of IPv6. -/
def Edit.Fits (st : EditState) : Edit → Prop
  | .set attr => ∀ data, setKey attr = some (.ipv6, data) → st.skb.network_header + 40 ≤ st.skb.transport_header
  | .pushMpls .. | .popMpls .. => ovsKeyMacProto st.flow_key = macProtoEthernet → ethHlen ≤ st.skb.mac_len
  | .pushVlan .. => 12 ≤ st.skb.len
  | .popEth => ethHlen ≤ st.skb.len
  | _ => True

variable (ops : CsumOps)

/-- What an action adds to the drift. -/
def Edit.slip (env : EditEnv) (st : EditState) : Edit → OnesSum
  | .set attr => setRest attr st.skb st.skb -
      setRest attr st.skb (executeMaskedSetAction ops env.toSkbEnv attr st.toSetState).2.skb
  | .pushMpls mpls_lse mpls_ethertype =>
      if (Actions.pushMpls ops env mpls_lse mpls_ethertype st).1 = 0
      then ethertypeSlip (ovsKeyMacProto st.flow_key == macProtoEthernet) (st.skb.be16At 12) mpls_ethertype else 0
  | .popMpls ethertype =>
      if (Actions.popMpls ops env ethertype st).1 = 0
      then ethertypeSlip (ovsKeyMacProto st.flow_key == macProtoEthernet) (st.skb.be16At (st.skb.mac_len - 2))
        ethertype else 0
  | _ => 0

/-- Each action fits when it is its turn. -/
def EditsFit (st : EditState) : List (EditEnv × Edit) → Prop
  | [] => True
  | (env, a) :: rest => a.Fits st ∧ ((doEdit ops env st a).1 = 0 → EditsFit (doEdit ops env st a).2 rest)

/-- What a list of actions adds to the drift. -/
def editsSlip (st : EditState) : List (EditEnv × Edit) → OnesSum
  | [] => 0
  | (env, a) :: rest => a.slip ops env st +
      if (doEdit ops env st a).1 = 0 then editsSlip (doEdit ops env st a).2 rest else 0

section

variable {ops} {env : EditEnv} {order : OnesSum} {st : EditState}

/-- `push_mpls` fails and leaves the packet, or puts the label stack entry into it. -/
theorem pushMpls_cases (ops : CsumOps) (env : EditEnv) (mpls_lse : List (BitVec 8)) (ethertype : BitVec 16)
    (st : EditState) :
    (pushMpls ops env mpls_lse ethertype st).1 ≠ 0 ∧ (pushMpls ops env mpls_lse ethertype st).2.skb = st.skb ∨
      (pushMpls ops env mpls_lse ethertype st).1 = 0 ∧
        (pushMpls ops env mpls_lse ethertype st).2.flow_key = invalidateFlowKey st.flow_key ∧
        ∃ inner_network_header, (pushMpls ops env mpls_lse ethertype st).2.skb =
          { st.skb with inner_network_header := inner_network_header }.pushLse ops mpls_lse ethertype
            (ovsKeyMacProto st.flow_key == macProtoEthernet) := by
  unfold pushMpls
  split_ifs
  · exact .inl ⟨(by decide : enotsupp ≠ 0), rfl⟩
  · exact .inl ⟨(by decide : enomem ≠ 0), rfl⟩
  · refine .inr ⟨rfl, rfl, ?_⟩
    dsimp only
    split_ifs
    · exact ⟨_, rfl⟩
    · exact ⟨st.skb.inner_network_header, rfl⟩

theorem popMpls_cases (ops : CsumOps) (env : EditEnv) (ethertype : BitVec 16) (st : EditState) :
    (popMpls ops env ethertype st).1 ≠ 0 ∧ (popMpls ops env ethertype st).2.skb = st.skb ∨
      (popMpls ops env ethertype st).1 = 0 ∧
        (popMpls ops env ethertype st).2.flow_key = invalidateFlowKey st.flow_key ∧
        st.skb.mac_len + mplsHlen ≤ st.skb.len ∧
        (popMpls ops env ethertype st).2.skb =
          st.skb.popLse ops ethertype (ovsKeyMacProto st.flow_key == macProtoEthernet) := by
  unfold popMpls
  split_ifs with hwritable
  · exact .inl ⟨(by decide : enomem ≠ 0), rfl⟩
  · exact .inr ⟨rfl, rfl, ensureWritable_le (by simpa using hwritable), rfl⟩

/-- **What an action does to the sum of the whole packet.** -/
theorem doEdit_drift (hops : ops.Sound order) (h : Placed st.skb) {a : Edit} (hfits : a.Fits st) :
    Drifted order (a.slip ops env st) st.skb (doEdit ops env st a).2.skb := by
  have hmac : ∀ {n : Nat}, (ovsKeyMacProto st.flow_key = macProtoEthernet → ethHlen ≤ n) →
      (ovsKeyMacProto st.flow_key == macProtoEthernet) = true → 14 ≤ n := fun hle hether => hle (eq_of_beq hether)
  cases a with
  | set attr => exact (balanced_executeMaskedSetAction hops h hfits).drifted h
  | pushMpls mpls_lse mpls_ethertype =>
      unfold Edit.slip doEdit
      dsimp only
      obtain ⟨herr, hskb⟩ | ⟨hok, -, inner_network_header, hskb⟩ := pushMpls_cases ops env mpls_lse.1 mpls_ethertype st
      · rw [if_neg herr, hskb]
        exact .refl order h
      · rw [if_pos hok, hskb]
        have hinner : Drifted order 0 st.skb { st.skb with inner_network_header := inner_network_header } :=
          (Drifted.refl order h).unchanged rfl rfl rfl rfl rfl rfl
        have hpush := hinner.trans (drifted_pushLse hops mpls_ethertype hinner.placed mpls_lse.2 (hmac hfits))
        rwa [zero_add] at hpush
  | popMpls ethertype =>
      unfold Edit.slip doEdit
      dsimp only
      obtain ⟨herr, hskb⟩ | ⟨hok, -, hfit, hskb⟩ := popMpls_cases ops env ethertype st
      · rw [if_neg herr, hskb]
        exact .refl order h
      · rw [if_pos hok, hskb]
        exact drifted_popLse hops ethertype h hfit (hmac hfits)
  | pushVlan vlan_tpid vlan_tci => exact drifted_skbVlanPush hops h hfits
  | popVlan => exact drifted_skbVlanPop hops h
  | pushEth eth_src eth_dst => exact drifted_pushEth hops h
  | popEth => exact drifted_popEth hops h hfits

/-- **What a list of actions does to the sum of the whole packet.** -/
theorem doEdits_drift (hops : ops.Sound order) (edits : List (EditEnv × Edit)) (h : Placed st.skb)
    (hfit : EditsFit ops st edits) :
    Drifted order (editsSlip ops st edits) st.skb (doEdits ops st edits).2.skb := by
  induction edits generalizing st with
  | nil => exact .refl order h
  | cons first rest ih =>
      obtain ⟨env, a⟩ := first
      have hstep : Drifted order (a.slip ops env st) st.skb (doEdit ops env st a).2.skb := doEdit_drift hops h hfit.1
      rw [doEdits, editsSlip]
      by_cases hok : (doEdit ops env st a).1 = 0
      · rw [if_neg (not_not.mpr hok), if_pos hok]
        exact hstep.trans (ih hstep.placed (hfit.2 hok))
      · rw [if_pos hok, if_neg hok, add_zero]
        exact hstep

end

/-! ### A label for a frame -/

/-- A frame of 34 bytes that has been summed up. -/
def summedFrame : EditState where
  skb :=
    { data := zeros 12 ++ [8, 0] ++ List.replicate 20 1
      protocol := ethPIp
      vlan_tci := 0
      vlan_proto := 0
      gso_udp := false
      mac_len := 14
      network_header := 14
      transport_header := 34
      inner_network_header := 0
      ip_summed := .checksumComplete
      csum := 0x120A
      csum_start := 0
      hash := 0
      l4_hash := false
      priority := 0
      mark := 0 }
  flow_key := SwFlowKey.setMacProto (fun _ => 0) macProtoEthernet
  encapsulation := false
  inner_protocol := 0

/-- The kernel has memory. -/
def ampleEdits : EditEnv where
  toSkbEnv := plainEnv
  next_tag := plainEnv
  cow_head := true

/-- A label, and another ethertype when it is taken away. -/
def labelAndBack : List (EditEnv × Edit) :=
  [(ampleEdits, .pushMpls ⟨[0, 1, 1, 64], rfl⟩ 0x8847), (ampleEdits, .popMpls ethPIpv6)]

theorem doEdits_drift_label : Drifted 1 (editsSlip foldedOps summedFrame labelAndBack) summedFrame.skb
    (doEdits foldedOps summedFrame labelAndBack).2.skb :=
  doEdits_drift foldedOps_sound labelAndBack
    ⟨by decide, by decide, by decide, by decide, by decide, by decide, rfl⟩
    ⟨fun _ => by decide, fun _ => ⟨fun _ => by decide, fun _ => trivial⟩⟩

end OvsDatapath.Actions
