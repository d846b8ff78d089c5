import OvsDatapath.Flow.NdOptions

/-!
# The label stack

The loop of `key_extract` over an MPLS label stack (`flow.c`) reads each entry at the offset of the inner
network header, and moves that behind the entry. It ends behind the first entry with the bottom-of-stack
bit, however many there are, and returns without an error wherever the packet ends.
-/

namespace OvsDatapath.Flow

open OvsDatapath.Lib Reading

/-- `MPLS_LS_S_MASK`: the entry at an offset is the bottom of the stack. -/
def SkBuff.bottomOfStack (skb : SkBuff) (off : Nat) : Bool := skb.u8 (off + 2) &&& 1 ≠ 0

section Stack

variable {env : SkbEnv} {skb : SkBuff}

theorem checkHeader_eq_zero {n : Nat} (hin : n ≤ skb.len) (hpull : env.may_pull n = true) :
    checkHeader env skb n = 0 := by
  unfold checkHeader SkBuff.pskbMayPull
  rw [if_neg (Nat.not_lt.mpr hin), hpull, decide_eq_true hin]
  rfl

/-- The loop goes on through `depth` entries that are not the bottom, and stops behind one that is. -/
theorem mplsStack_inner (env : SkbEnv) (depth fuel stack_len : Nat) (skb : SkBuff)
    (hinner : skb.inner_network_header + mplsHlen = skb.mac_len + stack_len) (hfuel : depth < fuel)
    (hin : skb.mac_len + stack_len + mplsHlen * depth ≤ skb.len)
    (hpull : ∀ n, n ≤ skb.mac_len + stack_len + mplsHlen * depth → env.may_pull n = true)
    (hbottom : skb.bottomOfStack (skb.inner_network_header + mplsHlen * depth))
    (hfirst : ∀ i < depth, ¬ skb.bottomOfStack (skb.inner_network_header + mplsHlen * i)) :
    (mplsStack env fuel stack_len skb).inner_network_header = skb.mac_len + stack_len + mplsHlen * depth := by
  unfold mplsHlen at *
  induction depth generalizing fuel stack_len skb with
  | zero =>
      obtain ⟨fuel, rfl⟩ := Nat.exists_eq_succ_of_ne_zero (Nat.ne_of_gt hfuel)
      have hcheck : checkHeader env skb (skb.mac_len + stack_len) = 0 := checkHeader_eq_zero hin (hpull _ le_rfl)
      rw [mplsStack, if_neg (not_not.mpr hcheck)]
      dsimp only
      rw [if_pos (of_decide_eq_true hbottom)]
      rfl
  | succ depth ih =>
      obtain ⟨fuel, rfl⟩ := Nat.exists_eq_succ_of_ne_zero (Nat.ne_of_gt (Nat.zero_lt_of_lt hfuel))
      have hcheck : checkHeader env skb (skb.mac_len + stack_len) = 0 :=
        checkHeader_eq_zero (by omega) (hpull _ (by omega))
      have hhere := hfirst 0 (Nat.succ_pos _)
      rw [mplsStack, if_neg (not_not.mpr hcheck)]
      dsimp only
      rw [if_neg fun hbit => hhere (decide_eq_true hbit)]
      -- the next entry is where the inner network header is now
      have hnext : ∀ i, skb.mac_len + stack_len + 4 * i = skb.inner_network_header + 4 * (i + 1) := by
        intro i
        omega
      refine (ih fuel (stack_len + 4) { skb with inner_network_header := skb.mac_len + stack_len }
        (by dsimp only; omega) (by omega) (by dsimp only; exact le_trans (by omega) hin)
        (fun n hn => hpull n (by dsimp only at hn; omega)) ?_ fun i hi => ?_).trans ?_
      · show skb.bottomOfStack (skb.mac_len + stack_len + 4 * depth) = true
        rw [hnext]
        exact hbottom
      · show ¬ skb.bottomOfStack (skb.mac_len + stack_len + 4 * i) = true
        rw [hnext]
        exact hfirst (i + 1) (Nat.succ_lt_succ hi)
      · dsimp only
        omega

end Stack

/-! ## Packets with an MPLS type -/

section Packets

variable {env : SkbEnv} {skb : SkBuff} {mac_proto : BitVec 8}

/-- The first entry with the bottom-of-stack bit in the packet, counted from zero. -/
structure FirstBottom (skb : SkBuff) (depth : Nat) : Prop where
  inside : skb.network_header + mplsHlen * (depth + 1) ≤ skb.len
  bottom : skb.bottomOfStack (skb.network_header + mplsHlen * depth)
  first : ∀ i < depth, ¬ skb.bottomOfStack (skb.network_header + mplsHlen * i)

/-- `pskb_may_pull` does not fail for as much of the packet. -/
def Pulls (env : SkbEnv) (n : Nat) : Prop := ∀ n', n' ≤ n → env.may_pull n' = true

/-- A packet without a link layer that is in order has no type. -/
theorem extractLinkLayer_type (h : (extractLinkLayer env skb mac_proto).1 ≠ 0) :
    packetType env skb mac_proto = 0 := by
  unfold packetType
  unfold extractLinkLayer at h ⊢
  dsimp only at h ⊢
  split_ifs at h ⊢
  · rfl
  · exact absurd rfl h
  · rfl
  · rfl
  · exact absurd rfl h

/-- Behind the link layer of an MPLS packet. -/
theorem keyExtract_of_mpls (h : ethPMpls (packetType env skb mac_proto) = true) :
    ∃ skb' stores, extractLinkLayer env skb mac_proto = (0, skb', packetType env skb mac_proto, stores) ∧
      keyExtract env skb mac_proto = (0, (extractMpls env skb').1, stores ++ (extractMpls env skb').2) := by
  have hlink : (extractLinkLayer env skb mac_proto).1 = 0 := by
    by_contra hne
    rw [extractLinkLayer_type hne] at h
    exact absurd h (by decide)
  obtain ⟨error, skb', eth_type, stores, heq⟩ : ∃ error skb' eth_type stores,
      extractLinkLayer env skb mac_proto = (error, skb', eth_type, stores) := ⟨_, _, _, _, rfl⟩
  have htype : packetType env skb mac_proto = eth_type := by rw [packetType, heq]
  rw [htype] at h ⊢
  obtain rfl : error = 0 := by rwa [heq] at hlink
  refine ⟨skb', stores, heq, ?_⟩
  have hip : eth_type ≠ ethPIp := by
    rintro rfl
    exact absurd h (by decide)
  have harp : ¬ (eth_type = ethPArp ∨ eth_type = ethPRarp) := by
    rintro (rfl | rfl) <;> exact absurd h (by decide)
  unfold keyExtract
  rw [heq]
  dsimp only
  rw [if_neg (not_not.mpr rfl), if_neg hip, if_neg harp, if_pos h]

theorem FirstBottom.le {depth : Nat} (h : FirstBottom skb depth) : skb.network_header + mplsHlen ≤ skb.len := by
  have hin := h.inside
  unfold mplsHlen at hin ⊢
  omega

theorem Pulls.mono {n n' : Nat} (h : Pulls env n) (hle : n' ≤ n) : Pulls env n' :=
  fun k hk => h k (hk.trans hle)

/-- The inner network header is behind the bottom of the stack. -/
theorem extractMpls_inner {depth : Nat} (hmac : skb.mac_len = skb.network_header) (h : FirstBottom skb depth)
    (hpull : Pulls env (skb.network_header + mplsHlen * (depth + 1))) :
    (extractMpls env skb).1.inner_network_header = skb.network_header + mplsHlen * (depth + 1) := by
  have hin := h.inside
  have hend : skb.network_header + mplsHlen + mplsHlen * depth = skb.network_header + mplsHlen * (depth + 1) := by
    rw [Nat.mul_succ]
    omega
  have hinner := mplsStack_inner env depth (skb.len + 1) mplsHlen
    { skb with inner_network_header := skb.mac_len } rfl
    (by unfold mplsHlen at hin; omega)
    (by show skb.mac_len + mplsHlen + mplsHlen * depth ≤ skb.len; rw [hmac, hend]; exact hin)
    (by
      show ∀ n, n ≤ skb.mac_len + mplsHlen + mplsHlen * depth → env.may_pull n = true
      rw [hmac, hend]
      exact hpull)
    (by show skb.bottomOfStack (skb.mac_len + mplsHlen * depth) = true; rw [hmac]; exact h.bottom)
    (by
      show ∀ i < depth, ¬ skb.bottomOfStack (skb.mac_len + mplsHlen * i) = true
      rw [hmac]
      exact h.first)
  refine Eq.trans hinner ?_
  show skb.mac_len + mplsHlen + mplsHlen * depth = _
  rw [hmac, hend]

/-- The first entry is the top label. -/
theorem extractMpls_label (key : SwFlowKey) (l : KeyStores) (hmac : skb.mac_len = skb.network_header)
    (hin : skb.network_header + mplsHlen ≤ skb.len) (hpull : Pulls env (skb.network_header + mplsHlen)) :
    (key.store (l ++ (extractMpls env skb).2)).bytes 356 4 = skb.bytes skb.network_header 4 := by
  have hcheck : checkHeader env { skb with inner_network_header := skb.mac_len } (skb.mac_len + mplsHlen) = 0 :=
    checkHeader_eq_zero (hmac ▸ hin) (hmac ▸ hpull _ le_rfl)
  have hstores : (extractMpls env skb).2 = [⟨356, skb.bytes skb.network_header 4⟩] := by
    unfold extractMpls
    dsimp only
    rw [if_neg (not_not.mpr hcheck), hmac]
    rfl
  rw [hstores, ← List.append_nil [_]]
  exact SwFlowKey.bytes_store key l [] (SkBuff.bytes_length ..) (by decide) fun j _ _ => id

/-- **The label stack.** For a packet with an MPLS type the loop ends, and there is no error. If the bottom
of the stack is in the packet, then the inner network header is behind it and the top label is the first
entry. The top label is the first entry also if that is all there is. -/
theorem keyExtract_mpls (env : SkbEnv) (skb : SkBuff) (mac_proto : BitVec 8) (key : SwFlowKey)
    (hstart : startLen mac_proto ≤ skb.len) (h : ethPMpls (packetType env skb mac_proto) = true) :
    ∃ r skb' stores, Walk.keyExtract env skb mac_proto ⟨0, startLen mac_proto⟩ = .ok ((0, skb', stores), r) ∧
      keyExtract env skb mac_proto = (0, skb', stores) ∧
      (∀ depth, FirstBottom skb' depth → Pulls env (skb'.network_header + mplsHlen * (depth + 1)) →
        (key.store stores).bytes 356 4 = skb'.bytes skb'.network_header 4 ∧
          skb'.inner_network_header = skb'.network_header + mplsHlen * (depth + 1)) ∧
      (skb'.network_header + mplsHlen ≤ skb'.len → Pulls env (skb'.network_header + mplsHlen) →
        (key.store stores).bytes 356 4 = skb'.bytes skb'.network_header 4) := by
  obtain ⟨linked, stores, hlink, heq⟩ := keyExtract_of_mpls h
  obtain ⟨r, hrun⟩ := keyExtract_inside env skb mac_proto hstart
  obtain ⟨a, r', -, rfl, -, hmac⟩ := runs_extractLinkLayer env hstart
  rw [hlink] at hmac
  obtain ⟨-, -, hmac⟩ := hmac rfl
  dsimp only at hmac
  obtain ⟨inner, hskb⟩ := extractMpls_skb env linked
  have hinner : (extractMpls env linked).1.inner_network_header = inner := by rw [hskb]
  refine ⟨r, _, _, heq ▸ hrun.1, heq, ?_⟩
  rw [hskb]
  have hlabel : linked.network_header + mplsHlen ≤ linked.len → Pulls env (linked.network_header + mplsHlen) →
      (key.store (stores ++ (extractMpls env linked).2)).bytes 356 4 = linked.bytes linked.network_header 4 :=
    extractMpls_label key stores hmac
  refine ⟨fun depth hfirst hpull => ?_, hlabel⟩
  replace hfirst : FirstBottom linked depth := ⟨hfirst.inside, hfirst.bottom, hfirst.first⟩
  refine ⟨hlabel hfirst.le (hpull.mono ?_), ?_⟩
  · show linked.network_header + mplsHlen ≤ linked.network_header + mplsHlen * (depth + 1)
    unfold mplsHlen
    omega
  · exact hinner.symm.trans (extractMpls_inner hmac hfirst hpull)

/-- An Ethernet frame with two labels and nothing behind them. -/
def twoLabels : SkBuff := { wholeDatagram with data := List.replicate 12 0 ++ [0x88, 0x47] ++
  [0, 1, 0x40, 64] ++ [0, 2, 0x41, 64] }

/-- The inner network header is at the end of the packet. -/
theorem keyExtract_mpls_twoLabels : ∃ skb' stores,
    keyExtract plainEnv twoLabels macProtoEthernet = (0, skb', stores) ∧ skb'.inner_network_header = 22 ∧
      (SwFlowKey.store (fun _ => 0) stores).bytes 356 4 = [0, 1, 0x40, 64] := by
  obtain ⟨r, skb', stores, -, heq, hbottom, -⟩ := keyExtract_mpls plainEnv twoLabels macProtoEthernet (fun _ => 0)
    (by decide) (by decide)
  have hskb : (keyExtract plainEnv twoLabels macProtoEthernet).2.1 = { twoLabels with
      protocol := 0x8847, network_header := 14, mac_len := 14, inner_network_header := 22 } := by rfl
  rw [heq] at hskb
  obtain rfl : skb' = _ := hskb
  obtain ⟨hlabel, hinner⟩ := hbottom 1 ⟨by decide, by decide, by decide⟩ fun _ _ => rfl
  exact ⟨_, stores, heq, hinner, hlabel⟩

end Packets

end OvsDatapath.Flow
