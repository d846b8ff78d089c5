import OvsDatapath.Flow.PacketKind
import OvsDatapath.Flow.Walk

/-!
# Key extraction stays inside the packet

A walk over a packet has no fault, whatever the packet, and finds what the functions without accesses do
(`keyExtract_inside`). Behind the link layer nothing moves `skb->data`, and each function is a walk that
gives the value of the function of the same name (`gives_extractIp` and so on). Above it the pointer moves
on, and there is always room for one more type (`AtType`).
-/

namespace OvsDatapath.Flow

open OvsDatapath.Lib Reading

/-! ## Checks -/

section Checks

variable {env : SkbEnv} {skb : SkBuff} {r : Reader}

theorem le_len_of_pskbMayPull {n : Nat} (h : skb.pskbMayPull env n = true) : n ≤ skb.len := by
  rw [SkBuff.pskbMayPull, Bool.and_eq_true] at h
  exact of_decide_eq_true h.1

/-- `pskb_may_pull` establishes what it says. -/
theorem gives_mayPull (hr : r.present ≤ skb.len) (n : Nat) :
    Gives skb.len (establish (skb.pskbMayPull env n) n) r (skb.pskbMayPull env n)
      (if skb.pskbMayPull env n then n else 0) :=
  Gives.establish hr le_len_of_pskbMayPull

theorem gives_checkHeader (hr : r.present ≤ skb.len) (n : Nat) :
    Gives skb.len (Walk.checkHeader env skb n) r (checkHeader env skb n)
      (if checkHeader env skb n = 0 then n else 0) := by
  unfold Walk.checkHeader checkHeader
  by_cases hshort : skb.len < n
  · rw [if_pos hshort, if_pos hshort, if_neg (show einval ≠ 0 by decide)]
    exact Gives.pure hr (Nat.zero_le _)
  · rw [if_neg hshort, if_neg hshort]
    refine Gives.bind (gives_mayPull hr n) fun r' hgrown hn => ?_
    refine Gives.pure hgrown.inside ?_
    cases hpull : skb.pskbMayPull env n with
    | false =>
        rw [Bool.not_false, if_pos rfl, if_neg (show enomem ≠ 0 by decide)]
        exact Nat.zero_le _
    | true =>
        rw [hpull] at hn
        exact hn

theorem gives_checkIphdr (hr : r.present ≤ skb.len) :
    Gives skb.len (Walk.checkIphdr env skb) r (checkIphdr env skb)
      (if (checkIphdr env skb).1 = 0 then skb.network_header + 20 else 0) := by
  unfold Walk.checkIphdr checkIphdr
  dsimp only
  refine Gives.bind (gives_checkHeader hr _) fun r' hgrown hn => ?_
  by_cases herr : checkHeader env skb (skb.network_header + 20) ≠ 0
  · rw [if_pos herr, if_pos herr, if_neg herr]
    exact Gives.pure hgrown.inside (Nat.zero_le _)
  · rw [if_pos (not_not.mp herr)] at hn
    rw [if_neg herr, if_neg herr]
    apply Gives.read_bind (by omega)
    generalize (skb.u8 skb.network_header &&& 0x0F).toNat * 4 = ip_len
    by_cases hlen : ip_len < 20 ∨ skb.len < skb.network_header + ip_len
    · rw [if_pos hlen, if_pos hlen, if_neg (show einval ≠ 0 by decide)]
      exact Gives.pure hgrown.inside (Nat.zero_le _)
    · rw [if_neg hlen, if_neg hlen, if_pos rfl]
      exact Gives.pure hgrown.inside hn

theorem gives_tcphdrOk (hr : r.present ≤ skb.len) :
    Gives skb.len (Walk.tcphdrOk env skb) r (tcphdrOk env skb)
      (if tcphdrOk env skb then skb.transport_header + 20 else 0) := by
  unfold Walk.tcphdrOk tcphdrOk
  dsimp only
  refine Gives.bind (gives_mayPull hr _) fun r' hgrown hn => ?_
  by_cases hpull : skb.pskbMayPull env (skb.transport_header + 20) = true
  · rw [if_pos hpull] at hn
    simp only [hpull, Bool.not_true, Bool.false_eq_true, if_false, Bool.true_and]
    refine Gives.read_bind (by omega) (Gives.pure hgrown.inside ?_)
    split_ifs
    · exact hn
    · exact Nat.zero_le _
  · simp only [hpull, Bool.not_false, if_true, Bool.false_and, Bool.false_eq_true, if_false]
    exact Gives.pure hgrown.inside (Nat.zero_le _)

theorem gives_transportHdrOk (hr : r.present ≤ skb.len) (size : Nat) :
    Gives skb.len (Walk.transportHdrOk env skb size) r (transportHdrOk env skb size)
      (if transportHdrOk env skb size then skb.transport_header + size else 0) :=
  gives_mayPull hr _

end Checks

/-! ## Headers -/

section Headers

variable {env : SkbEnv} {skb : SkBuff} {r : Reader}

theorem gives_portStores (hr : r.present ≤ skb.len) (hports : skb.transport_header + 4 ≤ r.present) :
    Gives skb.len (Walk.portStores skb) r (portStores skb) 0 := by
  apply Gives.read_bind (by omega)
  apply Gives.read_bind (by omega)
  exact Gives.pure hr (Nat.zero_le _)

theorem gives_icmpStores (hr : r.present ≤ skb.len) (htype : skb.transport_header + 2 ≤ r.present) :
    Gives skb.len (Walk.icmpStores skb) r (icmpStores skb) 0 := by
  apply Gives.read_bind (by omega)
  apply Gives.read_bind (by omega)
  exact Gives.pure hr (Nat.zero_le _)

theorem gives_tcpStores (hr : r.present ≤ skb.len) :
    Gives skb.len (Walk.tcpStores env skb) r (tcpStores env skb) 0 := by
  unfold Walk.tcpStores tcpStores
  refine Gives.bind (gives_tcphdrOk hr) fun r' hgrown hn => ?_
  split_ifs at hn ⊢ with hok
  · refine Gives.bind (gives_portStores hgrown.inside (by omega)) fun r'' hgrown' _ => ?_
    have := hgrown'.present
    apply Gives.read_bind (by omega)
    exact Gives.pure hgrown'.inside (Nat.zero_le _)
  · exact Gives.pure hgrown.inside (Nat.zero_le _)

theorem gives_transportStores (hr : r.present ≤ skb.len) {size : Nat} (hsize : 4 ≤ size) :
    Gives skb.len (Walk.transportStores env skb size) r
      (if transportHdrOk env skb size then portStores skb else clearTp) 0 := by
  unfold Walk.transportStores
  refine Gives.bind (gives_transportHdrOk hr size) fun r' hgrown hn => ?_
  split_ifs at hn ⊢ with hok
  · exact gives_portStores hgrown.inside (by omega)
  · exact Gives.pure hgrown.inside (Nat.zero_le _)

/-- The protocols that IPv4 and IPv6 have in common. -/
theorem gives_transport {α : Type} (hr : r.present ≤ skb.len) (proto : BitVec 8) (out : KeyStores → α)
    {rest : Reading α} {a : α} (hrest : Gives skb.len rest r a 0) :
    Gives skb.len
      (if proto = ipprotoTcp then Walk.tcpStores env skb >>= fun tp => pure (out tp)
      else if proto = ipprotoUdp then Walk.transportStores env skb 8 >>= fun tp => pure (out tp)
      else if proto = ipprotoSctp then Walk.transportStores env skb 12 >>= fun tp => pure (out tp)
      else rest) r
      (if proto = ipprotoTcp then out (tcpStores env skb)
      else if proto = ipprotoUdp then out (udpStores env skb)
      else if proto = ipprotoSctp then out (sctpStores env skb) else a) 0 := by
  have hend : ∀ {m : Reading KeyStores} {tp : KeyStores}, Gives skb.len m r tp 0 →
      Gives skb.len (m >>= fun tp => pure (out tp)) r (out tp) 0 :=
    fun hm => Gives.bind hm fun r' hgrown _ => Gives.pure hgrown.inside (Nat.zero_le _)
  split_ifs with htcp hudp hsctp
  · exact hend (gives_tcpStores hr)
  · exact hend (gives_transportStores hr (by decide))
  · exact hend (gives_transportStores hr (by decide))
  · exact hrest

theorem gives_icmp4Stores (hr : r.present ≤ skb.len) :
    Gives skb.len (Walk.icmp4Stores env skb) r (if icmphdrOk env skb then icmpStores skb else clearTp) 0 := by
  unfold Walk.icmp4Stores icmphdrOk
  refine Gives.bind (gives_transportHdrOk hr 8) fun r' hgrown hn => ?_
  split_ifs at hn ⊢ with hok
  · exact gives_icmpStores hgrown.inside (by omega)
  · exact Gives.pure hgrown.inside (Nat.zero_le _)

theorem gives_ipHeaderStores {nh : Nat} (hr : r.present ≤ skb.len) (hheader : nh + 20 ≤ r.present)
    (frag : BitVec 8) : Gives skb.len (Walk.ipHeaderStores skb nh frag) r (ipHeaderStores skb nh frag) 0 := by
  apply Gives.read_bind (by omega)
  apply Gives.read_bind (by omega)
  apply Gives.read_bind (by omega)
  apply Gives.read_bind (by omega)
  apply Gives.read_bind (by omega)
  exact Gives.pure hr (Nat.zero_le _)

end Headers

/-! ## The network layer -/

section Network

variable {env : SkbEnv} {skb : SkBuff} {r : Reader}

theorem gives_extractIp (hr : r.present ≤ skb.len) :
    Gives skb.len (Walk.extractIp env skb) r (extractIp env skb) 0 := by
  unfold Walk.extractIp extractIp
  refine Gives.bind (gives_checkIphdr hr) fun r' hgrown hn => ?_
  obtain ⟨error, skb', hcheck⟩ : ∃ error skb', checkIphdr env skb = (error, skb') := ⟨_, _, rfl⟩
  have hsame : skb'.len = skb.len ∧ skb'.network_header = skb.network_header := by
    unfold checkIphdr at hcheck
    dsimp only at hcheck
    split_ifs at hcheck <;> obtain ⟨-, rfl⟩ := Prod.mk.inj hcheck <;> exact ⟨rfl, rfl⟩
  rw [hcheck] at hn ⊢
  dsimp only at hn ⊢
  rw [← hsame.2] at hn
  by_cases herror : error ≠ 0
  · rw [if_pos herror, if_pos herror]
    split_ifs
    · exact Gives.pure hgrown.inside (Nat.zero_le _)
    · exact Gives.pure hgrown.inside (Nat.zero_le _)
  · rw [if_pos (not_not.mp herror)] at hn
    rw [if_neg herror, if_neg herror]
    have hinside : r'.present ≤ skb'.len := hsame.1.symm ▸ hgrown.inside
    apply Gives.read_bind (by omega)
    apply Gives.read_bind (by omega)
    rw [← hsame.1]
    by_cases hlater : skb'.be16At (skb'.network_header + 6) &&& ipOffset ≠ 0
    · rw [if_pos hlater, if_pos hlater]
      exact Gives.bind (gives_ipHeaderStores hinside hn _) fun r₂ h₂ _ => Gives.pure h₂.inside (Nat.zero_le _)
    · rw [if_neg hlater, if_neg hlater]
      generalize (if skb'.be16At (skb'.network_header + 6) &&& ipMf ≠ 0 ∨ skb'.gso_udp = true then
        ovsFragTypeFirst else ovsFragTypeNone) = frag
      refine Gives.bind (gives_ipHeaderStores hinside hn frag) fun r₂ h₂ _ => ?_
      apply gives_transport h₂.inside _ fun tp => (0, skb', ipHeaderStores skb' skb'.network_header frag ++ tp)
      by_cases hicmp : skb'.u8 (skb'.network_header + 9) = ipprotoIcmp
      · rw [if_pos hicmp, if_pos hicmp]
        exact Gives.bind (gives_icmp4Stores h₂.inside) fun r₃ h₃ _ => Gives.pure h₃.inside (Nat.zero_le _)
      · rw [if_neg hicmp, if_neg hicmp]
        exact Gives.pure h₂.inside (Nat.zero_le _)

theorem gives_extractArp (hr : r.present ≤ skb.len) :
    Gives skb.len (Walk.extractArp env skb) r (extractArp env skb) 0 := by
  unfold Walk.extractArp extractArp arphdrOk
  dsimp only
  refine Gives.bind (gives_mayPull hr _) fun r' hgrown hn => ?_
  by_cases hpull : skb.pskbMayPull env (skb.network_header + 28) = true
  · rw [if_pos hpull] at hn
    simp only [hpull, Bool.not_true, Bool.false_eq_true, if_false, Bool.true_and]
    apply Gives.read_bind (by omega)
    by_cases hgood : (skb.be16At skb.network_header == 1 && skb.be16At (skb.network_header + 2) == ethPIp &&
        skb.u8 (skb.network_header + 4) == 6 && skb.u8 (skb.network_header + 5) == 4) = true
    · simp only [hgood, Bool.not_true, Bool.false_eq_true, if_false, if_true]
      apply Gives.read_bind (by omega)
      apply Gives.read_bind (by omega)
      apply Gives.read_bind (by omega)
      apply Gives.read_bind (by omega)
      apply Gives.read_bind (by omega)
      exact Gives.pure hgrown.inside (Nat.zero_le _)
    · simp only [hgood, Bool.not_false, Bool.false_eq_true, if_false, if_true]
      exact Gives.pure hgrown.inside (Nat.zero_le _)
  · simp only [hpull, Bool.not_false, Bool.false_and, Bool.false_eq_true, if_false, if_true]
    exact Gives.pure hgrown.inside (Nat.zero_le _)

theorem le_len_of_checkHeader {n : Nat} (h : checkHeader env skb n = 0) : n ≤ skb.len := by
  by_contra hnot
  rw [checkHeader, if_pos (Nat.not_le.mp hnot)] at h
  exact absurd h (by decide)

/-- The loop over the label stack: each round reads the entry in front of the bytes it has checked. The
packet runs out before the rounds do. -/
theorem gives_mplsStack (env : SkbEnv) (fuel stack_len : Nat) (skb : SkBuff) (r : Reader) (hr : r.present ≤ skb.len)
    (hstack : mplsHlen ≤ stack_len) (hinner : skb.inner_network_header + mplsHlen = skb.mac_len + stack_len)
    (hpos : 0 < fuel) (hfuel : skb.len + 1 < fuel + stack_len) :
    Gives skb.len (Walk.mplsStack env fuel stack_len skb) r
      (mplsStack env fuel stack_len skb,
        if checkHeader env skb (skb.mac_len + stack_len) = 0 ∧ stack_len = mplsHlen then
          [⟨356, skb.bytes skb.inner_network_header 4⟩]
        else []) 0 := by
  induction fuel generalizing stack_len skb r with
  | zero => exact absurd hpos (lt_irrefl 0)
  | succ fuel ih =>
      rw [Walk.mplsStack, mplsStack]
      refine Gives.bind (gives_checkHeader hr _) fun r' hgrown hn => ?_
      by_cases herror : checkHeader env skb (skb.mac_len + stack_len) ≠ 0
      · rw [if_pos herror, if_pos herror, if_neg fun h => herror h.1]
        exact Gives.pure hgrown.inside (Nat.zero_le _)
      · have hle := le_len_of_checkHeader (not_not.mp herror)
        have hbyte : (skb.bytes skb.inner_network_header 4).getD 2 0 = skb.u8 (skb.inner_network_header + 2) := rfl
        rw [if_pos (not_not.mp herror)] at hn
        rw [if_neg herror, if_neg herror]
        apply Gives.read_bind (by unfold mplsHlen at hinner; omega)
        dsimp only
        rw [hbyte]
        have hstores : (if checkHeader env skb (skb.mac_len + stack_len) = 0 ∧ stack_len = mplsHlen then
            [⟨356, skb.bytes skb.inner_network_header 4⟩] else ([] : KeyStores)) =
            if stack_len = mplsHlen then [⟨356, skb.bytes skb.inner_network_header 4⟩] else [] := by
          simp only [not_not.mp herror, true_and]
        rw [hstores]
        split_ifs with hbottom
        · exact Gives.pure hgrown.inside (Nat.zero_le _)
        · exact Gives.pure hgrown.inside (Nat.zero_le _)
        all_goals
          -- a second entry writes nothing: only the first one is stored
          have hnext : stack_len + mplsHlen ≠ mplsHlen := by
            unfold mplsHlen at hstack ⊢
            omega
          have hgives := ih (stack_len + mplsHlen) { skb with inner_network_header := skb.mac_len + stack_len } r'
            hgrown.inside (by omega) (by dsimp only; omega) (by omega)
            (by
              show skb.len + 1 < _
              unfold mplsHlen
              omega)
          rw [if_neg fun h => hnext h.2] at hgives
          refine Gives.bind hgives fun r₂ h₂ _ => ?_
          exact Gives.pure h₂.inside (Nat.zero_le _)

theorem gives_extractMpls (hr : r.present ≤ skb.len) :
    Gives skb.len (Walk.extractMpls env skb) r (extractMpls env skb) 0 := by
  have hgives := gives_mplsStack env (skb.len + 1) mplsHlen { skb with inner_network_header := skb.mac_len } r hr
    le_rfl rfl (Nat.succ_pos _) (by show skb.len + 1 < _; unfold mplsHlen; omega)
  simp only [and_true] at hgives
  unfold extractMpls
  dsimp only
  rw [ite_not]
  exact hgives

/-- The fields of an IPv6 header. -/
theorem gives_ipv6HeaderStores {nh_ofs : Nat} (hr : r.present ≤ skb.len) (hheader : nh_ofs + 40 ≤ r.present) :
    Gives skb.len (Walk.ipv6HeaderStores skb nh_ofs) r (ipv6HeaderStores skb nh_ofs) 0 := by
  apply Gives.read_bind (by omega)
  apply Gives.read_bind (by omega)
  apply Gives.read_bind (by omega)
  apply Gives.read_bind (by omega)
  apply Gives.read_bind (by omega)
  exact Gives.pure hr (Nat.zero_le _)

theorem gives_parseIpv6hdr (hr : r.present ≤ skb.len) :
    Gives skb.len (Walk.parseIpv6hdr env skb) r (parseIpv6hdr env skb) 0 := by
  unfold Walk.parseIpv6hdr parseIpv6hdr
  dsimp only
  refine Gives.bind (gives_checkHeader hr _) fun r' hgrown hn => ?_
  by_cases herr : checkHeader env skb (skb.network_header + 40) ≠ 0
  · rw [if_pos herr, if_pos herr]
    exact Gives.pure hgrown.inside (Nat.zero_le _)
  · rw [if_pos (not_not.mp herr)] at hn
    rw [if_neg herr, if_neg herr]
    apply Gives.read_bind (by omega)
    refine Gives.bind (gives_ipv6HeaderStores hgrown.inside hn) fun r₂ h₂ _ => ?_
    rcases env.ipv6_skip_exthdr skb.data (skb.network_header + 40) (skb.u8 (skb.network_header + 6)) with
      ⟨payload_ofs, nexthdr, frag_off⟩
    split_ifs
    · exact Gives.pure h₂.inside (Nat.zero_le _)
    · exact Gives.pure h₂.inside (Nat.zero_le _)

/-- The loop over the options: an option that is read lies within what is left of the message. -/
theorem gives_ndOptions {fuel offset icmp_len : Nat} {sll tll : List (BitVec 8)} (hr : r.present ≤ skb.len)
    (hleft : offset + icmp_len ≤ r.present) (hfuel : icmp_len < fuel) :
    Gives skb.len (Walk.ndOptions skb fuel offset icmp_len sll tll) r
      (ndOptions skb fuel offset icmp_len sll tll) 0 := by
  induction fuel generalizing offset icmp_len sll tll with
  | zero => exact absurd hfuel (Nat.not_lt_zero _)
  | succ fuel ih =>
      rw [Walk.ndOptions, ndOptions]
      dsimp only
      by_cases hend : icmp_len < 8
      · rw [if_pos hend, if_pos hend]
        exact Gives.pure hr (Nat.zero_le _)
      rw [if_neg hend, if_neg hend]
      apply Gives.read_bind (by omega)
      generalize (skb.u8 (offset + 1)).toNat * 8 = opt_len
      by_cases hbad : opt_len = 0 ∨ icmp_len < opt_len
      · rw [if_pos hbad, if_pos hbad]
        exact Gives.pure hr (Nat.zero_le _)
      rw [if_neg hbad, if_neg hbad]
      obtain ⟨hsome, hfits⟩ := not_or.mp hbad
      have hnext : ∀ sll tll, Gives skb.len
          (Walk.ndOptions skb fuel (offset + opt_len) (icmp_len - opt_len) sll tll) r
          (ndOptions skb fuel (offset + opt_len) (icmp_len - opt_len) sll tll) 0 :=
        fun sll tll => ih (by omega) (by omega)
      apply Gives.read_bind (by omega)
      split_ifs with hsource hsll htarget htll
      · exact Gives.pure hr (Nat.zero_le _)
      · exact Gives.read_bind (by omega) (hnext _ _)
      · exact Gives.pure hr (Nat.zero_le _)
      · exact Gives.read_bind (by omega) (hnext _ _)
      · exact hnext _ _

theorem gives_parseIcmpv6 (env : SkbEnv) (hr : r.present ≤ skb.len) (hheader : skb.transport_header + 8 ≤ r.present) :
    Gives skb.len (Walk.parseIcmpv6 env skb) r (parseIcmpv6 env skb) 0 := by
  unfold Walk.parseIcmpv6 parseIcmpv6
  dsimp only
  refine Gives.bind (gives_icmpStores hr (by omega)) fun r' hgrown _ => ?_
  have hmore := hgrown.present
  apply Gives.read_bind (by omega)
  apply Gives.read_bind (by omega)
  by_cases hnd : skb.u8 (skb.transport_header + 1) = 0 ∧
      (skb.u8 skb.transport_header = 135 ∨ skb.u8 skb.transport_header = 136)
  · rw [if_pos hnd, if_pos hnd]
    by_cases hshort : skb.len - skb.transport_header < 24
    · rw [if_pos hshort, if_pos hshort]
      exact Gives.pure hgrown.inside (Nat.zero_le _)
    rw [if_neg hshort, if_neg hshort]
    have hestablish : Gives skb.len (establish env.linearize skb.len) r' env.linearize
        (if env.linearize then skb.len else 0) := Gives.establish hgrown.inside fun _ => le_rfl
    refine Gives.bind hestablish fun r₂ h₂ hlinear => ?_
    by_cases hok : env.linearize = true
    · rw [if_pos hok] at hlinear
      simp only [hok, Bool.not_true, Bool.false_eq_true, if_false]
      apply Gives.read_bind (by omega)
      refine Gives.bind (gives_ndOptions h₂.inside (by omega) (by omega)) fun r₃ h₃ _ => ?_
      cases ndOptions skb (skb.len - skb.transport_header) (skb.transport_header + 24)
          (skb.len - skb.transport_header - 24) (zeros 6) (zeros 6) with
      | none =>
          dsimp only
          exact Gives.pure h₃.inside (Nat.zero_le _)
      | some found =>
          dsimp only
          exact Gives.pure h₃.inside (Nat.zero_le _)
    · simp only [hok, Bool.not_false, if_true]
      exact Gives.pure h₂.inside (Nat.zero_le _)
  · rw [if_neg hnd, if_neg hnd]
    exact Gives.pure hgrown.inside (Nat.zero_le _)

theorem gives_extractIpv6 (hr : r.present ≤ skb.len) :
    Gives skb.len (Walk.extractIpv6 env skb) r (extractIpv6 env skb) 0 := by
  unfold Walk.extractIpv6 extractIpv6
  refine Gives.bind (gives_parseIpv6hdr hr) fun r' hgrown _ => ?_
  obtain ⟨nh_len, skb', stores, proto, frag, hparse⟩ : ∃ nh_len skb' stores proto frag,
      parseIpv6hdr env skb = (nh_len, skb', stores, proto, frag) := ⟨_, _, _, _, _, rfl⟩
  have hlen : skb'.len = skb.len := by
    unfold parseIpv6hdr at hparse
    dsimp only at hparse
    split_ifs at hparse <;> obtain ⟨-, rfl, -⟩ := hparse <;> rfl
  rw [hparse]
  dsimp only
  rw [← hlen] at hgrown ⊢
  by_cases hneg : nh_len < 0
  · rw [if_pos hneg, if_pos hneg]
    split_ifs
    · exact Gives.pure hgrown.inside (Nat.zero_le _)
    · exact Gives.pure hgrown.inside (Nat.zero_le _)
    · exact Gives.pure hgrown.inside (Nat.zero_le _)
  rw [if_neg hneg, if_neg hneg]
  by_cases hlater : frag = ovsFragTypeLater
  · rw [if_pos hlater, if_pos hlater]
    exact Gives.pure hgrown.inside (Nat.zero_le _)
  rw [if_neg hlater, if_neg hlater]
  generalize stores ++ (if skb'.gso_udp then [⟨359, [ovsFragTypeFirst]⟩] else [] : KeyStores) = stores'
  apply gives_transport hgrown.inside _ fun tp => (0, skb', stores' ++ tp)
  by_cases hicmp : proto = nexthdrIcmp
  · rw [if_pos hicmp, if_pos hicmp]
    unfold icmp6hdrOk
    refine Gives.bind (gives_transportHdrOk hgrown.inside 8) fun r₂ h₂ hn => ?_
    split_ifs at hn ⊢ with hok
    · refine Gives.bind (gives_parseIcmpv6 env h₂.inside hn) fun r₃ h₃ _ => ?_
      exact Gives.pure h₃.inside (Nat.zero_le _)
    · exact Gives.pure h₂.inside (Nat.zero_le _)
  · rw [if_neg hicmp, if_neg hicmp]
    exact Gives.pure hgrown.inside (Nat.zero_le _)

end Network

/-! ## Tags and types -/

section Link

variable {env : SkbEnv} {skb : SkBuff} {r : Reader}

/-- A tag, or the type, is about to be read. -/
structure AtType (skb : SkBuff) (r : Reader) : Prop where
  type : r.data + 2 ≤ r.present
  inside : r.present ≤ skb.len

/-- `establish` for a walk whose pointer moves. -/
theorem runs_mayPull {post : Bool → Reader → Prop} (hr : r.present ≤ skb.len) (n : Nat)
    (h : ∀ r', Grown skb.len r r' → (skb.pskbMayPull env n = true → n ≤ r'.present) →
      post (skb.pskbMayPull env n) r') :
    Runs (establish (skb.pskbMayPull env n) n) r post := by
  refine Runs.imp (gives_mayPull hr n) ?_
  rintro ok r' ⟨rfl, hgrown, hn⟩
  exact h r' hgrown fun hok => by rwa [if_pos hok] at hn

theorem skbVlanPopHeader_len {err : Int} {skb' : SkBuff} {tci : BitVec 16}
    (h : skbVlanPopHeader env skb = (err, skb', tci)) :
    err = enomem ∧ skb' = skb ∨ err = 0 ∧ skb'.len + 4 = skb.len := by
  unfold skbVlanPopHeader at h
  dsimp only at h
  split_ifs at h with hshort
  · obtain ⟨rfl, rfl, -⟩ := h
    exact .inl ⟨rfl, rfl⟩
  all_goals
    obtain ⟨rfl, rfl, -⟩ := h
    refine .inr ⟨rfl, ?_⟩
    have hlen : vlanEthHlen ≤ skb.len := Nat.not_lt.mp (not_or.mp hshort).1
    show (skb.data.take 12 ++ skb.data.drop 16).length + 4 = skb.data.length
    replace hlen : 18 ≤ skb.data.length := hlen
    rw [List.length_append, List.length_take, List.length_drop]
    omega

/-- Behind a tag there is always room for a type. -/
theorem runs_parseVlanTag (h : AtType skb r) (untag_vlan : Bool) :
    Runs (Walk.parseVlanTag env skb untag_vlan) r fun a r' =>
      parseVlanTag env skb r.data untag_vlan = (a.1, a.2.1, r'.data, a.2.2) ∧ AtType a.2.1 r' := by
  unfold Walk.parseVlanTag parseVlanTag
  refine Runs.bind (Runs.position ?_)
  refine Runs.bind (Runs.read h.type ?_)
  by_cases hvlan : (!ethTypeVlan (skb.be16At r.data)) = true
  · rw [if_pos hvlan, if_pos hvlan]
    exact Runs.pure ⟨rfl, h⟩
  rw [if_neg hvlan, if_neg hvlan]
  by_cases hshort : skb.len < r.data + 6
  · rw [if_pos hshort, if_pos hshort]
    exact Runs.pure ⟨rfl, h⟩
  rw [if_neg hshort, if_neg hshort]
  refine Runs.bind (runs_mayPull h.inside _ fun r' hgrown hn => ?_)
  have hdata := hgrown.data
  have hpresent := hgrown.present
  have htype := h.type
  by_cases hpull : skb.pskbMayPull env (r.data + 6) = true
  · have hn := hn hpull
    simp only [hpull, Bool.not_true, Bool.false_eq_true, if_false]
    refine Runs.bind (Runs.read (by omega) ?_)
    refine Runs.bind (Runs.read (by omega) ?_)
    by_cases huntag : untag_vlan = true
    · rw [if_pos huntag, if_pos huntag]
      refine Runs.bind (Runs.push (by omega) ?_)
      obtain ⟨err, skb', tci, hpop⟩ : ∃ err skb' tci, skbVlanPopHeader env skb = (err, skb', tci) :=
        ⟨_, _, _, rfl⟩
      rw [hpop]
      obtain ⟨rfl, rfl⟩ | ⟨rfl, hlen⟩ := skbVlanPopHeader_len hpop
      · -- nothing was taken out
        refine Runs.bind (Runs.pull (by dsimp only; omega) (Runs.pure ⟨?_, ⟨?_, hgrown.inside⟩⟩))
        · show _ = (_, _, r'.data - r.data + r.data, _)
          rw [hdata, Nat.sub_self, Nat.zero_add]
          rfl
        · dsimp only
          omega
      · refine Runs.bind (Runs.cut (Runs.bind (Runs.pull (by dsimp only; omega) (Runs.pure ⟨?_, ⟨?_, ?_⟩⟩))))
        · show _ = (_, _, r'.data - r.data + r.data, _)
          rw [hdata, Nat.sub_self, Nat.zero_add]
          rfl
        · dsimp only
          omega
        · have hinside := hgrown.inside
          show r'.present - 4 ≤ skb'.len
          omega
    · rw [if_neg huntag, if_neg huntag]
      refine Runs.bind (Runs.pull (by omega) ?_)
      refine Runs.pure ⟨by dsimp only; rw [hdata], ⟨?_, hgrown.inside⟩⟩
      dsimp only
      omega
  · simp only [hpull, Bool.not_false, if_true]
    refine Runs.pure ⟨by rw [hdata], ⟨by omega, hgrown.inside⟩⟩

theorem runs_parseVlan (h : AtType skb r) :
    Runs (Walk.parseVlan env skb) r fun a r' =>
      parseVlan env skb r.data = (a.1, a.2.1, r'.data, a.2.2) ∧ AtType a.2.1 r' := by
  unfold Walk.parseVlan parseVlan
  -- the outer tag, from the hardware or from the packet
  have houter : Runs (Walk.outerTag env skb) r
      fun a r' => (if skb.vlanTagIsPresent then
          (1, skb, r.data, some (VlanHead.mk skb.vlan_proto skb.vlan_tci)) else parseVlanTag env skb r.data true) =
        (a.1, a.2.1, r'.data, a.2.2) ∧ AtType a.2.1 r' := by
    unfold Walk.outerTag
    split_ifs
    · exact Runs.pure ⟨rfl, h⟩
    · exact runs_parseVlanTag h true
  refine Runs.bind (Runs.imp houter ?_)
  rintro ⟨res, skb', vlan⟩ r' ⟨heq, htype⟩
  rw [heq]
  dsimp only at htype ⊢
  by_cases hres : res ≤ 0
  · rw [if_pos hres, if_pos hres]
    exact Runs.pure ⟨rfl, htype⟩
  rw [if_neg hres, if_neg hres]
  refine Runs.bind (Runs.imp (runs_parseVlanTag htype false) ?_)
  rintro ⟨res', skb'', cvlan⟩ r'' ⟨heq', htype'⟩
  rw [heq']
  refine Runs.pure ⟨?_, htype'⟩
  dsimp only
  split_ifs <;> rfl

theorem runs_parseEthertype (h : AtType skb r) :
    Runs (Walk.parseEthertype env skb) r fun a r' =>
      parseEthertype env skb r.data = (a, r'.data) ∧ r'.data ≤ r'.present ∧ r'.present ≤ skb.len := by
  have htype := h.type
  unfold Walk.parseEthertype parseEthertype
  refine Runs.bind (Runs.position (Runs.bind (Runs.read htype ?_)))
  refine Runs.bind (Runs.pull htype (Runs.bind (Runs.position ?_)))
  dsimp only
  by_cases hproto : ethProtoIs8023 (skb.be16At r.data) = true
  · rw [if_pos hproto, if_pos hproto]
    exact Runs.pure ⟨rfl, htype, h.inside⟩
  rw [if_neg hproto, if_neg hproto]
  by_cases hshort : skb.len < r.data + 2 + 8
  · rw [if_pos hshort, if_pos hshort]
    exact Runs.pure ⟨rfl, htype, h.inside⟩
  rw [if_neg hshort, if_neg hshort]
  refine Runs.bind (runs_mayPull (r := { r with data := r.data + 2 }) h.inside _ fun r' hgrown hn => ?_)
  have hdata : r'.data = r.data + 2 := hgrown.data
  have hpresent : r.present ≤ r'.present := hgrown.present
  by_cases hpull : skb.pskbMayPull env (r.data + 2 + 8) = true
  · have hn := hn hpull
    simp only [hpull, Bool.not_true, Bool.false_eq_true, if_false]
    refine Runs.bind (Runs.read (by omega) (Runs.bind (Runs.read (by omega) (Runs.bind (Runs.read (by omega) ?_)))))
    split_ifs with hsnap htype'
    · exact Runs.pure ⟨by rw [hdata], by omega, hgrown.inside⟩
    · refine Runs.bind (Runs.pull (by omega) (Runs.bind (Runs.read (by dsimp only; omega) ?_)))
      rw [if_pos htype']
      exact Runs.pure ⟨by rw [hdata], by dsimp only; omega, hgrown.inside⟩
    · refine Runs.bind (Runs.pull (by omega) (Runs.bind (Runs.read (by dsimp only; omega) ?_)))
      rw [if_neg htype']
      exact Runs.pure ⟨by rw [hdata], by dsimp only; omega, hgrown.inside⟩
  · simp only [hpull, Bool.not_false, if_true]
    exact Runs.pure ⟨by rw [hdata], by omega, hgrown.inside⟩

/-- What a caller of `key_extract` has made sure of: an Ethernet header, if there is one. -/
def startLen (mac_proto : BitVec 8) : Nat := if mac_proto = macProtoNone then 0 else ethHlen

/-- The walk above the network layer, and its state in front of the network layer. -/
theorem runs_extractLinkLayer (env : SkbEnv) {skb : SkBuff} {mac_proto : BitVec 8}
    (h : startLen mac_proto ≤ skb.len) :
    Runs (Walk.extractLinkLayer env skb mac_proto) ⟨0, startLen mac_proto⟩ fun a r' =>
      extractLinkLayer env skb mac_proto = a ∧ r'.present ≤ a.2.1.len ∧
        (a.1 = 0 → r'.data = 0 ∧ a.2.1.network_header ≤ r'.present ∧ a.2.1.mac_len = a.2.1.network_header) := by
  unfold Walk.extractLinkLayer extractLinkLayer
  dsimp only
  by_cases hnone : mac_proto = macProtoNone
  · rw [if_pos hnone, if_pos hnone]
    split_ifs with hvlan
    · exact Runs.pure ⟨rfl, h, fun herr => absurd (show einval = 0 from herr) (by decide)⟩
    · exact Runs.bind (Runs.position (Runs.pure ⟨rfl, h, fun _ => ⟨rfl, Nat.zero_le _, rfl⟩⟩))
  rw [if_neg hnone, if_neg hnone]
  have hstart : startLen mac_proto = 14 := if_neg hnone
  rw [hstart] at h ⊢
  refine Runs.bind (Runs.read (by decide) (Runs.bind (Runs.read (by decide) (Runs.bind (Runs.pull (by decide) ?_)))))
  have htype : AtType skb ⟨12, 14⟩ := ⟨by decide, h⟩
  refine Runs.bind (Runs.imp (runs_parseVlan htype) ?_)
  rintro ⟨res, skb', vlan_stores, cvlan⟩ r' ⟨heq, htype'⟩
  replace heq : parseVlan env skb 12 = (res, skb', r'.data, vlan_stores, cvlan) := heq
  rw [heq]
  dsimp only at htype' ⊢
  by_cases hres : res ≠ 0
  · rw [if_pos hres, if_pos hres]
    exact Runs.pure ⟨rfl, htype'.inside, fun herr => absurd (show enomem = 0 from herr) (by decide)⟩
  rw [if_neg hres, if_neg hres]
  refine Runs.bind (Runs.imp (runs_parseEthertype htype') ?_)
  rintro eth_type r'' ⟨heq', hin, hinside⟩
  rw [heq']
  dsimp only
  by_cases hzero : eth_type = 0
  · rw [if_pos hzero, if_pos hzero]
    exact Runs.pure ⟨rfl, hinside, fun herr => absurd (show enomem = 0 from herr) (by decide)⟩
  · rw [if_neg hzero, if_neg hzero]
    refine Runs.bind (Runs.position (Runs.bind (Runs.push le_rfl ?_)))
    refine Runs.pure ⟨?_, hinside, fun _ => ⟨?_, hin, rfl⟩⟩
    · cases cvlan <;> rfl
    · exact Nat.sub_self _

end Link

/-! ## The order of the headers -/

section Order

variable {env : SkbEnv} {skb : SkBuff}

theorem mplsStack_skb (env : SkbEnv) (fuel stack_len : Nat) (skb : SkBuff) :
    ∃ inner, mplsStack env fuel stack_len skb = { skb with inner_network_header := inner } := by
  induction fuel generalizing stack_len skb with
  | zero => exact ⟨_, rfl⟩
  | succ fuel ih =>
      rw [mplsStack]
      dsimp only
      split_ifs
      · exact ⟨_, rfl⟩
      · exact ⟨_, rfl⟩
      · obtain ⟨inner, hinner⟩ := ih (stack_len + mplsHlen)
          { skb with inner_network_header := skb.mac_len + stack_len }
        exact ⟨inner, hinner⟩

/-- The transport header of an IPv4 packet is behind its network header, and in the packet. -/
theorem extractIp_skb (hin : skb.network_header ≤ skb.len) (h : (extractIp env skb).1 = 0) :
    ∃ th, (extractIp env skb).2.1 = { skb with transport_header := th } ∧ skb.network_header ≤ th ∧ th ≤ skb.len := by
  by_cases herror : (checkIphdr env skb).1 = 0
  · -- the header is there, with its options
    have hcheck : ∃ th, checkIphdr env skb = (0, { skb with transport_header := th }) ∧
        skb.network_header ≤ th ∧ th ≤ skb.len := by
      unfold checkIphdr at herror ⊢
      dsimp only at herror ⊢
      split_ifs at herror ⊢ with hheader hlen
      · exact absurd herror hheader
      · exact absurd (show einval = 0 from herror) (by decide)
      · exact ⟨_, rfl, Nat.le_add_right .., Nat.not_lt.mp (not_or.mp hlen).2⟩
    obtain ⟨th, heq, horder⟩ := hcheck
    refine ⟨th, ?_, horder⟩
    unfold extractIp
    rw [heq]
    dsimp only
    rw [if_neg (not_not.mpr rfl)]
    split_ifs <;> rfl
  · obtain ⟨error, skb', heq⟩ : ∃ error skb', checkIphdr env skb = (error, skb') := ⟨_, _, rfl⟩
    have hsame : skb' = skb := by
      rw [heq] at herror
      unfold checkIphdr at heq
      dsimp only at heq herror
      split_ifs at heq
      · exact (Prod.mk.inj heq).2.symm
      · exact (Prod.mk.inj heq).2.symm
      · exact absurd (Prod.mk.inj heq).1.symm herror
    rw [heq] at herror
    unfold extractIp at h ⊢
    rw [heq, hsame] at h ⊢
    dsimp only at h herror ⊢
    rw [if_pos herror] at h ⊢
    split_ifs at h ⊢
    · exact ⟨skb.network_header, rfl, le_rfl, hin⟩
    · exact absurd h herror

theorem parseIpv6hdr_skb (env : SkbEnv) (skb : SkBuff) :
    (parseIpv6hdr env skb).1 < 0 ∧ (parseIpv6hdr env skb).2.1 = skb ∨
      0 ≤ (parseIpv6hdr env skb).1 ∧
        ∃ th, (parseIpv6hdr env skb).2.1 = { skb with transport_header := th } ∧ skb.network_header ≤ th := by
  have hforward := env.le_ipv6_skip_exthdr skb.data (skb.network_header + 40) (skb.u8 (skb.network_header + 6))
  unfold parseIpv6hdr
  by_cases herr : checkHeader env skb (skb.network_header + 40) ≠ 0
  · rw [if_pos herr]
    refine .inl ⟨?_, rfl⟩
    show checkHeader env skb (skb.network_header + 40) < 0
    obtain hinval | hnomem := (checkHeader_cases env skb (skb.network_header + 40)).resolve_left herr
    · rw [hinval]
      decide
    · rw [hnomem]
      decide
  rw [if_neg herr]
  rcases hskip : env.ipv6_skip_exthdr skb.data (skb.network_header + 40) (skb.u8 (skb.network_header + 6)) with
    ⟨payload_ofs, nexthdr, frag_off⟩
  rw [hskip] at hforward
  dsimp only at hforward ⊢
  by_cases hpayload : payload_ofs < 0
  · rw [if_pos hpayload]
    exact .inl ⟨eproto_neg, rfl⟩
  · have hforward := hforward (by omega)
    rw [if_neg hpayload]
    exact .inr ⟨by dsimp only; omega, payload_ofs.toNat, rfl, by omega⟩

/-- The transport header of an IPv6 packet is behind its network header. -/
theorem extractIpv6_order (h : (extractIpv6 env skb).1 = 0) :
    ∃ th, (extractIpv6 env skb).2.1 = { skb with transport_header := th } ∧ skb.network_header ≤ th := by
  have hparse := parseIpv6hdr_skb env skb
  unfold extractIpv6 at h ⊢
  obtain ⟨nh_len, skb', stores, proto, frag, heq⟩ : ∃ nh_len skb' stores proto frag,
      parseIpv6hdr env skb = (nh_len, skb', stores, proto, frag) := ⟨_, _, _, _, _, rfl⟩
  rw [heq] at hparse h ⊢
  dsimp only at hparse h ⊢
  obtain ⟨hneg, rfl⟩ | ⟨hpos, th, rfl, hle⟩ := hparse
  · rw [if_pos hneg] at h ⊢
    split_ifs at h ⊢
    · exact ⟨_, rfl, le_rfl⟩
    · exact ⟨_, rfl, le_rfl⟩
    · exact absurd (show nh_len = 0 from h) hneg.ne
  · rw [if_neg (Int.not_lt.mpr hpos)]
    refine ⟨th, ?_, hle⟩
    split_ifs <;> rfl

end Order

/-! ## The whole walk -/

section Whole

variable {env : SkbEnv} {skb : SkBuff} {mac_proto : BitVec 8}

theorem checkIphdr_len (env : SkbEnv) (skb : SkBuff) : (checkIphdr env skb).2.len = skb.len := by
  unfold checkIphdr
  dsimp only
  split_ifs <;> rfl

theorem extractIp_len : (extractIp env skb).2.1.len = skb.len := by
  have hcheck := checkIphdr_len env skb
  unfold extractIp
  generalize checkIphdr env skb = checked at hcheck ⊢
  obtain ⟨error, skb'⟩ := checked
  dsimp only at hcheck ⊢
  split_ifs <;> exact hcheck

theorem extractIpv6_len : (extractIpv6 env skb).2.1.len = skb.len := by
  have hparse : (parseIpv6hdr env skb).2.1.len = skb.len := by
    obtain ⟨-, heq⟩ | ⟨-, th, heq, -⟩ := parseIpv6hdr_skb env skb
    · rw [heq]
    · rw [heq]
      rfl
  unfold extractIpv6
  generalize parseIpv6hdr env skb = parsed at hparse ⊢
  obtain ⟨nh_len, skb', stores, proto, frag⟩ := parsed
  dsimp only at hparse ⊢
  split_ifs <;> exact hparse

theorem extractMpls_skb (env : SkbEnv) (skb : SkBuff) :
    ∃ inner, (extractMpls env skb).1 = { skb with inner_network_header := inner } := by
  obtain ⟨inner, heq⟩ := mplsStack_skb env (skb.len + 1) mplsHlen
    { skb with inner_network_header := skb.mac_len }
  exact ⟨inner, heq⟩

/-- A walk behind the link layer, from the packet that the link layer leaves. -/
theorem Gives.runs {α β : Type} {m : Reading α} {r : Reader} {a : α} {len : Nat} (out : α → β)
    (h : Gives len m r a 0) (hdata : r.data = 0) :
    Runs (m >>= fun x => pure (out x)) r fun b r' => out a = b ∧ r'.present ≤ len ∧ r'.data = 0 := by
  apply Runs.bind
  refine Runs.imp h ?_
  rintro x r' ⟨rfl, hgrown, -⟩
  exact Runs.pure ⟨rfl, hgrown.inside, hgrown.data.trans hdata⟩

/-- **The walk has no fault**, and ends with the pointer at the MAC header. -/
theorem runs_keyExtract (env : SkbEnv) (h : startLen mac_proto ≤ skb.len) :
    Runs (Walk.keyExtract env skb mac_proto) ⟨0, startLen mac_proto⟩ fun a r' =>
      keyExtract env skb mac_proto = a ∧ r'.present ≤ a.2.1.len ∧ (a.1 = 0 → r'.data = 0) := by
  unfold Walk.keyExtract keyExtract
  refine Runs.bind (Runs.imp (runs_extractLinkLayer env h) ?_)
  rintro ⟨error, skb', eth_type, stores⟩ r ⟨heq, hin, hok⟩
  rw [heq]
  dsimp only at hin hok ⊢
  by_cases herror : error ≠ 0
  · rw [if_pos herror, if_pos herror]
    exact Runs.pure ⟨rfl, hin, fun h0 => absurd h0 herror⟩
  rw [if_neg herror, if_neg herror]
  obtain ⟨hdata, -, -⟩ := hok (not_not.mp herror)
  by_cases hip : eth_type = ethPIp
  · rw [if_pos hip, if_pos hip]
    refine Runs.imp (Gives.runs (fun x => (x.1, x.2.1, stores ++ x.2.2)) (gives_extractIp hin) hdata) ?_
    rintro a r' ⟨rfl, hin', hdata'⟩
    exact ⟨rfl, le_of_le_of_eq hin' extractIp_len.symm, fun _ => hdata'⟩
  rw [if_neg hip, if_neg hip]
  by_cases harp : eth_type = ethPArp ∨ eth_type = ethPRarp
  · rw [if_pos harp, if_pos harp]
    refine Runs.imp (Gives.runs (fun x => (0, skb', stores ++ x)) (gives_extractArp hin) hdata) ?_
    rintro a r' ⟨rfl, hin', hdata'⟩
    exact ⟨rfl, hin', fun _ => hdata'⟩
  rw [if_neg harp, if_neg harp]
  by_cases hmpls : ethPMpls eth_type = true
  · rw [if_pos hmpls, if_pos hmpls]
    refine Runs.imp (Gives.runs (fun x => (0, x.1, stores ++ x.2)) (gives_extractMpls hin) hdata) ?_
    rintro a r' ⟨rfl, hin', hdata'⟩
    obtain ⟨inner, hskb⟩ := extractMpls_skb env skb'
    exact ⟨rfl, le_of_le_of_eq hin' (congrArg SkBuff.len hskb).symm, fun _ => hdata'⟩
  rw [if_neg hmpls, if_neg hmpls]
  by_cases hipv6 : eth_type = ethPIpv6
  · rw [if_pos hipv6, if_pos hipv6]
    refine Runs.imp (Gives.runs (fun x => (x.1, x.2.1, stores ++ x.2.2)) (gives_extractIpv6 hin) hdata) ?_
    rintro a r' ⟨rfl, hin', hdata'⟩
    exact ⟨rfl, le_of_le_of_eq hin' extractIpv6_len.symm, fun _ => hdata'⟩
  · rw [if_neg hipv6, if_neg hipv6]
    exact Runs.pure ⟨rfl, hin, fun _ => hdata⟩

/-- The offsets of the headers are in order. -/
structure HeadersInOrder (skb : SkBuff) (eth_type : BitVec 16) : Prop where
  network : skb.network_header ≤ skb.len
  ip : eth_type = ethPIp → skb.network_header ≤ skb.transport_header ∧ skb.transport_header ≤ skb.len
  ipv6 : eth_type = ethPIpv6 → skb.network_header ≤ skb.transport_header

theorem headersInOrder_keyExtract (h : startLen mac_proto ≤ skb.len) (hok : (keyExtract env skb mac_proto).1 = 0) :
    HeadersInOrder (keyExtract env skb mac_proto).2.1 (packetType env skb mac_proto) := by
  obtain ⟨a, r', -, heq, hin, hlink⟩ := runs_extractLinkLayer env h
  obtain ⟨error, skb', eth_type, stores⟩ := a
  have htype : packetType env skb mac_proto = eth_type := by rw [packetType, heq]
  rw [htype]
  unfold keyExtract at hok ⊢
  rw [heq] at hok ⊢
  dsimp only at hin hlink hok ⊢
  by_cases herror : error ≠ 0
  · rw [if_pos herror] at hok
    exact absurd hok herror
  rw [if_neg herror] at hok ⊢
  obtain ⟨-, hnetwork, -⟩ := hlink (not_not.mp herror)
  replace hnetwork := hnetwork.trans hin
  -- only IP packets get a transport header, and the types exclude each other
  by_cases hip : eth_type = ethPIp
  · rw [if_pos hip] at hok ⊢
    obtain ⟨th, hskb, hle, hth⟩ := extractIp_skb hnetwork hok
    dsimp only
    rw [hskb]
    refine ⟨hnetwork, fun _ => ⟨hle, hth⟩, fun htype' => ?_⟩
    exact absurd (hip.symm.trans htype') (by decide)
  rw [if_neg hip] at hok ⊢
  by_cases harp : eth_type = ethPArp ∨ eth_type = ethPRarp
  · rw [if_pos harp]
    refine ⟨hnetwork, fun htype' => absurd htype' hip, ?_⟩
    rintro rfl
    exact absurd harp (by decide)
  rw [if_neg harp] at hok ⊢
  by_cases hmpls : ethPMpls eth_type = true
  · rw [if_pos hmpls]
    obtain ⟨inner, hskb⟩ := extractMpls_skb env skb'
    dsimp only
    rw [hskb]
    refine ⟨hnetwork, fun htype' => absurd htype' hip, ?_⟩
    rintro rfl
    exact absurd hmpls (by decide)
  rw [if_neg hmpls] at hok ⊢
  by_cases hipv6 : eth_type = ethPIpv6
  · rw [if_pos hipv6] at hok ⊢
    obtain ⟨th, hskb, hle⟩ := extractIpv6_order hok
    dsimp only
    rw [hskb]
    exact ⟨hnetwork, fun htype' => absurd htype' hip, fun _ => hle⟩
  · rw [if_neg hipv6]
    exact ⟨hnetwork, fun htype' => absurd htype' hip, fun htype' => absurd htype' hipv6⟩

/-- **Key extraction stays inside the packet**, whatever it is: no access is out of bounds and no loop goes
on. If it succeeds then `skb->data` is at the MAC header again, and the offsets of the headers, which count
from there, are in order. -/
theorem keyExtract_inside (env : SkbEnv) (skb : SkBuff) (mac_proto : BitVec 8) (h : startLen mac_proto ≤ skb.len) :
    ∃ r, Walk.keyExtract env skb mac_proto ⟨0, startLen mac_proto⟩ = .ok (keyExtract env skb mac_proto, r) ∧
      r.present ≤ (keyExtract env skb mac_proto).2.1.len ∧
      ∀ skb' stores (key : SwFlowKey), keyExtract env skb mac_proto = (0, skb', stores) →
        r.data = 0 ∧ HeadersInOrder skb' (key.store stores).ethType := by
  obtain ⟨a, r, hrun, rfl, hin, hdata⟩ := runs_keyExtract env h
  refine ⟨r, hrun, hin, fun skb' stores key heq => ?_⟩
  have hok : (keyExtract env skb mac_proto).1 = 0 := by rw [heq]
  have horder := headersInOrder_keyExtract h hok
  have htype := keyExtract_ethType hok key
  rw [heq] at htype horder
  exact ⟨hdata hok, htype ▸ horder⟩

/-- A whole UDP datagram: the key is extracted, and the pointer is back where it was. -/
theorem keyExtract_inside_datagram :
    ∃ r skb' stores, Walk.keyExtract plainEnv wholeDatagram macProtoEthernet ⟨0, ethHlen⟩ =
      .ok ((0, skb', stores), r) ∧ r.data = 0 ∧ skb'.network_header ≤ skb'.len := by
  obtain ⟨r, hrun, -, hok⟩ := keyExtract_inside plainEnv wholeDatagram macProtoEthernet (by decide)
  have hzero : (keyExtract plainEnv wholeDatagram macProtoEthernet).1 = 0 := by decide
  have heq : keyExtract plainEnv wholeDatagram macProtoEthernet =
      (0, (keyExtract plainEnv wholeDatagram macProtoEthernet).2) := Prod.ext hzero rfl
  obtain ⟨hdata, horder⟩ := hok _ _ (fun _ => 0) heq
  exact ⟨r, _, _, hrun.trans (congrArg (fun a => Except.ok (a, r)) heq), hdata, horder.network⟩

end Whole

end OvsDatapath.Flow
