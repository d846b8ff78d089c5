import OvsDatapath.Flow.ExtractReads
import OvsDatapath.Flow.PutKey
import OvsDatapath.Lib.WriteOnce

/-!
# Options of neighbour discovery

A neighbour solicitation or advertisement gives the address of its target and, in options, two link layer
addresses (`parse_icmpv6` in `flow.c`). It is an error if the same one is given twice, and then all three
addresses are cleared. Whether one has been given before is told from the address that is in the key, so a
first one that is zero is not noticed: `parseIcmpv6_iff` says for which messages that matters.
-/

namespace OvsDatapath.Flow

open OvsDatapath.Lib Reading

/-! ## The options of a message -/

/-- An option: its type, its length in bytes, and the six bytes behind its header. -/
structure NdOption where
  type : BitVec 8
  len : Nat
  addr : List (BitVec 8)
  deriving DecidableEq, Repr

/-- The options from `offset` on, in `icmp_len` bytes, up to one that is too short or too long. -/
def ndOptionList (skb : SkBuff) : Nat → Nat → Nat → List NdOption
  | 0, _, _ => []
  | fuel + 1, offset, icmp_len =>
      let opt_len := (skb.u8 (offset + 1)).toNat * 8
      if icmp_len < 8 ∨ opt_len = 0 ∨ icmp_len < opt_len then []
      else
        ⟨skb.u8 offset, opt_len, skb.bytes (offset + 2) 6⟩ ::
          ndOptionList skb fuel (offset + opt_len) (icmp_len - opt_len)

/-- The bytes of the ICMPv6 message. -/
def SkBuff.icmpLen (skb : SkBuff) : Nat := skb.len - skb.transport_header

/-- The options behind the target of a message. -/
def SkBuff.ndOptions (skb : SkBuff) : List NdOption :=
  ndOptionList skb skb.icmpLen (skb.transport_header + 24) (skb.icmpLen - 24)

/-- `ND_OPT_SOURCE_LL_ADDR`. -/
def ndOptSourceLlAddr : BitVec 8 := 1

/-- `ND_OPT_TARGET_LL_ADDR`. -/
def ndOptTargetLlAddr : BitVec 8 := 2

/-- The addresses in the options of a type that have room for exactly one. -/
def llAddrs (type : BitVec 8) (options : List NdOption) : List (List (BitVec 8)) :=
  (options.filter fun option => option.type = type ∧ option.len = 8).map NdOption.addr

theorem llAddrs_cons (type : BitVec 8) (option : NdOption) (l : List NdOption) :
    llAddrs type (option :: l) =
      if option.type = type ∧ option.len = 8 then option.addr :: llAddrs type l else llAddrs type l := by
  unfold llAddrs
  rw [List.filter_cons]
  split_ifs with hif hthen hthen
  · rfl
  · exact absurd (of_decide_eq_true hif) hthen
  · exact absurd (decide_eq_true hthen) hif
  · rfl

/-- The loop of `parse_icmpv6`, over the options. -/
theorem ndOptions_eq (skb : SkBuff) (fuel offset icmp_len : Nat) (sll tll : List (BitVec 8)) :
    ndOptions skb fuel offset icmp_len sll tll =
      (writeOnce (zeros 6) sll (llAddrs ndOptSourceLlAddr (ndOptionList skb fuel offset icmp_len))).bind fun sll =>
        (writeOnce (zeros 6) tll (llAddrs ndOptTargetLlAddr (ndOptionList skb fuel offset icmp_len))).map fun tll =>
          (sll, tll) := by
  induction fuel generalizing offset icmp_len sll tll with
  | zero => rfl
  | succ fuel ih =>
      rw [ndOptions, ndOptionList]
      dsimp only
      generalize (skb.u8 (offset + 1)).toNat * 8 = opt_len
      by_cases hend : icmp_len < 8
      · rw [if_pos hend, if_pos (.inl hend)]
        rfl
      rw [if_neg hend]
      -- an option without length, or one that ends behind the packet, ends the loop
      by_cases hbad : opt_len = 0 ∨ icmp_len < opt_len
      · rw [if_pos hbad, if_pos (.inr hbad)]
        rfl
      rw [if_neg hbad, if_neg (not_or.mpr ⟨hend, hbad⟩), llAddrs_cons, llAddrs_cons]
      dsimp only
      by_cases hsource : skb.u8 offset = 1 ∧ opt_len = 8
      · have htarget : ¬ (skb.u8 offset = ndOptTargetLlAddr ∧ opt_len = 8) := by
          rintro ⟨htype, -⟩
          exact absurd (hsource.1.symm.trans htype) (by decide)
        rw [if_pos hsource, if_pos (show skb.u8 offset = ndOptSourceLlAddr ∧ opt_len = 8 from hsource),
          if_neg htarget, writeOnce]
        -- the second address of a kind is refused
        by_cases hsll : sll ≠ zeros 6
        · rw [if_pos hsll, if_pos hsll]
          rfl
        · rw [if_neg hsll, if_neg hsll, ih]
      rw [if_neg hsource, if_neg (show ¬ (skb.u8 offset = ndOptSourceLlAddr ∧ opt_len = 8) from hsource)]
      by_cases htarget : skb.u8 offset = 2 ∧ opt_len = 8
      · rw [if_pos htarget, if_pos (show skb.u8 offset = ndOptTargetLlAddr ∧ opt_len = 8 from htarget), writeOnce]
        by_cases htll : tll ≠ zeros 6
        · rw [if_pos htll, if_pos htll]
          cases writeOnce (zeros 6) sll (llAddrs ndOptSourceLlAddr
            (ndOptionList skb fuel (offset + opt_len) (icmp_len - opt_len))) <;> rfl
        · rw [if_neg htll, if_neg htll, ih]
      · rw [if_neg htarget, if_neg (show ¬ (skb.u8 offset = ndOptTargetLlAddr ∧ opt_len = 8) from htarget), ih]

/-! ## What is stored -/

section Stored

variable {skb : SkBuff} {key : SwFlowKey}

/-- What a message that gives each address once, or not at all, leaves in the key, and what any other
message does. -/
structure NdParsed (skb : SkBuff) (key : SwFlowKey) : Prop where
  once : 24 ≤ skb.icmpLen → (llAddrs ndOptSourceLlAddr skb.ndOptions).length ≤ 1 →
    (llAddrs ndOptTargetLlAddr skb.ndOptions).length ≤ 1 →
      key.bytes 404 16 = skb.bytes (skb.transport_header + 8) 16 ∧
        key.bytes 420 6 = (llAddrs ndOptSourceLlAddr skb.ndOptions).headD (zeros 6) ∧
        key.bytes 426 6 = (llAddrs ndOptTargetLlAddr skb.ndOptions).headD (zeros 6)
  twice : 2 ≤ (llAddrs ndOptSourceLlAddr skb.ndOptions).length ∨
      2 ≤ (llAddrs ndOptTargetLlAddr skb.ndOptions).length →
    key.bytes 404 16 = zeros 16 ∧ key.bytes 420 6 = zeros 6 ∧ key.bytes 426 6 = zeros 6

/-- An address that is given again is noticed, or nothing but zeros has been given. -/
def RepeatsShow (skb : SkBuff) : Prop :=
  2 ≤ (llAddrs ndOptSourceLlAddr skb.ndOptions).length ∨ 2 ≤ (llAddrs ndOptTargetLlAddr skb.ndOptions).length →
    (∃ addr ∈ (llAddrs ndOptSourceLlAddr skb.ndOptions).dropLast, addr ≠ zeros 6) ∨
      (∃ addr ∈ (llAddrs ndOptTargetLlAddr skb.ndOptions).dropLast, addr ≠ zeros 6) ∨
      skb.bytes (skb.transport_header + 8) 16 = zeros 16 ∧
        (llAddrs ndOptSourceLlAddr skb.ndOptions).getLastD (zeros 6) = zeros 6 ∧
        (llAddrs ndOptTargetLlAddr skb.ndOptions).getLastD (zeros 6) = zeros 6

/-- Bytes that are stored and not stored again. -/
theorem SwFlowKey.bytes_store (key : SwFlowKey) {off n : Nat} {vals : List (BitVec 8)} (l r : KeyStores)
    (hlen : vals.length = n) (hend : off + n ≤ swFlowKeySize)
    (hr : ∀ j, off ≤ j → j < off + n → ¬ Reaches r j) :
    (key.store (l ++ ([⟨off, vals⟩] ++ r))).bytes off n = vals := by
  apply List.ext_getElem
  · rw [SwFlowKey.bytes_length, hlen]
  · intro i hi hi'
    have hstored : stored [(⟨off, vals⟩ : Store (BitVec 8))] (off + i) = some vals[i] := by
      rw [stored, stored_nil, Option.none_or, Store.at, if_pos (Nat.le_add_right ..), Nat.add_sub_cancel_left]
      exact List.getElem?_eq_getElem hi'
    have hbyte := SwFlowKey.store_u8_of_stored
      (stored_mid (l := l) hstored (hr (off + i) (by omega) (by omega))) (by omega) key
    simp only [SwFlowKey.bytes, List.getElem_map, List.getElem_range]
    exact hbyte

/-- The three addresses of a message with options. -/
theorem bytes_ndStores (key : SwFlowKey) (l : KeyStores) {target sll tll : List (BitVec 8)}
    (htarget : target.length = 16)
    (hsll : sll.length = 6) (htll : tll.length = 6) :
    (key.store (l ++ [⟨404, target⟩, ⟨420, sll⟩, ⟨426, tll⟩])).bytes 404 16 = target ∧
      (key.store (l ++ [⟨404, target⟩, ⟨420, sll⟩, ⟨426, tll⟩])).bytes 420 6 = sll ∧
      (key.store (l ++ [⟨404, target⟩, ⟨420, sll⟩, ⟨426, tll⟩])).bytes 426 6 = tll := by
  refine ⟨?_, ?_, ?_⟩
  · apply SwFlowKey.bytes_store key l [⟨420, sll⟩, ⟨426, tll⟩] htarget (by decide)
    intro j _ hj
    simp only [reaches_cons, reaches_nil, hsll, htll, or_false]
    omega
  · rw [List.append_cons]
    apply SwFlowKey.bytes_store key _ [⟨426, tll⟩] hsll (by decide)
    intro j _ hj
    simp only [reaches_cons, reaches_nil, htll, or_false]
    omega
  · rw [List.append_cons, List.append_cons]
    exact SwFlowKey.bytes_store key _ [] htll (by decide) fun j _ _ => id

/-- A neighbour solicitation or advertisement. -/
def SkBuff.IsNd (skb : SkBuff) : Prop :=
  skb.u8 (skb.transport_header + 1) = 0 ∧ (skb.u8 skb.transport_header = 135 ∨ skb.u8 skb.transport_header = 136)

/-- What is stored of a message, if the packet could be made linear: nothing from behind the type and code
of a short one, and from others the target and what the loop has found. -/
theorem parseIcmpv6_stores {env : SkbEnv} (hnd : skb.IsNd) (hok : (parseIcmpv6 env skb).1 = 0)
    (hlong : 24 ≤ skb.icmpLen) :
    ∃ l, (parseIcmpv6 env skb).2 =
      l ++ match ndOptions skb skb.icmpLen (skb.transport_header + 24) (skb.icmpLen - 24) (zeros 6) (zeros 6) with
        | some (sll, tll) => [⟨404, skb.bytes (skb.transport_header + 8) 16⟩, ⟨420, sll⟩, ⟨426, tll⟩]
        | none => [⟨404, zeros 16⟩, ⟨420, zeros 6⟩, ⟨426, zeros 6⟩] := by
  unfold SkBuff.IsNd at hnd
  unfold SkBuff.icmpLen at hlong ⊢
  unfold parseIcmpv6 at hok ⊢
  dsimp only at hok ⊢
  rw [if_pos hnd, if_neg (Nat.not_lt.mpr hlong)] at hok ⊢
  by_cases hlinear : (!env.linearize) = true
  · rw [if_pos hlinear] at hok
    exact absurd (show enomem = 0 from hok) (by decide)
  rw [if_neg hlinear]
  cases ndOptions skb (skb.len - skb.transport_header) (skb.transport_header + 24)
      (skb.len - skb.transport_header - 24) (zeros 6) (zeros 6) with
  | none => exact ⟨_, rfl⟩
  | some found =>
      refine ⟨icmpStores skb ++ [⟨404, zeros 28⟩], ?_⟩
      dsimp only
      rw [List.append_assoc]
      rfl

/-- The value that a cell starts with does not show. -/
theorem shows_cons_iff {l : List (List (BitVec 8))} :
    (∃ addr ∈ (zeros 6 :: l).dropLast, addr ≠ zeros 6) ↔ ∃ addr ∈ l.dropLast, addr ≠ zeros 6 := by
  cases l with
  | nil => simp
  | cons a l =>
      rw [List.dropLast_cons_of_ne_nil (List.cons_ne_nil a l)]
      simp

/-- A second address is refused exactly if one in front of the last one shows. -/
theorem writeOnce_zeros_eq_none_iff {l : List (List (BitVec 8))} :
    writeOnce (zeros 6) (zeros 6) l = none ↔ ∃ addr ∈ l.dropLast, addr ≠ zeros 6 :=
  writeOnce_eq_none_iff.trans shows_cons_iff

theorem two_le_length_of_shows {l : List (List (BitVec 8))} (h : ∃ addr ∈ l.dropLast, addr ≠ zeros 6) :
    2 ≤ l.length := by
  obtain ⟨addr, hmem, -⟩ := h
  have hpos := List.length_pos_of_mem hmem
  rw [List.length_dropLast] at hpos
  omega

theorem getLastD_eq_headD {α : Type} {l : List α} (a : α) (h : l.length ≤ 1) : l.getLastD a = l.headD a := by
  match l, h with
  | [], _ => rfl
  | [b], _ => rfl

/-- **Neighbour discovery.** No access is out of the packet, and the loop ends. If the packet could be made
linear, then the key is what the message says, exactly if an address that is given twice shows. -/
theorem parseIcmpv6_iff {env : SkbEnv} {r : Reader} (key : SwFlowKey) (hnd : skb.IsNd)
    (hheader : skb.transport_header + 8 ≤ r.present) (hr : r.present ≤ skb.len) :
    (∃ r', Walk.parseIcmpv6 env skb r = .ok (parseIcmpv6 env skb, r') ∧ r'.present ≤ skb.len) ∧
      ((parseIcmpv6 env skb).1 = 0 → (NdParsed skb (key.store (parseIcmpv6 env skb).2) ↔ RepeatsShow skb)) := by
  constructor
  · obtain ⟨a, r', hrun, rfl, hgrown, -⟩ := gives_parseIcmpv6 env hr hheader
    exact ⟨r', hrun, hgrown.inside⟩
  intro hok
  by_cases hshort : skb.icmpLen < 24
  · -- no options at all
    have hnone : skb.ndOptions = [] := by
      unfold SkBuff.ndOptions
      rw [Nat.sub_eq_zero_of_le hshort.le]
      cases skb.icmpLen with
      | zero => rfl
      | succ n => rw [ndOptionList, if_pos (.inl (by decide))]
    have honce : ¬ (2 ≤ (llAddrs ndOptSourceLlAddr skb.ndOptions).length ∨
        2 ≤ (llAddrs ndOptTargetLlAddr skb.ndOptions).length) := by
      rw [hnone]
      decide
    exact iff_of_true ⟨fun hlong => absurd hshort (Nat.not_lt.mpr hlong), fun htwice => absurd htwice honce⟩
      fun htwice => absurd htwice honce
  obtain ⟨l, hstores⟩ := parseIcmpv6_stores hnd hok (Nat.not_lt.mp hshort)
  have hloop := ndOptions_eq skb skb.icmpLen (skb.transport_header + 24) (skb.icmpLen - 24) (zeros 6) (zeros 6)
  rw [show ndOptionList skb skb.icmpLen (skb.transport_header + 24) (skb.icmpLen - 24) =
    skb.ndOptions from rfl] at hloop
  rw [hstores, hloop]
  unfold RepeatsShow
  generalize hsources : llAddrs ndOptSourceLlAddr skb.ndOptions = sources at hloop ⊢
  generalize htargets : llAddrs ndOptTargetLlAddr skb.ndOptions = targets at hloop ⊢
  by_cases hshows : (∃ addr ∈ sources.dropLast, addr ≠ zeros 6) ∨ ∃ addr ∈ targets.dropLast, addr ≠ zeros 6
  · -- a second address is noticed, and everything is cleared
    have hnone : ((writeOnce (zeros 6) (zeros 6) sources).bind fun sll =>
        (writeOnce (zeros 6) (zeros 6) targets).map fun tll => (sll, tll)) = none := by
      obtain hsource | htarget := hshows
      · rw [writeOnce_zeros_eq_none_iff.mpr hsource]
        rfl
      · rw [writeOnce_zeros_eq_none_iff.mpr htarget]
        cases writeOnce (zeros 6) (zeros 6) sources <;> rfl
    have hbytes := bytes_ndStores key l (zeros_length 16) (zeros_length 6) (zeros_length 6)
    rw [hnone]
    refine iff_of_true ⟨fun _ hone hone' => ?_, fun _ => hbytes⟩ fun _ => ?_
    · rw [hsources] at hone
      rw [htargets] at hone'
      obtain hsource | htarget := hshows
      · exact absurd (two_le_length_of_shows hsource) (by omega)
      · exact absurd (two_le_length_of_shows htarget) (by omega)
    · exact hshows.imp_right .inl
  · -- the last address of each kind is in the key
    obtain ⟨hsource, htarget⟩ := not_or.mp hshows
    obtain ⟨sll, hsll⟩ := Option.ne_none_iff_exists'.mp (mt writeOnce_zeros_eq_none_iff.mp hsource)
    obtain ⟨tll, htll⟩ := Option.ne_none_iff_exists'.mp (mt writeOnce_zeros_eq_none_iff.mp htarget)
    rw [hsll, htll] at hloop ⊢
    obtain ⟨hlen, hlen'⟩ := ndOptions_length hloop (zeros_length 6) (zeros_length 6)
    obtain rfl := writeOnce_eq_some hsll
    obtain rfl := writeOnce_eq_some htll
    obtain ⟨hbytes, hbytes', hbytes''⟩ := bytes_ndStores key l
      (skb.bytes_length (skb.transport_header + 8) 16) hlen hlen'
    constructor
    · rintro ⟨-, htwice⟩ hrepeat
      rw [hsources, htargets] at htwice
      obtain ⟨h, h', h''⟩ := htwice hrepeat
      exact .inr (.inr ⟨hbytes.symm.trans h, hbytes'.symm.trans h', hbytes''.symm.trans h''⟩)
    · intro hzero
      refine ⟨fun _ hone hone' => ?_, fun hrepeat => ?_⟩
      · rw [hsources] at hone ⊢
        rw [htargets] at hone' ⊢
        rw [← getLastD_eq_headD _ hone, ← getLastD_eq_headD _ hone']
        exact ⟨hbytes, hbytes', hbytes''⟩
      · rw [hsources, htargets] at hrepeat
        obtain ⟨h, h', h''⟩ := ((hzero hrepeat).resolve_left hsource).resolve_left htarget
        exact ⟨hbytes.trans h, hbytes'.trans h', hbytes''.trans h''⟩

end Stored

/-- A neighbour solicitation for fe80::1 with two source addresses, 00:00:00:00:00:00 and 02:00:00:00:00:01. -/
def zeroFirst : SkBuff where
  data := List.replicate 12 0 ++ [0x86, 0xDD, 0x60, 0, 0, 0, 0, 40, 58, 255] ++ List.replicate 32 0 ++
    [135, 0, 0, 0, 0, 0, 0, 0] ++ [0xFE, 0x80] ++ List.replicate 13 0 ++ [1] ++ [1, 1, 0, 0, 0, 0, 0, 0] ++
    [1, 1, 2, 0, 0, 0, 0, 1]
  protocol := ethPIpv6
  vlan_tci := 0
  vlan_proto := 0
  gso_udp := false
  mac_len := 14
  network_header := 14
  transport_header := 54
  inner_network_header := 0

/-- The second address is taken for the only one. -/
theorem parseIcmpv6_zeroFirst : zeroFirst.IsNd ∧ (parseIcmpv6 plainEnv zeroFirst).1 = 0 ∧
    ¬ NdParsed zeroFirst (SwFlowKey.store (fun _ => 0) (parseIcmpv6 plainEnv zeroFirst).2) := by
  refine ⟨by unfold SkBuff.IsNd; decide, by decide, fun h => ?_⟩
  have hzero := (h.twice (by decide)).1
  revert hzero
  decide

/-- No address in front of the last one shows. -/
theorem parseIcmpv6_iff_zeroFirst :
    NdParsed zeroFirst (SwFlowKey.store (fun _ => 0) (parseIcmpv6 plainEnv zeroFirst).2) ↔ RepeatsShow zeroFirst :=
  (parseIcmpv6_iff (r := ⟨0, 94⟩) (fun _ => 0) (by unfold SkBuff.IsNd; decide) (by decide) (by decide)).2 (by decide)

end OvsDatapath.Flow
