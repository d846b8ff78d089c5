import OvsDatapath.Frag.Defrag

/-!
# Fragments in any order

Fragments of one datagram, however it was cut: more than once and in different places, with pieces that overlap, in
any order, with any of them repeated, and with fragments of other datagrams in between. `fragRun_delivers` says
that the datagram is handed on by the fragment with which everything is covered, and not before. It is enough that
the fragments agree with the datagram; they need not be the pieces of one cut.
-/

namespace OvsDatapath.Frag

open OvsDatapath.Lib OvsDatapath.Flow OvsDatapath.Stt

/-! ### A datagram and its fragments -/

/-- A datagram: the key of its queue, its header and its data. -/
structure Datagram where
  key : IpqKey
  iph : IpHdr
  data : List (BitVec 8)
  length_le : iph.hdrlen + data.length ≤ 65535

/-- What the headers of all fragments that start a datagram have in common. -/
def IpHdr.common (iph : IpHdr) : IpHdr := { iph with tos := 0, tot_len := 0, frag_off := 0, check := 0 }

/-- A fragment that agrees with the datagram: its data are there, in blocks of eight bytes unless it is the last
one, and its header is that of the datagram if it is the first. -/
structure Datagram.IsFragment (D : Datagram) (skb : IpSkb) : Prop where
  data : ∀ j b, skb.piece.At j b → D.data[j]? = some b
  nonempty : skb.ipData ≠ []
  last : skb.iph.moreFragments = false ↔ skb.piece.stop = D.data.length
  blocks : skb.iph.moreFragments = true → skb.ipData.length % 8 = 0
  header : skb.iph.offset = 0 → skb.iph.common = D.iph.common
  capable : skb.iph.tos &&& 3 = 0 ↔ D.iph.tos &&& 3 = 0
  size_lt : skb.ipData.length + skb.iph.hdrlen < 2 ^ 16

/-- How large a packet is. -/
def IpSkb.size (skb : IpSkb) : Nat := skb.ipData.length + skb.iph.hdrlen

/-- The kernel finds the memory that it needs. -/
structure FragEnv.Ample (env : FragEnv) : Prop where
  pull_header : env.pull_header = true
  pull_front : env.pull_front = true
  pull_next : env.pull_next = true
  trim : env.trim = true
  clone : env.clone = true
  unclone : env.unclone = true

/-- The datagram has been handed on. It has the largest size of its fragments in `frag_max_size`, and what it is
made of is not larger. -/
structure Datagram.Delivered (D : Datagram) (given : List IpSkb) (pkt : IpSkb) : Prop where
  data : pkt.ipData = D.data
  l2 : ∃ f ∈ given, f.iph.offset = 0 ∧ pkt.l2 = f.l2
  header : ∃ tos frag_off, (frag_off = 0 ∨ frag_off = ipDf) ∧
    (tos &&& 3 = 0 ↔ D.iph.tos &&& 3 = 0) ∧ ((∀ f ∈ given, f.iph.tos = D.iph.tos) → tos = D.iph.tos) ∧
    ((∀ f ∈ given, f.iph.dontFragment = false) → frag_off = 0) ∧
    pkt.iph = IpHdr.sendCheck { D.iph with
      tot_len := BitVec.ofNat 16 (D.iph.hdrlen + D.data.length)
      tos := tos
      frag_off := frag_off }
  max_size_le : ∀ m, (∀ f ∈ given, f.size ≤ m) → pkt.frag_max_size.toNat ≤ m
  le_max_size : pkt.payload.length + pkt.iph.hdrlen ≤ pkt.frag_max_size.toNat ∧
    ∀ x ∈ pkt.frag_list, x.size ≤ pkt.frag_max_size.toNat
  blocks : pkt.frag_list ≠ [] → pkt.payload ≠ [] ∧ pkt.payload.length % 8 = 0
  parts : ∀ x ∈ pkt.frag_list, x.data ≠ []

namespace Datagram.IsFragment

variable {D : Datagram} {skb : IpSkb}

theorem full (h : D.IsFragment skb) : skb.piece.Full := h.nonempty

theorem stop_le (h : D.IsFragment skb) : skb.piece.stop ≤ D.data.length := by
  have hlt := h.full.start_lt
  obtain ⟨b, hb⟩ := Piece.covers_iff_at.mp (⟨Nat.le_pred_of_lt hlt, Nat.sub_one_lt (by omega)⟩ :
    skb.piece.Covers (skb.piece.stop - 1))
  obtain ⟨hin, -⟩ := List.getElem?_eq_some_iff.mp (h.data _ b hb)
  omega

theorem covers_zero_iff (h : D.IsFragment skb) : skb.piece.Covers 0 ↔ skb.iph.offset = 0 := by
  have hlt := h.full.start_lt
  constructor
  · exact fun hcov => Nat.le_zero.mp hcov.1
  · intro hzero
    refine ⟨hzero.le, ?_⟩
    have hstart : skb.piece.start = 0 := hzero
    omega

end Datagram.IsFragment

/-! ### Congestion marks -/

/-- The marks of some fragments together. -/
def ecnOf (marks : List (BitVec 8)) : BitVec 8 := marks.foldr (fun tos ecn => ecn ||| ip4FragEcn tos) 0

theorem ip4FragEcn_cases (tos : BitVec 8) :
    (tos &&& 3 = 0 ∧ ip4FragEcn tos = 1) ∨ (tos &&& 3 = 1 ∧ ip4FragEcn tos = 2) ∨
      (tos &&& 3 = 2 ∧ ip4FragEcn tos = 4) ∨ (tos &&& 3 = 3 ∧ ip4FragEcn tos = 8) := by
  have hlow : (tos &&& 3).toNat = tos.toNat % 4 := by
    rw [BitVec.toNat_and]
    exact Nat.and_two_pow_sub_one_eq_mod tos.toNat 2
  have heq : ∀ v : BitVec 8, tos &&& 3 = v ↔ tos.toNat % 4 = v.toNat := fun v => by
    rw [← hlow, BitVec.toNat_inj]
  rw [heq, heq, heq, heq, ip4FragEcn, hlow]
  have hlt : tos.toNat % 4 < 4 := Nat.mod_lt _ (by decide)
  interval_cases tos.toNat % 4 <;> decide

theorem ip4FragEcn_plain {tos : BitVec 8} (h : tos &&& 3 = 0) : ip4FragEcn tos = 1 := by
  rcases ip4FragEcn_cases tos with ⟨-, hval⟩ | ⟨hlow, -⟩ | ⟨hlow, -⟩ | ⟨hlow, -⟩
  · exact hval
  all_goals exact absurd (hlow.symm.trans h) (by decide)

theorem ip4FragEcn_capable {tos : BitVec 8} (h : tos &&& 3 ≠ 0) : ip4FragEcn tos &&& 1 = 0 := by
  rcases ip4FragEcn_cases tos with ⟨hlow, -⟩ | ⟨-, hval⟩ | ⟨-, hval⟩ | ⟨-, hval⟩
  · exact absurd hlow h
  all_goals (rw [hval]; decide)

theorem ecnOf_plain {marks : List (BitVec 8)} (hne : marks ≠ []) (h : ∀ t ∈ marks, t &&& 3 = 0) :
    ecnOf marks = 1 := by
  induction marks with
  | nil => exact absurd rfl hne
  | cons t marks ih =>
      have hcons : ecnOf (t :: marks) = ecnOf marks ||| ip4FragEcn t := rfl
      rw [hcons, ip4FragEcn_plain (h t (List.mem_cons_self ..))]
      by_cases hnil : marks = []
      · subst hnil
        rfl
      · rw [ih hnil fun t' ht' => h t' (List.mem_cons_of_mem _ ht')]
        rfl

theorem ecnOf_capable {marks : List (BitVec 8)} (h : ∀ t ∈ marks, t &&& 3 ≠ 0) : ecnOf marks &&& 1 = 0 := by
  induction marks with
  | nil => rfl
  | cons t marks ih =>
      have hcons : ecnOf (t :: marks) = ecnOf marks ||| ip4FragEcn t := rfl
      rw [hcons, BitVec.and_or_distrib_right, ih fun t' ht' => h t' (List.mem_cons_of_mem _ ht'),
        ip4FragEcn_capable (h t (List.mem_cons_self ..))]
      rfl

/-- Marks that go together are in the table. -/
theorem ipFragEcnTable_ecnOf {marks : List (BitVec 8)} {tos : BitVec 8} (hne : marks ≠ [])
    (h : ∀ t ∈ marks, t &&& 3 = 0 ↔ tos &&& 3 = 0) : ipFragEcnTable (ecnOf marks) ≠ none := by
  by_cases hcap : tos &&& 3 = 0
  · rw [ecnOf_plain hne fun t ht => (h t ht).mpr hcap]
    decide
  · have hzero := ecnOf_capable fun t ht => mt (h t ht).mp hcap
    rw [ipFragEcnTable, if_neg fun hbad => hbad.1 hzero]
    split <;> simp

/-- A mark that all have is not changed. -/
theorem ipFragEcnTable_same {marks : List (BitVec 8)} {tos : BitVec 8} (hne : marks ≠ []) (h : ∀ t ∈ marks, t = tos) :
    ipFragEcnTable (ecnOf marks) = some 0 := by
  have hecn : ecnOf marks = ip4FragEcn tos := by
    induction marks with
    | nil => exact absurd rfl hne
    | cons t marks ih =>
        obtain rfl := h t (List.mem_cons_self ..)
        have hcons : ecnOf (t :: marks) = ecnOf marks ||| ip4FragEcn t := rfl
        by_cases hnil : marks = []
        · subst hnil
          exact BitVec.zero_or
        · rw [hcons, ih hnil fun t' ht' => h t' (List.mem_cons_of_mem _ ht'), BitVec.or_self]
  rw [hecn]
  rcases ip4FragEcn_cases tos with ⟨-, hval⟩ | ⟨-, hval⟩ | ⟨-, hval⟩ | ⟨-, hval⟩ <;> rw [hval] <;> decide

/-! ### A queue that collects -/

/-- The pieces of some fragments. -/
def ipPieces (got : List IpSkb) : List (Piece (BitVec 8)) := got.map IpSkb.piece

@[simp] theorem ipPieces_cons (f : IpSkb) (got : List IpSkb) : ipPieces (f :: got) = f.piece :: ipPieces got := rfl

/-- The mark of a queue is that of some fragments. -/
def Marked (known : List IpSkb) (ecn : BitVec 8) : Prop :=
  ∃ marks ≠ [], (∀ t ∈ marks, ∃ f ∈ known, f.iph.tos = t) ∧ ecn = ecnOf marks

/-- The piece starts at a block of eight bytes, and ends at one unless it is at the end. -/
structure InBlocks (n : Nat) (p : Piece (BitVec 8)) : Prop where
  start : p.start % 8 = 0
  stop : p.stop % 8 = 0 ∨ p.stop = n

theorem Datagram.IsFragment.inBlocks {D : Datagram} {skb : IpSkb} (h : D.IsFragment skb) :
    InBlocks D.data.length skb.piece := by
  have hmod := skb.iph.offset_mod
  refine ⟨hmod, ?_⟩
  cases hmore : skb.iph.moreFragments with
  | false => exact Or.inr (h.last.mp hmore)
  | true =>
      have hblocks := h.blocks hmore
      left
      simp only [Piece.stop, IpSkb.piece]
      omega

/-- A queue that has the fragments `got` of a datagram, and nothing else. -/
structure Collecting (D : Datagram) (got : List IpSkb) (qp : Ipq) : Prop where
  holds : QueueHolds qp
  waiting : qp.complete = false
  len_le : qp.len ≤ D.data.length
  covered : ∀ j, Covered (pieces qp.fragments) j ↔ Covered (ipPieces got) j
  data : ∀ x ∈ qp.fragments, ∀ j b, x.piece.At j b → D.data[j]? = some b
  headers : ∀ x ∈ qp.fragments, ∃ f ∈ got, x.front = f.front
  first : qp.first_in = true ↔ Covered (ipPieces got) 0
  last : qp.last_in = true ↔ ∃ f ∈ got, f.piece.stop = D.data.length
  last_len : qp.last_in = true → qp.len = D.data.length
  sizes : ∀ x ∈ qp.fragments, x.size ≤ qp.max_size.toNat
  bound : ∀ m, (∀ f ∈ got, f.size ≤ m) → qp.max_size.toNat ≤ m ∧ qp.max_df_size.toNat ≤ m
  df : (∀ f ∈ got, f.iph.dontFragment = false) → qp.max_df_size = 0
  blocks : ∀ x ∈ qp.fragments, InBlocks D.data.length x.piece

theorem Marked.mono {known known' : List IpSkb} {ecn : BitVec 8} (h : Marked known ecn)
    (hsub : ∀ f ∈ known, f ∈ known') : Marked known' ecn := by
  obtain ⟨marks, hne, hall, heq⟩ := h
  refine ⟨marks, hne, fun t ht => ?_, heq⟩
  obtain ⟨f, hf, htos⟩ := hall t ht
  exact ⟨f, hsub f hf, htos⟩

theorem Marked.insert {known : List IpSkb} {ecn : BitVec 8} (h : Marked known ecn) {skb : IpSkb}
    (hskb : skb ∈ known) : Marked known (ecn ||| ip4FragEcn skb.iph.tos) := by
  obtain ⟨marks, -, hall, rfl⟩ := h
  refine ⟨skb.iph.tos :: marks, by simp, ?_, rfl⟩
  exact List.forall_mem_cons.mpr ⟨⟨skb, hskb, rfl⟩, hall⟩

section

variable {D : Datagram} {got known : List IpSkb} {env : FragEnv} {qp qp' : Ipq} {skb : IpSkb} {stop : Nat}

/-- Everything is there as soon as everything is covered. -/
theorem Collecting.complete_iff (h : Collecting D got qp) (hgot : ∀ f ∈ got, D.IsFragment f) (hne : D.data ≠ []) :
    (qp.first_in && qp.last_in && !qp.complete && qp.meat == qp.len) = true ↔
      ∀ j < D.data.length, Covered (ipPieces got) j := by
  have hpos : 0 < D.data.length := List.length_pos_of_ne_nil hne
  have hmeat := h.holds.meat
  have hcount := h.holds.chain.ordered.length_eq_iff_covered
  rw [Nat.zero_add] at hcount
  simp only [h.covered] at hcount
  simp only [h.waiting, Bool.not_false, Bool.and_true, Bool.and_eq_true, beq_iff_eq, hmeat, Nat.cast_inj, hcount]
  constructor
  · rintro ⟨⟨-, hlast⟩, hall⟩ j hj
    exact hall j (Nat.zero_le _) ((h.last_len hlast).symm ▸ hj)
  · intro hall
    have hlast : qp.last_in = true := by
      obtain ⟨p, hp, hcov⟩ := hall (D.data.length - 1) (by omega)
      obtain ⟨f, hf, rfl⟩ := List.mem_map.mp hp
      have hle := (hgot f hf).stop_le
      exact h.last.mpr ⟨f, hf, by have := hcov.2; omega⟩
    refine ⟨⟨h.first.mpr (hall 0 hpos), hlast⟩, fun j _ hj => hall j ?_⟩
    rwa [h.last_len hlast] at hj

theorem openQueue_keep (hwaiting : qp.complete = false)
    (hnear : skb.frag_complete = true ∨ (ipFragTooFar env qp).1 = false) :
    ∃ rid, openQueue env qp skb = ({ qp with rid := rid }, none) := by
  rw [openQueue, if_neg (by simp [hwaiting])]
  by_cases hdone : skb.frag_complete = true
  · exact ⟨qp.rid, by rw [if_pos hdone]⟩
  · have hfar := hnear.resolve_left hdone
    exact ⟨(ipFragTooFar env qp).2.rid, by rw [if_neg hdone, if_neg (by simp [hfar]), ← ipFragTooFar_snd]⟩

theorem Collecting.rid (h : Collecting D got qp) (rid : BitVec 32) : Collecting D got { qp with rid := rid } :=
  { h with holds := ⟨h.holds.chain, h.holds.meat, h.holds.mem, h.holds.tail⟩ }

/-- No fragment of the datagram is turned away for where it ends. -/
theorem fragStop_fragment (h : Collecting D got qp) (hf : D.IsFragment skb) :
    ∃ qp', fragStop qp skb = (qp', some skb.piece.stop) := by
  have hle := hf.stop_le
  have hlen := h.len_le
  have hstop : skb.piece.stop = skb.iph.offset + skb.ipData.length := rfl
  have hmod := skb.iph.offset_mod
  rw [fragStop]
  cases hmore : skb.iph.moreFragments with
  | false =>
      have hend := hf.last.mp hmore
      have hnot : (decide (skb.iph.offset + skb.ipData.length < qp.len) ||
          qp.last_in && skb.iph.offset + skb.ipData.length != qp.len) = false := by
        cases hin : qp.last_in with
        | false =>
            rw [Bool.false_and, Bool.or_false, decide_eq_false_iff_not]
            omega
        | true =>
            have hqlen := h.last_len hin
            rw [Bool.or_eq_false_iff, decide_eq_false_iff_not, Bool.true_and, bne_eq_false_iff_eq]
            omega
      simp only [Bool.not_false, if_true, hnot, Bool.false_eq_true, if_false]
      exact ⟨_, rfl⟩
  | true =>
      have hblocks := hf.blocks hmore
      have hwhole : (skb.iph.offset + skb.ipData.length) / 8 * 8 = skb.piece.stop := by omega
      have hlt : skb.piece.stop < D.data.length := by
        refine Nat.lt_of_le_of_ne hle fun heq => ?_
        rw [hf.last.mpr heq] at hmore
        cases hmore
      simp only [Bool.not_true, Bool.false_eq_true, if_false, hwhole]
      by_cases hlong : qp.len < skb.piece.stop
      · have hin : ¬ qp.last_in = true := by
          intro hin
          have hqlen := h.last_len hin
          omega
        rw [if_pos hlong, if_neg hin]
        exact ⟨_, rfl⟩
      · rw [if_neg hlong]
        exact ⟨_, rfl⟩

theorem eatNext_ample {pull_next : Bool} (hpull : pull_next = true) (chain : List FragSkb) :
    (eatNext pull_next stop chain).ok = true := by
  by_contra hfail
  rw [Bool.not_eq_true] at hfail
  induction chain with
  | nil => simp [eatNext] at hfail
  | cons next rest ih =>
      rw [eatNext, if_pos hpull] at hfail
      split_ifs at hfail
      exact ih hfail

/-- With enough memory a fragment finds its place, unless all of it is there. -/
theorem insertFrag_ample (hqp : QueueHolds qp) (henv : env.Ample) (hstop : StopOk skb stop) :
    (insertFrag env qp skb stop = (qp, .error .einval) ∧
        ∀ j, (skb.pieceTo stop).Covers j → Covered (pieces qp.fragments) j) ∨
      ∃ qp' prev, insertFrag env qp skb stop = (qp', .ok prev) := by
  have hsplit := findPlace_splitAt hqp skb.iph.offset
  rw [insertFrag]
  generalize (findPlace qp skb.iph.offset).1 = before, (findPlace qp skb.iph.offset).2 = after at hsplit ⊢
  cases hcut : cutFront env before.getLast? (fragSkb qp skb stop) stop with
  | ok frag => exact Or.inr ⟨_, _, by simp only [eatNext_ample henv.pull_next]; rfl⟩
  | error e =>
      refine Or.inl ?_
      unfold cutFront at hcut
      split at hcut
      case h_1 => cases hcut
      case h_2 prev hprev =>
        dsimp only at hcut
        rw [fragSkb_offset] at hcut
        split_ifs at hcut with hnone hgone hpull
        · obtain rfl := Except.error.inj hcut
          refine ⟨rfl, fun j hj => ?_⟩
          -- the one in front of it has all of it
          have hmem := List.mem_of_getLast? hprev
          have hlt := hsplit.before_lt prev.piece (List.mem_map_of_mem hmem)
          have hto := hstop.pieceTo_stop
          refine ⟨prev.piece, List.mem_map_of_mem (by simp [hsplit.eq, hmem]), ?_⟩
          have hlo := hj.1
          have hhi := hj.2
          simp only [FragSkb.piece_start] at hlt
          simp only [IpSkb.pieceTo] at hlo
          simp only [Piece.Covers, FragSkb.piece_start, Piece.stop, FragSkb.piece_data] at hhi hto ⊢
          omega
        · simp [henv.pull_front] at hpull

/-- The fragment with its end is the fragment. -/
theorem pieceTo_piece_stop (skb : IpSkb) : skb.pieceTo skb.piece.stop = skb.piece := by
  have hlen : skb.piece.stop - skb.iph.offset = skb.ipData.length := Nat.add_sub_cancel_left ..
  rw [IpSkb.pieceTo, hlen, List.take_length]
  rfl

/-- What the queue knows of where the datagram ends, after it has heard of one more fragment. -/
theorem Collecting.stopFound (h : Collecting D got qp) (hf : D.IsFragment skb)
    (hfound : StopFound qp skb qp' skb.piece.stop) :
    QueueHolds qp' ∧ qp'.len ≤ D.data.length ∧
      (qp'.last_in = true ↔ ∃ f ∈ skb :: got, f.piece.stop = D.data.length) ∧
      (qp'.last_in = true → qp'.len = D.data.length) := by
  have hle := hf.stop_le
  have hchain := h.holds.chain.mono hfound.len_le
  have hholds : QueueHolds qp' := by
    rw [hfound.eq]
    exact ⟨hchain, h.holds.meat, h.holds.mem, h.holds.tail⟩
  cases hmore : skb.iph.moreFragments with
  | false =>
      obtain ⟨hin, hlen, -⟩ := hfound.last hmore
      have hend := hf.last.mp hmore
      refine ⟨hholds, by omega, ?_, fun _ => by omega⟩
      exact iff_of_true hin ⟨skb, List.mem_cons_self .., hend⟩
  | true =>
      obtain ⟨hin, hkeep, -⟩ := hfound.more hmore
      have hnot : skb.piece.stop ≠ D.data.length := by
        intro heq
        rw [hf.last.mpr heq] at hmore
        cases hmore
      refine ⟨hholds, ?_, ?_, ?_⟩
      · rw [hfound.len_eq]
        exact max_le h.len_le hle
      · rw [hin, h.last]
        constructor
        · rintro ⟨f, hfm, heq⟩
          exact ⟨f, List.mem_cons_of_mem _ hfm, heq⟩
        · rintro ⟨f, hfm, heq⟩
          rcases List.mem_cons.mp hfm with rfl | hfm
          · exact absurd heq hnot
          · exact ⟨f, hfm, heq⟩
      · intro hlast
        rw [hin] at hlast
        rw [hkeep hlast, h.last_len hlast]

/-- The fragment is where it belongs. -/
theorem Collecting.inserted {qp₂ qp₃ : Ipq} (h : Collecting D got qp) (hf : D.IsFragment skb)
    (hfound : StopFound qp skb qp₂ skb.piece.stop) (hins : Inserted qp₂ skb skb.piece.stop qp₃) :
    Collecting D (skb :: got) qp₃ := by
  obtain ⟨hholds, hlen, hlast, hlastlen⟩ := h.stopFound hf hfound
  have hfrags : qp₂.fragments = qp.fragments := by rw [hfound.eq]
  have hfirst₂ : qp₂.first_in = qp.first_in := by rw [hfound.eq]
  have hwait : qp₂.complete = qp.complete := by rw [hfound.eq]
  have hmax₂ : qp₂.max_size = qp.max_size ∧ qp₂.max_df_size = qp.max_df_size := by rw [hfound.eq]; exact ⟨rfl, rfl⟩
  obtain ⟨before, after, hsplit, hlay⟩ := hins.laid
  rw [pieceTo_piece_stop] at hlay
  have hord := hholds.chain.ordered
  rw [hsplit.eq, pieces_append] at hord
  refine ⟨hins.holds, hins.complete.trans (hwait.trans h.waiting), hins.len ▸ hlen, fun j => ?_, ?_, ?_, ?_, ?_, ?_,
    ?_, ?_, ?_, ?_⟩
  · have hcov := covered_lay hord (fun q hq => (hsplit.before_lt q hq).le) hsplit.le_after hlay (j := j)
    rw [hcov, ← pieces_append, ← hsplit.eq, hfrags, h.covered, ipPieces_cons, covered_cons, or_comm]
  · intro x hx j b hat
    obtain ⟨r, hr, hat'⟩ := at_of_lay hlay (List.mem_map_of_mem hx) hat
    rcases List.mem_cons.mp hr with rfl | hr
    · exact hf.data j b hat'
    · rw [← pieces_append, ← hsplit.eq, hfrags] at hr
      obtain ⟨y, hy, rfl⟩ := List.mem_map.mp hr
      exact h.data y hy j b hat'
  · intro x hx
    rcases hins.headers x hx with heq | ⟨y, hy, heq⟩
    · exact ⟨skb, List.mem_cons_self .., heq⟩
    · obtain ⟨f, hfm, heq'⟩ := h.headers y (hfrags ▸ hy)
      exact ⟨f, List.mem_cons_of_mem _ hfm, heq.trans heq'⟩
  · rw [hins.first_in, hfirst₂, h.first, ipPieces_cons, covered_cons, hf.covers_zero_iff, or_comm]
  · rw [hins.last_in, hlast]
  · rw [hins.last_in, hins.len]
    exact hlastlen
  · obtain ⟨hle, hall⟩ := hins.sizes hf.size_lt
    intro x hx
    rcases hall x hx with hnew | ⟨y, hy, hsize⟩
    · exact hnew
    · have hold := h.sizes y (hfrags ▸ hy)
      rw [hmax₂.1] at hle
      omega
  · intro m hm
    obtain ⟨hskb, hrest⟩ := List.forall_mem_cons.mp hm
    obtain ⟨hmax, hdf⟩ := h.bound m hrest
    rw [← hmax₂.1] at hmax
    rw [← hmax₂.2] at hdf
    refine ⟨hins.max_size.trans (max_le hmax hskb), ?_⟩
    have hnew := hins.max_df_size
    split at hnew
    · exact hnew.trans (max_le hdf hskb)
    · exact hnew.symm ▸ hdf
  · intro hnone
    obtain ⟨hskb, hrest⟩ := List.forall_mem_cons.mp hnone
    have hnew := hins.max_df_size
    rw [hskb, if_neg (by simp)] at hnew
    rw [hnew, hmax₂.2, h.df hrest]
  · -- it is cut where something ends that is not the last
    intro x hx
    have hxfull := (hins.holds.chain.skbs x hx).full.start_lt
    have hxle := (Ordered.mem hins.holds.chain.ordered (List.mem_map_of_mem hx)).2
    have hall : ∀ r ∈ skb.piece :: (pieces before ++ pieces after), InBlocks D.data.length r := by
      rw [← pieces_append, ← hsplit.eq, hfrags]
      refine List.forall_mem_cons.mpr ⟨hf.inBlocks, fun r hr => ?_⟩
      obtain ⟨y, hy, rfl⟩ := List.mem_map.mp hr
      exact h.blocks y hy
    obtain ⟨⟨r, hr, hstop⟩, r', hr', hstart⟩ := bounds_of_lay hlay (List.mem_map_of_mem hx)
    refine ⟨?_, hstop ▸ (hall r hr).stop⟩
    have hlen' : qp₃.len ≤ D.data.length := hins.len ▸ hlen
    rcases hstart with heq | heq
    · exact heq ▸ (hall r' hr').start
    · rcases (hall r' hr').stop with hmod | hend
      · exact heq ▸ hmod
      · omega

/-- All of the fragment was there. -/
theorem Collecting.again {qp₂ : Ipq} (h : Collecting D got qp) (hf : D.IsFragment skb)
    (hfound : StopFound qp skb qp₂ skb.piece.stop)
    (hcov : ∀ j, skb.piece.Covers j → Covered (pieces qp.fragments) j) : Collecting D (skb :: got) qp₂ := by
  obtain ⟨hholds, hlen, hlast, hlastlen⟩ := h.stopFound hf hfound
  have hfrags : qp₂.fragments = qp.fragments := by rw [hfound.eq]
  have hfirst₂ : qp₂.first_in = qp.first_in := by rw [hfound.eq]
  have hwait : qp₂.complete = qp.complete := by rw [hfound.eq]
  have hsame : ∀ j, Covered (ipPieces (skb :: got)) j ↔ Covered (ipPieces got) j := by
    intro j
    rw [ipPieces_cons, covered_cons, or_iff_right_of_imp]
    exact fun hj => (h.covered j).mp (hcov j hj)
  have hmax₂ : qp₂.max_size = qp.max_size ∧ qp₂.max_df_size = qp.max_df_size := by rw [hfound.eq]; exact ⟨rfl, rfl⟩
  refine ⟨hholds, hwait.trans h.waiting, hlen, fun j => ?_, ?_, ?_, ?_, hlast, hlastlen, ?_, ?_, ?_, ?_⟩
  · rw [hfrags, hsame, h.covered]
  · rw [hfrags]
    exact h.data
  · intro x hx
    obtain ⟨f, hfm, heq⟩ := h.headers x (hfrags ▸ hx)
    exact ⟨f, List.mem_cons_of_mem _ hfm, heq⟩
  · rw [hfirst₂, hsame, h.first]
  · rw [hfrags, hmax₂.1]
    exact h.sizes
  · rw [hmax₂.1, hmax₂.2]
    exact fun m hm => h.bound m (List.forall_mem_cons.mp hm).2
  · rw [hmax₂.2]
    exact fun hnone => h.df (List.forall_mem_cons.mp hnone).2
  · rw [hfrags]
    exact h.blocks

/-! ### The datagram -/

theorem sendCheck_common {f iph : IpHdr} (h : f.common = iph.common) (tot_len frag_off : BitVec 16) (tos : BitVec 8) :
    IpHdr.sendCheck { f with tot_len := tot_len, tos := tos, frag_off := frag_off } =
      IpHdr.sendCheck { iph with tot_len := tot_len, tos := tos, frag_off := frag_off } := by
  have heq := congrArg
    (fun c : IpHdr => IpHdr.sendCheck { c with tot_len := tot_len, tos := tos, frag_off := frag_off }) h
  exact heq

theorem common_hdrlen {f iph : IpHdr} (h : f.common = iph.common) : f.hdrlen = iph.hdrlen := by
  have heq := congrArg IpHdr.hdrlen h
  exact heq

/-- The skbs of a complete queue are the datagram. -/
theorem Collecting.glued (h : Collecting D got qp) (hgot : ∀ f ∈ got, D.IsFragment f) (hne : D.data ≠ [])
    (hall : ∀ j < D.data.length, Covered (ipPieces got) j) {head : FragSkb} {rest : List FragSkb}
    (hchain : qp.fragments = head :: rest) {dev : Option Nat} {ecn : BitVec 8}
    (hplain : D.iph.tos &&& 3 = 0 → ecn = 0) (hecn : (∀ f ∈ got, f.iph.tos = D.iph.tos) → ecn = 0) :
    D.Delivered got (gluedSkb qp ecn dev head rest) ∧ head.iph.hdrlen + qp.len ≤ 65535 := by
  have hready := (h.complete_iff hgot hne).mpr hall
  simp only [Bool.and_eq_true, beq_iff_eq] at hready
  obtain ⟨⟨⟨-, hlast⟩, -⟩, hmeat⟩ := hready
  have hlen := h.last_len hlast
  have hcount : (contents (pieces qp.fragments)).length = qp.len := by
    have hcounted := h.holds.meat
    omega
  have htiles : Tiles 0 qp.len (pieces qp.fragments) := h.holds.chain.ordered.tiles (by omega)
  have hzero : head.offset = 0 := by
    rw [hchain] at htiles
    exact htiles.1
  have hpulled := (h.holds.chain.skbs head (by simp [hchain])).pulled
  have hnil : head.pulled = [] := List.eq_nil_of_length_eq_zero (by omega)
  obtain ⟨f, hf, hfront⟩ := h.headers head (by simp [hchain])
  have heq : head.iph = f.iph := congrArg Prod.snd hfront
  have hcommon : head.iph.common = D.iph.common := by
    rw [heq]
    exact (hgot f hf).header (by rw [← heq]; omega)
  have hhdrlen := common_hdrlen hcommon
  have hheadsize := h.sizes head (by simp [hchain])
  have hmaxle : qp.max_size.toNat ≤ (gluedSkb qp ecn dev head rest).frag_max_size.toNat := by
    simp only [gluedSkb]
    split <;> omega
  have hhdr : (gluedSkb qp ecn dev head rest).iph.hdrlen = head.iph.hdrlen := rfl
  refine ⟨⟨?_, ⟨f, hf, by rw [← heq]; omega, congrArg Prod.fst hfront⟩, ⟨head.iph.tos ||| ecn, if qp.max_df_size = qp.max_size then ipDf else 0, ?_, ?_, ?_, ?_, ?_⟩, ?_,
    ⟨?_, ?_⟩, ?_, ?_⟩, ?_⟩
  · have hdata : (gluedSkb qp ecn dev head rest).ipData = contents (pieces qp.fragments) := by
      rw [contents_pieces, hchain]
      simp [gluedSkb, IpSkb.ipData, hnil]
    rw [hdata]
    apply List.ext_getElem?
    intro j
    cases hb : (contents (pieces qp.fragments))[j]? with
    | none =>
        rw [List.getElem?_eq_none_iff, hcount, hlen] at hb
        exact (List.getElem?_eq_none hb).symm
    | some b =>
        obtain ⟨p, hp, hat⟩ := htiles.at_of_contents hb
        obtain ⟨x, hx, rfl⟩ := List.mem_map.mp hp
        rw [Nat.zero_add] at hat
        exact (h.data x hx j b hat).symm
  · split <;> simp
  · have hcapable := (hgot f hf).capable
    rw [heq]
    by_cases hzerotos : D.iph.tos &&& 3 = 0
    · have hsame : f.iph.tos ||| 0 = f.iph.tos := BitVec.or_zero
      rwa [hplain hzerotos, hsame]
    · refine iff_of_false (fun hboth => mt hcapable.mp hzerotos ?_) hzerotos
      rw [BitVec.and_or_distrib_right] at hboth
      exact (BitVec.or_eq_zero_iff.mp hboth).1
  · intro hsame
    rw [hecn hsame, heq, hsame f hf]
    exact BitVec.or_zero
  · intro hnone
    rw [h.df hnone, if_neg]
    intro heqz
    have hpos : 0 < head.size := by
      simp only [FragSkb.size, IpHdr.hdrlen, iphdrLen]
      omega
    have hzero : qp.max_size.toNat = 0 := by
      rw [← heqz]
      rfl
    omega
  · rw [← hlen, ← hhdrlen]
    exact sendCheck_common hcommon _ _ _
  · intro m hm
    obtain ⟨hmax, hdf⟩ := h.bound m hm
    simp only [gluedSkb]
    split <;> assumption
  · rw [hhdr]
    simp only [gluedSkb, hnil, List.nil_append]
    exact hheadsize.trans hmaxle
  · exact fun x hx => (h.sizes x (by rw [hchain]; exact List.mem_cons_of_mem _ hx)).trans hmaxle
  · -- a head with others behind it does not end at the end
    have hheadfull := (h.holds.chain.skbs head (by simp [hchain])).full
    cases rest with
    | nil => exact fun hnil => absurd rfl hnil
    | cons x xs =>
        intro _
        rw [hchain] at htiles
        have hnext := (h.holds.chain.skbs x (by simp [hchain])).full.start_lt
        have hxle := Ordered.le htiles.2.2.ordered
        have hstart : x.piece.start = head.piece.stop := htiles.2.1
        have hstop := (h.blocks head (by simp [hchain])).stop
        have hheadstop : head.piece.stop = head.data.length := by
          simp only [Piece.stop, FragSkb.piece_start, FragSkb.piece_data, hzero, Nat.zero_add]
        simp only [gluedSkb, hnil, List.nil_append]
        exact ⟨hheadfull, by omega⟩
  · exact fun x hx => (h.holds.chain.skbs x (by rw [hchain]; exact List.mem_cons_of_mem _ hx)).full
  · have hle := D.length_le
    omega

theorem ipFragQueue_error {qp₁ qp₂ qp₃ : Ipq} {e : DefragErr} (hopen : openQueue env qp skb = (qp₁, none))
    (hstop : fragStop qp₁ skb = (qp₂, some stop)) (hne : stop ≠ skb.iph.offset) (henv : env.Ample)
    (hins : insertFrag env qp₂ skb stop = (qp₃, .error e)) : ipFragQueue env qp skb = (qp₃, .error e) := by
  simp [ipFragQueue, hopen, hstop, hne, henv.pull_header, henv.trim, hins]

theorem ipFragQueue_ok {qp₁ qp₂ qp₃ : Ipq} {prev : Bool} (hopen : openQueue env qp skb = (qp₁, none))
    (hstop : fragStop qp₁ skb = (qp₂, some stop)) (hne : stop ≠ skb.iph.offset) (henv : env.Ample)
    (hins : insertFrag env qp₂ skb stop = (qp₃, .ok prev)) :
    ipFragQueue env qp skb = finishQueue env qp₃ prev skb.dev := by
  simp [ipFragQueue, hopen, hstop, hne, henv.pull_header, henv.trim, hins]

/-- **One fragment**: the datagram is handed on if it is all there now, and the queue collects if not. -/
theorem ipFragQueue_collects (h : Collecting D got qp) (hgot : ∀ f ∈ got, D.IsFragment f)
    (hf : D.IsFragment skb) (henv : env.Ample) (hmarked : Marked (skb :: got) qp.ecn)
    (hnear : skb.frag_complete = true ∨ (ipFragTooFar env qp).1 = false)
    (hmissing : ∃ j < D.data.length, ¬ Covered (ipPieces got) j) :
    ((∀ j < D.data.length, Covered (ipPieces (skb :: got)) j) ∧
      (ipFragQueue env qp skb).1.complete = true ∧
      ∃ pkt, (ipFragQueue env qp skb).2 = .ok pkt ∧ D.Delivered (skb :: got) pkt) ∨
    ((∃ j < D.data.length, ¬ Covered (ipPieces (skb :: got)) j) ∧
      (ipFragQueue env qp skb).1.key = qp.key ∧
      Collecting D (skb :: got) (ipFragQueue env qp skb).1 ∧
      Marked (skb :: got) (ipFragQueue env qp skb).1.ecn ∧
      ∃ e, (ipFragQueue env qp skb).2 = .error e ∧ (e = .einprogress ∨ e = .einval)) := by
  have hgot' : ∀ f ∈ skb :: got, D.IsFragment f := List.forall_mem_cons.mpr ⟨hf, hgot⟩
  have hne : D.data ≠ [] := by
    obtain ⟨j, hj, -⟩ := hmissing
    exact List.ne_nil_of_length_pos (by omega)
  obtain ⟨rid, hopen⟩ := openQueue_keep h.waiting hnear
  have hrid := h.rid rid
  obtain ⟨qp₂, hstop⟩ := fragStop_fragment hrid hf
  have hfound := fragStop_some hstop
  have hecn₂ : qp₂.ecn = qp.ecn := by rw [hfound.eq]
  have hkey₂ : qp₂.key = qp.key := by rw [hfound.eq]
  have hlt := hf.full.start_lt
  have hstopOk : StopOk skb skb.piece.stop := ⟨hlt, le_rfl⟩
  have hnot : skb.piece.stop ≠ skb.iph.offset := Nat.ne_of_gt hlt
  obtain ⟨hholds₂, -, -, -⟩ := hrid.stopFound hf hfound
  rcases insertFrag_ample hholds₂ henv hstopOk with ⟨hdrop, hcov⟩ | ⟨qp₃, prev, hins⟩
  · -- nothing of it is new
    rw [ipFragQueue_error hopen hstop hnot henv hdrop]
    rw [pieceTo_piece_stop] at hcov
    have hfrags : qp₂.fragments = qp.fragments := by rw [hfound.eq]
    rw [hfrags] at hcov
    refine Or.inr ⟨?_, hkey₂, hrid.again hf hfound hcov, hecn₂ ▸ hmarked, _, rfl, Or.inr rfl⟩
    obtain ⟨j, hj, hnot⟩ := hmissing
    refine ⟨j, hj, ?_⟩
    rw [ipPieces_cons, covered_cons]
    rintro (hcovers | hcovered)
    · exact hnot ((h.covered j).mp (hcov j hcovers))
    · exact hnot hcovered
  · rw [ipFragQueue_ok hopen hstop hnot henv hins]
    have hinserted := insertFrag_ok hholds₂ hstopOk hfound.le_len hins
    have hcollect := hrid.inserted hf hfound hinserted
    have hmarked₃ : Marked (skb :: got) qp₃.ecn := by
      rw [hinserted.ecn, hecn₂]
      exact hmarked.insert (List.mem_cons_self ..)
    rw [finishQueue]
    by_cases hall : ∀ j < D.data.length, Covered (ipPieces (skb :: got)) j
    · left
      rw [if_pos ((hcollect.complete_iff hgot' hne).mpr hall), ipFragReasm]
      obtain ⟨marks, hmarks, hfrom, hecn⟩ := hmarked₃
      have htable : ipFragEcnTable qp₃.ecn ≠ none := by
        rw [hecn]
        refine @ipFragEcnTable_ecnOf _ D.iph.tos hmarks fun t ht => ?_
        obtain ⟨f, hfm, rfl⟩ := hfrom t ht
        exact (hgot' f hfm).capable
      obtain ⟨ecn, hval⟩ := Option.ne_none_iff_exists'.mp htable
      have hsame : (∀ f ∈ skb :: got, f.iph.tos = D.iph.tos) → ecn = 0 := by
        intro hsame
        have hzero := @ipFragEcnTable_same _ D.iph.tos hmarks fun t ht => by
          obtain ⟨f, hfm, rfl⟩ := hfrom t ht
          exact hsame f hfm
        rw [← hecn, hval] at hzero
        exact Option.some.inj hzero
      have hplain : D.iph.tos &&& 3 = 0 → ecn = 0 := by
        intro hzerotos
        have hone := ecnOf_plain hmarks fun t ht => by
          obtain ⟨f, hfm, rfl⟩ := hfrom t ht
          exact (hgot' f hfm).capable.mpr hzerotos
        rw [← hecn] at hone
        rw [hone] at hval
        exact (Option.some.inj hval).symm
      obtain ⟨head, rest, hchain⟩ := List.exists_cons_of_ne_nil hinserted.ne_nil
      obtain ⟨hdone, hlong⟩ := @Collecting.glued D (skb :: got) qp₃ hcollect hgot' hne hall head rest hchain skb.dev
        ecn hplain hsame
      rw [hval]
      dsimp only
      rw [if_neg (by simp [henv.clone]), hchain]
      dsimp only
      rw [if_neg (by omega), if_neg (by simp [henv.unclone])]
      exact ⟨hall, rfl, _, rfl, hdone⟩
    · right
      rw [if_neg (mt (hcollect.complete_iff hgot' hne).mp hall)]
      refine ⟨?_, hinserted.key.trans hkey₂, hcollect, hmarked₃, _, rfl, Or.inl rfl⟩
      simpa using hall

end

/-! ### Runs -/

/-- The event leaves the queue of the datagram alone, or gives it something, with the memory for it and not so late
that the queue starts anew. -/
def Datagram.KeptBy (D : Datagram) (queues : List Ipq) : FragEvent → Prop
  | .drop key => key ≠ D.key
  | .defrag find env skb user vif => skb.ipqKey user vif = D.key →
      find.create = true ∧ env.Ample ∧
        (skb.frag_complete = true ∨ ∀ qp ∈ queues, qp.key = D.key → (ipFragTooFar env qp).1 = false)

/-- All events of a run do. -/
def Datagram.Kept (D : Datagram) : List Ipq → List FragEvent → Prop
  | _, [] => True
  | queues, e :: es => D.KeptBy queues e ∧ D.Kept (fragStep queues e).1 es

/-- The queue of the datagram has what was given to it. -/
def Datagram.Gathered (D : Datagram) (got : List IpSkb) (queues : List Ipq) : Prop :=
  (got = [] ∧ ∀ qp ∈ queues, qp.key ≠ D.key) ∨
    ∃ qp, queues.find? (fun q => decide (q.key = D.key)) = some qp ∧ Collecting D got qp ∧ Marked got qp.ecn

section

variable {D : Datagram} {got : List IpSkb} {queues : List Ipq}

theorem find_storeQueue_ne {qp : Ipq} (h : qp.key ≠ D.key) :
    (storeQueue queues qp).find? (fun q => decide (q.key = D.key)) =
      queues.find? fun q => decide (q.key = D.key) := by
  have hothers : (queues.filter fun q => decide (q.key ≠ qp.key)).find? (fun q => decide (q.key = D.key)) =
      queues.find? fun q => decide (q.key = D.key) := by
    rw [List.find?_filter]
    congr 1
    funext q
    by_cases hq : q.key = D.key
    · simp [hq, Ne.symm h]
    · simp [hq]
  rw [storeQueue]
  split_ifs
  · exact hothers
  · rw [List.find?_cons_of_neg (by simpa using h), hothers]

theorem Datagram.Gathered.congr {queues' : List Ipq} (h : D.Gathered got queues)
    (hfind : queues'.find? (fun q => decide (q.key = D.key)) = queues.find? fun q => decide (q.key = D.key)) :
    D.Gathered got queues' := by
  rcases h with ⟨hgot, hnone⟩ | ⟨qp, hqp, hrest⟩
  · refine Or.inl ⟨hgot, ?_⟩
    have hnil : queues.find? (fun q => decide (q.key = D.key)) = none :=
      List.find?_eq_none.mpr fun q hq => by simpa using hnone q hq
    exact fun q hq => by simpa using List.find?_eq_none.mp (hfind.trans hnil) q hq
  · exact Or.inr ⟨qp, hfind.trans hqp, hrest⟩

theorem openQueue_key (env : FragEnv) (qp : Ipq) (skb : IpSkb) : (openQueue env qp skb).1.key = qp.key := by
  rw [openQueue, ipFragTooFar_snd]
  split_ifs
  · rfl
  · rfl
  · rw [ipFragReinit]
    split_ifs <;> rfl
  · rfl

theorem fragStop_key (qp : Ipq) (skb : IpSkb) : (fragStop qp skb).1.key = qp.key := by
  rw [fragStop]
  dsimp only
  split_ifs <;> rfl

theorem insertFrag_key (env : FragEnv) (qp : Ipq) (skb : IpSkb) (stop : Nat) :
    (insertFrag env qp skb stop).1.key = qp.key := by
  rw [insertFrag]
  dsimp only
  split
  · rfl
  · split_ifs <;> rfl

theorem finishQueue_key (env : FragEnv) (qp : Ipq) (prev : Bool) (dev : Option Nat) :
    (finishQueue env qp prev dev).1.key = qp.key := by
  have hreasm : (ipFragReasm env qp prev dev).1.key = qp.key := by
    unfold ipFragReasm
    repeat' split
    all_goals rfl
  rw [finishQueue]
  split
  · exact hreasm
  · rfl

theorem ipFragQueue_key (env : FragEnv) (qp : Ipq) (skb : IpSkb) : (ipFragQueue env qp skb).1.key = qp.key := by
  have hopen := openQueue_key env qp skb
  rw [ipFragQueue]
  generalize openQueue env qp skb = opened at hopen ⊢
  obtain ⟨qp₁, e | _⟩ := opened
  · have hstop := fragStop_key qp₁ skb
    dsimp only at hopen ⊢
    generalize fragStop qp₁ skb = found at hstop ⊢
    obtain ⟨qp₂, _ | stop⟩ := found
    · exact hstop.trans hopen
    · have hins := insertFrag_key env qp₂ skb stop
      dsimp only at hstop ⊢
      split_ifs
      · exact hstop.trans hopen
      · exact hstop.trans hopen
      · exact hstop.trans hopen
      · generalize insertFrag env qp₂ skb stop = inserted at hins ⊢
        obtain ⟨qp₃, _ | prev⟩ := inserted
        · exact hins.trans (hstop.trans hopen)
        · exact (finishQueue_key ..).trans (hins.trans (hstop.trans hopen))
  · exact hopen

theorem ipFind_key {find : FindEnv} {key : IpqKey} {tos : BitVec 8} {qp : Ipq}
    (h : ipFind find queues key tos = some qp) : qp.key = key := by
  rw [ipFind] at h
  cases hfound : queues.find? fun q => decide (q.key = key) with
  | some q =>
      rw [hfound] at h
      obtain rfl := Option.some.inj h
      simpa using List.find?_some hfound
  | none =>
      simp only [hfound] at h
      split_ifs at h
      obtain rfl := Option.some.inj h
      rfl

theorem covered_ipPieces_congr {got got' : List IpSkb} (h : ∀ f, f ∈ got ↔ f ∈ got') (j : Nat) :
    Covered (ipPieces got) j ↔ Covered (ipPieces got') j := by
  simp only [Covered, ipPieces, List.mem_map]
  simp only [h]

theorem Datagram.Delivered.congr {got got' : List IpSkb} {pkt : IpSkb} (h : D.Delivered got pkt)
    (hsame : ∀ f, f ∈ got ↔ f ∈ got') : D.Delivered got' pkt := by
  obtain ⟨tos, frag_off, hoff, hcapable, htos, hdf, heq⟩ := h.header
  obtain ⟨f, hf, hl2⟩ := h.l2
  refine ⟨h.data, ⟨f, (hsame f).mp hf, hl2⟩, ⟨tos, frag_off, hoff, hcapable, fun hall => ?_, fun hall => ?_, heq⟩, fun m hm => ?_,
    h.le_max_size, h.blocks, h.parts⟩
  · exact htos fun f hf => hall f ((hsame f).mp hf)
  · exact hdf fun f hf => hall f ((hsame f).mp hf)
  · exact h.max_size_le m fun f hf => hm f ((hsame f).mp hf)

theorem given_eq_some {e : FragEvent} {key : IpqKey} {skb : IpSkb} (h : e.given key = some skb) :
    ∃ find env user vif, e = .defrag find env skb user vif ∧ skb.ipqKey user vif = key := by
  cases e with
  | drop key' => simp [FragEvent.given] at h
  | defrag find env skb' user vif =>
      simp only [FragEvent.given] at h
      split_ifs at h with hown
      obtain rfl := Option.some.inj h
      exact ⟨find, env, user, vif, rfl, hown⟩

/-- What happens to other queues does not matter. -/
theorem Datagram.Gathered.foreign (h : D.Gathered got queues) {e : FragEvent} (hkept : D.KeptBy queues e)
    (hforeign : e.given D.key = none) : D.Gathered got (fragStep queues e).1 := by
  cases e with
  | drop key =>
      refine h.congr ?_
      rw [fragStep, ipqDrop, List.find?_filter]
      congr 1
      funext q
      by_cases hq : q.key = D.key
      · simp [hq, Ne.symm (show key ≠ D.key from hkept)]
      · simp [hq]
  | defrag find env skb user vif =>
      have hne : skb.ipqKey user vif ≠ D.key := by
        intro heq
        simp [FragEvent.given, heq] at hforeign
      rw [fragStep, ipDefrag]
      cases hfind : ipFind find queues (skb.ipqKey user vif) skb.iph.tos with
      | none => exact h
      | some qp =>
          refine h.congr (find_storeQueue_ne ?_)
          rw [ipFragQueue_key, ipFind_key hfind]
          exact hne

theorem ip4FragInit_collecting (key : IpqKey) (tos : BitVec 8) (peer : Bool) :
    Collecting D [] (ip4FragInit key tos peer) where
  holds := ⟨chainHolds_nil _ _, rfl, rfl, rfl⟩
  waiting := rfl
  len_le := Nat.zero_le _
  covered := fun j => by simp [ip4FragInit, ipPieces]
  data := by simp [ip4FragInit]
  headers := by simp [ip4FragInit]
  first := by simp [ip4FragInit, ipPieces]
  last := by simp [ip4FragInit]
  last_len := by simp [ip4FragInit]
  sizes := by simp [ip4FragInit]
  bound := fun m _ => ⟨Nat.zero_le m, Nat.zero_le m⟩
  df := fun _ => rfl
  blocks := by simp [ip4FragInit]

/-- The queue that a fragment of the datagram finds. -/
theorem Datagram.Gathered.found (h : D.Gathered got queues) {find : FindEnv} {env : FragEnv} {skb : IpSkb}
    (hcreate : find.create = true)
    (hnear : skb.frag_complete = true ∨ ∀ qp ∈ queues, qp.key = D.key → (ipFragTooFar env qp).1 = false) :
    ∃ qp, ipFind find queues D.key skb.iph.tos = some qp ∧ qp.key = D.key ∧ Collecting D got qp ∧
      Marked (skb :: got) qp.ecn ∧ (skb.frag_complete = true ∨ (ipFragTooFar env qp).1 = false) := by
  rcases h with ⟨rfl, hnone⟩ | ⟨qp, hqp, hcollect, hmarked⟩
  · have hfind : queues.find? (fun q => decide (q.key = D.key)) = none :=
      List.find?_eq_none.mpr fun q hq => by simpa using hnone q hq
    refine ⟨ip4FragInit D.key skb.iph.tos find.peer, ?_, rfl, ip4FragInit_collecting .., ?_, Or.inr ?_⟩
    · simp [ipFind, hfind, hcreate]
    · exact ⟨[skb.iph.tos], by simp, by simp, BitVec.zero_or.symm⟩
    · rw [ipFragTooFar]
      split <;> rfl
  · have hkey : qp.key = D.key := by simpa using List.find?_some hqp
    refine ⟨qp, ?_, hkey, hcollect, hmarked.mono fun f hf => List.mem_cons_of_mem _ hf, ?_⟩
    · simp [ipFind, hqp]
    · exact hnear.imp_right fun hall => hall qp (List.mem_of_find?_eq_some hqp) hkey

/-- A fragment of the datagram comes in. -/
theorem Datagram.Gathered.own (h : D.Gathered got queues) (hgot : ∀ f ∈ got, D.IsFragment f)
    {skb : IpSkb} (hf : D.IsFragment skb) (hmissing : ∃ j < D.data.length, ¬ Covered (ipPieces got) j) {find : FindEnv} {env : FragEnv} {user : BitVec 32} {vif : Nat}
    (hkept : D.KeptBy queues (.defrag find env skb user vif))
    (hown : skb.ipqKey user vif = D.key) :
    ((∀ j < D.data.length, Covered (ipPieces (skb :: got)) j) ∧
      ∃ pkt, (ipDefrag find env queues skb user vif).2 = .ok pkt ∧ D.Delivered (skb :: got) pkt) ∨
    ((∃ j < D.data.length, ¬ Covered (ipPieces (skb :: got)) j) ∧
      D.Gathered (skb :: got) (ipDefrag find env queues skb user vif).1 ∧
      ∃ e, (ipDefrag find env queues skb user vif).2 = .error e ∧ (e = .einprogress ∨ e = .einval)) := by
  obtain ⟨hcreate, henv, hnear⟩ := hkept hown
  obtain ⟨qp, hfind, hkey, hcollect, hmarked, hnear'⟩ := h.found hcreate hnear
  rw [ipDefrag, hown, hfind]
  rcases ipFragQueue_collects hcollect hgot hf henv hmarked hnear' hmissing with
    ⟨hall, -, pkt, hpkt, hdone⟩ | ⟨hstill, hkey', hcollect', hmarked', e, he, hcase⟩
  · exact Or.inl ⟨hall, pkt, hpkt, hdone⟩
  · refine Or.inr ⟨hstill, Or.inr ⟨(ipFragQueue env qp skb).1, ?_, hcollect', hmarked'⟩, e, he, hcase⟩
    have hopen : ¬ (ipFragQueue env qp skb).1.complete = true := by simp [hcollect'.waiting]
    simp only [storeQueue, if_neg hopen]
    simp [hkey', hkey]

/-- The fragments of the datagram that a run has given. -/
theorem givenTo_cons (key : IpqKey) (e : FragEvent) (es : List FragEvent) :
    givenTo key (e :: es) = (e.given key).toList ++ givenTo key es := by
  rw [givenTo, List.filterMap_cons]
  cases e.given key <;> rfl

/-- As long as something is missing the queue collects what is given to it. -/
theorem Datagram.Gathered.run {es : List FragEvent} (h : D.Gathered got queues) (hgot : ∀ f ∈ got, D.IsFragment f)
    (hgiven : ∀ f ∈ givenTo D.key es, D.IsFragment f) (hkept : D.Kept queues es)
    (hmissing : ∃ j < D.data.length, ¬ Covered (ipPieces (got ++ givenTo D.key es)) j) :
    ∃ got', (∀ f, f ∈ got' ↔ f ∈ got ++ givenTo D.key es) ∧ D.Gathered got' (fragRun queues es) ∧
      ∀ f ∈ got', D.IsFragment f := by
  induction es generalizing got queues with
  | nil => exact ⟨got, by simp [givenTo], h, hgot⟩
  | cons e es ih =>
      obtain ⟨hstep, hrest⟩ := hkept
      cases hnew : e.given D.key with
      | none =>
          have hcons : givenTo D.key (e :: es) = givenTo D.key es := by rw [givenTo_cons, hnew]; rfl
          rw [hcons] at hgiven hmissing ⊢
          exact ih (h.foreign hstep hnew) hgot hgiven hrest hmissing
      | some skb =>
          have hcons : givenTo D.key (e :: es) = skb :: givenTo D.key es := by rw [givenTo_cons, hnew]; rfl
          obtain ⟨hskb, hlater⟩ := List.forall_mem_cons.mp (hcons ▸ hgiven)
          have hmem : ∀ f, f ∈ skb :: got ++ givenTo D.key es ↔ f ∈ got ++ givenTo D.key (e :: es) := by
            intro f
            rw [hcons]
            simp only [List.cons_append, List.mem_cons, List.mem_append]
            tauto
          have hcov : ∀ j, Covered (ipPieces (skb :: got ++ givenTo D.key es)) j ↔
              Covered (ipPieces (got ++ givenTo D.key (e :: es))) j := covered_ipPieces_congr hmem
          have hmissing' : ∃ j < D.data.length, ¬ Covered (ipPieces (skb :: got ++ givenTo D.key es)) j := by
            obtain ⟨j, hj, hnot⟩ := hmissing
            exact ⟨j, hj, mt (hcov j).mp hnot⟩
          have hnow : ∃ j < D.data.length, ¬ Covered (ipPieces got) j := by
            obtain ⟨j, hj, hnot⟩ := hmissing
            exact ⟨j, hj, fun hc => hnot (by rw [ipPieces, List.map_append]; exact covered_append.mpr (Or.inl hc))⟩
          have hgot' : ∀ f ∈ skb :: got, D.IsFragment f := List.forall_mem_cons.mpr ⟨hskb, hgot⟩
          obtain ⟨find, env, user, vif, rfl, hown⟩ := given_eq_some hnew
          rcases h.own hgot hskb hnow hstep hown with ⟨hall, -⟩ | ⟨-, hgather, -⟩
          · -- with everything covered nothing is missing
            obtain ⟨j, hj, hnot⟩ := hmissing'
            refine absurd ?_ hnot
            rw [ipPieces, List.map_append]
            exact covered_append.mpr (Or.inl (hall j hj))
          · obtain ⟨got', hgot'', hrun⟩ := ih hgather hgot' hlater hrest hmissing'
            exact ⟨got', fun f => (hgot'' f).trans (hmem f), hrun⟩

end

/-- Both parts as one. -/
def wholeDatagram (user : BitVec 32) : Datagram where
  key := firstPart.ipqKey user 0
  iph := firstPart.iph
  data := [1, 2, 3, 4, 5, 6, 7, 8, 9, 10]
  length_le := by decide

theorem firstPart_isFragment (user : BitVec 32) : (wholeDatagram user).IsFragment firstPart where
  data := by
    rintro j b ⟨-, hb⟩
    obtain ⟨hlt, rfl⟩ := List.getElem?_eq_some_iff.mp hb
    change j < 8 at hlt
    interval_cases j <;> rfl
  nonempty := by decide
  last := by
    change firstPart.iph.moreFragments = false ↔ firstPart.piece.stop = 10
    decide
  blocks := by decide
  header := fun _ => rfl
  capable := Iff.rfl
  size_lt := by decide

theorem lastPart_isFragment (user : BitVec 32) : (wholeDatagram user).IsFragment lastPart where
  data := by
    rintro j b ⟨hle, hb⟩
    obtain ⟨hlt, rfl⟩ := List.getElem?_eq_some_iff.mp hb
    change 8 ≤ j at hle
    change j - 8 < 2 at hlt
    obtain rfl | rfl : j = 8 ∨ j = 9 := by omega
    · rfl
    · rfl
  nonempty := by decide
  last := by
    change lastPart.iph.moreFragments = false ↔ lastPart.piece.stop = 10
    decide
  blocks := by decide
  header := fun hzero => absurd hzero (by decide)
  capable := Iff.rfl
  size_lt := by decide

theorem plentyFrag_ample : plentyFrag.Ample := ⟨rfl, rfl, rfl, rfl, rfl, rfl⟩

theorem lastPartCame_kept (user : BitVec 32) : (wholeDatagram user).Kept [] (lastPartCame user) :=
  ⟨fun _ => ⟨rfl, plentyFrag_ample, Or.inr (by simp)⟩, trivial⟩

theorem givenTo_lastPartCame (user : BitVec 32) : givenTo (wholeDatagram user).key (lastPartCame user) = [lastPart] := by
  have hkey : lastPart.ipqKey user 0 = (wholeDatagram user).key := rfl
  simp [lastPartCame, givenTo, FragEvent.given, hkey]

theorem lastPart_missing : ∃ j < 10, ¬ Covered (ipPieces [lastPart]) j := by
  refine ⟨0, by decide, ?_⟩
  rintro ⟨p, hp, hcov⟩
  obtain rfl := List.mem_singleton.mp hp
  exact absurd hcov.1 (by decide)

end OvsDatapath.Frag
