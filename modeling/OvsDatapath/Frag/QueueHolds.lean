import OvsDatapath.Frag.Ipq
import OvsDatapath.Lib.Cover
import Mathlib.Data.List.TakeWhile

/-!
# What a queue of fragments keeps

The chain of a queue is a list of pieces in order and without overlap, whatever fragments come in and wherever an
allocation fails. `insertFrag` lays a piece into it, as `Lib.lay` says; the tail pointer, by which it saves the
search, is the one that the search would find. `meat` is the length of what is there and the memory charged is
that of the skbs that are there, so counting decides whether the datagram is complete and nothing stays charged
when the queue goes.
-/

namespace OvsDatapath.Frag

open OvsDatapath.Lib OvsDatapath.Flow OvsDatapath.Stt

/-- What an skb of a chain has of the datagram. -/
def FragSkb.piece (x : FragSkb) : Piece (BitVec 8) := ⟨x.offset, x.data⟩

/-- What a fragment has of the datagram. -/
def IpSkb.piece (skb : IpSkb) : Piece (BitVec 8) := ⟨skb.iph.offset, skb.ipData⟩

@[simp] theorem FragSkb.piece_start (x : FragSkb) : x.piece.start = x.offset := rfl

@[simp] theorem FragSkb.piece_data (x : FragSkb) : x.piece.data = x.data := rfl

@[simp] theorem FragSkb.pull_piece (x : FragSkb) (i : Nat) : (x.pull i).piece = x.piece.cutFront i := rfl

/-- The pieces of a chain. -/
def pieces (chain : List FragSkb) : List (Piece (BitVec 8)) := chain.map FragSkb.piece

@[simp] theorem pieces_nil : pieces [] = [] := rfl

@[simp] theorem pieces_cons (x : FragSkb) (xs : List FragSkb) : pieces (x :: xs) = x.piece :: pieces xs := rfl

@[simp] theorem pieces_append (xs ys : List FragSkb) : pieces (xs ++ ys) = pieces xs ++ pieces ys :=
  List.map_append

theorem contents_pieces (chain : List FragSkb) : contents (pieces chain) = chain.flatMap FragSkb.data := by
  simp [contents, pieces, List.flatMap_map]

@[simp] theorem sumTruesize_cons (x : FragSkb) (xs : List FragSkb) :
    sumTruesize (x :: xs) = x.truesize + sumTruesize xs := rfl

@[simp] theorem sumTruesize_append (xs ys : List FragSkb) :
    sumTruesize (xs ++ ys) = sumTruesize xs + sumTruesize ys := by
  simp [sumTruesize]

/-! ### The chain and its counters -/

/-- An skb of a chain: it holds something, and what was pulled off it lies between its header and its data. -/
structure SkbHolds (x : FragSkb) : Prop where
  full : x.piece.Full
  pulled : x.offset = x.iph.offset + x.pulled.length

/-- A chain whose addresses are below `fresh`. -/
structure ChainHolds (len fresh : Nat) (chain : List FragSkb) : Prop where
  ordered : Ordered 0 len (pieces chain)
  skbs : ∀ x ∈ chain, SkbHolds x
  addrs : (chain.map FragSkb.addr).Nodup
  fresh : ∀ x ∈ chain, x.addr < fresh

/-- A queue and its counters. -/
structure QueueHolds (qp : Ipq) : Prop where
  chain : ChainHolds qp.len qp.fresh qp.fragments
  meat : qp.meat = (contents (pieces qp.fragments)).length
  mem : qp.mem = sumTruesize qp.fragments
  tail : qp.fragments_tail = qp.fragments.getLast?.map FragSkb.addr

theorem ChainHolds.mono {len len' fresh : Nat} {chain : List FragSkb} (h : ChainHolds len fresh chain)
    (hlen : len ≤ len') : ChainHolds len' fresh chain :=
  { h with ordered := h.ordered.mono le_rfl hlen }

/-! ### Finding the place -/

theorem upTo_last {init : List FragSkb} {last : FragSkb} (h : ((init ++ [last]).map FragSkb.addr).Nodup) :
    upTo last.addr (init ++ [last]) = init ++ [last] := by
  induction init with
  | nil => simp [upTo]
  | cons x xs ih =>
      rw [List.cons_append, List.map_cons, List.nodup_cons] at h
      have hne : x.addr ≠ last.addr := fun heq => h.1 (by simp [heq])
      rw [List.cons_append, upTo, if_neg hne, ih h.2]

theorem find_last {init : List FragSkb} {last : FragSkb} (h : ((init ++ [last]).map FragSkb.addr).Nodup) :
    (init ++ [last]).find? (fun x => x.addr == last.addr) = some last := by
  rw [List.find?_append, List.find?_eq_none.mpr]
  · simp
  · intro x hx heq
    rw [List.map_append, List.nodup_append] at h
    exact h.2.2 x.addr (List.mem_map_of_mem hx) last.addr (by simp) (by simpa using heq)

/-- **The tail pointer saves the search and nothing else.** -/
theorem findPlace_eq {qp : Ipq} (h : QueueHolds qp) (offset : Nat) :
    findPlace qp offset =
      (qp.fragments.takeWhile fun x => x.offset < offset, qp.fragments.dropWhile fun x => x.offset < offset) := by
  rw [findPlace, h.tail]
  rcases List.eq_nil_or_concat' qp.fragments with hnil | ⟨init, last, heq⟩
  · simp [hnil]
  · have hnodup := h.chain.addrs
    have hord := h.chain.ordered
    rw [heq] at hnodup hord ⊢
    simp only [List.getLast?_append, List.getLast?_singleton, Option.some_or, Option.map_some, find_last hnodup,
      Option.any_some]
    split_ifs with hlt
    · -- the last one starts before the fragment, and so do all others
      have hall : ∀ x ∈ init ++ [last], decide (x.offset < offset) = true := by
        intro x hx
        rcases List.mem_append.mp hx with hx | hx
        · obtain ⟨c, hinit, hlast, -⟩ := ordered_append.mp ((pieces_append init [last]) ▸ hord)
          have hle := (Ordered.mem hinit (List.mem_map_of_mem hx)).2
          have hstart : x.offset ≤ x.piece.stop := Nat.le_add_right ..
          have hlast' : c ≤ last.offset := hlast
          have hlt' : last.offset < offset := by simpa using hlt
          exact decide_eq_true (by omega)
        · rw [List.mem_singleton.mp hx]
          exact hlt
      rw [upTo_last hnodup, List.takeWhile_eq_self_iff.mpr hall, List.dropWhile_eq_nil_iff.mpr hall]
    · rfl

/-! ### Clearing the way -/

section

variable {pull_next : Bool} {stop : Nat} {chain : List FragSkb}

/-- What the loop takes off the counters is what it takes off the chain. -/
theorem eatNext_counts : (contents (pieces chain)).length = (eatNext pull_next stop chain).meat +
      (contents (pieces (eatNext pull_next stop chain).next)).length ∧
    sumTruesize chain = (eatNext pull_next stop chain).mem + sumTruesize (eatNext pull_next stop chain).next := by
  induction chain with
  | nil => simp [eatNext]
  | cons next rest ih =>
      simp only [eatNext]
      split_ifs with hbehind hpart hok
      · simp
      · constructor
        · simp only [pieces_cons, FragSkb.pull_piece, contents_cons, FragSkb.piece_data, Piece.cutFront,
            List.length_append, List.length_drop]
          omega
        · simp [FragSkb.pull]
      · simp
      · simp only [pieces_cons, contents_cons, FragSkb.piece_data, List.length_append, sumTruesize_cons]
        omega

/-- If it succeeds, the way is clear. -/
theorem eatNext_pieces (h : (eatNext pull_next stop chain).ok = true) :
    pieces (eatNext pull_next stop chain).next = clip stop (pieces chain) := by
  induction chain with
  | nil => rfl
  | cons next rest ih =>
      have hlen : next.piece.stop = next.offset + next.data.length := rfl
      rw [eatNext] at h ⊢
      rw [pieces_cons, clip, FragSkb.piece_start]
      by_cases hbehind : stop ≤ next.offset
      case pos => simp only [if_pos hbehind, pieces_cons]
      case neg =>
        by_cases hpart : stop - next.offset < next.data.length
        case pos =>
          have hleft : ¬ next.piece.stop ≤ stop := by omega
          simp only [if_neg hbehind, if_pos hpart] at h
          have hok : pull_next = true := by
            by_contra hno
            simp [hno] at h
          simp only [if_neg hbehind, if_pos hpart, if_pos hok, if_neg hleft, pieces_cons, FragSkb.pull_piece]
        case neg =>
          have hgone : next.piece.stop ≤ stop := by omega
          simp only [if_neg hbehind, if_neg hpart] at h
          simp only [if_neg hbehind, if_neg hpart, if_pos hgone]
          exact ih h

/-- If it fails, it has dropped some and left the others as they were. -/
theorem eatNext_failed (h : (eatNext pull_next stop chain).ok = false) :
    ∃ gone, chain = gone ++ (eatNext pull_next stop chain).next ∧ (eatNext pull_next stop chain).next ≠ [] := by
  induction chain with
  | nil => simp [eatNext] at h
  | cons next rest ih =>
      rw [eatNext] at h ⊢
      split_ifs at h with hbehind hpart hok
      · simp only [if_neg hbehind, if_pos hpart, if_neg hok]
        exact ⟨[], rfl, by simp⟩
      · simp only [if_neg hbehind, if_neg hpart]
        obtain ⟨gone, heq, hne⟩ := ih h
        exact ⟨next :: gone, congrArg (next :: ·) heq, hne⟩

/-- The addresses of those that are left, which are the last ones. -/
theorem eatNext_addrs : ∃ gone, chain.map FragSkb.addr = gone ++ (eatNext pull_next stop chain).next.map FragSkb.addr := by
  induction chain with
  | nil => exact ⟨[], rfl⟩
  | cons next rest ih =>
      simp only [eatNext]
      split_ifs with hbehind hpart hok
      · exact ⟨[], rfl⟩
      · exact ⟨[], rfl⟩
      · exact ⟨[], rfl⟩
      · obtain ⟨gone, heq⟩ := ih
        exact ⟨next.addr :: gone, congrArg (next.addr :: ·) heq⟩

theorem pull_holds {x : FragSkb} {i : Nat} (h : SkbHolds x) (hi : i < x.data.length) : SkbHolds (x.pull i) where
  full := by
    simp only [Piece.Full, FragSkb.pull_piece, Piece.cutFront, FragSkb.piece_data, ne_eq, List.drop_eq_nil_iff]
    omega
  pulled := by
    have hpulled := h.pulled
    simp only [FragSkb.pull, List.length_append, List.length_take]
    omega

/-- How large the packet is that an skb of a chain could be sent as. -/
def FragSkb.size (x : FragSkb) : Nat := x.data.length + x.iph.hdrlen

/-- What is in front of the data of an skb. -/
def FragSkb.front (x : FragSkb) : List (BitVec 8) × IpHdr := (x.l2, x.iph)

/-- What is in front of the data of a packet. -/
def IpSkb.front (skb : IpSkb) : List (BitVec 8) × IpHdr := (skb.l2, skb.iph)

/-- Each one that is left comes from one that was there, with its headers. -/
theorem eatNext_mem {x : FragSkb} (hx : x ∈ (eatNext pull_next stop chain).next) :
    ∃ y ∈ chain, x.front = y.front ∧ x.size ≤ y.size ∧ (SkbHolds y → SkbHolds x) := by
  induction chain with
  | nil => simp [eatNext] at hx
  | cons next rest ih =>
      simp only [eatNext] at hx
      split_ifs at hx with hbehind hpart hok
      · exact ⟨x, hx, rfl, le_rfl, id⟩
      · rcases List.mem_cons.mp hx with rfl | hx
        · refine ⟨next, List.mem_cons_self .., rfl, ?_, fun h => pull_holds h hpart⟩
          simp [FragSkb.size, FragSkb.pull]
        · exact ⟨x, List.mem_cons_of_mem _ hx, rfl, le_rfl, id⟩
      · exact ⟨x, hx, rfl, le_rfl, id⟩
      · obtain ⟨y, hy, heq, hsize, hholds⟩ := ih hx
        exact ⟨y, List.mem_cons_of_mem _ hy, heq, hsize, hholds⟩

end

/-! ### The fragment -/

/-- What a fragment has between its offset and the place where it is cut off. -/
def IpSkb.pieceTo (skb : IpSkb) (stop : Nat) : Piece (BitVec 8) :=
  ⟨skb.iph.offset, skb.ipData.take (stop - skb.iph.offset)⟩

/-- The place is behind the offset and not behind the data. -/
structure StopOk (skb : IpSkb) (stop : Nat) : Prop where
  start_lt : skb.iph.offset < stop
  le_stop : stop ≤ skb.piece.stop

theorem StopOk.pieceTo_stop {skb : IpSkb} {stop : Nat} (h : StopOk skb stop) : (skb.pieceTo stop).stop = stop := by
  have hlt := h.start_lt
  have hle := h.le_stop
  simp only [Piece.stop, IpSkb.piece] at hle
  simp only [Piece.stop, IpSkb.pieceTo, List.length_take]
  omega

/-- What `cutFront` makes of a fragment. -/
structure FrontCut (qp : Ipq) (skb : IpSkb) (stop : Nat) (before : List FragSkb) (frag : FragSkb) : Prop where
  piece : frag.piece = behind (pieces before) (skb.pieceTo stop)
  left : ¬ stop ≤ frag.offset
  holds : SkbHolds frag
  front : frag.front = skb.front
  addr : frag.addr = qp.fresh
  size_le : frag.size ≤ skb.ipData.length + skb.iph.hdrlen

@[simp] theorem fragSkb_offset (qp : Ipq) (skb : IpSkb) (stop : Nat) :
    (fragSkb qp skb stop).offset = skb.iph.offset := rfl

theorem getLast?_pieces (before : List FragSkb) : (pieces before).getLast? = before.getLast?.map FragSkb.piece := by
  rw [pieces, List.getLast?_map]

theorem cutFront_ok {env : FragEnv} {qp : Ipq} {skb : IpSkb} {stop : Nat} {before : List FragSkb} {frag : FragSkb}
    (hstop : StopOk skb stop)
    (h : cutFront env before.getLast? (fragSkb qp skb stop) stop = .ok frag) : FrontCut qp skb stop before frag := by
  have hlen : (fragSkb qp skb stop).data.length = stop - skb.iph.offset := by
    have hto := hstop.pieceTo_stop
    simp only [Piece.stop, IpSkb.pieceTo] at hto
    simp only [fragSkb]
    omega
  have hlt := hstop.start_lt
  have hfull : SkbHolds (fragSkb qp skb stop) := by
    refine ⟨List.ne_nil_of_length_pos ?_, rfl⟩
    simp only [FragSkb.piece_data, hlen]
    omega
  have hsize : (fragSkb qp skb stop).size ≤ skb.ipData.length + skb.iph.hdrlen := by
    simp [FragSkb.size, fragSkb]
  unfold cutFront at h
  split at h
  case h_1 hnone =>
    obtain rfl := Except.ok.inj h
    refine ⟨?_, Nat.not_le.mpr hlt, hfull, rfl, rfl, hsize⟩
    rw [behind, getLast?_pieces, hnone]
    rfl
  case h_2 prev hprev =>
    have hbehind : behind (pieces before) (skb.pieceTo stop) =
        (fragSkb qp skb stop).piece.cutFront (prev.offset + prev.data.length - skb.iph.offset) := by
      rw [behind, getLast?_pieces, hprev]
      rfl
    dsimp only at h
    rw [fragSkb_offset] at h
    split_ifs at h with hnone hgone
    · obtain rfl := Except.ok.inj h
      refine ⟨?_, Nat.not_le.mpr hlt, hfull, rfl, rfl, hsize⟩
      rw [hbehind, hnone]
      rfl
    · obtain rfl := Except.ok.inj h
      refine ⟨hbehind.symm ▸ rfl, hgone, pull_holds hfull (by omega), rfl, rfl, hsize.trans' ?_⟩
      simp [FragSkb.size, FragSkb.pull]

/-! ### Inserting -/

/-- What is in front of an offset, and what is at the back of it. -/
structure SplitAt (qp : Ipq) (offset : Nat) (before after : List FragSkb) : Prop where
  eq : qp.fragments = before ++ after
  before_lt : ∀ q ∈ pieces before, q.start < offset
  le_after : ∀ q ∈ pieces after, offset ≤ q.start

theorem findPlace_splitAt {qp : Ipq} (h : QueueHolds qp) (offset : Nat) :
    SplitAt qp offset (findPlace qp offset).1 (findPlace qp offset).2 := by
  rw [findPlace_eq h]
  have heq : qp.fragments = (qp.fragments.takeWhile fun x => decide (x.offset < offset)) ++
      qp.fragments.dropWhile fun x => decide (x.offset < offset) := List.takeWhile_append_dropWhile.symm
  refine ⟨heq, ?_, ?_⟩
  · rintro q hq
    obtain ⟨x, hx, rfl⟩ := List.mem_map.mp hq
    simpa using List.mem_takeWhile_imp hx
  · have hord : Ordered 0 qp.len (pieces qp.fragments) := h.chain.ordered
    rw [heq, pieces_append] at hord
    obtain ⟨c, -, hafter⟩ := ordered_append.mp hord
    cases hdrop : qp.fragments.dropWhile fun x => decide (x.offset < offset) with
    | nil => simp
    | cons x xs =>
        have hstart : offset ≤ x.offset := by
          have hnot := List.head?_dropWhile_not (fun x : FragSkb => decide (x.offset < offset)) qp.fragments
          rw [hdrop] at hnot
          simpa using hnot
        rw [hdrop] at hafter
        intro q hq
        rcases List.mem_cons.mp hq with rfl | hq
        · exact hstart
        · have hle := (Ordered.mem hafter.2 hq).1
          have hstop : x.offset ≤ x.piece.stop := Nat.le_add_right ..
          omega

/-- What inserting a fragment leaves as it was. -/
structure SameLimits (qp qp' : Ipq) : Prop where
  key : qp'.key = qp.key
  len : qp'.len = qp.len
  last_in : qp'.last_in = qp.last_in
  complete : qp'.complete = qp.complete

/-- A fragment has been laid into the chain. -/
structure Inserted (qp : Ipq) (skb : IpSkb) (stop : Nat) (qp' : Ipq) : Prop extends SameLimits qp qp' where
  holds : QueueHolds qp'
  laid : ∃ before after, SplitAt qp skb.iph.offset before after ∧
    lay (pieces before) (pieces after) (skb.pieceTo stop) = some (pieces qp'.fragments)
  headers : ∀ x ∈ qp'.fragments, x.front = skb.front ∨ ∃ y ∈ qp.fragments, x.front = y.front
  first_in : qp'.first_in = true ↔ qp.first_in = true ∨ skb.iph.offset = 0
  ecn : qp'.ecn = qp.ecn ||| ip4FragEcn skb.iph.tos
  sizes : skb.ipData.length + skb.iph.hdrlen < 2 ^ 16 → qp.max_size.toNat ≤ qp'.max_size.toNat ∧
    ∀ x ∈ qp'.fragments, x.size ≤ qp'.max_size.toNat ∨ ∃ y ∈ qp.fragments, x.size ≤ y.size
  max_size : qp'.max_size.toNat ≤ max qp.max_size.toNat (skb.ipData.length + skb.iph.hdrlen)
  max_df_size : if skb.iph.dontFragment then
      qp'.max_df_size.toNat ≤ max qp.max_df_size.toNat (skb.ipData.length + skb.iph.hdrlen)
    else qp'.max_df_size = qp.max_df_size

/-- A fragment could not be inserted, and others may have gone for it. -/
structure Spared (qp qp' : Ipq) : Prop extends SameLimits qp qp' where
  holds : QueueHolds qp'
  fragments : ∀ x ∈ qp'.fragments, x ∈ qp.fragments

theorem getLast?_addr {xs ys : List FragSkb} {gone : List Nat}
    (h : xs.map FragSkb.addr = gone ++ ys.map FragSkb.addr) (hne : ys ≠ []) :
    xs.getLast?.map FragSkb.addr = ys.getLast?.map FragSkb.addr := by
  rw [← List.getLast?_map, ← List.getLast?_map, h, List.getLast?_append]
  obtain ⟨y, hy⟩ : ∃ y, ys.getLast? = some y := ⟨_, List.getLast?_eq_some_getLast hne⟩
  simp [hy]

section

variable {env : FragEnv} {qp qp' : Ipq} {skb : IpSkb} {stop : Nat} {before after : List FragSkb} {frag : FragSkb}

/-- The chain that is made of what is in front of a fragment, the fragment and what is left at the back of it. -/
theorem chain_inserted (h : QueueHolds qp) (hstop : StopOk skb stop) (hle : stop ≤ qp.len)
    (hsplit : SplitAt qp skb.iph.offset before after) (hfront : FrontCut qp skb stop before frag)
    (hok : (eatNext env.pull_next stop after).ok = true) :
    lay (pieces before) (pieces after) (skb.pieceTo stop) =
        some (pieces (before ++ frag :: (eatNext env.pull_next stop after).next)) ∧
      ChainHolds qp.len (qp.fresh + 1) (before ++ frag :: (eatNext env.pull_next stop after).next) := by
  have hlay : lay (pieces before) (pieces after) (skb.pieceTo stop) =
      some (pieces (before ++ frag :: (eatNext env.pull_next stop after).next)) := by
    rw [lay_eq_some_iff, ← hfront.piece, hstop.pieceTo_stop, pieces_append, pieces_cons, eatNext_pieces hok]
    exact ⟨hfront.left, rfl⟩
  obtain ⟨gone, hgone⟩ := @eatNext_addrs env.pull_next stop after
  have haddrs := h.chain.addrs
  rw [hsplit.eq, List.map_append, hgone] at haddrs
  have hfresh : ∀ a ∈ before.map FragSkb.addr ++ (eatNext env.pull_next stop after).next.map FragSkb.addr,
      a < qp.fresh := by
    intro a ha
    have hall : a ∈ qp.fragments.map FragSkb.addr := by
      rw [hsplit.eq, List.map_append, hgone]
      rcases List.mem_append.mp ha with ha | ha <;> simp [ha]
    obtain ⟨x, hx, rfl⟩ := List.mem_map.mp hall
    exact h.chain.fresh x hx
  refine ⟨hlay, ?_, ?_, ?_, ?_⟩
  · have hord := h.chain.ordered
    rw [hsplit.eq, pieces_append] at hord
    exact ordered_lay hord (Nat.zero_le _) (hstop.pieceTo_stop.trans_le hle) hlay
  · intro x hx
    rcases List.mem_append.mp hx with hx | hx
    · exact h.chain.skbs x (by simp [hsplit.eq, hx])
    · rcases List.mem_cons.mp hx with rfl | hx
      · exact hfront.holds
      · obtain ⟨y, hy, -, -, hholds⟩ := eatNext_mem hx
        exact hholds (h.chain.skbs y (by simp [hsplit.eq, hy]))
  · -- the address of the new one is fresh
    have hnodup : (before.map FragSkb.addr ++ (eatNext env.pull_next stop after).next.map FragSkb.addr).Nodup :=
      haddrs.sublist ((List.sublist_append_right gone _).append_left _)
    rw [List.map_append, List.map_cons, hfront.addr]
    refine List.perm_middle.nodup_iff.mpr (List.nodup_cons.mpr ⟨?_, hnodup⟩)
    exact fun hin => lt_irrefl _ (hfresh _ hin)
  · intro x hx
    rcases List.mem_append.mp hx with hx | hx
    · exact (hfresh x.addr (List.mem_append_left _ (List.mem_map_of_mem hx))).trans (Nat.lt_succ_self _)
    · rcases List.mem_cons.mp hx with rfl | hx
      · rw [hfront.addr]
        exact Nat.lt_succ_self _
      · exact (hfresh x.addr (List.mem_append_right _ (List.mem_map_of_mem hx))).trans (Nat.lt_succ_self _)

/-- The tail pointer stays where it is, unless nothing is left at the back of the fragment. -/
theorem tail_inserted (h : QueueHolds qp) (hsplit : SplitAt qp skb.iph.offset before after) :
    (if (eatNext env.pull_next stop after).next.isEmpty then some frag.addr else qp.fragments_tail) =
      (before ++ frag :: (eatNext env.pull_next stop after).next).getLast?.map FragSkb.addr := by
  by_cases hnil : (eatNext env.pull_next stop after).next = []
  · simp [hnil]
  · have hafter : after ≠ [] := by
      rintro rfl
      exact hnil rfl
    obtain ⟨gone, hgone⟩ := @eatNext_addrs env.pull_next stop after
    have hlast := getLast?_addr hgone hnil
    have htail := h.tail
    rw [hsplit.eq, List.getLast?_append] at htail
    obtain ⟨y, hy⟩ : ∃ y, (eatNext env.pull_next stop after).next.getLast? = some y :=
      ⟨_, List.getLast?_eq_some_getLast hnil⟩
    obtain ⟨z, hz⟩ : ∃ z, after.getLast? = some z := ⟨_, List.getLast?_eq_some_getLast hafter⟩
    rw [hz, Option.some_or] at htail
    rw [hz, hy] at hlast
    rw [List.getLast?_append, List.getLast?_cons, hy]
    simpa [hnil, htail] using hlast

/-- What is left of a fragment starts at zero if the fragment does. -/
theorem FrontCut.offset_eq_zero (hfront : FrontCut qp skb stop before frag)
    (hsplit : SplitAt qp skb.iph.offset before after) : frag.offset = 0 ↔ skb.iph.offset = 0 := by
  have hpiece := congrArg Piece.start hfront.piece
  constructor
  · intro hzero
    obtain ⟨n, hn, -⟩ := @behind_start _ (pieces before) (skb.pieceTo stop)
    rw [hn, Piece.cutFront_start, FragSkb.piece_start, hzero] at hpiece
    simp only [IpSkb.pieceTo] at hpiece
    omega
  · intro hzero
    -- nothing is in front of it
    have hnil : pieces before = [] := by
      refine List.eq_nil_iff_forall_not_mem.mpr fun q hq => ?_
      have hlt := hsplit.before_lt q hq
      omega
    rw [hnil] at hpiece
    exact hpiece.trans hzero

/-- The largest size so far, with one more size. -/
theorem sizeMax_le (old : BitVec 16) (n : Nat) :
    (if old.toNat < n then BitVec.ofNat 16 n else old).toNat ≤ max old.toNat n := by
  split
  · exact (BitVec.toNat_ofNat n 16).trans_le ((Nat.mod_le ..).trans (le_max_right ..))
  · exact le_max_left ..

theorem le_sizeMax (old : BitVec 16) {n : Nat} (h : n < 2 ^ 16) :
    old.toNat ≤ (if old.toNat < n then BitVec.ofNat 16 n else old).toNat ∧
      n ≤ (if old.toNat < n then BitVec.ofNat 16 n else old).toNat := by
  split
  · rw [BitVec.toNat_ofNat, Nat.mod_eq_of_lt h]
    omega
  · omega

theorem insertFrag_ok {prev : Bool} (h : QueueHolds qp) (hstop : StopOk skb stop) (hle : stop ≤ qp.len)
    (hok : insertFrag env qp skb stop = (qp', .ok prev)) : Inserted qp skb stop qp' := by
  have hsplit := findPlace_splitAt h skb.iph.offset
  rw [insertFrag] at hok
  generalize (findPlace qp skb.iph.offset).1 = before, (findPlace qp skb.iph.offset).2 = after at hok hsplit
  cases hcut : cutFront env before.getLast? (fragSkb qp skb stop) stop with
  | error e => simp [hcut] at hok
  | ok frag =>
      have hfront := cutFront_ok hstop hcut
      cases hclear : (eatNext env.pull_next stop after).ok with
      | false => simp [hcut, hclear] at hok
      | true =>
          simp only [hcut, hclear, Bool.not_true, Bool.false_eq_true, if_false, Prod.mk.injEq] at hok
          obtain ⟨rfl, -⟩ := hok
          obtain ⟨hlay, hchain⟩ := chain_inserted h hstop hle hsplit hfront hclear
          have hcounts := @eatNext_counts env.pull_next stop after
          have hiph : frag.iph = skb.iph := congrArg Prod.snd hfront.front
          have hsizeq : frag.size = frag.data.length + skb.iph.hdrlen := by rw [FragSkb.size, hiph]
          have hsize : frag.data.length + skb.iph.hdrlen ≤ skb.ipData.length + skb.iph.hdrlen :=
            hsizeq ▸ hfront.size_le
          refine ⟨⟨rfl, rfl, rfl, rfl⟩, ⟨hchain, ?_, ?_, tail_inserted h hsplit⟩,
            ⟨before, after, hsplit, hlay⟩, ?_, ?_, rfl, ?_, ?_, ?_⟩
          · have hmeat := h.meat
            rw [hsplit.eq, pieces_append, contents_append, List.length_append, hcounts.1] at hmeat
            simp only [countFrag, pieces_append, pieces_cons, contents_append, contents_cons, List.length_append,
              FragSkb.piece_data, hmeat]
            push_cast
            ring
          · have hmem := h.mem
            rw [hsplit.eq, sumTruesize_append, hcounts.2] at hmem
            simp only [countFrag, sumTruesize_append, sumTruesize_cons, hmem]
            push_cast
            ring
          · intro x hx
            rcases List.mem_append.mp hx with hx | hx
            · exact Or.inr ⟨x, by simp [hsplit.eq, hx], rfl⟩
            · rcases List.mem_cons.mp hx with rfl | hx
              · exact Or.inl hfront.front
              · obtain ⟨y, hy, heq, -, -⟩ := eatNext_mem hx
                exact Or.inr ⟨y, by simp [hsplit.eq, hy], heq⟩
          · simp only [countFrag, Bool.or_eq_true, beq_iff_eq, hfront.offset_eq_zero hsplit]
          · intro hsmall
            obtain ⟨hold, hnew⟩ := le_sizeMax qp.max_size (hsize.trans_lt hsmall)
            refine ⟨hold, fun x hx => ?_⟩
            rcases List.mem_append.mp hx with hx | hx
            · exact Or.inr ⟨x, by simp [hsplit.eq, hx], le_rfl⟩
            · rcases List.mem_cons.mp hx with rfl | hx
              · exact Or.inl (hsizeq.trans_le hnew)
              · obtain ⟨y, hy, -, hle, -⟩ := eatNext_mem hx
                exact Or.inr ⟨y, by simp [hsplit.eq, hy], hle⟩
          · exact (sizeMax_le ..).trans (max_le_max_left _ hsize)
          · cases hdf : skb.iph.dontFragment with
            | false => simp [countFrag, hdf]
            | true =>
                simp only [countFrag, hdf, Bool.true_and, decide_eq_true_eq, if_true]
                exact (sizeMax_le ..).trans (max_le_max_left _ hsize)

/-- The chain without the skbs that had to go for a fragment that could not be inserted. -/
theorem chain_spared {gone rest : List FragSkb} {len fresh : Nat}
    (h : ChainHolds len fresh (before ++ (gone ++ rest))) : ChainHolds len fresh (before ++ rest) where
  ordered := by
    have hord := h.ordered
    rw [pieces_append, pieces_append] at hord
    obtain ⟨c, hbefore, hafter⟩ := ordered_append.mp hord
    obtain ⟨d, hgone, hrest⟩ := ordered_append.mp hafter
    rw [pieces_append]
    exact ordered_append.mpr ⟨c, hbefore, hrest.mono hgone.le le_rfl⟩
  skbs := fun x hx => h.skbs x (by
    rcases List.mem_append.mp hx with hx | hx <;> simp [hx])
  addrs := h.addrs.sublist (((List.sublist_append_right gone rest).append_left before).map _)
  fresh := fun x hx => h.fresh x (by
    rcases List.mem_append.mp hx with hx | hx <;> simp [hx])

theorem insertFrag_error {e : DefragErr} (h : QueueHolds qp)
    (herr : insertFrag env qp skb stop = (qp', .error e)) : Spared qp qp' := by
  have hsplit := findPlace_splitAt h skb.iph.offset
  rw [insertFrag] at herr
  generalize (findPlace qp skb.iph.offset).1 = before, (findPlace qp skb.iph.offset).2 = after at herr hsplit
  cases hcut : cutFront env before.getLast? (fragSkb qp skb stop) stop with
  | error e =>
      simp only [hcut, Prod.mk.injEq] at herr
      obtain ⟨rfl, -⟩ := herr
      exact ⟨⟨rfl, rfl, rfl, rfl⟩, h, fun x hx => hx⟩
  | ok frag =>
      cases hclear : (eatNext env.pull_next stop after).ok with
      | true => simp [hcut, hclear] at herr
      | false =>
          simp only [hcut, hclear, Bool.not_false, if_true, Prod.mk.injEq] at herr
          obtain ⟨rfl, -⟩ := herr
          obtain ⟨gone, hgone, hne⟩ := eatNext_failed hclear
          have hcounts := @eatNext_counts env.pull_next stop after
          have hall : qp.fragments = before ++ (gone ++ (eatNext env.pull_next stop after).next) :=
            hsplit.eq.trans (congrArg (before ++ ·) hgone)
          have hchain := h.chain
          rw [hall] at hchain
          refine ⟨⟨rfl, rfl, rfl, rfl⟩, ⟨chain_spared hchain, ?_, ?_, ?_⟩, ?_⟩
          · have hmeat := h.meat
            rw [hsplit.eq, pieces_append, contents_append, List.length_append, hcounts.1] at hmeat
            simp only [pieces_append, contents_append, List.length_append, hmeat]
            push_cast
            ring
          · have hmem := h.mem
            rw [hsplit.eq, sumTruesize_append, hcounts.2] at hmem
            simp only [sumTruesize_append, hmem]
            push_cast
            ring
          · obtain ⟨y, hy⟩ : ∃ y, (eatNext env.pull_next stop after).next.getLast? = some y :=
              ⟨_, List.getLast?_eq_some_getLast hne⟩
            have htail := h.tail
            rw [hall] at htail
            simpa [List.getLast?_append, hy] using htail
          · intro x hx
            rcases List.mem_append.mp hx with hx | hx
            · simp [hall, hx]
            · simp [hall, hx]

end

end OvsDatapath.Frag
