import Mathlib.Data.List.TakeWhile
import OvsDatapath.Stt.Reassemble
import OvsDatapath.Lib.Scan

/-!
# Chains of segments

What `placeSkb` does to a chain, in terms of the segments that the chain was put together from:
`ChainHolds b skbs segs` says that the skbs hold exactly the segments `segs`, in the order of their
offsets, without overlap and below `b`. Joining an skb to the first one changes the skbs but not
what they hold.

* `placeSkb_holds` — a segment that is placed is held afterwards, next to all those before.
* `placeSkb_isSome` — a segment that overlaps nothing is placed.
-/

namespace OvsDatapath.Stt

open OvsDatapath.Lib

/-- Where the data of an skb belongs. -/
def FragSkb.piece (x : FragSkb) : Piece UInt8 := ⟨x.offset, x.skb.data⟩

/-- Where the data of a segment belongs. -/
def Segment.piece (seg : Segment) : Piece UInt8 := ⟨seg.offset, seg.data⟩

/-- The skb is what comes out when the segments are joined. -/
structure Merged (x : FragSkb) (segs : List Segment) : Prop where
  merges : Merges x.piece (segs.map Segment.piece)
  net : ∃ seg ∈ segs, seg.net = x.skb.net

/-- The skbs hold the segments, in order and without overlap, below `b`. -/
structure ChainHolds (b : Nat) (skbs : List FragSkb) (segs : List Segment) : Prop where
  merged : ∃ groups, groups.flatten = segs ∧ List.Forall₂ Merged skbs groups
  ordered : Ordered 0 b (skbs.map FragSkb.piece)
  full : ∀ x ∈ skbs, x.piece.Full
  addrs : (skbs.map FragSkb.addr).Nodup

theorem flatten_map_piece (groups : List (List Segment)) :
    (groups.map fun group => group.map Segment.piece).flatten = groups.flatten.map Segment.piece := by
  simp [List.map_flatten]

theorem forall₂_merges {skbs : List FragSkb} {groups : List (List Segment)}
    (h : List.Forall₂ Merged skbs groups) : List.Forall₂ Merges (skbs.map FragSkb.piece)
      (groups.map fun group => group.map Segment.piece) := by
  rw [List.forall₂_map_left_iff, List.forall₂_map_right_iff]
  exact h.imp fun _ _ hmerged => hmerged.merges

namespace ChainHolds

variable {b : Nat} {skbs : List FragSkb} {segs : List Segment}

theorem mono {b' : Nat} (h : ChainHolds b skbs segs) (hb : b ≤ b') : ChainHolds b' skbs segs :=
  ⟨h.merged, h.ordered.mono le_rfl hb, h.full, h.addrs⟩

/-- The segments are in the same order. -/
theorem ordered_segs (h : ChainHolds b skbs segs) : Ordered 0 b (segs.map Segment.piece) := by
  obtain ⟨groups, rfl, hmerged⟩ := h.merged
  rw [← flatten_map_piece]
  exact ordered_of_merges (forall₂_merges hmerged) h.ordered

/-- The skbs have the data of the segments. -/
theorem contents_eq (h : ChainHolds b skbs segs) :
    contents (skbs.map FragSkb.piece) = contents (segs.map Segment.piece) := by
  obtain ⟨groups, rfl, hmerged⟩ := h.merged
  rw [← flatten_map_piece]
  exact (contents_of_merges (forall₂_merges hmerged)).symm

/-- How much data there is after a segment has been placed. -/
theorem placed_length {b' : Nat} {skbs' : List FragSkb} {segs' : List Segment} {seg : Segment}
    (h : ChainHolds b skbs segs) (hperm : segs'.Perm (seg :: segs)) (h' : ChainHolds b' skbs' segs') :
    (contents (skbs'.map FragSkb.piece)).length =
      (contents (skbs.map FragSkb.piece)).length + seg.data.length := by
  rw [h'.contents_eq, length_contents_perm (hperm.map Segment.piece), h.contents_eq, List.map_cons,
    contents_cons, List.length_append]
  exact Nat.add_comm ..

/-- What is apart from all segments is apart from all skbs. -/
theorem apart (h : ChainHolds b skbs segs) {p : Piece UInt8} (hp : p.Full)
    (hall : ∀ seg ∈ segs, p.Apart seg.piece) : ∀ x ∈ skbs, p.Apart x.piece := by
  obtain ⟨groups, rfl, hmerged⟩ := h.merged
  intro x hx
  obtain ⟨group, hgroup, hx'⟩ : ∃ group ∈ groups, Merged x group := by
    clear h hall
    induction hmerged with
    | nil => cases hx
    | cons hhead _ ih =>
        rcases List.mem_cons.mp hx with rfl | hx
        · exact ⟨_, List.mem_cons_self .., hhead⟩
        · obtain ⟨group, hgroup, hx'⟩ := ih hx
          exact ⟨group, List.mem_cons_of_mem _ hgroup, hx'⟩
  apply hx'.merges.apart (h.full x hx) hp
  intro q hq
  obtain ⟨seg, hseg, rfl⟩ := List.mem_map.mp hq
  exact hall seg (List.mem_flatten.mpr ⟨group, hgroup, hseg⟩)

/-- One segment, in an skb of its own. -/
theorem single {x : FragSkb} (hpiece : x.piece = x.skb.piece) (hfull : x.piece.Full)
    (hb : x.piece.stop ≤ b) : ChainHolds b [x] [x.skb] := by
  refine ⟨⟨[[x.skb]], rfl, ?_⟩, ⟨Nat.zero_le _, hb⟩, ?_, by simp⟩
  · refine List.Forall₂.cons ⟨?_, x.skb, List.mem_singleton_self _, rfl⟩ List.Forall₂.nil
    rw [List.map_singleton, ← hpiece]
    exact Merges.single _
  · intro y hy
    exact List.mem_singleton.mp hy ▸ hfull

end ChainHolds

/-- `last_skb` points to the last skb. -/
def LastIs (skbs : List FragSkb) : Prop :=
  skbs.head?.map (fun head => head.first.last_skb) = skbs.getLast?.map FragSkb.addr

/-! ### Changes of the bookkeeping -/

section
variable {b : Nat} {skbs : List FragSkb} {segs : List Segment}

@[simp] theorem map_piece_updateFirst (f : FirstFrag → FirstFrag) :
    (updateFirst f skbs).map FragSkb.piece = skbs.map FragSkb.piece := by
  cases skbs <;> rfl

@[simp] theorem map_addr_updateFirst (f : FirstFrag → FirstFrag) :
    (updateFirst f skbs).map FragSkb.addr = skbs.map FragSkb.addr := by
  cases skbs <;> rfl

theorem forall₂_merged_updateFirst (f : FirstFrag → FirstFrag) {groups : List (List Segment)}
    (h : List.Forall₂ Merged skbs groups) : List.Forall₂ Merged (updateFirst f skbs) groups := by
  cases h with
  | nil => exact List.Forall₂.nil
  | cons hhead hrest => exact List.Forall₂.cons ⟨hhead.merges, hhead.net⟩ hrest

/-- The pieces of the skbs say all there is to say about order and fullness. -/
theorem ChainHolds.updateFirst (h : ChainHolds b skbs segs) (f : FirstFrag → FirstFrag) :
    ChainHolds b (updateFirst f skbs) segs := by
  obtain ⟨groups, hflat, hmerged⟩ := h.merged
  refine ⟨⟨groups, hflat, forall₂_merged_updateFirst f hmerged⟩, ?_, ?_, ?_⟩
  · rw [map_piece_updateFirst]
    exact h.ordered
  · rw [← List.forall_mem_map (P := Piece.Full), map_piece_updateFirst, List.forall_mem_map]
    exact h.full
  · rw [map_addr_updateFirst]
    exact h.addrs

theorem lastIs_setLastSkb {x : FragSkb} (hlast : skbs.getLast? = some x) (skb : FragSkb)
    (haddr : x.addr = skb.addr) : LastIs (setLastSkb skb skbs) := by
  have hgetLast : (setLastSkb skb skbs).getLast?.map FragSkb.addr = some skb.addr := by
    rw [← List.getLast?_map, setLastSkb, map_addr_updateFirst, List.getLast?_map, hlast]
    exact congrArg some haddr
  rw [LastIs, hgetLast]
  cases skbs with
  | nil => simp at hlast
  | cons head rest => rfl

theorem LastIs.updateFirst (h : LastIs skbs) {f : FirstFrag → FirstFrag}
    (hf : ∀ first, (f first).last_skb = first.last_skb) : LastIs (updateFirst f skbs) := by
  rw [LastIs] at h ⊢
  rw [← List.getLast?_map, map_addr_updateFirst, List.getLast?_map, ← h]
  cases skbs with
  | nil => rfl
  | cons head rest => exact congrArg some (hf head.first)

end

/-! ### The last skb -/

section
variable {b : Nat} {head : FragSkb} {rest : List FragSkb} {segs : List Segment}

/-- `last_skb` does not dangle. -/
theorem ChainHolds.find_last (h : ChainHolds b (head :: rest) segs)
    (hlast : LastIs (head :: rest)) :
    (head :: rest).find? (fun x => x.addr == head.first.last_skb) = (head :: rest).getLast? := by
  have hget := List.getLast?_eq_some_getLast (List.cons_ne_nil head rest)
  have haddr : head.first.last_skb = ((head :: rest).getLast (List.cons_ne_nil head rest)).addr := by
    simpa [LastIs, hget] using hlast
  rw [hget, haddr]
  exact Scan.find?_key h.addrs (List.getLast_mem (List.cons_ne_nil head rest))

theorem linkAfter_append {addr : Nat} {tail init ys : List FragSkb} {x : FragSkb}
    (hinit : ∀ y ∈ init, y.addr ≠ addr) (hx : x.addr = addr) :
    linkAfter addr tail (init ++ x :: ys) = init ++ x :: tail := by
  induction init with
  | nil => simp [linkAfter, hx]
  | cons y init ih =>
      have hy := hinit y (List.mem_cons_self ..)
      simp only [List.cons_append, linkAfter, if_neg hy]
      rw [ih fun z hz => hinit z (List.mem_cons_of_mem _ hz)]

end

/-! ### What `placeSkb` does -/

section
variable {b : Nat} {env : SttEnv} {copy : CopyEnv} {head skb : FragSkb} {rest : List FragSkb}
variable {segs : List Segment}

theorem forall₂_append_inv {α β : Type} {R : α → β → Prop} {xs ys : List α} {zs : List β}
    (h : List.Forall₂ R (xs ++ ys) zs) :
    ∃ us vs, zs = us ++ vs ∧ List.Forall₂ R xs us ∧ List.Forall₂ R ys vs := by
  induction xs generalizing zs with
  | nil => exact ⟨[], zs, rfl, List.Forall₂.nil, h⟩
  | cons x xs ih =>
      cases h with
      | cons hx hxs =>
        obtain ⟨us, vs, rfl, hus, hvs⟩ := ih hxs
        exact ⟨_ :: us, vs, rfl, List.Forall₂.cons hx hus, hvs⟩

/-- A segment that comes to stand between its neighbours. -/
theorem ChainHolds.insert (before after : List FragSkb) (h : ChainHolds b (before ++ after) segs)
    (hpiece : skb.piece = skb.skb.piece) (hfull : skb.piece.Full)
    (hfresh : ∀ x ∈ before ++ after, x.addr ≠ skb.addr)
    (hord : Ordered 0 b ((before ++ skb :: after).map FragSkb.piece)) :
    ∃ segs', segs'.Perm (skb.skb :: segs) ∧ ChainHolds b (before ++ skb :: after) segs' := by
  obtain ⟨groups, rfl, hmerged⟩ := h.merged
  obtain ⟨us, vs, rfl, hbefore, hafter⟩ := forall₂_append_inv hmerged
  have hself : Merged skb [skb.skb] := by
    refine ⟨?_, skb.skb, List.mem_singleton_self _, rfl⟩
    rw [List.map_singleton, ← hpiece]
    exact Merges.single _
  refine ⟨(us ++ [skb.skb] :: vs).flatten, ?_, ⟨_, rfl, ?_⟩, hord, ?_, ?_⟩
  · simp only [List.flatten_append, List.flatten_cons, List.singleton_append]
    exact List.perm_middle
  · exact List.rel_append hbefore (List.Forall₂.cons hself hafter)
  · intro x hx
    rcases List.mem_append.mp hx with hx | hx
    · exact h.full x (List.mem_append_left _ hx)
    · rcases List.mem_cons.mp hx with rfl | hx
      · exact hfull
      · exact h.full x (List.mem_append_right _ hx)
  · have hnodup := h.addrs
    rw [List.map_append, List.map_cons, List.nodup_middle, ← List.map_append, List.nodup_cons]
    refine ⟨?_, hnodup⟩
    intro hmem
    obtain ⟨x, hx, heq⟩ := List.mem_map.mp hmem
    exact hfresh x hx heq

/-- A segment that is joined to the only skb. -/
theorem ChainHolds.join {delta : UInt32} {head' : FragSkb} (h : ChainHolds b [head] segs)
    (hpiece : skb.piece = skb.skb.piece) (hb : skb.piece.stop ≤ b)
    (hstart : skb.offset = head.piece.stop)
    (hcopy : copySkb env copy head [] skb = some (head', delta)) :
    ∃ segs', segs'.Perm (skb.skb :: segs) ∧ ChainHolds b [head'] segs' := by
  obtain ⟨groups, rfl, hmerged⟩ := h.merged
  obtain ⟨group, rfl, hgroup⟩ : ∃ group, groups = [group] ∧ Merged head group := by
    cases hmerged with
    | cons hhead hnil =>
      cases hnil
      exact ⟨_, rfl, hhead⟩
  -- joining changes the data of the first skb and its size in memory, and nothing else
  obtain ⟨size, rfl⟩ : ∃ size, head' = { head with skb := { head.skb with
      data := head.skb.data ++ skb.skb.data, truesize := size } } := by
    simp only [copySkb] at hcopy
    grind
  have hjoined : Merges ⟨head.offset, head.skb.data ++ skb.skb.data⟩
      ((group ++ [skb.skb]).map Segment.piece) := by
    rw [List.map_append, List.map_singleton, ← hpiece]
    exact hgroup.merges.append (q := skb.piece) hstart
  refine ⟨(group ++ [skb.skb]), ?_, ⟨[group ++ [skb.skb]], by simp, ?_⟩, ?_, ?_, ?_⟩
  · rw [show [group].flatten = group by simp]
    exact List.perm_append_singleton skb.skb group
  · obtain ⟨seg, hseg, hnet⟩ := hgroup.net
    exact List.Forall₂.cons ⟨hjoined, seg, List.mem_append_left _ hseg, hnet⟩ List.Forall₂.nil
  · refine ⟨Nat.zero_le _, ?_⟩
    simp only [FragSkb.piece, Piece.stop, List.length_append] at hb hstart ⊢
    simp only [List.map_nil, ordered_nil]
    omega
  · intro x hx
    obtain rfl := List.mem_singleton.mp hx
    exact List.append_ne_nil_of_left_ne_nil (h.full head (List.mem_singleton_self _)) _
  · simp

/-- What a chain is after a segment was placed in it. -/
structure Placed (b : Nat) (head skb : FragSkb) (rest : List FragSkb) (segs : List Segment)
    (chain : List FragSkb) : Prop where
  holds : ∃ segs', segs'.Perm (skb.skb :: segs) ∧ ChainHolds b chain segs'
  last : LastIs chain
  first : ∃ head', chain.head? = some head' ∧ head'.first.tot_len = head.first.tot_len ∧
    head'.first.rcvd_len = head.first.rcvd_len

/-- The skb that goes to the front takes the bookkeeping over. -/
theorem Placed.front (h : ChainHolds b (head :: rest) segs) (hlast : LastIs (head :: rest))
    (hpiece : skb.piece = skb.skb.piece) (hfull : skb.piece.Full)
    (hfresh : ∀ x ∈ head :: rest, x.addr ≠ skb.addr)
    (hord : Ordered 0 b ((skb :: head :: rest).map FragSkb.piece)) :
    Placed b head skb rest segs ({ skb with first := head.first } :: head :: rest) where
  holds := by
    have hmoved : ({ skb with first := head.first } : FragSkb).piece = skb.skb.piece := hpiece
    exact ChainHolds.insert [] (head :: rest) h hmoved hfull hfresh hord
  last := by
    rw [LastIs] at hlast ⊢
    rw [List.getLast?_cons_cons, ← hlast]
    rfl
  first := ⟨_, rfl, rfl, rfl⟩

/-- The skb that goes between two others. -/
theorem Placed.middle {before after : List FragSkb} {next : FragSkb}
    (hrest : rest = before ++ next :: after)
    (h : ChainHolds b (head :: rest) segs) (hlast : LastIs (head :: rest))
    (hpiece : skb.piece = skb.skb.piece) (hfull : skb.piece.Full)
    (hfresh : ∀ x ∈ head :: rest, x.addr ≠ skb.addr)
    (hord : Ordered 0 b ((head :: (before ++ skb :: next :: after)).map FragSkb.piece)) :
    Placed b head skb rest segs (head :: (before ++ skb :: next :: after)) where
  holds := by
    subst hrest
    exact ChainHolds.insert (head :: before) (next :: after) h hpiece hfull hfresh hord
  last := by
    subst hrest
    simpa [LastIs, List.getLast?_cons, List.getLast?_append] using hlast
  first := ⟨_, rfl, rfl, rfl⟩

/-- The skb that goes to the end is the last one now. -/
theorem Placed.back (h : ChainHolds b (head :: rest) segs) (hpiece : skb.piece = skb.skb.piece)
    (hfull : skb.piece.Full) (hfresh : ∀ x ∈ head :: rest, x.addr ≠ skb.addr)
    (hord : Ordered 0 b ((head :: rest ++ [skb]).map FragSkb.piece)) :
    Placed b head skb rest segs (setLastSkb skb (head :: rest ++ [skb])) where
  holds := by
    obtain ⟨segs', hperm, hholds⟩ := ChainHolds.insert (head :: rest) []
      (by rwa [List.append_nil]) hpiece hfull (by rwa [List.append_nil]) hord
    exact ⟨segs', hperm, hholds.updateFirst _⟩
  last := lastIs_setLastSkb List.getLast?_concat skb rfl
  first := ⟨_, rfl, rfl, rfl⟩

/-- The skb that was joined is gone. -/
theorem Placed.join {delta : UInt32} {head' : FragSkb} (h : ChainHolds b (head :: rest) segs)
    (hlast : LastIs (head :: rest)) (hpiece : skb.piece = skb.skb.piece) (hb : skb.piece.stop ≤ b)
    (hstart : ∀ last ∈ (head :: rest).getLast?, skb.offset = last.piece.stop)
    (hcopy : copySkb env copy head rest skb = some (head', delta)) :
    Placed b head skb rest segs (head' :: rest) := by
  obtain rfl : rest = [] := by
    simp only [copySkb] at hcopy
    grind
  have hhead : head'.addr = head.addr ∧ head'.first = head.first := by
    simp only [copySkb] at hcopy
    grind
  obtain ⟨haddr, hfirst⟩ := hhead
  constructor
  case holds => exact h.join hpiece hb (hstart head rfl) hcopy
  case last =>
    rw [LastIs] at hlast ⊢
    simpa [haddr, hfirst] using hlast
  case first => exact ⟨head', rfl, by rw [hfirst], by rw [hfirst]⟩

theorem any_eq_false_iff_forall {α : Type} {p : α → Bool} {o : Option α} :
    o.any p = false ↔ ∀ x ∈ o, p x = false := by
  cases o <;> simp

/-- The order after an insertion that the two checks of `placeSkb` let through. -/
theorem ChainHolds.ordered_insert (before after : List FragSkb)
    (h : ChainHolds b (before ++ after) segs) (hb : skb.piece.stop ≤ b)
    (hprev : ∀ prev ∈ before.getLast?, prev.piece.stop ≤ skb.offset)
    (hnext : ∀ next ∈ after.head?, skb.piece.stop ≤ next.offset) :
    Ordered 0 b ((before ++ skb :: after).map FragSkb.piece) := by
  have hord := h.ordered
  rw [List.map_append] at hord
  rw [List.map_append, List.map_cons]
  apply hord.insert
  · intro q hq
    rw [List.getLast?_map, Option.mem_map] at hq
    obtain ⟨prev, hprev', rfl⟩ := hq
    exact hprev prev hprev'
  · intro q hq
    rw [List.head?_map, Option.mem_map] at hq
    obtain ⟨next, hnext', rfl⟩ := hq
    exact hnext next hnext'
  · exact Nat.zero_le _
  · exact hb

/-- **What is placed is held**, and what was held before still is. -/
theorem placeSkb_placed {chain : List FragSkb} {delta : UInt32}
    (h : ChainHolds b (head :: rest) segs) (hlast : LastIs (head :: rest))
    (hpiece : skb.piece = skb.skb.piece) (hfull : skb.piece.Full) (hb : skb.piece.stop ≤ b)
    (hfresh : ∀ x ∈ head :: rest, x.addr ≠ skb.addr)
    (hplace : placeSkb env copy head rest skb = some (chain, delta)) :
    Placed b head skb rest segs chain := by
  obtain ⟨init, last, hinit⟩ := List.eq_nil_or_concat' (head :: rest) |>.resolve_left (by simp)
  have hgetLast : (head :: rest).getLast? = some last := by rw [hinit, List.getLast?_concat]
  rw [placeSkb, h.find_last hlast, hgetLast] at hplace
  simp only at hplace
  split at hplace
  case isTrue hnext =>
    -- the segment follows the last one
    have hord : Ordered 0 b ((head :: rest ++ [skb]).map FragSkb.piece) := by
      refine ChainHolds.ordered_insert (head :: rest) [] (by rwa [List.append_nil]) hb ?_ (by simp)
      intro prev hprev
      obtain rfl : last = prev := by simpa [hgetLast] using hprev
      exact Nat.le_of_eq hnext
    split at hplace
    case h_1 head' delta' hcopy =>
      obtain ⟨rfl, rfl⟩ : head' :: rest = chain ∧ delta' = delta := by simpa using hplace
      refine Placed.join h hlast hpiece hb ?_ hcopy
      intro x hx
      obtain rfl : last = x := by simpa [hgetLast] using hx
      exact hnext.symm
    case h_2 =>
      have hlink : linkAfter last.addr [skb] (head :: rest) = head :: rest ++ [skb] := by
        have hnodup := h.addrs
        rw [hinit, List.map_append, List.nodup_append] at hnodup
        rw [hinit, linkAfter_append (fun y hy heq => ?_) rfl, List.append_assoc]
        · rfl
        · exact hnodup.2.2 y.addr (List.mem_map_of_mem hy) last.addr (by simp) heq
      obtain ⟨rfl, -⟩ := Prod.mk.inj (Option.some.inj hplace)
      rw [hlink]
      exact Placed.back h hpiece hfull hfresh hord
  case isFalse =>
    -- the place of the segment is searched
    have hsplit : (head :: rest).takeWhile (fun x => decide (x.offset < skb.offset)) ++
        (head :: rest).dropWhile (fun x => decide (x.offset < skb.offset)) = head :: rest :=
      List.takeWhile_append_dropWhile
    generalize (head :: rest).takeWhile _ = before at hplace hsplit
    generalize (head :: rest).dropWhile _ = after at hplace hsplit
    split at hplace
    case isTrue => cases hplace
    case isFalse hprev =>
      split at hplace
      case isTrue => cases hplace
      case isFalse hnext =>
        obtain ⟨rfl, -⟩ := Prod.mk.inj (Option.some.inj hplace)
        have hord : Ordered 0 b ((before ++ skb :: after).map FragSkb.piece) := by
          refine ChainHolds.ordered_insert before after (hsplit ▸ h) hb ?_ ?_
          · simpa [any_eq_false_iff_forall, FragSkb.piece, Piece.stop] using hprev
          · simpa [any_eq_false_iff_forall, FragSkb.piece, Piece.stop] using hnext
        cases before with
        | nil =>
            obtain rfl : after = head :: rest := hsplit
            exact Placed.front h hlast hpiece hfull hfresh hord
        | cons first before =>
            obtain ⟨rfl, hrest⟩ := List.cons.inj hsplit
            cases after with
            | nil =>
                obtain rfl : before = rest := by simpa using hrest
                exact Placed.back h hpiece hfull hfresh hord
            | cons next after =>
                exact Placed.middle hrest.symm h hlast hpiece hfull hfresh hord

/-- What is placed overlaps none of the segments before. -/
theorem Placed.apart {chain : List FragSkb} (h : Placed b head skb rest segs chain) :
    ∀ seg ∈ segs, skb.skb.piece.Apart seg.piece := by
  obtain ⟨segs', hperm, hholds⟩ := h.holds
  have hpairwise := ((hperm.map Segment.piece).pairwise_iff Or.symm).mp hholds.ordered_segs.pairwise
  rw [List.map_cons, List.pairwise_cons] at hpairwise
  exact fun seg hseg => hpairwise.1 _ (List.mem_map_of_mem hseg)

theorem placeSkb_apart {chain : List FragSkb} {delta : UInt32}
    (h : ChainHolds b (head :: rest) segs) (hlast : LastIs (head :: rest))
    (hpiece : skb.piece = skb.skb.piece) (hfull : skb.piece.Full)
    (hfresh : ∀ x ∈ head :: rest, x.addr ≠ skb.addr)
    (hplace : placeSkb env copy head rest skb = some (chain, delta)) :
    ∀ seg ∈ segs, skb.skb.piece.Apart seg.piece := by
  have h' := h.mono (le_max_left b skb.piece.stop)
  exact (placeSkb_placed h' hlast hpiece hfull (le_max_right ..) hfresh hplace).apart

/-- A segment that overlaps nothing is placed. -/
theorem placeSkb_isSome (h : ChainHolds b (head :: rest) segs) (hlast : LastIs (head :: rest))
    (hapart : ∀ x ∈ head :: rest, skb.piece.Apart x.piece) (hfull : skb.piece.Full) :
    ∃ placed, placeSkb env copy head rest skb = some placed := by
  obtain ⟨last, hgetLast⟩ : ∃ last, (head :: rest).getLast? = some last :=
    ⟨_, List.getLast?_eq_some_getLast (List.cons_ne_nil head rest)⟩
  have hpos := hfull.start_lt
  rw [placeSkb, h.find_last hlast, hgetLast]
  simp only
  split
  case isTrue => split <;> exact ⟨_, rfl⟩
  case isFalse =>
    -- the neighbour before starts before the segment, so it also ends before it
    have hprev : ((head :: rest).takeWhile fun x => decide (x.offset < skb.offset)).getLast?.any
        (fun prev => decide (skb.offset < prev.offset + prev.skb.data.length)) = false := by
      rw [any_eq_false_iff_forall]
      intro prev hmem
      have hstart := List.mem_takeWhile_imp (List.mem_of_mem_getLast? hmem)
      have hchain := List.takeWhile_subset _ (List.mem_of_mem_getLast? hmem)
      rcases hapart prev hchain with hle | hle <;>
        simp_all only [FragSkb.piece, Piece.stop, decide_eq_true_eq, decide_eq_false_iff_not] <;>
        omega
    -- the neighbour after does not start before the segment, so it starts after its end
    have hnext : ((head :: rest).dropWhile fun x => decide (x.offset < skb.offset)).head?.any
        (fun next => decide (next.offset < skb.offset + skb.skb.data.length)) = false := by
      rw [any_eq_false_iff_forall]
      intro next hmem
      have hstart := List.head?_dropWhile_not (fun x => decide (x.offset < skb.offset)) (head :: rest)
      rw [show List.head? _ = some next from hmem] at hstart
      have hchain := (List.dropWhile_suffix _).subset (List.mem_of_mem_head? hmem)
      have hposnext := (h.full next hchain).start_lt
      rcases hapart next hchain with hle | hle <;>
        simp_all only [FragSkb.piece, Piece.stop, decide_eq_false_iff_not] <;>
        omega
    rw [if_neg (by rw [hprev]; decide), if_neg (by rw [hnext]; decide)]
    exact ⟨_, rfl⟩

/-! ### Where the skbs of a chain come from -/

theorem mem_linkAfter {addr : Nat} {tail skbs : List FragSkb} {x : FragSkb}
    (hx : x ∈ linkAfter addr tail skbs) : x ∈ tail ∨ x ∈ skbs := by
  induction skbs with
  | nil => cases hx
  | cons y skbs ih =>
      simp only [linkAfter] at hx
      grind

theorem mem_updateFirst {f : FirstFrag → FirstFrag} {skbs : List FragSkb} {x : FragSkb}
    (hx : x ∈ updateFirst f skbs) : ∃ y ∈ skbs, x.addr = y.addr ∧ x.skb.net = y.skb.net := by
  cases skbs with
  | nil => cases hx
  | cons head rest =>
      rcases List.mem_cons.mp hx with rfl | hx
      · exact ⟨head, List.mem_cons_self .., rfl, rfl⟩
      · exact ⟨x, List.mem_cons_of_mem _ hx, rfl, rfl⟩

/-- Whatever the chain was like, its skbs keep their addresses and their namespaces. -/
theorem placeSkb_origin {chain : List FragSkb} {delta : UInt32}
    (hplace : placeSkb env copy head rest skb = some (chain, delta)) {x : FragSkb}
    (hx : x ∈ chain) :
    ∃ y ∈ skb :: head :: rest, x.addr = y.addr ∧ x.skb.net = y.skb.net := by
  have hset : ∀ {skbs}, x ∈ setLastSkb skb skbs → ∃ y ∈ skbs, x.addr = y.addr ∧ x.skb.net = y.skb.net :=
    mem_updateFirst
  have htake := @List.takeWhile_subset _ (head :: rest) fun x => decide (x.offset < skb.offset)
  have hdrop := (List.dropWhile_suffix (l := head :: rest) fun x => decide (x.offset < skb.offset)).subset
  rw [placeSkb] at hplace
  split at hplace
  case h_1 => cases hplace
  case h_2 last _ =>
    -- behind the last one, or between two others
    split at hplace
    case isTrue =>
      split at hplace
      case h_1 head' delta' hcopy =>
        obtain ⟨rfl, -⟩ := Prod.mk.inj (Option.some.inj hplace)
        rcases List.mem_cons.mp hx with rfl | hx
        · refine ⟨head, by simp, ?_⟩
          simp only [copySkb] at hcopy
          grind
        · exact ⟨x, by simp [hx], rfl, rfl⟩
      case h_2 =>
        obtain ⟨rfl, -⟩ := Prod.mk.inj (Option.some.inj hplace)
        obtain ⟨y, hy, heq⟩ := hset hx
        refine ⟨y, ?_, heq⟩
        rcases mem_linkAfter hy with hy | hy
        · exact List.mem_singleton.mp hy ▸ List.mem_cons_self ..
        · exact List.mem_cons_of_mem _ hy
    case isFalse =>
      dsimp only at hplace
      split at hplace
      case isTrue => cases hplace
      case isFalse =>
        split at hplace
        case isTrue => cases hplace
        case isFalse =>
          obtain ⟨rfl, -⟩ := Prod.mk.inj (Option.some.inj hplace)
          -- the rest is about members of three lists
          generalize (head :: rest).takeWhile _ = before at hx htake
          generalize (head :: rest).dropWhile _ = after at hx hdrop
          grind

/-- The namespace of the first skb is that of the first one before or of the segment. -/
theorem placeSkb_head {chain : List FragSkb} {delta : UInt32}
    (hplace : placeSkb env copy head rest skb = some (chain, delta)) :
    ∃ head' tail, chain = head' :: tail ∧
      (head'.skb.net = head.skb.net ∨ head'.skb.net = skb.skb.net) := by
  rw [placeSkb] at hplace
  split at hplace
  case h_1 => cases hplace
  case h_2 last _ =>
    split at hplace
    case isTrue =>
      split at hplace
      case h_1 head' delta' hcopy =>
        obtain ⟨rfl, -⟩ := Prod.mk.inj (Option.some.inj hplace)
        refine ⟨head', rest, rfl, Or.inl ?_⟩
        simp only [copySkb] at hcopy
        grind
      case h_2 =>
        obtain ⟨rfl, -⟩ := Prod.mk.inj (Option.some.inj hplace)
        simp only [linkAfter]
        split <;> exact ⟨_, _, rfl, Or.inl rfl⟩
    case isFalse =>
      dsimp only at hplace
      split at hplace
      case isTrue => cases hplace
      case isFalse =>
        split at hplace
        case isTrue => cases hplace
        case isFalse =>
          obtain ⟨rfl, -⟩ := Prod.mk.inj (Option.some.inj hplace)
          by_cases hstart : head.offset < skb.offset
          case pos =>
            -- the first skb stays the first
            simp only [List.takeWhile_cons, hstart, decide_true, ite_true, List.isEmpty_cons,
              Bool.false_eq_true, ite_false, List.cons_append]
            split <;> exact ⟨_, _, rfl, Or.inl rfl⟩
          case neg =>
            simp only [List.takeWhile_cons, hstart, decide_false, Bool.false_eq_true, ite_false,
              List.isEmpty_nil, ite_true]
            split <;> exact ⟨_, _, rfl, Or.inr rfl⟩

end

end OvsDatapath.Stt
