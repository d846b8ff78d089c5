import OvsDatapath.Stt.Accounting

/-!
# Congestion marks of reassembled packets

The outer header of a packet that is put together from segments is that of its first skb. `reassemble` notes
in the bookkeeping of the chain whether a segment has been marked with ECN CE, and marks the first skb when
the packet is complete. The note starts from `false` for the segment that starts an entry: its own mark is in
its own header, and stays there as long as it is the first skb. When a segment that starts before it takes its
place the note is taken over, but not the mark. `historyRun_marks` says when that makes a difference.

For this a run keeps the segments that each entry has been built from, in the order of their arrival.
-/

namespace OvsDatapath.Stt

open OvsDatapath.Lib

instance (seg : Segment) : Decidable seg.IsPart := inferInstanceAs (Decidable (_ ∧ _ ∧ _))

/-! ### What an entry has been built from -/

/-- The table of a cpu, and the segments that each entry has been built from. -/
structure SttHistory where
  cpu : SttPercpu
  built : Fin fragHashEntries → List Segment

/-- The segments that an entry has been built from after one more has come in: it starts the entry, is
placed in its chain, or is dropped. -/
def builtAfter (env : SttEnv) (copy : CopyEnv) (frag : PktFrag) (skb : FragSkb) (built : List Segment) :
    List Segment :=
  match frag.skbs with
  | [] => [skb.skb]
  | head :: rest => if (placeSkb env copy head rest skb).isSome then built ++ [skb.skb] else built

/-- One event of a run: what is handed on, and what it has been built from. -/
def historyStep (env : SttEnv) (h : SttHistory) :
    SttEvent → Except Empty (Option (List FragSkb × List Segment) × SttHistory)
  | .clean i jiffies => .ok (none, ⟨cleanFrag env h.cpu i jiffies, h.built⟩)
  | .segment seg clock copy =>
      let stored := reassemble env h.cpu seg clock copy
      if seg.IsPart then
        let found := lookedUp env h.cpu seg clock
        let built := builtAfter env copy (found.1.frag_hash found.2) (arrived h.cpu seg) (h.built found.2)
        .ok (stored.2.map (·, built), ⟨stored.1, Function.update h.built found.2 built⟩)
      else .ok (stored.2.map (·, [seg]), ⟨stored.1, h.built⟩)

/-- A cpu that has not been given any segment yet. -/
def startHistory : SttHistory := ⟨emptyPercpu, fun _ => []⟩

/-! ### Marks -/

/-- The outer header carries ECN CE. -/
def Segment.Marked (seg : Segment) : Prop := inetEcnIsCe seg.tos = true

instance (seg : Segment) : Decidable seg.Marked := inferInstanceAs (Decidable (_ = _))

/-- The outer header is ECN-capable: ECT or CE. -/
def Segment.Capable (seg : Segment) : Prop := seg.tos &&& 3 ≠ 0

instance (seg : Segment) : Decidable seg.Capable := inferInstanceAs (Decidable (_ ≠ _))

/-- The outer header of the first skb carries ECN CE. -/
def HeadMarked (skbs : List FragSkb) : Prop := ∃ head ∈ skbs.head?, head.skb.Marked

instance (skbs : List FragSkb) : Decidable (HeadMarked skbs) :=
  inferInstanceAs (Decidable (∃ head ∈ skbs.head?, head.skb.Marked))

/-- The packet is marked if one of its segments has been, and only then. -/
def MarksSurvive (skbs : List FragSkb) (built : List Segment) : Prop :=
  HeadMarked skbs ↔ ∃ seg ∈ built, seg.Marked

instance (skbs : List FragSkb) (built : List Segment) : Decidable (MarksSurvive skbs built) :=
  inferInstanceAs (Decidable (_ ↔ _))

/-- A mark of the segment that has arrived first is kept in its own header, or there is another one. -/
def MarkKept : List Segment → Prop
  | [] => True
  | first :: later => (∃ seg ∈ later, seg.offset < first.offset) → first.Marked → ∃ seg ∈ later, seg.Marked

/-- `INET_ECN_set_ce` marks what is capable of it. -/
theorem inetEcnSetCe_marked (tos : BitVec 8) (h : tos &&& 3 ≠ 0) : inetEcnIsCe (inetEcnSetCe tos) = true := by
  revert tos
  decide +kernel

/-- The chain holds these segments, and no others. -/
def BuiltFrom (skbs : List FragSkb) (built : List Segment) : Prop :=
  ∃ segs, segs.Perm built ∧ ChainHolds sttMaxLen skbs segs

/-- The bookkeeping of a chain, and its first skb, in terms of the segments that it has been built from. -/
structure NotesMarks (skbs : List FragSkb) (first : Segment) (later : List Segment) : Prop where
  noted : ∀ head ∈ skbs.head?, head.first.set_ecn_ce = later.any fun seg => inetEcnIsCe seg.tos
  from_one : ∀ head ∈ skbs.head?,
    (head.offset = first.offset ∧ head.skb.tos = first.tos ∧ ∀ seg ∈ later, first.offset ≤ seg.offset) ∨
      ∃ seg ∈ later, head.offset = seg.offset ∧ head.skb.tos = seg.tos ∧ seg.offset < first.offset

section

variable {env : SttEnv} {copy : CopyEnv} {head skb : FragSkb} {rest chain : List FragSkb} {delta : UInt32}
variable {first : Segment} {later : List Segment} {seg : Segment}

/-- A segment that is placed is noted, and takes the place of the first skb if it starts before. -/
theorem NotesMarks.place (h : NotesMarks (head :: rest) first later) (hchain : ChainKept (head :: rest))
    (hoffset : skb.offset = skb.skb.offset) (hne : skb.skb.data ≠ [])
    (hplace : placeSkb env copy head rest skb = some (chain, delta)) :
    NotesMarks (updateFirst (countSegment skb.skb delta) chain) first (later ++ [skb.skb]) := by
  obtain ⟨head', tail, rfl, hfirst⟩ := placeSkb_first hchain.first_le hplace
  obtain ⟨last, hlast⟩ := hfirst.first
  have hpos : 0 < skb.skb.data.length := List.length_pos_of_ne_nil hne
  constructor
  · intro counted hcounted
    obtain rfl := Option.some.inj hcounted
    show (head'.first.set_ecn_ce || inetEcnIsCe skb.skb.tos) = _
    rw [hlast, List.any_append, ← h.noted head rfl, List.any_cons, List.any_nil, Bool.or_false]
  · intro counted hcounted
    obtain rfl := Option.some.inj hcounted
    show (head'.offset = first.offset ∧ head'.skb.tos = first.tos ∧ _) ∨
      ∃ seg ∈ later ++ [skb.skb], head'.offset = seg.offset ∧ head'.skb.tos = seg.tos ∧ _
    rcases hfirst.from_one with ⟨hoff, htos, hle⟩ | ⟨hoff, htos, hle⟩
    · -- the first skb has stayed
      rw [hoff, htos]
      rcases h.from_one head rfl with ⟨hfrom, hsame, hall⟩ | ⟨seg, hseg, hfrom, hsame, hlt⟩
      · refine Or.inl ⟨hfrom, hsame, fun seg hseg => ?_⟩
        rcases List.mem_append.mp hseg with hseg | hseg
        · exact hall seg hseg
        · rw [List.mem_singleton.mp hseg, ← hoffset, ← hfrom]
          exact hle
      · exact Or.inr ⟨seg, List.mem_append_left _ hseg, hfrom, hsame, hlt⟩
    · -- the segment has taken its place
      have hbefore : skb.skb.offset < first.offset := by
        rcases h.from_one head rfl with ⟨hfrom, -, -⟩ | ⟨seg, -, hfrom, -, hlt⟩
        · omega
        · omega
      exact Or.inr ⟨skb.skb, by simp, hoff.trans hoffset, htos, hbefore⟩

/-- What the note and the first skb make of the marks. -/
theorem NotesMarks.marks (h : NotesMarks (head :: rest) first later) (hcapable : ∀ g ∈ first :: later, g.Capable) :
    MarksSurvive (finishHead seg head :: rest) (first :: later) ↔ MarkKept (first :: later) := by
  have hnoted : head.first.set_ecn_ce = true ↔ ∃ g ∈ later, g.Marked := by
    rw [h.noted head rfl, List.any_eq_true]
    rfl
  have hhead : head.skb.Capable := by
    rcases h.from_one head rfl with ⟨-, hsame, -⟩ | ⟨g, hg, -, hsame, -⟩
    · rw [Segment.Capable, hsame]
      exact hcapable first List.mem_cons_self
    · rw [Segment.Capable, hsame]
      exact hcapable g (List.mem_cons_of_mem _ hg)
  have hout : HeadMarked (finishHead seg head :: rest) ↔ (∃ g ∈ later, g.Marked) ∨ head.skb.Marked := by
    rw [← hnoted]
    show (∃ x ∈ some (finishHead seg head), x.skb.Marked) ↔ _
    simp only [Option.mem_some_iff, exists_eq_left', finishHead, Segment.Marked]
    split
    case isTrue hce => simp [hce, inetEcnSetCe_marked _ hhead]
    case isFalse hce => simp [hce]
  rw [MarksSurvive, hout, MarkKept, List.exists_mem_cons_iff]
  rcases h.from_one head rfl with ⟨-, hsame, hall⟩ | ⟨g, hg, -, hsame, hlt⟩
  · -- the first skb is the segment that has arrived first
    have hfirst : head.skb.Marked ↔ first.Marked := by rw [Segment.Marked, hsame]; rfl
    rw [hfirst, or_comm]
    refine ⟨fun _ => ?_, fun _ => Iff.rfl⟩
    rintro ⟨g, hg, hlt⟩
    exact absurd (hall g hg) (Nat.not_le.mpr hlt)
  · -- it is a later one, whose mark has been noted
    have hlater : head.skb.Marked → ∃ g ∈ later, g.Marked := fun hmarked => by
      refine ⟨g, hg, ?_⟩
      rw [Segment.Marked, ← hsame]
      exact hmarked
    constructor
    · intro hiff _ hfirst
      exact (hiff.mpr (Or.inl hfirst)).elim id hlater
    · intro hkept
      have hfirst := hkept ⟨g, hg, hlt⟩
      exact ⟨fun hor => Or.inr (hor.elim id hlater), fun hor => Or.inl (hor.elim hfirst id)⟩

/-- The entry holds the segments that it has been built from, and its note and its first skb are right. -/
def EntryNoted (skbs : List FragSkb) (built : List Segment) : Prop :=
  skbs ≠ [] → BuiltFrom skbs built ∧ ∃ first later, built = first :: later ∧ NotesMarks skbs first later

theorem EntryNoted.nil {built : List Segment} : EntryNoted [] built := fun hne => absurd rfl hne

/-- A packet that is handed on is made of its segments, and is marked as far as the condition says. -/
def MarksKept (skbs : List FragSkb) (built : List Segment) : Prop :=
  BuiltFrom skbs built ∧ ((∀ g ∈ built, g.Capable) → (MarksSurvive skbs built ↔ MarkKept built))

theorem NotesMarks.start {frag : FirstFrag} (hecn : frag.set_ecn_ce = false) (hoffset : skb.offset = skb.skb.offset) :
    NotesMarks [{ skb with first := frag }] skb.skb [] where
  noted counted hcounted := by
    obtain rfl := Option.some.inj hcounted
    exact hecn
  from_one counted hcounted := by
    obtain rfl := Option.some.inj hcounted
    exact Or.inl ⟨hoffset, rfl, nofun⟩

theorem BuiltFrom.single (hpiece : skb.piece = skb.skb.piece) (hne : skb.skb.data ≠ [])
    (hstop : skb.skb.piece.stop ≤ skb.skb.tot_len) (frag : FirstFrag) :
    BuiltFrom [{ skb with first := frag }] [skb.skb] := by
  refine ⟨_, List.Perm.refl _, ChainHolds.single hpiece ?_ (?_ : skb.piece.stop ≤ _)⟩
  · show skb.piece.Full
    rw [hpiece]
    exact hne
  · rw [hpiece]
    exact hstop.trans (Nat.le_sub_one_of_lt skb.skb.tot_len_lt)

/-- A segment that is placed and counted. -/
theorem BuiltFrom.place {built : List Segment} (h : BuiltFrom (head :: rest) built)
    (hchain : ChainKept (head :: rest))
    (hpiece : skb.piece = skb.skb.piece) (hpart : skb.skb.IsPart) (hfresh : ∀ x ∈ head :: rest, x.addr < skb.addr)
    (hplace : placeSkb env copy head rest skb = some (chain, delta)) :
    BuiltFrom (updateFirst (countSegment skb.skb delta) chain) (built ++ [skb.skb]) := by
  obtain ⟨segs, hperm, hholds⟩ := h
  have hplaced := placeSkb_placed hholds hchain.last hpiece (by rw [hpiece]; exact hpart.1)
    (by rw [hpiece]; exact hpart.stop_le) (fun x hx => Nat.ne_of_lt (hfresh x hx)) hplace
  obtain ⟨segs', hperm', hholds'⟩ := hplaced.holds
  refine ⟨segs', ?_, hholds'.updateFirst _⟩
  calc List.Perm segs' (skb.skb :: segs) := hperm'
    List.Perm _ (skb.skb :: built) := hperm.cons _
    List.Perm _ (built ++ [skb.skb]) := (List.perm_append_singleton _ _).symm

/-- The mark and the time stamp of the first skb do not matter. -/
theorem BuiltFrom.finish {built : List Segment} (h : BuiltFrom (head :: rest) built) :
    BuiltFrom (finishHead seg head :: rest) built := by
  obtain ⟨segs, hperm, ⟨groups, hflat, hmerged⟩, hordered, hfull, haddrs⟩ := h
  refine ⟨segs, hperm, ⟨groups, hflat, ?_⟩, hordered, ?_, haddrs⟩
  · cases hmerged with
    | cons hhead hrest => exact List.Forall₂.cons ⟨hhead.merges, hhead.net⟩ hrest
  · rw [List.forall_mem_cons] at hfull ⊢
    exact ⟨hfull.1, hfull.2⟩

/-- A packet of one segment. -/
theorem marksKept_single (hpiece : skb.piece = skb.skb.piece) (hne : skb.skb.data ≠ [])
    (hstop : skb.skb.piece.stop ≤ skb.skb.tot_len) : MarksKept [skb] [skb.skb] := by
  refine ⟨BuiltFrom.single hpiece hne hstop skb.first, fun _ => ?_⟩
  have hhead : HeadMarked [skb] ↔ skb.skb.Marked := by
    show (∃ x ∈ some skb, x.skb.Marked) ↔ _
    simp
  rw [MarksSurvive, hhead, MarkKept]
  simp

/-- **Storing a segment** keeps what is noted in its entry, and a packet that is handed on is marked as far as
the condition says. -/
theorem storeSegment_notes {s : SttPercpu} {i : Fin fragHashEntries} {jiffies : BitVec 64} {built : List Segment}
    (hchain : ChainKept (s.frag_hash i).skbs) (hoffset : skb.offset = skb.skb.offset) (hpart : skb.skb.IsPart)
    (hfresh : ∀ x ∈ (s.frag_hash i).skbs, x.addr < skb.addr) (hnoted : EntryNoted (s.frag_hash i).skbs built) :
    EntryNoted ((storeSegment env s i skb jiffies copy).1.frag_hash i).skbs
        (builtAfter env copy (s.frag_hash i) skb built) ∧
      ∀ skbs ∈ (storeSegment env s i skb jiffies copy).2,
        MarksKept skbs (builtAfter env copy (s.frag_hash i) skb built) := by
  have hpiece : skb.piece = skb.skb.piece := by
    rw [FragSkb.piece, Segment.piece, hoffset]
  rw [storeSegment, builtAfter]
  cases hskbs : (s.frag_hash i).skbs with
  | nil =>
      refine ⟨fun _ => ?_, fun skbs hskbs => by cases hskbs⟩
      show BuiltFrom (Function.update s.frag_hash i _ i).skbs _ ∧
        ∃ first later, [skb.skb] = first :: later ∧ NotesMarks (Function.update s.frag_hash i _ i).skbs first later
      rw [Function.update_self]
      exact ⟨BuiltFrom.single hpiece hpart.1 hpart.2.1 _, skb.skb, [], rfl, NotesMarks.start rfl hoffset⟩
  | cons head rest =>
      dsimp only
      rw [hskbs] at hchain hnoted hfresh
      cases hplace : placeSkb env copy head rest skb with
      | none =>
          refine ⟨?_, fun skbs hskbs => by cases hskbs⟩
          show EntryNoted (s.frag_hash i).skbs built
          rw [hskbs]
          exact hnoted
      | some placed =>
          obtain ⟨chain, delta⟩ := placed
          obtain ⟨hbuilt, first, later, rfl, hnotes⟩ := hnoted (List.cons_ne_nil _ _)
          have hplaced := hnotes.place hchain hoffset hpart.1 hplace
          have hbuilt' := hbuilt.place hchain hpiece hpart hfresh hplace
          have hchainne : chain ≠ [] := by
            obtain ⟨head', tail, rfl, -⟩ := placeSkb_first hchain.first_le hplace
            exact List.cons_ne_nil _ _
          obtain ⟨counted, tail, hcounted, hcases⟩ := @finishFrag_cases s i chain delta skb.skb hchainne
          rw [hcounted] at hplaced hbuilt'
          show EntryNoted _ (first :: (later ++ [skb.skb])) ∧
            ∀ skbs ∈ _, MarksKept skbs (first :: (later ++ [skb.skb]))
          rcases hcases with ⟨-, hhash, hout⟩ | ⟨-, hhash, hout⟩
          · -- the packet is complete
            dsimp only
            rw [hhash, hout, Function.update_self]
            refine ⟨EntryNoted.nil, fun skbs hskbs => ?_⟩
            obtain rfl := Option.some.inj hskbs
            exact ⟨hbuilt'.finish, hplaced.marks⟩
          · -- the entry waits for more
            dsimp only
            rw [hhash, hout, Function.update_self]
            refine ⟨fun _ => ⟨hbuilt', first, later ++ [skb.skb], rfl, hplaced⟩, fun skbs hskbs => ?_⟩
            cases hskbs

end

/-! ### Runs -/

/-- What every event keeps. -/
structure HistoryKept (h : SttHistory) : Prop where
  inv : SttInv h.cpu
  chains : ∀ i, ChainKept (h.cpu.frag_hash i).skbs
  noted : ∀ i, EntryNoted (h.cpu.frag_hash i).skbs (h.built i)

section

variable {env : SttEnv} {s t : SttPercpu} {built : Fin fragHashEntries → List Segment}

/-- Entries that are freed have nothing noted any more. -/
theorem HistoryKept.freed (h : HistoryKept ⟨s, built⟩) (hfreed : Freed s t) : HistoryKept ⟨t, built⟩ where
  inv := hfreed.inv h.inv
  chains i := by
    rcases hfreed.frags i with heq | hnil
    · rw [heq]
      exact h.chains i
    · rw [hnil]
      exact ChainKept.nil
  noted i := by
    rcases hfreed.frags i with heq | hnil
    · rw [heq]
      exact h.noted i
    · rw [hnil]
      exact EntryNoted.nil

theorem HistoryKept.incr (h : HistoryKept ⟨s, built⟩) : HistoryKept ⟨{ s with fresh := s.fresh + 1 }, built⟩ :=
  ⟨h.inv.incr, h.chains, h.noted⟩

/-- Storing a segment changes one entry, and what that has been built from. -/
theorem HistoryKept.store {i : Fin fragHashEntries} {skb : FragSkb} {jiffies : BitVec 64} {copy : CopyEnv}
    (h : HistoryKept ⟨s, built⟩) (hoffset : skb.offset = skb.skb.offset) (hpart : skb.skb.IsPart)
    (hfresh : ∀ x ∈ (s.frag_hash i).skbs, x.addr < skb.addr) (haddr : skb.addr < s.fresh) :
    HistoryKept ⟨(storeSegment env s i skb jiffies copy).1,
        Function.update built i (builtAfter env copy (s.frag_hash i) skb (built i))⟩ ∧
      ∀ skbs ∈ (storeSegment env s i skb jiffies copy).2,
        MarksKept skbs (builtAfter env copy (s.frag_hash i) skb (built i)) := by
  have hpiece : skb.piece = skb.skb.piece := by
    rw [FragSkb.piece, Segment.piece, hoffset]
  obtain ⟨hnoted, hout⟩ :=
    @storeSegment_notes env copy skb s i jiffies (built i) (h.chains i) hoffset hpart hfresh (h.noted i)
  obtain ⟨frag, hhash, hchain, -⟩ :=
    @storeSegment_slot env s i skb jiffies copy (h.chains i) hpiece hpart hfresh
  refine ⟨⟨storeSegment_inv h.inv haddr, fun j => ?_, fun j => ?_⟩, hout⟩
  · rw [hhash]
    by_cases hj : j = i
    · rw [hj, Function.update_self]
      exact hchain
    · rw [Function.update_of_ne hj]
      exact h.chains j
  · by_cases hj : j = i
    · subst hj
      show EntryNoted _ (Function.update built j _ j)
      rw [Function.update_self]
      exact hnoted
    · show EntryNoted _ (Function.update built i _ j)
      rw [Function.update_of_ne hj, storeSegment_other hj]
      exact h.noted j

end

/-- **One event** keeps what is noted, and a packet that is handed on is marked as far as the condition says. -/
theorem historyStep_kept (env : SttEnv) (h : SttHistory) (e : SttEvent) (hkept : HistoryKept h) (_ : True) :
    ∃ out h', historyStep env h e = .ok (out, h') ∧ (∀ p ∈ out, MarksKept p.1 p.2) ∧ HistoryKept h' := by
  cases e with
  | clean i jiffies => exact ⟨_, _, rfl, nofun, hkept.freed (cleanFrag_freed env h.cpu i jiffies)⟩
  | segment seg clock copy =>
      by_cases hpart : seg.IsPart
      case pos =>
        have hlooked : HistoryKept ⟨(lookedUp env h.cpu seg clock).1, h.built⟩ := hkept.incr.freed lookedUp_freed
        have haddr : (arrived h.cpu seg).addr < (lookedUp env h.cpu seg clock).1.fresh := by
          rw [lookedUp_freed.fresh]
          exact Nat.lt_succ_self _
        have hstored := @HistoryKept.store env _ _ (lookedUp env h.cpu seg clock).2 (arrived h.cpu seg)
          (clock fragHashSegs) copy hlooked rfl hpart (fun x hx => lookedUp_addr_lt hkept.inv hx) haddr
        rw [← reassemble_of_isPart hpart] at hstored
        simp only [historyStep, if_pos hpart]
        refine ⟨_, _, rfl, ?_, hstored.1⟩
        intro p hp
        obtain ⟨skbs, hskbs, rfl⟩ := Option.map_eq_some_iff.mp hp
        exact hstored.2 skbs hskbs
      case neg =>
        obtain ⟨hcpu, hout⟩ := @reassemble_of_not_isPart env h.cpu seg clock copy hpart
        simp only [historyStep, if_neg hpart]
        refine ⟨_, _, rfl, ?_, ?_⟩
        · intro p hp
          obtain ⟨skbs, hskbs, rfl⟩ := Option.map_eq_some_iff.mp hp
          rcases hout with hnone | ⟨hone, htiles⟩
          · exact absurd (hnone.symm.trans hskbs) nofun
          · obtain rfl := Option.some.inj (hone.symm.trans hskbs)
            have hne : seg.data ≠ [] := by
              intro hnil
              simp [reassemble, hnil] at hone
            exact marksKept_single rfl hne htiles.2.le
        · rw [hcpu]
          exact hkept.incr

theorem startHistory_kept : HistoryKept startHistory where
  inv := emptyPercpu_inv
  chains _ := ChainKept.nil
  noted _ := EntryNoted.nil

/-- **Congestion marks**, in every run: a packet that is handed on is made of the segments it has been built
from. When these are all ECN-capable, it is marked exactly if one of them has been, if and only if the mark of
the segment that has arrived first does not get lost. -/
theorem historyRun_marks (env : SttEnv) (es : List SttEvent) :
    RunHolds (historyStep env)
      (fun _ _ out _ => ∀ p ∈ out, BuiltFrom p.1 p.2 ∧
        ((∀ seg ∈ p.2, seg.Capable) → (MarksSurvive p.1 p.2 ↔ MarkKept p.2)))
      startHistory es :=
  runHolds_of_runMeets (historyStep_kept env) startHistory_kept (runMeets_const_of_forall fun _ _ => trivial)

/-- The second half of a packet of two bytes, marked on its way. -/
def markedHalf : SttEvent := .segment { segmentOf 0x20001 [2] with tos := 3 } (fun _ => 0) ⟨true, none, true⟩

/-- The first half, which comes in later. -/
def lateHalf : SttEvent := .segment { segmentOf 0x20000 [1] with tos := 2 } (fun _ => 0) ⟨true, none, true⟩

/-- The mark of the half that has arrived first is lost. -/
theorem historyRun_lateHead : ¬ RunHolds (historyStep plainEnv)
    (fun _ _ out _ => ∀ p ∈ out, (∀ seg ∈ p.2, seg.Capable) → MarksSurvive p.1 p.2) startHistory
    [markedHalf, lateHalf] := by
  intro hrun
  obtain ⟨hsurvive, -⟩ := (hrun.tail rfl).2.tail rfl
  exact absurd hsurvive (by decide)

end OvsDatapath.Stt
