import OvsDatapath.Stt.Delivery

/-!
# Segments in any order

A packet that was cut into segments is put together again, whatever the order in which they arrive,
with duplicates and with segments of other packets in between. What the receiver has to do is said
by `collect`, which knows nothing of chains: it keeps the pieces that have arrived and hands the
packet on when the last one is there. `sttStep_collects` says that the table does the same, as long
as the entry of the packet stays in it.

Once a packet was handed on nothing is left of it, so a second copy of all its segments is a second
packet.
-/

namespace OvsDatapath.Stt

open OvsDatapath.Lib

/-! ### The packet and its segments -/

/-- A packet that was cut into segments that are not empty. -/
structure CutPacket where
  net : Nat
  key : PktKey
  data : List UInt8
  cut : List (Piece UInt8)
  length_lt : data.length < 2 ^ 16
  tiles : Tiles 0 data.length cut
  full : ∀ p ∈ cut, p.Full
  data_eq : contents cut = data

/-- The segment has the key of the packet. -/
def CutPacket.Own (pkt : CutPacket) (seg : Segment) : Prop := seg.net = pkt.net ∧ seg.key = pkt.key

instance (pkt : CutPacket) (seg : Segment) : Decidable (pkt.Own seg) :=
  inferInstanceAs (Decidable (_ ∧ _))

/-- The segment is one of those that the packet was cut into. -/
def CutPacket.IsSegment (pkt : CutPacket) (seg : Segment) : Prop :=
  ∃ p ∈ pkt.cut, seg.data = p.data ∧
    seg.seq = BitVec.ofNat 32 ((pkt.data.length <<< sttSeqLenShift) + p.start)

namespace CutPacket.IsSegment

variable {pkt : CutPacket} {seg : Segment}

/-- The sequence number says how long the packet is and where the segment belongs. -/
theorem tot_len_and_piece (h : pkt.IsSegment seg) :
    seg.tot_len = pkt.data.length ∧ seg.piece ∈ pkt.cut := by
  obtain ⟨p, hp, hdata, hseq⟩ := h
  have hstop := (pkt.tiles.ordered.mem hp).2
  have hpos := (pkt.full p hp).start_lt
  have hlen := pkt.length_lt
  have hnat : seg.seq.toNat = pkt.data.length * 2 ^ 16 + p.start := by
    rw [hseq, BitVec.toNat_ofNat, Nat.shiftLeft_eq]
    exact Nat.mod_eq_of_lt (by simp only [sttSeqLenShift]; omega)
  constructor
  · simp only [Segment.tot_len, sttSeqLenShift, BitVec.toNat_ushiftRight,
      Nat.shiftRight_eq_div_pow, hnat]
    omega
  · have hoffset : seg.offset = p.start := by
      have hmask : sttSeqOffsetMask.toNat = 2 ^ 16 - 1 := rfl
      simp only [Segment.offset, BitVec.toNat_and, hmask, Nat.and_two_pow_sub_one_eq_mod, hnat]
      omega
    have hpiece : seg.piece = p := by
      rw [Segment.piece, hoffset, hdata]
    rwa [hpiece]

theorem tot_len (h : pkt.IsSegment seg) : seg.tot_len = pkt.data.length := h.tot_len_and_piece.1

theorem piece_mem (h : pkt.IsSegment seg) : seg.piece ∈ pkt.cut := h.tot_len_and_piece.2

/-- It is dropped by none of the first checks. -/
theorem isPart_iff (h : pkt.IsSegment seg) : seg.IsPart ↔ seg.data.length ≠ pkt.data.length := by
  have hstop := (pkt.tiles.ordered.mem h.piece_mem).2
  rw [Segment.IsPart, h.tot_len]
  constructor
  · exact fun hpart => hpart.2.2.symm
  · exact fun hne => ⟨pkt.full _ h.piece_mem, hstop, hne.symm⟩

end CutPacket.IsSegment

namespace CutPacket

variable {pkt : CutPacket}

/-- Pieces of the packet, in order, are all of them exactly when there is as much data as the packet
has. -/
theorem length_eq_iff {ps : List (Piece UInt8)} (hord : Ordered 0 pkt.data.length ps)
    (hsub : ∀ p ∈ ps, p ∈ pkt.cut) :
    (contents ps).length = pkt.data.length ↔ ∀ p ∈ pkt.cut, p ∈ ps :=
  pkt.tiles.length_eq_iff pkt.full hord hsub

/-- Pieces of the packet that leave no gap are the packet. -/
theorem contents_eq {ps : List (Piece UInt8)} (htiles : Tiles 0 pkt.data.length ps)
    (hsub : ∀ p ∈ ps, p ∈ pkt.cut) : contents ps = pkt.data := by
  have heq : ps = pkt.cut := by
    apply htiles.unique pkt.tiles (fun p hp => pkt.full p (hsub p hp)) pkt.full
    exact fun p hp q hq => pkt.tiles.ordered.eq_of_start pkt.full (hsub p hp) hq
  rw [heq, pkt.data_eq]

end CutPacket

/-! ### What the receiver has to do -/

/-- A receiver that has the pieces `got` and gets one more: what it has then, and what it hands
on. -/
def collect (pkt : CutPacket) (got : List (Piece UInt8)) (p : Piece UInt8) :
    List (Piece UInt8) × Option (List UInt8) :=
  if p ∈ got then (got, none)
  else if ∀ q ∈ pkt.cut, q ∈ p :: got then ([], some pkt.data)
  else (p :: got, none)

/-- What it hands on for each piece that arrives. -/
def collectAll (pkt : CutPacket) : List (Piece UInt8) → List (Piece UInt8) → List (Option (List UInt8))
  | _, [] => []
  | got, p :: ps => (collect pkt got p).2 :: collectAll pkt (collect pkt got p).1 ps

/-- As long as a piece is missing, nothing is handed on. -/
theorem collectAll_missing {pkt : CutPacket} {got ps : List (Piece UInt8)} {q : Piece UInt8}
    (hq : q ∈ pkt.cut) (hgot : q ∉ got) (hps : q ∉ ps) (more : List (Piece UInt8)) :
    ∃ got', (∀ p, p ∈ got' ↔ p ∈ got ∨ p ∈ ps) ∧
      collectAll pkt got (ps ++ more) = List.replicate ps.length none ++ collectAll pkt got' more := by
  induction ps generalizing got with
  | nil => exact ⟨got, by simp, rfl⟩
  | cons p ps ih =>
      obtain ⟨hp, hps⟩ : q ≠ p ∧ q ∉ ps := by simpa using hps
      have hnot : ¬ ∀ r ∈ pkt.cut, r ∈ p :: got := fun hall => by simpa [hp, hgot] using hall q hq
      by_cases hmem : p ∈ got
      case pos =>
        obtain ⟨got', hgot', heq⟩ := ih hgot hps
        refine ⟨got', fun r => ?_, ?_⟩
        · rw [hgot', List.mem_cons]
          grind
        · simp only [List.cons_append, collectAll, collect, if_pos hmem, heq]
          rfl
      case neg =>
        obtain ⟨got', hgot', heq⟩ := @ih (p :: got) (by simp [hp, hgot]) hps
        refine ⟨got', fun r => ?_, ?_⟩
        · rw [hgot', List.mem_cons, List.mem_cons]
          grind
        · simp only [List.cons_append, collectAll, collect, if_neg hmem, if_neg hnot, heq]
          rfl

/-- **The packet is handed on once**, when the last missing piece arrives, if not all pieces arrive
again after that. -/
theorem collectAll_once {pkt : CutPacket} {pre post : List (Piece UInt8)} {p q r : Piece UInt8}
    (hq : q ∈ pkt.cut) (hpre : q ∉ pre) (hall : ∀ t ∈ pkt.cut, t ∈ p :: pre) (hr : r ∈ pkt.cut)
    (hpost : r ∉ post) : collectAll pkt [] (pre ++ p :: post) =
      List.replicate pre.length none ++ some pkt.data :: List.replicate post.length none := by
  obtain ⟨got, hgot, heq⟩ := @collectAll_missing pkt [] pre q hq (by simp) hpre (p :: post)
  have hqp : q = p := by simpa [hpre] using hall q hq
  subst hqp
  have hnew : q ∉ got := by simpa [hgot] using hpre
  have hlast : ∀ t ∈ pkt.cut, t ∈ q :: got := by
    intro t ht
    have := hall t ht
    rw [List.mem_cons] at this ⊢
    simpa [hgot] using this
  obtain ⟨got', -, hrest⟩ := @collectAll_missing pkt [] post r hr (by simp) hpost []
  rw [heq]
  simp only [collectAll, collect, if_neg hnew, if_pos hlast]
  rw [List.append_nil] at hrest
  rw [hrest]
  simp [collectAll]

/-! ### Finding the entry of the packet -/

/-- The slots that `lookup_frag` looks at. -/
def probeSlots : Nat → BitVec 32 → List (Fin fragHashEntries)
  | 0, _ => []
  | n + 1, hash => hashSlot hash :: probeSlots n (hash >>> fragHashShift)

section
variable {env : SttEnv} {s : SttPercpu} {net : Nat} {key : PktKey} {clock : Nat → BitVec 64}

/-- An entry that stays usable is found, unless another one is found before. -/
theorem lookupLoop_inl {i : Fin fragHashEntries}
    (husable : ∀ n, fragUsable env net key (clock n) (s.frag_hash i)) {n : Nat} {hash : BitVec 32}
    (hi : i ∈ probeSlots n hash) (victim : Option (Fin fragHashEntries)) :
    ∃ j, lookupLoop env s net key clock n hash victim = .inl j := by
  induction n generalizing hash victim with
  | zero => cases hi
  | succ n ih =>
      rw [lookupLoop]
      split
      case isTrue => exact ⟨_, rfl⟩
      case isFalse hnot =>
        rcases List.mem_cons.mp hi with rfl | hi
        · exact absurd (husable n) hnot
        · exact ih hi _

theorem pickVictim_eq (i : Fin fragHashEntries) (victim : Option (Fin fragHashEntries)) :
    pickVictim s i victim = i ∨ some (pickVictim s i victim) = victim := by
  cases victim with
  | none => exact Or.inl rfl
  | some v =>
      rw [pickVictim]
      split
      · exact Or.inl rfl
      · exact Or.inr rfl

/-- Only slots that belong to the hash are found or made free. -/
theorem lookupLoop_probe {n : Nat} {hash : BitVec 32} {victim : Option (Fin fragHashEntries)} :
    (∀ j, lookupLoop env s net key clock n hash victim = .inl j → j ∈ probeSlots n hash) ∧
      ∀ v, lookupLoop env s net key clock n hash victim = .inr (some v) →
        v ∈ probeSlots n hash ∨ some v = victim := by
  induction n generalizing hash victim with
  | zero =>
      refine ⟨fun j h => (by cases h), fun v h => Or.inr ?_⟩
      exact (Sum.inr.inj h).symm
  | succ n ih =>
      obtain ⟨hfound, hvictim⟩ := @ih (hash >>> fragHashShift)
        (some (pickVictim s (hashSlot hash) victim))
      rw [lookupLoop]
      split
      case isTrue =>
        refine ⟨fun j h => ?_, fun v h => by cases h⟩
        obtain rfl := Sum.inl.inj h
        exact List.mem_cons_self ..
      case isFalse =>
        refine ⟨fun j h => List.mem_cons_of_mem _ (hfound j h), fun v h => ?_⟩
        rcases hvictim v h with hmem | heq
        · exact Or.inl (List.mem_cons_of_mem _ hmem)
        · obtain rfl := Option.some.inj heq
          rcases pickVictim_eq (s := s) (hashSlot hash) victim with heq' | heq'
          · left
            rw [heq']
            exact List.mem_cons_self ..
          · exact Or.inr heq'

/-- The slot that `lookup_frag` answers is one of those. -/
theorem lookupFrag_probe (hash : BitVec 32) :
    (lookupFrag env s net key hash clock).2 ∈ probeSlots fragHashSegs hash := by
  obtain ⟨hfound, hvictim⟩ := @lookupLoop_probe env s net key clock fragHashSegs hash none
  rw [lookupFrag]
  split
  case h_1 j hj => exact hfound j hj
  case h_2 victim hv =>
    cases victim with
    | none => exact List.mem_cons_self ..
    | some v => exact (hvictim v hv).resolve_right (by simp)

/-- If an entry stays usable, `lookup_frag` frees nothing and finds a usable one. -/
theorem lookupFrag_usable {i : Fin fragHashEntries}
    (husable : ∀ n, fragUsable env net key (clock n) (s.frag_hash i)) {hash : BitVec 32}
    (hi : i ∈ probeSlots fragHashSegs hash) :
    (lookupFrag env s net key hash clock).1 = s ∧ ∃ jiffies, fragUsable env net key jiffies
      (s.frag_hash (lookupFrag env s net key hash clock).2) := by
  obtain ⟨j, hj⟩ := lookupLoop_inl husable hi none
  have hfound := lookupLoop_found hj
  simp only [lookupFrag, hj]
  exact ⟨trivial, hfound⟩

end

/-! ### Entries of the packet -/

/-- The entry is in use for the packet. -/
def CutPacket.HeldAt (pkt : CutPacket) (s : SttPercpu) (i : Fin fragHashEntries) : Prop :=
  ∃ head rest, (s.frag_hash i).skbs = head :: rest ∧ head.skb.net = pkt.net ∧
    (s.frag_hash i).key = pkt.key

theorem CutPacket.HeldAt.ne_nil {pkt : CutPacket} {s : SttPercpu} {i : Fin fragHashEntries}
    (h : pkt.HeldAt s i) : (s.frag_hash i).skbs ≠ [] := by
  obtain ⟨head, rest, hskbs, -⟩ := h
  rw [hskbs]
  exact List.cons_ne_nil head rest

/-- The entry of the packet is not evicted in a step, neither for its memory nor for its slot, and
has not expired when one of its segments arrives. -/
def EntryKept (env : SttEnv) (pkt : CutPacket) (s : SttPercpu) : SttEvent → Prop
  | .segment seg clock _ => ∀ i, pkt.HeldAt s i → seg.IsPart →
      (lookedUp env s seg clock).1.frag_hash i = s.frag_hash i ∧
        (pkt.Own seg → ∀ n, timeBefore (clock n) ((s.frag_hash i).timestamp + env.frag_exp_time))
  | .clean j jiffies => ∀ i, pkt.HeldAt s i → (cleanFrag env s j jiffies).frag_hash i = s.frag_hash i

/-- The table holds the pieces `got` of the packet, in one entry, and they are not all. -/
structure Collecting (env : SttEnv) (pkt : CutPacket) (got : List (Piece UInt8)) (s : SttPercpu) :
    Prop where
  inv : SttInv s
  missing : ∃ q ∈ pkt.cut, q ∉ got
  none_held : got = [] → ∀ i, ¬ pkt.HeldAt s i
  held : got ≠ [] → ∃ i, pkt.HeldAt s i ∧ (∀ j, pkt.HeldAt s j → j = i) ∧
    i ∈ probeSlots fragHashSegs (env.pkt_key_hash pkt.net pkt.key) ∧
    ∃ segs, EntryHolds (s.frag_hash i) pkt.net pkt.data.length segs ∧
      (∀ seg ∈ segs, seg.piece ∈ pkt.cut) ∧ ∀ p, p ∈ got ↔ p ∈ segs.map Segment.piece

/-- Whatever else has changed: the entry of the packet has not, and there is no other. -/
theorem Collecting.congr {env : SttEnv} {pkt : CutPacket} {got : List (Piece UInt8)}
    {s t : SttPercpu} (h : Collecting env pkt got s) (hinv : SttInv t)
    (hsame : ∀ i, pkt.HeldAt s i → t.frag_hash i = s.frag_hash i)
    (hback : ∀ i, pkt.HeldAt t i → pkt.HeldAt s i) : Collecting env pkt got t where
  inv := hinv
  missing := h.missing
  none_held hnil i hi := h.none_held hnil i (hback i hi)
  held hne := by
    obtain ⟨i, hi, hunique, hprobe, segs, hentry, hsegs, hgot⟩ := h.held hne
    refine ⟨i, ?_, fun j hj => hunique j (hback j hj), hprobe, segs, ?_, hsegs, hgot⟩
    · rw [CutPacket.HeldAt, hsame i hi]
      exact hi
    · rwa [hsame i hi]

/-- Freeing entries does not make any. -/
theorem CutPacket.HeldAt.of_freed {pkt : CutPacket} {s t : SttPercpu} (hfreed : Freed s t)
    {i : Fin fragHashEntries} (h : pkt.HeldAt t i) : pkt.HeldAt s i := by
  rw [CutPacket.HeldAt, ← hfreed.eq_of_ne_nil h.ne_nil]
  exact h

/-! ### Segments of other packets -/

section
variable {env : SttEnv} {pkt : CutPacket} {s : SttPercpu} {i : Fin fragHashEntries}
variable {skb : FragSkb} {jiffies : BitVec 64} {copy : CopyEnv}

/-- A segment is stored in its own slot. -/
theorem storeSegment_other {j : Fin fragHashEntries} (hj : j ≠ i) :
    (storeSegment env s i skb jiffies copy).1.frag_hash j = s.frag_hash j := by
  rw [storeSegment]
  split
  case h_1 => simp [startFrag, hj]
  case h_2 =>
    split
    case h_1 => rfl
    case h_2 =>
      rw [finishFrag]
      split
      · rfl
      · split <;> simp [hj]

/-- What it is stored in is not the entry of another packet. -/
theorem storeSegment_foreign (hforeign : ¬ pkt.Own skb.skb)
    (hmatch : ∀ head ∈ (s.frag_hash i).skbs.head?,
      skb.skb.key = (s.frag_hash i).key ∧ head.skb.net = skb.skb.net) :
    ¬ pkt.HeldAt (storeSegment env s i skb jiffies copy).1 i := by
  rintro ⟨first, others, hskbs, hnet, hkey⟩
  rw [storeSegment] at hskbs hkey
  split at hskbs
  case h_1 hnil =>
    simp only [hnil, startFrag, Function.update_self] at hskbs hkey
    obtain ⟨rfl, -⟩ := List.cons.inj hskbs
    exact hforeign ⟨hnet, hkey⟩
  case h_2 head rest hcons =>
    obtain ⟨hkey', hnet'⟩ := hmatch head (by simp [hcons])
    simp only [hcons] at hkey
    split at hskbs
    case h_1 hplace =>
      simp only [hplace] at hkey
      rw [hcons] at hskbs
      obtain ⟨rfl, -⟩ := List.cons.inj hskbs
      exact hforeign ⟨hnet'.symm.trans hnet, hkey'.trans hkey⟩
    case h_2 chain delta hplace =>
      obtain ⟨head', tail, rfl, hhead'⟩ := placeSkb_head hplace
      simp only [hplace] at hkey
      obtain ⟨_, _, hcounted, ⟨-, hhash, -⟩ | ⟨-, hhash, -⟩⟩ :=
        @finishFrag_cases s i (head' :: tail) delta skb.skb (List.cons_ne_nil _ _)
      · simp [hhash] at hskbs
      · rw [hhash, Function.update_self] at hskbs hkey
        obtain ⟨rfl, -⟩ := List.cons.inj hskbs
        obtain ⟨rfl, -⟩ := List.cons.inj hcounted
        refine hforeign ⟨?_, hkey'.trans hkey⟩
        rcases hhead' with hsame | hsame
        · exact (hnet'.symm.trans hsame.symm).trans hnet
        · exact hsame.symm.trans hnet

end

/-- A segment of another packet leaves the entry of the packet alone. -/
theorem Collecting.foreign {env : SttEnv} {pkt : CutPacket} {got : List (Piece UInt8)}
    {s : SttPercpu} (h : Collecting env pkt got s) {seg : Segment} {clock : Nat → BitVec 64}
    {copy : CopyEnv} (hforeign : ¬ pkt.Own seg)
    (hkept : EntryKept env pkt s (.segment seg clock copy)) :
    Collecting env pkt got (reassemble env s seg clock copy).1 := by
  have hinv := sttStep_inv env h.inv (.segment seg clock copy)
  simp only [sttStep] at hinv
  by_cases hpart : seg.IsPart
  case neg =>
    rw [(reassemble_of_not_isPart hpart).1] at hinv ⊢
    exact h.congr hinv (fun _ _ => rfl) (fun _ hi => hi)
  case pos =>
    rw [reassemble_of_isPart hpart] at hinv ⊢
    have hfreed := @lookedUp_freed env s seg clock
    have hmatch := fun head => @lookedUp_match env s seg clock head
    have hkept' := fun i hi => (hkept i hi hpart).1
    generalize lookedUp env s seg clock = found at hinv hfreed hmatch hkept' ⊢
    have hnot : ¬ pkt.HeldAt (storeSegment env found.1 found.2 (arrived s seg)
        (clock fragHashSegs) copy).1 found.2 :=
      storeSegment_foreign hforeign hmatch
    apply h.congr hinv
    · intro i hi
      -- the slot of the segment is not that of the packet
      have hne : i ≠ found.2 := by
        rintro rfl
        have heq := hkept' found.2 hi
        obtain ⟨head, rest, hskbs, hnet, hkey⟩ := hi
        rw [← heq] at hskbs hkey
        obtain ⟨hkey', hnet'⟩ := hmatch head (by simp [hskbs])
        exact hforeign ⟨hnet'.symm.trans hnet, hkey'.trans hkey⟩
      rw [storeSegment_other hne, hkept' i hi]
    · intro i hi
      have hne : i ≠ found.2 := by
        rintro rfl
        exact hnot hi
      rw [CutPacket.HeldAt, storeSegment_other hne] at hi
      exact CutPacket.HeldAt.of_freed hfreed hi

/-! ### Segments of the packet -/

section
variable {env : SttEnv} {pkt : CutPacket} {got : List (Piece UInt8)} {s : SttPercpu}
variable {seg : Segment} {clock : Nat → BitVec 64} {copy : CopyEnv}

theorem Collecting.got_subset (h : Collecting env pkt got s) : ∀ p ∈ got, p ∈ pkt.cut := by
  intro p hp
  obtain ⟨i, -, -, -, segs, -, hsegs, hgot⟩ := h.held (List.ne_nil_of_mem hp)
  obtain ⟨g, hg, rfl⟩ := List.mem_map.mp ((hgot p).mp hp)
  exact hsegs g hg

/-- A usable entry for a segment of the packet is the packet's. -/
theorem heldAt_of_usable (hown : pkt.Own seg) {jiffies : BitVec 64} {i : Fin fragHashEntries}
    (h : fragUsable env seg.net seg.key jiffies (s.frag_hash i)) : pkt.HeldAt s i := by
  obtain ⟨head, rest, hskbs, -, hkey, hnet⟩ := fragUsable_iff.mp h
  exact ⟨head, rest, hskbs, hnet.trans hown.1, hkey.trans hown.2⟩

/-- The first segment of the packet finds a slot that is free. -/
theorem lookedUp_free (hown : pkt.Own seg) (hnone : ∀ i, ¬ pkt.HeldAt s i) :
    ((lookedUp env s seg clock).1.frag_hash (lookedUp env s seg clock).2).skbs = [] := by
  rcases lookupFrag_cases (t := (lookedUp env s seg clock).1) (i := (lookedUp env s seg clock).2) _ rfl
    with ⟨hsame, jiffies, husable⟩ | hempty
  · rw [← hsame] at husable
    exact absurd ((heldAt_of_usable hown husable).of_freed lookedUp_freed) (hnone _)
  · exact hempty

/-- The others find the entry of the packet. -/
theorem lookedUp_held (hown : pkt.Own seg) {i : Fin fragHashEntries} (hi : pkt.HeldAt s i)
    (hunique : ∀ j, pkt.HeldAt s j → j = i)
    (hprobe : i ∈ probeSlots fragHashSegs (env.pkt_key_hash pkt.net pkt.key))
    (hsame : (lookedUp env s seg clock).1.frag_hash i = s.frag_hash i)
    (hfresh : ∀ n, timeBefore (clock n) ((s.frag_hash i).timestamp + env.frag_exp_time)) :
    (lookedUp env s seg clock).2 = i := by
  have hroom := makeRoom_freed { s with fresh := s.fresh + 1 } seg
  rw [lookedUp] at hsame ⊢
  generalize makeRoom { s with fresh := s.fresh + 1 } seg = t at hroom hsame ⊢
  -- what the search has left alone was there before the search
  have hfreed := @lookupFrag_freed env t seg.net seg.key clock (env.pkt_key_hash seg.net seg.key)
  have heq : t.frag_hash i = s.frag_hash i := by
    rw [← hsame]
    apply (hfreed.eq_of_ne_nil ?_).symm
    rw [hsame]
    exact hi.ne_nil
  have husable : ∀ n, fragUsable env seg.net seg.key (clock n) (t.frag_hash i) := by
    intro n
    obtain ⟨head, rest, hskbs, hnet, hkey⟩ := hi
    rw [fragUsable_iff, heq]
    exact ⟨head, rest, hskbs, hfresh n, hkey.trans hown.2.symm, hnet.trans hown.1.symm⟩
  rw [← hown.1, ← hown.2] at hprobe
  obtain ⟨-, jiffies, hfound⟩ := lookupFrag_usable husable hprobe
  exact hunique _ ((heldAt_of_usable hown hfound).of_freed hroom)

/-- A packet that was not cut needs no entry. -/
theorem Collecting.whole (h : Collecting env pkt got s) (hseg : pkt.IsSegment seg)
    (hpart : ¬ seg.IsPart) :
    Collecting env pkt (collect pkt got seg.piece).1 (reassemble env s seg clock copy).1 ∧
      (reassemble env s seg clock copy).2.map (fun skbs => skbs.flatMap fun x => x.skb.data) =
        (collect pkt got seg.piece).2 := by
  have hlen : seg.data.length = pkt.data.length := by
    by_contra hne
    exact hpart (hseg.isPart_iff.mpr hne)
  obtain ⟨hstart, hstop⟩ := pkt.tiles.ordered.mem hseg.piece_mem
  have htiles : Tiles 0 pkt.data.length [seg.piece] := by
    simp only [Piece.stop, Segment.piece] at hstop
    refine ⟨?_, ?_⟩ <;> simp only [tiles_nil, Piece.stop, Segment.piece] <;> omega
  have hsub : ∀ p ∈ [seg.piece], p ∈ pkt.cut := by simpa using hseg.piece_mem
  have hall := (pkt.length_eq_iff htiles.ordered hsub).mp (by simpa using htiles.length)
  -- nothing has arrived yet, since the segment is all there is
  obtain ⟨q, hq, hqgot⟩ := h.missing
  have hnew : seg.piece ∉ got := by
    obtain rfl := List.mem_singleton.mp (hall q hq)
    exact hqgot
  have hnil : got = [] := by
    apply List.eq_nil_iff_forall_not_mem.mpr
    intro p hp
    obtain rfl := List.mem_singleton.mp (hall p (h.got_subset p hp))
    exact hnew hp
  subst hnil
  have hcollect : collect pkt [] seg.piece = ([], some pkt.data) := by
    rw [collect, if_neg hnew, if_pos hall]
  have hout : (reassemble env s seg clock copy).2 = some [arrived s seg] := by
    have hne : seg.data.length ≠ 0 :=
      Nat.ne_of_gt (List.length_pos_of_ne_nil (pkt.full _ hseg.piece_mem))
    have hfits : ¬ seg.tot_len < seg.offset + seg.data.length := by
      rw [hseg.tot_len]
      exact Nat.not_lt.mpr hstop
    simp only [reassemble, if_neg hne, if_neg hfits, if_pos (hseg.tot_len.trans hlen.symm)]
    rfl
  rw [hcollect, hout]
  constructor
  · rw [(reassemble_of_not_isPart hpart).1]
    exact h.congr h.inv.incr (fun _ _ => rfl) (fun _ hi => hi)
  · have hdata := pkt.contents_eq htiles hsub
    simpa [arrived, Segment.piece] using hdata

/-- A segment that has arrived before is dropped. -/
theorem Collecting.again (h : Collecting env pkt got s) (hown : pkt.Own seg)
    (hpart : seg.IsPart) (hkept : EntryKept env pkt s (.segment seg clock copy))
    (hmem : seg.piece ∈ got) :
    Collecting env pkt got (reassemble env s seg clock copy).1 ∧
      (reassemble env s seg clock copy).2 = none := by
  obtain ⟨i, hi, hunique, hprobe, segs, hentry, hsegs, hgot⟩ := h.held (List.ne_nil_of_mem hmem)
  obtain ⟨hsame, hfresh⟩ := hkept i hi hpart
  have hslot := lookedUp_held hown hi hunique hprobe hsame (hfresh hown)
  have hinv := (@lookedUp_freed env s seg clock).inv h.inv.incr
  have hover : ¬ ∀ g ∈ segs, seg.piece.Apart g.piece := by
    intro hapart
    obtain ⟨g, hg, heq⟩ := List.mem_map.mp ((hgot _).mp hmem)
    have hfull : seg.piece.Full := hpart.1
    exact hfull.not_apart (heq ▸ hapart g hg)
  have hstore : storeSegment env (lookedUp env s seg clock).1 i (arrived s seg) (clock fragHashSegs)
      copy = ((lookedUp env s seg clock).1, none) :=
    storeSegment_overlap (hsame ▸ hentry) (hsame ▸ hi.ne_nil) rfl hpart.1
      (fun x hx => lookedUp_addr_lt h.inv hx) hover
  rw [reassemble_of_isPart hpart, hslot, hstore]
  refine ⟨h.congr hinv (fun j hj => ?_) (fun j hj => hj.of_freed lookedUp_freed), rfl⟩
  rw [hunique j hj, hsame]

/-- The first segment of a packet starts an entry. -/
theorem Collecting.start (h : Collecting env pkt [] s) (hown : pkt.Own seg)
    (hseg : pkt.IsSegment seg) (hpart : seg.IsPart) :
    Collecting env pkt (collect pkt [] seg.piece).1 (reassemble env s seg clock copy).1 ∧
      (reassemble env s seg clock copy).2.map (fun skbs => skbs.flatMap fun x => x.skb.data) =
        (collect pkt [] seg.piece).2 := by
  have hsub : ∀ p ∈ [seg.piece], p ∈ pkt.cut := by simpa using hseg.piece_mem
  have hord : Ordered 0 pkt.data.length [seg.piece] := pkt.tiles.ordered.mem hseg.piece_mem
  have hnot : ¬ ∀ q ∈ pkt.cut, q ∈ [seg.piece] := by
    rw [← pkt.length_eq_iff hord hsub]
    simpa [Segment.piece] using hseg.isPart_iff.mp hpart
  have hcollect : collect pkt [] seg.piece = ([seg.piece], none) := by
    rw [collect, if_neg (by simp), if_neg hnot]
  -- nothing is held of the packet, so the lookup comes to an entry that is free
  have hfree := @lookedUp_free env pkt s seg clock hown (h.none_held rfl)
  have hinv := sttStep_inv env h.inv (.segment seg clock copy)
  have hprobe : (lookedUp env s seg clock).2 ∈
      probeSlots fragHashSegs (env.pkt_key_hash pkt.net pkt.key) := by
    rw [← hown.1, ← hown.2]
    exact lookupFrag_probe _
  have hfreed := @lookedUp_freed env s seg clock
  simp only [sttStep] at hinv
  rw [hcollect]
  rw [reassemble_of_isPart hpart] at hinv ⊢
  -- only what has been found out about the entry matters from here on
  generalize lookedUp env s seg clock = found at hfree hinv hprobe hfreed ⊢
  have hstore : storeSegment env found.1 found.2 (arrived s seg) (clock fragHashSegs) copy =
      (startFrag found.1 found.2 (arrived s seg) (clock fragHashSegs), none) := by
    simp only [storeSegment, hfree]
  rw [hstore] at hinv ⊢
  have hentry : EntryHolds ((startFrag found.1 found.2 (arrived s seg)
      (clock fragHashSegs)).frag_hash found.2) seg.net seg.tot_len [seg] := by
    simp only [startFrag, Function.update_self]
    exact @EntryHolds.start (arrived s seg) rfl hpart _ ⟨0, seg.truesize, 0, 0, false⟩
  have hheld : ((startFrag found.1 found.2 (arrived s seg)
      (clock fragHashSegs)).frag_hash found.2).skbs ≠ [] := by
    simp [startFrag]
  have hothers : ∀ j ≠ found.2, (startFrag found.1 found.2 (arrived s seg)
      (clock fragHashSegs)).frag_hash j = found.1.frag_hash j :=
    fun j hj => Function.update_of_ne hj ..
  generalize startFrag found.1 found.2 (arrived s seg) (clock fragHashSegs) = t
    at hinv hentry hheld hothers ⊢
  rw [hown.1, hseg.tot_len] at hentry
  refine ⟨⟨hinv, ?_, fun hnil => absurd hnil (by simp),
    fun _ => ⟨found.2, ?_, ?_, hprobe, [seg], hentry, ?_, ?_⟩⟩, rfl⟩
  · push Not at hnot
    exact hnot
  · obtain ⟨head, rest, hskbs⟩ := List.exists_cons_of_ne_nil hheld
    refine ⟨head, rest, hskbs, hentry.same_net head (by simp [hskbs]), ?_⟩
    exact (hentry.of_packet seg (List.mem_singleton_self _)).1.symm.trans hown.2
  · intro j hj
    by_contra hne
    rw [CutPacket.HeldAt, hothers j hne] at hj
    exact h.none_held rfl j (CutPacket.HeldAt.of_freed hfreed hj)
  · simpa using hseg.piece_mem
  · simp

/-- The others join it, and the last one completes the packet. -/
theorem Collecting.join (h : Collecting env pkt got s) (hgot : got ≠ []) (hown : pkt.Own seg)
    (hseg : pkt.IsSegment seg) (hpart : seg.IsPart)
    (hkept : EntryKept env pkt s (.segment seg clock copy)) (hnew : seg.piece ∉ got) :
    Collecting env pkt (collect pkt got seg.piece).1 (reassemble env s seg clock copy).1 ∧
      (reassemble env s seg clock copy).2.map (fun skbs => skbs.flatMap fun x => x.skb.data) =
        (collect pkt got seg.piece).2 := by
  obtain ⟨i, hi, hunique, hprobe, segs, hentry, hsegs, hmem⟩ := h.held hgot
  obtain ⟨hsame, hfresh⟩ := hkept i hi hpart
  have hslot := lookedUp_held hown hi hunique hprobe hsame (hfresh hown)
  have hinv := sttStep_inv env h.inv (.segment seg clock copy)
  have hfreed := @lookedUp_freed env s seg clock
  have hlt := fun j x => @lookedUp_addr_lt env s seg clock h.inv j x
  simp only [sttStep] at hinv
  rw [reassemble_of_isPart hpart] at hinv ⊢
  generalize lookedUp env s seg clock = found at hslot hsame hinv hfreed hlt ⊢
  subst hslot
  -- two different pieces of the packet have no offset in common
  have hapart : ∀ g ∈ segs, seg.piece.Apart g.piece := by
    intro g hg
    apply pkt.tiles.ordered.apart hseg.piece_mem (hsegs g hg)
    intro heq
    exact hnew ((hmem _).mpr (heq ▸ List.mem_map_of_mem hg))
  have hpacket : (arrived s seg).skb.key = (found.1.frag_hash found.2).key ∧
      (arrived s seg).skb.net = pkt.net ∧ (arrived s seg).skb.tot_len = pkt.data.length := by
    obtain ⟨-, -, -, -, hkey⟩ := hi
    rw [hsame]
    exact ⟨hown.2.trans hkey.symm, hown.1, hseg.tot_len⟩
  obtain ⟨segs', chain, hperm, hentry', hchain, hcase⟩ :=
    @storeSegment_holds env found.1 found.2 (arrived s seg) (clock fragHashSegs) copy _ _ segs
      (hsame ▸ hentry) (hsame ▸ hi.ne_nil) rfl hpart hpacket (fun x hx => hlt found.2 x hx) hapart
  have hsub : ∀ g ∈ segs', g.piece ∈ pkt.cut := by
    intro g hg
    rcases List.mem_cons.mp (hperm.mem_iff.mp hg) with rfl | hg
    · exact hseg.piece_mem
    · exact hsegs g hg
  have hsub' : ∀ p ∈ segs'.map Segment.piece, p ∈ pkt.cut := by simpa using hsub
  have hmem' : ∀ p, p ∈ seg.piece :: got ↔ p ∈ segs'.map Segment.piece := by
    intro p
    rw [(hperm.map Segment.piece).mem_iff, List.map_cons, List.mem_cons, List.mem_cons, hmem]
    rfl
  have hall : (contents (segs'.map Segment.piece)).length = pkt.data.length ↔
      ∀ q ∈ pkt.cut, q ∈ seg.piece :: got := by
    rw [pkt.length_eq_iff hentry'.holds.ordered_segs hsub']
    exact forall₂_congr fun q _ => (hmem' q).symm
  have hback : ∀ j, pkt.HeldAt (storeSegment env found.1 found.2 (arrived s seg)
      (clock fragHashSegs) copy).1 j → j = found.2 := by
    intro j hj
    by_contra hne
    rw [CutPacket.HeldAt, storeSegment_other hne] at hj
    exact hne (hunique j (CutPacket.HeldAt.of_freed hfreed hj))
  rcases hcase with ⟨htiles, hhash, skbs, hout, hdata, -⟩ | ⟨hlen, hhash, hout⟩
  · have hcomplete := hall.mp (by simpa using htiles.length)
    rw [collect, if_neg hnew, if_pos hcomplete, hout]
    refine ⟨⟨hinv, ?_, fun _ j hj => ?_, fun hne => absurd rfl hne⟩, ?_⟩
    · exact ⟨seg.piece, hseg.piece_mem, by simp⟩
    · have hne := hj.ne_nil
      obtain rfl := hback j hj
      rw [hhash, Function.update_self] at hne
      exact hne rfl
    · rw [Option.map_some, hdata, pkt.contents_eq htiles hsub']
  · have hmissing := mt hall.mpr hlen
    rw [collect, if_neg hnew, if_neg hmissing, hout]
    refine ⟨⟨hinv, ?_, fun hnil => absurd hnil (by simp),
      fun _ => ⟨found.2, ?_, hback, hprobe, segs', ?_, hsub, hmem'⟩⟩, rfl⟩
    · push Not at hmissing
      exact hmissing
    · obtain ⟨head, rest, rfl⟩ := List.exists_cons_of_ne_nil hchain
      obtain ⟨-, -, -, -, hkey⟩ := hi
      refine ⟨head, rest, ?_, ?_, ?_⟩
      · rw [hhash, Function.update_self]
      · exact hentry'.same_net head (List.mem_cons_self ..)
      · rw [hhash, Function.update_self, hsame]
        exact hkey
    · rw [hhash, Function.update_self]
      exact hentry'

/-- **The table does what the receiver has to do**, for each segment of the packet. -/
theorem Collecting.own (h : Collecting env pkt got s) (hown : pkt.Own seg)
    (hseg : pkt.IsSegment seg) (hkept : EntryKept env pkt s (.segment seg clock copy)) :
    Collecting env pkt (collect pkt got seg.piece).1 (reassemble env s seg clock copy).1 ∧
      (reassemble env s seg clock copy).2.map (fun skbs => skbs.flatMap fun x => x.skb.data) =
        (collect pkt got seg.piece).2 := by
  by_cases hpart : seg.IsPart
  case neg => exact h.whole hseg hpart
  case pos =>
    by_cases hmem : seg.piece ∈ got
    case pos =>
      obtain ⟨hkeep, hout⟩ := h.again hown hpart hkept hmem
      rw [collect, if_pos hmem, hout]
      exact ⟨hkeep, rfl⟩
    case neg =>
      by_cases hgot : got = []
      case pos =>
        subst hgot
        exact h.start hown hseg hpart
      case neg => exact h.join hgot hown hseg hpart hkept hmem

end

/-! ### Runs -/

/-- The piece that an event brings, if it is one of the packet. -/
def SttEvent.ownPiece (pkt : CutPacket) : SttEvent → Option (Piece UInt8)
  | .segment seg _ _ => if pkt.Own seg then some seg.piece else none
  | .clean _ _ => none

/-- What is handed on for each segment of the packet. -/
def ownOutputs (env : SttEnv) (pkt : CutPacket) :
    SttPercpu → List SttEvent → List (Option (List UInt8))
  | _, [] => []
  | s, e :: es =>
      let out := (sttStep env s e).2.map fun skbs => skbs.flatMap fun x => x.skb.data
      let outs := ownOutputs env pkt (sttStep env s e).1 es
      if (e.ownPiece pkt).isSome then out :: outs else outs

/-- A step of a cpu. -/
def sttCpuStep (env : SttEnv) (s : SttPercpu) (e : SttEvent) :
    Except Empty (Option (List FragSkb) × SttPercpu) :=
  .ok ((sttStep env s e).2, (sttStep env s e).1)

/-- In every run the table answers as `collect` does. -/
theorem ownOutputs_eq_collectAll {env : SttEnv} {pkt : CutPacket} {got : List (Piece UInt8)}
    {s : SttPercpu} {es : List SttEvent} (h : Collecting env pkt got s)
    (hsegs : ∀ seg clock copy, SttEvent.segment seg clock copy ∈ es → pkt.Own seg →
      pkt.IsSegment seg)
    (hkept : RunMeets (sttCpuStep env) (EntryKept env pkt) s es) :
    ownOutputs env pkt s es = collectAll pkt got (es.filterMap (SttEvent.ownPiece pkt)) := by
  induction es generalizing got s with
  | nil => rfl
  | cons e es ih =>
      obtain ⟨hkept, hrest⟩ := hkept
      have hsegs' := fun seg clock copy hmem =>
        hsegs seg clock copy (List.mem_cons_of_mem e hmem)
      have hrest' := hrest _ _ rfl
      cases e with
      | clean j jiffies =>
          have hfreed := cleanFrag_freed env s j jiffies
          have h' : Collecting env pkt got (sttStep env s (.clean j jiffies)).1 :=
            h.congr (hfreed.inv h.inv) hkept fun i hi => hi.of_freed hfreed
          rw [List.filterMap_cons_none rfl]
          exact ih h' hsegs' hrest'
      | segment seg clock copy =>
          by_cases hown : pkt.Own seg
          case pos =>
            obtain ⟨h', hout⟩ := h.own hown (hsegs seg clock copy (List.mem_cons_self ..) hown) hkept
            have hpiece : SttEvent.ownPiece pkt (.segment seg clock copy) = some seg.piece :=
              if_pos hown
            rw [List.filterMap_cons_some hpiece, collectAll, ← hout, ← ih h' hsegs' hrest']
            simp only [ownOutputs, hpiece]
            rfl
          case neg =>
            have h' := h.foreign hown hkept
            have hpiece : SttEvent.ownPiece pkt (.segment seg clock copy) = none := if_neg hown
            rw [List.filterMap_cons_none hpiece, ← ih h' hsegs' hrest']
            simp only [ownOutputs, hpiece]
            rfl

/-- **Every packet is delivered**, whatever the order of its segments, with duplicates and with other
packets in between: once, when the last missing segment arrives, and with its own bytes. All other
segments are answered with nothing. What arrives again after that must not be the whole packet. -/
theorem reassemble_anyOrder (env : SttEnv) (pkt : CutPacket) (s : SttPercpu) (hs : SttInv s)
    (hnew : ∀ i, ¬ pkt.HeldAt s i) (es : List SttEvent)
    (hsegs : ∀ seg clock copy, SttEvent.segment seg clock copy ∈ es → pkt.Own seg →
      pkt.IsSegment seg)
    (hkept : RunMeets (sttCpuStep env) (EntryKept env pkt) s es)
    (pre post : List (Piece UInt8)) (last : Piece UInt8)
    (hes : es.filterMap (SttEvent.ownPiece pkt) = pre ++ last :: post)
    (hmissing : ∃ q ∈ pkt.cut, q ∉ pre) (hall : ∀ q ∈ pkt.cut, q ∈ last :: pre)
    (honce : ∃ q ∈ pkt.cut, q ∉ post) :
    ownOutputs env pkt s es =
      List.replicate pre.length none ++ some pkt.data :: List.replicate post.length none := by
  obtain ⟨q, hq, hpre⟩ := hmissing
  obtain ⟨r, hr, hpost⟩ := honce
  have h : Collecting env pkt [] s :=
    ⟨hs, ⟨q, hq, by simp⟩, fun _ => hnew, fun hne => absurd rfl hne⟩
  rw [ownOutputs_eq_collectAll h hsegs hkept, hes]
  exact collectAll_once hq hpre hall hr hpost

/-! ### A packet of two bytes -/

/-- Two bytes, one in each segment. -/
def twoHalves : CutPacket where
  net := 0
  key := ⟨0, 0, 0, 0⟩
  data := [1, 2]
  cut := [⟨0, [1]⟩, ⟨1, [2]⟩]
  length_lt := by decide
  tiles := by decide
  full := by simp [Piece.Full]
  data_eq := rfl

/-- Both halves, twice. -/
def twiceEvents : List SttEvent :=
  [segmentEvent 0x20001 [2], segmentEvent 0x20000 [1], segmentEvent 0x20001 [2],
    segmentEvent 0x20000 [1]]

theorem twiceEvents_isSegment : ∀ seg clock copy, SttEvent.segment seg clock copy ∈ twiceEvents →
    twoHalves.Own seg → twoHalves.IsSegment seg := by
  intro seg clock copy hmem _
  have hseg : seg = segmentOf 0x20001 [2] ∨ seg = segmentOf 0x20000 [1] := by
    simp only [twiceEvents, segmentEvent, List.mem_cons, SttEvent.segment.injEq] at hmem
    grind
  rcases hseg with rfl | rfl
  · exact ⟨⟨1, [2]⟩, by decide, rfl, rfl⟩
  · exact ⟨⟨0, [1]⟩, by decide, rfl, rfl⟩

/-- Nothing can be evicted from a table without entries. -/
theorem entryKept_of_lru_nil {env : SttEnv} {pkt : CutPacket} {s : SttPercpu} (hs : SttInv s)
    (hlru : s.frag_lru = []) (seg : Segment) (clock : Nat → BitVec 64) (copy : CopyEnv) :
    EntryKept env pkt s (.segment seg clock copy) := by
  intro i hi
  have hmem := (hs.mem_lru i).mpr hi.ne_nil
  rw [hlru] at hmem
  cases hmem

/-- The only entry of a table is kept if the slot it is in is not touched. -/
theorem entryKept_of_lru_single {env : SttEnv} {pkt : CutPacket} {s : SttPercpu}
    (j : Fin fragHashEntries) (hs : SttInv s) (hlru : s.frag_lru = [j]) {seg : Segment} {clock : Nat → BitVec 64}
    (copy : CopyEnv) (hsame : (lookedUp env s seg clock).1.frag_hash j = s.frag_hash j)
    (hfresh : ∀ n, timeBefore (clock n) ((s.frag_hash j).timestamp + env.frag_exp_time)) :
    EntryKept env pkt s (.segment seg clock copy) := by
  intro i hi _
  have hmem := (hs.mem_lru i).mpr hi.ne_nil
  rw [hlru] at hmem
  obtain rfl := List.mem_singleton.mp hmem
  exact ⟨hsame, fun _ => hfresh⟩

theorem twiceEvents_kept :
    RunMeets (sttCpuStep plainEnv) (EntryKept plainEnv twoHalves) emptyPercpu twiceEvents := by
  have h₀ := emptyPercpu_inv
  have h₁ := sttStep_inv plainEnv h₀ (segmentEvent 0x20001 [2])
  have h₂ := sttStep_inv plainEnv h₁ (segmentEvent 0x20000 [1])
  have h₃ := sttStep_inv plainEnv h₂ (segmentEvent 0x20001 [2])
  refine ⟨entryKept_of_lru_nil h₀ rfl _ _ _, fun _ _ hok => ?_⟩
  cases hok
  refine ⟨entryKept_of_lru_single (hashSlot 0) h₁ (by decide) _ (by decide) (fun _ => by decide),
    fun _ _ hok => ?_⟩
  cases hok
  refine ⟨entryKept_of_lru_nil h₂ (by decide) _ _ _, fun _ _ hok => ?_⟩
  cases hok
  refine ⟨entryKept_of_lru_single (hashSlot 0) h₃ (by decide) _ (by decide) (fun _ => by decide),
    fun _ _ _ => trivial⟩

/-- The second half, the first half, and the second half again: one packet. -/
theorem reassemble_anyOrder_two : ownOutputs plainEnv twoHalves emptyPercpu (twiceEvents.take 3) =
    [none, some [1, 2], none] :=
  reassemble_anyOrder plainEnv twoHalves emptyPercpu emptyPercpu_inv
    (fun _ hi => hi.ne_nil rfl) (twiceEvents.take 3)
    (fun seg clock copy hmem =>
      twiceEvents_isSegment seg clock copy (List.take_subset 3 twiceEvents hmem))
    (RunMeets.of_append (show RunMeets _ _ _ (twiceEvents.take 3 ++ twiceEvents.drop 3) from
      twiceEvents_kept))
    [⟨1, [2]⟩] [⟨1, [2]⟩] ⟨0, [1]⟩ (by decide) ⟨⟨0, [1]⟩, by decide, by decide⟩ (by decide)
    ⟨⟨0, [1]⟩, by decide, by decide⟩

/-- When both halves arrive again after that, the packet is handed on a second time. -/
theorem reassemble_twice : ¬ ∀ es : List SttEvent,
    (∀ seg clock copy, SttEvent.segment seg clock copy ∈ es → twoHalves.Own seg →
      twoHalves.IsSegment seg) →
    RunMeets (sttCpuStep plainEnv) (EntryKept plainEnv twoHalves) emptyPercpu es →
    ∀ pre post last, es.filterMap (SttEvent.ownPiece twoHalves) = pre ++ last :: post →
      (∃ q ∈ twoHalves.cut, q ∉ pre) → (∀ q ∈ twoHalves.cut, q ∈ last :: pre) →
      ownOutputs plainEnv twoHalves emptyPercpu es = List.replicate pre.length none ++
        some twoHalves.data :: List.replicate post.length none := by
  intro hall
  have honce := hall twiceEvents twiceEvents_isSegment twiceEvents_kept [⟨1, [2]⟩]
    [⟨1, [2]⟩, ⟨0, [1]⟩] ⟨0, [1]⟩ (by decide) ⟨⟨0, [1]⟩, by decide, by decide⟩ (by decide)
  exact absurd honce (by decide)

end OvsDatapath.Stt
