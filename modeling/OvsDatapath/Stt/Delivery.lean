import OvsDatapath.Stt.Chains

/-!
# What reassembly hands on

Runs of `reassemble` on one cpu, with `clean_percpu` at any point in between.

* An entry of the table holds segments of one packet, in order (`EntryHolds`), as long as every
  segment that is placed in it announces the length that the first one announced. The code does not
  compare the two, and `sttRun_complete` says what it delivers when they always agree.
* The rest is true of all runs: every skb in the table has its own address, the entries in use are
  those on the LRU list (`SttInv`), and `evict_frags` gets below its limit.
-/

namespace OvsDatapath.Stt

open OvsDatapath.Lib

/-! ### Steps -/

/-- The body of the loop of `clean_percpu`, under the lock. -/
def cleanFrag (env : SttEnv) (s : SttPercpu) (i : Fin fragHashEntries) (jiffies : BitVec 64) :
    SttPercpu :=
  if !(s.frag_hash i).skbs.isEmpty &&
      timeBefore ((s.frag_hash i).timestamp + env.frag_exp_time) jiffies then freeFrag s i
  else s

/-- What can happen to the table of a cpu. -/
inductive SttEvent where
  /-- `reassemble` gets a segment, reads the clock, and may try to join two skbs. -/
  | segment (seg : Segment) (clock : Nat → BitVec 64) (copy : CopyEnv)
  /-- `clean_percpu` looks at an entry. -/
  | clean (i : Fin fragHashEntries) (jiffies : BitVec 64)

/-- The segment of an event. -/
def SttEvent.given : SttEvent → List Segment
  | segment seg _ _ => [seg]
  | clean _ _ => []

/-- One event: the table afterwards and what is handed on. -/
def sttStep (env : SttEnv) (s : SttPercpu) : SttEvent → SttPercpu × Option (List FragSkb)
  | .segment seg clock copy => reassemble env s seg clock copy
  | .clean i jiffies => (cleanFrag env s i jiffies, none)

/-- The table after `stt_init_module`: no entry is in use. -/
def emptyPercpu : SttPercpu := ⟨fun _ => ⟨[], 0, ⟨0, 0, 0, 0⟩⟩, [], 0, 0⟩

/-! ### Entries that go away -/

/-- The addresses in the table are different from those to come, and the LRU list has the entries in
use, once each. -/
structure SttInv (s : SttPercpu) : Prop where
  fresh : ∀ i, ∀ x ∈ (s.frag_hash i).skbs, x.addr < s.fresh
  lru_nodup : s.frag_lru.Nodup
  mem_lru : ∀ i, i ∈ s.frag_lru ↔ (s.frag_hash i).skbs ≠ []

/-- Some entries were freed, and nothing else has changed. -/
structure Freed (s t : SttPercpu) : Prop where
  fresh : t.fresh = s.fresh
  frags : ∀ i, t.frag_hash i = s.frag_hash i ∨ (t.frag_hash i).skbs = []
  inv : SttInv s → SttInv t

theorem Freed.refl (s : SttPercpu) : Freed s s := ⟨rfl, fun _ => Or.inl rfl, id⟩

theorem Freed.trans {s t u : SttPercpu} (h : Freed s t) (h' : Freed t u) : Freed s u where
  fresh := h'.fresh.trans h.fresh
  frags i := by
    rcases h'.frags i with heq | hempty
    · rw [heq]
      exact h.frags i
    · exact Or.inr hempty
  inv hs := h'.inv (h.inv hs)

/-- An entry that is still in use after others were freed. -/
theorem Freed.eq_of_ne_nil {s t : SttPercpu} (h : Freed s t) {i : Fin fragHashEntries}
    (hne : (t.frag_hash i).skbs ≠ []) : t.frag_hash i = s.frag_hash i :=
  (h.frags i).resolve_right hne

theorem freeFrag_freed (s : SttPercpu) (i : Fin fragHashEntries) : Freed s (freeFrag s i) := by
  rw [freeFrag]
  split
  case h_1 => exact Freed.refl s
  case h_2 head rest hskbs =>
    constructor
    case fresh => rfl
    case frags =>
      intro j
      by_cases hj : j = i
      case pos => subst hj; right; simp
      case neg => left; simp [hj]
    case inv =>
      intro hs
      constructor
      case fresh =>
        intro j x hx
        by_cases hj : j = i
        case pos => subst hj; simp at hx
        case neg => exact hs.fresh j x (by simpa [hj] using hx)
      case lru_nodup => exact hs.lru_nodup.erase i
      case mem_lru =>
        intro j
        rw [hs.lru_nodup.mem_erase_iff, hs.mem_lru]
        by_cases hj : j = i
        case pos => subst hj; simp
        case neg => simp [hj]

@[simp] theorem freeFrag_skbs (s : SttPercpu) (i : Fin fragHashEntries) :
    ((freeFrag s i).frag_hash i).skbs = [] := by
  rw [freeFrag]
  split
  case h_1 hskbs => exact hskbs
  case h_2 => simp

theorem evictLoop_freed (n : Nat) (s : SttPercpu) : Freed s (evictLoop n s) := by
  induction n generalizing s with
  | zero => exact Freed.refl s
  | succ n ih =>
      rw [evictLoop]
      split
      · exact Freed.refl s
      · split
        · exact (freeFrag_freed s _).trans (ih _)
        · exact Freed.refl s

/-- The rounds of `evict_frags` are enough: it stops because the list is empty or the limit met. -/
theorem evictFrags_low {s : SttPercpu} (hs : SttInv s) :
    (evictFrags s).frag_lru = [] ∨ (evictFrags s).frag_mem_used ≤ reasmLoThresh := by
  rw [evictFrags]
  generalize hn : s.frag_lru.length = n
  induction n generalizing s with
  | zero => exact Or.inl (List.eq_nil_of_length_eq_zero hn)
  | succ n ih =>
      rw [evictLoop]
      split
      case h_1 hnil => exact Or.inl hnil
      case h_2 i rest hcons =>
        split
        case isTrue =>
          apply ih ((freeFrag_freed s i).inv hs)
          -- a listed entry is in use, so freeing it takes it off the list
          have hused : (s.frag_hash i).skbs ≠ [] := (hs.mem_lru i).mp (by simp [hcons])
          rw [freeFrag]
          split
          · contradiction
          · simpa [hcons] using hn
        case isFalse hlow => exact Or.inr (UInt32.not_lt.mp hlow)

theorem makeRoom_freed (s : SttPercpu) (seg : Segment) : Freed s (makeRoom s seg) := by
  rw [makeRoom]
  split
  · exact evictLoop_freed _ s
  · exact Freed.refl s

theorem cleanFrag_freed (env : SttEnv) (s : SttPercpu) (i : Fin fragHashEntries)
    (jiffies : BitVec 64) : Freed s (cleanFrag env s i jiffies) := by
  rw [cleanFrag]
  split
  · exact freeFrag_freed s i
  · exact Freed.refl s

/-! ### Looking an entry up -/

section
variable {env : SttEnv} {s : SttPercpu} {net : Nat} {key : PktKey} {clock : Nat → BitVec 64}

theorem lookupLoop_found {n : Nat} {hash : BitVec 32} {victim : Option (Fin fragHashEntries)}
    {i : Fin fragHashEntries} (h : lookupLoop env s net key clock n hash victim = .inl i) :
    ∃ jiffies, fragUsable env net key jiffies (s.frag_hash i) := by
  induction n generalizing hash victim with
  | zero => cases h
  | succ n ih =>
      rw [lookupLoop] at h
      split at h
      case isTrue husable =>
        cases h
        exact ⟨clock n, husable⟩
      case isFalse => exact ih h

theorem lookupFrag_freed (hash : BitVec 32) : Freed s (lookupFrag env s net key hash clock).1 := by
  rw [lookupFrag]
  split
  · exact Freed.refl s
  · dsimp only
    split
    · exact Freed.refl s
    · exact freeFrag_freed s _

/-- `lookup_frag` finds an entry of the key or makes one free. -/
theorem lookupFrag_cases (hash : BitVec 32) {t : SttPercpu} {i : Fin fragHashEntries}
    (h : lookupFrag env s net key hash clock = (t, i)) :
    (t = s ∧ ∃ jiffies, fragUsable env net key jiffies (s.frag_hash i)) ∨
      (t.frag_hash i).skbs = [] := by
  rw [lookupFrag] at h
  split at h
  case h_1 j hfound =>
    cases h
    exact Or.inl ⟨rfl, lookupLoop_found hfound⟩
  case h_2 victim _ =>
    obtain ⟨rfl, rfl⟩ := Prod.mk.inj h
    right
    split
    case isTrue hempty => simpa using hempty
    case isFalse => exact freeFrag_skbs s _

/-- What makes an entry usable. -/
theorem fragUsable_iff {jiffies : BitVec 64} {frag : PktFrag} :
    fragUsable env net key jiffies frag ↔ ∃ head rest, frag.skbs = head :: rest ∧
      timeBefore jiffies (frag.timestamp + env.frag_exp_time) ∧ frag.key = key ∧
      head.skb.net = net := by
  cases hskbs : frag.skbs with
  | nil => simp [fragUsable, hskbs]
  | cons head rest => simp [fragUsable, pktKeyMatch, hskbs, and_assoc]

end

/-! ### Every run keeps the table in order -/

/-- The skb for a segment that comes in. -/
def arrived (s : SttPercpu) (seg : Segment) : FragSkb := ⟨s.fresh, seg, seg.offset, seg.cb⟩

/-- The segment passes the first checks, and is only a part of its packet. -/
def Segment.IsPart (seg : Segment) : Prop :=
  seg.data ≠ [] ∧ seg.piece.stop ≤ seg.tot_len ∧ seg.tot_len ≠ seg.data.length

/-- The table in which the entry of a segment has been looked up, and the slot of the entry. -/
def lookedUp (env : SttEnv) (s : SttPercpu) (seg : Segment) (clock : Nat → BitVec 64) :
    SttPercpu × Fin fragHashEntries :=
  lookupFrag env (makeRoom { s with fresh := s.fresh + 1 } seg) seg.net seg.key
    (env.pkt_key_hash seg.net seg.key) clock

section
variable {env : SttEnv} {s : SttPercpu} {seg : Segment} {clock : Nat → BitVec 64} {copy : CopyEnv}

theorem reassemble_of_isPart (h : seg.IsPart) : reassemble env s seg clock copy =
    storeSegment env (lookedUp env s seg clock).1 (lookedUp env s seg clock).2 (arrived s seg)
      (clock fragHashSegs) copy := by
  obtain ⟨hne, hstop, htot⟩ := h
  have hlen : seg.data.length ≠ 0 := by simpa using hne
  have hfits : ¬ seg.tot_len < seg.offset + seg.data.length := Nat.not_lt.mpr hstop
  simp only [reassemble, if_neg hlen, if_neg hfits, if_neg htot]
  rfl

/-- A segment that is dropped at once, or is a whole packet. -/
theorem reassemble_of_not_isPart (h : ¬ seg.IsPart) :
    (reassemble env s seg clock copy).1 = { s with fresh := s.fresh + 1 } ∧
      ((reassemble env s seg clock copy).2 = none ∨
        (reassemble env s seg clock copy).2 = some [arrived s seg] ∧
          Tiles 0 seg.tot_len [seg.piece]) := by
  have hstop : seg.piece.stop = seg.offset + seg.data.length := rfl
  rw [Segment.IsPart, hstop] at h
  simp only [reassemble]
  split
  case isTrue => exact ⟨rfl, Or.inl rfl⟩
  case isFalse hlen =>
    split
    case isTrue => exact ⟨rfl, Or.inl rfl⟩
    case isFalse hfits =>
      have hne : seg.data ≠ [] := by simpa using hlen
      have htot : seg.tot_len = seg.data.length := by
        by_contra htot
        exact h ⟨hne, Nat.not_lt.mp hfits, htot⟩
      rw [if_pos htot]
      refine ⟨rfl, Or.inr ⟨rfl, ?_, ?_⟩⟩
      · show seg.offset = 0
        omega
      · show seg.offset + seg.data.length = seg.tot_len
        omega

theorem lookedUp_freed : Freed { s with fresh := s.fresh + 1 } (lookedUp env s seg clock).1 :=
  (makeRoom_freed _ seg).trans (lookupFrag_freed _)

/-- An entry that is found is one of the packet of the segment. -/
theorem lookedUp_match {head : FragSkb}
    (hhead : head ∈ ((lookedUp env s seg clock).1.frag_hash (lookedUp env s seg clock).2).skbs.head?) :
    seg.key = ((lookedUp env s seg clock).1.frag_hash (lookedUp env s seg clock).2).key ∧
      head.skb.net = seg.net := by
  rcases lookupFrag_cases (t := (lookedUp env s seg clock).1) (i := (lookedUp env s seg clock).2) _ rfl
    with ⟨hsame, jiffies, husable⟩ | hempty
  · rw [← hsame] at husable
    obtain ⟨head', rest, hskbs, -, hkey, hnet⟩ := fragUsable_iff.mp husable
    rw [hskbs] at hhead
    obtain rfl := Option.some.inj hhead
    exact ⟨hkey.symm, hnet⟩
  · rw [hempty] at hhead
    cases hhead

theorem SttInv.incr (h : SttInv s) : SttInv { s with fresh := s.fresh + 1 } :=
  ⟨fun i x hx => Nat.lt_succ_of_lt (h.fresh i x hx), h.lru_nodup, h.mem_lru⟩

/-- The skbs in the table came in before. -/
theorem lookedUp_addr_lt (h : SttInv s) {i : Fin fragHashEntries} {x : FragSkb}
    (hx : x ∈ ((lookedUp env s seg clock).1.frag_hash i).skbs) : x.addr < s.fresh := by
  rw [lookedUp_freed.eq_of_ne_nil (List.ne_nil_of_mem hx)] at hx
  exact h.fresh i x hx

end

/-- What an entry in use turns into when its chain becomes `chain`. -/
theorem SttInv.setChain {s t : SttPercpu} (h : SttInv s) (i : Fin fragHashEntries)
    (frag : PktFrag) (hfresh : ∀ x ∈ frag.skbs, x.addr < s.fresh)
    (hfrags : t.frag_hash = Function.update s.frag_hash i frag) (hsame : t.fresh = s.fresh)
    (hlru : if frag.skbs = [] then t.frag_lru = s.frag_lru.erase i
      else t.frag_lru = s.frag_lru.erase i ++ [i]) : SttInv t := by
  have herase : ∀ j, j ∈ s.frag_lru.erase i ↔ j ≠ i ∧ (s.frag_hash j).skbs ≠ [] := by
    intro j
    rw [h.lru_nodup.mem_erase_iff, h.mem_lru]
  constructor
  case fresh =>
    intro j x hx
    rw [hsame]
    rw [hfrags] at hx
    by_cases hj : j = i
    case pos => subst hj; exact hfresh x (by simpa using hx)
    case neg => exact h.fresh j x (by simpa [hj] using hx)
  case lru_nodup =>
    have hnodup := h.lru_nodup.erase i
    split at hlru
    case isTrue => rwa [hlru]
    case isFalse =>
      rw [hlru, List.nodup_append]
      refine ⟨hnodup, by simp, ?_⟩
      intro j hj k hk heq
      exact ((herase j).mp hj).1 (heq.trans (List.mem_singleton.mp hk))
  case mem_lru =>
    intro j
    rw [hfrags]
    split at hlru
    case isTrue hnil =>
      rw [hlru, herase]
      by_cases hj : j = i
      case pos => subst hj; simp [hnil]
      case neg => simp [hj]
    case isFalse hne =>
      rw [hlru, List.mem_append, herase, List.mem_singleton]
      by_cases hj : j = i
      case pos => subst hj; simp [hne]
      case neg => simp [hj]

/-- Storing a segment keeps the table in order. -/
theorem storeSegment_inv {env : SttEnv} {s : SttPercpu} {i : Fin fragHashEntries} {skb : FragSkb}
    {jiffies : BitVec 64} {copy : CopyEnv} (h : SttInv s) (hskb : skb.addr < s.fresh) :
    SttInv (storeSegment env s i skb jiffies copy).1 := by
  rw [storeSegment]
  split
  case h_1 hnil =>
    have hnot : i ∉ s.frag_lru := fun hmem => (h.mem_lru i).mp hmem hnil
    refine h.setChain i _ ?_ rfl rfl ?_
    · simpa using hskb
    · rw [if_neg (by simp), List.erase_of_not_mem hnot]
      rfl
  case h_2 head rest hskbs =>
    split
    case h_1 => exact h
    case h_2 chain delta hplace =>
      have hchain : ∀ f, ∀ x ∈ updateFirst f chain, x.addr < s.fresh := by
        intro f x hx
        obtain ⟨y, hy, haddr, -⟩ := mem_updateFirst hx
        obtain ⟨z, hz, haddr', -⟩ := placeSkb_origin hplace hy
        rw [haddr, haddr']
        rcases List.mem_cons.mp hz with rfl | hz
        · exact hskb
        · exact h.fresh i z (hskbs ▸ hz)
      rw [finishFrag]
      split
      case h_1 => exact h
      case h_2 head' rest' hcount =>
        split
        case isTrue =>
          exact h.setChain i { s.frag_hash i with skbs := [] } (by simp) rfl rfl rfl
        case isFalse =>
          exact h.setChain i { s.frag_hash i with skbs := head' :: rest' } (hcount ▸ hchain _) rfl rfl
            rfl

/-- **Every event keeps the table in order**, whatever the segments are. -/
theorem sttStep_inv (env : SttEnv) {s : SttPercpu} (h : SttInv s) (e : SttEvent) :
    SttInv (sttStep env s e).1 := by
  cases e with
  | clean i jiffies => exact (cleanFrag_freed env s i jiffies).inv h
  | segment seg clock copy =>
      by_cases hpart : seg.IsPart
      case pos =>
        rw [sttStep, reassemble_of_isPart hpart]
        apply storeSegment_inv (lookedUp_freed.inv h.incr)
        rw [lookedUp_freed.fresh]
        exact Nat.lt_succ_self _
      case neg =>
        rw [sttStep, (reassemble_of_not_isPart hpart).1]
        exact h.incr

theorem emptyPercpu_inv : SttInv emptyPercpu := by
  constructor <;> simp [emptyPercpu]

/-! ### Entries that hold one packet -/

/-- The entry holds exactly the segments `segs`, all of one packet of length `tot`. -/
structure EntryHolds (frag : PktFrag) (net tot : Nat) (segs : List Segment) : Prop where
  holds : ChainHolds tot frag.skbs segs
  last : LastIs frag.skbs
  counted : ∀ head ∈ frag.skbs.head?, head.first.tot_len = tot ∧
    head.first.rcvd_len = (contents (frag.skbs.map FragSkb.piece)).length
  same_net : ∀ x ∈ frag.skbs, x.skb.net = net
  of_packet : ∀ seg ∈ segs, seg.key = frag.key ∧ seg.net = net ∧ seg.tot_len = tot
  small : tot < 2 ^ 16

theorem Segment.tot_len_lt (seg : Segment) : seg.tot_len < 2 ^ 16 := by
  have hlt := seg.seq.isLt
  simp only [Segment.tot_len, sttSeqLenShift, BitVec.toNat_ushiftRight, Nat.shiftRight_eq_div_pow]
  omega

/-- The entry that a segment starts. -/
theorem EntryHolds.start {skb : FragSkb} (hpiece : skb.piece = skb.skb.piece)
    (hpart : skb.skb.IsPart) (jiffies : BitVec 64) (first : FirstFrag) :
    EntryHolds ⟨[{ skb with first := { first with
      last_skb := skb.addr, tot_len := skb.skb.tot_len, rcvd_len := skb.skb.data.length } }],
        jiffies, skb.skb.key⟩ skb.skb.net skb.skb.tot_len [skb.skb] := by
  obtain ⟨hne, hstop, -⟩ := hpart
  rw [← hpiece] at hstop
  have hfull : skb.piece.Full := by rwa [hpiece]
  constructor
  case holds => exact ChainHolds.single hpiece hfull hstop
  case last => rfl
  case counted =>
    intro head hhead
    obtain rfl := Option.some.inj hhead
    exact ⟨rfl, by simp [FragSkb.piece]⟩
  case same_net => simp
  case of_packet => simp
  case small => exact skb.skb.tot_len_lt

/-- The entry after one more segment was placed in it and counted. -/
theorem EntryHolds.place {env : SttEnv} {copy : CopyEnv} {frag : PktFrag} {net tot : Nat}
    {segs : List Segment} {head skb : FragSkb} {rest chain : List FragSkb} {delta : UInt32}
    (h : EntryHolds frag net tot segs) (hskbs : frag.skbs = head :: rest)
    (hpiece : skb.piece = skb.skb.piece) (hpart : skb.skb.IsPart)
    (hsame : skb.skb.key = frag.key ∧ skb.skb.net = net ∧ skb.skb.tot_len = tot)
    (hfresh : ∀ x ∈ frag.skbs, x.addr < skb.addr)
    (hplace : placeSkb env copy head rest skb = some (chain, delta)) :
    ∃ segs', segs'.Perm (skb.skb :: segs) ∧
      EntryHolds { frag with skbs := updateFirst (countSegment skb.skb delta) chain } net tot
        segs' := by
  obtain ⟨hne, hstop, -⟩ := hpart
  rw [← hpiece, hsame.2.2] at hstop
  have hholds := h.holds
  have hlast := h.last
  rw [hskbs] at hholds hlast hfresh
  have hplaced := placeSkb_placed hholds hlast hpiece (by rwa [hpiece]) hstop
    (fun x hx => Nat.ne_of_lt (hfresh x hx)) hplace
  obtain ⟨segs', hperm, hholds'⟩ := hplaced.holds
  refine ⟨segs', hperm, hholds'.updateFirst _, hplaced.last.updateFirst fun _ => rfl, ?_, ?_, ?_,
    h.small⟩
  · -- the count
    obtain ⟨head', hhead', htot, hrcvd⟩ := hplaced.first
    obtain ⟨htot₀, hrcvd₀⟩ := h.counted head (by simp [hskbs])
    have hlen := h.holds.placed_length hperm hholds'
    have hle := hholds'.ordered.length_le
    intro counted hcounted
    dsimp only at hcounted ⊢
    rw [map_piece_updateFirst]
    obtain ⟨tail, rfl⟩ : ∃ tail, chain = head' :: tail := List.head?_eq_some_iff.mp hhead'
    obtain rfl := Option.some.inj hcounted
    refine ⟨htot.trans htot₀, ?_⟩
    have hsmall := h.small
    show (head'.first.rcvd_len + skb.skb.data.length) % 2 ^ 16 = _
    rw [hrcvd, hrcvd₀, ← hlen]
    exact Nat.mod_eq_of_lt (by omega)
  · intro x hx
    obtain ⟨y, hy, -, hnet⟩ := mem_updateFirst hx
    obtain ⟨z, hz, -, hnet'⟩ := placeSkb_origin hplace hy
    rw [hnet, hnet']
    rcases List.mem_cons.mp hz with rfl | hz
    · exact hsame.2.1
    · exact h.same_net z (hskbs ▸ hz)
  · intro seg hseg
    rcases List.mem_cons.mp (hperm.mem_iff.mp hseg) with rfl | hseg
    · exact hsame
    · exact h.of_packet seg hseg

/-- `coalesce_skb` makes one skb with these data of the chain, if memory allows. -/
def CoalescesTo (skbs : List FragSkb) (data : List UInt8) : Prop :=
  ∀ headlen expand, (∀ head ∈ skbs.head?, headlen ≤ head.skb.data.length) →
    ∃ result, coalesceSkb headlen expand skbs = .ok result ∧ (expand → result ≠ none) ∧
      ∀ x ∈ result, x.skb.data = data

/-- What was handed on is a whole packet: its data are the data of segments of one packet, as many
as it takes to cover the announced length without gap and without overlap. -/
def CompleteDelivery (given : List Segment) (skbs : List FragSkb) : Prop :=
  ∃ (key : PktKey) (net tot : Nat) (segs : List Segment),
    (∀ seg ∈ segs, seg ∈ given ∧ seg.key = key ∧ seg.net = net ∧ seg.tot_len = tot) ∧
    Tiles 0 tot (segs.map Segment.piece) ∧
    skbs.flatMap (fun x => x.skb.data) = contents (segs.map Segment.piece) ∧
    CoalescesTo skbs (contents (segs.map Segment.piece))

/-- One skb is left as it is. -/
theorem coalescesTo_single (x : FragSkb) : CoalescesTo [x] x.skb.data := by
  intro headlen expand _
  exact ⟨some x, rfl, fun _ => Option.some_ne_none x, fun y hy => Option.some.inj hy ▸ rfl⟩

/-- A chain whose first skb knows the length of its data has room for them. -/
theorem coalescesTo_chain {head : FragSkb} {rest : List FragSkb}
    (htot : head.first.tot_len = ((head :: rest).flatMap fun x => x.skb.data).length) :
    CoalescesTo (head :: rest) ((head :: rest).flatMap fun x => x.skb.data) := by
  intro headlen expand hheadlen
  have hle : headlen ≤ head.skb.data.length := hheadlen head rfl
  cases rest with
  | nil => exact ⟨some head, rfl, fun _ => Option.some_ne_none head, by simp⟩
  | cons next rest =>
      rw [List.flatMap_cons, List.length_append] at htot
      have hroom : ¬ head.first.tot_len - headlen < head.skb.data.length - headlen +
          ((next :: rest).flatMap fun frag => frag.skb.data).length := by
        omega
      simp only [coalesceSkb, if_neg hroom]
      cases expand with
      | false => exact ⟨none, rfl, fun h => (by cases h), by simp⟩
      | true => exact ⟨some _, rfl, fun _ => Option.some_ne_none _, by simp⟩

/-- **Counting is enough** to see that the packet is complete. -/
theorem EntryHolds.tiles {frag : PktFrag} {net tot : Nat} {segs : List Segment}
    (h : EntryHolds frag net tot segs) {head : FragSkb} (hhead : head ∈ frag.skbs.head?)
    (hcount : head.first.tot_len = head.first.rcvd_len) : Tiles 0 tot (segs.map Segment.piece) := by
  obtain ⟨htot, hrcvd⟩ := h.counted head hhead
  apply h.holds.ordered_segs.tiles
  rw [← h.holds.contents_eq, Nat.zero_add]
  omega

theorem flatMap_data (skbs : List FragSkb) :
    skbs.flatMap (fun x => x.skb.data) = contents (skbs.map FragSkb.piece) := by
  induction skbs with
  | nil => rfl
  | cons x skbs ih => simp [FragSkb.piece, ih]

/-- `finishFrag` hands on the chain it was given, or keeps it. -/
theorem finishFrag_cases {s : SttPercpu} {i : Fin fragHashEntries} {chain : List FragSkb}
    {delta : UInt32} {seg : Segment} (hchain : chain ≠ []) :
    ∃ head rest, updateFirst (countSegment seg delta) chain = head :: rest ∧
      ((head.first.tot_len = head.first.rcvd_len ∧
          (finishFrag s i chain delta seg).1.frag_hash =
            Function.update s.frag_hash i { s.frag_hash i with skbs := [] } ∧
          (finishFrag s i chain delta seg).2 = some (finishHead seg head :: rest)) ∨
        (head.first.tot_len ≠ head.first.rcvd_len ∧
          (finishFrag s i chain delta seg).1.frag_hash =
            Function.update s.frag_hash i { s.frag_hash i with skbs := head :: rest } ∧
          (finishFrag s i chain delta seg).2 = none)) := by
  obtain ⟨head, rest, rfl⟩ := List.exists_cons_of_ne_nil hchain
  refine ⟨_, _, rfl, ?_⟩
  simp only [finishFrag, updateFirst]
  split
  case isTrue hcount => exact Or.inl ⟨hcount, rfl, rfl⟩
  case isFalse hcount => exact Or.inr ⟨hcount, rfl, rfl⟩

section
variable {env : SttEnv} {s : SttPercpu} {i : Fin fragHashEntries} {skb : FragSkb}
variable {jiffies : BitVec 64} {copy : CopyEnv} {net tot : Nat} {segs : List Segment}

/-- A segment that overlaps what an entry holds is dropped, whatever it announces. -/
theorem storeSegment_overlap (h : EntryHolds (s.frag_hash i) net tot segs)
    (hne : (s.frag_hash i).skbs ≠ []) (hpiece : skb.piece = skb.skb.piece) (hfull : skb.piece.Full)
    (hfresh : ∀ x ∈ (s.frag_hash i).skbs, x.addr < skb.addr)
    (hover : ¬ ∀ seg ∈ segs, skb.skb.piece.Apart seg.piece) :
    storeSegment env s i skb jiffies copy = (s, none) := by
  obtain ⟨head, rest, hskbs⟩ := List.exists_cons_of_ne_nil hne
  cases hplace : placeSkb env copy head rest skb with
  | none => simp only [storeSegment, hskbs, hplace]
  | some placed =>
      exact absurd (placeSkb_apart (hskbs ▸ h.holds) (hskbs ▸ h.last) hpiece hfull
        (fun x hx => Nat.ne_of_lt (hfresh x (hskbs ▸ hx))) hplace) hover

/-- A segment of the packet that an entry holds completes the packet, and it is handed on, or is kept
with the others. -/
theorem storeSegment_holds (h : EntryHolds (s.frag_hash i) net tot segs)
    (hne : (s.frag_hash i).skbs ≠ []) (hpiece : skb.piece = skb.skb.piece) (hpart : skb.skb.IsPart)
    (hsame : skb.skb.key = (s.frag_hash i).key ∧ skb.skb.net = net ∧ skb.skb.tot_len = tot)
    (hfresh : ∀ x ∈ (s.frag_hash i).skbs, x.addr < skb.addr)
    (hapart : ∀ seg ∈ segs, skb.skb.piece.Apart seg.piece) :
    ∃ segs' chain, segs'.Perm (skb.skb :: segs) ∧
      EntryHolds { s.frag_hash i with skbs := chain } net tot segs' ∧ chain ≠ [] ∧
      ((Tiles 0 tot (segs'.map Segment.piece) ∧
          (storeSegment env s i skb jiffies copy).1.frag_hash =
            Function.update s.frag_hash i { s.frag_hash i with skbs := [] } ∧
          ∃ skbs, (storeSegment env s i skb jiffies copy).2 = some skbs ∧
            skbs.flatMap (fun x => x.skb.data) = contents (segs'.map Segment.piece) ∧
            CoalescesTo skbs (contents (segs'.map Segment.piece))) ∨
        ((contents (segs'.map Segment.piece)).length ≠ tot ∧
          (storeSegment env s i skb jiffies copy).1.frag_hash =
            Function.update s.frag_hash i { s.frag_hash i with skbs := chain } ∧
          (storeSegment env s i skb jiffies copy).2 = none)) := by
  obtain ⟨head, rest, hskbs⟩ := List.exists_cons_of_ne_nil hne
  have hfull : skb.piece.Full := by
    rw [hpiece]
    exact hpart.1
  have hholds := hskbs ▸ h.holds
  have hlast := hskbs ▸ h.last
  obtain ⟨⟨chain, delta⟩, hplace⟩ : ∃ placed, placeSkb env copy head rest skb = some placed :=
    placeSkb_isSome hholds hlast (hholds.apart hfull (hpiece ▸ hapart)) hfull
  -- the segment has a place, so that it is not dropped
  have hstore : storeSegment env s i skb jiffies copy = finishFrag s i chain delta skb.skb := by
    simp only [storeSegment, hskbs, hplace]
  rw [hstore]
  obtain ⟨segs', hperm, hentry⟩ := h.place hskbs hpiece hpart hsame hfresh hplace
  have hchain : chain ≠ [] := by
    rintro rfl
    have hlen := hperm.length_eq
    obtain ⟨groups, rfl, hmerged⟩ := hentry.holds.merged
    cases hmerged
    cases hlen
  obtain ⟨head', rest', hcounted, hfinish⟩ :=
    @finishFrag_cases s i chain delta skb.skb hchain
  rw [hcounted] at hentry
  refine ⟨segs', head' :: rest', hperm, hentry, List.cons_ne_nil _ _, ?_⟩
  -- whether the entry has all bytes of the packet now
  rcases hfinish with ⟨hcount, hhash, hout⟩ | ⟨hcount, hhash, hout⟩
  · have hdata : (finishHead skb.skb head' :: rest').flatMap (fun x => x.skb.data) =
        contents (segs'.map Segment.piece) := by
      rw [← hentry.holds.contents_eq, ← flatMap_data]
      rfl
    refine Or.inl ⟨hentry.tiles rfl hcount, hhash, _, hout, hdata, ?_⟩
    rw [← hdata]
    apply coalescesTo_chain
    rw [hdata, ← hentry.holds.contents_eq]
    exact hcount.trans (hentry.counted head' rfl).2
  · refine Or.inr ⟨?_, hhash, hout⟩
    obtain ⟨htot, hrcvd⟩ := hentry.counted head' rfl
    rw [← hentry.holds.contents_eq, ← hrcvd, ← htot]
    exact hcount.symm

end

/-! ### Runs -/

/-- The table of a cpu and all segments that were given to it. -/
structure SttRun where
  cpu : SttPercpu
  given : List Segment

/-- One event of a run. -/
def sttRunStep (env : SttEnv) (r : SttRun) (e : SttEvent) :
    Except Empty (Option (List FragSkb) × SttRun) :=
  .ok ((sttStep env r.cpu e).2, ⟨(sttStep env r.cpu e).1, r.given ++ e.given⟩)

/-- A cpu that has not been given any segment yet. -/
def startRun : SttRun := ⟨emptyPercpu, []⟩

/-- A segment that overlaps nothing in the entry that is looked up for it announces the length that
the entry is to be complete with. -/
def TotalsAgree (env : SttEnv) (r : SttRun) : SttEvent → Prop
  | .segment seg clock _ =>
      let found := lookedUp env r.cpu seg clock
      seg.IsPart → ∀ head ∈ (found.1.frag_hash found.2).skbs.head?,
        (∀ x ∈ (found.1.frag_hash found.2).skbs, seg.piece.Apart x.piece) →
          seg.tot_len = head.first.tot_len
  | .clean _ _ => True

/-- The entries in use hold segments that were given, each those of one packet. -/
def EntriesHold (given : List Segment) (s : SttPercpu) : Prop :=
  ∀ i, (s.frag_hash i).skbs ≠ [] →
    ∃ net tot segs, EntryHolds (s.frag_hash i) net tot segs ∧ ∀ seg ∈ segs, seg ∈ given

theorem EntriesHold.freed {given : List Segment} {s t : SttPercpu} (h : EntriesHold given s)
    (hfreed : Freed s t) : EntriesHold given t := by
  intro i hne
  have heq := hfreed.eq_of_ne_nil hne
  rw [heq] at hne ⊢
  exact h i hne

theorem EntriesHold.mono_given {given : List Segment} {s : SttPercpu} (h : EntriesHold given s)
    (more : List Segment) : EntriesHold (given ++ more) s := by
  intro i hne
  obtain ⟨net, tot, segs, hholds, hgiven⟩ := h i hne
  exact ⟨net, tot, segs, hholds, fun g hg => List.mem_append_left _ (hgiven g hg)⟩

/-- Only one entry has changed. -/
theorem EntriesHold.update {given : List Segment} {s t : SttPercpu} (h : EntriesHold given s)
    {i : Fin fragHashEntries} {frag : PktFrag} {seg : Segment}
    (hhash : t.frag_hash = Function.update s.frag_hash i frag)
    (hentry : frag.skbs ≠ [] → ∃ net tot segs, EntryHolds frag net tot segs ∧
      ∀ g ∈ segs, g ∈ given ++ [seg]) : EntriesHold (given ++ [seg]) t := by
  intro j hne
  rw [hhash] at hne ⊢
  by_cases hj : j = i
  case pos =>
    subst hj
    rw [Function.update_self] at hne ⊢
    exact hentry hne
  case neg =>
    rw [Function.update_of_ne hj] at hne ⊢
    exact h.mono_given _ j hne

/-- One segment: what is handed on is complete, and the entries hold one packet each. -/
theorem storeSegment_complete {env : SttEnv} {s : SttPercpu} {given : List Segment}
    {i : Fin fragHashEntries} {skb : FragSkb} {jiffies : BitVec 64} {copy : CopyEnv}
    (h : EntriesHold given s) (hpiece : skb.piece = skb.skb.piece) (hpart : skb.skb.IsPart)
    (hfresh : ∀ x ∈ (s.frag_hash i).skbs, x.addr < skb.addr)
    (hfound : ∀ head ∈ (s.frag_hash i).skbs.head?,
      skb.skb.key = (s.frag_hash i).key ∧ head.skb.net = skb.skb.net)
    (htotal : ∀ head ∈ (s.frag_hash i).skbs.head?,
      (∀ x ∈ (s.frag_hash i).skbs, skb.piece.Apart x.piece) →
        skb.skb.tot_len = head.first.tot_len) :
    EntriesHold (given ++ [skb.skb]) (storeSegment env s i skb jiffies copy).1 ∧
      ∀ skbs, (storeSegment env s i skb jiffies copy).2 = some skbs →
        CompleteDelivery (given ++ [skb.skb]) skbs := by
  by_cases hne : (s.frag_hash i).skbs = []
  case pos =>
    -- the segment starts an entry
    have hstore : storeSegment env s i skb jiffies copy = (startFrag s i skb jiffies, none) := by
      simp only [storeSegment, hne]
    rw [hstore]
    refine ⟨h.update rfl fun _ => ?_, fun skbs hskbs => by cases hskbs⟩
    exact ⟨_, _, _, EntryHolds.start hpiece hpart jiffies ⟨0, skb.skb.truesize, 0, 0, false⟩,
      by simp⟩
  case neg =>
    obtain ⟨net, tot, segs, hentry, hgiven⟩ := h i hne
    obtain ⟨head, rest, hskbs⟩ := List.exists_cons_of_ne_nil hne
    have hhead : head ∈ (s.frag_hash i).skbs.head? := by simp [hskbs]
    obtain ⟨hkey, hnet⟩ := hfound head hhead
    by_cases hapart : ∀ seg ∈ segs, skb.skb.piece.Apart seg.piece
    case pos =>
      -- it overlaps nothing, so it announces the same length
      have hfull : skb.piece.Full := by
        rw [hpiece]
        exact hpart.1
      have htot : skb.skb.tot_len = tot :=
        (htotal head hhead (hentry.holds.apart hfull (hpiece ▸ hapart))).trans
          (hentry.counted head hhead).1
      have hnet' : skb.skb.net = net :=
        hnet.symm.trans (hentry.same_net head (by simp [hskbs]))
      obtain ⟨segs', chain, hperm, hentry', hchain, hcase⟩ :=
        storeSegment_holds hentry hne hpiece hpart ⟨hkey, hnet', htot⟩ hfresh hapart
      have hgiven' : ∀ g ∈ segs', g ∈ given ++ [skb.skb] := by
        intro g hg
        rcases List.mem_cons.mp (hperm.mem_iff.mp hg) with rfl | hg
        · simp
        · exact List.mem_append_left _ (hgiven g hg)
      rcases hcase with ⟨htiles, hhash, skbs, hout, hdata, hcoalesce⟩ | ⟨-, hhash, hout⟩
      · refine ⟨h.update hhash fun hne' => absurd rfl hne', ?_⟩
        intro skbs' hskbs'
        obtain rfl := Option.some.inj (hout.symm.trans hskbs')
        refine ⟨(s.frag_hash i).key, net, tot, segs', ?_, htiles, hdata, hcoalesce⟩
        exact fun g hg => ⟨hgiven' g hg, hentry'.of_packet g hg⟩
      · refine ⟨h.update hhash fun _ => ⟨net, tot, segs', hentry', hgiven'⟩, ?_⟩
        intro skbs' hskbs'
        rw [hout] at hskbs'
        cases hskbs'
    case neg =>
      rw [storeSegment_overlap hentry hne hpiece (by rw [hpiece]; exact hpart.1) hfresh hapart]
      exact ⟨h.mono_given _, fun skbs hskbs => by cases hskbs⟩

/-- One event keeps the entries to one packet each, if totals agree. -/
theorem sttRunStep_complete (env : SttEnv) (r : SttRun) (e : SttEvent)
    (h : SttInv r.cpu ∧ EntriesHold r.given r.cpu) (htotals : TotalsAgree env r e) :
    ∃ out r', sttRunStep env r e = .ok (out, r') ∧
      (∀ skbs, out = some skbs → CompleteDelivery r'.given skbs) ∧
      SttInv r'.cpu ∧ EntriesHold r'.given r'.cpu := by
  obtain ⟨hinv, hentries⟩ := h
  have hincr : EntriesHold r.given { r.cpu with fresh := r.cpu.fresh + 1 } := hentries
  refine ⟨_, _, rfl, ?_⟩
  cases e with
  | clean i jiffies =>
      have hfreed := cleanFrag_freed env r.cpu i jiffies
      refine ⟨?_, hfreed.inv hinv, (hentries.freed hfreed).mono_given _⟩
      exact fun skbs hskbs => by cases hskbs
  | segment seg clock copy =>
      have hinv' := sttStep_inv env hinv (.segment seg clock copy)
      simp only [sttStep, SttEvent.given] at hinv' ⊢
      by_cases hpart : seg.IsPart
      case pos =>
        rw [reassemble_of_isPart hpart] at hinv' ⊢
        -- the lookup may have freed entries, and what it comes to is free or of this packet
        have hfreed := hincr.freed (@lookedUp_freed env r.cpu seg clock)
        have hfresh := fun i x => @lookedUp_addr_lt env r.cpu seg clock hinv i x
        have hmatch := fun head => @lookedUp_match env r.cpu seg clock head
        have htotal := htotals hpart
        generalize lookedUp env r.cpu seg clock = found at hinv' hfreed hfresh hmatch htotal ⊢
        obtain ⟨hkeep, hout⟩ := @storeSegment_complete env found.1 r.given found.2 (arrived r.cpu seg)
          (clock fragHashSegs) copy hfreed rfl hpart (hfresh found.2) hmatch htotal
        exact ⟨hout, hinv', hkeep⟩
      case neg =>
        -- a segment that is a packet of its own is handed on at once
        obtain ⟨hcpu, hout⟩ := @reassemble_of_not_isPart env r.cpu seg clock copy hpart
        rw [hcpu] at hinv' ⊢
        refine ⟨?_, hinv', hincr.mono_given _⟩
        intro skbs hskbs
        rcases hout with hnone | ⟨hsome, htiles⟩
        · rw [hnone] at hskbs
          cases hskbs
        · obtain rfl := Option.some.inj (hsome.symm.trans hskbs)
          refine ⟨seg.key, seg.net, seg.tot_len, [seg], by simp, htiles, ?_, ?_⟩
          · simp [arrived, Segment.piece]
          · simpa [arrived, Segment.piece] using coalescesTo_single (arrived r.cpu seg)

/-- **What `reassemble` hands on is a whole packet**, in every run in which a segment that finds
room in an entry announces the length of that entry. -/
theorem sttRun_complete (env : SttEnv) (es : List SttEvent)
    (hes : RunMeets (sttRunStep env) (TotalsAgree env) startRun es) :
    RunHolds (sttRunStep env)
      (fun _ _ out r => ∀ skbs, out = some skbs → CompleteDelivery r.given skbs) startRun es :=
  runHolds_of_runMeets (sttRunStep_complete env)
    ⟨emptyPercpu_inv, fun _ hne => absurd rfl hne⟩ hes

/-! ### A packet with a gap -/

/-- A kernel with one slot for everybody, and without `SKIP_ZERO_COPY`. -/
def plainEnv : SttEnv := ⟨fun _ _ => 0, 3000, false⟩

/-- A segment of the packet whose key is all zero. -/
def segmentOf (seq : BitVec 32) (data : List UInt8) : Segment :=
  ⟨0, 0, 0, 0, 0, seq, 0, 0, 1024, data, ⟨0, 0, 0, 0, false⟩⟩

/-- It arrives while the clock stands still. -/
def segmentEvent (seq : BitVec 32) (data : List UInt8) : SttEvent :=
  .segment (segmentOf seq data) (fun _ => 0) ⟨true, none, true⟩

/-- The first byte of a packet of two, and the third byte of a packet of four. -/
def gapEvents : List SttEvent := [segmentEvent 0x20000 [1], segmentEvent 0x40002 [2]]

/-- The two are handed on as a packet of two bytes. -/
theorem sttRun_gap : ¬ RunHolds (sttRunStep plainEnv)
    (fun _ _ out r => ∀ skbs, out = some skbs → CompleteDelivery r.given skbs) startRun
    gapEvents := by
  intro hrun
  obtain ⟨hgood, -⟩ := (hrun.tail rfl).2.tail rfl
  have hdata : (sttStep plainEnv (sttStep plainEnv emptyPercpu (segmentEvent 0x20000 [1])).1
      (segmentEvent 0x40002 [2])).2.map (fun skbs => skbs.flatMap fun x => x.skb.data) = some [1, 2] := by
    decide
  obtain ⟨skbs, hskbs, hbytes⟩ := Option.map_eq_some_iff.mp hdata
  obtain ⟨key, net, tot, segs, hsegs, htiles, hcontents, -⟩ := hgood skbs hskbs
  rw [hbytes] at hcontents
  -- each segment of the packet is one of the two, and all announce the same length
  have hmem : ∀ seg ∈ segs,
      seg = segmentOf 0x20000 [1] ∧ tot = 2 ∨ seg = segmentOf 0x40002 [2] ∧ tot = 4 := by
    intro seg hseg
    obtain ⟨hgiven, -, -, htot⟩ := hsegs seg hseg
    rcases List.mem_cons.mp hgiven with rfl | hgiven
    · exact Or.inl ⟨rfl, htot.symm⟩
    · obtain rfl := List.mem_singleton.mp hgiven
      exact Or.inr ⟨rfl, htot.symm⟩
  -- so the first byte is followed by the first byte again, or by nothing
  rcases segs with - | ⟨first, segs⟩
  · cases hcontents
  · rcases hmem first (List.mem_cons_self ..) with ⟨rfl, rfl⟩ | ⟨rfl, -⟩
    · rcases segs with - | ⟨second, segs⟩
      · exact absurd htiles.2 (by decide)
      · rcases hmem second (by simp) with ⟨rfl, -⟩ | ⟨-, htot⟩
        · exact absurd htiles.2.1 (by decide)
        · cases htot
    · exact absurd htiles.1 (by decide)

/-- Two halves of a packet of two bytes. -/
theorem sttRun_complete_two : RunHolds (sttRunStep plainEnv)
    (fun _ _ out r => ∀ skbs, out = some skbs → CompleteDelivery r.given skbs) startRun
    [segmentEvent 0x20001 [2], segmentEvent 0x20000 [1]] := by
  have hfirst : ((lookedUp plainEnv emptyPercpu (segmentOf 0x20001 [2]) fun _ => 0).1.frag_hash
      (lookedUp plainEnv emptyPercpu (segmentOf 0x20001 [2]) fun _ => 0).2).skbs.head? = none := by
    decide
  have hsecond : ((lookedUp plainEnv (sttStep plainEnv emptyPercpu (segmentEvent 0x20001 [2])).1
      (segmentOf 0x20000 [1]) fun _ => 0).1.frag_hash (lookedUp plainEnv
        (sttStep plainEnv emptyPercpu (segmentEvent 0x20001 [2])).1
        (segmentOf 0x20000 [1]) fun _ => 0).2).skbs.head?.map (fun head => head.first.tot_len) =
          some 2 := by
    decide
  refine sttRun_complete plainEnv _ ⟨?_, fun _ _ hok => ⟨?_, fun _ _ _ => trivial⟩⟩
  · intro _ head hhead
    exact absurd (hfirst.symm.trans hhead) (by simp)
  · cases hok
    intro _ head hhead _
    have htot := congrArg (Option.map fun head : FragSkb => head.first.tot_len) hhead
    exact Option.some.inj (hsecond.symm.trans htot)

end OvsDatapath.Stt
