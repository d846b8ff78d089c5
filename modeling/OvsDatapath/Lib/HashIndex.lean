import OvsDatapath.Lib.Hlist

/-!
# Hash indexes

A set of objects spread over chains: object `a` has the node `node a` and belongs in the chain of
the head `place a`. `Indexed m heads node place s` says that the chains of `heads` hold the objects
of `s`, each where it belongs, and no others. The lemmas say what linking and unlinking one object
do to the set, what they leave alone, and what a search of one chain finds.
-/

namespace OvsDatapath.Lib.Hlist

variable {η ν α : Type}

/-- The chains of the heads hold the objects of `s`, each in its place. -/
def Indexed (m : Links η ν) (heads : η → Prop) (node : α → ν) (place : α → η) (s : Finset α) :
    Prop :=
  ∀ h, heads h → ∃ l : List α, Chain m h (l.map node) ∧ ∀ a, a ∈ l ↔ a ∈ s ∧ place a = h

variable {m m' : Links η ν} {heads : η → Prop} {node : α → ν} {place place' : α → η}
variable {s : Finset α} {a : α}

theorem Indexed.empty (hfirst : ∀ h, heads h → m.first h = none) : Indexed m heads node place ∅ :=
  fun h hh => ⟨[], chain_nil_iff.mpr (hfirst h hh), by simp⟩

/-- Where an object that is not in the set belongs does not matter. -/
theorem Indexed.congr_place (hx : Indexed m heads node place s)
    (hplace : ∀ a ∈ s, place' a = place a) : Indexed m heads node place' s := by
  intro h hh
  obtain ⟨l, hl, hmem⟩ := hx h hh
  refine ⟨l, hl, fun a => (hmem a).trans ?_⟩
  constructor
  · rintro ⟨ha, hp⟩
    exact ⟨ha, (hplace a ha).trans hp⟩
  · rintro ⟨ha, hp⟩
    exact ⟨ha, (hplace a ha).symm.trans hp⟩

/-- Writes to other heads and other nodes do not matter. -/
theorem Indexed.congr_links (hx : Indexed m heads node place s)
    (hnode : ∀ a, m'.next (node a) = m.next (node a) ∧ m'.pprev (node a) = m.pprev (node a))
    (hfirst : ∀ h, heads h → m'.first h = m.first h) : Indexed m' heads node place s := by
  intro h hh
  obtain ⟨l, hl, hmem⟩ := hx h hh
  refine ⟨l, ?_, hmem⟩
  rw [Chain, hfirst h hh]
  refine Segment.congr hl fun k hk => ?_
  obtain ⟨a, -, rfl⟩ := List.mem_map.mp hk
  exact hnode a

/-- A member stands somewhere in the chain of its place. -/
theorem Indexed.exists_chain (hx : Indexed m heads node place s) (hh : heads (place a))
    (ha : a ∈ s) : ∃ pre post, Chain m (place a) ((pre ++ a :: post).map node) := by
  obtain ⟨l, hl, hmem⟩ := hx (place a) hh
  obtain ⟨pre, post, rfl⟩ := List.append_of_mem ((hmem a).mpr ⟨ha, rfl⟩)
  exact ⟨pre, post, hl⟩

/-- A chain is no longer than the set is large. -/
theorem Indexed.length_le (hx : Indexed m heads node place s) {h : η} (hh : heads h) {l : List α}
    (hinj : Function.Injective node) (hl : Chain m h (l.map node)) :
    l.length ≤ s.card ∧ ∀ a, a ∈ l ↔ a ∈ s ∧ place a = h := by
  classical
  obtain ⟨l₀, hl₀, hmem⟩ := hx h hh
  obtain rfl : l = l₀ := List.map_injective_iff.mpr hinj (Segment.unique hl hl₀)
  refine ⟨?_, hmem⟩
  rw [← List.toFinset_card_of_nodup (List.Nodup.of_map _ hl.nodup)]
  exact Finset.card_le_card fun a ha => ((hmem a).mp (List.mem_toFinset.mp ha)).1

section Updates

variable [DecidableEq η] [DecidableEq ν] [DecidableEq α]

/-! ## Linking an object -/

theorem Indexed.addHead (hx : Indexed m heads node place s) (hinj : Function.Injective node)
    (hh : heads (place a)) (ha : a ∉ s) :
    Indexed (Hlist.addHead m (node a) (place a)) heads node place (insert a s) := by
  have hnotin : ∀ {h : η} {l : List α}, (∀ b, b ∈ l ↔ b ∈ s ∧ place b = h) → node a ∉ l.map node := by
    intro h l hmem hn
    rw [List.mem_map_of_injective hinj] at hn
    exact ha ((hmem a).mp hn).1
  intro h hh'
  obtain ⟨l, hl, hmem⟩ := hx h hh'
  rcases eq_or_ne h (place a) with rfl | hne
  · refine ⟨a :: l, Chain.addHead hl (hnotin hmem), fun b => ?_⟩
    rw [List.mem_cons, hmem, Finset.mem_insert]
    constructor
    · rintro (rfl | ⟨hb, hp⟩)
      · exact ⟨.inl rfl, rfl⟩
      · exact ⟨.inr hb, hp⟩
    · rintro ⟨rfl | hb, hp⟩
      · exact .inl rfl
      · exact .inr ⟨hb, hp⟩
  · obtain ⟨l', hl', -⟩ := hx (place a) hh
    refine ⟨l, Chain.addHead_other hl' hl hne (hnotin hmem), fun b => ?_⟩
    rw [hmem, Finset.mem_insert]
    constructor
    · rintro ⟨hb, hp⟩
      exact ⟨.inr hb, hp⟩
    · rintro ⟨rfl | hb, hp⟩
      · exact absurd hp.symm hne
      · exact ⟨hb, hp⟩

omit [DecidableEq α] in
/-- Linking writes to the head of the place and to nodes of the index. -/
theorem Indexed.addHead_frame (hx : Indexed m heads node place s) (hh : heads (place a)) :
    (∀ k, (∀ b, k ≠ node b) →
      (Hlist.addHead m (node a) (place a)).next k = m.next k ∧
        (Hlist.addHead m (node a) (place a)).pprev k = m.pprev k) ∧
      ∀ h, h ≠ place a → (Hlist.addHead m (node a) (place a)).first h = m.first h := by
  constructor
  · intro k hk
    rw [addHead_next, addHead_pprev]
    refine ⟨Function.update_of_ne (hk a) .., ?_⟩
    obtain ⟨l, hl, -⟩ := hx (place a) hh
    cases l with
    | nil =>
        rw [chain_nil_iff.mp hl]
        exact Function.update_of_ne (hk a) ..
    | cons b l =>
        rw [List.map_cons, Chain, segment_cons] at hl
        rw [hl.1]
        dsimp only
        rw [Function.update_of_ne (hk b), Function.update_of_ne (hk a)]
  · intro h hne
    rw [addHead_first]
    exact Function.update_of_ne hne ..

/-! ## Unlinking an object -/

theorem Indexed.del (hx : Indexed m heads node place s) (hinj : Function.Injective node)
    (hh : heads (place a)) {pre post : List α}
    (hl : Chain m (place a) ((pre ++ a :: post).map node)) :
    ∃ m', Hlist.del m (node a) = .ok m' ∧ Chain m' (place a) ((pre ++ post).map node) ∧
      Indexed m' heads node place (s.erase a) ∧ ∀ h, h ≠ place a → m'.first h = m.first h := by
  obtain ⟨-, hmem⟩ := hx.length_le hh hinj hl
  have hnodup : (pre ++ a :: post).Nodup := List.Nodup.of_map _ hl.nodup
  obtain ⟨m', hok, hchain, hothers, hfirst⟩ := Chain.del (show Chain m (place a)
    (pre.map node ++ node a :: post.map node) by simpa using hl)
  rw [← List.map_append] at hchain
  refine ⟨m', hok, hchain, ?_, hfirst⟩
  intro h hh'
  rcases eq_or_ne h (place a) with rfl | hne
  · refine ⟨pre ++ post, hchain, fun b => ?_⟩
    have hsplit : b ∈ pre ++ post ↔ b ∈ pre ++ a :: post ∧ b ≠ a := by
      have hperm : (pre ++ a :: post).Perm (a :: (pre ++ post)) := List.perm_middle
      rw [hperm.nodup_iff, List.nodup_cons] at hnodup
      rw [hperm.mem_iff, List.mem_cons]
      constructor
      · exact fun hb => ⟨.inr hb, fun heq => hnodup.1 (heq ▸ hb)⟩
      · rintro ⟨hb | hb, hne⟩
        · exact absurd hb hne
        · exact hb
    rw [hsplit, hmem, Finset.mem_erase]
    tauto
  · obtain ⟨l, hl', hmem'⟩ := hx h hh'
    refine ⟨l, hothers h _ hne hl', fun b => ?_⟩
    rw [hmem', Finset.mem_erase]
    constructor
    · rintro ⟨hb, rfl⟩
      exact ⟨⟨fun heq => hne (heq ▸ rfl), hb⟩, rfl⟩
    · rintro ⟨⟨-, hb⟩, hp⟩
      exact ⟨hb, hp⟩

omit [DecidableEq η] [DecidableEq ν] [DecidableEq α] in
/-- A search of one chain finds a member in that place, or there is none to find. -/
theorem Indexed.findEntry (hx : Indexed m heads node place s) (hinj : Function.Injective node)
    {h : η} (hh : heads h) (p : ν → Bool) {fuel : Nat} (hfuel : s.card ≤ fuel) :
    ∃ r, Hlist.findEntry m p fuel (m.first h) = .ok r ∧
      (∀ k, r = some k → ∃ a ∈ s, place a = h ∧ node a = k ∧ p k = true) ∧
      (r = none → ∀ a ∈ s, place a = h → p (node a) = false) := by
  obtain ⟨l, hl, hmem⟩ := hx h hh
  refine ⟨_, findEntry_of_segment p hl ?_, ?_, ?_⟩
  · rw [List.length_map]
    exact (hx.length_le hh hinj hl).1.trans hfuel
  · intro k hk
    obtain ⟨a, ha, rfl⟩ := List.mem_map.mp (List.mem_of_find?_eq_some hk)
    obtain ⟨hs, hp⟩ := (hmem a).mp ha
    exact ⟨a, hs, hp, rfl, List.find?_some hk⟩
  · intro hnone a ha hp
    rw [List.find?_eq_none] at hnone
    exact eq_false_of_ne_true (hnone _ (List.mem_map_of_mem ((hmem a).mpr ⟨ha, hp⟩)))

end Updates

end OvsDatapath.Lib.Hlist
