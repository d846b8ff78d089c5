import Mathlib.Tactic

/-!
# Pieces of a whole

A receiver puts data together from pieces, each with the offset at which it belongs. This file has
what such a receiver relies on, for any kind of data.

* `Ordered a b ps` — the pieces lie between `a` and `b`, in order and without overlap.
* `Tiles a b ps` — moreover they leave no gap.
* `Ordered.tiles` — pieces in order leave no gap as soon as their sizes add up: counting is enough.
* `Merges p ps` — `p` is what comes out when the pieces `ps` are joined.
-/

namespace OvsDatapath.Lib

variable {α : Type}

/-- Data and the offset at which it belongs. -/
@[ext]
structure Piece (α : Type) where
  start : Nat
  data : List α
  deriving DecidableEq, Repr

/-- The offset after the last one. -/
def Piece.stop (p : Piece α) : Nat := p.start + p.data.length

/-- The data of some pieces, one after the other. -/
def contents (ps : List (Piece α)) : List α := ps.flatMap Piece.data

@[simp] theorem contents_nil : contents ([] : List (Piece α)) = [] := rfl

@[simp] theorem contents_cons (p : Piece α) (ps : List (Piece α)) :
    contents (p :: ps) = p.data ++ contents ps := rfl

@[simp] theorem contents_append (ps qs : List (Piece α)) :
    contents (ps ++ qs) = contents ps ++ contents qs :=
  List.flatMap_append

theorem length_contents (ps : List (Piece α)) :
    (contents ps).length = (ps.map fun p => p.data.length).sum := by
  simp [contents, List.length_flatMap]

/-- How much data there is does not depend on the order. -/
theorem length_contents_perm {ps qs : List (Piece α)} (h : ps.Perm qs) :
    (contents ps).length = (contents qs).length := by
  rw [length_contents, length_contents]
  exact (h.map _).sum_eq

/-- The pieces lie between `a` and `b`, in order and without overlap. -/
def Ordered : Nat → Nat → List (Piece α) → Prop
  | a, b, [] => a ≤ b
  | a, b, p :: ps => a ≤ p.start ∧ Ordered p.stop b ps

/-- The pieces cover what is between `a` and `b`, in order, without overlap and without gap. -/
def Tiles : Nat → Nat → List (Piece α) → Prop
  | a, b, [] => a = b
  | a, b, p :: ps => p.start = a ∧ Tiles p.stop b ps

instance decidableTiles : (a b : Nat) → (ps : List (Piece α)) → Decidable (Tiles a b ps)
  | a, b, [] => inferInstanceAs (Decidable (a = b))
  | a, b, p :: ps =>
      have := decidableTiles p.stop b ps
      inferInstanceAs (Decidable (p.start = a ∧ Tiles p.stop b ps))

@[simp] theorem ordered_nil {a b : Nat} : Ordered a b ([] : List (Piece α)) ↔ a ≤ b := Iff.rfl

@[simp] theorem ordered_cons {a b : Nat} {p : Piece α} {ps : List (Piece α)} :
    Ordered a b (p :: ps) ↔ a ≤ p.start ∧ Ordered p.stop b ps :=
  Iff.rfl

@[simp] theorem tiles_nil {a b : Nat} : Tiles a b ([] : List (Piece α)) ↔ a = b := Iff.rfl

@[simp] theorem tiles_cons {a b : Nat} {p : Piece α} {ps : List (Piece α)} :
    Tiles a b (p :: ps) ↔ p.start = a ∧ Tiles p.stop b ps :=
  Iff.rfl

theorem Ordered.le {a b : Nat} {ps : List (Piece α)} (h : Ordered a b ps) : a ≤ b := by
  induction ps generalizing a with
  | nil => exact h
  | cons p ps ih =>
      have hstop : p.start ≤ p.stop := Nat.le_add_right ..
      have hle : p.stop ≤ b := ih h.2
      have hstart : a ≤ p.start := h.1
      omega

/-- The limits may be moved apart. -/
theorem Ordered.mono {a a' b b' : Nat} {ps : List (Piece α)} (h : Ordered a b ps) (ha : a' ≤ a)
    (hb : b ≤ b') : Ordered a' b' ps := by
  induction ps generalizing a a' with
  | nil => exact ha.trans (Nat.le_trans h hb)
  | cons p ps ih => exact ⟨ha.trans h.1, ih h.2 le_rfl⟩

theorem ordered_append {a b : Nat} {ps qs : List (Piece α)} :
    Ordered a b (ps ++ qs) ↔ ∃ c, Ordered a c ps ∧ Ordered c b qs := by
  induction ps generalizing a with
  | nil =>
      constructor
      · exact fun h => ⟨a, le_rfl, h⟩
      · exact fun ⟨c, hac, h⟩ => h.mono hac le_rfl
  | cons p ps ih =>
      simp only [List.cons_append, ordered_cons, ih]
      constructor
      · exact fun ⟨ha, c, hps, hqs⟩ => ⟨c, ⟨ha, hps⟩, hqs⟩
      · exact fun ⟨c, ⟨ha, hps⟩, hqs⟩ => ⟨ha, c, hps, hqs⟩

theorem Tiles.ordered {a b : Nat} {ps : List (Piece α)} (h : Tiles a b ps) : Ordered a b ps := by
  induction ps generalizing a with
  | nil => exact Nat.le_of_eq h
  | cons p ps ih => exact ⟨Nat.le_of_eq h.1.symm, ih h.2⟩

theorem Tiles.append {a b c : Nat} {ps qs : List (Piece α)} (hps : Tiles a b ps)
    (hqs : Tiles b c qs) : Tiles a c (ps ++ qs) := by
  induction ps generalizing a with
  | nil => obtain rfl : a = b := hps; exact hqs
  | cons p ps ih => exact ⟨hps.1, ih hps.2⟩

theorem Tiles.length {a b : Nat} {ps : List (Piece α)} (h : Tiles a b ps) :
    a + (contents ps).length = b := by
  induction ps generalizing a with
  | nil => exact h
  | cons p ps ih =>
      have hrest := ih h.2
      have hstart : p.start = a := h.1
      simp only [contents_cons, List.length_append]
      simp only [Piece.stop] at hrest
      omega

/-- Pieces in order never hold more than fits. -/
theorem Ordered.length_le {a b : Nat} {ps : List (Piece α)} (h : Ordered a b ps) :
    a + (contents ps).length ≤ b := by
  induction ps generalizing a with
  | nil => exact h
  | cons p ps ih =>
      have hrest := ih h.2
      have hstart : a ≤ p.start := h.1
      simp only [contents_cons, List.length_append]
      simp only [Piece.stop] at hrest
      omega

/-- **Counting is enough.** Pieces in order between `a` and `b` leave no gap once they hold as much
data as there is room for. -/
theorem Ordered.tiles {a b : Nat} {ps : List (Piece α)} (h : Ordered a b ps)
    (hsum : a + (contents ps).length = b) : Tiles a b ps := by
  induction ps generalizing a with
  | nil => exact hsum
  | cons p ps ih =>
      have hrest := Ordered.length_le h.2
      have hstart : a ≤ p.start := h.1
      simp only [contents_cons, List.length_append] at hsum
      simp only [Piece.stop] at hrest
      have hgap : p.start = a := by omega
      refine ⟨hgap, ih h.2 ?_⟩
      simp only [Piece.stop]
      omega

/-- Every offset is covered by some piece. -/
theorem Tiles.exists_mem {a b x : Nat} {ps : List (Piece α)} (h : Tiles a b ps) (ha : a ≤ x)
    (hb : x < b) : ∃ p ∈ ps, p.start ≤ x ∧ x < p.stop := by
  induction ps generalizing a with
  | nil => exact absurd (show a = b from h) (by omega)
  | cons p ps ih =>
      by_cases hx : x < p.stop
      case pos => exact ⟨p, List.mem_cons_self .., h.1.le.trans ha, hx⟩
      case neg =>
        obtain ⟨q, hq, hcover⟩ := ih h.2 (Nat.le_of_not_lt hx)
        exact ⟨q, List.mem_cons_of_mem _ hq, hcover⟩

/-- The pieces of an ordered list are where the list is. -/
theorem Ordered.mem {a b : Nat} {ps : List (Piece α)} (h : Ordered a b ps) {p : Piece α}
    (hp : p ∈ ps) : a ≤ p.start ∧ p.stop ≤ b := by
  obtain ⟨before, after, rfl⟩ := List.append_of_mem hp
  obtain ⟨c, hbefore, hstart, hafter⟩ := ordered_append.mp h
  exact ⟨hbefore.le.trans hstart, hafter.le⟩

/-- Two pieces that have no offset in common. -/
def Piece.Apart (p q : Piece α) : Prop := p.stop ≤ q.start ∨ q.stop ≤ p.start

instance : Std.Symm (@Piece.Apart α) := ⟨fun _ _ => Or.symm⟩

/-- In an ordered list each piece is apart from all the others. -/
theorem Ordered.pairwise {a b : Nat} {ps : List (Piece α)} (h : Ordered a b ps) :
    ps.Pairwise Piece.Apart := by
  induction ps generalizing a with
  | nil => exact List.Pairwise.nil
  | cons p ps ih => exact List.Pairwise.cons (fun q hq => Or.inl (Ordered.mem h.2 hq).1) (ih h.2)

theorem Ordered.apart {a b : Nat} {ps : List (Piece α)} (h : Ordered a b ps) {p q : Piece α}
    (hp : p ∈ ps) (hq : q ∈ ps) (hne : p ≠ q) : p.Apart q :=
  h.pairwise.forall hp hq hne

/-- A piece that holds something. -/
def Piece.Full (p : Piece α) : Prop := p.data ≠ []

theorem Piece.Full.start_lt {p : Piece α} (h : p.Full) : p.start < p.stop :=
  Nat.lt_add_of_pos_right (List.length_pos_of_ne_nil h)

/-- Only an empty piece is apart from itself. -/
theorem Piece.Full.not_apart {p : Piece α} (h : p.Full) : ¬ p.Apart p := by
  have hlt := h.start_lt
  rintro (hle | hle) <;> omega

/-- In an ordered list the offset of a piece says which piece it is. -/
theorem Ordered.eq_of_start {a b : Nat} {ps : List (Piece α)} (h : Ordered a b ps)
    (hfull : ∀ p ∈ ps, p.Full) {p q : Piece α} (hp : p ∈ ps) (hq : q ∈ ps)
    (hstart : p.start = q.start) : p = q := by
  by_contra hne
  have hpos := (hfull p hp).start_lt
  have hpos' := (hfull q hq).start_lt
  rcases h.apart hp hq hne with hle | hle <;> omega

/-- An ordered list has no piece twice. -/
theorem Ordered.nodup {a b : Nat} {ps : List (Piece α)} (h : Ordered a b ps)
    (hfull : ∀ p ∈ ps, p.Full) : ps.Nodup := by
  apply h.pairwise.imp_of_mem
  intro p q hp _ hapart heq
  exact (hfull p hp).not_apart (heq ▸ hapart)

/-- A piece may be put between two neighbours that it does not overlap. -/
theorem Ordered.insert {a b : Nat} {before after : List (Piece α)} {p : Piece α}
    (h : Ordered a b (before ++ after)) (hprev : ∀ q ∈ before.getLast?, q.stop ≤ p.start)
    (hnext : ∀ q ∈ after.head?, p.stop ≤ q.start) (ha : a ≤ p.start) (hb : p.stop ≤ b) :
    Ordered a b (before ++ p :: after) := by
  obtain ⟨c, hbefore, hafter⟩ := ordered_append.mp h
  refine ordered_append.mpr ⟨p.start, ?_, le_rfl, ?_⟩
  · -- up to the new piece
    rcases List.eq_nil_or_concat' before with rfl | ⟨init, q, rfl⟩
    · exact ha
    · obtain ⟨d, hinit, hq, -⟩ := ordered_append.mp hbefore
      exact ordered_append.mpr ⟨d, hinit, hq, hprev q (by simp)⟩
  · -- and from its end on
    cases after with
    | nil => exact hb
    | cons q after => exact ⟨hnext q (by simp), hafter.2⟩

/-! ### A whole that was cut -/

/-- Two ways to cover the same stretch with pieces of one collection are the same. -/
theorem Tiles.unique {a b : Nat} {ps qs : List (Piece α)} (hps : Tiles a b ps) (hqs : Tiles a b qs)
    (hfull : ∀ p ∈ ps, p.Full) (hfull' : ∀ q ∈ qs, q.Full)
    (hsame : ∀ p ∈ ps, ∀ q ∈ qs, p.start = q.start → p = q) : ps = qs := by
  induction ps generalizing a qs with
  | nil =>
      cases qs with
      | nil => rfl
      | cons q qs =>
          have hpos := (hfull' q (List.mem_cons_self ..)).start_lt
          have hle := hqs.2.ordered.le
          have hab : a = b := hps
          have hstart : q.start = a := hqs.1
          omega
  | cons p ps ih =>
      cases qs with
      | nil =>
          have hpos := (hfull p (List.mem_cons_self ..)).start_lt
          have hle := hps.2.ordered.le
          have hab : a = b := hqs
          have hstart : p.start = a := hps.1
          omega
      | cons q qs =>
          obtain rfl : p = q := hsame p (List.mem_cons_self ..) q (List.mem_cons_self ..)
            (hps.1.trans hqs.1.symm)
          rw [ih hps.2 hqs.2 (fun r hr => hfull r (List.mem_cons_of_mem _ hr))
            (fun r hr => hfull' r (List.mem_cons_of_mem _ hr))
            (fun r hr r' hr' => hsame r (List.mem_cons_of_mem _ hr) r' (List.mem_cons_of_mem _ hr'))]

/-- **All pieces are there exactly when the sizes add up.** -/
theorem Tiles.length_eq_iff {b : Nat} {cut ps : List (Piece α)} (hcut : Tiles 0 b cut)
    (hfull : ∀ p ∈ cut, p.Full) (hps : Ordered 0 b ps) (hsub : ∀ p ∈ ps, p ∈ cut) :
    (contents ps).length = b ↔ ∀ p ∈ cut, p ∈ ps := by
  have hfull' : ∀ p ∈ ps, p.Full := fun p hp => hfull p (hsub p hp)
  constructor
  · intro hlen p hp
    have htiles : Tiles 0 b ps := hps.tiles (by rw [Nat.zero_add, hlen])
    have heq : ps = cut := by
      apply htiles.unique hcut hfull' hfull
      exact fun q hq r hr hstart => hcut.ordered.eq_of_start hfull (hsub q hq) hr hstart
    rwa [heq]
  · intro hall
    have hperm : ps.Perm cut :=
      (List.perm_ext_iff_of_nodup (hps.nodup hfull') (hcut.ordered.nodup hfull)).mpr
        fun p => ⟨hsub p, hall p⟩
    have hlen := hcut.length
    rw [length_contents_perm hperm]
    omega

/-! ### Joined pieces -/

/-- `p` is what comes out when the pieces `ps` are joined. -/
structure Merges (p : Piece α) (ps : List (Piece α)) : Prop where
  tiles : Tiles p.start p.stop ps
  data : contents ps = p.data

theorem Merges.single (p : Piece α) : Merges p [p] := ⟨⟨rfl, rfl⟩, by simp⟩

/-- Joining one more piece. -/
theorem Merges.append {p q : Piece α} {ps : List (Piece α)} (h : Merges p ps)
    (hq : q.start = p.stop) : Merges ⟨p.start, p.data ++ q.data⟩ (ps ++ [q]) := by
  refine ⟨?_, ?_⟩
  · apply h.tiles.append
    refine ⟨hq, ?_⟩
    simp only [tiles_nil, Piece.stop, List.length_append] at hq ⊢
    omega
  · simp [h.data]

/-- Joined pieces lie where the pieces lie. -/
theorem ordered_of_merges {a b : Nat} {ps : List (Piece α)} {pss : List (List (Piece α))}
    (h : List.Forall₂ Merges ps pss) (hord : Ordered a b ps) : Ordered a b pss.flatten := by
  induction h generalizing a with
  | nil => exact hord
  | cons hp _ ih =>
      refine ordered_append.mpr ⟨_, hp.tiles.ordered.mono hord.1 le_rfl, ih hord.2⟩

theorem contents_of_merges {ps : List (Piece α)} {pss : List (List (Piece α))}
    (h : List.Forall₂ Merges ps pss) : contents pss.flatten = contents ps := by
  induction h with
  | nil => rfl
  | cons hp _ ih => simp [hp.data, ih]

/-- What is apart from all pieces is apart from what they were joined to. -/
theorem Merges.apart {p q : Piece α} {ps : List (Piece α)} (h : Merges p ps) (hp : p.Full)
    (hq : q.Full) (hall : ∀ r ∈ ps, q.Apart r) : q.Apart p := by
  by_contra hover
  obtain ⟨hlt, hlt'⟩ : p.start < q.stop ∧ q.start < p.stop := by
    simp only [Piece.Apart] at hover
    omega
  have hpos := hp.start_lt
  have hpos' := hq.start_lt
  -- an offset that both have is covered by one of the pieces
  obtain ⟨r, hr, hlo, hhi⟩ := h.tiles.exists_mem (le_max_left p.start q.start)
    (max_lt hpos hlt')
  rcases hall r hr with hle | hle <;> omega

end OvsDatapath.Lib
