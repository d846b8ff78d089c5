import OvsDatapath.Lib.Pieces

/-!
# Pieces that overlap

What comes in may overlap with what is there. `lay before after p` puts a piece into an ordered list: what the
piece before it has already is cut off its front, and what it has itself is cut off the front of the pieces behind
it, or they go.

* `Covered ps j` — some piece of `ps` has the offset `j`.
* `ordered_lay`, `covered_lay` — the list stays ordered, and it covers what it covered and what the piece covers.
* `covered_of_covers` — a piece of which nothing is left was covered before.
* `at_of_lay` — each byte is where one of the pieces had it.
* `Ordered.length_eq_iff_covered` — counting is enough, for pieces of any origin.
-/

namespace OvsDatapath.Lib

variable {α : Type}

/-- The piece has `x` at the offset `j` of the whole. -/
def Piece.At (p : Piece α) (j : Nat) (x : α) : Prop := p.start ≤ j ∧ p.data[j - p.start]? = some x

/-- The piece has something at the offset `j` of the whole. -/
def Piece.Covers (p : Piece α) (j : Nat) : Prop := p.start ≤ j ∧ j < p.stop

/-- Some piece has something there. -/
def Covered (ps : List (Piece α)) (j : Nat) : Prop := ∃ p ∈ ps, p.Covers j

@[simp] theorem covered_nil (j : Nat) : ¬ Covered ([] : List (Piece α)) j := by
  simp [Covered]

@[simp] theorem covered_cons {p : Piece α} {ps : List (Piece α)} {j : Nat} :
    Covered (p :: ps) j ↔ p.Covers j ∨ Covered ps j := by
  simp [Covered]

@[simp] theorem covered_append {ps qs : List (Piece α)} {j : Nat} :
    Covered (ps ++ qs) j ↔ Covered ps j ∨ Covered qs j := by
  simp [Covered, or_and_right, exists_or]

theorem Piece.covers_iff_at {p : Piece α} {j : Nat} : p.Covers j ↔ ∃ x, p.At j x := by
  constructor
  · rintro ⟨hstart, hstop⟩
    have hlt : j - p.start < p.data.length := by
      simp only [Piece.stop] at hstop
      omega
    exact ⟨p.data[j - p.start], hstart, List.getElem?_eq_getElem hlt⟩
  · rintro ⟨x, hstart, hx⟩
    obtain ⟨hlt, -⟩ := List.getElem?_eq_some_iff.mp hx
    exact ⟨hstart, by simp only [Piece.stop]; omega⟩

/-! ### Counting -/

/-- **Counting is enough**, whatever the pieces are: ordered pieces hold as much as there is room for exactly
when they cover everything. -/
theorem Ordered.length_eq_iff_covered {a b : Nat} {ps : List (Piece α)} (h : Ordered a b ps) :
    a + (contents ps).length = b ↔ ∀ j, a ≤ j → j < b → Covered ps j := by
  constructor
  · exact fun hlen j ha hb => (h.tiles hlen).exists_mem ha hb
  · intro hall
    induction ps generalizing a with
    | nil =>
        have hle : a ≤ b := h
        by_contra hne
        simp only [contents_nil, List.length_nil] at hne
        exact covered_nil a (hall a le_rfl (by omega))
    | cons p ps ih =>
        have hrest : p.stop + (contents ps).length = b := by
          refine ih h.2 fun j hj hb => ?_
          have hstart : p.start ≤ p.stop := Nat.le_add_right ..
          rcases covered_cons.mp (hall j (h.1.trans (hstart.trans hj)) hb) with hp | hps
          · exact absurd hp.2 (Nat.not_lt.mpr hj)
          · exact hps
        have hgap : p.start = a := by
          by_contra hne
          -- nothing covers the offset at which the list should start
          have hlt : a < p.start := Nat.lt_of_le_of_ne h.1 (Ne.symm hne)
          have hb : p.stop ≤ b := Ordered.le h.2
          have hstart : p.start ≤ p.stop := Nat.le_add_right ..
          rcases covered_cons.mp (hall a le_rfl (by omega)) with hp | ⟨q, hq, hcov⟩
          · exact absurd hp.1 (by omega)
          · have hafter := (Ordered.mem h.2 hq).1
            have hcovers := hcov.1
            omega
        simp only [contents_cons, List.length_append]
        simp only [Piece.stop] at hrest
        omega

/-- What the pieces hold together, byte by byte. -/
theorem Tiles.at_of_contents {a b : Nat} {ps : List (Piece α)} (h : Tiles a b ps) {j : Nat} {x : α}
    (hx : (contents ps)[j]? = some x) : ∃ p ∈ ps, p.At (a + j) x := by
  induction ps generalizing a j with
  | nil => simp at hx
  | cons p ps ih =>
      have hstart : p.start = a := h.1
      rw [contents_cons, List.getElem?_append] at hx
      split at hx
      case isTrue hlt =>
        refine ⟨p, List.mem_cons_self .., by omega, ?_⟩
        rwa [hstart, Nat.add_sub_cancel_left]
      case isFalse hge =>
        obtain ⟨q, hq, hat⟩ := ih h.2 hx
        refine ⟨q, List.mem_cons_of_mem _ hq, ?_⟩
        have hoff : p.stop + (j - p.data.length) = a + j := by
          simp only [Piece.stop]
          omega
        rwa [hoff] at hat

/-- And where each byte of a piece is in the whole. -/
theorem Tiles.contents_of_at {a b : Nat} {ps : List (Piece α)} (h : Tiles a b ps) {p : Piece α} (hp : p ∈ ps)
    {j : Nat} {x : α} (hx : p.At (a + j) x) : (contents ps)[j]? = some x := by
  induction ps generalizing a j with
  | nil => simp at hp
  | cons q ps ih =>
      have hstart : q.start = a := h.1
      rw [contents_cons, List.getElem?_append]
      rcases List.mem_cons.mp hp with rfl | hp
      · obtain ⟨-, hx⟩ := hx
        rw [hstart, Nat.add_sub_cancel_left] at hx
        obtain ⟨hlt, -⟩ := List.getElem?_eq_some_iff.mp hx
        rwa [if_pos hlt]
      · have hafter := (Ordered.mem h.2.ordered hp).1
        have hle := hx.1
        simp only [Piece.stop] at hafter
        rw [if_neg (by omega)]
        apply ih h.2 hp
        rwa [show q.stop + (j - q.data.length) = a + j by simp only [Piece.stop]; omega]

/-! ### Cutting a piece -/

/-- The piece without its first `n` bytes. -/
def Piece.cutFront (p : Piece α) (n : Nat) : Piece α := ⟨p.start + n, p.data.drop n⟩

@[simp] theorem Piece.cutFront_start (p : Piece α) (n : Nat) : (p.cutFront n).start = p.start + n := rfl

@[simp] theorem Piece.cutFront_zero (p : Piece α) : p.cutFront 0 = p := rfl

theorem Piece.cutFront_stop {p : Piece α} {n : Nat} (h : n ≤ p.data.length) : (p.cutFront n).stop = p.stop := by
  simp only [Piece.stop, cutFront, List.length_drop]
  omega

theorem Piece.at_of_cutFront {p : Piece α} {n j : Nat} {x : α} (h : (p.cutFront n).At j x) : p.At j x := by
  obtain ⟨hstart, hx⟩ := h
  simp only [cutFront_start] at hstart
  simp only [cutFront, List.getElem?_drop] at hx
  refine ⟨by omega, ?_⟩
  rwa [show n + (j - (p.start + n)) = j - p.start by omega] at hx

theorem Piece.covers_cutFront {p : Piece α} {n j : Nat} (h : n ≤ p.data.length) :
    (p.cutFront n).Covers j ↔ p.start + n ≤ j ∧ j < p.stop := by
  rw [Piece.Covers, cutFront_stop h, cutFront_start]

theorem Piece.at_of_take {s n j : Nat} {d : List α} {x : α} (h : (⟨s, d.take n⟩ : Piece α).At j x) :
    (⟨s, d⟩ : Piece α).At j x := by
  obtain ⟨hstart, hx⟩ := h
  rw [List.getElem?_take] at hx
  split at hx
  case isTrue => exact ⟨hstart, hx⟩
  case isFalse => cases hx

/-! ### Clearing the way -/

/-- The pieces without anything before `stop`: the first ones go, and one may lose its front. -/
def clip (stop : Nat) : List (Piece α) → List (Piece α)
  | [] => []
  | q :: qs =>
      if stop ≤ q.start then q :: qs
      else if q.stop ≤ stop then clip stop qs
      else q.cutFront (stop - q.start) :: qs

theorem ordered_clip {a b stop : Nat} {qs : List (Piece α)} (h : Ordered a b qs) (hstop : stop ≤ b) :
    Ordered stop b (clip stop qs) := by
  induction qs generalizing a with
  | nil => exact hstop
  | cons q qs ih =>
      simp only [clip]
      split_ifs with hbehind hgone
      · exact ⟨hbehind, h.2⟩
      · exact ih h.2
      · refine ⟨?_, ?_⟩
        · rw [Piece.cutFront_start]
          omega
        · rw [Piece.cutFront_stop (by simp only [Piece.stop] at hgone; omega)]
          exact h.2

theorem at_of_clip {stop : Nat} {qs : List (Piece α)} {q : Piece α} (hq : q ∈ clip stop qs) {j : Nat} {x : α}
    (hx : q.At j x) : ∃ r ∈ qs, r.At j x := by
  induction qs with
  | nil => simp [clip] at hq
  | cons r qs ih =>
      simp only [clip] at hq
      split_ifs at hq
      · exact ⟨q, hq, hx⟩
      · obtain ⟨r', hr', hat⟩ := ih hq
        exact ⟨r', List.mem_cons_of_mem _ hr', hat⟩
      · rcases List.mem_cons.mp hq with rfl | hq
        · exact ⟨r, List.mem_cons_self .., Piece.at_of_cutFront hx⟩
        · exact ⟨q, List.mem_cons_of_mem _ hq, hx⟩

theorem covered_clip {a b stop : Nat} {qs : List (Piece α)} (h : Ordered a b qs) {j : Nat} :
    Covered (clip stop qs) j ↔ Covered qs j ∧ stop ≤ j := by
  induction qs generalizing a with
  | nil => simp [clip]
  | cons q qs ih =>
      have hlater : ∀ r ∈ qs, q.stop ≤ r.start := fun r hr => (Ordered.mem h.2 hr).1
      simp only [clip]
      split_ifs with hbehind hgone
      · -- nothing is before `stop`
        refine (and_iff_left_of_imp ?_).symm
        rintro ⟨r, hr, hlo, -⟩
        have hstart : q.start ≤ q.stop := Nat.le_add_right ..
        rcases List.mem_cons.mp hr with rfl | hr
        · omega
        · have hafter := hlater r hr
          omega
      · rw [ih h.2, covered_cons]
        refine and_congr_left fun hj => (or_iff_right ?_).symm
        rintro ⟨-, hlt⟩
        omega
      · have hlen : stop - q.start ≤ q.data.length := by
          simp only [Piece.stop] at hgone
          omega
        rw [covered_cons, covered_cons, Piece.covers_cutFront hlen]
        constructor
        · rintro (⟨hlo, hhi⟩ | hcov)
          · exact ⟨Or.inl ⟨by omega, hhi⟩, by omega⟩
          · obtain ⟨r, hr, hlo, hhi⟩ := hcov
            have hafter := hlater r hr
            exact ⟨Or.inr ⟨r, hr, hlo, hhi⟩, by omega⟩
        · rintro ⟨⟨hlo, hhi⟩ | hcov, hj⟩
          · exact Or.inl ⟨by omega, hhi⟩
          · exact Or.inr hcov

/-! ### Laying a piece -/

/-- What the piece before it leaves of a piece. -/
def behind (before : List (Piece α)) (p : Piece α) : Piece α :=
  match before.getLast? with
  | none => p
  | some prev => p.cutFront (prev.stop - p.start)

/-- The piece in its place, between pieces that start before it and pieces that do not. -/
def lay (before after : List (Piece α)) (p : Piece α) : Option (List (Piece α)) :=
  if p.stop ≤ (behind before p).start then none
  else some (before ++ behind before p :: clip p.stop after)

section

variable {a b : Nat} {before after qs : List (Piece α)} {p : Piece α}

theorem behind_start : ∃ n, (behind before p) = p.cutFront n ∧
    ∀ q ∈ before.getLast?, (q.stop ≤ p.start ∧ n = 0) ∨ (p.start + n = q.stop) := by
  cases hlast : before.getLast? with
  | none => exact ⟨0, by simp [behind, hlast], by simp⟩
  | some prev =>
      refine ⟨prev.stop - p.start, by simp [behind, hlast], ?_⟩
      rintro q ⟨⟩
      omega

theorem behind_stop (h : ¬ p.stop ≤ (behind before p).start) : (behind before p).stop = p.stop := by
  obtain ⟨n, hn, -⟩ := @behind_start α before p
  rw [hn] at h ⊢
  apply Piece.cutFront_stop
  simp only [Piece.cutFront_start, Piece.stop] at h
  omega

theorem lay_eq_some_iff : lay before after p = some qs ↔
    ¬ p.stop ≤ (behind before p).start ∧ qs = before ++ behind before p :: clip p.stop after := by
  rw [lay]
  split_ifs with hgone
  · simp [hgone]
  · simp [hgone, eq_comm]

/-- The list stays ordered. -/
theorem ordered_lay (h : Ordered a b (before ++ after)) (ha : a ≤ p.start) (hb : p.stop ≤ b)
    (hlay : lay before after p = some qs) : Ordered a b qs := by
  obtain ⟨hleft, rfl⟩ := lay_eq_some_iff.mp hlay
  obtain ⟨c, hbefore, hafter⟩ := ordered_append.mp h
  obtain ⟨n, hn, hprev⟩ := @behind_start α before p
  have hstop := behind_stop hleft
  refine ordered_append.mpr ⟨(behind before p).start, ?_, le_rfl, ?_⟩
  · rcases List.eq_nil_or_concat' before with rfl | ⟨init, q, rfl⟩
    · rw [hn, Piece.cutFront_start]
      exact ha.trans (Nat.le_add_right ..)
    · obtain ⟨d, hinit, hq, -⟩ := ordered_append.mp hbefore
      refine ordered_append.mpr ⟨d, hinit, hq, ?_⟩
      rw [hn, Piece.cutFront_start]
      rcases hprev q (by simp) with ⟨hle, rfl⟩ | heq
      · simpa using hle
      · exact heq.ge
  · rw [hstop]
    exact ordered_clip hafter hb

/-- Each byte is where one of the pieces had it. -/
theorem at_of_lay (hlay : lay before after p = some qs) {q : Piece α} (hq : q ∈ qs) {j : Nat} {x : α}
    (hx : q.At j x) : ∃ r ∈ p :: (before ++ after), r.At j x := by
  obtain ⟨-, rfl⟩ := lay_eq_some_iff.mp hlay
  rcases List.mem_append.mp hq with hq | hq
  · exact ⟨q, by simp [hq], hx⟩
  · rcases List.mem_cons.mp hq with rfl | hq
    · obtain ⟨n, hn, -⟩ := @behind_start α before p
      rw [hn] at hx
      exact ⟨p, List.mem_cons_self .., Piece.at_of_cutFront hx⟩
    · obtain ⟨r, hr, hat⟩ := at_of_clip hq hx
      exact ⟨r, by simp [hr], hat⟩

/-- Where a piece was cut. -/
theorem bounds_of_clip {stop : Nat} {qs : List (Piece α)} {q : Piece α} (hq : q ∈ clip stop qs) :
    ∃ r ∈ qs, q.stop = r.stop ∧ (q.start = r.start ∨ q.start = stop) := by
  induction qs with
  | nil => simp [clip] at hq
  | cons r qs ih =>
      simp only [clip] at hq
      split_ifs at hq with hbehind hgone
      · exact ⟨q, hq, rfl, Or.inl rfl⟩
      · obtain ⟨r', hr', hbounds⟩ := ih hq
        exact ⟨r', List.mem_cons_of_mem _ hr', hbounds⟩
      · rcases List.mem_cons.mp hq with rfl | hq
        · refine ⟨r, List.mem_cons_self .., Piece.cutFront_stop ?_, Or.inr ?_⟩
          · simp only [Piece.stop] at hgone
            omega
          · rw [Piece.cutFront_start]
            omega
        · exact ⟨q, List.mem_cons_of_mem _ hq, rfl, Or.inl rfl⟩

theorem bounds_of_behind : (behind before p).start = p.start ∨ ∃ q ∈ before, (behind before p).start = q.stop := by
  cases hlast : before.getLast? with
  | none => exact Or.inl (by simp [behind, hlast])
  | some prev =>
      have hstart : (behind before p).start = p.start + (prev.stop - p.start) := by simp [behind, hlast]
      by_cases hle : prev.stop ≤ p.start
      · exact Or.inl (by omega)
      · exact Or.inr ⟨prev, List.mem_of_getLast? hlast, by omega⟩

/-- A piece ends where one of the pieces ended, and starts where one of them started or ended. -/
theorem bounds_of_lay (hlay : lay before after p = some qs) {q : Piece α} (hq : q ∈ qs) :
    (∃ r ∈ p :: (before ++ after), q.stop = r.stop) ∧
      ∃ r ∈ p :: (before ++ after), q.start = r.start ∨ q.start = r.stop := by
  obtain ⟨hleft, rfl⟩ := lay_eq_some_iff.mp hlay
  rcases List.mem_append.mp hq with hq | hq
  · exact ⟨⟨q, by simp [hq], rfl⟩, q, by simp [hq], Or.inl rfl⟩
  · rcases List.mem_cons.mp hq with rfl | hq
    · refine ⟨⟨p, by simp, behind_stop hleft⟩, ?_⟩
      rcases @bounds_of_behind _ before p with heq | ⟨r, hr, heq⟩
      · exact ⟨p, by simp, Or.inl heq⟩
      · exact ⟨r, by simp [hr], Or.inr heq⟩
    · obtain ⟨r, hr, hstop, hstart | hstart⟩ := bounds_of_clip hq
      · exact ⟨⟨r, by simp [hr], hstop⟩, r, by simp [hr], Or.inl hstart⟩
      · exact ⟨⟨r, by simp [hr], hstop⟩, p, by simp, Or.inr hstart⟩

/-- What the piece lost was there before: the piece in front of it starts before it. -/
theorem covered_of_covers (hlt : ∀ q ∈ before, q.start ≤ p.start) {j : Nat} (hj : p.Covers j)
    (hcut : j < (behind before p).start) : Covered before j := by
  obtain ⟨n, hn, hprev⟩ := @behind_start α before p
  rw [hn, Piece.cutFront_start] at hcut
  cases hlast : before.getLast? with
  | none =>
      rw [behind, hlast] at hn
      have hstart := congrArg Piece.start hn
      have hlo := hj.1
      simp only [Piece.cutFront_start] at hstart
      omega
  | some prev =>
      have hmem := List.mem_of_getLast? hlast
      have hstart := hlt prev hmem
      have hlo := hj.1
      rcases hprev prev hlast with ⟨-, rfl⟩ | heq
      · omega
      · exact ⟨prev, hmem, by omega, by omega⟩

/-- **The list covers what it covered and what the piece covers.** -/
theorem covered_lay (h : Ordered a b (before ++ after)) (hlt : ∀ q ∈ before, q.start ≤ p.start)
    (hge : ∀ q ∈ after, p.start ≤ q.start) (hlay : lay before after p = some qs) {j : Nat} :
    Covered qs j ↔ Covered (before ++ after) j ∨ p.Covers j := by
  obtain ⟨hleft, rfl⟩ := lay_eq_some_iff.mp hlay
  obtain ⟨c, hbefore, hafter⟩ := ordered_append.mp h
  obtain ⟨n, hn, -⟩ := @behind_start α before p
  have hstop := behind_stop hleft
  rw [covered_append, covered_append, covered_cons, covered_clip hafter]
  constructor
  · rintro (hcov | hcov | ⟨hcov, -⟩)
    · exact Or.inl (Or.inl hcov)
    · refine Or.inr ⟨?_, hstop ▸ hcov.2⟩
      have hlo := hcov.1
      rw [hn, Piece.cutFront_start] at hlo
      omega
    · exact Or.inl (Or.inr hcov)
  · have hp : p.Covers j → Covered before j ∨ (behind before p).Covers j := by
      intro hcov
      by_cases hcut : j < (behind before p).start
      · exact Or.inl (covered_of_covers hlt hcov hcut)
      · exact Or.inr ⟨by omega, hstop.symm ▸ hcov.2⟩
    rintro ((hcov | hcov) | hcov)
    · exact Or.inl hcov
    · by_cases hj : p.stop ≤ j
      · exact Or.inr (Or.inr ⟨hcov, hj⟩)
      · -- what a piece behind it lost, the piece has itself
        obtain ⟨q, hq, hlo, -⟩ := hcov
        have hstart := hge q hq
        rcases hp ⟨hstart.trans hlo, by omega⟩ with hcov | hcov
        · exact Or.inl hcov
        · exact Or.inr (Or.inl hcov)
    · rcases hp hcov with hcov | hcov
      · exact Or.inl hcov
      · exact Or.inr (Or.inl hcov)

end

end OvsDatapath.Lib
