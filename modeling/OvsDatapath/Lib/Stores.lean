import Mathlib.Tactic

/-!
# Memory that is partly overwritten

A piece of code that fills a buffer by stores and never reads what was in it before is the list of
its stores. `stored l i` is the value that they leave at a position, if any of them reaches it;
`overlay` puts such values over the old contents of the buffer. Whether a test of the buffer, position
by position, succeeds for all old contents or for none: `overlay_all_pass_iff` and
`overlay_none_passes_iff`.
-/

namespace OvsDatapath.Lib

variable {ι β : Type}

/-- New values over old ones. -/
def overlay (new : ι → Option β) (old : ι → β) : ι → β := fun i => (new i).getD (old i)

theorem overlay_some {new : ι → Option β} {old : ι → β} {i : ι} {v : β} (h : new i = some v) :
    overlay new old i = v := by
  rw [overlay, h]
  rfl

theorem overlay_none {new : ι → Option β} {old : ι → β} {i : ι} (h : new i = none) :
    overlay new old i = old i := by
  rw [overlay, h]
  rfl

/-- A test that is the same for all old values fails for all of them or succeeds for all. -/
theorem agree_iff_forall_not_or_forall {α : Type} {p : α → Prop} :
    (∀ a a', p a ↔ p a') ↔ (∀ a, ¬ p a) ∨ ∀ a, p a := by
  constructor
  · intro hagree
    by_cases h : ∃ a, p a
    · obtain ⟨a, ha⟩ := h
      exact .inr fun a' => (hagree a a').mp ha
    · exact .inl (not_exists.mp h)
  · rintro (hnone | hall) a a'
    · exact iff_of_false (hnone a) (hnone a')
    · exact iff_of_true (hall a) (hall a')

/-! ## Values that depend on the class of the old ones

Sometimes a few of the old values are read after all, to decide what to write. `cls` is the decision,
`new c` is what is written in a class, and the decision depends on positions `d` that are written in
neither class.
-/

section Classes

variable {cls : (ι → β) → Bool} {new : Bool → ι → Option β} {test : ι → β → Prop} {d : ι → Prop}

/-- What a class writes fails the test. -/
def Rejects (new : Bool → ι → Option β) (test : ι → β → Prop) (c : Bool) : Prop :=
  ∃ i v, new c i = some v ∧ ¬ test i v

/-- The test does not look at what a class leaves. -/
def Ignores (new : Bool → ι → Option β) (test : ι → β → Prop) (c : Bool) : Prop :=
  ∀ i, new c i = none → ∀ v, test i v

/-- Old values that pass the test where the decision is read are of the class. -/
def Wants (cls : (ι → β) → Bool) (d : ι → Prop) (test : ι → β → Prop) (c : Bool) : Prop :=
  ∀ old, (∀ i, d i → test i (old i)) → cls old = c

/-- No old values pass exactly if each class writes something wrong, or is ruled out. -/
theorem overlay_none_passes_iff (hsat : ∀ i, ∃ v, test i v)
    (hcls : ∀ old old', (∀ i, d i → old i = old' i) → cls old = cls old')
    (hd : ∀ c i, d i → new c i = none) :
    (∀ old, ¬ ∀ i, test i (overlay (new (cls old)) old i)) ↔
      ∀ c, Rejects new test c ∨ Wants cls d test (!c) := by
  constructor
  · intro hnone c
    by_contra hneither
    obtain ⟨hpass, hwants⟩ := not_or.mp hneither
    unfold Wants at hwants
    push Not at hwants
    obtain ⟨old, hold, hclass⟩ := hwants
    -- keep the values that decide, and put good ones everywhere else
    choose good hgood using hsat
    classical
    have hmerged : cls (fun i => if d i then old i else good i) = c := by
      rw [hcls _ old fun i hi => if_pos hi]
      exact Bool.not_eq_not.mp hclass
    refine hnone (fun i => if d i then old i else good i) fun i => ?_
    rw [hmerged]
    cases hi : new c i with
    | some v =>
        rw [overlay_some hi]
        by_contra hfail
        exact hpass ⟨i, v, hi, hfail⟩
    | none =>
        rw [overlay_none hi]
        split
        case isTrue hdi => exact hold i hdi
        case isFalse => exact hgood i
  · intro hclasses old hall
    rcases hclasses (cls old) with ⟨i, v, hi, hfail⟩ | hwants
    · have htest := hall i
      rw [overlay_some hi] at htest
      exact hfail htest
    · have hclass := hwants old fun i hi => by
        have htest := hall i
        rwa [overlay_none (hd _ i hi)] at htest
      exact (Bool.eq_not_self _).mp hclass

/-- All old values pass exactly if every class that there is writes the right values and leaves
nothing that is looked at. -/
theorem overlay_all_pass_iff (hcls : ∀ old old', (∀ i, d i → old i = old' i) → cls old = cls old')
    (hd : ∀ c i, d i → new c i = none) :
    (∀ old, ∀ i, test i (overlay (new (cls old)) old i)) ↔
      ∀ c, (∃ old, cls old = c) → ¬ Rejects new test c ∧ Ignores new test c := by
  constructor
  · rintro hall c ⟨old, rfl⟩
    constructor
    · rintro ⟨i, v, hi, hfail⟩
      have htest := hall old i
      rw [overlay_some hi] at htest
      exact hfail htest
    · intro i hi v
      classical
      have htest := hall (Function.update old i v) i
      by_cases hdi : d i
      · rwa [overlay_none (hd _ i hdi), Function.update_self] at htest
      · have hclass : cls (Function.update old i v) = cls old :=
          hcls _ _ fun j hj => Function.update_of_ne (fun heq : j = i => hdi (heq ▸ hj)) ..
        rwa [hclass, overlay_none hi, Function.update_self] at htest
  · intro hclasses old i
    obtain ⟨hpass, hignores⟩ := hclasses (cls old) ⟨old, rfl⟩
    cases hi : new (cls old) i with
    | some v =>
        rw [overlay_some hi]
        by_contra hfail
        exact hpass ⟨i, v, hi, hfail⟩
    | none =>
        rw [overlay_none hi]
        exact hignores i hi _

end Classes

/-! ## Stores -/

/-- Consecutive values, stored from an offset on. -/
structure Store (β : Type) where
  off : Nat
  vals : List β

/-- The value that a store leaves at a position. -/
def Store.at (s : Store β) (i : Nat) : Option β := if s.off ≤ i then s.vals[i - s.off]? else none

theorem Store.at_eq_none_iff (s : Store β) (i : Nat) :
    s.at i = none ↔ ¬ (s.off ≤ i ∧ i < s.off + s.vals.length) := by
  rw [Store.at]
  split_ifs with h
  · rw [List.getElem?_eq_none_iff]
    omega
  · exact iff_of_true rfl fun hcovers => h hcovers.1

/-- Some store reaches the position. -/
def Reaches : List (Store β) → Nat → Prop
  | [], _ => False
  | s :: l, i => (s.off ≤ i ∧ i < s.off + s.vals.length) ∨ Reaches l i

@[simp] theorem reaches_nil (i : Nat) : Reaches ([] : List (Store β)) i ↔ False := Iff.rfl

@[simp] theorem reaches_cons (s : Store β) (l : List (Store β)) (i : Nat) :
    Reaches (s :: l) i ↔ (s.off ≤ i ∧ i < s.off + s.vals.length) ∨ Reaches l i := Iff.rfl

@[simp] theorem reaches_append (l l' : List (Store β)) (i : Nat) :
    Reaches (l ++ l') i ↔ Reaches l i ∨ Reaches l' i := by
  induction l with
  | nil => simp
  | cons s l ih => simp [ih, or_assoc]

theorem reaches_flatMap {α : Type} (f : α → List (Store β)) (l : List α) (i : Nat) :
    Reaches (l.flatMap f) i ↔ ∃ a ∈ l, Reaches (f a) i := by
  induction l with
  | nil => simp
  | cons a l ih => simp [ih]

/-- The values that a list of stores leaves, the last store at a position deciding. -/
def stored : List (Store β) → Nat → Option β
  | [], _ => none
  | s :: l, i => (stored l i).or (s.at i)

@[simp] theorem stored_nil (i : Nat) : stored ([] : List (Store β)) i = none := rfl

theorem stored_append (l l' : List (Store β)) (i : Nat) :
    stored (l ++ l') i = (stored l' i).or (stored l i) := by
  induction l with
  | nil => rw [List.nil_append, stored_nil, Option.or_none]
  | cons s l ih => rw [List.cons_append, stored, ih, stored, Option.or_assoc]

/-- A position without a new value is one that no store reaches. -/
theorem stored_eq_none_iff (l : List (Store β)) (i : Nat) : stored l i = none ↔ ¬ Reaches l i := by
  induction l with
  | nil => simp
  | cons s l ih =>
      rw [stored, Option.or_eq_none_iff, ih, s.at_eq_none_iff, reaches_cons, not_or]
      exact and_comm

theorem stored_isSome_iff (l : List (Store β)) (i : Nat) : (stored l i).isSome ↔ Reaches l i := by
  rw [Option.isSome_iff_ne_none, Ne, stored_eq_none_iff, not_not]

theorem stored_append_left {l l' : List (Store β)} {i : Nat} (h : ¬ Reaches l' i) :
    stored (l ++ l') i = stored l i := by
  rw [stored_append, (stored_eq_none_iff l' i).mpr h, Option.none_or]

/-- A new value comes from one of the stores. -/
theorem stored_eq_some {l : List (Store β)} {i : Nat} {v : β} (h : stored l i = some v) :
    ∃ s ∈ l, s.at i = some v := by
  induction l with
  | nil => cases h
  | cons s l ih =>
      obtain hin | ⟨-, hs⟩ := Option.or_eq_some_iff.mp h
      · obtain ⟨s', hmem, hs'⟩ := ih hin
        exact ⟨s', List.mem_cons_of_mem s hmem, hs'⟩
      · exact ⟨s, List.mem_cons_self, hs⟩

theorem reaches_of_mem {l : List (Store β)} {s : Store β} {i : Nat} {v : β} (hs : s ∈ l)
    (h : s.at i = some v) : Reaches l i := by
  induction l with
  | nil => cases hs
  | cons s' l ih =>
      obtain rfl | hs := List.mem_cons.mp hs
      · left
        by_contra hnot
        rw [(s.at_eq_none_iff i).mpr hnot] at h
        cases h
      · exact .inr (ih hs)

/-- A value that no later store reaches. -/
theorem stored_mid {l m r : List (Store β)} {i : Nat} {v : β} (h : stored m i = some v) (hr : ¬ Reaches r i) :
    stored (l ++ (m ++ r)) i = some v := by
  rw [stored_append, stored_append_left hr, h, Option.some_or]

end OvsDatapath.Lib
