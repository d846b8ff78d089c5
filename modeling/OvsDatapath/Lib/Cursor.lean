import OvsDatapath.Lib.Fault

/-!
# Listing in several messages

A list of objects is sent in several messages. A call fills one message with as many of the remaining
objects as fit, and leaves a cursor from which the next call goes on. The calls end with an empty message.

`Resumes call rest` says that a call does so, where `rest` reads off the cursor what remains. Then nothing
is left out and nothing is listed twice, wherever the messages happen to be full (`Resumes.lists`).
-/

namespace OvsDatapath.Lib

variable {α κ ε : Type}

/-- Whether an object fits into a message behind those that are in it. -/
abbrev Room (α : Type) := List α → α → Bool

/-- The message can hold an object. -/
def Room.Roomy (fits : Room α) : Prop := ∀ a, fits [] a = true

/-- As many objects as fit behind those of the message, and what remains. -/
def fill (fits : Room α) : List α → List α → List α × List α
  | msg, [] => (msg, [])
  | msg, a :: rest => if fits msg a then fill fits (msg ++ [a]) rest else (msg, a :: rest)

/-- Objects move from the front of the list to the end of the message. -/
theorem fill_append (fits : Room α) (msg l : List α) :
    ∃ sent, (fill fits msg l).1 = msg ++ sent ∧ sent ++ (fill fits msg l).2 = l := by
  induction l generalizing msg with
  | nil => exact ⟨[], (List.append_nil msg).symm, rfl⟩
  | cons a rest ih =>
      rw [fill]
      split_ifs with hfits
      · obtain ⟨sent, hmsg, hrest⟩ := ih (msg ++ [a])
        refine ⟨a :: sent, ?_, by rw [List.cons_append, hrest]⟩
        rw [hmsg, List.append_assoc]
        rfl
      · exact ⟨[], (List.append_nil msg).symm, rfl⟩

/-- Two lists are sent one after the other: the second one gets its turn when nothing remains of the first. -/
theorem fill_of_append (fits : Room α) (msg l l' : List α) :
    fill fits msg (l ++ l') =
      if (fill fits msg l).2 = [] then fill fits (fill fits msg l).1 l'
      else ((fill fits msg l).1, (fill fits msg l).2 ++ l') := by
  induction l generalizing msg with
  | nil => simp [fill]
  | cons a rest ih =>
      rw [List.cons_append, fill, fill]
      by_cases hfits : fits msg a = true
      · rw [if_pos hfits, if_pos hfits]
        exact ih (msg ++ [a])
      · rw [if_neg hfits, if_neg hfits, if_neg (List.cons_ne_nil a rest)]
        rfl

/-- An object that is passed over, for a cursor that lies behind it. -/
theorem drop_cons_sub {a : α} {l : List α} {i j : Nat} (h : j < i) :
    (a :: l).drop (i - j) = l.drop (i - (j + 1)) := by
  rw [show i - j = i - (j + 1) + 1 by omega, List.drop_succ_cons]

theorem fill_nil_append (fits : Room α) (l : List α) : (fill fits [] l).1 ++ (fill fits [] l).2 = l := by
  obtain ⟨sent, hmsg, hrest⟩ := fill_append fits [] l
  rw [hmsg]
  exact hrest

/-- A message that can hold an object gets one, if there is one. -/
theorem Room.Roomy.fill_ne_nil {fits : Room α} (h : fits.Roomy) {l : List α} (hl : l ≠ []) :
    (fill fits [] l).1 ≠ [] := by
  obtain ⟨a, rest, rfl⟩ := List.exists_cons_of_ne_nil hl
  rw [fill, if_pos (h a)]
  obtain ⟨sent, hmsg, -⟩ := fill_append fits ([] ++ [a]) rest
  rw [hmsg]
  exact List.append_ne_nil_of_left_ne_nil (List.cons_ne_nil a []) sent

/-- A call sends what fits of what remains. -/
def Resumes (call : Room α → κ → Except ε (List α × κ)) (rest : κ → List α) : Prop :=
  ∀ fits c, ∃ c', call fits c = .ok ((fill fits [] (rest c)).1, c') ∧ rest c' = (fill fits [] (rest c)).2

/-- The messages of some calls, one after the other. -/
def messages (call : Room α → κ → Except ε (List α × κ)) : List (Room α) → κ → Except ε (List (List α))
  | [], _ => .ok []
  | fits :: more, c => do
      let (msg, c) ← call fits c
      let msgs ← messages call more c
      .ok (msg :: msgs)

/-- **The messages list the objects**: whatever room each of them has, one of them is empty at last, and
the ones before it are the list, cut into pieces. -/
def Lists (call : Room α → κ → Except ε (List α × κ)) (c : κ) (l : List α) : Prop :=
  ∀ fits : Nat → Room α, (∀ k, (fits k).Roomy) →
    ∃ msgs, messages call ((List.range (msgs.length + 1)).map fits) c = .ok (msgs ++ [[]]) ∧
      [] ∉ msgs ∧ msgs.flatten = l

/-- **A call that resumes lists everything exactly once.** -/
theorem Resumes.lists {call : Room α → κ → Except ε (List α × κ)} {rest : κ → List α}
    (h : Resumes call rest) (c : κ) : Lists call c (rest c) := by
  intro fits hroomy
  -- every message takes something away from the rest
  induction hlen : (rest c).length using Nat.strongRecOn generalizing c fits with
  | _ n ih =>
      subst hlen
      obtain ⟨c', hcall, hrest⟩ := h (fits 0) c
      by_cases hnil : rest c = []
      · rw [hnil] at hcall ⊢
        refine ⟨[], ?_, List.not_mem_nil, rfl⟩
        show messages call [fits 0] c = .ok [[]]
        rw [messages, hcall]
        rfl
      · have hsome := (hroomy 0).fill_ne_nil hnil
        have happend := fill_nil_append (fits 0) (rest c)
        rw [← hrest] at happend
        have hless : (rest c').length < (rest c).length := by
          rw [← happend, List.length_append]
          have := List.length_pos_of_ne_nil hsome
          omega
        obtain ⟨msgs, hmsgs, hnonempty, hflatten⟩ :=
          ih _ hless c' (fun k => fits (k + 1)) (fun k => hroomy (k + 1)) rfl
        refine ⟨(fill (fits 0) [] (rest c)).1 :: msgs, ?_, ?_, ?_⟩
        · rw [List.length_cons, List.range_succ_eq_map, List.map_cons, List.map_map, messages, hcall]
          show messages call ((List.range (msgs.length + 1)).map fun k => fits (k + 1)) c' >>= _ = _
          rw [hmsgs]
          rfl
        · rw [List.mem_cons, not_or]
          exact ⟨hsome.symm, hnonempty⟩
        · rw [List.flatten_cons, hflatten, happend]

/-! ## Buckets -/

/-- What remains of some buckets, from a position in one of them on. -/
def restFrom (bucket : Nat → List α) (n i skip : Nat) : List α :=
  if i < n then (bucket i).drop skip ++ restFrom bucket n (i + 1) 0 else []
termination_by n - i

theorem restFrom_of_lt (bucket : Nat → List α) {n i : Nat} (h : i < n) (skip : Nat) :
    restFrom bucket n i skip = (bucket i).drop skip ++ restFrom bucket n (i + 1) 0 := by
  rw [restFrom, if_pos h]

theorem restFrom_of_ge (bucket : Nat → List α) {n i : Nat} (h : n ≤ i) (skip : Nat) :
    restFrom bucket n i skip = [] := by
  rw [restFrom, if_neg (Nat.not_lt.mpr h)]

/-- In the beginning everything remains. -/
theorem restFrom_zero (bucket : Nat → List α) (n : Nat) : restFrom bucket n 0 0 = (List.range n).flatMap bucket := by
  have hstart : ∀ k i, i + k = n → restFrom bucket n i 0 = (List.range' i k).flatMap bucket := by
    intro k
    induction k with
    | zero =>
        intro i hi
        exact restFrom_of_ge bucket (by omega) 0
    | succ k ih =>
        intro i hi
        rw [restFrom_of_lt bucket (by omega), ih (i + 1) (by omega), List.range'_succ, List.flatMap_cons,
          List.drop_zero]
  rw [hstart n 0 (Nat.zero_add n), List.range_eq_range']

/-- Never does more remain than in the beginning. -/
theorem restFrom_length_le (bucket : Nat → List α) (n i skip : Nat) :
    (restFrom bucket n i skip).length ≤ ((List.range n).flatMap bucket).length := by
  have hskip : (restFrom bucket n i skip).length ≤ (restFrom bucket n i 0).length := by
    by_cases hi : i < n
    · rw [restFrom_of_lt bucket hi, restFrom_of_lt bucket hi, List.length_append, List.length_append,
        List.length_drop,
        List.length_drop]
      omega
    · rw [restFrom_of_ge bucket (Nat.not_lt.mp hi)]
      exact Nat.zero_le _
  refine le_trans hskip ?_
  clear hskip
  rw [← restFrom_zero]
  induction i with
  | zero => exact le_rfl
  | succ i ih =>
      refine le_trans ?_ ih
      by_cases hi : i < n
      · rw [restFrom_of_lt bucket hi 0, List.length_append]
        exact Nat.le_add_left ..
      · rw [restFrom_of_ge bucket (by omega)]
        exact Nat.zero_le _

end OvsDatapath.Lib
