import Mathlib.Tactic

/-!
# Memory faults

What stops a C program that misuses a pointer. A modelled function that can do so returns
`Except MemFault`, and the fault is raised where the offending access stands. A failed assertion
and a loop over a list that does not end within the steps allowed for it are reported the same way,
so a result `.ok` excludes all of them.
-/

namespace OvsDatapath.Lib

inductive MemFault where
  /-- An access through a null pointer. -/
  | nullDeref
  /-- An access to an object that has been freed. -/
  | useAfterFree
  /-- An access past the end of an array. -/
  | outOfBounds
  /-- An access through a pointer that was never set, or was poisoned. -/
  | wildPointer
  /-- An assertion that does not hold. -/
  | bug
  /-- A walk that has not come to its end. -/
  | endless
  deriving DecidableEq, Repr

section Bind

variable {ε α β : Type}

@[simp] theorem ok_bind (a : α) (f : α → Except ε β) : ((.ok a : Except ε α) >>= f) = f a := rfl

@[simp] theorem error_bind (e : ε) (f : α → Except ε β) :
    ((.error e : Except ε α) >>= f) = .error e := rfl

/-- A computation that succeeds has succeeded at its first step. -/
theorem bind_eq_ok {x : Except ε α} {f : α → Except ε β} {b : β} :
    (x >>= f) = .ok b ↔ ∃ a, x = .ok a ∧ f a = .ok b := by
  cases x with
  | error e => simp
  | ok a => simp

/-- A test of the result of a computation that succeeds. -/
theorem toOption_any_iff {x : Except ε α} {p : α → Bool} :
    x.toOption.any p = true ↔ ∃ a, x = .ok a ∧ p a = true := by
  cases x with
  | error e => simp [Except.toOption]
  | ok a => simp [Except.toOption]

end Bind

end OvsDatapath.Lib
