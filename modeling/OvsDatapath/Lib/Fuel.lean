import OvsDatapath.Lib.Hoare

/-!
# Enough fuel

A function that may call itself without a bound takes a number of calls after which it gives up, its
fuel, and so is a family of computations, one for each amount. `Settles P x Q E` says that for the
family `x` the fuel does not matter in the end: from a state in `P`, all amounts from some point on
give the same result, which meets `Q` if the computation returns and `E` if it fails. When `E` does
not allow the failure of a computation that has run out of fuel, this is termination.

The rules are those of triples. `Settles.succ` pays for a call; a proof by induction on whatever
makes the calls come to an end never counts them.
-/

namespace OvsDatapath.Lib

variable {σ ε α β : Type}

/-- What a result is asked to satisfy: `Q` if it has been returned, `E` if it is a failure. -/
def Meets (Q : α → σ → Prop) (E : ε → σ → Prop) : Except ε α × σ → Prop
  | (.ok a, s) => Q a s
  | (.error e, s) => E e s

/-- From `P`, the computation ends in the same way for all large amounts of fuel. -/
def Settles (P : σ → Prop) (x : Nat → Effect σ ε α) (Q : α → σ → Prop) (E : ε → σ → Prop) : Prop :=
  ∀ s, P s → ∃ N out, (∀ fuel, N ≤ fuel → (x fuel).exec s = out) ∧ Meets Q E out

variable {P P' : σ → Prop} {Q Q' : α → σ → Prop} {R : β → σ → Prop} {E E' : ε → σ → Prop}
variable {x : Nat → Effect σ ε α} {f : Nat → α → Effect σ ε β} {y : Effect σ ε α}

/-- A computation without fuel. -/
theorem Settles.const (h : ∀ s, P s → Meets Q E (y.exec s)) : Settles P (fun _ => y) Q E :=
  fun s hs => ⟨0, y.exec s, fun _ _ => rfl, h s hs⟩

theorem Settles.pure {a : α} (h : ∀ s, P s → Q a s) :
    Settles P (fun _ => (pure a : Effect σ ε α)) Q E :=
  Settles.const h

theorem Settles.throw {e : ε} (h : ∀ s, P s → E e s) :
    Settles P (fun _ => (throw e : Effect σ ε α)) Q E :=
  Settles.const h

theorem Settles.modify {g : σ → σ} {Q : PUnit → σ → Prop} (h : ∀ s, P s → Q ⟨⟩ (g s)) :
    Settles P (fun _ => (modify g : Effect σ ε PUnit)) Q E :=
  Settles.const h

theorem Settles.bind (hx : Settles P x Q E) (hf : ∀ a, Settles (Q a) (fun n => f n a) R E) :
    Settles P (fun n => x n >>= f n) R E := by
  intro s hs
  obtain ⟨N, ⟨r, s'⟩, hrun, hmeets⟩ := hx s hs
  cases r with
  | error e =>
      refine ⟨N, (.error e, s'), fun fuel hfuel => ?_, hmeets⟩
      rw [exec_bind, hrun fuel hfuel]
  | ok a =>
      obtain ⟨M, out, hrest, hout⟩ := hf a s' hmeets
      refine ⟨max N M, out, fun fuel hfuel => ?_, hout⟩
      rw [exec_bind, hrun fuel ((le_max_left N M).trans hfuel)]
      exact hrest fuel ((le_max_right N M).trans hfuel)

theorem Settles.get_bind {f : Nat → σ → Effect σ ε α}
    (h : ∀ s, P s → Settles (· = s) (fun n => f n s) Q E) :
    Settles P (fun n => get >>= f n) Q E := by
  intro s hs
  obtain ⟨N, out, hrun, hout⟩ := h s hs s rfl
  refine ⟨N, out, fun fuel hfuel => ?_, hout⟩
  rw [exec_bind, exec_get]
  exact hrun fuel hfuel

/-- One call. -/
theorem Settles.succ (h : Settles P (fun n => x (n + 1)) Q E) : Settles P x Q E := by
  intro s hs
  obtain ⟨N, out, hrun, hout⟩ := h s hs
  refine ⟨N + 1, out, fun fuel hfuel => ?_, hout⟩
  obtain ⟨m, rfl⟩ := Nat.exists_eq_add_of_le' (Nat.le_trans (Nat.le_add_left 1 N) hfuel)
  exact hrun m (Nat.le_of_succ_le_succ hfuel)

theorem Settles.conseq (hx : Settles P' x Q' E') (hP : ∀ s, P s → P' s)
    (hQ : ∀ a s, Q' a s → Q a s) (hE : ∀ e s, E' e s → E e s) : Settles P x Q E := by
  intro s hs
  obtain ⟨N, ⟨r, s'⟩, hrun, hmeets⟩ := hx s (hP s hs)
  refine ⟨N, (r, s'), hrun, ?_⟩
  cases r with
  | ok a => exact hQ a s' hmeets
  | error e => exact hE e s' hmeets

/-- The precondition may be taken one state at a time. -/
theorem Settles.of_forall (h : ∀ s, P s → Settles (· = s) x Q E) : Settles P x Q E :=
  fun s hs => h s hs s rfl

/-- What is known of the results of a computation without fuel may be added. -/
theorem Settles.const_and (hy : Settles P (fun _ => y) Q E)
    (h : ∀ s a s', y.exec s = (.ok a, s') → Q' a s') :
    Settles P (fun _ => y) (fun a s => Q' a s ∧ Q a s) E := by
  intro s hs
  obtain ⟨N, ⟨r, s'⟩, hrun, hmeets⟩ := hy s hs
  refine ⟨N, (r, s'), hrun, ?_⟩
  cases r with
  | ok a => exact ⟨h s a s' (hrun N le_rfl), hmeets⟩
  | error e => exact hmeets

/-- A sequence whose first part also says something about its value alone. -/
theorem Settles.bind_and {good : α → Prop} (hx : Settles P x (fun a s => good a ∧ Q a s) E)
    (hf : ∀ a, good a → Settles (Q a) (fun n => f n a) R E) : Settles P (fun n => x n >>= f n) R E :=
  Settles.bind hx fun a s hs => hf a hs.1 s hs.2

end OvsDatapath.Lib
