import Mathlib.Tactic

/-!
# Triples for computations with a state and failures

An `Action σ ε α` reads and writes a state `σ` and either returns an `α` or stops with a failure
`ε`, keeping the state it had reached. `Triple P x Q E` says: started in a state that satisfies `P`,
the computation `x` ends in one that satisfies `Q` if it returns, and `E` if it fails. Unlike a
partial-correctness triple it says something about failing computations too, so that a property
proved with `E` holds of a computation that has been cut short.

The rules are one for each way to build a computation. `Keeps P x Q` is the case where returning and
failing end alike.
-/

namespace OvsDatapath.Lib

variable {σ ε α β : Type}

/-- A computation with a state, which survives failure. -/
abbrev Effect (σ ε α : Type) := ExceptT ε (StateM σ) α

/-- Run a computation. -/
def Effect.exec (x : Effect σ ε α) (s : σ) : Except ε α × σ := StateT.run (ExceptT.run x) s

/-- Run a computation; after a failure clean up, and fail all the same. -/
def Effect.onError (x : Effect σ ε α) (clean : Effect σ ε PUnit) : Effect σ ε α :=
  tryCatch x fun e => do
    clean
    throw e

/-- From `P`, the computation returns in `Q` or fails in `E`. -/
def Triple (P : σ → Prop) (x : Effect σ ε α) (Q : α → σ → Prop) (E : σ → Prop) : Prop :=
  ∀ s, P s →
    match x.exec s with
    | (.ok a, s') => Q a s'
    | (.error _, s') => E s'

variable {P P' E E' : σ → Prop} {Q Q' : α → σ → Prop} {R : β → σ → Prop} {x : Effect σ ε α}
variable {f : α → Effect σ ε β} {s : σ} {a : α}

@[simp] theorem exec_pure (a : α) (s : σ) :
    Effect.exec (pure a : Effect σ ε α) s = (.ok a, s) := rfl

@[simp] theorem exec_throw (e : ε) (s : σ) :
    Effect.exec (throw e : Effect σ ε α) s = (.error e, s) := rfl

@[simp] theorem exec_get (s : σ) : Effect.exec (get : Effect σ ε σ) s = (.ok s, s) := rfl

@[simp] theorem exec_set (s s' : σ) :
    Effect.exec (set s' : Effect σ ε PUnit) s = (.ok ⟨⟩, s') := rfl

@[simp] theorem exec_modify (g : σ → σ) (s : σ) :
    Effect.exec (modify g : Effect σ ε PUnit) s = (.ok ⟨⟩, g s) := rfl

/-- The second part of a sequence starts where the first one has returned. -/
theorem exec_bind (x : Effect σ ε α) (f : α → Effect σ ε β) (s : σ) :
    Effect.exec (x >>= f) s =
      match x.exec s with
      | (.ok a, s') => (f a).exec s'
      | (.error e, s') => (.error e, s') := by
  show StateT.run (ExceptT.run (x >>= f)) s = _
  rw [ExceptT.run_bind, StateT.run_bind]
  rcases hx : x.exec s with ⟨r, s'⟩
  have hx' : StateT.run (ExceptT.run x) s = (r, s') := hx
  rw [hx']
  cases r <;> rfl

/-- A sequence returns if both parts do. -/
theorem exec_bind_ok {b : β} {s' : σ} :
    Effect.exec (x >>= f) s = (.ok b, s') ↔
      ∃ a mid, x.exec s = (.ok a, mid) ∧ (f a).exec mid = (.ok b, s') := by
  rw [exec_bind]
  rcases x.exec s with ⟨e | a, mid⟩
  · constructor
    · intro h
      cases (Prod.mk.inj h).1
    · rintro ⟨a, mid', h, -⟩
      cases (Prod.mk.inj h).1
  · constructor
    · exact fun h => ⟨a, mid, rfl, h⟩
    · rintro ⟨a', mid', h, hf⟩
      obtain ⟨ha, rfl⟩ := Prod.mk.inj h
      cases ha
      exact hf

theorem exec_lift (x : Except ε α) (s : σ) : Effect.exec (liftM x : Effect σ ε α) s = (x, s) := rfl

theorem exec_onError (x : Effect σ ε α) (g : σ → σ) (s : σ) :
    Effect.exec (x.onError (modify g)) s =
      match x.exec s with
      | (.ok a, s') => (.ok a, s')
      | (.error e, s') => (.error e, g s') := by
  show StateT.run (ExceptT.run (ExceptT.tryCatch x _)) s = _
  unfold ExceptT.tryCatch
  show StateT.run (x.run >>= _) s = _
  rw [StateT.run_bind]
  rcases hx : x.exec s with ⟨r, s'⟩
  have hx' : StateT.run (ExceptT.run x) s = (r, s') := hx
  rw [hx']
  cases r <;> rfl

theorem Triple.pure (h : ∀ s, P s → Q a s) : Triple P (pure a : Effect σ ε α) Q E := h

theorem Triple.throw {e : ε} (h : ∀ s, P s → E s) : Triple P (throw e : Effect σ ε α) Q E := h

theorem Triple.bind (hx : Triple P x Q E) (hf : ∀ a, Triple (Q a) (f a) R E) :
    Triple P (x >>= f) R E := by
  intro s hs
  rw [exec_bind]
  have := hx s hs
  rcases h : x.exec s with ⟨_ | a, s'⟩
  · rw [h] at this
    exact this
  · rw [h] at this
    exact hf a s' this

theorem Triple.get_bind {f : σ → Effect σ ε α} (h : ∀ s, P s → Triple (· = s) (f s) Q E) :
    Triple P (get >>= f) Q E := by
  intro s hs
  rw [exec_bind, exec_get]
  exact h s hs s rfl

theorem Triple.modify {g : σ → σ} {Q : PUnit → σ → Prop} (h : ∀ s, P s → Q ⟨⟩ (g s)) :
    Triple P (modify g : Effect σ ε PUnit) Q E := h

theorem Triple.conseq (hx : Triple P' x Q' E') (hP : ∀ s, P s → P' s)
    (hQ : ∀ a s, Q' a s → Q a s) (hE : ∀ s, E' s → E s) : Triple P x Q E := by
  intro s hs
  have := hx s (hP s hs)
  rcases h : x.exec s with ⟨_ | a, s'⟩
  · rw [h] at this
    exact hE s' this
  · rw [h] at this
    exact hQ a s' this

/-! ## Returning and failing alike -/

/-- From `P`, the computation ends in `Q`, whether it returns or fails. -/
def Keeps (P : σ → Prop) (x : Effect σ ε α) (Q : σ → Prop) : Prop := Triple P x (fun _ => Q) Q

theorem Keeps.exec {Q : σ → Prop} (h : Keeps P x Q) (hs : P s) : Q (x.exec s).2 := by
  have := h s hs
  rcases hx : x.exec s with ⟨_ | a, s'⟩
  · rw [hx] at this
    exact this
  · rw [hx] at this
    exact this

/-- The final states are related to the initial ones. -/
def Moves (r : σ → σ → Prop) (x : Effect σ ε α) : Prop := ∀ s, r s (x.exec s).2

section Moves

variable {r : σ → σ → Prop}

theorem Moves.of_exec {s' : σ} {res : Except ε α} (h : Moves r x) (hx : x.exec s = (res, s')) : r s s' := by
  have hmoved := h s
  rwa [hx] at hmoved

theorem Moves.keeps {Q : σ → Prop} (h : Moves r x) (hQ : ∀ s s', r s s' → P s → Q s') :
    Keeps P x Q := by
  intro s hs
  have hmoved := h s
  rcases hx : x.exec s with ⟨_ | a, s'⟩
  · rw [hx] at hmoved
    exact hQ s s' hmoved hs
  · rw [hx] at hmoved
    exact hQ s s' hmoved hs

theorem Moves.modify {g : σ → σ} (h : ∀ s, r s (g s)) :
    Moves r (modify g : Effect σ ε PUnit) := h

variable [IsPreorder σ r]

theorem Moves.pure (a : α) : Moves r (pure a : Effect σ ε α) := fun s => refl_of r s

theorem Moves.throw (e : ε) : Moves r (throw e : Effect σ ε α) := fun s => refl_of r s

theorem Moves.bind (hx : Moves r x) (hf : ∀ a, Moves r (f a)) : Moves r (x >>= f) := by
  intro s
  have hmoved := hx s
  rw [exec_bind]
  rcases h : x.exec s with ⟨_ | a, s'⟩
  · rw [h] at hmoved
    exact hmoved
  · rw [h] at hmoved
    exact trans_of r hmoved (hf a s')

theorem Moves.get : Moves r (get : Effect σ ε σ) := fun s => refl_of r s

end Moves

end OvsDatapath.Lib
