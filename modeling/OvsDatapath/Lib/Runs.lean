import Mathlib.Tactic

/-!
# Runs of a step function that may fail

A stateful program is a step function `σ → ο → Except ε (ρ × σ)`: from a state and an operation
it either stops with a fault or answers `ρ` and moves on. Two predicates describe a whole run.

* `RunHolds step good s ops` — no step of the run faults, and every step is `good` (a relation
  between the state before, the operation, the answer and the state after).
* `RunMeets step cond s ops` — every operation meets `cond` in the state it is applied to.

When `cond` says exactly what makes one step from an invariant state good, the two agree on whole
runs (`runHolds_iff_runMeets`). This is the induction that every run theorem of the development
goes through: the user supplies one step lemma and one preservation lemma.
-/

namespace OvsDatapath.Lib

variable {σ ο ρ ε : Type}

/-- No step of the run faults and every step is `good`. -/
def RunHolds (step : σ → ο → Except ε (ρ × σ)) (good : σ → ο → ρ → σ → Prop) : σ → List ο → Prop
  | _, [] => True
  | s, op :: ops => ∃ r s', step s op = .ok (r, s') ∧ good s op r s' ∧ RunHolds step good s' ops

/-- Every operation meets `cond` in the state that the run applies it to. -/
def RunMeets (step : σ → ο → Except ε (ρ × σ)) (cond : σ → ο → Prop) : σ → List ο → Prop
  | _, [] => True
  | s, op :: ops => cond s op ∧ ∀ r s', step s op = .ok (r, s') → RunMeets step cond s' ops

variable {step : σ → ο → Except ε (ρ × σ)} {good : σ → ο → ρ → σ → Prop}
variable {allowed cond : σ → ο → Prop} {inv : σ → Prop}

variable (allowed inv) in
/-- **Runs decide step by step.** If, in every state that satisfies the invariant, an allowed step
is good exactly when it meets `cond`, and good steps keep the invariant, then a run of allowed
steps is good throughout exactly when all of its steps meet `cond`. -/
theorem runHolds_iff_runMeets
    (hstep : ∀ s op, inv s → allowed s op →
      ((∃ r s', step s op = .ok (r, s') ∧ good s op r s') ↔ cond s op))
    (hinv : ∀ s op r s', inv s → allowed s op → step s op = .ok (r, s') → good s op r s' → inv s')
    {s : σ} {ops : List ο} (hs : inv s) (hops : RunMeets step allowed s ops) :
    RunHolds step good s ops ↔ RunMeets step cond s ops := by
  induction ops generalizing s with
  | nil => exact Iff.rfl
  | cons op ops ih =>
      obtain ⟨hallow, hrest⟩ := hops
      constructor
      · rintro ⟨r, s', hok, hgood, hrun⟩
        refine ⟨(hstep s op hs hallow).mp ⟨r, s', hok, hgood⟩, ?_⟩
        intro r₂ s₂ hok₂
        obtain ⟨-, rfl⟩ : r = r₂ ∧ s' = s₂ := by simpa [hok] using hok₂
        exact (ih (hinv s op r s' hs hallow hok hgood) (hrest r s' hok)).mp hrun
      · rintro ⟨hcond, hmeets⟩
        obtain ⟨r, s', hok, hgood⟩ := (hstep s op hs hallow).mpr hcond
        exact ⟨r, s', hok, hgood,
          (ih (hinv s op r s' hs hallow hok hgood) (hrest r s' hok)).mpr (hmeets r s' hok)⟩

/-- If every allowed step from an invariant state succeeds, is good and keeps the invariant, a run of
allowed steps is good throughout. -/
theorem runHolds_of_runMeets
    (hstep : ∀ s op, inv s → allowed s op → ∃ r s', step s op = .ok (r, s') ∧ good s op r s' ∧ inv s')
    {s : σ} {ops : List ο} (hs : inv s) (hops : RunMeets step allowed s ops) :
    RunHolds step good s ops := by
  induction ops generalizing s with
  | nil => exact trivial
  | cons op ops ih =>
      obtain ⟨hallow, hrest⟩ := hops
      obtain ⟨r, s', hok, hgood, hs'⟩ := hstep s op hs hallow
      exact ⟨r, s', hok, hgood, ih hs' (hrest r s' hok)⟩

variable (inv) in
/-- When what makes a step good does not depend on the state, a run is good exactly when all of its
operations are. -/
theorem runHolds_iff_forall {p : ο → Prop}
    (hstep : ∀ s op, inv s → ((∃ r s', step s op = .ok (r, s') ∧ good s op r s') ↔ p op))
    (hinv : ∀ s op r s', inv s → step s op = .ok (r, s') → good s op r s' → inv s')
    {s : σ} {ops : List ο} (hs : inv s) : RunHolds step good s ops ↔ ∀ op ∈ ops, p op := by
  induction ops generalizing s with
  | nil => simp [RunHolds]
  | cons op ops ih =>
      rw [List.forall_mem_cons, ← hstep s op hs]
      constructor
      · rintro ⟨r, s', hok, hgood, hrest⟩
        exact ⟨⟨r, s', hok, hgood⟩, (ih (hinv s op r s' hs hok hgood)).mp hrest⟩
      · rintro ⟨⟨r, s', hok, hgood⟩, hall⟩
        exact ⟨r, s', hok, hgood, (ih (hinv s op r s' hs hok hgood)).mpr hall⟩

/-- The rest of a run, after a step whose result is known. -/
theorem RunHolds.tail {s s' : σ} {op : ο} {ops : List ο} {r : ρ}
    (hrun : RunHolds step good s (op :: ops)) (hok : step s op = .ok (r, s')) :
    good s op r s' ∧ RunHolds step good s' ops := by
  obtain ⟨r₁, s₁, hok₁, hgood, hrest⟩ := hrun
  cases hok.symm.trans hok₁
  exact ⟨hgood, hrest⟩

/-- What all operations of a run meet is met by those of its beginning. -/
theorem RunMeets.of_append {s : σ} {ops more : List ο} (h : RunMeets step cond s (ops ++ more)) :
    RunMeets step cond s ops := by
  induction ops generalizing s with
  | nil => exact trivial
  | cons op ops ih => exact ⟨h.1, fun r s' hok => ih (h.2 r s' hok)⟩

/-- The state that a run ends in, or the fault that stopped it. -/
def runAll (step : σ → ο → Except ε (ρ × σ)) : σ → List ο → Except ε σ
  | s, [] => .ok s
  | s, op :: ops =>
      match step s op with
      | .ok (_, s') => runAll step s' ops
      | .error e => .error e

theorem runAll_cons_ok {s s' : σ} {op : ο} {ops : List ο} {r : ρ} (h : step s op = .ok (r, s')) :
    runAll step s (op :: ops) = runAll step s' ops := by
  simp only [runAll, h]

variable (allowed inv) in
/-- An invariant that every allowed step keeps holds in the state that a run of allowed steps ends
in. -/
theorem inv_of_runAll
    (hstep : ∀ s op, inv s → allowed s op → ∃ r s', step s op = .ok (r, s') ∧ inv s')
    {s s' : σ} {ops : List ο} (hs : inv s) (hops : RunMeets step allowed s ops)
    (hrun : runAll step s ops = .ok s') : inv s' := by
  induction ops generalizing s with
  | nil => exact Except.ok.inj hrun ▸ hs
  | cons op ops ih =>
      obtain ⟨hallow, hrest⟩ := hops
      obtain ⟨r, s₁, hok, hs₁⟩ := hstep s op hs hallow
      rw [runAll_cons_ok hok] at hrun
      exact ih hs₁ (hrest r s₁ hok) hrun

/-- A condition that does not look at the state is met by a run that never faults exactly when
every operation satisfies it. -/
theorem runMeets_const_of_forall {p : ο → Prop} {s : σ} {ops : List ο} (h : ∀ op ∈ ops, p op) :
    RunMeets step (fun _ op => p op) s ops := by
  induction ops generalizing s with
  | nil => exact trivial
  | cons op ops ih =>
      exact ⟨h op (List.mem_cons_self ..), fun _ s' _ => ih fun o ho => h o (List.mem_cons_of_mem _ ho)⟩

end OvsDatapath.Lib
