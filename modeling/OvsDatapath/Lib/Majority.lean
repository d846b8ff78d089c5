import Mathlib.Tactic

/-!
# Weighted majority voting

One cell remembers a candidate and a count. A vote for the candidate adds its weight; a vote for
another key is paid from the count, and takes the cell over when it is heavier than what is left.
This is the one-counter majority algorithm with weights, over an arbitrary type of keys.

`Backed votes c` says what the cell knows about the votes it has seen: its count never exceeds the
candidate's true share, it is at least the candidate's excess over everybody else, and no other
key can have an excess at all unless the count is paid for. `Cell.votes_backed` establishes it for
every stream of non-negative votes, and `Backed.holds_majority` is the majority guarantee.
-/

namespace OvsDatapath.Lib.Majority

variable {K : Type} [DecidableEq K]

/-- A candidate with the count that is left to it. -/
structure Cell (K : Type) where
  candidate : K
  count : Int

/-- One vote of weight `v` for `k`. -/
def Cell.vote (c : Cell K) (k : K) (v : Int) : Cell K :=
  if k = c.candidate then { c with count := c.count + v }
  else if c.count < v then { candidate := k, count := v - c.count }
  else { c with count := c.count - v }

/-- A stream of votes, first vote first. -/
def Cell.votes (c : Cell K) (vs : List (K × Int)) : Cell K :=
  vs.foldl (fun c p => c.vote p.1 p.2) c

/-- The weight that `k` received. -/
def share (k : K) (vs : List (K × Int)) : Int :=
  ((vs.filter (fun p => p.1 = k)).map Prod.snd).sum

/-- The weight of all votes. -/
def total (vs : List (K × Int)) : Int := (vs.map Prod.snd).sum

omit [DecidableEq K] in
@[simp] theorem total_nil : total ([] : List (K × Int)) = 0 := rfl

@[simp] theorem share_nil (k : K) : share k [] = 0 := rfl

omit [DecidableEq K] in
@[simp] theorem total_append (vs ws : List (K × Int)) : total (vs ++ ws) = total vs + total ws := by
  simp [total]

@[simp] theorem share_append (k : K) (vs ws : List (K × Int)) :
    share k (vs ++ ws) = share k vs + share k ws := by
  simp [share]

omit [DecidableEq K] in
@[simp] theorem total_cons (p : K × Int) (vs : List (K × Int)) :
    total (p :: vs) = p.2 + total vs := by
  simp [total]

theorem share_cons (k : K) (p : K × Int) (vs : List (K × Int)) :
    share k (p :: vs) = (if p.1 = k then p.2 else 0) + share k vs := by
  unfold share
  by_cases h : p.1 = k <;> simp [h]

theorem share_nonneg (k : K) {vs : List (K × Int)} (h : ∀ p ∈ vs, 0 ≤ p.2) : 0 ≤ share k vs := by
  induction vs with
  | nil => exact le_rfl
  | cons p vs ih =>
      have hp := h p (List.mem_cons_self ..)
      have hvs := ih fun q hq => h q (List.mem_cons_of_mem _ hq)
      rw [share_cons]
      split <;> omega

theorem share_le_total (k : K) {vs : List (K × Int)} (h : ∀ p ∈ vs, 0 ≤ p.2) :
    share k vs ≤ total vs := by
  induction vs with
  | nil => exact le_rfl
  | cons p vs ih =>
      have hp := h p (List.mem_cons_self ..)
      have hvs := ih fun q hq => h q (List.mem_cons_of_mem _ hq)
      rw [share_cons, total_cons]
      split <;> omega

omit [DecidableEq K] in
theorem total_filter_le (p : K × Int → Bool) {vs : List (K × Int)} (h : ∀ q ∈ vs, 0 ≤ q.2) :
    total (vs.filter p) ≤ total vs := by
  induction vs with
  | nil => exact le_rfl
  | cons q vs ih =>
      have hq := h q (List.mem_cons_self ..)
      have hvs := ih fun r hr => h r (List.mem_cons_of_mem _ hr)
      by_cases hp : p q <;> simp only [List.filter_cons, hp, if_true, Bool.false_eq_true, if_false,
        total_cons] <;> omega

/-! ## What a cell knows -/

/-- The cell `c` after the votes `vs`. -/
structure Backed (vs : List (K × Int)) (c : Cell K) : Prop where
  /-- The count is never negative. -/
  nonneg : 0 ≤ c.count
  /-- The candidate really received at least the count. -/
  le_share : c.count ≤ share c.candidate vs
  /-- The candidate keeps at least its excess over all other keys together. -/
  excess_le : 2 * share c.candidate vs - total vs ≤ c.count
  /-- Any other key lacks at least the count to a majority. -/
  others_lack : ∀ k, k ≠ c.candidate → c.count ≤ total vs - 2 * share k vs

/-- Before any vote a cell with count zero is backed, whatever its candidate is. -/
theorem backed_nil (k : K) : Backed [] (Cell.mk k 0) where
  nonneg := le_rfl
  le_share := le_rfl
  excess_le := by simp
  others_lack := by simp

theorem Backed.vote {vs : List (K × Int)} {c : Cell K} (h : Backed vs c)
    (hvs : ∀ p ∈ vs, 0 ≤ p.2) {k : K} {v : Int} (hv : 0 ≤ v) :
    Backed (vs ++ [(k, v)]) (c.vote k v) := by
  obtain ⟨hnn, hle, hex, hoth⟩ := h
  have hshare : ∀ k', share k' [(k, v)] = if k = k' then v else 0 := fun k' => by
    rw [share_cons, share_nil, add_zero]
  unfold Cell.vote
  by_cases hk : k = c.candidate
  · -- the candidate is confirmed
    subst hk
    rw [if_pos rfl]
    refine ⟨?_, ?_, ?_, fun k' hk' => ?_⟩
    · show 0 ≤ c.count + v; omega
    · simp only [share_append, hshare, if_true]; omega
    · simp only [share_append, hshare, if_true, total_append, total_cons, total_nil]; omega
    · have := hoth k' hk'
      simp only [share_append, hshare, if_neg (Ne.symm hk'), total_append, total_cons, total_nil]
      omega
  · rw [if_neg hk]
    have hlack := hoth k hk
    by_cases hgt : c.count < v
    · -- the cell is taken over
      rw [if_pos hgt]
      refine ⟨?_, ?_, ?_, fun k' hk' => ?_⟩
      · show 0 ≤ v - c.count; omega
      · have hnonneg := share_nonneg k hvs
        simp only [share_append, hshare, if_true]; omega
      · simp only [share_append, hshare, if_true, total_append, total_cons, total_nil]; omega
      · simp only [share_append, hshare, if_neg (Ne.symm hk'), total_append, total_cons, total_nil]
        by_cases hc : k' = c.candidate
        · subst hc; omega
        · have := hoth k' hc; omega
    · -- the vote is paid from the count
      rw [if_neg hgt]
      refine ⟨?_, ?_, ?_, fun k' hk' => ?_⟩
      · show 0 ≤ c.count - v; omega
      · simp only [share_append, hshare, if_neg hk]; omega
      · simp only [share_append, hshare, if_neg hk, total_append, total_cons, total_nil]; omega
      · have := hoth k' hk'
        simp only [share_append, hshare, total_append, total_cons, total_nil]
        split <;> omega

/-- **What every stream leaves behind.** After any stream of non-negative votes the cell is backed
by that stream. -/
theorem Cell.votes_backed {c : Cell K} (hc : Backed [] c) {vs : List (K × Int)}
    (hvs : ∀ p ∈ vs, 0 ≤ p.2) : Backed vs (c.votes vs) := by
  induction vs using List.reverseRecOn with
  | nil => exact hc
  | append_singleton vs p ih =>
      have hpre : ∀ q ∈ vs, 0 ≤ q.2 := fun q hq => hvs q (List.mem_append_left _ hq)
      have hp : 0 ≤ p.2 := hvs p (List.mem_append_right _ (List.mem_singleton.mpr rfl))
      have hstep := (ih hpre).vote hpre (k := p.1) hp
      simpa [Cell.votes, List.foldl_append] using hstep

/-- The estimate that a cell gives for a key: its count for the candidate, zero for all others. -/
def Cell.estimate (c : Cell K) (k : K) : Int := if k = c.candidate then c.count else 0

/-- A key is never over-counted. -/
theorem Backed.estimate_le_share {vs : List (K × Int)} {c : Cell K} (h : Backed vs c)
    (hvs : ∀ p ∈ vs, 0 ≤ p.2) (k : K) : c.estimate k ≤ share k vs := by
  unfold Cell.estimate
  split
  · next hk => exact hk ▸ h.le_share
  · exact share_nonneg k hvs

/-- A key keeps its excess over the other keys. -/
theorem Backed.excess_le_estimate {vs : List (K × Int)} {c : Cell K} (h : Backed vs c) (k : K) :
    2 * share k vs - total vs ≤ c.estimate k := by
  unfold Cell.estimate
  split
  · next hk => exact hk ▸ h.excess_le
  · next hk =>
      have hlack := h.others_lack k hk
      have hnn := h.nonneg
      omega

/-- **Majority.** A key with more than half of the weight is the candidate. -/
theorem Backed.holds_majority {vs : List (K × Int)} {c : Cell K} (h : Backed vs c) {k : K}
    (hmaj : total vs < 2 * share k vs) : c.candidate = k := by
  by_contra hne
  have hlack := h.others_lack k (Ne.symm hne)
  have hnn := h.nonneg
  omega

end OvsDatapath.Lib.Majority
