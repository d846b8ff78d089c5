import OvsDatapath.Flow.TableRuns

/-!
# The mask cache

`ovs_flow_tbl_lookup_stats` is the lookup of the fast path. A cache of each cpu guesses, from the
hash of the packet, the position of the mask to look under first. Nothing keeps the guesses up to
date: the array of masks changes while its old positions stay in the cache.

They need not be: a guess is where `flow_lookup` starts, and `flowLookup_spec` holds wherever it
starts. So the lookup through the cache answers as `ovs_flow_tbl_lookup` does
(`ovsFlowTblLookupStats_correct`).
-/

namespace OvsDatapath.Flow

open OvsDatapath.Lib OvsDatapath.Lib.Hlist

/-- `MC_HASH_SHIFT`. -/
def mcHashShift : Nat := 8

/-- `MC_HASH_ENTRIES`. -/
def mcHashEntries : Nat := 2 ^ mcHashShift

/-- `MC_HASH_SEGS`. -/
def mcHashSegs : Nat := 32 / mcHashShift

/-- `struct mask_cache_entry`. -/
structure MaskCacheEntry where
  skb_hash : BitVec 32
  mask_index : BitVec 32

/-- The entries of one cpu. -/
abbrev MaskCache := Fin mcHashEntries → MaskCacheEntry

variable (hs : Hashes)

/-- The entry that the low bits of a hash select. -/
def mcIndex (hash : BitVec 32) : Fin mcHashEntries :=
  ⟨(hash &&& BitVec.ofNat 32 (mcHashEntries - 1)).toNat, by
    rw [BitVec.toNat_and]
    exact Nat.lt_of_le_of_lt Nat.and_le_right (by decide)⟩

/-- `flow_lookup` from the position in a cache entry, which it updates. -/
def flowLookupCached (t : FlowTable) (cache : MaskCache) (stack : Nat → SwFlowKey)
    (key : SwFlowKey) (e : Fin mcHashEntries) : Except MemFault (Option Nat × MaskCache) := do
  let (flow, index) ← flowLookup hs t stack key (cache e).mask_index.toNat
  .ok (flow, Function.update cache e { cache e with mask_index := BitVec.ofNat 32 index })

/-- The loop over the segments of a hash: the entry that holds it, or else the entry to replace. -/
def mcFind (cache : MaskCache) (skb_hash : BitVec 32) :
    Nat → BitVec 32 → Option (Fin mcHashEntries) → Except MemFault (Bool × Fin mcHashEntries)
  | 0, _, none => .error .nullDeref
  | 0, _, some ce => .ok (false, ce)
  | seg + 1, hash, ce =>
      let e := mcIndex hash
      if (cache e).skb_hash = skb_hash then .ok (true, e)
      else
        let better := match ce with
          | none => true
          | some ce => (cache e).skb_hash < (cache ce).skb_hash
        mcFind cache skb_hash seg (hash >>> mcHashShift) (if better then some e else ce)

/-- `ovs_flow_tbl_lookup_stats`. -/
def ovsFlowTblLookupStats (t : FlowTable) (cache : MaskCache) (stack : Nat → SwFlowKey)
    (key : SwFlowKey) (skb_hash : BitVec 32) : Except MemFault (Option Nat × MaskCache) :=
  if skb_hash = 0 then do
    let (flow, _) ← flowLookup hs t stack key 0
    .ok (flow, cache)
  else do
    -- the flows before and after a recirculation have the same `skb_hash`
    let skb_hash :=
      if key.recircId = 0 then skb_hash else hs.jhash_1word skb_hash key.recircId
    let (hit, ce) ← mcFind cache skb_hash mcHashSegs skb_hash none
    let (flow, cache) ← flowLookupCached hs t cache stack key ce
    if hit then
      match flow with
      | some flow => .ok (some flow, cache)
      | none => .ok (none, Function.update cache ce { cache ce with skb_hash := 0 })
    else
      match flow with
      | some flow => .ok (some flow, Function.update cache ce { cache ce with skb_hash := skb_hash })
      | none => .ok (none, cache)

/-! ## The lookup through the cache -/

variable {hs}

/-- Some entry is found or chosen for replacement: there is at least one segment. -/
theorem mcFind_ok (cache : MaskCache) (skb_hash : BitVec 32) (segs : Nat) (hash : BitVec 32)
    (ce : Option (Fin mcHashEntries)) (hce : ce.isSome ∨ 0 < segs) :
    ∃ r, mcFind cache skb_hash segs hash ce = .ok r := by
  induction segs generalizing hash ce with
  | zero =>
      cases ce with
      | none => simp at hce
      | some ce => exact ⟨_, rfl⟩
  | succ seg ih =>
      unfold mcFind
      dsimp only
      split_ifs with hhit hbetter
      · exact ⟨_, rfl⟩
      · exact ih _ _ (.inl rfl)
      · cases ce with
        | none => exact absurd rfl hbetter
        | some ce => exact ih _ _ (.inl rfl)

/-- The answer of a lookup is right: it is a matching flow, or there is none. -/
def AnswersFor (t : FlowTable) (flows : Finset Nat) (key : SwFlowKey) (r : Option Nat) : Prop :=
  (∀ flow, r = some flow → flow ∈ flows ∧ Matches t key flow) ∧
    (r = none → ∀ flow ∈ flows, ¬ Matches t key flow)

variable {t : FlowTable} {flows : Finset Nat} {leaked : Nat → Nat} {key : SwFlowKey}
variable {r r' : Option Nat}

theorem AnswersFor.isSome_iff (h : AnswersFor t flows key r) :
    r.isSome ↔ ∃ flow ∈ flows, Matches t key flow := by
  cases r with
  | none => exact iff_of_false Bool.false_ne_true fun ⟨flow, hflow, hm⟩ => h.2 rfl flow hflow hm
  | some flow => exact iff_of_true rfl ⟨flow, h.1 flow rfl⟩

/-- Two right answers are the same if at most one flow matches. -/
theorem AnswersFor.unique (h : AnswersFor t flows key r) (h' : AnswersFor t flows key r')
    (honly : ∀ f ∈ flows, ∀ g ∈ flows, Matches t key f → Matches t key g → f = g) : r = r' := by
  cases hr : r with
  | none =>
      cases hr' : r' with
      | none => rfl
      | some g =>
          obtain ⟨hg, hm⟩ := h'.1 g hr'
          exact absurd hm (h.2 hr g hg)
  | some f =>
      obtain ⟨hf, hm⟩ := h.1 f hr
      cases hr' : r' with
      | none => exact absurd hm (h'.2 hr' f hf)
      | some g =>
          obtain ⟨hg, hm'⟩ := h'.1 g hr'
          rw [honly f hf g hg hm hm']

theorem flowLookup_answers (h : TableInv hs t flows leaked) (stack : Nat → SwFlowKey)
    (key : SwFlowKey) (index : Nat) :
    ∃ r, flowLookup hs t stack key index = .ok r ∧ AnswersFor t flows key r.1 :=
  flowLookup_spec h stack key index

/-- Whatever the cache holds, the lookup through it gives a right answer. -/
theorem ovsFlowTblLookupStats_spec (h : TableInv hs t flows leaked) (cache : MaskCache)
    (stack : Nat → SwFlowKey) (key : SwFlowKey) (skb_hash : BitVec 32) :
    ∃ r cache', ovsFlowTblLookupStats hs t cache stack key skb_hash = .ok (r, cache') ∧
      AnswersFor t flows key r := by
  rw [ovsFlowTblLookupStats]
  by_cases hzero : skb_hash = 0
  · rw [if_pos hzero]
    obtain ⟨⟨r, index⟩, hok, hr⟩ := flowLookup_answers h stack key 0
    exact ⟨r, cache, by rw [hok, ok_bind], hr⟩
  · rw [if_neg hzero]
    dsimp only
    generalize (if key.recircId = 0 then skb_hash else hs.jhash_1word skb_hash key.recircId) = hash
    -- which entry is used does not matter, only that there is one
    obtain ⟨⟨hit, ce⟩, hfind⟩ := mcFind_ok cache hash mcHashSegs hash none (.inr (by decide))
    obtain ⟨⟨r, index⟩, hok, hr⟩ := flowLookup_answers h stack key (cache ce).mask_index.toNat
    rw [hfind, ok_bind]
    dsimp only
    rw [flowLookupCached, hok, ok_bind, ok_bind]
    cases hit <;> cases r <;> exact ⟨_, _, rfl, hr⟩

/-- **The cache never changes the answer**, whatever it holds, in every table that operations
lead to. -/
theorem ovsFlowTblLookupStats_correct (hs : Hashes) (seed ufid_seed : BitVec 32)
    (ops : List TableOp) (s : TableState)
    (hops : RunMeets (tableStep hs) (fun s op => op.Allowed s) (TableState.init seed ufid_seed) ops)
    (hrun : runAll (tableStep hs) (TableState.init seed ufid_seed) ops = .ok s) (cache : MaskCache)
    (stack stack' : Nat → SwFlowKey) (key : SwFlowKey) (skb_hash : BitVec 32) :
    ∃ r cache' r', ovsFlowTblLookupStats hs s.table cache stack key skb_hash = .ok (r, cache') ∧
      ovsFlowTblLookup hs s.table stack' key = .ok r' ∧
      (r.isSome ↔ r'.isSome) ∧
      (∀ flow, r = some flow → flow ∈ s.flows ∧ Matches s.table key flow) ∧
      ((∀ f ∈ s.flows, ∀ g ∈ s.flows, Matches s.table key f → Matches s.table key g → f = g) →
        r = r') := by
  obtain ⟨leaked, hinv⟩ : s.Inv hs :=
    inv_of_runAll _ _ (fun _ _ => tableStep_inv) (TableState.init_inv hs seed ufid_seed) hops hrun
  obtain ⟨r, cache', hok, hr⟩ := ovsFlowTblLookupStats_spec hinv cache stack key skb_hash
  obtain ⟨⟨r', index⟩, hok', hr'⟩ := flowLookup_answers hinv stack' key 0
  refine ⟨r, cache', r', hok, by rw [ovsFlowTblLookup, hok', ok_bind], ?_, hr.1, hr.unique hr'⟩
  rw [hr.isSome_iff, AnswersFor.isSome_iff hr']

/-- After an insertion, with a cache whose positions are all past the array. -/
theorem ovsFlowTblLookupStats_correct_stale :
    ∃ s, runAll (tableStep ⟨fun _ => 0, fun _ _ => 0, fun _ => 0⟩) (TableState.init 0 0)
        [.insert 5 (fun _ => 1) (.ufid [7]) zeroMask ⟨true, true, some 3, none, false⟩] = .ok s ∧
      ∃ r cache' r', ovsFlowTblLookupStats ⟨fun _ => 0, fun _ _ => 0, fun _ => 0⟩ s.table
          (fun _ => ⟨9, 4096⟩) (fun _ _ => 1) (fun _ => 2) 9 = .ok (r, cache') ∧
        ovsFlowTblLookup ⟨fun _ => 0, fun _ _ => 0, fun _ => 0⟩ s.table (fun _ _ => 3) (fun _ => 2) =
          .ok r' ∧
        (r.isSome ↔ r'.isSome) := by
  have hops : RunMeets (tableStep ⟨fun _ => 0, fun _ _ => 0, fun _ => 0⟩) (fun s op => op.Allowed s)
      (TableState.init 0 0)
      [.insert 5 (fun _ => 1) (.ufid [7]) zeroMask ⟨true, true, some 3, none, false⟩] :=
    ⟨⟨Finset.notMem_empty 5, [], rfl⟩, fun _ _ _ => trivial⟩
  obtain ⟨s, hrun⟩ : ∃ s, runAll (tableStep ⟨fun _ => 0, fun _ _ => 0, fun _ => 0⟩)
      (TableState.init 0 0)
      [.insert 5 (fun _ => 1) (.ufid [7]) zeroMask ⟨true, true, some 3, none, false⟩] = .ok s :=
    ⟨_, rfl⟩
  obtain ⟨r, cache', r', hstats, hlookup, hiff, -⟩ := ovsFlowTblLookupStats_correct _ 0 0 _ s hops
    hrun (fun _ => ⟨9, 4096⟩) (fun _ _ => 1) (fun _ _ => 3) (fun _ => 2) 9
  exact ⟨s, hrun, r, cache', r', hstats, hlookup, hiff⟩

end OvsDatapath.Flow
