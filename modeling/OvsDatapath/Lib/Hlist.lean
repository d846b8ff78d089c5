import OvsDatapath.Lib.Fault

/-!
# Linked lists with back links

The hash chains of the kernel: a head holds a pointer to the first node, a node holds a pointer to
the next one and, in `pprev`, the address of the pointer that points to it, which is the head's or
the previous node's. `Links` is the memory that all heads and nodes live in, `addHead` and `del` are
the two updates, pointer by pointer, and `findEntry` is the loop that walks a chain.

`Chain m h l` says that the nodes reached from the head `h` are `l`, each with the right back link.
The back links make chains disjoint and free of repetitions (`Chain.unique_place`,
`Chain.nodup`), so an update of one chain leaves the others alone.
-/

namespace OvsDatapath.Lib.Hlist

variable {η ν : Type}

/-- The address of a pointer to a node: in a head, or in a node. -/
inductive Slot (η ν : Type) where
  | head (h : η)
  | next (n : ν)
  deriving DecidableEq

/-- The pointers of all heads and nodes. A back link that was never set, or was poisoned, is
none. -/
structure Links (η ν : Type) where
  first : η → Option ν
  next : ν → Option ν
  pprev : ν → Option (Slot η ν)

section Operations

variable [DecidableEq η] [DecidableEq ν]

/-- Store through a back link. -/
def Links.store (m : Links η ν) (s : Slot η ν) (o : Option ν) : Links η ν :=
  match s with
  | .head h => { m with first := Function.update m.first h o }
  | .next n => { m with next := Function.update m.next n o }

/-- Set the back link of a node, if there is one. -/
def Links.setPprev (m : Links η ν) (o : Option ν) (s : Option (Slot η ν)) : Links η ν :=
  match o with
  | none => m
  | some n => { m with pprev := Function.update m.pprev n s }

/-- `hlist_add_head_rcu`. -/
def addHead (m : Links η ν) (n : ν) (h : η) : Links η ν :=
  let first := m.first h
  let m := { m with next := Function.update m.next n first }
  let m := m.setPprev (some n) (some (.head h))
  let m := { m with first := Function.update m.first h (some n) }
  m.setPprev first (some (.next n))

/-- `hlist_del_rcu`. -/
def del (m : Links η ν) (n : ν) : Except MemFault (Links η ν) :=
  match m.pprev n with
  | none => .error .wildPointer
  | some pprev =>
      let next := m.next n
      let m := m.store pprev next
      let m := m.setPprev next (some pprev)
      .ok (m.setPprev (some n) none)

/-- `hlist_for_each_entry`, left at the first node that satisfies `p`. -/
def findEntry (m : Links η ν) (p : ν → Bool) : Nat → Option ν → Except MemFault (Option ν)
  | _, none => .ok none
  | 0, some _ => .error .endless
  | fuel + 1, some n => if p n then .ok (some n) else findEntry m p fuel (m.next n)

end Operations

/-- What a walk finds is what it has been looking for. -/
theorem findEntry_found {m : Links η ν} {p : ν → Bool} {fuel : Nat} {o : Option ν} {n : ν}
    (h : findEntry m p fuel o = .ok (some n)) : p n = true := by
  induction fuel generalizing o with
  | zero => cases o <;> cases h
  | succ fuel ih =>
      cases o with
      | none => cases h
      | some k =>
          rw [findEntry] at h
          split at h
          next hp =>
            obtain rfl := Option.some.inj (Except.ok.inj h)
            exact hp
          next => exact ih h

/-! ## Chains -/

/-- From the pointer `o`, which is stored at `s`, the nodes `l` are passed, and the walk arrives at
the pointer `o'`, stored at `s'`. -/
def Path (m : Links η ν) : Slot η ν → Option ν → List ν → Slot η ν → Option ν → Prop
  | s, o, [], s', o' => s = s' ∧ o = o'
  | s, o, n :: l, s', o' =>
      o = some n ∧ m.pprev n = some s ∧ Path m (.next n) (m.next n) l s' o'

/-- The nodes `l` are all that is reached from `o`. -/
def Segment (m : Links η ν) (s : Slot η ν) (o : Option ν) (l : List ν) : Prop :=
  ∃ s', Path m s o l s' none

/-- The chain of a head. -/
def Chain (m : Links η ν) (h : η) (l : List ν) : Prop := Segment m (.head h) (m.first h) l

variable {m m' : Links η ν} {s s' : Slot η ν} {o o' : Option ν} {l l' pre post : List ν}
variable {h h' : η} {n : ν}

theorem path_append {l₁ l₂ : List ν} :
    Path m s o (l₁ ++ l₂) s' o' ↔ ∃ s₁ o₁, Path m s o l₁ s₁ o₁ ∧ Path m s₁ o₁ l₂ s' o' := by
  induction l₁ generalizing s o with
  | nil =>
      constructor
      · exact fun hp => ⟨s, o, ⟨rfl, rfl⟩, hp⟩
      · rintro ⟨s₁, o₁, ⟨rfl, rfl⟩, hp⟩
        exact hp
  | cons n l₁ ih =>
      constructor
      · rintro ⟨ho, hpprev, hp⟩
        obtain ⟨s₁, o₁, h₁, h₂⟩ := ih.mp hp
        exact ⟨s₁, o₁, ⟨ho, hpprev, h₁⟩, h₂⟩
      · rintro ⟨s₁, o₁, ⟨ho, hpprev, h₁⟩, h₂⟩
        exact ⟨ho, hpprev, ih.mpr ⟨s₁, o₁, h₁, h₂⟩⟩

/-- The slot a path arrives at: its last node's, or the one it started from. -/
theorem Path.last_slot (hp : Path m s o l s' o') : s' = (l.getLast?.map Slot.next).getD s := by
  induction l generalizing s o with
  | nil => exact hp.1.symm
  | cons n l ih =>
      rw [ih hp.2.2]
      cases l with
      | nil => rfl
      | cons k l => rw [List.getLast?_cons_cons]; simp [List.getLast?_cons]

@[simp] theorem segment_nil : Segment m s o [] ↔ o = none := by
  constructor
  · rintro ⟨s', -, ho⟩
    exact ho
  · rintro rfl
    exact ⟨s, rfl, rfl⟩

@[simp] theorem segment_cons :
    Segment m s o (n :: l) ↔ o = some n ∧ m.pprev n = some s ∧ Segment m (.next n) (m.next n) l := by
  constructor
  · rintro ⟨s', ho, hpprev, hp⟩
    exact ⟨ho, hpprev, s', hp⟩
  · rintro ⟨ho, hpprev, s', hp⟩
    exact ⟨s', ho, hpprev, hp⟩

/-- A walk starts at its first node. -/
theorem Segment.eq_head? (hl : Segment m s o l) : o = l.head? := by
  cases l with
  | nil => exact segment_nil.mp hl
  | cons n l => exact (segment_cons.mp hl).1

/-- The walk from a pointer passes the same nodes whatever is known about them. -/
theorem Segment.unique (hl : Segment m s o l) (hl' : Segment m s' o l') : l = l' := by
  induction l generalizing s s' o l' with
  | nil =>
      rw [segment_nil] at hl
      cases l' with
      | nil => rfl
      | cons n l' =>
          rw [segment_cons, hl] at hl'
          exact absurd hl'.1 (by simp)
  | cons n l ih =>
      rw [segment_cons] at hl
      cases l' with
      | nil =>
          rw [segment_nil, hl.1] at hl'
          cases hl'
      | cons n' l' =>
          rw [segment_cons, hl.1] at hl'
          obtain rfl := Option.some.inj hl'.1
          rw [ih hl.2.2 hl'.2.2]

theorem Path.congr (hp : Path m s o l s' o')
    (hm : ∀ k ∈ l, m'.next k = m.next k ∧ m'.pprev k = m.pprev k) : Path m' s o l s' o' := by
  induction l generalizing s o with
  | nil => exact hp
  | cons n l ih =>
      obtain ⟨ho, hpprev, hp⟩ := hp
      rw [List.forall_mem_cons] at hm
      refine ⟨ho, hm.1.2.trans hpprev, ?_⟩
      rw [hm.1.1]
      exact ih hp hm.2

theorem Segment.congr (hl : Segment m s o l)
    (hm : ∀ k ∈ l, m'.next k = m.next k ∧ m'.pprev k = m.pprev k) : Segment m' s o l := by
  obtain ⟨s', hp⟩ := hl
  exact ⟨s', hp.congr hm⟩

theorem chain_nil_iff : Chain m h [] ↔ m.first h = none := segment_nil

/-- The back link of a node of a chain. -/
theorem Chain.pprev (hl : Chain m h (pre ++ n :: post)) :
    m.pprev n = some ((pre.getLast?.map Slot.next).getD (.head h)) := by
  obtain ⟨s', hp⟩ := hl
  obtain ⟨s₁, o₁, h₁, -, hpprev, -⟩ := path_append.mp hp
  rw [hpprev, h₁.last_slot]

/-- A node has one place: it is in one chain only, and there behind the same nodes. -/
theorem Chain.unique_place {pre' post' : List ν} (hl : Chain m h (pre ++ n :: post))
    (hl' : Chain m h' (pre' ++ n :: post')) : h = h' ∧ pre = pre' := by
  induction pre using List.reverseRecOn generalizing n post pre' post' with
  | nil =>
      have heq := hl.pprev.symm.trans hl'.pprev
      cases pre' using List.reverseRecOn with
      | nil =>
          simp only [List.getLast?_nil, Option.map_none, Option.getD_none, Option.some.injEq,
            Slot.head.injEq] at heq
          exact ⟨heq, rfl⟩
      | append_singleton pre' p => simp at heq
  | append_singleton pre p ih =>
      have heq := hl.pprev.symm.trans hl'.pprev
      cases pre' using List.reverseRecOn with
      | nil => simp at heq
      | append_singleton pre' p' =>
          simp only [List.getLast?_append, List.getLast?_singleton, Option.some_or, Option.map_some,
            Option.getD_some, Option.some.injEq, Slot.next.injEq] at heq
          subst heq
          rw [List.append_assoc] at hl hl'
          obtain ⟨hh, hpre⟩ := ih hl hl'
          exact ⟨hh, by rw [hpre]⟩

/-- Chains of different heads are disjoint. -/
theorem Chain.head_eq (hl : Chain m h l) (hl' : Chain m h' l') (hn : n ∈ l) (hn' : n ∈ l') :
    h = h' := by
  obtain ⟨pre, post, rfl⟩ := List.append_of_mem hn
  obtain ⟨pre', post', rfl⟩ := List.append_of_mem hn'
  exact (hl.unique_place hl').1

theorem Chain.nodup_append (pre : List ν) {rest : List ν} (hl : Chain m h (pre ++ rest)) :
    rest.Nodup := by
  induction rest generalizing pre with
  | nil => exact List.nodup_nil
  | cons n rest ih =>
      rw [List.nodup_cons]
      refine ⟨?_, ih (pre ++ [n]) (by rwa [List.append_assoc])⟩
      intro hn
      obtain ⟨mid, post, rfl⟩ := List.append_of_mem hn
      have hl' : Chain m h ((pre ++ n :: mid) ++ n :: post) := by
        rwa [List.append_assoc, List.cons_append]
      have hlen := congrArg List.length (hl.unique_place hl').2
      rw [List.length_append, List.length_cons] at hlen
      omega

/-- No node occurs twice in a chain. -/
theorem Chain.nodup (hl : Chain m h l) : l.Nodup := Chain.nodup_append [] hl

/-! ## Walking a chain -/

section Updates

variable [DecidableEq η] [DecidableEq ν]

omit [DecidableEq η] [DecidableEq ν] in
/-- With enough steps, a walk finds the first node of the chain that satisfies `p`. -/
theorem findEntry_of_segment (p : ν → Bool) {fuel : Nat} (hl : Segment m s o l)
    (hfuel : l.length ≤ fuel) : findEntry m p fuel o = .ok (l.find? p) := by
  induction l generalizing s o fuel with
  | nil =>
      rw [segment_nil] at hl
      cases fuel <;> simp [hl, findEntry]
  | cons n l ih =>
      rw [segment_cons] at hl
      obtain ⟨fuel, rfl⟩ : ∃ k, fuel = k + 1 := ⟨fuel - 1, by simp only [List.length_cons] at hfuel; omega⟩
      rw [hl.1, findEntry, List.find?_cons]
      cases hp : p n with
      | true => rfl
      | false => exact ih hl.2.2 (by simpa using hfuel)

/-! ## Adding a node -/

theorem addHead_first (m : Links η ν) (n : ν) (h : η) :
    (addHead m n h).first = Function.update m.first h (some n) := by
  cases hf : m.first h <;> simp [addHead, Links.setPprev, hf]

theorem addHead_next (m : Links η ν) (n : ν) (h : η) :
    (addHead m n h).next = Function.update m.next n (m.first h) := by
  cases hf : m.first h <;> simp [addHead, Links.setPprev, hf]

/-- The back links of the new node and of the old first one are set. -/
theorem addHead_pprev (m : Links η ν) (n : ν) (h : η) :
    (addHead m n h).pprev =
      match m.first h with
      | none => Function.update m.pprev n (some (.head h))
      | some f => Function.update (Function.update m.pprev n (some (.head h))) f (some (.next n)) := by
  cases hf : m.first h <;> simp [addHead, Links.setPprev, hf]

/-- The memory after each of the writes of `addHead`, for a reader that comes in between. -/
def addHeadSteps (m : Links η ν) (n : ν) (h : η) : List (Links η ν) :=
  let first := m.first h
  let m₁ := { m with next := Function.update m.next n first }
  let m₂ := m₁.setPprev (some n) (some (.head h))
  let m₃ := { m₂ with first := Function.update m₂.first h (some n) }
  [m₁, m₂, m₃, m₃.setPprev first (some (.next n))]

theorem addHead_mem_steps (m : Links η ν) (n : ν) (h : η) : addHead m n h ∈ addHeadSteps m n h := by
  simp [addHeadSteps, addHead]

theorem getLast?_addHeadSteps (m : Links η ν) (n : ν) (h : η) :
    (addHeadSteps m n h).getLast? = some (addHead m n h) := rfl

/-- None of the writes goes to anything but the node, the head, and the back link of the node that has been
the first one. -/
theorem addHeadSteps_frame (hm : m' ∈ addHeadSteps m n h) :
    (∀ k, k ≠ n → m'.next k = m.next k) ∧
      (∀ k, k ≠ n → m.first h ≠ some k → m'.pprev k = m.pprev k) ∧
      ∀ h', h' ≠ h → m'.first h' = m.first h' := by
  simp only [addHeadSteps, List.mem_cons, List.not_mem_nil, or_false] at hm
  refine ⟨fun k hk => ?_, fun k hk hfirst => ?_, fun h' hne => ?_⟩
  · rcases hm with rfl | rfl | rfl | rfl
    · exact Function.update_of_ne hk ..
    · exact Function.update_of_ne hk ..
    · exact Function.update_of_ne hk ..
    · cases m.first h <;> exact Function.update_of_ne hk ..
  · rcases hm with rfl | rfl | rfl | rfl
    · rfl
    · exact Function.update_of_ne hk ..
    · exact Function.update_of_ne hk ..
    · cases hold : m.first h with
      | none => exact Function.update_of_ne hk ..
      | some f =>
          have hkf : k ≠ f := fun heq => hfirst (heq ▸ hold)
          show Function.update (Function.update m.pprev n _) f _ k = _
          rw [Function.update_of_ne hkf, Function.update_of_ne hk]
  · rcases hm with rfl | rfl | rfl | rfl
    · rfl
    · rfl
    · exact Function.update_of_ne hne ..
    · cases m.first h <;> exact Function.update_of_ne hne ..

theorem Chain.addHead (hl : Chain m h l) (hn : n ∉ l) : Chain (addHead m n h) h (n :: l) := by
  have hnodup := hl.nodup
  rw [Chain, segment_cons, addHead_first, addHead_next, addHead_pprev, Function.update_self,
    Function.update_self]
  rw [Chain] at hl
  cases l with
  | nil =>
      rw [segment_nil] at hl
      rw [hl]
      exact ⟨rfl, Function.update_self .., segment_nil.mpr rfl⟩
  | cons f l =>
      rw [segment_cons] at hl
      obtain ⟨hfirst, -, hrest⟩ := hl
      have hnf : n ≠ f := fun heq => hn (heq ▸ List.mem_cons_self ..)
      rw [List.nodup_cons] at hnodup
      rw [hfirst]
      refine ⟨rfl, ?_, ?_⟩
      · dsimp only
        rw [Function.update_of_ne hnf, Function.update_self]
      · rw [segment_cons, addHead_next, addHead_pprev, hfirst]
        refine ⟨rfl, Function.update_self .., ?_⟩
        rw [Function.update_of_ne hnf.symm]
        refine hrest.congr fun k hk => ?_
        have hkn : k ≠ n := fun heq => hn (heq ▸ List.mem_cons_of_mem _ hk)
        have hkf : k ≠ f := fun heq => hnodup.1 (heq ▸ hk)
        rw [addHead_next, addHead_pprev, hfirst]
        exact ⟨Function.update_of_ne hkn .., by
          dsimp only
          rw [Function.update_of_ne hkf, Function.update_of_ne hkn]⟩

/-- The other chains are not touched. -/
theorem Chain.addHead_other (hl : Chain m h l) (hl' : Chain m h' l') (hne : h' ≠ h) (hn : n ∉ l') :
    Chain (Hlist.addHead m n h) h' l' := by
  rw [Chain, addHead_first, Function.update_of_ne hne]
  refine Segment.congr hl' fun k hk => ?_
  have hkn : k ≠ n := fun heq => hn (heq ▸ hk)
  rw [addHead_next, addHead_pprev]
  refine ⟨Function.update_of_ne hkn .., ?_⟩
  cases hfirst : m.first h with
  | none => exact Function.update_of_ne hkn ..
  | some f =>
      have hf : f ∈ l := by
        cases l with
        | nil =>
            rw [chain_nil_iff, hfirst] at hl
            cases hl
        | cons g l =>
            rw [Chain, segment_cons, hfirst] at hl
            exact Option.some.inj hl.1 ▸ List.mem_cons_self ..
      have hkf : k ≠ f := fun heq => hne (hl'.head_eq hl hk (heq ▸ hf))
      dsimp only
      rw [Function.update_of_ne hkf, Function.update_of_ne hkn]

/-! ## Deleting a node -/

/-- What a deletion writes: the pointer that led to the node, and the next node's back link. -/
theorem del_ok (hpprev : m.pprev n = some s) :
    ∃ m', del m n = .ok m' ∧
      (∀ k, m'.first k = if s = .head k then m.next n else m.first k) ∧
      (∀ k, m'.next k = if s = .next k then m.next n else m.next k) ∧
      ∀ k, k ≠ n → m'.pprev k = if m.next n = some k then some s else m.pprev k := by
  refine ⟨((m.store s (m.next n)).setPprev (m.next n) (some s)).setPprev (some n) none,
    by simp only [del, hpprev], ?_, ?_, ?_⟩
  · intro k
    cases s <;> cases m.next n <;>
      simp [Links.store, Links.setPprev, Function.update_apply, eq_comm]
  · intro k
    cases s <;> cases m.next n <;>
      simp [Links.store, Links.setPprev, Function.update_apply, eq_comm]
  · intro k hk
    cases s <;> cases m.next n <;>
      simp [Links.store, Links.setPprev, Function.update_apply, hk, eq_comm]

/-- A node of a chain can be deleted: the chain closes behind it, and the others stay. -/
theorem Chain.del (hl : Chain m h (pre ++ n :: post)) :
    ∃ m', Hlist.del m n = .ok m' ∧ Chain m' h (pre ++ post) ∧
      (∀ h' l', h' ≠ h → Chain m h' l' → Chain m' h' l') ∧ ∀ h', h' ≠ h → m'.first h' = m.first h' := by
  obtain ⟨s', hp⟩ := id hl
  obtain ⟨s₁, o₁, hpre, ho₁, hpprev, hpost⟩ := path_append.mp hp
  obtain rfl := ho₁
  have hlast := hpre.last_slot
  obtain ⟨m', hok, hfirst, hnext, hback⟩ := del_ok hpprev
  have hnodup := hl.nodup
  rw [List.nodup_append, List.nodup_cons] at hnodup
  obtain ⟨-, ⟨hnpost, hpostnodup⟩, hdisj⟩ := hnodup
  -- the node that leads to `n`, if any, stands before it
  have hslot : ∀ k, s₁ = .next k → k ∈ pre := by
    intro k hk
    rw [hlast] at hk
    cases hget : pre.getLast? with
    | none => simp [hget] at hk
    | some j =>
        rw [hget, Option.map_some, Option.getD_some] at hk
        obtain rfl := Slot.next.inj hk
        exact List.mem_of_getLast? hget
  -- the node after `n`, if any, is the first one behind it
  have hafter : ∀ k, m.next n = some k → k ∈ post := by
    intro k hk
    cases post with
    | nil => rw [hpost.2] at hk; cases hk
    | cons j post =>
        rw [hpost.1] at hk
        exact Option.some.inj hk ▸ List.mem_cons_self ..
  have hother : ∀ h', h' ≠ h → s₁ ≠ .head h' := by
    intro h' hne heq
    rw [hlast] at heq
    cases hget : pre.getLast? with
    | none =>
        rw [hget] at heq
        exact hne (Slot.head.inj heq).symm
    | some j => simp [hget] at heq
  refine ⟨m', hok, ?_, ?_, ?_⟩
  · refine Exists.imp (fun s₂ hp₂ => path_append.mpr ⟨s₁, m.next n, ?_, hp₂⟩)
      (show Segment m' s₁ (m.next n) post from ?_)
    · -- the nodes before `n`: only the last pointer has changed
      cases pre using List.reverseRecOn with
      | nil =>
          obtain ⟨rfl, -⟩ := hpre
          refine ⟨rfl, ?_⟩
          rw [hfirst, if_pos rfl]
      | append_singleton pre p =>
          obtain ⟨s₃, o₃, hq, ho₃, hpp, hs₁, hnp⟩ := path_append.mp hpre
          subst hs₁
          rw [hfirst, if_neg (by simp)]
          have hpnotin : p ∉ pre := by
            have := (List.nodup_append.mp hl.nodup).1
            rw [List.nodup_append] at this
            exact fun hmem => this.2.2 p hmem p (List.mem_singleton_self p) rfl
          have hsame : ∀ k ∈ pre ++ [p], m'.pprev k = m.pprev k := by
            intro k hk
            rw [hback k (fun heq => hdisj k hk n (List.mem_cons_self ..) heq), if_neg]
            intro heq
            exact hdisj k hk k (List.mem_cons_of_mem _ (hafter k heq)) rfl
          refine path_append.mpr ⟨s₃, o₃, hq.congr fun k hk => ⟨?_, ?_⟩, ho₃, ?_, rfl, ?_⟩
          · rw [hnext, if_neg]
            intro heq
            exact hpnotin (Slot.next.inj heq ▸ hk)
          · exact hsame k (List.mem_append_left _ hk)
          · rw [hsame p (by simp), hpp]
          · rw [hnext, if_pos rfl]
    · cases post with
      | nil => exact segment_nil.mpr hpost.2
      | cons k post =>
          obtain ⟨hk, -, hrest⟩ := hpost
          rw [List.nodup_cons] at hpostnodup
          have hnext' : ∀ j ∈ k :: post, m'.next j = m.next j := by
            intro j hj
            rw [hnext, if_neg]
            intro heq
            exact hdisj j (hslot j heq) j (List.mem_cons_of_mem _ hj) rfl
          rw [segment_cons]
          refine ⟨hk, ?_, ?_⟩
          · rw [hback k (fun heq => hnpost (heq ▸ List.mem_cons_self ..)), if_pos hk]
          · rw [hnext' k (List.mem_cons_self ..)]
            refine Segment.congr ⟨s', hrest⟩ fun j hj => ⟨hnext' j (List.mem_cons_of_mem _ hj), ?_⟩
            rw [hback j (fun heq => hnpost (heq ▸ List.mem_cons_of_mem _ hj)), if_neg]
            intro heq
            rw [hk] at heq
            exact hpostnodup.1 (Option.some.inj heq ▸ hj)
  · intro h' l' hne hl'
    have hfar : ∀ k ∈ l', k ∉ pre ++ n :: post := fun k hk hmem => hne (hl'.head_eq hl hk hmem)
    rw [Chain, hfirst, if_neg (hother h' hne)]
    refine Segment.congr hl' fun k hk => ⟨?_, ?_⟩
    · rw [hnext, if_neg]
      intro heq
      exact hfar k hk (List.mem_append_left _ (hslot k heq))
    · rw [hback k (fun heq => hfar k hk (heq ▸ by simp)), if_neg]
      intro heq
      exact hfar k hk (List.mem_append_right _ (List.mem_cons_of_mem _ (hafter k heq)))
  · intro h' hne
    rw [hfirst, if_neg (hother h' hne)]

end Updates

end OvsDatapath.Lib.Hlist
