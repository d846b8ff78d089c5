import OvsDatapath.Flow.FlowTable
import OvsDatapath.Lib.HashIndex

/-!
# What a table instance holds

`Holds hs links ti hash flows` says that an instance links exactly `flows`, each in the bucket that
its hash selects and through the nodes of the instance's version. Each operation on instances has
one lemma here: what it does to the set, and what it leaves alone (`Untouched`). A rehash builds the
new instance out of nodes of the other version, so the old one can still be read while the copy is
being made and afterwards.
-/

namespace OvsDatapath.Flow

open OvsDatapath.Lib OvsDatapath.Lib.Hlist

/-- The buckets of an instance. -/
def TableInstance.IsHead (ti : TableInstance) (head : BucketHead) : Prop :=
  head.1 = ti.ptr ∧ head.2 < ti.n_buckets

/-- The node that an instance links a flow by. -/
def TableInstance.node (ti : TableInstance) (flow : Nat) : FlowNode := (flow, ti.node_ver)

theorem TableInstance.node_injective (ti : TableInstance) : Function.Injective ti.node :=
  fun _ _ h => congrArg Prod.fst h

/-- The heads of an instance and the nodes of its version hold the same pointers in both
memories. -/
structure Untouched (ti : TableInstance) (links links' : Links BucketHead FlowNode) : Prop where
  next : ∀ flow, links'.next (ti.node flow) = links.next (ti.node flow)
  pprev : ∀ flow, links'.pprev (ti.node flow) = links.pprev (ti.node flow)
  first : ∀ i, links'.first (ti.ptr, i) = links.first (ti.ptr, i)

section Instance

variable {hs : Hashes} {ti ti' old new : TableInstance} {hash hash' : Nat → BitVec 32}
variable {links links' links'' : Links BucketHead FlowNode} {flows : Finset Nat} {flow : Nat}

theorem Untouched.refl : Untouched ti links links := ⟨fun _ => rfl, fun _ => rfl, fun _ => rfl⟩

theorem Untouched.trans (h : Untouched ti links links') (h' : Untouched ti links' links'') :
    Untouched ti links links'' :=
  ⟨fun f => (h'.next f).trans (h.next f), fun f => (h'.pprev f).trans (h.pprev f),
    fun i => (h'.first i).trans (h.first i)⟩

theorem Untouched.segment (h : Untouched ti links links') {s : Slot BucketHead FlowNode}
    {o : Option FlowNode} {l : List Nat} (hl : Segment links s o (l.map ti.node)) :
    Segment links' s o (l.map ti.node) := by
  refine Segment.congr hl fun k hk => ?_
  obtain ⟨f, -, rfl⟩ := List.mem_map.mp hk
  exact ⟨h.next f, h.pprev f⟩

theorem Untouched.chain (h : Untouched ti links links') {i : Nat} {l : List Nat}
    (hl : Chain links (ti.ptr, i) (l.map ti.node)) :
    Chain links' (ti.ptr, i) (l.map ti.node) := by
  rw [Chain, h.first i]
  exact h.segment hl

/-- The instance links the flows of the set, each in the bucket of its hash. -/
structure Holds (hs : Hashes) (links : Links BucketHead FlowNode) (ti : TableInstance)
    (hash : Nat → BitVec 32) (flows : Finset Nat) : Prop where
  n_pos : 0 < ti.n_buckets
  indexed : Indexed links ti.IsHead ti.node (fun flow => findBucket hs ti (hash flow)) flows

/-- `find_bucket` stays inside the array of buckets. -/
theorem findBucket_isHead (hs : Hashes) {ti : TableInstance} (hn : 0 < ti.n_buckets)
    (hash : BitVec 32) : ti.IsHead (findBucket hs ti hash) := by
  refine ⟨rfl, ?_⟩
  have hle : (hs.jhash_1word hash ti.hash_seed).toNat &&& (ti.n_buckets - 1) ≤ ti.n_buckets - 1 :=
    Nat.and_le_right
  show (hs.jhash_1word hash ti.hash_seed).toNat &&& (ti.n_buckets - 1) < ti.n_buckets
  omega

theorem Holds.congr_hash (h : Holds hs links ti hash flows)
    (hhash : ∀ flow ∈ flows, hash' flow = hash flow) : Holds hs links ti hash' flows :=
  ⟨h.n_pos, h.indexed.congr_place fun flow hflow => by rw [hhash flow hflow]⟩

theorem Holds.untouched (h : Holds hs links ti hash flows) (hu : Untouched ti links links') :
    Holds hs links' ti hash flows := by
  refine ⟨h.n_pos, h.indexed.congr_links (fun f => ⟨hu.next f, hu.pprev f⟩) ?_⟩
  rintro ⟨p, i⟩ ⟨hp, -⟩
  obtain rfl : p = ti.ptr := hp
  exact hu.first i

/-- The buckets of an instance are well-formed chains, which together list each flow of the set once
and nothing else: each flow is in exactly one chain. -/
def InstanceLists (links : Links BucketHead FlowNode) (ti : TableInstance) (flows : Finset Nat) :
    Prop :=
  ∃ chain : Nat → List Nat,
    (∀ i < ti.n_buckets, Chain links (ti.ptr, i) ((chain i).map ti.node)) ∧
    ((List.range ti.n_buckets).flatMap chain).Nodup ∧
    ∀ flow, flow ∈ (List.range ti.n_buckets).flatMap chain ↔ flow ∈ flows

theorem Holds.instanceLists (h : Holds hs links ti hash flows) : InstanceLists links ti flows := by
  have hex : ∀ i, ∃ l : List Nat, i < ti.n_buckets →
      Chain links (ti.ptr, i) (l.map ti.node) ∧
        ∀ f, f ∈ l ↔ f ∈ flows ∧ findBucket hs ti (hash f) = (ti.ptr, i) := by
    intro i
    by_cases hi : i < ti.n_buckets
    · obtain ⟨l, hl, hmem⟩ := h.indexed (ti.ptr, i) ⟨rfl, hi⟩
      exact ⟨l, fun _ => ⟨hl, hmem⟩⟩
    · exact ⟨[], fun hi' => absurd hi' hi⟩
  choose chain hchain using hex
  refine ⟨chain, fun i hi => (hchain i hi).1, ?_, fun f => ?_⟩
  · rw [List.nodup_flatMap]
    constructor
    · intro i hi
      exact List.Nodup.of_map _ (hchain i (List.mem_range.mp hi)).1.nodup
    · refine (List.nodup_range (n := ti.n_buckets)).imp_of_mem ?_
      intro i j hi hj hne f hfi hfj
      have hbi := (((hchain i (List.mem_range.mp hi)).2 f).mp hfi).2
      have hbj := (((hchain j (List.mem_range.mp hj)).2 f).mp hfj).2
      exact hne (congrArg Prod.snd (hbi.symm.trans hbj))
  · rw [List.mem_flatMap]
    constructor
    · rintro ⟨i, hi, hf⟩
      exact (((hchain i (List.mem_range.mp hi)).2 f).mp hf).1
    · intro hf
      obtain ⟨-, hlt⟩ := findBucket_isHead hs h.n_pos (hash f)
      exact ⟨_, List.mem_range.mpr hlt, ((hchain _ hlt).2 f).mpr ⟨hf, rfl⟩⟩

/-! ## Allocation and insertion -/

/-- A new instance is empty. -/
theorem tableInstanceAlloc_holds (links : Links BucketHead FlowNode) (ptr : Nat) {new_size : Nat}
    (seed : BitVec 32) (hn : 0 < new_size) :
    Holds hs (tableInstanceAlloc links ptr new_size seed).2
      (tableInstanceAlloc links ptr new_size seed).1 hash ∅ :=
  ⟨hn, Indexed.empty fun _ hhead => if_pos hhead⟩

theorem tableInstanceAlloc_untouched {ptr new_size : Nat} {seed : BitVec 32} (hptr : ti.ptr ≠ ptr) :
    Untouched ti links (tableInstanceAlloc links ptr new_size seed).2 :=
  ⟨fun _ => rfl, fun _ => rfl, fun _ => if_neg fun h => hptr h.1⟩

theorem Holds.insert (h : Holds hs links ti hash flows) (hflow : flow ∉ flows) :
    Holds hs (instanceInsert hs hash ti flow links) ti hash (insert flow flows) :=
  ⟨h.n_pos, h.indexed.addHead ti.node_injective (findBucket_isHead hs h.n_pos _) hflow⟩

/-- An insertion does not disturb an instance of the other version. -/
theorem Holds.insert_untouched (h : Holds hs links ti hash flows) (hptr : ti'.ptr ≠ ti.ptr)
    (hver : ti'.node_ver ≠ ti.node_ver) : Untouched ti' links (instanceInsert hs hash ti flow links) := by
  obtain ⟨hnode, hfirst⟩ := h.indexed.addHead_frame (a := flow) (findBucket_isHead hs h.n_pos _)
  have hother : ∀ f g, ti'.node f ≠ ti.node g := fun _ _ heq => hver (congrArg Prod.snd heq)
  refine ⟨fun f => (hnode _ (hother f)).1, fun f => (hnode _ (hother f)).2, fun i => ?_⟩
  exact hfirst _ fun heq => hptr (congrArg Prod.fst heq)

/-! ## Copying -/

/-- The inner loop links the flows of a chain in the new instance. -/
theorem copyChain_spec (hptr : old.ptr ≠ new.ptr) (hver : old.node_ver ≠ new.node_ver)
    {l : List Nat} {fuel : Nat} {s : Slot BucketHead FlowNode} {o : Option FlowNode}
    (h : Holds hs links new hash flows) (hl : Segment links s o (l.map old.node))
    (hnodup : l.Nodup) (hdisj : ∀ f ∈ l, f ∉ flows) (hfuel : l.length ≤ fuel) :
    ∃ links', copyChain hs hash new fuel o links = .ok links' ∧
      Holds hs links' new hash (flows ∪ l.toFinset) ∧ Untouched old links links' := by
  induction l generalizing links flows fuel s o with
  | nil =>
      rw [List.map_nil, segment_nil] at hl
      subst hl
      refine ⟨links, by cases fuel <;> rfl, ?_, Untouched.refl⟩
      rw [List.toFinset_nil, Finset.union_empty]
      exact h
  | cons f l ih =>
      rw [List.map_cons, segment_cons] at hl
      obtain ⟨ho, -, hrest⟩ := hl
      rw [List.nodup_cons] at hnodup
      rw [List.forall_mem_cons] at hdisj
      obtain ⟨fuel, rfl⟩ : ∃ k, fuel = k + 1 := Nat.exists_eq_succ_of_ne_zero
        (Nat.ne_of_gt (lt_of_lt_of_le (Nat.succ_pos _) hfuel))
      have hins : Holds hs (instanceInsert hs hash new f links) new hash _ := h.insert hdisj.1
      have hu : Untouched old links (instanceInsert hs hash new f links) :=
        h.insert_untouched hptr hver
      -- the rest of the old chain is still there to be read
      have hrest' : Segment (instanceInsert hs hash new f links) (.next (old.node f))
          ((instanceInsert hs hash new f links).next (old.node f)) (l.map old.node) := by
        rw [hu.next]
        exact hu.segment hrest
      have hdisj' : ∀ g ∈ l, g ∉ insert f flows := by
        intro g hg
        rw [Finset.mem_insert, not_or]
        exact ⟨fun heq => hnodup.1 (heq ▸ hg), hdisj.2 g hg⟩
      obtain ⟨links', hok, hholds, huntouched⟩ :=
        ih hins hrest' hnodup.2 hdisj' (Nat.le_of_succ_le_succ hfuel)
      refine ⟨links', ?_, ?_, hu.trans huntouched⟩
      · rw [ho]
        exact hok
      · rw [List.toFinset_cons, Finset.union_insert, ← Finset.insert_union]
        exact hholds

/-- The outer loop links the flows of the buckets that are left. -/
theorem copyBuckets_spec (hptr : old.ptr ≠ new.ptr) (hver : old.node_ver ≠ new.node_ver)
    (buckets : List Nat) {done : Finset Nat} {fuel : Nat} (hold : Holds hs links old hash flows)
    (hfuel : flows.card ≤ fuel) (h : Holds hs links new hash done)
    (hbuckets : ∀ i ∈ buckets, i < old.n_buckets) (hnodup : buckets.Nodup)
    (hdone : ∀ f ∈ done, (findBucket hs old (hash f)).2 ∉ buckets) :
    ∃ links', copyBuckets hs hash old new fuel buckets links = .ok links' ∧
      Holds hs links' new hash
        (done ∪ flows.filter fun f => (findBucket hs old (hash f)).2 ∈ buckets) ∧
      Untouched old links links' := by
  induction buckets generalizing links done with
  | nil =>
      refine ⟨links, rfl, ?_, Untouched.refl⟩
      simpa using h
  | cons i rest ih =>
      rw [List.forall_mem_cons] at hbuckets
      rw [List.nodup_cons] at hnodup
      obtain ⟨l, hl, -⟩ := hold.indexed (old.ptr, i) ⟨rfl, hbuckets.1⟩
      obtain ⟨hlen, hmem⟩ := hold.indexed.length_le ⟨rfl, hbuckets.1⟩ old.node_injective hl
      have hbucket : ∀ f, f ∈ l ↔ f ∈ flows ∧ (findBucket hs old (hash f)).2 = i := by
        intro f
        rw [hmem, findBucket, Prod.mk.injEq]
        simp only [true_and]
      obtain ⟨links₁, hok₁, hholds₁, hu₁⟩ := copyChain_spec hptr hver h hl
        (List.Nodup.of_map _ hl.nodup)
        (fun f hf hd => hdone f hd (List.mem_cons.mpr (.inl ((hbucket f).mp hf).2)))
        (hlen.trans hfuel)
      -- the flows of this bucket are done, and in no other one
      have hdone₁ : ∀ f ∈ done ∪ l.toFinset, (findBucket hs old (hash f)).2 ∉ rest := by
        intro f hf
        rcases Finset.mem_union.mp hf with hd | hd
        · exact fun hr => hdone f hd (List.mem_cons_of_mem _ hr)
        · rw [List.mem_toFinset, hbucket] at hd
          exact hd.2 ▸ hnodup.1
      obtain ⟨links', hok, hholds, hu⟩ :=
        ih (hold.untouched hu₁) hholds₁ hbuckets.2 hnodup.2 hdone₁
      refine ⟨links', ?_, ?_, hu₁.trans hu⟩
      · rw [copyBuckets, hok₁]
        exact hok
      · have hset : done ∪ l.toFinset ∪
              flows.filter (fun f => (findBucket hs old (hash f)).2 ∈ rest) =
            done ∪ flows.filter (fun f => (findBucket hs old (hash f)).2 ∈ i :: rest) := by
          ext f
          simp only [Finset.mem_union, List.mem_toFinset, hbucket, Finset.mem_filter, List.mem_cons]
          tauto
        rw [← hset]
        exact hholds

/-- **A rehash copies.** The new instance holds the flows of the old one, in the buckets that their
hashes select there, and the old one can still be read as before. -/
theorem tableInstanceRehash_spec {n_buckets ptr fuel : Nat} (alloc : Option (BitVec 32))
    (hold : Holds hs links old hash flows) (hptr : old.ptr ≠ ptr) (hn : 0 < n_buckets)
    (hfuel : flows.card ≤ fuel) :
    ∃ r, tableInstanceRehash hs hash old n_buckets alloc ptr fuel links = .ok r ∧
      ∀ new links', r = some (new, links') →
        new.ptr = ptr ∧ Holds hs links' new hash flows ∧ Untouched old links links' := by
  cases alloc with
  | none => exact ⟨none, rfl, fun _ _ h => nomatch h⟩
  | some seed =>
      let fresh := tableInstanceAlloc links ptr n_buckets seed
      let new : TableInstance := { fresh.1 with node_ver := !old.node_ver }
      have hver : old.node_ver ≠ new.node_ver := by simp [new]
      have hempty : Holds hs fresh.2 new hash ∅ := ⟨hn, Indexed.empty fun _ hhead => if_pos hhead⟩
      have hu : Untouched old links fresh.2 := tableInstanceAlloc_untouched hptr
      obtain ⟨links', hok, hholds, hu'⟩ := copyBuckets_spec hptr hver
        (List.range old.n_buckets) (hold.untouched hu) hfuel hempty
        (fun _ hi => List.mem_range.mp hi) List.nodup_range (by simp)
      have hall : ∅ ∪ flows.filter
          (fun f => (findBucket hs old (hash f)).2 ∈ List.range old.n_buckets) = flows := by
        rw [Finset.empty_union, Finset.filter_true_of_mem]
        intro f _
        exact List.mem_range.mpr (findBucket_isHead hs hold.n_pos _).2
      rw [hall] at hholds
      refine ⟨some (new, links'), ?_, ?_⟩
      · rw [tableInstanceRehash, flowTableCopyFlows]
        dsimp only [fresh, new] at hok ⊢
        rw [hok]
        rfl
      · intro new' links'' heq
        obtain ⟨rfl, rfl⟩ := Prod.mk.inj (Option.some.inj heq)
        exact ⟨rfl, hholds, hu.trans hu'⟩

/-! ## Removal and destruction -/

/-- Of the heads, only those of one instance have been written to. -/
def OtherHeads (ti : TableInstance) (links links' : Links BucketHead FlowNode) : Prop :=
  ∀ head : BucketHead, head.1 ≠ ti.ptr → links'.first head = links.first head

theorem OtherHeads.trans (h : OtherHeads ti links links') (h' : OtherHeads ti links' links'') :
    OtherHeads ti links links'' :=
  fun head hne => (h' head hne).trans (h head hne)

/-- A new instance is still empty after writes to the heads of another. -/
theorem OtherHeads.alloc_holds {ptr new_size : Nat} {seed : BitVec 32}
    (h : OtherHeads ti (tableInstanceAlloc links ptr new_size seed).2 links') (hptr : ti.ptr ≠ ptr)
    (hn : 0 < new_size) : Holds hs links' (tableInstanceAlloc links ptr new_size seed).1 hash ∅ := by
  refine ⟨hn, Indexed.empty fun head hhead => ?_⟩
  have hne : head.1 ≠ ti.ptr := fun heq => hptr (heq.symm.trans hhead.1)
  exact (h head hne).trans (if_pos hhead)

/-- Unlinking the flow behind `pre` in its chain. -/
theorem Holds.del_at (h : Holds hs links ti hash flows) (pre post : List Nat)
    (hl : Chain links (findBucket hs ti (hash flow)) ((pre ++ flow :: post).map ti.node)) :
    ∃ links', Hlist.del links (ti.node flow) = .ok links' ∧
      Chain links' (findBucket hs ti (hash flow)) ((pre ++ post).map ti.node) ∧
      Holds hs links' ti hash (flows.erase flow) ∧ OtherHeads ti links links' := by
  obtain ⟨links', hok, hchain, hindexed, hfirst⟩ :=
    h.indexed.del ti.node_injective (findBucket_isHead hs h.n_pos (hash flow)) hl
  refine ⟨links', hok, hchain, ⟨h.n_pos, hindexed⟩, fun head hne => hfirst head ?_⟩
  exact fun heq => hne (congrArg Prod.fst heq)

/-- A flow that is linked can be unlinked. -/
theorem Holds.del (h : Holds hs links ti hash flows) (hflow : flow ∈ flows) :
    ∃ links', Hlist.del links (ti.node flow) = .ok links' ∧
      Holds hs links' ti hash (flows.erase flow) ∧ OtherHeads ti links links' := by
  obtain ⟨pre, post, hl⟩ :=
    h.indexed.exists_chain (findBucket_isHead hs h.n_pos (hash flow)) hflow
  obtain ⟨links', hok, -, hholds, hheads⟩ := h.del_at pre post hl
  exact ⟨links', hok, hholds, hheads⟩

variable {ufid_ti : TableInstance} {ufid_hash : Nat → BitVec 32} {isUfid : Nat → Bool}
variable {ufid_links : Links BucketHead FlowNode}

/-- The inner loop unlinks the flows of a chain, and those with an identifier from the other
instance too. -/
theorem destroyChain_spec {i fuel : Nat} {l : List Nat} (h : Holds hs links ti hash flows)
    (hufid : Holds hs ufid_links ufid_ti ufid_hash (flows.filter fun f => isUfid f))
    (hi : i < ti.n_buckets) (hl : Chain links (ti.ptr, i) (l.map ti.node))
    (hfuel : l.length ≤ fuel) :
    ∃ r, destroyChain isUfid ufid_ti.node_ver fuel (links.first (ti.ptr, i)) (links, ufid_links) =
        .ok r ∧
      Holds hs r.1 ti hash (flows \ l.toFinset) ∧
      Holds hs r.2 ufid_ti ufid_hash ((flows \ l.toFinset).filter fun f => isUfid f) ∧
      OtherHeads ti links r.1 ∧ OtherHeads ufid_ti ufid_links r.2 := by
  induction l generalizing links ufid_links flows fuel with
  | nil =>
      rw [List.map_nil, chain_nil_iff] at hl
      rw [hl, List.toFinset_nil, Finset.sdiff_empty]
      exact ⟨(links, ufid_links), by cases fuel <;> rfl, h, hufid, fun _ _ => rfl, fun _ _ => rfl⟩
  | cons f l ih =>
      obtain ⟨fuel, rfl⟩ : ∃ k, fuel = k + 1 := Nat.exists_eq_succ_of_ne_zero
        (Nat.ne_of_gt (lt_of_lt_of_le (Nat.succ_pos _) hfuel))
      obtain ⟨-, hmem⟩ := h.indexed.length_le ⟨rfl, hi⟩ ti.node_injective hl
      obtain ⟨hf, hplace⟩ := (hmem f).mp (List.mem_cons_self ..)
      obtain ⟨links₁, hok₁, hchain₁, hholds₁, hheads₁⟩ :=
        h.del_at [] l (by rw [hplace]; exact hl)
      rw [hplace] at hchain₁
      rw [Chain, List.map_cons, segment_cons] at hl
      -- the pointer saved before the deletion is where the head leads afterwards
      have hnext : links.next (ti.node f) = links₁.first (ti.ptr, i) :=
        hl.2.2.eq_head?.trans (Segment.eq_head? hchain₁).symm
      have hufid₁ : ∃ ufid_links₁,
          (if isUfid f then Hlist.del ufid_links (f, ufid_ti.node_ver) else .ok ufid_links) =
            .ok ufid_links₁ ∧
          Holds hs ufid_links₁ ufid_ti ufid_hash ((flows.erase f).filter fun f => isUfid f) ∧
          OtherHeads ufid_ti ufid_links ufid_links₁ := by
        rw [Finset.filter_erase]
        cases hisUfid : isUfid f with
        | true => exact hufid.del (Finset.mem_filter.mpr ⟨hf, hisUfid⟩)
        | false =>
            rw [Finset.erase_eq_of_notMem (by simp [hisUfid])]
            exact ⟨ufid_links, rfl, hufid, fun _ _ => rfl⟩
      obtain ⟨ufid_links₁, hokufid₁, hholdsufid₁, hheadsufid₁⟩ := hufid₁
      obtain ⟨r, hok, hholds, hholdsufid, hheads, hheadsufid⟩ :=
        ih hholds₁ hholdsufid₁ hchain₁ (Nat.le_of_succ_le_succ hfuel)
      have hset : flows.erase f \ l.toFinset = flows \ (f :: l).toFinset := by
        ext g
        simp only [Finset.mem_sdiff, Finset.mem_erase, List.mem_toFinset, List.mem_cons]
        tauto
      rw [hset] at hholds hholdsufid
      refine ⟨r, ?_, hholds, hholdsufid, hheads₁.trans hheads, hheadsufid₁.trans hheadsufid⟩
      rw [hl.1, destroyChain]
      dsimp only
      rw [hok₁, ok_bind]
      rw [hnext]
      cases hisUfid : isUfid f with
      | true =>
          rw [hisUfid, if_pos rfl] at hokufid₁
          show (if isUfid f = true then _ else _) = _
          rw [hisUfid, if_pos rfl]
          show Hlist.del ufid_links (f, ufid_ti.node_ver) >>= _ = _
          rw [hokufid₁]
          exact hok
      | false =>
          rw [hisUfid, if_neg Bool.false_ne_true] at hokufid₁
          obtain rfl := Except.ok.inj hokufid₁
          show (if isUfid f = true then _ else _) = _
          rw [hisUfid, if_neg Bool.false_ne_true]
          exact hok

/-- The outer loop unlinks the flows of the buckets that are left. -/
theorem destroyBuckets_spec {buckets : List Nat} {fuel : Nat} (h : Holds hs links ti hash flows)
    (hufid : Holds hs ufid_links ufid_ti ufid_hash (flows.filter fun f => isUfid f))
    (hbuckets : ∀ i ∈ buckets, i < ti.n_buckets) (hfuel : flows.card ≤ fuel) :
    ∃ r, destroyBuckets isUfid ti ufid_ti fuel buckets (links, ufid_links) = .ok r ∧
      OtherHeads ti links r.1 ∧ OtherHeads ufid_ti ufid_links r.2 := by
  induction buckets generalizing links ufid_links flows with
  | nil => exact ⟨(links, ufid_links), rfl, fun _ _ => rfl, fun _ _ => rfl⟩
  | cons i rest ih =>
      rw [List.forall_mem_cons] at hbuckets
      obtain ⟨l, hl, -⟩ := h.indexed (ti.ptr, i) ⟨rfl, hbuckets.1⟩
      obtain ⟨hlen, -⟩ := h.indexed.length_le ⟨rfl, hbuckets.1⟩ ti.node_injective hl
      obtain ⟨r₁, hok₁, hholds₁, hholdsufid₁, hheads₁, hheadsufid₁⟩ :=
        destroyChain_spec h hufid hbuckets.1 hl (hlen.trans hfuel)
      obtain ⟨r, hok, hheads, hheadsufid⟩ := ih hholds₁ hholdsufid₁ hbuckets.2
        ((Finset.card_le_card Finset.sdiff_subset).trans hfuel)
      refine ⟨r, ?_, hheads₁.trans hheads, hheadsufid₁.trans hheadsufid⟩
      rw [destroyBuckets]
      dsimp only
      rw [hok₁]
      exact hok

/-- Destroying an instance does not write to the heads of any other. -/
theorem tableInstanceDestroy_spec {fuel : Nat} (h : Holds hs links ti hash flows)
    (hufid : Holds hs ufid_links ufid_ti ufid_hash (flows.filter fun f => isUfid f))
    (hfuel : flows.card ≤ fuel) :
    ∃ r, tableInstanceDestroy isUfid ti ufid_ti fuel (links, ufid_links) = .ok r ∧
      OtherHeads ti links r.1 ∧ OtherHeads ufid_ti ufid_links r.2 := by
  rw [tableInstanceDestroy]
  by_cases hkeep : ti.keep_flows = true
  · rw [if_pos hkeep]
    exact ⟨(links, ufid_links), rfl, fun _ _ => rfl, fun _ _ => rfl⟩
  · rw [if_neg hkeep]
    exact destroyBuckets_spec h hufid (fun _ hi => List.mem_range.mp hi) hfuel

end Instance

end OvsDatapath.Flow
