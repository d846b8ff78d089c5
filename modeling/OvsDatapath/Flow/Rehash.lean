import OvsDatapath.Flow.TableRuns

/-!
# What a reader sees of a rehash

Lookups go on in an instance while `flow_table_copy_flows` copies it. The functions here list the memory after
each single write of the copying, in the order of the writes. None of these goes to a head of the old
instance, or to a node of its version: whatever the other nodes of the flows have held before, the heads of
the new instance lead to none but those of the other version.

`tableRun_rehashCopies` is about the instances of a table in use, after any run of operations on it.
-/

namespace OvsDatapath.Flow

open OvsDatapath.Lib OvsDatapath.Lib.Hlist

section Steps

variable (hs : Hashes)

/-! ## The writes of the copying -/

/-- The writes of `copyChain`. -/
def copyChainSteps (hash : Nat → BitVec 32) (new : TableInstance) :
    Nat → Option FlowNode → Links BucketHead FlowNode → List (Links BucketHead FlowNode)
  | _, none, _ => []
  | 0, some _, _ => []
  | fuel + 1, some n, links =>
      let inserted := instanceInsert hs hash new n.1 links
      addHeadSteps links (n.1, new.node_ver) (findBucket hs new (hash n.1)) ++
        copyChainSteps hash new fuel (inserted.next n) inserted

/-- The writes of `copyBuckets`. -/
def copyBucketsSteps (hash : Nat → BitVec 32) (old new : TableInstance) (fuel : Nat) :
    List Nat → Links BucketHead FlowNode → List (Links BucketHead FlowNode)
  | [], _ => []
  | i :: rest, links =>
      copyChainSteps hs hash new fuel (links.first (old.ptr, i)) links ++
        match copyChain hs hash new fuel (links.first (old.ptr, i)) links with
        | .ok links => copyBucketsSteps hash old new fuel rest links
        | .error _ => []

/-- The instance that a rehash copies to. -/
def rehashInstance (old : TableInstance) (n_buckets : Nat) (seed : BitVec 32) (ptr : Nat) : TableInstance :=
  { ptr := ptr, n_buckets := n_buckets, node_ver := !old.node_ver, hash_seed := seed, keep_flows := false }

/-- The memory after `table_instance_alloc`, and after each write of `flow_table_copy_flows`. -/
def rehashSteps (hash : Nat → BitVec 32) (old : TableInstance) (n_buckets : Nat) (seed : BitVec 32)
    (ptr fuel : Nat) (links : Links BucketHead FlowNode) : List (Links BucketHead FlowNode) :=
  let fresh := (tableInstanceAlloc links ptr n_buckets seed).2
  fresh :: copyBucketsSteps hs hash old (rehashInstance old n_buckets seed ptr) fuel (List.range old.n_buckets) fresh

end Steps

variable {hs : Hashes} {hash : Nat → BitVec 32} {old new : TableInstance}
variable {links links' : Links BucketHead FlowNode} {fuel : Nat}

/-! ## The old instance stays -/

/-- The heads of an instance lead to nodes of its version. -/
structure LeadsToOwn (ti : TableInstance) (links : Links BucketHead FlowNode) : Prop where
  n_pos : 0 < ti.n_buckets
  own : ∀ head, ti.IsHead head → ∀ n, links.first head = some n → n.2 = ti.node_ver

/-- A flow that is linked in the new instance. -/
theorem LeadsToOwn.insert (h : LeadsToOwn new links) (flow : Nat) :
    LeadsToOwn new (instanceInsert hs hash new flow links) := by
  refine ⟨h.n_pos, fun head hhead n hn => ?_⟩
  rw [instanceInsert, addHead_first] at hn
  by_cases heq : head = findBucket hs new (hash flow)
  · rw [heq, Function.update_self] at hn
    obtain rfl := Option.some.inj hn
    rfl
  · rw [Function.update_of_ne heq] at hn
    exact h.own head hhead n hn

/-- None of the writes for one flow goes to the old instance. -/
theorem LeadsToOwn.steps_untouched (h : LeadsToOwn new links) (hptr : old.ptr ≠ new.ptr)
    (hver : old.node_ver ≠ new.node_ver) (flow : Nat) (hstep : links' ∈
      addHeadSteps links (flow, new.node_ver) (findBucket hs new (hash flow))) : Untouched old links links' := by
  obtain ⟨hnext, hpprev, hfirst⟩ := addHeadSteps_frame hstep
  have hother : ∀ f, old.node f ≠ (flow, new.node_ver) := fun f heq => hver (congrArg Prod.snd heq)
  refine ⟨fun f => hnext _ (hother f), fun f => hpprev _ (hother f) ?_, fun i => hfirst _ ?_⟩
  · -- the node that has been the first one is of the new version
    intro hf
    exact hver (h.own _ (findBucket_isHead hs h.n_pos _) _ hf)
  · exact fun heq => hptr (congrArg Prod.fst heq)

theorem LeadsToOwn.insert_untouched (h : LeadsToOwn new links) (hptr : old.ptr ≠ new.ptr)
    (hver : old.node_ver ≠ new.node_ver) (flow : Nat) :
    Untouched old links (instanceInsert hs hash new flow links) :=
  h.steps_untouched hptr hver flow (addHead_mem_steps ..)

/-- The inner loop, from wherever it goes on. -/
theorem copyChainSteps_untouched (hptr : old.ptr ≠ new.ptr) (hver : old.node_ver ≠ new.node_ver)
    (o : Option FlowNode) (h : LeadsToOwn new links) :
    (∀ m ∈ copyChainSteps hs hash new fuel o links, Untouched old links m) ∧
      ∀ links', copyChain hs hash new fuel o links = .ok links' →
        LeadsToOwn new links' ∧ Untouched old links links' ∧
          (copyChainSteps hs hash new fuel o links).getLast?.getD links = links' := by
  induction fuel generalizing o links with
  | zero =>
      cases o with
      | none =>
          refine ⟨nofun, fun links' hok => ?_⟩
          obtain rfl := Except.ok.inj hok
          exact ⟨h, Untouched.refl, rfl⟩
      | some n => exact ⟨nofun, nofun⟩
  | succ fuel ih =>
      cases o with
      | none =>
          refine ⟨nofun, fun links' hok => ?_⟩
          obtain rfl := Except.ok.inj hok
          exact ⟨h, Untouched.refl, rfl⟩
      | some n =>
          have hfirst : Untouched old links (instanceInsert hs hash new n.1 links) :=
            h.insert_untouched hptr hver n.1
          obtain ⟨hrest, hend⟩ := ih ((instanceInsert hs hash new n.1 links).next n) (h.insert n.1)
          constructor
          · intro m hm
            rcases List.mem_append.mp hm with hm | hm
            · exact h.steps_untouched hptr hver n.1 hm
            · exact hfirst.trans (hrest m hm)
          · intro links' hok
            obtain ⟨hleads, hu, hlast⟩ := hend links' hok
            refine ⟨hleads, hfirst.trans hu, ?_⟩
            rw [copyChainSteps, List.getLast?_append, getLast?_addHeadSteps, ← hlast]
            cases (copyChainSteps hs hash new fuel _ _).getLast? <;> rfl

/-- The outer loop. -/
theorem copyBucketsSteps_untouched (hptr : old.ptr ≠ new.ptr) (hver : old.node_ver ≠ new.node_ver)
    (buckets : List Nat) (h : LeadsToOwn new links) :
    (∀ m ∈ copyBucketsSteps hs hash old new fuel buckets links, Untouched old links m) ∧
      ∀ links', copyBuckets hs hash old new fuel buckets links = .ok links' →
        (copyBucketsSteps hs hash old new fuel buckets links).getLast?.getD links = links' := by
  induction buckets generalizing links with
  | nil => exact ⟨fun m hm => absurd hm List.not_mem_nil, fun links' hok => Except.ok.inj hok⟩
  | cons i rest ih =>
      obtain ⟨hchain, hend⟩ :=
        @copyChainSteps_untouched hs hash old new links fuel hptr hver (links.first (old.ptr, i)) h
      rw [copyBucketsSteps, copyBuckets]
      cases hcopy : copyChain hs hash new fuel (links.first (old.ptr, i)) links with
      | error e =>
          dsimp only
          rw [List.append_nil]
          refine ⟨hchain, fun links' hok => ?_⟩
          cases hok
      | ok links₁ =>
          obtain ⟨hleads, hu, hlast⟩ := hend links₁ hcopy
          obtain ⟨hrest, hrestend⟩ := ih hleads
          dsimp only
          constructor
          · intro m hm
            rcases List.mem_append.mp hm with hm | hm
            · exact hchain m hm
            · exact hu.trans (hrest m hm)
          · intro links' hok
            rw [List.getLast?_append, ← hrestend links' hok, ← hlast]
            cases (copyBucketsSteps hs hash old new fuel rest _).getLast? <;> rfl

/-- A reader of the old instance sees the same chains. -/
theorem Untouched.chain_iff (h : Untouched old links links') (i : Nat) (l : List Nat) :
    Chain links (old.ptr, i) (l.map old.node) ↔ Chain links' (old.ptr, i) (l.map old.node) := by
  have hback : Untouched old links' links :=
    ⟨fun f => (h.next f).symm, fun f => (h.pprev f).symm, fun i => (h.first i).symm⟩
  exact ⟨h.chain, hback.chain⟩

/-! ## A rehash -/

/-- The instance has the flows of a set, each once, in the bucket that its hash selects. -/
def ListsByHash (hs : Hashes) (hash : Nat → BitVec 32) (links : Links BucketHead FlowNode) (ti : TableInstance)
    (flows : Finset Nat) : Prop :=
  InstanceLists links ti flows ∧
    ∀ i < ti.n_buckets, ∃ l : List Nat, Chain links (ti.ptr, i) (l.map ti.node) ∧
      ∀ f, f ∈ l ↔ f ∈ flows ∧ (hs.jhash_1word (hash f) ti.hash_seed).toNat &&& (ti.n_buckets - 1) = i

theorem Holds.listsByHash {flows : Finset Nat} (h : Holds hs links new hash flows) :
    ListsByHash hs hash links new flows := by
  refine ⟨h.instanceLists, fun i hi => ?_⟩
  obtain ⟨l, hl, hmem⟩ := h.indexed (new.ptr, i) ⟨rfl, hi⟩
  refine ⟨l, hl, fun f => ?_⟩
  rw [hmem]
  show f ∈ flows ∧ (new.ptr, _) = (new.ptr, i) ↔ _
  rw [Prod.mk.injEq, eq_self, true_and]

/-- What is seen of the old instance while it is copied: nothing changes at any of the writes. -/
def SeenUnchanged (old : TableInstance) (links : Links BucketHead FlowNode)
    (steps : List (Links BucketHead FlowNode)) : Prop :=
  ∀ m ∈ steps, Untouched old links m ∧
    ∀ (i : Nat) (l : List Nat), Chain links (old.ptr, i) (l.map old.node) ↔ Chain m (old.ptr, i) (l.map old.node)

/-- A rehash of an instance to any number of buckets that is a power of two, whatever the seed: while it goes
on, nothing of the old instance changes, and at the end the new one has the same flows, linked by the nodes of
the other version. -/
def RehashCopies (hs : Hashes) (hash : Nat → BitVec 32) (links : Links BucketHead FlowNode) (old : TableInstance)
    (ptr fuel : Nat) (flows : Finset Nat) : Prop :=
  InstanceLists links old flows ∧
    ∀ (k : Nat) (seed : BitVec 32), ∃ links',
      tableInstanceRehash hs hash old (2 ^ k) (some seed) ptr fuel links =
          .ok (some (rehashInstance old (2 ^ k) seed ptr, links')) ∧
        (rehashSteps hs hash old (2 ^ k) seed ptr fuel links).getLast? = some links' ∧
        SeenUnchanged old links (rehashSteps hs hash old (2 ^ k) seed ptr fuel links) ∧
        ListsByHash hs hash links' (rehashInstance old (2 ^ k) seed ptr) flows

/-- **A rehash copies without touching the old instance.** -/
theorem Holds.rehashCopies {flows : Finset Nat} {ptr : Nat} (hold : Holds hs links old hash flows)
    (hptr : old.ptr ≠ ptr) (hfuel : flows.card ≤ fuel) : RehashCopies hs hash links old ptr fuel flows := by
  refine ⟨hold.instanceLists, fun k seed => ?_⟩
  let new := rehashInstance old (2 ^ k) seed ptr
  let fresh := (tableInstanceAlloc links ptr (2 ^ k) seed).2
  have hver : old.node_ver ≠ new.node_ver := by simp [new, rehashInstance]
  have hfresh : Untouched old links fresh := tableInstanceAlloc_untouched hptr
  have hleads : LeadsToOwn new fresh := by
    refine ⟨Nat.two_pow_pos k, fun head hhead n hn => ?_⟩
    have hnone : fresh.first head = none := if_pos hhead
    rw [hnone] at hn
    cases hn
  obtain ⟨hsteps, hend⟩ := @copyBucketsSteps_untouched hs hash old new fresh fuel hptr hver
    (List.range old.n_buckets) hleads
  obtain ⟨r, hok, hspec⟩ := tableInstanceRehash_spec (some seed) hold hptr (Nat.two_pow_pos k) hfuel
  obtain ⟨⟨new', links'⟩, hcopied, hr⟩ := bind_eq_ok.mp hok
  obtain rfl := Except.ok.inj hr
  obtain ⟨links'', hbuckets, hnew⟩ := bind_eq_ok.mp hcopied
  obtain ⟨rfl, rfl⟩ := Prod.mk.inj (Except.ok.inj hnew)
  obtain ⟨-, hholds, -⟩ := hspec _ _ rfl
  refine ⟨links'', hok, ?_, ?_, hholds.listsByHash⟩
  · rw [rehashSteps, List.getLast?_cons, hend links'' hbuckets]
  · intro m hm
    have huntouched : Untouched old links m := by
      rcases List.mem_cons.mp hm with rfl | hm
      · exact hfresh
      · exact hfresh.trans (hsteps m hm)
    exact ⟨huntouched, fun i l => huntouched.chain_iff i l⟩

/-! ## Tables in use -/

/-- Both instances of a table can be rehashed so. -/
def InstancesCopy (hs : Hashes) (s : TableState) : Prop :=
  RehashCopies hs s.table.flowHashOf s.table.links s.table.ti s.table.next_instance s.table.count s.flows ∧
    RehashCopies hs s.table.ufidHashOf s.table.ufid_links s.table.ufid_ti s.table.next_instance s.table.count
      (s.flows.filter fun flow => s.table.isUfid flow)

theorem TableInv.instancesCopy {s : TableState} {leaked : Nat → Nat} (h : TableInv hs s.table s.flows leaked) :
    InstancesCopy hs s := by
  constructor
  · exact h.keyed.rehashCopies h.ti_ptr.ne h.count.ge
  · apply h.identified.rehashCopies h.ufid_ptr.ne
    rw [h.count]
    exact Finset.card_filter_le ..

/-- **Rehashing copies**, whatever has been inserted, removed, flushed and rehashed before. -/
theorem tableRun_rehashCopies (hs : Hashes) (seed ufid_seed : BitVec 32) (ops : List TableOp)
    (hops : RunMeets (tableStep hs) (fun s op => op.Allowed s) (TableState.init seed ufid_seed) ops) :
    InstancesCopy hs (TableState.init seed ufid_seed) ∧
      RunHolds (tableStep hs) (fun _ _ _ s' => InstancesCopy hs s') (TableState.init seed ufid_seed) ops := by
  have hinit := TableState.init_inv hs seed ufid_seed
  constructor
  · obtain ⟨_, hinv⟩ := hinit
    exact hinv.instancesCopy
  · refine runHolds_of_runMeets (fun s op hinv hop => ?_) hinit hops
    obtain ⟨r, s', hok, leaked, hinv'⟩ := tableStep_inv hinv hop
    exact ⟨r, s', hok, hinv'.instancesCopy, leaked, hinv'⟩

/-- Insert a flow that matches everything, then remove it. -/
theorem tableRun_rehashCopies_removed :
    InstancesCopy ⟨fun _ => 0, fun _ _ => 0, fun _ => 0⟩ (TableState.init 0 0) ∧
      RunHolds (tableStep ⟨fun _ => 0, fun _ _ => 0, fun _ => 0⟩)
        (fun _ _ _ s' => InstancesCopy ⟨fun _ => 0, fun _ _ => 0, fun _ => 0⟩ s') (TableState.init 0 0)
        [.insert 5 (fun _ => 1) (.ufid [7]) zeroMask ⟨true, true, some 3, none, false⟩, .remove 5 true] := by
  refine tableRun_rehashCopies _ 0 0 _ ⟨⟨Finset.notMem_empty 5, [], rfl⟩, fun r s' hok => ?_⟩
  obtain rfl := congrArg Prod.snd (Except.ok.inj hok)
  exact ⟨Finset.mem_insert_self 5 ∅, fun _ _ _ => trivial⟩

end OvsDatapath.Flow
