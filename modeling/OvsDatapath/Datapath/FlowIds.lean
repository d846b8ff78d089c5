import OvsDatapath.Datapath.CmdEffects
import OvsDatapath.Flow.ExactLookup

/-!
# Flow identifiers

A flow is named by a unique identifier or by its unmasked key. `ovs_flow_cmd_new` refuses an identifier
that is in use. For a flow that is named by its key it looks for a flow that matches the new masked
key, and that need not find a flow that was created with the same key under another mask.

`CreatedApart` says of a command that it does not create such a flow: the new key can be told from the
keys of the table wherever a lookup of one of them might come across the flow of the other. In a run of
such commands identifiers stay unique, and a request that names a flow acts on it
(`flowCmdRun_identified`). `flowCmdRun_same_key` is a run of two commands that create two flows with one
key.
-/

namespace OvsDatapath.Datapath

open OvsDatapath.Lib OvsDatapath.Flow OvsDatapath.Actions

/-- `ovs_flow_cmd_get`: the flow that the reply is about, or an error. -/
def ovsFlowCmdGet (hs : Hashes) (s : DpState) (env : FlowCmdEnv) (a : FlowAttrs) :
    Except MemFault (Except Int Nat) :=
  let ufid := ovsNlaGetUfid a.ufid
  if a.key.isNone && ufid.isNone then .ok (.error einval)
  else
    match matchOf env false a with
    | .error e => .ok (.error e)
    | .ok m =>
        if !env.dp then .ok (.error enodev)
        else do
          match ← lookupFlow hs s.table.table env.stack ufid m with
          | none => .ok (.error enoent)
          | some flow => .ok (if env.reply ≠ 0 then .error env.reply else .ok flow)

/-! ## Naming a flow -/

/-- The identifier or the key of a request is the identifier of a flow. -/
def Names (ufid : Option (List (BitVec 8))) (m : Option SwFlowMatch) : SwFlowId → Prop
  | .ufid bytes => ufid = some bytes
  | .unmaskedKey key => ufid = none ∧ ∃ m', m = some m' ∧ m'.key = key

/-- Requests that name a flow act on it: GET answers for it, SET stores its actions, and DEL removes it
and no other. -/
structure ActsOn (hs : Hashes) (s : DpState) (flow : Nat) : Prop where
  get : ∀ env a m, matchOf env false a = .ok m → env.dp = true → env.reply = 0 →
    Names (ovsNlaGetUfid a.ufid) m (s.table.table.flows flow).id →
    ovsFlowCmdGet hs s env a = .ok (.ok flow)
  set : ∀ env a ufid m acts, setFlowOf env a = .ok (ufid, m, some acts) → env.dp = true →
    Names ufid m (s.table.table.flows flow).id → ovsFlowCmdSet hs s env a = .ok (0, s.setActs flow acts)
  del : ∀ env a m, matchOf env false a = .ok m → env.dp = true →
    Names (ovsNlaGetUfid a.ufid) m (s.table.table.flows flow).id →
    ∃ s', ovsFlowCmdDel hs s env a = .ok (0, s') ∧ s'.table.flows = s.table.flows.erase flow

/-- No two flows have the same identifier, and requests by it act on the flow. -/
structure Identified (hs : Hashes) (s : DpState) : Prop where
  unique : ∀ f ∈ s.table.flows, ∀ g ∈ s.table.flows,
    (s.table.table.flows f).id = (s.table.table.flows g).id → f = g
  acts : ∀ flow ∈ s.table.flows, ActsOn hs s flow

/-! ## Keys that can be told apart -/

/-- Up to the last word that is set in the first key, and from where its comparison starts, the other
one is different. -/
def Distinguished (key key' : SwFlowKey) : Prop :=
  ∃ j j' : Fin swFlowKeySize, flowKeyStart key ≤ j ∧ (j : Nat) / sizeofLong ≤ (j' : Nat) / sizeofLong ∧
    key j' ≠ 0 ∧ key j ≠ key' j

/-- If the command creates a flow that is named by its key, then the key is distinguished from that of
every flow in the table whose mask it matches under, and the other way round. -/
def CreatedApart (s : DpState) : FlowCmd → Prop
  | .new env a _ => ∀ r key, newFlowOf env a = .ok r → r.id = .unmaskedKey key →
      (∀ flow ∈ s.table.flows, ¬ Matches s.table.table (maskedKey r.parsed) flow) →
      ∀ flow ∈ s.table.flows, ∀ key', (s.table.table.flows flow).id = .unmaskedKey key' →
        (Matches s.table.table key flow → Distinguished key key') ∧
          (key'.masked r.mask.key = key.masked r.mask.key → Distinguished key' key)
  | _ => True

/-- The comparison of unmasked keys tells distinguished keys apart, whatever request the first comes
from. -/
theorem Distinguished.not_cmp {m : SwFlowMatch} {key' : SwFlowKey} (h : Distinguished m.key key')
    (hrange : SwFlowMask.Aligned ⟨m.range, m.key⟩) : ovsFlowCmpUnmaskedKey key' m = false := by
  obtain ⟨j, j', hstart, hword, hset, hne⟩ := h
  -- what is set lies inside the range of the request
  have hin : (j' : Nat) < m.range.stop := by
    by_contra hout
    exact hset (hrange.zero_outside j' fun hj => hout hj.2)
  obtain ⟨b, hb⟩ := hrange.stop_dvd
  have hstop := hrange.stop_le
  dsimp only at hb hstop
  have hj : (j : Nat) < m.range.stop := by
    unfold sizeofLong at hword hb
    omega
  have haligned := aligned_compared hrange (hstart.trans_lt hj).le
  rw [ovsFlowCmpUnmaskedKey, Bool.eq_false_iff]
  intro hcmp
  exact hne ((cmpKey_iff haligned).mp hcmp j hstart hj).symm

theorem not_distinguished_self (key : SwFlowKey) : ¬ Distinguished key key :=
  fun ⟨_, _, _, _, _, hne⟩ => hne rfl

/-! ## The invariant of the table -/

variable {hs : Hashes} {t t' : FlowTable} {flows flows' : Finset Nat} {leaked leaked' : Nat → Nat}

/-- A flow is matched by the key that it is named by, flows with one mask have different keys, flows
with one identifier are the same, and the keys of flows are distinguished where a lookup of one might
find the other. -/
structure IdsApart (t : FlowTable) (flows : Finset Nat) : Prop where
  own : ∀ f ∈ flows, ∀ key, (t.flows f).id = .unmaskedKey key → Matches t key f
  keys : ∀ f ∈ flows, ∀ g ∈ flows, f ≠ g → (t.flows f).mask = (t.flows g).mask →
    (t.flows f).key ≠ (t.flows g).key
  ufids : ∀ f ∈ flows, ∀ g ∈ flows, ∀ ufid, (t.flows f).id = .ufid ufid → (t.flows g).id = .ufid ufid → f = g
  apart : ∀ f ∈ flows, ∀ g ∈ flows, ∀ key key', f ≠ g → (t.flows f).id = .unmaskedKey key →
    (t.flows g).id = .unmaskedKey key' → Matches t key g → Distinguished key key'

theorem idsApart_empty (t : FlowTable) : IdsApart t ∅ := ⟨nofun, nofun, nofun, nofun⟩

theorem IdsApart.keysApart (h : IdsApart t flows) : KeysApart t flows := ⟨h.own, h.keys⟩

/-- Flows may leave the table. -/
theorem IdsApart.shrink (h : IdsApart t flows) (hinv : TableInv hs t flows leaked)
    (hinv' : TableInv hs t' flows' leaked') (hcontents : SameContents t t') (hsub : flows' ⊆ flows)
    (hflows : ∀ f ∈ flows', t'.flows f = t.flows f) : IdsApart t' flows' := by
  obtain ⟨hown, hkeys⟩ := h.keysApart.shrink hinv hinv' hcontents hsub hflows
  refine ⟨hown, hkeys, ?_, ?_⟩
  · intro f hf g hg ufid hidf hidg
    rw [hflows f hf] at hidf
    rw [hflows g hg] at hidg
    exact h.ufids f (hsub hf) g (hsub hg) ufid hidf hidg
  · intro f hf g hg key key' hne hidf hidg hmatchg
    rw [hflows f hf] at hidf
    rw [hflows g hg] at hidg
    rw [matches_congr hinv hinv' hcontents (hsub hg) hg (hflows g hg)] at hmatchg
    exact h.apart f (hsub hf) g (hsub hg) key key' hne hidf hidg hmatchg

/-- A flow may enter it that is found to be no duplicate, with a key that is distinguished. -/
theorem IdsApart.added {s s' : TableState} {flow : Nat} {unmasked : SwFlowKey} {id : SwFlowId}
    {mask : SwFlowMask} (h : IdsApart s.table s.flows) (hinv : TableInv hs s.table s.flows leaked)
    (hinv' : TableInv hs s'.table s'.flows leaked') (hadded : FlowAdded s flow unmasked id mask 0 s')
    (hflow : flow ∉ s.flows) (hid : ∀ key, id = .unmaskedKey key → key = unmasked)
    (hnomatch : ∀ f ∈ s.flows, ¬ Matches s.table (unmasked.masked mask.key) f)
    (hnoufid : ∀ ufid, id = .ufid ufid → ∀ f ∈ s.flows, (s.table.flows f).id ≠ .ufid ufid)
    (hapart : ∀ key, id = .unmaskedKey key → ∀ g ∈ s.flows, ∀ key',
      (s.table.flows g).id = .unmaskedKey key' → (Matches s.table key g → Distinguished key key') ∧
        (key'.masked mask.key = key.masked mask.key → Distinguished key' key)) :
    IdsApart s'.table s'.flows := by
  have hmem : s'.flows = insert flow s.flows := by rw [hadded.flows, if_pos rfl]
  have hne : ∀ f ∈ s.flows, f ≠ flow := fun f hf heq => hflow (heq ▸ hf)
  have hold : ∀ f ∈ s.flows, s'.table.flows f = s.table.flows f := fun f hf => hadded.others f (hne f hf)
  have hin : ∀ f ∈ s.flows, f ∈ s'.flows := fun f hf => hmem ▸ Finset.mem_insert_of_mem hf
  -- what is in the table already matches as before
  have hmatch : ∀ f ∈ s.flows, ∀ key, Matches s'.table key f ↔ Matches s.table key f := fun f hf key =>
    matches_congr hinv hinv' hadded.contents hf (hin f hf) (hold f hf) key
  obtain ⟨hown, hkeys⟩ := h.keysApart.added hinv hinv' hadded hflow hid hnomatch
  refine ⟨hown, hkeys, ?_, ?_⟩
  · intro f hf g hg ufid hidf hidg
    rcases Finset.mem_insert.mp (hmem ▸ hf) with rfl | hf <;>
      rcases Finset.mem_insert.mp (hmem ▸ hg) with rfl | hg
    · rfl
    · rw [hadded.id] at hidf
      rw [hold g hg] at hidg
      exact absurd hidg (hnoufid ufid hidf g hg)
    · rw [hadded.id] at hidg
      rw [hold f hf] at hidf
      exact absurd hidf (hnoufid ufid hidg f hf)
    · rw [hold f hf] at hidf
      rw [hold g hg] at hidg
      exact h.ufids f hf g hg ufid hidf hidg
  · intro f hf g hg key key' hfg hidf hidg hmatchg
    rcases Finset.mem_insert.mp (hmem ▸ hf) with rfl | hf <;>
      rcases Finset.mem_insert.mp (hmem ▸ hg) with rfl | hg
    · exact absurd rfl hfg
    · rw [hadded.id] at hidf
      rw [hold g hg] at hidg
      exact (hapart key hidf g hg key' hidg).1 ((hmatch g hg key).mp hmatchg)
    · rw [hadded.id] at hidg
      rw [hold f hf] at hidf
      have heq := (hadded.matches_iff key).mp hmatchg
      rw [← hid key' hidg] at heq
      exact (hapart key' hidg f hf key hidf).2 heq
    · rw [hold f hf] at hidf
      rw [hold g hg] at hidg
      exact h.apart f hf g hg key key' hfg hidf hidg ((hmatch g hg key).mp hmatchg)

/-! ## What requests find -/

variable {m : SwFlowMatch}

/-- A lookup by an identifier finds the flow that has it. -/
theorem lookupUfid_own (h : IdsApart t flows) (hinv : TableInv hs t flows leaked) {flow : Nat}
    (hflow : flow ∈ flows) {ufid : List (BitVec 8)} (hid : (t.flows flow).id = .ufid ufid) :
    ovsFlowTblLookupUfid hs t ufid = .ok (some flow) := by
  obtain ⟨r, hok, hsome, hnone⟩ := ovsFlowTblLookupUfid_spec hinv ufid
  cases r with
  | none => exact absurd hid (hnone rfl flow hflow)
  | some found =>
      obtain ⟨hmem, hfound⟩ := hsome found rfl
      rw [hok, h.ufids found hmem flow hflow ufid hfound hid]

theorem lookupExactLoop_own {stack : Nat → SwFlowKey} {flow p : Nat} (hinv : TableInv hs t flows leaked)
    (hfind : maskedFlowLookup hs t (stack p) m.key p = .ok (some flow))
    (hexact : (t.flows flow).isExactly m = true)
    (honly : ∀ g ∈ flows, Matches t m.key g → (t.flows g).isExactly m = true → g = flow)
    {masks : List (Option Nat)} (hmem : some p ∈ masks)
    (hlive : ∀ p, some p ∈ masks → ∃ entry, t.masks p = some entry) :
    lookupExactLoop hs t stack m masks = .ok (some flow) := by
  induction masks with
  | nil => cases hmem
  | cons o rest ih =>
      have hlive' : ∀ p, some p ∈ rest → ∃ entry, t.masks p = some entry :=
        fun p hp => hlive p (List.mem_cons_of_mem _ hp)
      cases o with
      | none => exact ih ((List.mem_cons.mp hmem).resolve_left nofun) hlive'
      | some q =>
          rw [lookupExactLoop]
          rcases eq_or_ne q p with rfl | hne
          · rw [hfind, ok_bind]
            dsimp only
            rw [if_pos hexact]
          · have hmem' : some p ∈ rest :=
              (List.mem_cons.mp hmem).resolve_left fun heq => hne (Option.some.inj heq).symm
            obtain ⟨entry, hentry⟩ := hlive q List.mem_cons_self
            obtain ⟨r, hok, hsome, -⟩ := maskedFlowLookup_spec hinv hentry (stack q) m.key
            rw [hok, ok_bind]
            cases r with
            | none => exact ih hmem' hlive'
            | some g =>
                dsimp only
                split_ifs with hg
                · obtain ⟨hgmem, hgmatch⟩ := hsome g rfl
                  rw [honly g hgmem hgmatch hg]
                · exact ih hmem' hlive'

/-- A lookup by an unmasked key finds the flow that is named by it. -/
theorem lookupExact_own (h : IdsApart t flows) (hinv : TableInv hs t flows leaked) {flow : Nat}
    (hflow : flow ∈ flows) (hrange : SwFlowMask.Aligned ⟨m.range, m.key⟩)
    (hid : (t.flows flow).id = .unmaskedKey m.key) (stack : Nat → SwFlowKey) :
    ovsFlowTblLookupExact hs t stack m = .ok (some flow) := by
  obtain ⟨p, entry, hp, hentry, -⟩ := hinv.masked flow hflow
  have hmatch := h.own flow hflow m.key hid
  have hmem : some p ∈ t.mask_array.masks :=
    List.reduceOption_mem_iff.mp ((hinv.masksOk.live p).mpr (by rw [hentry]; rfl))
  refine lookupExactLoop_own hinv (maskedFlowLookup_own h.keysApart hinv hflow hp hentry hmatch (stack p)) ?_ ?_ hmem
    fun _ => hinv.exists_entry
  · rw [SwFlow.isExactly, hid]
    exact cmpKey_self ..
  · intro g hg hgmatch hexact
    unfold SwFlow.isExactly at hexact
    cases hgid : (t.flows g).id with
    | ufid bytes =>
        rw [hgid] at hexact
        cases hexact
    | unmaskedKey key' =>
        rw [hgid] at hexact
        by_contra hne
        have hdist := h.apart flow hflow g hg m.key key' (fun heq => hne heq.symm) hid hgid hgmatch
        exact Bool.false_ne_true ((hdist.not_cmp hrange).symm.trans hexact)

/-! ## Requests -/

variable {s s' : DpState} {env : FlowCmdEnv} {a : FlowAttrs}

theorem matchOf_range {has_mask : Bool} {m' : SwFlowMatch} (h : matchOf env has_mask a = .ok (some m')) :
    SwFlowMask.Aligned ⟨m'.range, m'.key⟩ := by
  unfold matchOf at h
  split at h
  · cases h
  · obtain ⟨m, hmatch, h⟩ := bind_eq_ok.mp h
    obtain rfl := Option.some.inj (Except.ok.inj h)
    exact ovsNlaGetMatch_range hmatch

theorem setFlowOf_range {ufid : Option (List (BitVec 8))} {m' : SwFlowMatch} {acts : Option (List Action)}
    (h : setFlowOf env a = .ok (ufid, some m', acts)) : SwFlowMask.Aligned ⟨m'.range, m'.key⟩ := by
  unfold setFlowOf at h
  dsimp only at h
  split_ifs at h
  obtain ⟨⟨m₁, acts₁⟩, hinit, h⟩ := bind_eq_ok.mp h
  dsimp only at h
  split_ifs at h
  obtain ⟨-, rfl, -⟩ : _ ∧ m₁ = some m' ∧ acts₁ = acts := by simpa using h
  obtain ⟨m₂, hmatch, hinit⟩ := bind_eq_ok.mp hinit
  have hm : m₂ = some m' := by
    split at hinit
    · exact congrArg Prod.fst (Except.ok.inj hinit)
    · split at hinit
      · cases hinit
      · obtain ⟨acts₂, -, hinit⟩ := bind_eq_ok.mp hinit
        exact congrArg Prod.fst (Except.ok.inj hinit)
  exact matchOf_range (hm ▸ hmatch)

theorem newFlowOf_id {r : NewFlow} (h : newFlowOf env a = .ok r) {key : SwFlowKey}
    (hid : r.id = .unmaskedKey key) : key = r.parsed.key := by
  unfold newFlowOf at h
  split at h
  case h_2 => cases h
  case h_1 =>
    split at h
    · cases h
    obtain ⟨m, -, h⟩ := bind_eq_ok.mp h
    obtain ⟨id, hident, h⟩ := bind_eq_ok.mp h
    obtain ⟨acts, -, h⟩ := bind_eq_ok.mp h
    split_ifs at h
    obtain rfl := Except.ok.inj h
    unfold ovsNlaGetIdentifier at hident
    dsimp only at hid
    split at hident
    · rw [← Except.ok.inj hident] at hid
      cases hid
    · split_ifs at hident
      rw [← Except.ok.inj hident] at hid
      exact (SwFlowId.unmaskedKey.inj hid).symm

/-- The lookup of a request that names a flow finds it. -/
theorem lookupFlow_own (h : IdsApart s.table.table s.table.flows) (hok : s.TableOk hs) {flow : Nat}
    (hflow : flow ∈ s.table.flows) {ufid : Option (List (BitVec 8))} {m : Option SwFlowMatch}
    (hrange : ∀ m', m = some m' → SwFlowMask.Aligned ⟨m'.range, m'.key⟩)
    (hnames : Names ufid m (s.table.table.flows flow).id) (stack : Nat → SwFlowKey) :
    lookupFlow hs s.table.table stack ufid m = .ok (some flow) := by
  obtain ⟨leaked, hinv⟩ := hok.table
  unfold Names at hnames
  split at hnames
  next bytes hid =>
    subst hnames
    exact lookupUfid_own h hinv hflow hid
  next key hid =>
    obtain ⟨rfl, m', rfl, rfl⟩ := hnames
    exact lookupExact_own h hinv hflow (hrange m' rfl) hid stack

/-- A request that names a flow has an identifier or a key. -/
theorem Names.some {ufid : Option (List (BitVec 8))} {m : Option SwFlowMatch} {id : SwFlowId}
    (h : Names ufid m id) : (m.isNone && ufid.isNone) = false := by
  unfold Names at h
  split at h
  · rw [h, Bool.and_eq_false_iff]
    exact .inr rfl
  · obtain ⟨-, m', rfl, -⟩ := h
    rfl

theorem actsOn (h : IdsApart s.table.table s.table.flows) (hok : s.TableOk hs) {flow : Nat}
    (hflow : flow ∈ s.table.flows) : ActsOn hs s flow := by
  constructor
  · intro env a m hmatch hdp hreply hnames
    have hlookup := lookupFlow_own h hok hflow (fun m' hm => matchOf_range (hm ▸ hmatch)) hnames env.stack
    have hsome : (a.key.isNone && (ovsNlaGetUfid a.ufid).isNone) = false := by
      cases hkey : a.key with
      | some key => rfl
      | none =>
          rw [matchOf, hkey] at hmatch
          obtain rfl := Except.ok.inj hmatch
          exact hnames.some
    unfold ovsFlowCmdGet
    dsimp only
    rw [hsome, if_neg Bool.false_ne_true, hmatch]
    dsimp only
    rw [hdp, if_neg (by decide), hlookup, ok_bind]
    dsimp only
    rw [if_neg (not_not.mpr hreply)]
  · intro env a ufid m acts hset hdp hnames
    have hlookup := lookupFlow_own h hok hflow (fun m' hm => setFlowOf_range (hm ▸ hset)) hnames env.stack
    unfold ovsFlowCmdSet
    rw [hset]
    dsimp only
    rw [hdp, if_neg (by decide), hlookup, ok_bind]
  · intro env a m hmatch hdp hnames
    have hlookup := lookupFlow_own h hok hflow (fun m' hm => matchOf_range (hm ▸ hmatch)) hnames env.stack
    obtain ⟨leaked, hinv⟩ := hok.table
    obtain ⟨r, table, hremove, -, hflows, -⟩ := tableStep_spec hinv
      (show TableOp.Allowed s.table (.remove flow env.table.array_alloc) from hflow)
    refine ⟨{ s with table := table }, ?_, hflows⟩
    unfold ovsFlowCmdDel
    dsimp only
    rw [hmatch]
    dsimp only
    rw [hdp, if_neg (by decide), hnames.some, if_neg Bool.false_ne_true, hlookup, ok_bind]
    dsimp only
    rw [hremove, ok_bind]

theorem identified (h : IdsApart s.table.table s.table.flows) (hok : s.TableOk hs) : Identified hs s := by
  refine ⟨fun f hf g hg heq => ?_, fun flow hflow => actsOn h hok hflow⟩
  cases hid : (s.table.table.flows f).id with
  | ufid bytes => exact h.ufids f hf g hg bytes hid (heq ▸ hid)
  | unmaskedKey key =>
      by_contra hne
      have hgid : (s.table.table.flows g).id = .unmaskedKey key := heq ▸ hid
      exact not_distinguished_self key (h.apart f hf g hg key key hne hid hgid (h.own g hg key hgid))

/-! ## Runs -/

/-- The invariant of a run. -/
structure DpState.IdsOk (hs : Hashes) (s : DpState) : Prop where
  tableOk : s.TableOk hs
  ids : IdsApart s.table.table s.table.flows

theorem DpState.init_idsOk (hs : Hashes) (seed ufid_seed : BitVec 32) :
    (DpState.init seed ufid_seed).IdsOk hs :=
  ⟨DpState.init_tableOk hs seed ufid_seed, idsApart_empty _⟩

/-- What a command does to the table: flows leave it or stay, or a flow enters it that is no duplicate. -/
theorem CmdEffect.tableChange {cmd : FlowCmd} (heffect : CmdEffect hs s cmd s') (h : s.TableOk hs) :
    (SameContents s.table.table s'.table.table ∧ s'.table.flows ⊆ s.table.flows ∧
        ∀ f ∈ s'.table.flows, s'.table.table.flows f = s.table.table.flows f) ∨
      ∃ env a create_or_excl r, cmd = .new env a create_or_excl ∧ newFlowOf env a = .ok r ∧
        s.next_flow ∉ s.table.flows ∧ FlowAdded s.table s.next_flow r.parsed.key r.id r.mask 0 s'.table ∧
        (∀ f ∈ s.table.flows, ¬ Matches s.table.table (maskedKey r.parsed) f) ∧
        ∀ ufid, r.id = .ufid ufid → ∀ f ∈ s.table.flows, (s.table.table.flows f).id ≠ .ufid ufid := by
  obtain ⟨leaked, hinv⟩ := h.table
  cases heffect with
  | kept | updated | replaced => exact .inl ⟨.of_eq rfl, subset_rfl, fun _ _ => rfl⟩
  | @inserted env a create_or_excl r err table hnew hdup hins =>
      have hfresh : s.next_flow ∉ s.table.flows := fun hmem => lt_irrefl _ (h.fresh _ hmem)
      have hadded := tableStep_added hinv hfresh (newFlowOf_builtMask hnew) hins
      rw [DpState.inserted_table]
      by_cases herr : err = 0
      · subst herr
        obtain ⟨o, hok, -, hnone⟩ := duplicateFlow_spec hinv env.stack r
        obtain rfl := Except.ok.inj (hdup.symm.trans hok)
        obtain ⟨hnomatch, hnoufid⟩ := hnone rfl
        exact .inr ⟨env, a, create_or_excl, r, rfl, hnew, hfresh, hadded, hnomatch, hnoufid⟩
      · have hflows := hadded.flows
        rw [if_neg herr] at hflows
        refine .inl ⟨hadded.contents, hflows.le, fun f hf => ?_⟩
        exact hadded.others f fun heq => hfresh (heq ▸ hflows ▸ hf)
  | removed hmem hrem =>
      obtain ⟨r, table, heq, -, hflows, hkept⟩ :=
        tableStep_spec hinv (show TableOp.Allowed s.table (.remove _ _) from hmem)
      obtain ⟨rfl, rfl⟩ := Prod.mk.inj (Except.ok.inj (hrem.symm.trans heq))
      obtain ⟨t, hremove, hrem⟩ := bind_eq_ok.mp hrem
      obtain ⟨-, rfl⟩ := Prod.mk.inj (Except.ok.inj hrem)
      exact .inl ⟨ovsFlowTblRemove_contents hinv hmem hremove, Finset.erase_subset _ _,
        fun f _ => congrFun hkept f⟩
  | flushed hflush =>
      obtain ⟨⟨err, t⟩, hflush', hflush⟩ := bind_eq_ok.mp hflush
      obtain ⟨rfl, rfl⟩ := Prod.mk.inj (Except.ok.inj hflush)
      left
      -- a flush leaves the masks and the flows as they are
      have hsame : t.masks = s.table.table.masks ∧ t.flows = s.table.table.flows := by
        unfold ovsFlowTblFlush at hflush'
        split at hflush'
        · obtain ⟨links, -, hflush'⟩ := bind_eq_ok.mp hflush'
          obtain ⟨-, rfl⟩ := Prod.mk.inj (Except.ok.inj hflush')
          exact ⟨rfl, rfl⟩
        all_goals
          obtain ⟨-, rfl⟩ := Prod.mk.inj (Except.ok.inj hflush')
          exact ⟨rfl, rfl⟩
      refine ⟨.of_eq hsame.1, ?_, fun f _ => congrFun hsame.2 f⟩
      dsimp only
      split_ifs
      · exact Finset.empty_subset _
      · exact subset_rfl

/-- One command keeps it. -/
theorem flowCmdStep_idsOk {cmd : FlowCmd} (h : s.IdsOk hs) (hcmd : CreatedApart s cmd) :
    ∃ r s', flowCmdStep hs s cmd = .ok (r, s') ∧ s'.IdsOk hs := by
  obtain ⟨r, s', hok, heffect⟩ := flowCmdStep_effect h.tableOk cmd
  have htableOk := heffect.tableOk h.tableOk
  refine ⟨r, s', hok, htableOk, ?_⟩
  obtain ⟨leaked, hinv⟩ := h.tableOk.table
  obtain ⟨leaked', hinv'⟩ := htableOk.table
  obtain ⟨hcontents, hsub, hflows⟩ | ⟨env, a, create_or_excl, r, rfl, hnew, hfresh, hadded, hnomatch, hnoufid⟩ :=
    heffect.tableChange h.tableOk
  · exact h.ids.shrink hinv hinv' hcontents hsub hflows
  · have hkey : maskedKey r.parsed = r.parsed.key.masked r.mask.key := ovsFlowMaskKey_full ..
    exact h.ids.added hinv hinv' hadded hfresh (fun key => newFlowOf_id hnew) (hkey ▸ hnomatch) hnoufid
      fun key hid => hcmd r key hnew hid hnomatch

/-- **Identifiers are unique, and requests by them act on the right flow**, in every state of every run
whose commands create flows by key only apart from the others. -/
theorem flowCmdRun_identified (hs : Hashes) (seed ufid_seed : BitVec 32) (cmds : List FlowCmd)
    (hcmds : RunMeets (flowCmdStep hs) CreatedApart (DpState.init seed ufid_seed) cmds) :
    Identified hs (DpState.init seed ufid_seed) ∧
      RunHolds (flowCmdStep hs) (fun _ _ _ s' => Identified hs s') (DpState.init seed ufid_seed) cmds := by
  have hinit := DpState.init_idsOk hs seed ufid_seed
  refine ⟨identified hinit.ids hinit.tableOk, runHolds_of_runMeets (fun s cmd hinv hcmd => ?_) hinit hcmds⟩
  obtain ⟨r, s', hok, hinv'⟩ := flowCmdStep_idsOk hinv hcmd
  exact ⟨r, s', hok, identified hinv'.ids hinv'.tableOk, hinv'⟩

/-- The key of Ethernet frames with some addresses, and masks that match the source or the destination. -/
def addressedKeyAttrs : List (BitVec 8) := nlaPut .ethernet [2, 0, 0, 0, 0, 1, 2, 0, 0, 0, 0, 2]

/-- Match the source address. -/
def matchSrcAttrs : List (BitVec 8) := nlaPut .ethernet (List.replicate 6 0xFF ++ List.replicate 6 0)

/-- Match the destination address. -/
def matchDstAttrs : List (BitVec 8) := nlaPut .ethernet (List.replicate 6 0 ++ List.replicate 6 0xFF)

/-- A flow named by its key is created and deleted. -/
theorem flowCmdRun_identified_create_delete :
    Identified plainHashes (DpState.init 0 0) ∧
      RunHolds (flowCmdStep plainHashes) (fun _ _ _ s' => Identified plainHashes s') (DpState.init 0 0)
        [.new plainCmdEnv ⟨some addressedKeyAttrs, some matchSrcAttrs, some [], none⟩ true,
          .del plainCmdEnv ⟨some addressedKeyAttrs, none, none, none⟩] := by
  refine flowCmdRun_identified plainHashes 0 0 _ ⟨?_, fun _ _ _ => ⟨trivial, fun _ _ _ => trivial⟩⟩
  exact fun _ _ _ _ _ flow hflow => absurd hflow (Finset.notMem_empty flow)

/-- Two flows are created with one key under different masks. Neither matches the masked key of the
other, so both are in the table. -/
theorem flowCmdRun_same_key :
    ∃ s, runAll (flowCmdStep plainHashes) (DpState.init 0 0)
        [.new plainCmdEnv ⟨some addressedKeyAttrs, some matchSrcAttrs, some [], none⟩ true,
          .new plainCmdEnv ⟨some addressedKeyAttrs, some matchDstAttrs, some [], none⟩ true] = .ok s ∧
      ¬ Identified plainHashes s := by
  have hrun : (match runAll (flowCmdStep plainHashes) (DpState.init 0 0)
        [.new plainCmdEnv ⟨some addressedKeyAttrs, some matchSrcAttrs, some [], none⟩ true,
          .new plainCmdEnv ⟨some addressedKeyAttrs, some matchDstAttrs, some [], none⟩ true] with
      | .ok s => decide (0 ∈ s.table.flows) && decide (1 ∈ s.table.flows) &&
          match (s.table.table.flows 0).id, (s.table.table.flows 1).id with
          | .unmaskedKey key, .unmaskedKey key' => decide (key = key')
          | _, _ => false
      | .error _ => false) = true := by
    decide +kernel
  split at hrun
  case h_2 => cases hrun
  case h_1 s heq =>
    rw [Bool.and_eq_true, Bool.and_eq_true, decide_eq_true_iff, decide_eq_true_iff] at hrun
    obtain ⟨⟨hfirst, hsecond⟩, hkeys⟩ := hrun
    refine ⟨s, heq, fun hidentified => ?_⟩
    split at hkeys
    case h_2 => cases hkeys
    case h_1 key key' hkey hkey' =>
      have hsame := of_decide_eq_true hkeys
      have hids : (s.table.table.flows 0).id = (s.table.table.flows 1).id := by rw [hkey, hkey', hsame]
      exact absurd (hidentified.unique 0 hfirst 1 hsecond hids) zero_ne_one

end OvsDatapath.Datapath
