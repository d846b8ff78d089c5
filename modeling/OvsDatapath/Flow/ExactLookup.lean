import OvsDatapath.Flow.Identify
import OvsDatapath.Flow.MatchFacts
import OvsDatapath.Flow.Streams
import OvsDatapath.Flow.TableRuns

/-!
# The lookup by an unmasked key

`ovs_flow_tbl_lookup_exact` looks under each mask for a flow that the key of a request matches, and
compares the unmasked keys. In a table in which flows with one mask have different keys (`KeysApart`)
there is only one candidate under a mask, so a flow with the key of the request is never overlooked. But
the comparison ends where the key of the request ends: a flow whose key goes on there is taken for it.

`lookupExact_iff` says that the lookup is exact if and only if no such flow comes before the right one in
the order of the masks.
-/

namespace OvsDatapath.Flow

open OvsDatapath.Lib

variable {hs : Hashes} {t t' : FlowTable} {flows flows' : Finset Nat} {leaked leaked' : Nat → Nat}
variable {m : SwFlowMatch}

/-! ## Comparing unmasked keys -/

theorem cmpKey_self (key : SwFlowKey) (start stop : Nat) : cmpKey key key start stop = true := by
  simp [cmpKey]

/-- What is compared consists of whole words. -/
theorem aligned_compared {key : SwFlowKey} (hrange : SwFlowMask.Aligned ⟨m.range, key⟩)
    (hle : flowKeyStart m.key ≤ m.range.stop) :
    SwFlowMask.Aligned ⟨⟨flowKeyStart m.key, m.range.stop⟩, fun _ => 0⟩ := by
  refine ⟨?_, hrange.stop_dvd, hle, hrange.stop_le, fun _ _ => rfl⟩
  unfold flowKeyStart
  split_ifs
  · exact dvd_zero _
  · exact ⟨39, rfl⟩

/-- Without a tunnel there is nothing in front of `phy`. -/
def NoTunnel (key : SwFlowKey) : Prop := key.u8 323 = 0 → ∀ j : Fin swFlowKeySize, (j : Nat) < 312 → key j = 0

/-- The key is that of the request as far as that goes, and has something behind. -/
def GoesOn (m : SwFlowMatch) (key : SwFlowKey) : Prop :=
  (∀ j : Fin swFlowKeySize, (j : Nat) < m.range.stop → key j = m.key j) ∧
    ∃ j : Fin swFlowKeySize, m.range.stop ≤ j ∧ key j ≠ 0

/-- What is known of the match of a request. -/
structure Requested (m : SwFlowMatch) : Prop where
  range : SwFlowMask.Aligned ⟨m.range, m.key⟩
  stop : 324 ≤ m.range.stop
  tunnel : NoTunnel m.key

/-- **What the comparison takes for the key of a request**: this key, and those that go on after it. -/
theorem ovsFlowCmpUnmaskedKey_iff {key : SwFlowKey} (hm : Requested m) (hkey : NoTunnel key) :
    ovsFlowCmpUnmaskedKey key m = true ↔ key = m.key ∨ GoesOn m key := by
  obtain ⟨hrange, hstop, htunnel⟩ := hm
  have hle : flowKeyStart m.key ≤ m.range.stop := by
    unfold flowKeyStart
    split_ifs <;> omega
  have hcmp : ovsFlowCmpUnmaskedKey key m = true ↔
      AgreeOn ⟨flowKeyStart m.key, m.range.stop⟩ key m.key := cmpKey_iff (aligned_compared hrange hle)
  rw [hcmp]
  constructor
  · intro hagree
    have hfront : ∀ j : Fin swFlowKeySize, (j : Nat) < m.range.stop → key j = m.key j := by
      intro j hj
      by_cases hstart : flowKeyStart m.key ≤ j
      · exact hagree j hstart hj
      · unfold flowKeyStart at hstart hagree
        split_ifs at hstart hagree with hproto
        · exact absurd (Nat.zero_le _) hstart
        · have hzero := not_not.mp hproto
          have hproto' : key.u8 323 = 0 := by
            rw [hagree.u8 (show 312 ≤ 323 by omega) (show 323 < m.range.stop by omega)]
            exact hzero
          rw [hkey hproto' j (by omega), htunnel hzero j (by omega)]
    by_cases heq : key = m.key
    · exact .inl heq
    · right
      refine ⟨hfront, ?_⟩
      obtain ⟨j, hne⟩ := Function.ne_iff.mp heq
      have hout : m.range.stop ≤ j := by
        by_contra hin
        exact hne (hfront j (by omega))
      refine ⟨j, hout, fun hzero => hne ?_⟩
      rw [hzero]
      exact (hrange.zero_outside j fun hin => absurd hin.2 (by dsimp only; omega)).symm
  · rintro (rfl | ⟨hfront, -⟩) j - hj
    · rfl
    · exact hfront j hj

/-- A key that goes on is not the key of the request. -/
theorem GoesOn.ne {key : SwFlowKey} (h : GoesOn m key) (hm : Requested m) : key ≠ m.key := by
  rintro rfl
  obtain ⟨-, j, hout, hne⟩ := h
  exact hne (hm.range.zero_outside j fun hin => absurd hin.2 (by dsimp only; omega))

/-! ## Flows with one mask -/

/-- What a flow matches depends on the flow and the contents of its mask. -/
theorem matches_congr (h : TableInv hs t flows leaked) (h' : TableInv hs t' flows' leaked')
    (hcontents : SameContents t t') {flow : Nat} (hmem : flow ∈ flows) (hmem' : flow ∈ flows')
    (hflow : t'.flows flow = t.flows flow) (key : SwFlowKey) : Matches t' key flow ↔ Matches t key flow := by
  obtain ⟨p, entry, hp, hentry, -⟩ := h.masked flow hmem
  obtain ⟨p', entry', hp', hentry', -⟩ := h'.masked flow hmem'
  rw [hflow] at hp'
  obtain rfl := Option.some.inj (hp.symm.trans hp')
  have hsame := hcontents p entry entry' hentry hentry'
  unfold Matches
  rw [hflow, hp]
  constructor
  · rintro ⟨q, e, hq, he, heq⟩
    obtain rfl := Option.some.inj hq
    obtain rfl := Option.some.inj (hentry'.symm.trans he)
    exact ⟨p, entry, rfl, hentry, hsame ▸ heq⟩
  · rintro ⟨q, e, hq, he, heq⟩
    obtain rfl := Option.some.inj hq
    obtain rfl := Option.some.inj (hentry.symm.trans he)
    exact ⟨p, entry', rfl, hentry', hsame ▸ heq⟩

/-- A flow is matched by the key that it is named by, and flows with one mask have different keys. -/
structure KeysApart (t : FlowTable) (flows : Finset Nat) : Prop where
  own : ∀ f ∈ flows, ∀ key, (t.flows f).id = .unmaskedKey key → Matches t key f
  keys : ∀ f ∈ flows, ∀ g ∈ flows, f ≠ g → (t.flows f).mask = (t.flows g).mask →
    (t.flows f).key ≠ (t.flows g).key

/-- Flows may leave the table. -/
theorem KeysApart.shrink (h : KeysApart t flows) (hinv : TableInv hs t flows leaked)
    (hinv' : TableInv hs t' flows' leaked') (hcontents : SameContents t t') (hsub : flows' ⊆ flows)
    (hflows : ∀ f ∈ flows', t'.flows f = t.flows f) : KeysApart t' flows' := by
  constructor
  · intro f hf key hid
    rw [hflows f hf] at hid
    rw [matches_congr hinv hinv' hcontents (hsub hf) hf (hflows f hf)]
    exact h.own f (hsub hf) key hid
  · intro f hf g hg hne
    rw [hflows f hf, hflows g hg]
    exact h.keys f (hsub hf) g (hsub hg) hne

/-- What the new flow of a table matches. -/
theorem FlowAdded.matches_iff {s s' : TableState} {flow : Nat} {unmasked : SwFlowKey} {id : SwFlowId}
    {mask : SwFlowMask} (hadded : FlowAdded s flow unmasked id mask 0 s') (key : SwFlowKey) :
    Matches s'.table key flow ↔ key.masked mask.key = unmasked.masked mask.key := by
  obtain ⟨p, entry, hp, hentry, rfl⟩ := hadded.mask rfl
  unfold Matches
  rw [hp, hadded.key]
  constructor
  · rintro ⟨q, e, hq, he, heq⟩
    obtain rfl := Option.some.inj hq
    obtain rfl := Option.some.inj (hentry.symm.trans he)
    exact heq
  · exact fun heq => ⟨p, entry, rfl, hentry, heq⟩

/-- A flow may enter it that is found to be no duplicate. -/
theorem KeysApart.added {s s' : TableState} {flow : Nat} {unmasked : SwFlowKey} {id : SwFlowId}
    {mask : SwFlowMask} (h : KeysApart s.table s.flows) (hinv : TableInv hs s.table s.flows leaked)
    (hinv' : TableInv hs s'.table s'.flows leaked') (hadded : FlowAdded s flow unmasked id mask 0 s')
    (hflow : flow ∉ s.flows) (hid : ∀ key, id = .unmaskedKey key → key = unmasked)
    (hnomatch : ∀ f ∈ s.flows, ¬ Matches s.table (unmasked.masked mask.key) f) :
    KeysApart s'.table s'.flows := by
  have hmem : s'.flows = insert flow s.flows := by rw [hadded.flows, if_pos rfl]
  have hne : ∀ f ∈ s.flows, f ≠ flow := fun f hf heq => hflow (heq ▸ hf)
  have hold : ∀ f ∈ s.flows, s'.table.flows f = s.table.flows f := fun f hf => hadded.others f (hne f hf)
  have hin : ∀ f ∈ s.flows, f ∈ s'.flows := fun f hf => hmem ▸ Finset.mem_insert_of_mem hf
  have hmatch : ∀ f ∈ s.flows, ∀ key, Matches s'.table key f ↔ Matches s.table key f := fun f hf key =>
    matches_congr hinv hinv' hadded.contents hf (hin f hf) (hold f hf) key
  -- an older flow with the mask and the key of the new one would have been found as a duplicate
  have hkeys : ∀ g ∈ s.flows, (s'.table.flows flow).mask = (s'.table.flows g).mask →
      (s'.table.flows flow).key ≠ (s'.table.flows g).key := by
    intro g hg hmasks hkeys
    apply hnomatch g hg
    rw [← hmatch g hg]
    obtain ⟨q, e, hq, he, hmasked, -⟩ := hinv'.masked g (hin g hg)
    rw [hadded.key] at hkeys
    exact ⟨q, e, hq, he, by rw [hkeys]; exact hmasked⟩
  constructor
  · intro f hf key hidf
    rcases Finset.mem_insert.mp (hmem ▸ hf) with rfl | hf
    · rw [hadded.id] at hidf
      exact (hadded.matches_iff key).mpr (by rw [hid key hidf])
    · rw [hold f hf] at hidf
      exact (hmatch f hf key).mpr (h.own f hf key hidf)
  · intro f hf g hg hfg hmasks
    rcases Finset.mem_insert.mp (hmem ▸ hf) with rfl | hf <;>
      rcases Finset.mem_insert.mp (hmem ▸ hg) with rfl | hg
    · exact absurd rfl hfg
    · exact hkeys g hg hmasks
    · exact (hkeys f hf hmasks.symm).symm
    · rw [hold f hf, hold g hg] at hmasks ⊢
      exact h.keys f hf g hg hfg hmasks

/-- What is found under a mask has this mask. -/
theorem maskedFlowLookup_mask {p flow : Nat} {entry : MaskEntry} {stack key : SwFlowKey}
    (hentry : t.masks p = some entry) (hok : maskedFlowLookup hs t stack key p = .ok (some flow)) :
    (t.flows flow).mask = some p := by
  rw [maskedFlowLookup, hentry] at hok
  obtain ⟨node, hfind, hnode⟩ := bind_eq_ok.mp hok
  obtain ⟨n, rfl, rfl⟩ := Option.map_eq_some_iff.mp (Except.ok.inj hnode)
  have hfound := Hlist.findEntry_found hfind
  rw [Bool.and_eq_true, Bool.and_eq_true, beq_iff_eq] at hfound
  exact hfound.1.1

/-- Under its own mask, the key of a flow finds the flow. -/
theorem maskedFlowLookup_own (h : KeysApart t flows) (hinv : TableInv hs t flows leaked) {flow p : Nat}
    {entry : MaskEntry} (hflow : flow ∈ flows) (hp : (t.flows flow).mask = some p)
    (hentry : t.masks p = some entry) {key : SwFlowKey} (hmatch : Matches t key flow) (stack : SwFlowKey) :
    maskedFlowLookup hs t stack key p = .ok (some flow) := by
  obtain ⟨r, hok, hsome, hnone⟩ := maskedFlowLookup_spec hinv hentry stack key
  cases r with
  | none => exact absurd hmatch (hnone rfl flow hflow hp)
  | some found =>
      obtain ⟨hmem, q, e, hq, he, hkey⟩ := hsome found rfl
      have hmask : (t.flows found).mask = some p := maskedFlowLookup_mask hentry hok
      obtain rfl := Option.some.inj (hq.symm.trans hmask)
      obtain ⟨q', e', hq', he', hkey'⟩ := hmatch
      obtain rfl := Option.some.inj (hq'.symm.trans hp)
      obtain rfl := Option.some.inj (he.symm.trans he')
      rw [hok]
      by_contra hne
      refine h.keys found hmem flow hflow (fun heq => hne (by rw [heq])) (hmask.trans hp.symm) ?_
      rw [← hkey, hkey']

/-! ## What the lookup finds -/

/-- The flow is a candidate of the lookup: it matches, and the comparison takes its key for that of the
request. -/
def Candidate (t : FlowTable) (m : SwFlowMatch) (flow : Nat) : Prop :=
  Matches t m.key flow ∧ (t.flows flow).isExactly m = true

/-- The loop finds the candidate whose mask comes first. -/
theorem lookupExactLoop_first (h : KeysApart t flows) (hinv : TableInv hs t flows leaked)
    (stack : Nat → SwFlowKey) (m : SwFlowMatch) {masks : List (Option Nat)}
    (hlive : ∀ p, some p ∈ masks → ∃ entry, t.masks p = some entry) :
    ∃ r, lookupExactLoop hs t stack m masks = .ok r ∧
      (∀ flow, r = some flow → flow ∈ flows ∧ Candidate t m flow ∧ ∃ i : Nat, masks[i]? = some (t.flows flow).mask ∧
        ∀ j < i, ∀ g ∈ flows, masks[j]? = some (t.flows g).mask → ¬ Candidate t m g) ∧
      (r = none → ∀ i : Nat, ∀ g ∈ flows, masks[i]? = some (t.flows g).mask → ¬ Candidate t m g) := by
  induction masks with
  | nil => exact ⟨none, rfl, fun _ hflow => (by cases hflow), fun _ i g _ hi => by cases hi⟩
  | cons o rest ih =>
      obtain ⟨r, hok, hsome, hnone⟩ := ih fun p hp => hlive p (List.mem_cons_of_mem _ hp)
      -- what is left to show once there is no candidate under the mask at the front
      have hskip : (∀ g ∈ flows, o = (t.flows g).mask → ¬ Candidate t m g) →
          (∀ flow, r = some flow → flow ∈ flows ∧ Candidate t m flow ∧
            ∃ i : Nat, (o :: rest)[i]? = some (t.flows flow).mask ∧
              ∀ j < i, ∀ g ∈ flows, (o :: rest)[j]? = some (t.flows g).mask → ¬ Candidate t m g) ∧
          (r = none → ∀ i : Nat, ∀ g ∈ flows, (o :: rest)[i]? = some (t.flows g).mask → ¬ Candidate t m g) := by
        intro hfront
        constructor
        · intro flow hflow
          obtain ⟨hmem, hcand, i, hi, hfirst⟩ := hsome flow hflow
          refine ⟨hmem, hcand, i + 1, hi, fun j hj g hg hmask => ?_⟩
          cases j with
          | zero => exact hfront g hg (Option.some.inj hmask)
          | succ j => exact hfirst j (by omega) g hg hmask
        · intro hr i g hg hmask
          cases i with
          | zero => exact hfront g hg (Option.some.inj hmask)
          | succ i => exact hnone hr i g hg hmask
      cases o with
      | none =>
          refine ⟨r, hok, hskip fun g hg hmask => ?_⟩
          obtain ⟨p, entry, hp, -⟩ := hinv.masked g hg
          rw [hp] at hmask
          cases hmask
      | some p =>
          obtain ⟨entry, hentry⟩ := hlive p List.mem_cons_self
          obtain ⟨r₁, hok₁, hsome₁, hnone₁⟩ := maskedFlowLookup_spec hinv hentry (stack p) m.key
          -- a candidate under this mask would have been found
          have hfound : ∀ g ∈ flows, some p = (t.flows g).mask → Candidate t m g → r₁ = some g := by
            intro g hg hmask hcand
            have hlookup := maskedFlowLookup_own h hinv hg hmask.symm hentry hcand.1 (stack p)
            exact Except.ok.inj (hok₁.symm.trans hlookup)
          rw [lookupExactLoop, hok₁, ok_bind]
          cases r₁ with
          | none => exact ⟨r, hok, hskip fun g hg hmask hcand => by cases hfound g hg hmask hcand⟩
          | some flow =>
              dsimp only
              split_ifs with hexact
              · refine ⟨some flow, rfl, ?_, fun hnone => by cases hnone⟩
                rintro flow' hflow
                obtain rfl := Option.some.inj hflow
                obtain ⟨hmem, hmatch⟩ := hsome₁ flow rfl
                have hmask : (t.flows flow).mask = some p := maskedFlowLookup_mask hentry hok₁
                exact ⟨hmem, ⟨hmatch, hexact⟩, 0, by rw [hmask]; rfl, fun j hj => absurd hj (Nat.not_lt_zero j)⟩
              · refine ⟨r, hok, hskip fun g hg hmask hcand => ?_⟩
                obtain rfl := Option.some.inj (hfound g hg hmask hcand)
                exact hexact hcand.2

/-- **The lookup is exact**: it finds a flow if and only if one is named by the whole key of the request,
and it finds such a flow. -/
def LookupExact (hs : Hashes) (t : FlowTable) (flows : Finset Nat) (m : SwFlowMatch) : Prop :=
  ∀ stack, ∃ r, ovsFlowTblLookupExact hs t stack m = .ok r ∧
    (r.isSome ↔ ∃ flow ∈ flows, (t.flows flow).id = .unmaskedKey m.key) ∧
    ∀ flow, r = some flow → flow ∈ flows ∧ (t.flows flow).id = .unmaskedKey m.key

/-- **Nothing that goes on comes first**: if the request matches a flow whose key goes on behind that of
the request, then a flow that is named by the key of the request has a mask further to the front. -/
def NoneAhead (t : FlowTable) (flows : Finset Nat) (m : SwFlowMatch) : Prop :=
  ∀ (i : Nat), ∀ g ∈ flows, ∀ key, (t.flows g).id = .unmaskedKey key → GoesOn m key → Matches t m.key g →
    t.mask_array.masks[i]? = some (t.flows g).mask →
    ∃ j < i, ∃ f ∈ flows, (t.flows f).id = .unmaskedKey m.key ∧
      t.mask_array.masks[j]? = some (t.flows f).mask

/-- The keys that flows are named by have nothing in front of `phy` without a tunnel. -/
def KeysRequested (t : FlowTable) (flows : Finset Nat) : Prop :=
  ∀ f ∈ flows, ∀ key, (t.flows f).id = .unmaskedKey key → NoTunnel key

/-- What a candidate is named by. -/
theorem candidate_iff (hnames : KeysRequested t flows) (hm : Requested m) {flow : Nat} (hflow : flow ∈ flows) :
    Candidate t m flow ↔ Matches t m.key flow ∧
      ∃ key, (t.flows flow).id = .unmaskedKey key ∧ (key = m.key ∨ GoesOn m key) := by
  unfold Candidate SwFlow.isExactly
  refine and_congr_right fun _ => ?_
  cases hid : (t.flows flow).id with
  | ufid bytes => exact iff_of_false Bool.false_ne_true fun ⟨_, hkey, _⟩ => by cases hkey
  | unmaskedKey key =>
      dsimp only
      rw [ovsFlowCmpUnmaskedKey_iff hm (hnames flow hflow key hid)]
      constructor
      · exact fun hkey => ⟨key, rfl, hkey⟩
      · rintro ⟨key', heq, hkey⟩
        obtain rfl := SwFlowId.unmaskedKey.inj heq
        exact hkey

/-- A flow that is named by the key of the request is a candidate, and its mask is in the array. -/
theorem candidate_of_named (h : KeysApart t flows) (hinv : TableInv hs t flows leaked)
    (hnames : KeysRequested t flows) (hm : Requested m) {flow : Nat} (hflow : flow ∈ flows)
    (hid : (t.flows flow).id = .unmaskedKey m.key) :
    Candidate t m flow ∧ ∃ i : Nat, t.mask_array.masks[i]? = some (t.flows flow).mask := by
  constructor
  · rw [candidate_iff hnames hm hflow]
    exact ⟨h.own flow hflow m.key hid, m.key, hid, .inl rfl⟩
  · obtain ⟨p, entry, hp, hentry, -⟩ := hinv.masked flow hflow
    rw [hp]
    apply List.mem_iff_getElem?.mp
    exact List.reduceOption_mem_iff.mp ((hinv.masksOk.live p).mpr (by rw [hentry]; rfl))

/-- **When the lookup by an unmasked key is exact.** -/
theorem lookupExact_iff (h : KeysApart t flows) (hinv : TableInv hs t flows leaked)
    (hnames : KeysRequested t flows) (hm : Requested m) : LookupExact hs t flows m ↔ NoneAhead t flows m := by
  have hloop := fun stack => lookupExactLoop_first h hinv stack m fun _ => hinv.exists_entry
  constructor
  · intro hexact i g hg key hid hgoes hmatch hi
    obtain ⟨r, hok, -, hfound⟩ := hexact fun _ _ => 0
    obtain ⟨r', hok', hsome, hnone⟩ := hloop fun _ _ => 0
    obtain rfl := Except.ok.inj (hok.symm.trans hok')
    have hcand : Candidate t m g := (candidate_iff hnames hm hg).mpr ⟨hmatch, key, hid, .inr hgoes⟩
    cases r with
    | none => exact absurd hcand (hnone rfl i g hg hi)
    | some flow =>
        obtain ⟨hflow, hname⟩ := hfound flow rfl
        obtain ⟨-, ⟨hmatchflow, -⟩, j, hj, hfirst⟩ := hsome flow rfl
        obtain hlt | rfl | hgt := lt_trichotomy j i
        · exact ⟨j, hlt, flow, hflow, hname, hj⟩
        · -- under one mask the request matches one flow only
          exfalso
          have hmasks : (t.flows flow).mask = (t.flows g).mask := Option.some.inj (hj.symm.trans hi)
          have hne : flow ≠ g := by
            rintro rfl
            exact hgoes.ne hm (SwFlowId.unmaskedKey.inj (hid.symm.trans hname))
          obtain ⟨p, entry, hp, hentry, hkey⟩ := hmatchflow
          obtain ⟨p', entry', hp', hentry', hkey'⟩ := hmatch
          obtain rfl := Option.some.inj (hp.symm.trans (hmasks.trans hp'))
          obtain rfl := Option.some.inj (hentry.symm.trans hentry')
          exact h.keys flow hflow g hg hne hmasks (hkey.symm.trans hkey')
        · exact absurd hcand (hfirst i hgt g hg hi)
  · intro hahead stack
    obtain ⟨r, hok, hsome, hnone⟩ := hloop stack
    have hnamed : ∀ flow, r = some flow → flow ∈ flows ∧ (t.flows flow).id = .unmaskedKey m.key := by
      intro flow hflow
      obtain ⟨hmem, hcand, i, hi, hfirst⟩ := hsome flow hflow
      obtain ⟨hmatch, key, hid, rfl | hgoes⟩ := (candidate_iff hnames hm hmem).mp hcand
      · exact ⟨hmem, hid⟩
      · exfalso
        obtain ⟨j, hj, f, hf, hfid, hfmask⟩ := hahead i flow hmem key hid hgoes hmatch hi
        exact hfirst j hj f hf hfmask (candidate_of_named h hinv hnames hm hf hfid).1
    refine ⟨r, hok, ?_, hnamed⟩
    cases r with
    | none =>
        refine iff_of_false Bool.false_ne_true ?_
        rintro ⟨flow, hflow, hid⟩
        obtain ⟨hcand, i, hi⟩ := candidate_of_named h hinv hnames hm hflow hid
        exact hnone rfl i flow hflow hi hcand
    | some flow => exact iff_of_true rfl ⟨flow, hnamed flow rfl⟩

/-! ## The matches of requests -/

variable {env : NetlinkEnv} {key : SwFlowKey} {p p' : ParsedAttrs} {stores : KeyStores}

/-- The stores go behind the tunnel, and do not say which kind it is. -/
def BehindTunnel (stores : KeyStores) : Prop := ∀ j, Reaches stores j → 312 ≤ j ∧ j ≠ 323

theorem behindTunnel_append {stores stores' : KeyStores} :
    BehindTunnel (stores ++ stores') ↔ BehindTunnel stores ∧ BehindTunnel stores' := by
  unfold BehindTunnel
  constructor
  · intro h
    exact ⟨fun j hj => h j ((reaches_append ..).mpr (.inl hj)), fun j hj => h j ((reaches_append ..).mpr (.inr hj))⟩
  · rintro ⟨h, h'⟩ j hreach
    exact ((reaches_append ..).mp hreach).elim (h j) (h' j)

theorem behindTunnel_attrStores {f : List (BitVec 8) → OvsKeyAttr → KeyStores} {l : List OvsKeyAttr}
    (h : ∀ data attr, BehindTunnel (f data attr)) : BehindTunnel (attrStores f p l) := by
  intro j hreach
  obtain ⟨attr, -, hreach⟩ := (reaches_flatMap ..).mp hreach
  split_ifs at hreach
  · exact h _ _ j hreach
  · cases hreach

theorem behindTunnel_metadataAttr (data : List (BitVec 8)) (attr : OvsKeyAttr) :
    BehindTunnel (metadataAttrStores data attr) := by
  intro j hreach
  cases attr <;> simp [metadataAttrStores] at hreach <;> omega

theorem behindTunnel_headerAttr (data : List (BitVec 8)) (attr : OvsKeyAttr) :
    BehindTunnel (headerAttrStores data attr) := by
  intro j hreach
  cases attr <;> simp [headerAttrStores] at hreach <;> omega

theorem behindTunnel_inPort (h : inPortStores p false = .ok stores) : BehindTunnel stores := by
  unfold inPortStores at h
  simp only [Bool.false_eq_true, if_false] at h
  split_ifs at h
  all_goals
    obtain rfl := Except.ok.inj h
    intro j hreach
    simp at hreach
    omega

theorem behindTunnel_ethType (h : parseEthTypeFromNlattrs p false = .ok stores) : BehindTunnel stores := by
  unfold parseEthTypeFromNlattrs at h
  simp only [Bool.false_eq_true, if_false] at h
  split_ifs at h
  obtain rfl := Except.ok.inj h
  intro j hreach
  simp at hreach
  omega

theorem behindTunnel_eth (h : ethFromNlattrs key p false = .ok (p', stores)) : BehindTunnel stores := by
  have haddrs : ∀ data : List (BitVec 8), BehindTunnel [⟨332, slice data 0 6⟩, ⟨338, slice data 6 6⟩] := by
    intro data j hreach
    simp at hreach
    omega
  unfold ethFromNlattrs at h
  dsimp only at h
  by_cases heth : p.has .ethernet
  · rw [if_pos heth] at h
    simp only [Bool.false_eq_true, if_false] at h
    split_ifs at h
    · obtain ⟨eth_type, htype, h⟩ := bind_eq_ok.mp h
      obtain ⟨-, rfl⟩ := Prod.mk.inj (Except.ok.inj h)
      exact behindTunnel_append.mpr ⟨haddrs _, behindTunnel_ethType htype⟩
    · obtain ⟨-, rfl⟩ := Prod.mk.inj (Except.ok.inj h)
      refine behindTunnel_append.mpr ⟨haddrs _, fun j hreach => ?_⟩
      simp [be16_length] at hreach
      omega
  · rw [if_neg heth] at h
    split_ifs at h
    obtain ⟨-, rfl⟩ := Prod.mk.inj (Except.ok.inj h)
    exact fun _ hreach => by cases hreach

theorem behindTunnel_parseVlan1 {inner : Bool} (h : parseVlanFromNlattrs1 key p inner false = .ok (p', stores)) :
    BehindTunnel stores := by
  unfold parseVlanFromNlattrs1 at h
  split at h
  · cases h
  · obtain ⟨-, rfl⟩ := Prod.mk.inj (Except.ok.inj h)
    exact fun _ hreach => by cases hreach
  · dsimp only at h
    split at h
    · cases h
    · obtain ⟨-, rfl⟩ := Prod.mk.inj (Except.ok.inj h)
      intro j hreach
      cases inner <;> simp [encodeVlanFromNlattrs] at hreach <;> omega

theorem behindTunnel_parseVlan (h : parseVlanFromNlattrs key p false = .ok (p', stores)) :
    BehindTunnel stores := by
  unfold parseVlanFromNlattrs at h
  split at h
  · cases h
  · rename_i p₁ stores₁ hfirst
    dsimp only at h
    split_ifs at h
    · split at h
      · cases h
      · rename_i p₂ stores₂ hsecond
        obtain ⟨-, rfl⟩ := Prod.mk.inj (Except.ok.inj h)
        exact behindTunnel_append.mpr ⟨behindTunnel_parseVlan1 hfirst, behindTunnel_parseVlan1 hsecond⟩
    · obtain ⟨-, rfl⟩ := Prod.mk.inj (Except.ok.inj h)
      exact behindTunnel_parseVlan1 hfirst

/-- A tunnel stores its kind. -/
theorem tunnelAttr_kind (h : tunnelAttrStores key p false = .ok stores) :
    stores = [] ∨ ∃ v ≠ 0, stored stores 323 = some v := by
  unfold tunnelAttrStores at h
  split_ifs at h
  · right
    unfold ipTunFromNlattr at h
    dsimp only at h
    split at h
    · cases h
    · rename_i s _
      have hkind : ∀ v : BitVec 8, stored (s.stores ++ [⟨296, be16 s.tun_flags⟩, ⟨323, [v]⟩]) 323 = some v := by
        intro v
        rw [stored_append]
        rfl
      simp only [Bool.false_eq_true, if_false] at h
      split_ifs at h
      all_goals
        obtain rfl := Except.ok.inj h
        exact ⟨_, by decide, hkind _⟩
  · exact .inl (Except.ok.inj h).symm

/-- A key that stores have made of a zeroed one has a tunnel, or nothing in front of `phy`. -/
theorem noTunnel_store {l tunnel r : KeyStores} (hl : BehindTunnel l) (hr : BehindTunnel r)
    (htunnel : tunnel = [] ∨ ∃ v ≠ 0, stored tunnel 323 = some v) :
    NoTunnel (SwFlowKey.store (fun _ => 0) (l ++ (tunnel ++ r))) := by
  intro hkind j hj
  obtain rfl | ⟨v, hv, hstored⟩ := htunnel
  · have hnone : stored (l ++ ([] ++ r)) (j : Nat) = none := by
      rw [stored_eq_none_iff, List.nil_append, reaches_append]
      rintro (hreach | hreach)
      · have := (hl j hreach).1
        omega
      · have := (hr j hreach).1
        omega
    exact overlay_none hnone
  · exfalso
    rw [SwFlowKey.store_u8 (by decide), stored_mid hstored fun hreach => (hr 323 hreach).2 rfl] at hkind
    exact hv hkind

/-- What is stored into a key, around its tunnel. -/
theorem keyFromNlattrs_stores {nla_key : List (BitVec 8)} (h : keyFromNlattrs env nla_key = .ok (p', stores)) :
    ∃ l tunnel r, stores = l ++ (tunnel ++ r) ∧ BehindTunnel l ∧ BehindTunnel r ∧
      (tunnel = [] ∨ ∃ v ≠ 0, stored tunnel 323 = some v) ∧ ∃ v, (⟨322, [v]⟩ : Store (BitVec 8)) ∈ r := by
  obtain ⟨p₁, -, h⟩ := bind_eq_ok.mp h
  obtain ⟨⟨p₂, vlan_stores⟩, hvlan, h⟩ := bind_eq_ok.mp h
  obtain ⟨key_stores, hkey, h⟩ := bind_eq_ok.mp h
  obtain ⟨-, rfl⟩ := Prod.mk.inj (Except.ok.inj h)
  obtain ⟨p₃, meta_stores, p₄, eth_stores, hmeta, heth, -, -, rfl⟩ := ovsKeyFromNlattrs_ok hkey
  obtain ⟨in_port, tunnel, eth_type, hin_port, htunnel, heth_type, rfl⟩ := hmeta.parts
  have hmetadata : ∀ l, BehindTunnel (attrStores metadataAttrStores p₂ l) :=
    fun _ => behindTunnel_attrStores behindTunnel_metadataAttr
  have htype : BehindTunnel eth_type := by
    split_ifs at heth_type
    · exact behindTunnel_ethType heth_type
    · exact heth_type ▸ fun _ hreach => by cases hreach
  have hmac : ∀ v, BehindTunnel [⟨322, [v]⟩] := by
    intro v j hreach
    simp at hreach
    omega
  refine ⟨vlan_stores ++ (attrStores metadataAttrStores p₂ phyAttrs ++ in_port ++
      attrStores metadataAttrStores p₂ [.skbMark]), tunnel,
    attrStores metadataAttrStores p₂ (ctAttrs env) ++ attrStores metadataAttrStores p₂ ctTupleAttrs ++
      [⟨322, [p₂.macProto]⟩] ++ eth_type ++ eth_stores ++ attrStores headerAttrStores p₄ headerAttrs, ?_, ?_,
    ?_, tunnelAttr_kind htunnel, p₂.macProto, by simp⟩
  · simp only [List.append_assoc, Bool.false_eq_true, if_false]
  · simp only [behindTunnel_append]
    exact ⟨behindTunnel_parseVlan hvlan, ⟨hmetadata _, behindTunnel_inPort hin_port⟩, hmetadata _⟩
  · simp only [behindTunnel_append]
    exact ⟨⟨⟨⟨⟨hmetadata _, hmetadata _⟩, hmac _⟩, htype⟩, behindTunnel_eth heth⟩,
      behindTunnel_attrStores behindTunnel_headerAttr⟩

theorem ovsNlaGetMatch_requested {has_mask : Bool} {nla_key : List (BitVec 8)}
    {nla_mask : Option (List (BitVec 8))} (h : ovsNlaGetMatch env has_mask nla_key nla_mask = .ok m) :
    Requested m := by
  have hrange := ovsNlaGetMatch_range h
  obtain ⟨⟨p, key_stores⟩, hkey, h⟩ := bind_eq_ok.mp h
  obtain ⟨⟨mask_attrs, mask⟩, -, h⟩ := bind_eq_ok.mp h
  dsimp only at h
  split_ifs at h
  obtain rfl := Except.ok.inj h
  obtain ⟨l, tunnel, r, hstores, hl, hr, htunnel, v, hv⟩ := keyFromNlattrs_stores hkey
  refine ⟨hrange, ?_, ?_⟩
  · have hmem : (⟨322, [v]⟩ : Store (BitVec 8)) ∈ key_stores := by
      rw [hstores]
      exact List.mem_append_right _ (List.mem_append_right _ hv)
    have hstop := storesRange_covers (storesFit_keyFromNlattrs hkey) hmem (List.cons_ne_nil _ _)
    obtain ⟨b, hb⟩ := hrange.stop_dvd
    simp only [List.length_singleton, sizeofLong] at hstop hb ⊢
    omega
  · rw [hstores]
    exact noTunnel_store hl hr htunnel

end OvsDatapath.Flow
