import OvsDatapath.Datapath.FlowIds

/-!
# Lookups by key in a running datapath

A flow enters the table only after no flow was found that its masked key matches, and it is named by the
key that `ovs_nla_get_match` has made of its request. So in the table of a running datapath flows with
one mask have different keys, and what is said of the lookup by an unmasked key holds there without
any assumption: `flowCmdRun_lookupExact_iff`.

`flowCmdRun_not_lookupExact` is a table of one flow. Its key has a conntrack mark, which comes behind the
rest of a request that only names Ethernet fields, and the lookup takes the flow for that of the request.
-/

namespace OvsDatapath.Datapath

open OvsDatapath.Lib OvsDatapath.Flow OvsDatapath.Actions

variable {hs : Hashes} {s s' : DpState} {env : FlowCmdEnv} {a : FlowAttrs}

/-- The invariant of a run. -/
structure DpState.KeysOk (hs : Hashes) (s : DpState) : Prop where
  tableOk : s.TableOk hs
  apart : KeysApart s.table.table s.table.flows
  requested : KeysRequested s.table.table s.table.flows

theorem DpState.init_keysOk (hs : Hashes) (seed ufid_seed : BitVec 32) :
    (DpState.init seed ufid_seed).KeysOk hs := by
  refine ⟨DpState.init_tableOk hs seed ufid_seed, ⟨?_, ?_⟩, ?_⟩
  · exact fun f hf => absurd hf (Finset.notMem_empty f)
  · exact fun f hf => absurd hf (Finset.notMem_empty f)
  · exact fun f hf => absurd hf (Finset.notMem_empty f)

/-- A new flow is named by the key of a request. -/
theorem newFlowOf_requested {r : NewFlow} (h : newFlowOf env a = .ok r) : Requested r.parsed := by
  unfold newFlowOf at h
  split at h
  case h_2 => cases h
  case h_1 key actions _ _ =>
    split at h
    · cases h
    obtain ⟨m, hmatch, h⟩ := bind_eq_ok.mp h
    obtain ⟨id, -, h⟩ := bind_eq_ok.mp h
    obtain ⟨acts, -, h⟩ := bind_eq_ok.mp h
    split_ifs at h
    obtain rfl := Except.ok.inj h
    exact ovsNlaGetMatch_requested hmatch

/-- One command keeps it. -/
theorem flowCmdStep_keysOk (h : s.KeysOk hs) (cmd : FlowCmd) :
    ∃ r s', flowCmdStep hs s cmd = .ok (r, s') ∧ s'.KeysOk hs := by
  obtain ⟨r, s', hok, heffect⟩ := flowCmdStep_effect h.tableOk cmd
  have htableOk := heffect.tableOk h.tableOk
  obtain ⟨leaked, hinv⟩ := h.tableOk.table
  obtain ⟨leaked', hinv'⟩ := htableOk.table
  suffices h' : KeysApart s'.table.table s'.table.flows ∧ KeysRequested s'.table.table s'.table.flows from
    ⟨r, s', hok, htableOk, h'.1, h'.2⟩
  obtain ⟨hcontents, hsub, hflows⟩ | ⟨env, a, create_or_excl, r, rfl, hnew, hfresh, hadded, hnomatch, -⟩ :=
    heffect.tableChange h.tableOk
  · refine ⟨h.apart.shrink hinv hinv' hcontents hsub hflows, fun f hf key hid => ?_⟩
    rw [hflows f hf] at hid
    exact h.requested f (hsub hf) key hid
  · have hkey : maskedKey r.parsed = r.parsed.key.masked r.mask.key := ovsFlowMaskKey_full ..
    have hid : ∀ key, r.id = .unmaskedKey key → key = r.parsed.key := fun key => newFlowOf_id hnew
    refine ⟨h.apart.added hinv hinv' hadded hfresh hid (hkey ▸ hnomatch), fun f hf key hidf => ?_⟩
    have hmem : s'.table.flows = insert s.next_flow s.table.flows := by rw [hadded.flows, if_pos rfl]
    rcases Finset.mem_insert.mp (hmem ▸ hf) with rfl | hold
    · rw [hadded.id] at hidf
      rw [hid key hidf]
      exact (newFlowOf_requested hnew).tunnel
    · rw [hadded.others f fun heq => hfresh (heq ▸ hold)] at hidf
      exact h.requested f hold key hidf

/-- For every match of a request: the lookup is exact if and only if no flow is ahead of the right one
whose key goes on behind that of the request. -/
def ExactUnlessAhead (hs : Hashes) (s : DpState) : Prop :=
  ∀ env has_mask nla_key nla_mask m, ovsNlaGetMatch env has_mask nla_key nla_mask = .ok m →
    (LookupExact hs s.table.table s.table.flows m ↔ NoneAhead s.table.table s.table.flows m)

theorem DpState.KeysOk.exactUnlessAhead (h : s.KeysOk hs) : ExactUnlessAhead hs s := by
  intro env has_mask nla_key nla_mask m hmatch
  obtain ⟨leaked, hinv⟩ := h.tableOk.table
  exact lookupExact_iff h.apart hinv h.requested (ovsNlaGetMatch_requested hmatch)

/-- **When the lookup by an unmasked key is exact**, in every state of every run of flow commands. -/
theorem flowCmdRun_lookupExact_iff (hs : Hashes) (seed ufid_seed : BitVec 32) (cmds : List FlowCmd) :
    ExactUnlessAhead hs (DpState.init seed ufid_seed) ∧
      RunHolds (flowCmdStep hs) (fun _ _ _ s' => ExactUnlessAhead hs s') (DpState.init seed ufid_seed) cmds := by
  have hinit := DpState.init_keysOk hs seed ufid_seed
  have hmeets : RunMeets (flowCmdStep hs) (fun _ _ => True) (DpState.init seed ufid_seed) cmds :=
    runMeets_const_of_forall fun _ _ => trivial
  refine ⟨hinit.exactUnlessAhead, runHolds_of_runMeets (fun s cmd hinv _ => ?_) hinit hmeets⟩
  obtain ⟨r, s', hok, hinv'⟩ := flowCmdStep_keysOk hinv cmd
  exact ⟨r, s', hok, hinv'.exactUnlessAhead, hinv'⟩

/-- The key of frames with some addresses and a type that no header is parsed of. -/
def experimentalKeyAttrs : List (BitVec 8) := addressedKeyAttrs ++ nlaPut .ethertype [0x88, 0xB5]

/-- The same with a conntrack mark. -/
def markedKeyAttrs : List (BitVec 8) := experimentalKeyAttrs ++ nlaPut .ctMark [5, 0, 0, 0]

/-- Whether an identifier is an unmasked key that has another byte there. -/
def keyDiffersAt (off : Nat) (key : SwFlowKey) : SwFlowId → Bool
  | .unmaskedKey key' => decide (key'.u8 off ≠ key.u8 off)
  | .ufid _ => false

/-- A flow whose key has a conntrack mark is installed, and looked up by a request without one: it is
found, although its key is another one. -/
theorem flowCmdRun_not_lookupExact :
    ∃ s m, runAll (flowCmdStep plainHashes) (DpState.init 0 0)
        [.new plainCmdEnv ⟨some markedKeyAttrs, some matchSrcAttrs, some [], none⟩ true] = .ok s ∧
      ovsNlaGetMatch plainCmdEnv.netlink false experimentalKeyAttrs none = .ok m ∧
      ¬ LookupExact plainHashes s.table.table s.table.flows m := by
  have hrun : ((runAll (flowCmdStep plainHashes) (DpState.init 0 0)
        [.new plainCmdEnv ⟨some markedKeyAttrs, some matchSrcAttrs, some [], none⟩ true]).toOption.any fun s =>
      (ovsNlaGetMatch plainCmdEnv.netlink false experimentalKeyAttrs none).toOption.any fun m =>
        (ovsFlowTblLookupExact plainHashes s.table.table (fun _ _ => 0) m).toOption.any fun found =>
          found.any fun flow => keyDiffersAt 440 m.key (s.table.table.flows flow).id) = true := by
    decide +kernel
  obtain ⟨s, hs, hrun⟩ := toOption_any_iff.mp hrun
  obtain ⟨m, hm, hrun⟩ := toOption_any_iff.mp hrun
  obtain ⟨found, hlookup, hrun⟩ := toOption_any_iff.mp hrun
  refine ⟨s, m, hs, hm, fun hexact => ?_⟩
  obtain ⟨r, hok, -, hfound⟩ := hexact fun _ _ => 0
  obtain rfl := Except.ok.inj (hlookup.symm.trans hok)
  cases found with
  | none => cases hrun
  | some flow =>
      have hdiffers : keyDiffersAt 440 m.key (s.table.table.flows flow).id = true := hrun
      rw [(hfound flow rfl).2] at hdiffers
      exact of_decide_eq_true hdiffers rfl

end OvsDatapath.Datapath
