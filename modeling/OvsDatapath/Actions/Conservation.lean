import OvsDatapath.Actions.Deferred

/-!
# What becomes of packets

A call of `ovs_execute_actions` should dispose of its packet and of each copy it makes, once. It uses
none that it has disposed of, and disposes of none twice. But where CT, or a RECIRC that is the last
action of its list, has to extract the key again and cannot, `do_execute_actions` returns the error
and leaves the packet behind. `ovsExecuteActions_conserves_iff` says that no packet is lost in any
other way.
-/

namespace OvsDatapath.Actions

open OvsDatapath.Lib OvsDatapath.Flow OvsDatapath.Sketch

variable {π : Type}

/-- The packet and its copies have been disposed of once each, and not been used since. -/
def Conserved (id : Nat) (trace : List (Event π)) : Prop :=
  (∀ id', id' = id ∨ some id' ∈ trace.map Event.clones → disposals trace id' = 1) ∧
    UsedWhileHeld trace

/-- A packet is disposed of once if it is not lost. -/
theorem Drained.conserved_iff {first : Nat} {s : Cpu π} (h : Drained first s) :
    Conserved first s.trace ↔ ∀ e ∈ s.trace, e.loses = none := by
  have hours : ∀ id, (id = first ∨ some id ∈ s.trace.map Event.clones) ↔
      first ≤ id ∧ id < s.next_skb := by
    intro id
    have hlt := h.first_lt
    rw [h.clones]
    omega
  constructor
  · rintro ⟨hdisposed, -⟩ e he
    cases hlost : e.loses with
    | none => rfl
    | some id =>
        have hpos : 0 < losses s.trace id := by
          rw [losses, List.countP_pos_iff]
          exact ⟨e, he, decide_eq_true hlost⟩
        have hbalance := h.balance id
        split_ifs at hbalance with hid
        · rw [hdisposed id ((hours id).mpr hid)] at hbalance
          omega
        · omega
  · refine fun hnone => ⟨fun id hid => ?_, h.used⟩
    have hzero : losses s.trace id = 0 := by
      rw [losses, List.countP_eq_zero]
      intro e he
      rw [hnone e he]
      exact of_decide_eq_false rfl
    rw [← h.balance id |>.trans (if_pos ((hours id).mp hid)), hzero, Nat.add_zero]

/-- **Every packet is accounted for.** A call of `ovs_execute_actions` on an idle cpu ends. No packet
is used or disposed of after it has been disposed of, whatever happens. If the call returns, its
packet and all copies have been disposed of exactly if the key was extracted without an error
whenever a CT, or a RECIRC that was the last action of its list, needed it. -/
theorem ovsExecuteActions_conserves_iff (env : DatapathEnv π) (skb : Skb π) (acts : List Action)
    (key : KeyPtr) (s : Cpu π) :
    ∃ N r s',
      (∀ fuel, N ≤ fuel → (ovsExecuteActions env fuel skb acts key).exec (s.before skb) = (r, s')) ∧
      UsedWhileHeld s'.trace ∧
      match r with
      | .ok _ => Conserved skb.id s'.trace ↔ ∀ e ∈ s'.trace, e.loses = none
      | .error e => ∃ sketches key, SameSketches s.sketches sketches ∧
          myLabelSketch sketches skb.input_dev key = .error e := by
  obtain ⟨N, ⟨r, s'⟩, hrun, hmeets⟩ :=
    ovsExecuteActions_settles env skb acts key s.sketches _ (before_at s skb)
  refine ⟨N, r, s', hrun, ?_⟩
  cases r with
  | ok err => exact ⟨hmeets.2.used, hmeets.2.conserved_iff⟩
  | error e =>
      obtain ⟨hfault, held, hsteady⟩ := hmeets
      exact ⟨hsteady.ledger.used, hfault⟩

/-- An environment in which the edit of a packet makes its key invalid, and the key cannot be
extracted again for want of memory. -/
def starvedEnv : DatapathEnv Unit where
  len _ := 100
  lookup _ _ _ := none
  key_extract _ _ key := (-12, (), key)
  scrub _ _ := ()
  edit _ _ _ key := (0, (), key.setMacProto swFlowKeyInvalid)
  ct_execute _ _ _ mru key := (0, (), mru, key)
  skb_get_hash _ _ := 0
  jhash_1word _ _ := 0
  skb_clone _ := true
  prandom_u32 _ _ := 0

/-- PUSH_VLAN, then CT: the call returns `-ENOMEM`, and nobody has freed the packet. -/
theorem pushVlan_ct_loses :
    let r := (ovsExecuteActions starvedEnv 20 ⟨7, (), [], 0, 0, []⟩ [.pushVlan [], .ct []] .arg).exec
      (Cpu.before ⟨0, 0, 0, fun _ => ⟨⟨0, (), [], 0, 0, []⟩, none⟩, fun _ _ => 0, .static, 0, 0, []⟩
        ⟨7, (), [], 0, 0, []⟩)
    r.1 = .ok (-12) ∧ disposals r.2.trace 7 = 0 ∧ ¬ Conserved 7 r.2.trace := by
  refine ⟨rfl, rfl, fun hconserved => ?_⟩
  exact absurd (hconserved.1 7 (.inl rfl)) (by decide)

end OvsDatapath.Actions
