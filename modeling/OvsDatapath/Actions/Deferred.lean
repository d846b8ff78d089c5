import OvsDatapath.Actions.Ledger
import OvsDatapath.Lib.Fuel

/-!
# Deferred execution

A call of `ovs_execute_actions` on an idle cpu ends, whatever flows the recirculated packets meet.
Two bounds make it so. In place, each RECIRC and each SAMPLE with a key of its own raises the level,
and above `OVS_DEFERRED_ACTION_THRESHOLD` there are no more slots for keys, so that the work is
queued instead. And the FIFO is filled from its start: its head is reset only when it has been
emptied, so no call queues more than there are entries, however often work that is taken out queues
more.

`Runs` is the statement about one level, proved from the level above it (`runs_of_next`) by induction
on the size of the action list. The loop that empties the FIFO runs on level 1, and its tail grows up
to the size of the FIFO (`deferredLoop_settles`). Both carry the account of `Steady` along.
-/

namespace OvsDatapath.Actions

open OvsDatapath.Lib OvsDatapath.Flow OvsDatapath.Sketch

variable {π : Type}

/-- The account, on a level and with the FIFO emptied up to a position. -/
structure At (start : Sketches) (dev : List (BitVec 8)) (first level tail : Nat) (held : List Nat)
    (s : Cpu π) : Prop where
  steady : Steady start dev first held s
  level : s.exec_actions_level = level
  tail : s.tail = tail

/-- The end of a call that does not return: `my_label_sketch` has followed a pointer or an index it
should not have, for a packet from the device of the call. -/
def Crashed (start : Sketches) (dev : List (BitVec 8)) (first : Nat) (e : MemFault) (s : Cpu π) :
    Prop :=
  (∃ sketches key, SameSketches start sketches ∧ myLabelSketch sketches dev key = .error e) ∧
    ∃ held, Steady start dev first held s

/-- The packets held after a nested execution: it has taken the packet if it was the last action. -/
def heldAfter (last : Bool) (id : Nat) (held : List Nat) : List Nat := if last then held else id :: held

theorem heldAfter_true (id : Nat) (held : List Nat) : heldAfter true id held = held := rfl

theorem heldAfter_false (id : Nat) (held : List Nat) : heldAfter false id held = id :: held := rfl

/-- The same packet, from the same device. -/
def SameSkb (skb skb' : Skb π) : Prop := skb'.id = skb.id ∧ skb'.input_dev = skb.input_dev

variable {start : Sketches} {dev : List (BitVec 8)} {first level tail : Nat} {held held' : List Nat}
variable {s s' : Cpu π} {e : Event π} {α : Type} {x : Exec π α} {env : DatapathEnv π}

theorem At.congr (h : At start dev first level tail held s) (hs : SameAccount s s')
    (hlevel : s'.exec_actions_level = s.exec_actions_level) :
    At start dev first level tail held s' :=
  ⟨h.steady.congr hs, hlevel.trans h.level, hs.tail.trans h.tail⟩

/-! ## Silent steps -/

/-- The computation returns, and leaves the account as it is. -/
def Silent (x : Exec π α) (good : α → Prop) : Prop :=
  ∀ s, ∃ a s', x.exec s = (.ok a, s') ∧ SameAccount s s' ∧
    s'.exec_actions_level = s.exec_actions_level ∧ good a

theorem Silent.settles {good : α → Prop} (h : Silent x good) :
    Settles (At start dev first level tail held) (fun _ => x)
      (fun a s => good a ∧ At start dev first level tail held s) (Crashed start dev first) := by
  refine Settles.const fun s hs => ?_
  obtain ⟨a, s', hexec, hsame, hlevel, hgood⟩ := h s
  rw [hexec]
  exact ⟨hgood, hs.congr hsame hlevel⟩

theorem readKey_silent (key : KeyPtr) : Silent (readKey key : Exec π SwFlowKey) fun _ => True :=
  fun s => ⟨_, s, rfl, ⟨rfl, rfl, rfl, rfl, rfl, rfl⟩, rfl, trivial⟩

theorem ask_silent (answer : Nat → α) : Silent (ask answer : Exec π α) fun _ => True :=
  fun _ => ⟨_, _, rfl, ⟨rfl, rfl, rfl, rfl, rfl, rfl⟩, rfl, trivial⟩

theorem writeKey_silent (key : KeyPtr) (v : SwFlowKey) :
    Silent (writeKey key v : Exec π Unit) fun _ => True :=
  fun _ => ⟨_, _, rfl, ⟨rfl, rfl, rfl, rfl, rfl, rfl⟩, rfl, trivial⟩

theorem setRecircId_silent (key : KeyPtr) (recirc_id : BitVec 32) :
    Silent (setRecircId key recirc_id : Exec π Unit) fun _ => True :=
  fun _ => ⟨_, _, rfl, ⟨rfl, rfl, rfl, rfl, rfl, rfl⟩, rfl, trivial⟩

theorem sampleSkips_silent (path : List Nat) (probability : BitVec 32) :
    Silent (sampleSkips env path probability) fun _ => True := by
  intro s
  unfold sampleSkips
  split_ifs
  · exact ⟨_, s, rfl, ⟨rfl, rfl, rfl, rfl, rfl, rfl⟩, rfl, trivial⟩
  · exact ⟨_, s, rfl, ⟨rfl, rfl, rfl, rfl, rfl, rfl⟩, rfl, trivial⟩
  · exact ⟨_, _, rfl, ⟨rfl, rfl, rfl, rfl, rfl, rfl⟩, rfl, trivial⟩

theorem ovsFlowKeyUpdate_silent (skb : Skb π) (key : KeyPtr) :
    Silent (ovsFlowKeyUpdate env skb key) fun r => SameSkb skb r.2 := by
  intro s
  rcases hres : env.key_extract s.tick skb.packet (s.keys key) with ⟨res, packet, new⟩
  have hask : ((ask fun n => env.key_extract n skb.packet (s.keys key)) : Exec π _).exec s =
      (.ok (res, packet, new), { s with tick := s.tick + 1 }) := by rw [← hres]; rfl
  unfold ovsFlowKeyUpdate
  rw [exec_bind, show (readKey key).exec s = (.ok (s.keys key), s) from rfl]
  dsimp only
  rw [exec_bind, hask]
  dsimp only
  split_ifs
  · exact ⟨_, _, rfl, ⟨rfl, rfl, rfl, rfl, rfl, rfl⟩, rfl, rfl, rfl⟩
  · exact ⟨_, _, rfl, ⟨rfl, rfl, rfl, rfl, rfl, rfl⟩, rfl, rfl, rfl⟩

/-! ## Steps with an event -/

theorem record_settles (h : ∀ s : Cpu π, Steady start dev first held s →
      Steady start dev first held' { s with trace := e :: s.trace }) :
    Settles (At start dev first level tail held) (fun _ => record e)
      (fun _ => At start dev first level tail held') (Crashed start dev first) :=
  Settles.modify fun s hs => ⟨h s hs.steady, hs.level, hs.tail⟩

/-- An event that only uses a packet that is held. -/
theorem use_settles {id : Nat} (hid : id ∈ held) (hplain : e.Plain) (huses : e.uses = some id)
    (hdisposes : e.disposes = none) (hloses : e.loses = none) :
    Settles (At start dev first level tail held) (fun _ => record e)
      (fun _ => At start dev first level tail held) (Crashed start dev first) := by
  apply record_settles
  intro s hs
  apply hs.use hplain _ hdisposes hloses
  intro id' hid'
  obtain rfl := Option.some.inj (huses.symm.trans hid')
  exact hid

theorem kfreeSkb_settles (skb : Skb π) :
    Settles (At start dev first level tail (skb.id :: held)) (fun _ => kfreeSkb skb)
      (fun _ => At start dev first level tail held) (Crashed start dev first) :=
  record_settles fun _ hs => hs.dispose ⟨rfl, rfl, rfl⟩ rfl rfl rfl

theorem freeWith_settles (skb : Skb π) (err : Int) :
    Settles (At start dev first level tail (skb.id :: held)) (fun _ => freeWith skb err)
      (fun _ => At start dev first level tail held) (Crashed start dev first) :=
  Settles.bind (kfreeSkb_settles skb) fun _ => Settles.pure fun _ h => h

theorem doOutput_settles (skb : Skb π) (port : Nat) (key : KeyPtr) :
    Settles (At start dev first level tail (skb.id :: held)) (fun _ => doOutput skb port key)
      (fun _ => At start dev first level tail held) (Crashed start dev first) := by
  refine Settles.bind_and (readKey_silent key).settles fun k _ => ?_
  exact record_settles fun _ hs => hs.dispose ⟨rfl, rfl, rfl⟩ rfl rfl rfl

theorem outputUserspace_settles (skb : Skb π) (key : KeyPtr) (attr : List (BitVec 8))
    (actions : List Action) :
    Settles (At start dev first level tail (skb.id :: held))
      (fun _ => outputUserspace skb key attr actions)
      (fun _ => At start dev first level tail (skb.id :: held)) (Crashed start dev first) := by
  refine Settles.bind_and (readKey_silent key).settles fun k _ => ?_
  exact use_settles List.mem_cons_self ⟨rfl, rfl, rfl⟩ rfl rfl rfl

theorem missUpcall_settles (skb : Skb π) (key : KeyPtr) :
    Settles (At start dev first level tail (skb.id :: held)) (fun _ => missUpcall skb key)
      (fun _ => At start dev first level tail held) (Crashed start dev first) := by
  refine Settles.bind_and (readKey_silent key).settles fun k _ => ?_
  refine Settles.bind (use_settles List.mem_cons_self ⟨rfl, rfl, rfl⟩ rfl rfl rfl) fun _ => ?_
  exact kfreeSkb_settles skb

theorem executeHash_settles (hash_basis : BitVec 32) (skb : Skb π) (key : KeyPtr) :
    Settles (At start dev first level tail (skb.id :: held))
      (fun _ => executeHash env hash_basis skb key)
      (fun _ => At start dev first level tail (skb.id :: held)) (Crashed start dev first) := by
  refine Settles.bind_and (readKey_silent key).settles fun k _ => ?_
  refine Settles.bind (use_settles List.mem_cons_self ⟨rfl, rfl, rfl⟩ rfl rfl rfl) fun _ => ?_
  refine Settles.bind_and (ask_silent _).settles fun hash _ => ?_
  exact (writeKey_silent key _).settles.conseq (fun _ h => h) (fun _ _ h => h.2) fun _ _ h => h

theorem truncate_settles (skb : Skb π) (max_len : Nat) :
    Settles (At start dev first level tail (skb.id :: held)) (fun _ => truncate env skb max_len)
      (fun skb' s => SameSkb skb skb' ∧ At start dev first level tail (skb.id :: held) s)
      (Crashed start dev first) := by
  refine Settles.bind (use_settles List.mem_cons_self ⟨rfl, rfl, rfl⟩ rfl rfl rfl) fun _ => ?_
  split_ifs
  · exact Settles.pure fun _ h => ⟨⟨rfl, rfl⟩, h⟩
  · exact Settles.pure fun _ h => ⟨⟨rfl, rfl⟩, h⟩

theorem editPacket_settles (action : Action) (skb : Skb π) (key : KeyPtr) :
    Settles (At start dev first level tail (skb.id :: held)) (fun _ => editPacket env action skb key)
      (fun r s => SameSkb skb r.2 ∧ At start dev first level tail (skb.id :: held) s)
      (Crashed start dev first) := by
  refine Settles.bind_and (readKey_silent key).settles fun k _ => ?_
  refine Settles.bind_and (ask_silent _).settles fun answer _ => ?_
  refine Settles.bind_and (writeKey_silent key _).settles fun _ _ => ?_
  refine Settles.bind (use_settles List.mem_cons_self ⟨rfl, rfl, rfl⟩ rfl rfl rfl) fun _ => ?_
  exact Settles.pure fun _ h => ⟨⟨rfl, rfl⟩, h⟩

/-- Connection tracking keeps the packet if it answers with an error. -/
theorem ovsCtExecute_settles (attr : List (BitVec 8)) (skb : Skb π) (key : KeyPtr) :
    Settles (At start dev first level tail (skb.id :: held)) (fun _ => ovsCtExecute env attr skb key)
      (fun r s => SameSkb skb r.2 ∧
        At start dev first level tail (heldAfter (r.1 ≠ 0) skb.id held) s)
      (Crashed start dev first) := by
  refine Settles.bind_and (readKey_silent key).settles fun k _ => ?_
  refine Settles.bind_and (ask_silent _).settles fun answer _ => ?_
  refine Settles.bind_and (writeKey_silent key _).settles fun _ _ => ?_
  obtain ⟨err, packet, mru, new⟩ := answer
  have hrecord : Settles (At start dev first level tail (skb.id :: held))
      (fun _ => record (π := π) (.tracked skb.id err))
      (fun _ => At start dev first level tail (heldAfter (err ≠ 0) skb.id held))
      (Crashed start dev first) := by
    by_cases herr : err = 0
    · rw [heldAfter, if_neg (by simpa using herr)]
      exact use_settles List.mem_cons_self ⟨rfl, rfl, rfl⟩ rfl (if_pos herr) rfl
    · rw [heldAfter, if_pos (by simpa using herr)]
      exact record_settles fun _ hs => hs.dispose ⟨rfl, rfl, rfl⟩ rfl (if_neg herr) rfl
  exact Settles.bind hrecord fun _ => Settles.pure fun _ h => ⟨⟨rfl, rfl⟩, h⟩

/-- The update of a key for an action that takes the packet with it in an error. -/
theorem validateKey_settles {action : Action} {last takes : Bool} (skb : Skb π) (key : KeyPtr)
    (htakes : ∀ err, Event.loses (π := π) (.keyUpdated skb.id action last err) =
      if err ≠ 0 ∧ takes then some skb.id else none) :
    Settles (At start dev first level tail (skb.id :: held))
      (fun _ => validateKey env action last skb key)
      (fun r s => SameSkb skb r.2 ∧
        At start dev first level tail (heldAfter (r.1 ≠ 0 && takes) skb.id held) s)
      (Crashed start dev first) := by
  refine Settles.bind_and (readKey_silent key).settles fun k _ => ?_
  split_ifs
  · exact Settles.pure fun _ h => ⟨⟨rfl, rfl⟩, h⟩
  · refine Settles.bind_and (ovsFlowKeyUpdate_silent skb key).settles fun r hskb => ?_
    obtain ⟨err, skb'⟩ := r
    have hid : skb'.id = skb.id := hskb.1
    dsimp only
    have hrecord : Settles (At start dev first level tail (skb.id :: held))
        (fun _ => record (π := π) (.keyUpdated skb'.id action last err))
        (fun _ => At start dev first level tail (heldAfter (err ≠ 0 && takes) skb.id held))
        (Crashed start dev first) := by
      rw [hid]
      by_cases hlost : err ≠ 0 ∧ takes
      · rw [heldAfter, if_pos (by simpa using hlost)]
        refine record_settles fun _ hs => hs.lose ⟨rfl, rfl, rfl⟩ rfl rfl ?_
        rw [htakes, if_pos hlost]
      · rw [heldAfter, if_neg (by simpa using hlost)]
        refine use_settles List.mem_cons_self ⟨rfl, rfl, rfl⟩ rfl rfl ?_
        rw [htakes, if_neg hlost]
    exact Settles.bind hrecord fun _ => Settles.pure fun _ h => ⟨hskb, h⟩

theorem isFlowKeyValid_setMacProto (key : SwFlowKey) (v : BitVec 8) :
    isFlowKeyValid (key.setMacProto (v &&& ~~~swFlowKeyInvalid)) = true := by
  have hmac : (key.setMacProto (v &&& ~~~swFlowKeyInvalid)).macProto = v &&& ~~~swFlowKeyInvalid := by
    unfold SwFlowKey.macProto SwFlowKey.setMacProto SwFlowKey.u8
    rw [dif_pos (by decide), SwFlowKey.setU8]
    exact if_pos rfl
  rw [isFlowKeyValid, hmac, BitVec.and_assoc]
  simp [swFlowKeyInvalid]

/-- Without an error, the key is valid then. -/
theorem validateKey_valid (action : Action) (last : Bool) (skb : Skb π) (key : KeyPtr) (s : Cpu π)
    (r : Int × Skb π) (s' : Cpu π)
    (h : (validateKey env action last skb key).exec s = (.ok r, s')) :
    r.1 = 0 → isFlowKeyValid (s'.keys key) = true := by
  intro herr
  unfold validateKey at h
  rw [exec_bind, show (readKey key).exec s = (.ok (s.keys key), s) from rfl] at h
  dsimp only at h
  split_ifs at h with hvalid
  · obtain ⟨hr, rfl⟩ := Prod.mk.inj h
    exact hvalid
  · unfold ovsFlowKeyUpdate at h
    rcases hres : env.key_extract s.tick skb.packet (s.keys key) with ⟨res, packet, new⟩
    have hask : ((ask fun n => env.key_extract n skb.packet (s.keys key)) : Exec π _).exec s =
        (.ok (res, packet, new), { s with tick := s.tick + 1 }) := by
      rw [← hres]
      rfl
    rw [exec_bind, exec_bind, show (readKey key).exec s = (.ok (s.keys key), s) from rfl] at h
    dsimp only at h
    rw [exec_bind, hask] at h
    dsimp only at h
    split_ifs at h with hzero
    · obtain ⟨-, rfl⟩ := Prod.mk.inj h
      show isFlowKeyValid (Function.update s.keys key _ key) = true
      rw [Function.update_self]
      exact isFlowKeyValid_setMacProto new new.macProto
    · obtain ⟨hr, -⟩ := Prod.mk.inj h
      obtain rfl := Except.ok.inj hr
      exact absurd herr hzero

/-! ## Copies and the FIFO -/

/-- A copy has its own identity and comes from the same device. -/
theorem skbClone_settles (skb : Skb π) :
    Settles (At start dev first level tail (skb.id :: held)) (fun _ => skbClone env skb)
      (fun o s => (∀ skb', o = some skb' → skb'.input_dev = skb.input_dev) ∧
        At start dev first level tail ((o.map Skb.id).toList ++ skb.id :: held) s)
      (Crashed start dev first) := by
  refine Settles.bind_and (ask_silent _).settles fun ok _ => ?_
  cases ok with
  | false => exact Settles.pure fun _ h => ⟨fun _ heq => (nomatch heq), h⟩
  | true =>
      refine Settles.const fun s hs =>
        ⟨?_, ⟨hs.steady.clone List.mem_cons_self, hs.level, hs.tail⟩⟩
      intro skb' heq
      obtain rfl := Option.some.inj heq
      rfl

theorem outputClone_settles (skb : Skb π) (port : Nat) (key : KeyPtr) :
    Settles (At start dev first level tail (skb.id :: held)) (fun _ => outputClone env skb port key)
      (fun _ => At start dev first level tail (skb.id :: held)) (Crashed start dev first) := by
  refine Settles.bind_and (skbClone_settles skb) fun o _ => ?_
  cases o with
  | none => exact Settles.pure fun _ h => h
  | some clone => exact doOutput_settles clone port key

/-- A slot for the key, up to the threshold. -/
theorem cloneKey_settles (hlevel : 0 < level) (key : KeyPtr) :
    Settles (At start dev first level tail held) (fun _ => (cloneKey key : Exec π (Option KeyPtr)))
      (fun o s => (o.isSome → level ≤ ovsDeferredActionThreshold) ∧
        At start dev first level tail held s) (Crashed start dev first) := by
  refine Settles.get_bind fun s hs => ?_
  rw [hs.level]
  split_ifs with hle hzero
  · omega
  · refine Settles.conseq (?_ : Settles (At start dev first level tail held) _ _ _) (fun _ h => h ▸ hs)
      (fun _ _ h => h) fun _ _ h => h
    exact Settles.bind_and (writeKey_silent _ _).settles fun _ _ => Settles.pure fun _ h => ⟨fun _ => hle, h⟩
  · exact Settles.pure fun _ h => ⟨fun hsome => (nomatch hsome), h ▸ hs⟩

/-- Work is queued, or its packet is freed. -/
theorem deferExecute_settles {skb : Skb π} (hdev : skb.input_dev = dev) (key : KeyPtr)
    (recirc_id : BitVec 32) (actions : Option (List Action)) :
    Settles (At start dev first level tail (skb.id :: held))
      (fun _ => deferExecute skb key recirc_id actions)
      (fun _ => At start dev first level tail held) (Crashed start dev first) := by
  have hadd : Settles (At start dev first level tail (skb.id :: held))
      (fun _ => addDeferredActions skb key actions)
      (fun o => At start dev first level tail (o.elim (skb.id :: held) fun _ => held))
      (Crashed start dev first) := by
    refine Settles.get_bind fun s hs => ?_
    split_ifs with hfull
    · exact Settles.pure fun _ h => h ▸ hs
    · refine Settles.const ?_
      rintro s rfl
      exact ⟨hs.steady.queue hdev (Nat.lt_of_not_le hfull) _, hs.level, hs.tail⟩
  refine Settles.bind hadd fun o => ?_
  cases o with
  | none =>
      refine Settles.bind (use_settles List.mem_cons_self ⟨rfl, rfl, rfl⟩ rfl rfl rfl) fun _ => ?_
      exact freeWith_settles skb 0
  | some da =>
      dsimp only
      split_ifs
      · exact Settles.bind_and (setRecircId_silent da recirc_id).settles fun _ _ =>
          Settles.pure fun _ h => h
      · exact Settles.pure fun _ h => h

/-- `my_label_sketch` neither allocates nor frees a sketch. -/
theorem myLabelSketch_same {sketches sketches' : Sketches} {target : Option Nat} {key : SwFlowKey}
    (h : myLabelSketch sketches dev key = .ok (target, sketches')) :
    SameSketches sketches sketches' := by
  unfold myLabelSketch at h
  split at h
  · cases h
  · cases h
    exact fun _ => rfl
  · split at h
    · rename_i dev_id _ hlt
      split at h
      · cases h
      · rename_i sketch hsketch
        cases h
        intro i
        rcases eq_or_ne i ⟨dev_id, hlt⟩ with rfl | hne
        · dsimp only
          rw [Function.update_self, hsketch]
          rfl
        · dsimp only
          rw [Function.update_of_ne hne]
    · cases h

/-- The fault of `my_label_sketch` is the only one that stops a call. -/
theorem labelPacket_settles {skb : Skb π} (hdev : skb.input_dev = dev) (key : KeyPtr) :
    Settles (At start dev first level tail held) (fun _ => labelPacket skb key)
      (fun _ => At start dev first level tail held) (Crashed start dev first) := by
  refine Settles.get_bind fun s hs => ?_
  rw [hdev]
  rcases hlabel : myLabelSketch s.sketches dev (s.keys key) with fault | ⟨_ | dev_id, sketches⟩
  · refine Settles.throw ?_
    rintro s rfl
    exact ⟨⟨s.sketches, s.keys key, hs.steady.sketches, hlabel⟩, held, hs.steady⟩
  · exact Settles.pure fun _ h => h ▸ hs
  · refine Settles.bind (Q := fun _ => At start dev first level tail held)
      (Settles.modify ?_) fun _ => ?_
    · rintro s rfl
      exact ⟨hs.steady.setSketches (myLabelSketch_same hlabel), hs.level, hs.tail⟩
    · exact record_settles fun _ h => h.use ⟨rfl, rfl, rfl⟩ (fun _ heq => nomatch heq) rfl rfl

/-! ## One level -/

/-- On a level, the executor of action lists ends, and has disposed of the packet it was given. -/
def Runs (env : DatapathEnv π) (start : Sketches) (dev : List (BitVec 8)) (first level : Nat)
    (rest : List Action) : Prop :=
  ∀ (skb : Skb π) (key : KeyPtr) (attr : List Action) (held : List Nat) (tail : Nat),
    skb.input_dev = dev →
    Settles (At start dev first level tail (skb.id :: held))
      (fun n => doExecuteActions env n skb key attr rest)
      (fun _ => At start dev first level tail held) (Crashed start dev first)

theorem incLevel_settles :
    Settles (At start dev first level tail held) (fun _ => (incLevel : Exec π Nat))
      (fun r s => r = level + 1 ∧ At start dev first (level + 1) tail held s)
      (Crashed start dev first) :=
  Settles.const fun _ hs => ⟨congrArg (· + 1) hs.level,
    hs.steady.congr ⟨rfl, rfl, rfl, rfl, rfl, rfl⟩, congrArg (· + 1) hs.level, hs.tail⟩

theorem decLevel_settles :
    Settles (At start dev first (level + 1) tail held) (fun _ => (decLevel : Exec π Unit))
      (fun _ => At start dev first level tail held) (Crashed start dev first) :=
  Settles.modify fun _ hs => ⟨hs.steady.congr ⟨rfl, rfl, rfl, rfl, rfl, rfl⟩,
    congrArg (· - 1) hs.level, hs.tail⟩

/-- Flow processing of a packet on a level leads to the level above it. -/
theorem ovsDpProcessPacket_settles (hlevel : 0 < level) (hle : level < ovsRecursionLimit)
    (hnext : ∀ acts, Runs env start dev first (level + 1) acts) {skb : Skb π}
    (hdev : skb.input_dev = dev) (key : KeyPtr) :
    Settles (At start dev first level tail (skb.id :: held))
      (fun n => ovsDpProcessPacket env n skb key) (fun _ => At start dev first level tail held)
      (Crashed start dev first) := by
  apply Settles.succ
  simp only [ovsDpProcessPacket]
  refine Settles.bind (use_settles List.mem_cons_self ⟨rfl, rfl, rfl⟩ rfl rfl rfl) fun _ => ?_
  refine Settles.bind (labelPacket_settles hdev key) fun _ => ?_
  refine Settles.bind_and (readKey_silent key).settles fun k _ => ?_
  refine Settles.bind_and (ask_silent _).settles fun flow _ => ?_
  cases flow with
  | none => exact missUpcall_settles skb key
  | some acts =>
      refine Settles.bind (Q := fun _ => At start dev first level tail held) ?_
        fun _ => Settles.pure fun _ h => h
      apply Settles.succ
      simp only [ovsExecuteActions]
      refine Settles.bind_and incLevel_settles fun r hr => ?_
      subst hr
      have hlimit : ¬ level + 1 > ovsRecursionLimit := Nat.not_lt.mpr hle
      have hnested : ¬ level + 1 = 1 := by omega
      simp only [if_neg hlimit, if_neg hnested]
      refine Settles.bind (hnext acts skb key acts held tail hdev) fun err => ?_
      exact Settles.bind decLevel_settles fun _ => Settles.pure fun _ h => h

/-- The packet that a nested execution gets: a copy, unless nothing comes after it. -/
theorem cloneUnlessLast_settles (skb : Skb π) (last : Bool) :
    Settles (At start dev first level tail (skb.id :: held))
      (fun _ => if last then pure (some skb) else skbClone env skb)
      (fun o s => (∀ skb', o = some skb' → skb'.input_dev = skb.input_dev) ∧
        At start dev first level tail ((o.map Skb.id).toList ++ heldAfter last skb.id held) s)
      (Crashed start dev first) := by
  cases last with
  | true =>
      refine Settles.pure fun _ h => ⟨fun skb' heq => ?_, h⟩
      obtain rfl := Option.some.inj heq
      rfl
  | false => exact skbClone_settles skb

/-- The key that a nested execution gets. -/
theorem cloneKeyIf_settles (hlevel : 0 < level) (key : KeyPtr) (clone_flow_key : Bool) :
    Settles (At start dev first level tail held)
      (fun _ => (if clone_flow_key then cloneKey key else pure (some key) : Exec π (Option KeyPtr)))
      (fun o s => (o.isSome → clone_flow_key → level ≤ ovsDeferredActionThreshold) ∧
        At start dev first level tail held s) (Crashed start dev first) := by
  cases clone_flow_key with
  | true =>
      refine (cloneKey_settles hlevel key).conseq (fun _ h => h) (fun o s h => ?_) fun _ _ h => h
      exact ⟨fun hsome _ => h.1 hsome, h.2⟩
  | false => exact Settles.pure fun _ h => ⟨fun _ hfalse => absurd hfalse Bool.false_ne_true, h⟩

/-- A nested execution ends: with a key of its own it is one level up, otherwise its actions are
smaller, and if there is no slot for a key it is queued. -/
theorem cloneExecute_settles (hlevel : 0 < level) {actions : Option (List Action)}
    {clone_flow_key : Bool}
    (hnext : level ≤ ovsDeferredActionThreshold → ∀ acts, Runs env start dev first (level + 1) acts)
    (hlist : ∀ acts, actions = some acts → Runs env start dev first level acts)
    (hrecirc : actions = none → clone_flow_key) {skb : Skb π} (hdev : skb.input_dev = dev)
    (key : KeyPtr) (recirc_id : BitVec 32) (last : Bool) :
    Settles (At start dev first level tail (skb.id :: held))
      (fun n => cloneExecute env n skb key recirc_id actions last clone_flow_key)
      (fun _ => At start dev first level tail (heldAfter last skb.id held))
      (Crashed start dev first) := by
  apply Settles.succ
  simp only [cloneExecute]
  refine Settles.bind_and (cloneUnlessLast_settles skb last) fun o ho => ?_
  cases o with
  | none => exact Settles.pure fun _ h => h
  | some clone =>
      have hclone : clone.input_dev = dev := (ho clone rfl).trans hdev
      refine Settles.bind_and (cloneKeyIf_settles hlevel key clone_flow_key) fun k hk => ?_
      cases k with
      | none => exact deferExecute_settles hclone key recirc_id actions
      | some k =>
          cases actions with
          | none =>
              have hle := hk rfl (hrecirc rfl)
              refine Settles.bind_and (setRecircId_silent k recirc_id).settles fun _ _ => ?_
              refine Settles.bind (ovsDpProcessPacket_settles hlevel (Nat.lt_of_le_of_lt hle (by decide))
                (hnext hle) hclone k) fun _ => ?_
              exact Settles.pure fun _ h => h
          | some acts =>
              dsimp only
              split_ifs with hcfk
              · refine Settles.bind_and incLevel_settles fun _ _ => ?_
                refine Settles.bind (hnext (hk rfl hcfk) acts clone k acts _ tail hclone) fun err => ?_
                exact Settles.bind decLevel_settles fun _ => Settles.pure fun _ h => h
              · exact hlist acts rfl clone k acts _ tail hclone

/-- The rest of a list after a nested execution. -/
theorem afterNested_settles {rest : List Action} (hrest : Runs env start dev first level rest)
    {skb : Skb π} (hdev : skb.input_dev = dev) (key : KeyPtr) (attr : List Action) (err : Int) :
    Settles (At start dev first level tail (heldAfter rest.isEmpty skb.id held))
      (fun n => if rest.isEmpty then pure err
        else if err ≠ 0 then freeWith skb err
        else doExecuteActions env n skb key attr rest)
      (fun _ => At start dev first level tail held) (Crashed start dev first) := by
  cases rest with
  | nil => exact Settles.pure fun _ h => h
  | cons a rest =>
      simp only [List.isEmpty_cons, Bool.false_eq_true, if_false]
      by_cases herr : err ≠ 0
      · simp only [if_pos herr]
        exact freeWith_settles skb err
      · simp only [if_neg herr]
        exact hrest skb key attr held tail hdev

/-- An edit and the rest of its list. -/
theorem edit_settles {rest : List Action} (hrest : Runs env start dev first level rest)
    (action : Action) {skb : Skb π} (hdev : skb.input_dev = dev) (key : KeyPtr)
    (attr : List Action) :
    Settles (At start dev first level tail (skb.id :: held))
      (fun n => do
        let (err, skb) ← editPacket env action skb key
        if err ≠ 0 then freeWith skb err else doExecuteActions env n skb key attr rest)
      (fun _ => At start dev first level tail held) (Crashed start dev first) := by
  refine Settles.bind_and (editPacket_settles action skb key) fun r hskb => ?_
  obtain ⟨err, skb'⟩ := r
  rw [← hskb.1]
  by_cases herr : err = 0
  · simp only [herr, ne_eq, not_true_eq_false, if_false]
    exact hrest skb' key attr held tail (hskb.2.trans hdev)
  · simp only [ne_eq, herr, not_false_eq_true, if_true]
    exact freeWith_settles skb' err

/-- CT and the rest of its list. -/
theorem ct_settles {rest : List Action} (hrest : Runs env start dev first level rest)
    (arg : List (BitVec 8)) {skb : Skb π} (hdev : skb.input_dev = dev) (key : KeyPtr)
    (attr : List Action) :
    Settles (At start dev first level tail (skb.id :: held))
      (fun n => doExecuteActions env (n + 1) skb key attr (.ct arg :: rest))
      (fun _ => At start dev first level tail held) (Crashed start dev first) := by
  have htakes : ∀ err, Event.loses (π := π) (.keyUpdated skb.id (.ct arg) rest.isEmpty err) =
      if err ≠ 0 ∧ true then some skb.id else none := by
    intro err
    by_cases herr : err = 0 <;> simp [Event.loses, herr]
  simp only [doExecuteActions]
  refine Settles.bind_and (validateKey_settles skb key htakes) fun r hskb => ?_
  obtain ⟨err, skb₁⟩ := r
  dsimp only
  by_cases herr : err = 0
  · simp only [herr, ne_eq, not_true_eq_false, if_false, decide_false, Bool.false_and,
      heldAfter_false]
    rw [← hskb.1]
    refine Settles.bind_and (ovsCtExecute_settles arg skb₁ key) fun r hskb' => ?_
    obtain ⟨err', skb₂⟩ := r
    dsimp only
    by_cases herr' : err' = 0
    · simp only [herr', not_true_eq_false, if_false, ne_eq, decide_false, heldAfter_false]
      rw [← hskb'.1]
      exact hrest skb₂ key attr held tail (hskb'.2.trans (hskb.2.trans hdev))
    · simp only [herr', not_false_eq_true, if_true, ne_eq, decide_true, heldAfter_true]
      exact Settles.pure fun _ h => h
  · simp only [ne_eq, herr, not_false_eq_true, if_true, decide_true, Bool.true_and, heldAfter_true]
    exact Settles.pure fun _ h => h

section Level

variable (hlevel : 0 < level)
  (hnext : level ≤ ovsDeferredActionThreshold → ∀ acts, Runs env start dev first (level + 1) acts)
include hlevel hnext

/-- SAMPLE, with the nested list executed in place or not at all. -/
theorem sample_settles {actions : List Action} (hlist : Runs env start dev first level actions)
    {skb : Skb π} (hdev : skb.input_dev = dev) (key : KeyPtr) (probability : BitVec 32)
    (exec last : Bool) :
    Settles (At start dev first level tail (skb.id :: held))
      (fun n => sample env n skb key probability exec actions last)
      (fun _ => At start dev first level tail (heldAfter last skb.id held))
      (Crashed start dev first) := by
  apply Settles.succ
  simp only [sample]
  refine Settles.bind_and (sampleSkips_silent skb.path probability).settles fun skips _ => ?_
  split_ifs with hskips hlast
  · subst hlast
    exact freeWith_settles skb 0
  · rw [Bool.not_eq_true] at hlast
    subst hlast
    exact Settles.pure fun _ h => h
  · refine cloneExecute_settles hlevel hnext (fun acts hacts => ?_) (fun heq => ?_) hdev key 0 last
    · exact Option.some.inj hacts ▸ hlist
    · cases heq

/-- RECIRC. The key is valid when it is copied. -/
theorem executeRecirc_settles {skb : Skb π} (hdev : skb.input_dev = dev) (key : KeyPtr)
    (recirc_id : BitVec 32) (last : Bool) :
    Settles (At start dev first level tail (skb.id :: held))
      (fun n => executeRecirc env n skb key recirc_id last)
      (fun r s => SameSkb skb r.2 ∧
        At start dev first level tail (heldAfter last skb.id held) s)
      (Crashed start dev first) := by
  have htakes : ∀ err, Event.loses (π := π) (.keyUpdated skb.id (.recirc recirc_id) last err) =
      if err ≠ 0 ∧ last then some skb.id else none := by
    intro err
    cases last <;> by_cases herr : err = 0 <;> simp [Event.loses, herr]
  apply Settles.succ
  simp only [executeRecirc]
  -- the key is made valid before it is copied, or the packet is freed
  refine Settles.bind ((validateKey_settles skb key htakes).const_and (validateKey_valid _ _ skb key))
    fun r => ?_
  obtain ⟨err, skb'⟩ := r
  refine Settles.of_forall fun s hs => ?_
  obtain ⟨hvalid, hskb, hat⟩ := hs
  dsimp only at hvalid hskb hat ⊢
  by_cases herr : err = 0
  · have hid : skb'.id = skb.id := hskb.1
    simp only [herr, ne_eq, not_true_eq_false, if_false, decide_false, Bool.false_and,
      heldAfter_false] at hat ⊢
    refine Settles.bind (Q := fun k s' => s' = s ∧ k = s.keys key) (Settles.const ?_) fun k => ?_
    · rintro s rfl
      exact ⟨rfl, rfl⟩
    · refine Settles.of_forall ?_
      rintro s ⟨rfl, rfl⟩
      simp only [hvalid herr, if_true]
      refine Settles.conseq (?_ : Settles (At start dev first level tail (skb'.id :: held)) _ _ _)
        (fun s h => h ▸ hid ▸ hat) (fun _ _ h => h) fun _ _ h => h
      refine Settles.bind (use_settles List.mem_cons_self ⟨rfl, rfl, rfl⟩ rfl rfl rfl) fun _ => ?_
      refine Settles.bind (cloneExecute_settles hlevel hnext (fun acts hacts => ?_) (fun _ => rfl)
        (hskb.2.trans hdev) key recirc_id last) fun err => ?_
      · cases hacts
      · exact Settles.pure fun _ h => ⟨hskb, hid ▸ h⟩
  · simp only [ne_eq, herr, not_false_eq_true, if_true, decide_true, Bool.true_and] at hat ⊢
    refine Settles.pure ?_
    rintro s rfl
    exact ⟨hskb, hat⟩

/-- All lists end on a level if they do on the level above it. The induction is on the size of the
list, of which the list nested in a SAMPLE is a part. -/
theorem runs_of_next (rest : List Action) : Runs env start dev first level rest := by
  induction hsize : sizeOf rest using Nat.strong_induction_on generalizing rest with
  | _ size ih =>
      intro skb key attr held tail hdev
      apply Settles.succ
      cases rest with
      | nil => exact freeWith_settles skb 0
      | cons a rest =>
          -- both lists are smaller: the rest, and the list of a SAMPLE
          have hrest : Runs env start dev first level rest := by
            apply ih _ _ rest rfl
            rw [← hsize, List.cons.sizeOf_spec]
            omega
          cases a with
          | output port =>
              simp only [doExecuteActions]
              cases rest with
              | nil => exact Settles.bind (doOutput_settles skb port key) fun _ => Settles.pure fun _ h => h
              | cons b rest =>
                  exact Settles.bind (outputClone_settles skb port key) fun _ =>
                    hrest { skb with cutlen := 0 } key attr held tail hdev
          | trunc max_len =>
              simp only [doExecuteActions]
              refine Settles.bind_and (truncate_settles skb max_len) fun skb' hskb => ?_
              rw [← hskb.1]
              exact hrest skb' key attr held tail (hskb.2.trans hdev)
          | userspace arg =>
              simp only [doExecuteActions]
              exact Settles.bind (outputUserspace_settles skb key arg attr) fun _ =>
                hrest { skb with cutlen := 0 } key attr held tail hdev
          | hash hash_basis =>
              simp only [doExecuteActions]
              exact Settles.bind (executeHash_settles hash_basis skb key) fun _ =>
                hrest skb key attr held tail hdev
          | recirc recirc_id =>
              simp only [doExecuteActions]
              have hnest : (skb.nest rest).input_dev = dev := hdev
              refine Settles.bind_and (executeRecirc_settles hlevel hnext hnest key recirc_id
                rest.isEmpty) fun r hskb => ?_
              obtain ⟨err, nested⟩ := r
              have hid : nested.id = skb.id := hskb.1
              have hdev' : ({ nested with path := skb.path } : Skb π).input_dev = dev :=
                hskb.2.trans hdev
              have hrest' : Settles (At start dev first level tail
                  (heldAfter rest.isEmpty nested.id held)) _
                  (fun _ => At start dev first level tail held) _ :=
                afterNested_settles hrest hdev' key attr err
              exact hid ▸ hrest'
          | sample probability exec actions =>
              have hlist : Runs env start dev first level actions := by
                apply ih _ _ actions rfl
                rw [← hsize, List.cons.sizeOf_spec, Action.sample.sizeOf_spec]
                omega
              simp only [doExecuteActions]
              have hnest : (skb.nest rest).input_dev = dev := hdev
              refine Settles.bind (sample_settles hlevel hnext hlist hnest key probability exec
                rest.isEmpty) fun err => ?_
              exact afterNested_settles hrest hdev key attr err
          | ct arg =>
              exact ct_settles hrest arg hdev key attr
          | _ => exact edit_settles hrest _ hdev key attr

end Level

/-- All lists end on the levels of nested executions: from the level without slots for keys down. -/
theorem runs (env : DatapathEnv π) (start : Sketches) (dev : List (BitVec 8)) (first above : Nat) :
    ∀ level, 0 < level → level + above = ovsDeferredActionThreshold + 1 →
      ∀ rest, Runs env start dev first level rest := by
  induction above with
  | zero =>
      intro level hlevel heq
      exact runs_of_next hlevel fun hle => by omega
  | succ above ih =>
      intro level hlevel heq
      exact runs_of_next hlevel fun _ => ih (level + 1) level.succ_pos (by omega)

/-! ## The loop over the FIFO -/

theorem actionFifoGet_settles :
    Settles (fun s => At start dev first level tail held s ∧ s.head ≠ s.tail)
      (fun _ => (actionFifoGet : Exec π _))
      (fun o s => ∃ da key, o = some (da, key) ∧ da.skb.input_dev = dev ∧
        At start dev first level (tail + 1) (da.skb.id :: held) s) (Crashed start dev first) := by
  refine Settles.get_bind fun s hs => ?_
  obtain ⟨hat, hne⟩ := hs
  have hlt : s.tail < s.head := Nat.lt_of_le_of_ne hat.steady.fifo.tail_le hne.symm
  rw [if_neg hne, if_pos (hlt.trans hat.steady.fifo.head_lt)]
  refine Settles.const ?_
  rintro s rfl
  refine ⟨s.fifo s.tail, .pktKey s.tail, rfl, hat.steady.fifo.input_dev s.tail hlt, ?_⟩
  exact ⟨hat.steady.dequeue hne, hat.level, congrArg (· + 1) hat.tail⟩

theorem runDeferred_settles {da : DeferredAction π} (hdev : da.skb.input_dev = dev) (key : KeyPtr) :
    Settles (At start dev first 1 tail (da.skb.id :: held)) (fun n => runDeferred env n da key)
      (fun _ => At start dev first 1 tail held) (Crashed start dev first) := by
  apply Settles.succ
  simp only [runDeferred]
  cases da.actions with
  | none =>
      exact ovsDpProcessPacket_settles Nat.one_pos (by decide)
        (runs env start dev first 1 2 (by decide) rfl) hdev key
  | some actions =>
      exact Settles.bind (runs env start dev first 2 1 Nat.one_pos rfl actions da.skb key actions held
        tail hdev) fun _ => Settles.pure fun _ h => h

/-- The loop empties the FIFO: the tail only moves up, and no further than the head can. -/
theorem deferredLoop_settles (room : Nat) :
    ∀ tail, tail + room = deferredActionFifoSize →
      Settles (fun s => At start dev first 1 tail [] s ∧ s.head ≠ s.tail)
        (fun n => deferredLoop env n) (fun _ s => s.exec_actions_level = 1 ∧ Drained first s)
        (Crashed start dev first) := by
  induction room with
  | zero =>
      intro tail heq s hs
      have hle := hs.1.steady.fifo.tail_le
      have hlt := hs.1.steady.fifo.head_lt
      rw [hs.1.tail] at hle
      omega
  | succ room ih =>
      intro tail heq
      apply Settles.succ
      simp only [deferredLoop]
      refine Settles.bind actionFifoGet_settles fun o => Settles.of_forall fun s hs => ?_
      obtain ⟨da, key, rfl, hdev, hat⟩ := hs
      refine Settles.bind (Q := fun _ => At start dev first 1 (tail + 1) [])
        ((runDeferred_settles hdev key).conseq (fun _ h => h ▸ hat) (fun _ _ h => h) fun _ _ h => h)
        fun _ => Settles.get_bind fun s hs => ?_
      by_cases hempty : s.head = s.tail
      · simp only [if_pos hempty]
        refine Settles.modify ?_
        rintro s rfl
        exact ⟨hs.level, hs.steady.drained hempty⟩
      · simp only [if_neg hempty]
        exact (ih (tail + 1) (by omega)).conseq (fun _ h => h ▸ ⟨hs, hempty⟩) (fun _ _ h => h)
          fun _ _ h => h

theorem processDeferredActions_settles :
    Settles (At start dev first 1 0 []) (fun n => processDeferredActions (π := π) env n)
      (fun _ s => s.exec_actions_level = 1 ∧ Drained first s) (Crashed start dev first) := by
  apply Settles.succ
  simp only [processDeferredActions]
  refine Settles.get_bind fun s hs => ?_
  by_cases hempty : s.head = s.tail
  · simp only [if_pos hempty]
    refine Settles.pure ?_
    rintro ⟨level, head, tail, fifo, keys, sketches, next_skb, tick, trace⟩ rfl
    -- nothing has been queued, and there is nothing to reset
    obtain rfl : tail = 0 := hs.tail
    obtain rfl : head = 0 := hempty
    exact ⟨hs.level, hs.steady.drained rfl⟩
  · simp only [if_neg hempty]
    exact (deferredLoop_settles deferredActionFifoSize 0 (Nat.zero_add _)).conseq
      (fun _ h => h ▸ ⟨hs, hempty⟩) (fun _ _ h => h) fun _ _ h => h

/-! ## A whole call -/

/-- A cpu outside of any call, about to execute actions on a packet. What the FIFO, the slots and the
sketches hold is left over from earlier ones; no copy has the number of the packet. -/
def Cpu.before (s : Cpu π) (skb : Skb π) : Cpu π :=
  { s with exec_actions_level := 0, head := 0, tail := 0, next_skb := skb.id + 1, trace := [] }

/-- Before the call, the packet is all that is held. -/
theorem before_at (s : Cpu π) (skb : Skb π) :
    At s.sketches skb.input_dev skb.id 0 0 [skb.id] (s.before skb) := by
  refine ⟨⟨⟨fun id => ?_, Nat.lt_succ_self _, fun id => ?_, trivial⟩,
    ⟨le_rfl, Nat.succ_pos 9, rfl, rfl, fun i hi => absurd hi (Nat.not_lt_zero i)⟩, fun _ => rfl⟩,
    rfl, rfl⟩
  · show 0 + 0 + 0 + [skb.id].count id = if skb.id ≤ id ∧ id < skb.id + 1 then 1 else 0
    rw [List.count_singleton]
    simp only [beq_iff_eq]
    split_ifs <;> omega
  · show some id ∈ [] ↔ skb.id < id ∧ id < skb.id + 1
    refine iff_of_false (List.not_mem_nil) ?_
    omega

/-- A call on an idle cpu ends. -/
theorem ovsExecuteActions_settles (env : DatapathEnv π) (skb : Skb π) (acts : List Action)
    (key : KeyPtr) (start : Sketches) :
    Settles (At start skb.input_dev skb.id 0 0 [skb.id])
      (fun n => ovsExecuteActions env n skb acts key)
      (fun _ s => s.exec_actions_level = 0 ∧ Drained skb.id s)
      (Crashed start skb.input_dev skb.id) := by
  apply Settles.succ
  simp only [ovsExecuteActions]
  refine Settles.bind_and incLevel_settles fun level hlevel => ?_
  subst hlevel
  have hlimit : ¬ 0 + 1 > ovsRecursionLimit := by decide
  simp only [if_neg hlimit, if_pos]
  refine Settles.bind (runs env start skb.input_dev skb.id 2 1 Nat.one_pos rfl acts skb key acts [] 0
    rfl) fun err => ?_
  refine Settles.bind processDeferredActions_settles fun _ => ?_
  refine Settles.bind (Q := fun _ s => s.exec_actions_level = 0 ∧ Drained skb.id s)
    (Settles.modify fun s hs => ⟨?_, ?_⟩) fun _ => Settles.pure fun _ h => h
  · show s.exec_actions_level - 1 = 0
    rw [hs.1]
  · obtain ⟨-, hhead, htail, hqueued, hdequeued, hbalance, hfirst, hclones, hused⟩ := hs
    exact ⟨hhead, htail, hqueued, hdequeued, hbalance, hfirst, hclones, hused⟩

end OvsDatapath.Actions
