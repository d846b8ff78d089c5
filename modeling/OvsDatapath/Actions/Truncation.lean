import OvsDatapath.Actions.PacketCount
import OvsDatapath.Actions.CopyActions

/-!
# Truncation

TRUNC does not shorten a packet. It notes in the control block how many bytes to cut from the end,
`cutlen`, computed from the length that the packet has then, and the next OUTPUT or USERSPACE of the
packet subtracts this from the length that the packet has by then. Between the two other actions may
run, also those of a nested list, on a clone with the same control block, or of the flow that a RECIRC
leads to. They can change the length. And a TRUNC that finds the packet no longer than its `max_len`
leaves the number of an earlier TRUNC in place.

A packet in the executor is followed by what decides about `cutlen` only: its length, its control block
and what is left of its list (`CutState`). One action leads to the packets that go on after it
(`CutState.execute`), and a packet's history is a path of such steps, whatever else the cpu does in
between, so that executions in place and from the FIFO look the same here. `outputs_reached` says that
every packet the executor sends has such a history. On all of them, `fits_iff` says exactly when
`skb->len - cutlen` is what it is meant to be.
-/

namespace OvsDatapath.Actions

open OvsDatapath.Lib OvsDatapath.Flow OvsDatapath.Sketch

/-! ## The history of a packet -/

/-- A TRUNC that has been executed: its argument, and the length of the packet. -/
structure Trunc where
  max_len : Nat
  len : Nat

/-- The number of bytes by which the packet was too long. -/
def Trunc.excess (t : Trunc) : Nat := t.len - t.max_len

/-- A packet with what is left of its action list. `truncs` is not in the source: the TRUNC actions
since the packet has last been sent, latest first. -/
structure CutState where
  len : Nat
  cutlen : Nat
  todo : List Action
  truncs : List Trunc

/-- What happens while one action is executed. -/
structure StepAnswer where
  /-- The error of an edit, of an update of the key, of connection tracking or of a nested list. -/
  err : Int
  /-- `skb->len` after an edit, an update of the key or connection tracking. -/
  len : Nat
  /-- Whether `skb_clone` succeeds. -/
  clone : Bool
  /-- Whether SAMPLE does not execute its list. -/
  skips : Bool
  /-- The actions that RECIRC leads to, if any are executed. -/
  flow : Option (List Action)

namespace CutState

/-- The packet goes on with another list. -/
def goOn (p : CutState) (todo : List Action) : CutState := { p with todo := todo }

/-- `OVS_CB(skb)->cutlen = 0`, after OUTPUT and USERSPACE. -/
def sent (p : CutState) : CutState := { p with cutlen := 0, truncs := [] }

/-- TRUNC. -/
def truncate (p : CutState) (max_len : Nat) : CutState :=
  let truncs := ⟨max_len, p.len⟩ :: p.truncs
  if p.len > max_len then { p with cutlen := p.len - max_len, truncs := truncs }
  else { p with truncs := truncs }

/-- A list that is executed for the packet or, unless its action is the last one, for a clone. -/
def nested (answer : StepAnswer) (p : CutState) (rest : List Action) (actions : Option (List Action)) :
    List CutState :=
  if rest.isEmpty || answer.clone then (actions.map p.goOn).toList else []

/-- The packet itself, unless its last action has taken it. -/
def itself (p : CutState) (rest : List Action) : List CutState :=
  if rest.isEmpty then [] else [p.goOn rest]

/-- The next action of the list, as `do_execute_actions` treats it: the packets that go on. -/
def execute (answer : StepAnswer) (p : CutState) : List CutState :=
  match p.todo with
  | [] => []
  | .output _ :: rest => p.sent.itself rest
  | .trunc max_len :: rest => [(p.truncate max_len).goOn rest]
  | .userspace _ :: rest => [p.sent.goOn rest]
  | .hash _ :: rest => [p.goOn rest]
  | .recirc _ :: rest =>
      let p := { p with len := answer.len }
      if answer.err ≠ 0 then [] else p.nested answer rest answer.flow ++ p.itself rest
  | .sample _ _ actions :: rest =>
      if answer.skips then p.itself rest
      else p.nested answer rest (some actions) ++ (if answer.err ≠ 0 then [] else p.itself rest)
  | _ :: rest => if answer.err ≠ 0 then [] else [{ p with len := answer.len, todo := rest }]

/-- The packets that the execution of a list for a packet of some length comes to. -/
inductive Reached (len : Nat) (actions : List Action) : CutState → Prop
  | start : Reached len actions ⟨len, 0, actions, []⟩
  | step {p p' : CutState} (h : Reached len actions p) (answer : StepAnswer)
      (hmem : p' ∈ p.execute answer) : Reached len actions p'

end CutState

/-- OUTPUT and USERSPACE, which use `cutlen`. -/
def Action.sends : Action → Bool
  | .output _ => true
  | .userspace _ => true
  | _ => false

/-- The next action of the packet sends it. -/
def CutState.Sends (p : CutState) : Prop := ∃ a ∈ p.todo.head?, a.sends

/-- What `cutlen` is for: it is not more than the packet, and if there is something to cut, then as
much as it takes to leave no more than the last TRUNC allows. -/
def CutState.Fits (p : CutState) : Prop :=
  p.cutlen ≤ p.len ∧
    (p.cutlen ≠ 0 → ∃ last ∈ p.truncs.head?, p.len - p.cutlen = min p.len last.max_len)

/-- The last TRUNC that has found something to cut. -/
def lastCut (truncs : List Trunc) : Option Trunc := truncs.find? fun t => 0 < t.excess

/-- If there is something to cut: the packet is now too long for the last TRUNC by as many bytes as it
was at the last TRUNC that found it too long. -/
def CutState.Stands (p : CutState) : Prop :=
  ∀ cut ∈ lastCut p.truncs, ∀ last ∈ p.truncs.head?, p.len - last.max_len = cut.excess

/-! ## The number in the control block -/

/-- The control block holds what the last TRUNC that has found something to cut has written there. -/
def CutState.Noted (p : CutState) : Prop := p.cutlen = ((lastCut p.truncs).map Trunc.excess).getD 0

namespace CutState

variable {p p' : CutState} {answer : StepAnswer} {rest : List Action}

theorem lastCut_cons (t : Trunc) (truncs : List Trunc) :
    lastCut (t :: truncs) = if 0 < t.excess then some t else lastCut truncs := by
  unfold lastCut
  rw [List.find?_cons]
  split_ifs with h
  · simp only [h, decide_true]
  · simp only [h, decide_false]

theorem lastCut_excess {truncs : List Trunc} {cut : Trunc} (h : cut ∈ lastCut truncs) :
    0 < cut.excess :=
  of_decide_eq_true (List.find?_some (p := fun t : Trunc => decide (0 < t.excess)) h)

theorem noted_start (len : Nat) (actions : List Action) : Noted ⟨len, 0, actions, []⟩ := rfl

theorem Noted.sent (p : CutState) : p.sent.Noted := rfl

theorem Noted.truncate (h : p.Noted) (max_len : Nat) : (p.truncate max_len).Noted := by
  unfold Noted CutState.truncate at *
  dsimp only
  split_ifs with hlen
  · have hpos : 0 < Trunc.excess ⟨max_len, p.len⟩ := Nat.sub_pos_of_lt hlen
    rw [lastCut_cons, if_pos hpos]
    rfl
  · have hzero : ¬ 0 < Trunc.excess ⟨max_len, p.len⟩ := by
      show ¬ 0 < p.len - max_len
      omega
    rw [lastCut_cons, if_neg hzero]
    exact h

/-- Whatever keeps the control block and is no TRUNC keeps the number right. -/
theorem Noted.same (h : p.Noted) (hcutlen : p'.cutlen = p.cutlen) (htruncs : p'.truncs = p.truncs) :
    p'.Noted := by
  unfold Noted at *
  rw [hcutlen, htruncs]
  exact h

theorem Noted.itself (h : p.Noted) (hmem : p' ∈ p.itself rest) : p'.Noted := by
  unfold CutState.itself at hmem
  split_ifs at hmem
  · cases hmem
  · obtain rfl := List.mem_singleton.1 hmem
    exact h.same rfl rfl

theorem Noted.nested (h : p.Noted) {actions : Option (List Action)}
    (hmem : p' ∈ p.nested answer rest actions) : p'.Noted := by
  unfold CutState.nested at hmem
  split_ifs at hmem
  · obtain ⟨todo, -, rfl⟩ := Option.map_eq_some_iff.1 (Option.mem_toList.1 hmem)
    exact h.same rfl rfl
  · cases hmem

/-- One action keeps the number right, for every packet that goes on after it. -/
theorem Noted.step (h : p.Noted) (hmem : p' ∈ p.execute answer) : p'.Noted := by
  obtain ⟨len, cutlen, todo, truncs⟩ := p
  cases todo with
  | nil => cases hmem
  | cons a rest =>
      cases a with
      | output port => exact (Noted.sent _).itself hmem
      | trunc max_len =>
          obtain rfl := List.mem_singleton.1 hmem
          exact (h.truncate max_len).same rfl rfl
      | userspace attr =>
          obtain rfl := List.mem_singleton.1 hmem
          exact (Noted.sent ⟨len, cutlen, .userspace attr :: rest, truncs⟩).same rfl rfl
      | hash hash_basis =>
          obtain rfl := List.mem_singleton.1 hmem
          exact h.same rfl rfl
      | recirc recirc_id =>
          have hp : Noted ⟨answer.len, cutlen, .recirc recirc_id :: rest, truncs⟩ := h.same rfl rfl
          simp only [execute] at hmem
          split_ifs at hmem
          · cases hmem
          · obtain hmem | hmem := List.mem_append.1 hmem
            · exact hp.nested hmem
            · exact hp.itself hmem
      | sample probability exec actions =>
          simp only [execute] at hmem
          split_ifs at hmem
          · exact h.itself hmem
          · exact h.nested ((List.mem_append.1 hmem).resolve_right List.not_mem_nil)
          · obtain hmem | hmem := List.mem_append.1 hmem
            · exact h.nested hmem
            · exact h.itself hmem
      | _ =>
          simp only [execute] at hmem
          split_ifs at hmem
          · cases hmem
          · obtain rfl := List.mem_singleton.1 hmem
            exact h.same rfl rfl

theorem Reached.noted {len : Nat} {actions : List Action} (h : Reached len actions p) : p.Noted := by
  induction h with
  | start => exact noted_start len actions
  | step _ answer hmem ih => exact ih.step hmem

/-! ## When a packet is cut right -/

theorem Noted.fits_of_stands (h : p.Noted) : p.Fits ↔ p.Stands := by
  unfold Noted at h
  unfold Fits Stands
  cases hcut : lastCut p.truncs with
  | none =>
      rw [hcut] at h
      have hzero : p.cutlen = 0 := h
      rw [hzero]
      constructor
      · intro _ cut hmem
        cases hmem
      · intro _
        exact ⟨Nat.zero_le _, fun hne => absurd rfl hne⟩
  | some cut =>
      rw [hcut] at h
      have hexcess : p.cutlen = cut.excess := h
      have hpos : 0 < cut.excess := lastCut_excess hcut
      obtain ⟨last, older, hlast⟩ : ∃ last older, p.truncs = last :: older := by
        cases htruncs : p.truncs with
        | nil => rw [htruncs] at hcut; cases hcut
        | cons last older => exact ⟨last, older, rfl⟩
      simp only [hlast, List.head?_cons, Option.mem_some_iff, forall_eq', exists_eq_left']
      rw [hexcess]
      constructor
      · rintro ⟨hle, hmin⟩
        have := hmin hpos.ne'
        omega
      · intro hlen
        omega

/-- In particular, the cut stands if the last TRUNC has found something to cut and the packet has kept
its length since. -/
theorem stands_of_last {last : Trunc} (hlast : p.truncs.head? = some last) (hpos : 0 < last.excess)
    (hlen : p.len = last.len) : p.Stands := by
  unfold Stands
  obtain ⟨truncs, htruncs⟩ : ∃ truncs, p.truncs = last :: truncs := by
    cases h : p.truncs with
    | nil => rw [h] at hlast; cases hlast
    | cons t truncs =>
        rw [h] at hlast
        exact ⟨truncs, by rw [Option.some.inj hlast]⟩
  rw [htruncs, lastCut_cons, if_pos hpos, hlen]
  intro cut hcut last' hlast'
  obtain rfl := Option.some.inj hcut
  obtain rfl := Option.some.inj hlast'
  rfl

end CutState

/-! ## The packets that the executor sends -/

variable {π : Type} {env : DatapathEnv π} {skb : Skb π} {rest : List Action} {s s' : Cpu π}
variable {actions : Option (List Action)} {fuel : Nat} {α : Type} {x : Exec π α}
variable {start : Nat × List Action}

/-- A packet of the executor, with what is left of its list, has a history, which begins with a
length and a list. -/
def Ready (env : DatapathEnv π) (start : Nat × List Action) (skb : Skb π) (todo : List Action) : Prop :=
  ∃ truncs, CutState.Reached start.1 start.2 ⟨env.len skb.packet, skb.cutlen, todo, truncs⟩

/-- The same for work that can be queued: a recirculation may lead to any list. -/
def ReadyFor (env : DatapathEnv π) (start : Nat × List Action) (skb : Skb π) : Option (List Action) → Prop
  | some actions => Ready env start skb actions
  | none => ∀ actions, Ready env start skb actions

/-- The packet of a call of `do_output` or `output_userspace` has a history that ends there. -/
def Event.HasHistory (env : DatapathEnv π) (start : Nat × List Action) : Event π → Prop
  | .output skb port _ => ∃ rest, Ready env start skb (.output port :: rest)
  | .userspace skb _ attr _ => ∃ rest, Ready env start skb (.userspace attr :: rest)
  | _ => True

/-- Everything sent so far has a history, and so has everything queued. -/
structure Explained (env : DatapathEnv π) (start : Nat × List Action) (s : Cpu π) : Prop where
  tail_le : s.tail ≤ s.head
  trace : ∀ e ∈ s.trace, e.HasHistory env start
  fifo : ∀ i, s.tail ≤ i → i < s.head → ReadyFor env start (s.fifo i).skb (s.fifo i).actions

/-- Neither the FIFO nor what has been sent has changed. -/
structure SendsNothing (s s' : Cpu π) : Prop where
  head : s'.head = s.head
  tail : s'.tail = s.tail
  fifo : s'.fifo = s.fifo
  trace : ∀ e ∈ s'.trace, e ∈ s.trace ∨ ∀ (env : DatapathEnv π) start, e.HasHistory env start

instance : IsPreorder (Cpu π) SendsNothing where
  refl _ := ⟨rfl, rfl, rfl, fun _ he => .inl he⟩
  trans _ _ _ h h' := ⟨h'.head.trans h.head, h'.tail.trans h.tail, h'.fifo.trans h.fifo,
    fun e he => (h'.trace e he).elim (h.trace e) .inr⟩

theorem SendsNothing.explained (h : SendsNothing s s') (hs : Explained env start s) : Explained env start s' := by
  refine ⟨?_, ?_, ?_⟩
  · rw [h.head, h.tail]
    exact hs.tail_le
  · intro e he
    exact (h.trace e he).elim (hs.trace e) fun hall => hall env start
  · rw [h.head, h.tail, h.fifo]
    exact hs.fifo

theorem Keeps.of_sendsNothing (h : Moves SendsNothing x) : Keeps (Explained env start) x (Explained env start) :=
  h.keeps fun _ _ hmoved hs => hmoved.explained hs

/-! ### Steps that send nothing -/

theorem record_sendsNothing {e : Event π} (h : ∀ (env : DatapathEnv π) start, e.HasHistory env start) :
    Moves SendsNothing (record e) := by
  apply Moves.modify
  intro s
  refine ⟨rfl, rfl, rfl, ?_⟩
  intro e' he'
  obtain rfl | he' := List.mem_cons.1 he'
  · exact .inr h
  · exact .inl he'

theorem Moves.of_eq {g : Cpu π → Cpu π} (hhead : ∀ s, (g s).head = s.head)
    (htail : ∀ s, (g s).tail = s.tail) (hfifo : ∀ s, (g s).fifo = s.fifo)
    (htrace : ∀ s, (g s).trace = s.trace) :
    Moves SendsNothing (modify g : Exec π Unit) :=
  Moves.modify fun s => ⟨hhead s, htail s, hfifo s, fun _ he => .inl (htrace s ▸ he)⟩

theorem ask_sendsNothing {β : Type} (answer : Nat → β) :
    Moves SendsNothing (ask answer : Exec π β) :=
  Moves.bind Moves.get fun _ =>
    Moves.bind (Moves.of_eq (fun _ => rfl) (fun _ => rfl) (fun _ => rfl) fun _ => rfl) fun _ =>
      Moves.pure _

theorem readKey_sendsNothing (key : KeyPtr) : Moves SendsNothing (readKey key : Exec π SwFlowKey) :=
  Moves.bind Moves.get fun _ => Moves.pure _

theorem writeKey_sendsNothing (key : KeyPtr) (v : SwFlowKey) :
    Moves SendsNothing (writeKey key v : Exec π Unit) :=
  Moves.of_eq (fun _ => rfl) (fun _ => rfl) (fun _ => rfl) fun _ => rfl

theorem freeWith_sendsNothing (skb : Skb π) (err : Int) : Moves SendsNothing (freeWith skb err) :=
  Moves.bind (record_sendsNothing fun _ _ => trivial) fun _ => Moves.pure _

theorem cloneKey_sendsNothing (key : KeyPtr) :
    Moves SendsNothing (cloneKey key : Exec π (Option KeyPtr)) := by
  refine Moves.bind Moves.get fun s => ?_
  split_ifs
  · exact Moves.throw _
  · exact Moves.bind (writeKey_sendsNothing _ _) fun _ => Moves.pure _
  · exact Moves.pure _

theorem incLevel_sendsNothing : Moves SendsNothing (incLevel : Exec π Nat) :=
  Moves.bind Moves.get fun _ =>
    Moves.bind (Moves.of_eq (fun _ => rfl) (fun _ => rfl) (fun _ => rfl) fun _ => rfl) fun _ =>
      Moves.pure _

theorem decLevel_sendsNothing : Moves SendsNothing (decLevel : Exec π Unit) :=
  Moves.of_eq (fun _ => rfl) (fun _ => rfl) (fun _ => rfl) fun _ => rfl

theorem executeHash_sendsNothing (hash_basis : BitVec 32) (skb : Skb π) (key : KeyPtr) :
    Moves SendsNothing (executeHash env hash_basis skb key) :=
  Moves.bind (readKey_sendsNothing key) fun _ =>
    Moves.bind (record_sendsNothing fun _ _ => trivial) fun _ =>
      Moves.bind (ask_sendsNothing _) fun _ => writeKey_sendsNothing _ _

theorem sampleSkips_sendsNothing (path : List Nat) (probability : BitVec 32) :
    Moves SendsNothing (sampleSkips env path probability) := by
  unfold sampleSkips
  split_ifs
  · exact Moves.pure _
  · exact Moves.pure _
  · exact Moves.bind (ask_sendsNothing _) fun _ => Moves.pure _

theorem setRecircId_sendsNothing (key : KeyPtr) (recirc_id : BitVec 32) :
    Moves SendsNothing (setRecircId key recirc_id : Exec π Unit) :=
  Moves.bind (readKey_sendsNothing key) fun _ => writeKey_sendsNothing _ _

theorem missUpcall_sendsNothing (skb : Skb π) (key : KeyPtr) : Moves SendsNothing (missUpcall skb key) :=
  Moves.bind (readKey_sendsNothing key) fun _ =>
    Moves.bind (record_sendsNothing fun _ _ => trivial) fun _ => record_sendsNothing fun _ _ => trivial

theorem labelPacket_sendsNothing (skb : Skb π) (key : KeyPtr) :
    Moves SendsNothing (labelPacket skb key) := by
  refine Moves.bind Moves.get fun s => ?_
  rcases myLabelSketch s.sketches skb.input_dev (s.keys key) with fault | ⟨_ | dev_id, sketches⟩
  · exact Moves.throw _
  · exact Moves.pure _
  · exact Moves.bind (Moves.of_eq (fun _ => rfl) (fun _ => rfl) (fun _ => rfl) fun _ => rfl) fun _ =>
      record_sendsNothing fun _ _ => trivial

/-! ### Steps with a packet -/

/-- The step keeps what has been sent explained, and its result is good. -/
def Explains (env : DatapathEnv π) (start : Nat × List Action) (x : Exec π α) (good : α → Prop) : Prop :=
  Triple (Explained env start) x (fun a s => good a ∧ Explained env start s) (Explained env start)

theorem Moves.explains (h : Moves SendsNothing x) : Explains env start x fun _ => True :=
  (Keeps.of_sendsNothing h).conseq (fun _ hs => hs) (fun _ _ hs => ⟨trivial, hs⟩) fun _ hs => hs

theorem Explains.keeps {good : α → Prop} (h : Explains env start x good) :
    Keeps (Explained env start) x (Explained env start) :=
  Triple.conseq h (fun _ hs => hs) (fun _ _ hs => hs.2) fun _ hs => hs

theorem Explains.pure {good : α → Prop} {a : α} (h : good a) :
    Explains env start (pure a : Exec π α) good :=
  Triple.pure fun _ hs => ⟨h, hs⟩

theorem Explains.bind {β : Type} {f : α → Exec π β} {good : α → Prop} {good' : β → Prop}
    (hx : Explains env start x good) (hf : ∀ a, good a → Explains env start (f a) good') :
    Explains env start (x >>= f) good' := by
  refine Triple.bind hx fun a => ?_
  intro s hs
  exact hf a hs.1 s hs.2

/-- A step that sends nothing, and what comes after it. -/
theorem Explains.after {β : Type} {f : α → Exec π β} {good : β → Prop} (hx : Moves SendsNothing x)
    (hf : ∀ a, Explains env start (f a) good) : Explains env start (x >>= f) good :=
  Explains.bind (Moves.explains hx) fun a _ => hf a

theorem skbClone_explains (skb : Skb π) :
    Explains env start (skbClone env skb) fun o => ∀ clone ∈ o, clone = { skb with id := clone.id } := by
  refine Explains.after (ask_sendsNothing _) fun ok => ?_
  cases ok with
  | true =>
      refine Explains.after (Moves.bind Moves.get fun _ => Moves.bind (Moves.of_eq (fun _ => rfl)
        (fun _ => rfl) (fun _ => rfl) fun _ => rfl) fun _ => Moves.pure _) fun id => ?_
      refine Explains.after (record_sendsNothing fun _ _ => trivial) fun _ => Explains.pure ?_
      intro clone hclone
      obtain rfl := Option.some.inj hclone
      rfl
  | false =>
      apply Explains.pure
      intro clone hclone
      cases hclone

/-- The same control block. -/
def SameCutlen (skb : Skb π) (r : Int × Skb π) : Prop := r.2.cutlen = skb.cutlen

theorem ovsFlowKeyUpdate_explains (skb : Skb π) (key : KeyPtr) :
    Explains env start (ovsFlowKeyUpdate env skb key) (SameCutlen skb) := by
  refine Explains.after (readKey_sendsNothing key) fun _ =>
    Explains.after (ask_sendsNothing _) fun answer => ?_
  dsimp only
  split_ifs
  · exact Explains.after (writeKey_sendsNothing _ _) fun _ => Explains.pure rfl
  · exact Explains.after (writeKey_sendsNothing _ _) fun _ => Explains.pure rfl

theorem validateKey_explains (action : Action) (last : Bool) (skb : Skb π) (key : KeyPtr) :
    Explains env start (validateKey env action last skb key) (SameCutlen skb) := by
  refine Explains.after (readKey_sendsNothing key) fun _ => ?_
  split_ifs
  · exact Explains.pure rfl
  · refine Explains.bind (ovsFlowKeyUpdate_explains skb key) fun r hr => ?_
    exact Explains.after (record_sendsNothing fun _ _ => trivial) fun _ => Explains.pure hr

theorem editPacket_explains (action : Action) (skb : Skb π) (key : KeyPtr) :
    Explains env start (editPacket env action skb key) (SameCutlen skb) :=
  Explains.after (readKey_sendsNothing key) fun _ => Explains.after (ask_sendsNothing _) fun _ =>
    Explains.after (writeKey_sendsNothing _ _) fun _ =>
      Explains.after (record_sendsNothing fun _ _ => trivial) fun _ => Explains.pure rfl

theorem ovsCtExecute_explains (attr : List (BitVec 8)) (skb : Skb π) (key : KeyPtr) :
    Explains env start (ovsCtExecute env attr skb key) (SameCutlen skb) :=
  Explains.after (readKey_sendsNothing key) fun _ => Explains.after (ask_sendsNothing _) fun _ =>
    Explains.after (writeKey_sendsNothing _ _) fun _ =>
      Explains.after (record_sendsNothing fun _ _ => trivial) fun _ => Explains.pure rfl

/-! ### The packets that go on -/

/-- The answers of a step that succeeds, with a length and the actions of a flow. -/
def StepAnswer.ok (len : Nat) (flow : Option (List Action)) : StepAnswer := ⟨0, len, true, false, flow⟩

theorem Ready.initial (h : skb.cutlen = 0) (actions : List Action) :
    Ready env (env.len skb.packet, actions) skb actions := by
  refine ⟨[], ?_⟩
  rw [h]
  exact .start

theorem mem_itself (p : CutState) (hrest : rest ≠ []) : p.goOn rest ∈ p.itself rest := by
  unfold CutState.itself
  rw [if_neg (by simpa using hrest)]
  exact List.mem_singleton_self _

theorem mem_nested {answer : StepAnswer} (p : CutState) (hclone : answer.clone = true)
    (todo : List Action) : p.goOn todo ∈ p.nested answer rest (some todo) := by
  unfold CutState.nested
  rw [hclone, Bool.or_true, if_pos rfl]
  exact List.mem_singleton_self _

theorem Ready.output {port : Nat} (h : Ready env start skb (.output port :: rest)) (hrest : rest ≠ []) :
    Ready env start { skb with cutlen := 0 } rest := by
  obtain ⟨truncs, h⟩ := h
  exact ⟨[], h.step (.ok 0 none) (mem_itself _ hrest)⟩

theorem Ready.userspace {attr : List (BitVec 8)} (h : Ready env start skb (.userspace attr :: rest)) :
    Ready env start { skb with cutlen := 0 } rest := by
  obtain ⟨truncs, h⟩ := h
  exact ⟨[], h.step (.ok 0 none) (List.mem_singleton_self _)⟩

theorem Ready.hash {hash_basis : BitVec 32} (h : Ready env start skb (.hash hash_basis :: rest)) :
    Ready env start skb rest := by
  obtain ⟨truncs, h⟩ := h
  exact ⟨truncs, h.step (.ok 0 none) (List.mem_singleton_self _)⟩

theorem Ready.edit {a : Action} (h : Ready env start skb (a :: rest)) {r : Int × Skb π}
    (ha : ∀ answer len cutlen truncs, CutState.execute answer ⟨len, cutlen, a :: rest, truncs⟩ =
      if answer.err ≠ 0 then [] else [⟨answer.len, cutlen, rest, truncs⟩])
    (hr : SameCutlen skb r) : Ready env start r.2 rest := by
  obtain ⟨truncs, h⟩ := h
  refine ⟨truncs, h.step (.ok (env.len r.2.packet) none) ?_⟩
  rw [ha, hr]
  exact List.mem_singleton_self _

theorem Ready.recirc {recirc_id : BitVec 32} (h : Ready env start skb (.recirc recirc_id :: rest))
    {r : Int × Skb π} (hr : SameCutlen skb r) (actions : List Action) : Ready env start r.2 actions := by
  obtain ⟨truncs, h⟩ := h
  refine ⟨truncs, h.step (.ok (env.len r.2.packet) (some actions)) ?_⟩
  rw [hr]
  exact List.mem_append_left _ (mem_nested _ rfl _)

theorem Ready.recirc_itself {recirc_id : BitVec 32} (h : Ready env start skb (.recirc recirc_id :: rest))
    {r : Int × Skb π} (hr : SameCutlen skb r) (hrest : rest ≠ []) : Ready env start r.2 rest := by
  obtain ⟨truncs, h⟩ := h
  refine ⟨truncs, h.step (.ok (env.len r.2.packet) none) ?_⟩
  rw [hr]
  exact List.mem_append_right _ (mem_itself _ hrest)

theorem Ready.sample {probability : BitVec 32} {exec : Bool} {actions : List Action}
    (h : Ready env start skb (.sample probability exec actions :: rest)) : Ready env start skb actions := by
  obtain ⟨truncs, h⟩ := h
  exact ⟨truncs, h.step (.ok 0 none) (List.mem_append_left _ (mem_nested _ rfl _))⟩

theorem Ready.sample_itself {probability : BitVec 32} {exec : Bool} {actions : List Action}
    (h : Ready env start skb (.sample probability exec actions :: rest)) (hrest : rest ≠ []) :
    Ready env start skb rest := by
  obtain ⟨truncs, h⟩ := h
  exact ⟨truncs, h.step (.ok 0 none) (List.mem_append_right _ (mem_itself _ hrest))⟩

/-- TRUNC. -/
theorem truncate_explains {max_len : Nat} (h : Ready env start skb (.trunc max_len :: rest)) :
    Explains env start (truncate env skb max_len) fun skb => Ready env start skb rest := by
  obtain ⟨truncs, h⟩ := h
  have hnext := h.step (.ok 0 none) (List.mem_singleton_self _)
  unfold CutState.truncate at hnext
  refine Explains.after (record_sendsNothing fun _ _ => trivial) fun _ => ?_
  split_ifs at hnext ⊢
  · exact Explains.pure ⟨_, hnext⟩
  · exact Explains.pure ⟨_, hnext⟩

/-! ### Sending -/

theorem Explained.send {e : Event π} (hs : Explained env start s) (he : e.HasHistory env start) :
    Explained env start { s with trace := e :: s.trace } := by
  refine ⟨hs.tail_le, ?_, hs.fifo⟩
  intro e' he'
  obtain rfl | he' := List.mem_cons.1 he'
  · exact he
  · exact hs.trace e' he'

theorem doOutput_keeps {port : Nat} (h : Ready env start skb (.output port :: rest)) (key : KeyPtr) :
    Keeps (Explained env start) (doOutput skb port key) (Explained env start) :=
  Triple.bind (Keeps.of_sendsNothing (readKey_sendsNothing key)) fun _ =>
    Triple.modify fun _ hs => hs.send ⟨rest, h⟩

theorem outputUserspace_keeps {arg : List (BitVec 8)} (h : Ready env start skb (.userspace arg :: rest))
    (key : KeyPtr) (attr : List Action) :
    Keeps (Explained env start) (outputUserspace skb key arg attr) (Explained env start) :=
  Triple.bind (Keeps.of_sendsNothing (readKey_sendsNothing key)) fun _ =>
    Triple.modify fun _ hs => hs.send ⟨rest, h⟩

theorem outputClone_keeps {port : Nat} (h : Ready env start skb (.output port :: rest)) (key : KeyPtr) :
    Keeps (Explained env start) (outputClone env skb port key) (Explained env start) := by
  refine Triple.bind (skbClone_explains skb) fun o => ?_
  intro s hs
  cases o with
  | none => exact hs.2
  | some clone =>
      have hclone : Ready env start clone (.output port :: rest) := by
        rw [hs.1 clone rfl]
        exact h
      exact doOutput_keeps hclone key s hs.2

/-! ### The FIFO -/

theorem deferExecute_explained (h : ReadyFor env start skb actions) (key : KeyPtr) (recirc_id : BitVec 32) :
    Keeps (Explained env start) (deferExecute skb key recirc_id actions) (Explained env start) := by
  refine Triple.bind (Q := fun _ => Explained env start) (Triple.get_bind fun s hs => ?_) fun o => ?_
  · split_ifs
    · exact Triple.pure fun _ hs' => hs' ▸ hs
    · refine Triple.bind (Q := fun _ => Explained env start) (Triple.modify ?_) fun _ => ?_
      · rintro s rfl
        refine ⟨hs.tail_le.trans (Nat.le_succ _), hs.trace, ?_⟩
        intro i htail hhead
        dsimp only at hhead ⊢
        rcases eq_or_ne i s.head with rfl | hne
        · rw [Function.update_self]
          exact h
        · rw [Function.update_of_ne hne]
          exact hs.fifo i htail (by omega)
      · exact Triple.bind (Keeps.of_sendsNothing (record_sendsNothing fun _ _ => trivial)) fun _ =>
          Triple.pure fun _ hs => hs
  · cases o with
    | none =>
        exact Triple.bind (Keeps.of_sendsNothing (record_sendsNothing fun _ _ => trivial)) fun _ =>
          Keeps.of_sendsNothing (freeWith_sendsNothing skb 0)
    | some da =>
        dsimp only
        split_ifs
        · exact Triple.bind (Keeps.of_sendsNothing (setRecircId_sendsNothing da recirc_id)) fun _ =>
            Triple.pure fun _ hs => hs
        · exact Triple.pure fun _ hs => hs

theorem actionFifoGet_explains :
    Explains env start (actionFifoGet : Exec π _) fun o =>
      ∀ entry ∈ o, ReadyFor env start entry.1.skb entry.1.actions := by
  refine Triple.get_bind fun s hs => ?_
  split_ifs with hempty htail
  · refine Triple.pure ?_
    rintro s rfl
    refine ⟨?_, hs⟩
    intro entry hentry
    cases hentry
  · have hlt : s.tail < s.head := lt_of_le_of_ne hs.tail_le (Ne.symm hempty)
    refine Triple.bind (Q := fun _ => Explained env start) (Triple.modify ?_) fun _ => ?_
    · rintro s rfl
      refine ⟨hlt, hs.trace, ?_⟩
      intro i hi hhead
      exact hs.fifo i (Nat.le_of_succ_le hi) hhead
    · refine Triple.bind (Keeps.of_sendsNothing (record_sendsNothing fun _ _ => trivial)) fun _ =>
        Triple.pure fun s' hs' => ⟨?_, hs'⟩
      intro entry hentry
      obtain rfl := Option.some.inj hentry
      exact hs.fifo s.tail le_rfl hlt
  · exact Triple.throw fun _ h => h ▸ hs

/-! ### The functions that call each other -/

/-- With a number of calls left, every function keeps what has been sent explained. -/
structure Explaining (env : DatapathEnv π) (start : Nat × List Action) (fuel : Nat) : Prop where
  doExecuteActions : ∀ skb key attr rest, Ready env start skb rest →
    Keeps (Explained env start) (doExecuteActions env fuel skb key attr rest) (Explained env start)
  sample : ∀ skb key probability exec actions last, Ready env start skb actions →
    Keeps (Explained env start) (sample env fuel skb key probability exec actions last) (Explained env start)
  executeRecirc : ∀ skb key recirc_id last,
    (∀ r, SameCutlen skb r → ∀ actions, Ready env start r.2 actions) →
    Explains env start (executeRecirc env fuel skb key recirc_id last) (SameCutlen skb)
  cloneExecute : ∀ skb key recirc_id actions last clone_flow_key, ReadyFor env start skb actions →
    Keeps (Explained env start) (cloneExecute env fuel skb key recirc_id actions last clone_flow_key)
      (Explained env start)
  ovsDpProcessPacket : ∀ skb key, (∀ actions, Ready env start skb actions) →
    Keeps (Explained env start) (ovsDpProcessPacket env fuel skb key) (Explained env start)
  ovsExecuteActions : ∀ skb acts key, Ready env start skb acts →
    Keeps (Explained env start) (ovsExecuteActions env fuel skb acts key) (Explained env start)
  processDeferredActions : Keeps (Explained env start) (processDeferredActions env fuel) (Explained env start)
  deferredLoop : Keeps (Explained env start) (deferredLoop env fuel) (Explained env start)
  runDeferred : ∀ da key, ReadyFor env start da.skb da.actions →
    Keeps (Explained env start) (runDeferred env fuel da key) (Explained env start)

/-- What comes after a step with a result. -/
theorem Explains.thenKeeps {β : Type} {f : α → Exec π β} {good : α → Prop} (hx : Explains env start x good)
    (hf : ∀ a, good a → Keeps (Explained env start) (f a) (Explained env start)) :
    Keeps (Explained env start) (x >>= f) (Explained env start) := by
  refine Triple.bind hx fun a => ?_
  intro s hs
  exact hf a hs.1 s hs.2

section Step

variable (ih : Explaining env start fuel)
include ih

/-- The rest of a list after an action that returns an error, or none. -/
theorem Explaining.afterNested (skb : Skb π) (key : KeyPtr) (attr rest : List Action) (err : Int)
    (hready : rest ≠ [] → Ready env start skb rest) :
    Keeps (Explained env start)
      (if rest.isEmpty then pure err
        else if err ≠ 0 then freeWith skb err
        else Actions.doExecuteActions env fuel skb key attr rest)
      (Explained env start) := by
  split_ifs with hrest
  · exact Triple.pure fun _ h => h
  · exact Keeps.of_sendsNothing (freeWith_sendsNothing skb err)
  · apply ih.doExecuteActions skb key attr rest
    apply hready
    rintro rfl
    exact hrest rfl

/-- An edit, and the rest of the list. -/
theorem Explaining.edit {a : Action} (skb : Skb π) (key : KeyPtr) (attr rest : List Action)
    (hready : Ready env start skb (a :: rest))
    (ha : ∀ answer len cutlen truncs, CutState.execute answer ⟨len, cutlen, a :: rest, truncs⟩ =
      if answer.err ≠ 0 then [] else [⟨answer.len, cutlen, rest, truncs⟩]) :
    Keeps (Explained env start)
      (do
        let (err, skb) ← editPacket env a skb key
        if err ≠ 0 then freeWith skb err
        else Actions.doExecuteActions env fuel skb key attr rest)
      (Explained env start) := by
  refine Explains.thenKeeps (editPacket_explains a skb key) fun r hr => ?_
  dsimp only
  split_ifs
  · exact Keeps.of_sendsNothing (freeWith_sendsNothing _ _)
  · exact ih.doExecuteActions _ key attr rest (hready.edit ha hr)

theorem Explaining.doExecuteActions_succ (skb : Skb π) (key : KeyPtr) (attr rest : List Action)
    (hready : Ready env start skb rest) :
    Keeps (Explained env start) (Actions.doExecuteActions env (fuel + 1) skb key attr rest)
      (Explained env start) := by
  cases rest with
  | nil => exact Keeps.of_sendsNothing (freeWith_sendsNothing skb 0)
  | cons a rest =>
      cases a with
      | output port =>
          rw [Actions.doExecuteActions]
          split_ifs with hrest
          · exact Triple.bind (doOutput_keeps hready key) fun _ => Triple.pure fun _ h => h
          · refine Triple.bind (outputClone_keeps hready key) fun _ =>
              ih.doExecuteActions _ key attr rest (hready.output ?_)
            rintro rfl
            exact hrest rfl
      | trunc max_len =>
          rw [Actions.doExecuteActions]
          exact Explains.thenKeeps (truncate_explains hready) fun skb hskb =>
            ih.doExecuteActions skb key attr rest hskb
      | userspace arg =>
          rw [Actions.doExecuteActions]
          exact Triple.bind (outputUserspace_keeps hready key attr) fun _ =>
            ih.doExecuteActions _ key attr rest hready.userspace
      | hash hash_basis =>
          rw [Actions.doExecuteActions]
          exact Triple.bind (Keeps.of_sendsNothing (executeHash_sendsNothing hash_basis skb key))
            fun _ => ih.doExecuteActions skb key attr rest hready.hash
      | recirc recirc_id =>
          rw [Actions.doExecuteActions]
          -- the packet may be cut in a nested list that runs in place, so the history goes on behind it
          refine Explains.thenKeeps (ih.executeRecirc (skb.nest rest) key recirc_id rest.isEmpty
            fun r hr actions => hready.recirc hr actions) fun r hr => ?_
          exact ih.afterNested { r.2 with path := skb.path } key attr rest r.1
            fun hrest => hready.recirc_itself (r := (r.1, { r.2 with path := skb.path })) hr hrest
      | sample probability exec actions =>
          rw [Actions.doExecuteActions]
          refine Triple.bind (ih.sample (skb.nest rest) key probability exec actions rest.isEmpty
            hready.sample) fun err => ?_
          exact ih.afterNested skb key attr rest err fun hrest => hready.sample_itself hrest
      | ct arg =>
          rw [Actions.doExecuteActions]
          refine Explains.thenKeeps (validateKey_explains _ _ skb key) fun r hr => ?_
          dsimp only
          split_ifs
          · exact Triple.pure fun _ h => h
          · refine Explains.thenKeeps (ovsCtExecute_explains arg r.2 key) fun r' hr' => ?_
            split_ifs
            · exact Triple.pure fun _ h => h
            · exact Triple.pure fun _ h => h
            · exact ih.doExecuteActions _ key attr rest
                (hready.edit (fun _ _ _ _ => rfl) (hr'.trans hr))
      | _ => exact ih.edit skb key attr rest hready fun _ _ _ _ => rfl

theorem Explaining.cloneExecute_succ (skb : Skb π) (key : KeyPtr) (recirc_id : BitVec 32)
    (actions : Option (List Action)) (last clone_flow_key : Bool) (hready : ReadyFor env start skb actions) :
    Keeps (Explained env start)
      (Actions.cloneExecute env (fuel + 1) skb key recirc_id actions last clone_flow_key)
      (Explained env start) := by
  have hskb : Explains env start (if last then pure (some skb) else skbClone env skb)
      fun o => ∀ clone ∈ o, clone = { skb with id := clone.id } := by
    split_ifs
    · apply Explains.pure
      intro clone hclone
      obtain rfl := Option.some.inj hclone
      rfl
    · exact skbClone_explains skb
  have hkey : Moves SendsNothing
      (if clone_flow_key then cloneKey key else pure (some key) : Exec π (Option KeyPtr)) := by
    split_ifs
    · exact cloneKey_sendsNothing key
    · exact Moves.pure _
  rw [Actions.cloneExecute]
  refine Explains.thenKeeps hskb fun o ho => ?_
  cases o with
  | none => exact Triple.pure fun _ h => h
  | some clone =>
      have hclone : ReadyFor env start clone actions := by
        rw [ho clone rfl]
        cases actions with
        | none => exact hready
        | some actions => exact hready
      refine Triple.bind (Keeps.of_sendsNothing hkey) fun o => ?_
      cases o with
      | none => exact deferExecute_explained hclone key recirc_id
      | some key' =>
          cases actions with
          | none =>
              exact Triple.bind (Keeps.of_sendsNothing (setRecircId_sendsNothing key' recirc_id))
                fun _ => Triple.bind (ih.ovsDpProcessPacket clone key' hclone) fun _ =>
                  Triple.pure fun _ h => h
          | some actions =>
              dsimp only
              split_ifs
              · exact Triple.bind (Keeps.of_sendsNothing incLevel_sendsNothing) fun _ =>
                  Triple.bind (ih.doExecuteActions clone key' actions actions hclone) fun _ =>
                    Triple.bind (Keeps.of_sendsNothing decLevel_sendsNothing) fun _ =>
                      Triple.pure fun _ h => h
              · exact ih.doExecuteActions clone key' actions actions hclone

theorem Explaining.executeRecirc_succ (skb : Skb π) (key : KeyPtr) (recirc_id : BitVec 32)
    (last : Bool) (hready : ∀ r, SameCutlen skb r → ∀ actions, Ready env start r.2 actions) :
    Explains env start (Actions.executeRecirc env (fuel + 1) skb key recirc_id last) (SameCutlen skb) := by
  rw [Actions.executeRecirc]
  refine Explains.bind (validateKey_explains _ _ skb key) fun r hr => ?_
  dsimp only
  split_ifs
  · exact Explains.pure hr
  · refine Explains.after (readKey_sendsNothing key) fun flow_key => ?_
    split_ifs
    · refine Explains.after (record_sendsNothing fun _ _ => trivial) fun _ => ?_
      exact Triple.bind (ih.cloneExecute r.2 key recirc_id none last true (hready r hr)) fun _ =>
        Explains.pure hr
    · exact Triple.throw fun _ h => h

theorem Explaining.sample_succ (skb : Skb π) (key : KeyPtr) (probability : BitVec 32) (exec : Bool)
    (actions : List Action) (last : Bool) (hready : Ready env start skb actions) :
    Keeps (Explained env start) (Actions.sample env (fuel + 1) skb key probability exec actions last)
      (Explained env start) := by
  rw [Actions.sample]
  refine Triple.bind (Keeps.of_sendsNothing (sampleSkips_sendsNothing skb.path probability))
    fun skips => ?_
  split_ifs
  · exact Keeps.of_sendsNothing (freeWith_sendsNothing skb 0)
  · exact Triple.pure fun _ h => h
  · exact ih.cloneExecute skb key 0 (some actions) last (!exec) hready

theorem Explaining.ovsDpProcessPacket_succ (skb : Skb π) (key : KeyPtr)
    (hready : ∀ actions, Ready env start skb actions) :
    Keeps (Explained env start) (Actions.ovsDpProcessPacket env (fuel + 1) skb key) (Explained env start) := by
  rw [Actions.ovsDpProcessPacket]
  refine Triple.bind (Keeps.of_sendsNothing (record_sendsNothing fun _ _ => trivial)) fun _ =>
    Triple.bind (Keeps.of_sendsNothing (labelPacket_sendsNothing skb key)) fun _ =>
      Triple.bind (Keeps.of_sendsNothing (readKey_sendsNothing key)) fun flow_key =>
        Triple.bind (Keeps.of_sendsNothing (ask_sendsNothing _)) fun flow => ?_
  cases flow with
  | none => exact Keeps.of_sendsNothing (missUpcall_sendsNothing skb key)
  | some acts =>
      exact Triple.bind (ih.ovsExecuteActions skb acts key (hready acts)) fun _ =>
        Triple.pure fun _ h => h

theorem Explaining.ovsExecuteActions_succ (skb : Skb π) (acts : List Action) (key : KeyPtr)
    (hready : Ready env start skb acts) :
    Keeps (Explained env start) (Actions.ovsExecuteActions env (fuel + 1) skb acts key)
      (Explained env start) := by
  have hdec : ∀ r : Int,
      Keeps (Explained env start) (do decLevel; pure r : Exec π Int) (Explained env start) :=
    fun _ => Triple.bind (Keeps.of_sendsNothing decLevel_sendsNothing) fun _ =>
      Triple.pure fun _ h => h
  rw [Actions.ovsExecuteActions]
  refine Triple.bind (Keeps.of_sendsNothing incLevel_sendsNothing) fun level => ?_
  split_ifs
  · exact Triple.bind (Keeps.of_sendsNothing (record_sendsNothing fun _ _ => trivial)) fun _ =>
      hdec enetdown
  · exact Triple.bind (ih.doExecuteActions skb key acts acts hready) fun err =>
      Triple.bind ih.processDeferredActions fun _ => hdec err
  · exact Triple.bind (ih.doExecuteActions skb key acts acts hready) fun err => hdec err

theorem Explaining.deferredLoop_succ :
    Keeps (Explained env start) (Actions.deferredLoop env (fuel + 1)) (Explained env start) := by
  rw [Actions.deferredLoop]
  refine Explains.thenKeeps actionFifoGet_explains fun o ho => ?_
  cases o with
  | none => exact Triple.throw fun _ h => h
  | some entry =>
      refine Triple.bind (ih.runDeferred entry.1 entry.2 (ho entry rfl)) fun _ =>
        Triple.get_bind fun s hs => ?_
      split_ifs with hempty
      · -- the FIFO is empty, and stays so when it is reset
        refine Triple.modify ?_
        rintro s rfl
        refine ⟨le_rfl, hs.trace, ?_⟩
        intro i _ hlt
        cases hlt
      · exact ih.deferredLoop.conseq (fun _ h => h ▸ hs) (fun _ _ h => h) fun _ h => h

theorem Explaining.succ : Explaining env start (fuel + 1) where
  doExecuteActions := fun skb key attr rest => ih.doExecuteActions_succ skb key attr rest
  sample := ih.sample_succ
  executeRecirc := ih.executeRecirc_succ
  cloneExecute := ih.cloneExecute_succ
  ovsDpProcessPacket := ih.ovsDpProcessPacket_succ
  ovsExecuteActions := ih.ovsExecuteActions_succ
  processDeferredActions := by
    rw [Actions.processDeferredActions]
    refine Triple.get_bind fun s hs => ?_
    split_ifs
    · exact Triple.pure fun _ h => h ▸ hs
    · exact ih.deferredLoop.conseq (fun _ h => h ▸ hs) (fun _ _ h => h) fun _ h => h
  deferredLoop := ih.deferredLoop_succ
  runDeferred := by
    intro da key hready
    rw [Actions.runDeferred]
    cases hactions : da.actions with
    | none =>
        rw [hactions] at hready
        exact ih.ovsDpProcessPacket da.skb key hready
    | some actions =>
        rw [hactions] at hready
        exact Triple.bind (ih.doExecuteActions da.skb key actions actions hready) fun _ =>
          Triple.pure fun _ h => h

end Step

theorem Explaining.zero (env : DatapathEnv π) (start : Nat × List Action) : Explaining env start 0 where
  doExecuteActions _ _ _ _ _ := Triple.throw fun _ h => h
  sample _ _ _ _ _ _ _ := Triple.throw fun _ h => h
  executeRecirc _ _ _ _ _ := Triple.throw fun _ h => h
  cloneExecute _ _ _ _ _ _ _ := Triple.throw fun _ h => h
  ovsDpProcessPacket _ _ _ := Triple.throw fun _ h => h
  ovsExecuteActions _ _ _ _ := Triple.throw fun _ h => h
  processDeferredActions := Triple.throw fun _ h => h
  deferredLoop := Triple.throw fun _ h => h
  runDeferred _ _ _ := Triple.throw fun _ h => h

theorem explaining (env : DatapathEnv π) (start : Nat × List Action) (fuel : Nat) : Explaining env start fuel := by
  induction fuel with
  | zero => exact Explaining.zero env start
  | succ fuel ih => exact ih.succ

/-- Whatever is executed for a packet, each packet that has been sent by then has a history, which
begins with the list for that packet. -/
theorem sent_hasHistory (env : DatapathEnv π) (fuel : Nat) (skb : Skb π) (hcutlen : skb.cutlen = 0)
    (acts : List Action) (key : KeyPtr) (fifo : Nat → DeferredAction π) (keys : KeyPtr → SwFlowKey)
    (sketches : Sketches) :
    ∀ e ∈ ((ovsExecuteActions env fuel skb acts key).exec (Cpu.idle fifo keys sketches)).2.trace,
      e.HasHistory env (env.len skb.packet, acts) := by
  have hidle : Explained env (env.len skb.packet, acts) (Cpu.idle fifo keys sketches) := by
    refine ⟨le_rfl, ?_, ?_⟩
    · intro e he
      cases he
    · intro i _ hlt
      cases hlt
  have hkeeps := (explaining env (env.len skb.packet, acts) fuel).ovsExecuteActions skb acts key
    (.initial hcutlen acts)
  exact (hkeeps.exec hidle).trace

/-! ## Which packets are cut right -/

/-- **When truncation cuts what it should.** Take any packet that the execution of any list comes to, so
that it may be sent next. Its `cutlen` is right if and only if the packet is too long for the last TRUNC
by just what it was too long at the last TRUNC that has noted something. -/
theorem cut_fits_iff {len : Nat} {actions : List Action} {p : CutState}
    (h : CutState.Reached len actions p) : p.Fits ↔ p.Stands :=
  h.noted.fits_of_stands

/-- A packet of 150 bytes that is to be sent with 100 of them. -/
theorem cut_fits_truncOnce :
    CutState.Fits ⟨150, 50, [.output 1], [⟨100, 150⟩]⟩ ↔
      CutState.Stands ⟨150, 50, [.output 1], [⟨100, 150⟩]⟩ := by
  have hfirst := @CutState.Reached.start 150 [.trunc 100, .output 1]
  exact cut_fits_iff (hfirst.step (.ok 0 none) (List.mem_singleton_self _))

/-- A validator without shortage of memory. -/
def plentyEnv : ActionsEnv where
  max_actions_bufsize := 32768
  sfa_alloc := true
  reserve_sfa_size _ _ := 0
  tun_dst := 0
  upstream_tunnel := true
  ct_info _ _ := .error einval

/-- The attributes of two lists: TRUNC to 100 and to 200 bytes; and TRUNC to 14 bytes, POP_VLAN and
POP_ETH. Both end with OUTPUT. -/
def truncTwiceAttr : List (BitVec 8) :=
  [8, 0, 13, 0, 100, 0, 0, 0, 8, 0, 13, 0, 200, 0, 0, 0, 8, 0, 1, 0, 1, 0, 0, 0]

def truncPoppedAttr : List (BitVec 8) :=
  [8, 0, 13, 0, 14, 0, 0, 0, 4, 0, 5, 0, 4, 0, 15, 0, 8, 0, 1, 0, 1, 0, 0, 0]

/-- The masked key of a flow for packets with an Ethernet header. -/
def ethernetKey : SwFlowKey := SwFlowKey.setMacProto (fun _ => 0) macProtoEthernet

/-- Both lists are accepted. A packet of 150 bytes is cut to 100 although the last TRUNC allows 200. And
a packet of 100 bytes with an Ethernet header and two VLAN tags, one of them in its data, has 82 bytes
left when it is sent, fewer than the 86 to cut. -/
theorem cut_not_fits :
    ovsNlaCopyActions plentyEnv truncTwiceAttr ethernetKey = .ok [.trunc 100, .trunc 200, .output 1] ∧
      (∃ p, CutState.Reached 150 [.trunc 100, .trunc 200, .output 1] p ∧ p.Sends ∧ ¬ p.Fits) ∧
      ovsNlaCopyActions plentyEnv truncPoppedAttr ethernetKey =
        .ok [.trunc 14, .popVlan, .popEth, .output 1] ∧
      ∃ p, CutState.Reached 100 [.trunc 14, .popVlan, .popEth, .output 1] p ∧ p.Sends ∧ p.len < p.cutlen := by
  refine ⟨rfl, ⟨⟨150, 50, [.output 1], [⟨200, 150⟩, ⟨100, 150⟩]⟩, ?_, ⟨_, rfl, rfl⟩, ?_⟩, rfl,
    ⟨82, 86, [.output 1], [⟨14, 100⟩]⟩, ?_, ⟨_, rfl, rfl⟩, by decide⟩
  · have hfirst := @CutState.Reached.start 150 [.trunc 100, .trunc 200, .output 1]
    exact (hfirst.step (.ok 0 none) (List.mem_singleton_self _)).step (.ok 0 none)
      (List.mem_singleton_self _)
  · rintro ⟨-, hmin⟩
    obtain ⟨last, hlast, hlen⟩ := hmin (by decide)
    obtain rfl := Option.some.inj hlast
    cases hlen
  · have hfirst := @CutState.Reached.start 100 [.trunc 14, .popVlan, .popEth, .output 1]
    have htrunc := hfirst.step (.ok 0 none) (List.mem_singleton_self _)
    exact (htrunc.step (.ok 96 none) (List.mem_singleton_self _)).step (.ok 82 none)
      (List.mem_singleton_self _)

end OvsDatapath.Actions
