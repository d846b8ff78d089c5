import OvsDatapath.Actions.Executor

/-!
# Who holds a packet

A packet in the executor is held by the function that works on it or by the FIFO, until it is
disposed of: sent, freed, or taken over by connection tracking. There is one way out of this without
anything being done to the packet, an error of `ovs_flow_key_update` that is returned as it is
(`Event.loses`).

`Ledger` is the account of this: each packet that the executor got or made has been disposed of, or
lost, or waits in the FIFO, or is held, and that once. `Steady` adds what holds of the FIFO at all
times: the packets queued and taken out are those of its entries, in their order. Its lemmas are one
for each kind of step.
-/

namespace OvsDatapath.Actions

open OvsDatapath.Lib OvsDatapath.Flow OvsDatapath.Sketch

variable {π : Type}

/-! ## Reading the trace -/

/-- The packet that has been read, changed or handed on. -/
def Event.uses : Event π → Option Nat
  | .counted _ _ => none
  | .missed skb _ => some skb.id
  | .recirculated id _ => some id
  | .output skb _ _ => some skb.id
  | .userspace skb _ _ _ => some skb.id
  | .edited id _ => some id
  | .used id => some id
  | .keyUpdated id _ _ _ => some id
  | .tracked id _ => some id
  | .cloned id _ => some id
  | .queued id _ => some id
  | .dequeued id _ => some id
  | .rejected id => some id
  | .freed id => some id

/-- The packet that is gone: `do_output` sends, fragments or frees it, and connection tracking has
taken it over or freed it when it answers with an error. -/
def Event.disposes : Event π → Option Nat
  | .output skb _ _ => some skb.id
  | .tracked id err => if err = 0 then none else some id
  | .freed id => some id
  | _ => none

/-- The packet that nobody holds any more, though nothing has been done to it: CT and a RECIRC that
is the last action return the error of `ovs_flow_key_update` to a caller that leaves the packet to
them. -/
def Event.loses : Event π → Option Nat
  | .keyUpdated id (.ct _) _ err => if err = 0 then none else some id
  | .keyUpdated id (.recirc _) true err => if err = 0 then none else some id
  | _ => none

/-- The copy that has been made. -/
def Event.clones : Event π → Option Nat
  | .cloned _ clone => some clone
  | _ => none

/-- The entry of the FIFO that has been filled, with its packet. -/
def Event.queues : Event π → Option (Nat × Nat)
  | .queued id i => some (i, id)
  | _ => none

/-- The entry of the FIFO that has been taken out to be executed, with its packet. -/
def Event.dequeues : Event π → Option (Nat × Nat)
  | .dequeued id i => some (i, id)
  | _ => none

/-- How often a packet has been disposed of. -/
def disposals (trace : List (Event π)) (id : Nat) : Nat := trace.countP fun e => e.disposes = some id

/-- How often a packet has been lost. -/
def losses (trace : List (Event π)) (id : Nat) : Nat := trace.countP fun e => e.loses = some id

/-- The entries filled, in the order in which they were. -/
def queuedLog (trace : List (Event π)) : List (Nat × Nat) := (trace.filterMap Event.queues).reverse

/-- The entries taken out, in the order in which they were. -/
def dequeuedLog (trace : List (Event π)) : List (Nat × Nat) :=
  (trace.filterMap Event.dequeues).reverse

/-- No packet is used, or disposed of again, after it has been disposed of. -/
def UsedWhileHeld : List (Event π) → Prop
  | [] => True
  | e :: trace => (∀ id, e.uses = some id → disposals trace id = 0) ∧ UsedWhileHeld trace

/-! ## The account -/

/-- The first entries of the FIFO, with their packets. -/
def Cpu.entries (s : Cpu π) (n : Nat) : List (Nat × Nat) :=
  (List.range n).map fun i => (i, (s.fifo i).skb.id)

/-- The packets that wait in the FIFO. -/
def Cpu.waiting (s : Cpu π) : List Nat :=
  (List.range' s.tail (s.head - s.tail)).map fun i => (s.fifo i).skb.id

/-- With the packets `held` in the hands of running functions, each of the packets numbered from
`first` on is accounted for once. -/
structure Ledger (first : Nat) (held : List Nat) (s : Cpu π) : Prop where
  balance : ∀ id, disposals s.trace id + losses s.trace id + s.waiting.count id + held.count id =
    if first ≤ id ∧ id < s.next_skb then 1 else 0
  first_lt : first < s.next_skb
  clones : ∀ id, some id ∈ s.trace.map Event.clones ↔ first < id ∧ id < s.next_skb
  used : UsedWhileHeld s.trace

/-- The packets queued and dequeued are those of the entries, all of which came in with the device
`dev`. -/
structure FifoOk (dev : List (BitVec 8)) (s : Cpu π) : Prop where
  tail_le : s.tail ≤ s.head
  head_lt : s.head < deferredActionFifoSize
  queued : queuedLog s.trace = s.entries s.head
  dequeued : dequeuedLog s.trace = s.entries s.tail
  input_dev : ∀ i, i < s.head → (s.fifo i).skb.input_dev = dev

/-- The same switches have a sketch. -/
def SameSketches (sketches sketches' : Sketches) : Prop :=
  ∀ i, (sketches'.countmax i).isSome = (sketches.countmax i).isSome

/-- What holds at all times of a call with a packet from the device `dev`. -/
structure Steady (start : Sketches) (dev : List (BitVec 8)) (first : Nat) (held : List Nat)
    (s : Cpu π) : Prop where
  ledger : Ledger first held s
  fifo : FifoOk dev s
  sketches : SameSketches start s.sketches

variable {start : Sketches} {dev : List (BitVec 8)} {first id : Nat} {held held' : List Nat}
variable {s s' : Cpu π} {e : Event π}

/-- A packet that is held has not been disposed of. -/
theorem Ledger.not_disposed (h : Ledger first held s) (hid : id ∈ held) :
    disposals s.trace id = 0 := by
  have hbalance := h.balance id
  have hpos : 0 < held.count id := List.count_pos_iff.mpr hid
  split_ifs at hbalance <;> omega

/-- What the account depends on is the same. -/
structure SameAccount (s s' : Cpu π) : Prop where
  head : s'.head = s.head
  tail : s'.tail = s.tail
  fifo : s'.fifo = s.fifo
  sketches : s'.sketches = s.sketches
  next_skb : s'.next_skb = s.next_skb
  trace : s'.trace = s.trace

theorem Steady.congr (h : Steady start dev first held s) (hs : SameAccount s s') :
    Steady start dev first held s' := by
  obtain ⟨⟨hbalance, hfirst, hclones, hused⟩, ⟨htail, hhead, hqueued, hdequeued, hdev⟩, hsketches⟩ := h
  constructor
  · constructor
    · rw [Cpu.waiting, hs.head, hs.tail, hs.fifo, hs.next_skb, hs.trace]
      exact hbalance
    · rwa [hs.next_skb]
    · rwa [hs.next_skb, hs.trace]
    · rwa [hs.trace]
  · constructor
    · rwa [hs.head, hs.tail]
    · rwa [hs.head]
    · rwa [Cpu.entries, hs.head, hs.fifo, hs.trace]
    · rwa [Cpu.entries, hs.tail, hs.fifo, hs.trace]
    · rwa [hs.head, hs.fifo]
  · rwa [hs.sketches]

/-- An update of a sketch. -/
theorem Steady.setSketches (h : Steady start dev first held s) {sketches : Sketches}
    (hsame : SameSketches s.sketches sketches) :
    Steady start dev first held { s with sketches := sketches } := by
  constructor
  · exact ⟨h.ledger.balance, h.ledger.first_lt, h.ledger.clones, h.ledger.used⟩
  · exact ⟨h.fifo.tail_le, h.fifo.head_lt, h.fifo.queued, h.fifo.dequeued, h.fifo.input_dev⟩
  · exact fun i => (hsame i).trans (h.sketches i)

/-! ## Events -/

theorem disposals_cons (e : Event π) (trace : List (Event π)) (id : Nat) :
    disposals (e :: trace) id = disposals trace id + if e.disposes = some id then 1 else 0 := by
  rw [disposals, List.countP_cons, disposals]
  simp only [decide_eq_true_eq]

theorem losses_cons (e : Event π) (trace : List (Event π)) (id : Nat) :
    losses (e :: trace) id = losses trace id + if e.loses = some id then 1 else 0 := by
  rw [losses, List.countP_cons, losses]
  simp only [decide_eq_true_eq]

theorem disposals_cons_none (h : e.disposes = none) (trace : List (Event π)) (id : Nat) :
    disposals (e :: trace) id = disposals trace id := by
  rw [disposals_cons, h, if_neg (fun heq => nomatch heq), Nat.add_zero]

theorem losses_cons_none (h : e.loses = none) (trace : List (Event π)) (id : Nat) :
    losses (e :: trace) id = losses trace id := by
  rw [losses_cons, h, if_neg (fun heq => nomatch heq), Nat.add_zero]

theorem queuedLog_cons_none (h : e.queues = none) (trace : List (Event π)) :
    queuedLog (e :: trace) = queuedLog trace := by
  rw [queuedLog, List.filterMap_cons_none h, queuedLog]

theorem queuedLog_cons_some {entry : Nat × Nat} (h : e.queues = some entry)
    (trace : List (Event π)) : queuedLog (e :: trace) = queuedLog trace ++ [entry] := by
  rw [queuedLog, List.filterMap_cons_some h, List.reverse_cons, queuedLog]

theorem dequeuedLog_cons_none (h : e.dequeues = none) (trace : List (Event π)) :
    dequeuedLog (e :: trace) = dequeuedLog trace := by
  rw [dequeuedLog, List.filterMap_cons_none h, dequeuedLog]

theorem dequeuedLog_cons_some {entry : Nat × Nat} (h : e.dequeues = some entry)
    (trace : List (Event π)) : dequeuedLog (e :: trace) = dequeuedLog trace ++ [entry] := by
  rw [dequeuedLog, List.filterMap_cons_some h, List.reverse_cons, dequeuedLog]

/-- An event that is neither a copy nor a step of the FIFO. -/
def Event.Plain (e : Event π) : Prop := e.clones = none ∧ e.queues = none ∧ e.dequeues = none

/-- A plain event that uses what is held, and after which what it disposes of or loses is not held
any more. -/
theorem Steady.record (h : Steady start dev first held s) (hplain : e.Plain)
    (huses : ∀ id, e.uses = some id → id ∈ held)
    (hheld : ∀ id, held.count id = held'.count id + (if e.disposes = some id then 1 else 0) +
      if e.loses = some id then 1 else 0) :
    Steady start dev first held' { s with trace := e :: s.trace } := by
  obtain ⟨hclones, hqueues, hdequeues⟩ := hplain
  constructor
  · constructor
    · intro id
      rw [← h.ledger.balance id, hheld id]
      show disposals (e :: s.trace) id + losses (e :: s.trace) id + s.waiting.count id +
        held'.count id = _
      rw [disposals_cons, losses_cons]
      omega
    · exact h.ledger.first_lt
    · intro id
      rw [← h.ledger.clones id]
      show some id ∈ (e :: s.trace).map Event.clones ↔ _
      rw [List.map_cons, List.mem_cons, hclones]
      exact or_iff_right fun heq => nomatch heq
    · exact ⟨fun id hid => h.ledger.not_disposed (huses id hid), h.ledger.used⟩
  · constructor
    · exact h.fifo.tail_le
    · exact h.fifo.head_lt
    · exact (queuedLog_cons_none hqueues s.trace).trans h.fifo.queued
    · exact (dequeuedLog_cons_none hdequeues s.trace).trans h.fifo.dequeued
    · exact h.fifo.input_dev
  · exact h.sketches

/-- A packet that is held is used. -/
theorem Steady.use (h : Steady start dev first held s) (hplain : e.Plain)
    (huses : ∀ id, e.uses = some id → id ∈ held) (hdisposes : e.disposes = none)
    (hloses : e.loses = none) : Steady start dev first held { s with trace := e :: s.trace } := by
  apply h.record hplain huses
  intro id
  rw [hdisposes, hloses]
  rfl

/-- A packet that is held is disposed of. -/
theorem Steady.dispose (h : Steady start dev first (id :: held) s) (hplain : e.Plain)
    (huses : e.uses = some id) (hdisposes : e.disposes = some id) (hloses : e.loses = none) :
    Steady start dev first held { s with trace := e :: s.trace } := by
  apply h.record hplain
  · intro id' hid'
    obtain rfl := Option.some.inj (huses.symm.trans hid')
    exact List.mem_cons_self
  · intro id'
    rw [hdisposes, hloses, List.count_cons]
    simp

/-- A packet that is held is lost. -/
theorem Steady.lose (h : Steady start dev first (id :: held) s) (hplain : e.Plain)
    (huses : e.uses = some id) (hdisposes : e.disposes = none) (hloses : e.loses = some id) :
    Steady start dev first held { s with trace := e :: s.trace } := by
  apply h.record hplain
  · intro id' hid'
    obtain rfl := Option.some.inj (huses.symm.trans hid')
    exact List.mem_cons_self
  · intro id'
    rw [hdisposes, hloses, List.count_cons]
    simp

/-! ## Copies -/

/-- A copy of a packet that is held is held, too. -/
theorem Steady.clone (h : Steady start dev first held s) (hid : id ∈ held) :
    Steady start dev first (s.next_skb :: held)
      { s with next_skb := s.next_skb + 1, trace := .cloned id s.next_skb :: s.trace } := by
  have hlt := h.ledger.first_lt
  constructor
  · constructor
    · intro id'
      have hbalance := h.ledger.balance id'
      show disposals (.cloned id s.next_skb :: s.trace) id' +
        losses (.cloned id s.next_skb :: s.trace) id' + s.waiting.count id' +
        (s.next_skb :: held).count id' = if first ≤ id' ∧ id' < s.next_skb + 1 then 1 else 0
      rw [disposals_cons_none rfl, losses_cons_none rfl, List.count_cons]
      simp only [beq_iff_eq]
      split_ifs at hbalance ⊢ <;> omega
    · exact Nat.lt_succ_of_lt hlt
    · intro id'
      have hclones := h.ledger.clones id'
      show some id' ∈ some s.next_skb :: s.trace.map Event.clones ↔
        first < id' ∧ id' < s.next_skb + 1
      rw [List.mem_cons, hclones, Option.some.injEq]
      omega
    · refine ⟨fun id' hid' => ?_, h.ledger.used⟩
      obtain rfl := Option.some.inj hid'
      exact h.ledger.not_disposed hid
  · exact ⟨h.fifo.tail_le, h.fifo.head_lt, h.fifo.queued, h.fifo.dequeued, h.fifo.input_dev⟩
  · exact h.sketches

/-! ## The FIFO -/

/-- A packet that is held is put into the FIFO, which has room for it. -/
theorem Steady.queue {da : DeferredAction π} (h : Steady start dev first (da.skb.id :: held) s)
    (hdev : da.skb.input_dev = dev) (hroom : s.head < deferredActionFifoSize - 1)
    (keys : KeyPtr → SwFlowKey) :
    Steady start dev first held
      { s with
        head := s.head + 1
        fifo := Function.update s.fifo s.head da
        keys := keys
        trace := .queued da.skb.id s.head :: s.trace } := by
  have htail := h.fifo.tail_le
  have hfifo : ∀ i, i < s.head → Function.update s.fifo s.head da i = s.fifo i :=
    fun i hi => Function.update_of_ne (Nat.ne_of_lt hi) ..
  -- the entries below the head are as they were
  have hentries : ∀ n, n ≤ s.head →
      (List.range n).map (fun i => (i, (Function.update s.fifo s.head da i).skb.id)) =
        s.entries n := by
    intro n hn
    apply List.map_congr_left
    intro i hi
    rw [hfifo i ((List.mem_range.mp hi).trans_le hn)]
  have hwaiting : (List.range' s.tail (s.head + 1 - s.tail)).map
      (fun i => (Function.update s.fifo s.head da i).skb.id) = s.waiting ++ [da.skb.id] := by
    rw [Nat.succ_sub htail, List.range'_concat, List.map_append, Cpu.waiting, Nat.one_mul,
      Nat.add_sub_cancel' htail, List.map_singleton, Function.update_self]
    congr 1
    apply List.map_congr_left
    intro i hi
    rw [List.mem_range'_1, Nat.add_sub_cancel' htail] at hi
    rw [hfifo i hi.2]
  constructor
  · constructor
    · -- the packet moves from those held to those waiting
      intro id'
      rw [← h.ledger.balance id']
      show disposals (.queued da.skb.id s.head :: s.trace) id' +
        losses (.queued da.skb.id s.head :: s.trace) id' +
        ((List.range' s.tail (s.head + 1 - s.tail)).map
          fun i => (Function.update s.fifo s.head da i).skb.id).count id' + held.count id' = _
      rw [disposals_cons_none rfl, losses_cons_none rfl, hwaiting, List.count_append,
        List.count_singleton, List.count_cons]
      omega
    · exact h.ledger.first_lt
    · intro id'
      rw [← h.ledger.clones id']
      show some id' ∈ none :: s.trace.map Event.clones ↔ _
      rw [List.mem_cons]
      exact or_iff_right fun heq => nomatch heq
    · refine ⟨fun id' hid' => ?_, h.ledger.used⟩
      obtain rfl := Option.some.inj hid'
      exact h.ledger.not_disposed List.mem_cons_self
  · constructor
    · exact Nat.le_succ_of_le htail
    · exact Nat.add_lt_of_lt_sub hroom
    · show queuedLog (.queued da.skb.id s.head :: s.trace) = (List.range (s.head + 1)).map
        fun i => (i, (Function.update s.fifo s.head da i).skb.id)
      rw [queuedLog_cons_some rfl, h.fifo.queued, List.range_succ, List.map_append,
        hentries s.head le_rfl, List.map_singleton, Function.update_self]
    · exact h.fifo.dequeued.trans (hentries s.tail htail).symm
    · intro i hi
      rcases Nat.lt_succ_iff_lt_or_eq.mp hi with hlt | rfl
      · show (Function.update s.fifo s.head da i).skb.input_dev = dev
        rw [hfifo i hlt]
        exact h.fifo.input_dev i hlt
      · show (Function.update s.fifo s.head da s.head).skb.input_dev = dev
        rw [Function.update_self]
        exact hdev
  · exact h.sketches

/-- The entry at the tail is taken out, and its packet is held. -/
theorem Steady.dequeue (h : Steady start dev first held s) (hne : s.head ≠ s.tail) :
    Steady start dev first ((s.fifo s.tail).skb.id :: held)
      { s with
        tail := s.tail + 1
        trace := .dequeued (s.fifo s.tail).skb.id s.tail :: s.trace } := by
  have hlt : s.tail < s.head := Nat.lt_of_le_of_ne h.fifo.tail_le hne.symm
  -- the packet at the tail is the first of those waiting
  have hwaiting : s.waiting = (s.fifo s.tail).skb.id ::
      (List.range' (s.tail + 1) (s.head - (s.tail + 1))).map fun i => (s.fifo i).skb.id := by
    rw [Cpu.waiting, show s.head - s.tail = s.head - (s.tail + 1) + 1 by omega, List.range'_succ,
      List.map_cons]
  have hmem : (s.fifo s.tail).skb.id ∈ s.waiting := by
    rw [hwaiting]
    exact List.mem_cons_self
  constructor
  · constructor
    · intro id'
      rw [← h.ledger.balance id', hwaiting]
      show disposals (.dequeued (s.fifo s.tail).skb.id s.tail :: s.trace) id' +
        losses (.dequeued (s.fifo s.tail).skb.id s.tail :: s.trace) id' +
        ((List.range' (s.tail + 1) (s.head - (s.tail + 1))).map fun i => (s.fifo i).skb.id).count id' +
        ((s.fifo s.tail).skb.id :: held).count id' = _
      rw [disposals_cons_none rfl, losses_cons_none rfl, List.count_cons, List.count_cons]
      omega
    · exact h.ledger.first_lt
    · intro id'
      rw [← h.ledger.clones id']
      show some id' ∈ none :: s.trace.map Event.clones ↔ _
      rw [List.mem_cons]
      exact or_iff_right fun heq => nomatch heq
    · refine ⟨fun id' hid' => ?_, h.ledger.used⟩
      obtain rfl := Option.some.inj hid'
      have hbalance := h.ledger.balance (s.fifo s.tail).skb.id
      have hpos := List.count_pos_iff.mpr hmem
      split_ifs at hbalance <;> omega
  · constructor
    · exact hlt
    · exact h.fifo.head_lt
    · exact h.fifo.queued
    · show dequeuedLog (.dequeued (s.fifo s.tail).skb.id s.tail :: s.trace) = s.entries (s.tail + 1)
      rw [dequeuedLog_cons_some rfl, h.fifo.dequeued, Cpu.entries, Cpu.entries, List.range_succ,
        List.map_append, List.map_singleton]
    · exact h.fifo.input_dev
  · exact h.sketches

/-! ## The end of a call -/

/-- What is left when the FIFO has been emptied and nobody holds a packet any more. -/
structure Drained (first : Nat) (s : Cpu π) : Prop where
  head : s.head = 0
  tail : s.tail = 0
  queued : ∃ n < deferredActionFifoSize, (queuedLog s.trace).map Prod.fst = List.range n
  dequeued : dequeuedLog s.trace = queuedLog s.trace
  balance : ∀ id, disposals s.trace id + losses s.trace id =
    if first ≤ id ∧ id < s.next_skb then 1 else 0
  first_lt : first < s.next_skb
  clones : ∀ id, some id ∈ s.trace.map Event.clones ↔ first < id ∧ id < s.next_skb
  used : UsedWhileHeld s.trace

theorem Cpu.entries_fst (s : Cpu π) (n : Nat) : (s.entries n).map Prod.fst = List.range n := by
  rw [Cpu.entries, List.map_map]
  exact List.map_id _

theorem FifoOk.queued_fst (h : FifoOk dev s) :
    ∃ n < deferredActionFifoSize, (queuedLog s.trace).map Prod.fst = List.range n :=
  ⟨s.head, h.head_lt, by rw [h.queued, s.entries_fst]⟩

theorem FifoOk.dequeued_prefix (h : FifoOk dev s) :
    dequeuedLog s.trace <+: queuedLog s.trace := by
  rw [h.queued, h.dequeued]
  refine ⟨(List.range' s.tail (s.head - s.tail)).map fun i => (i, (s.fifo i).skb.id), ?_⟩
  have happend : List.range' 0 s.tail ++ List.range' (0 + s.tail) (s.head - s.tail) =
      List.range' 0 (s.tail + (s.head - s.tail)) := List.range'_append_1 ..
  rw [Nat.zero_add, Nat.add_sub_cancel' h.tail_le] at happend
  rw [Cpu.entries, Cpu.entries, ← List.map_append, List.range_eq_range', List.range_eq_range',
    happend]

theorem Steady.drained (h : Steady start dev first [] s) (hempty : s.head = s.tail) :
    Drained first { s with head := 0, tail := 0 } := by
  constructor
  · rfl
  · rfl
  · exact h.fifo.queued_fst
  · show dequeuedLog s.trace = queuedLog s.trace
    rw [h.fifo.queued, h.fifo.dequeued, hempty]
  · intro id
    rw [← h.ledger.balance id, Cpu.waiting, hempty, Nat.sub_self]
    rfl
  · exact h.ledger.first_lt
  · exact h.ledger.clones
  · exact h.ledger.used

end OvsDatapath.Actions
