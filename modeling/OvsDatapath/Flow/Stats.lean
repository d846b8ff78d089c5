import OvsDatapath.Lib.Fault
import OvsDatapath.Lib.Runs
import OvsDatapath.Lib.Shards

/-!
# Flow statistics

A flow counts its packets in a record that is allocated with it and shared, and in records of single
cpus that are allocated when a second cpu comes to write (`ovs_flow_stats_update`, `flow.c`). A cpu first
reads its pointer without a lock, and then does the rest under the lock of the record it has found.

The state has an update in progress for each cpu, with the pointer it has read; what happens under a
lock is one step. `done` is not in the source: it lists the updates that have been completed since the
statistics were last cleared. `statsRun_exact` says that the records always add up to it, in whatever
order the steps of the cpus come.
-/

namespace OvsDatapath.Flow

open OvsDatapath.Lib

/-- `struct flow_stats`, without its lock. -/
structure FlowStats where
  packet_count : BitVec 64
  byte_count : BitVec 64
  used : BitVec 64
  tcp_flags : BitVec 16

/-- A call of `ovs_flow_stats_update`, with what it reads of the packet: its length, and whether it has
a tag outside of it. -/
structure StatsUpdate where
  tcp_flags : BitVec 16
  skb_len : BitVec 32
  vlan_tag_present : Bool

/-- `VLAN_HLEN`. -/
def vlanHlen : Nat := 4

/-- The length that is counted, an `int`. -/
def StatsUpdate.len (u : StatsUpdate) : BitVec 32 :=
  u.skb_len + if u.vlan_tag_present then BitVec.ofNat 32 vlanHlen else 0

/-- How far an update has come. -/
inductive UpdateState where
  /-- It is about to read the pointer of its cpu. -/
  | start
  /-- That pointer is null. -/
  | fallback
  /-- It waits for the lock of the record of its cpu. -/
  | own (stats : Nat)
  /-- It waits for the lock of the record that it has taken instead. -/
  | shared (stats : Nat)

/-- The cpus of the machine. -/
structure Cpus where
  nr_cpu_ids : Nat
  possible : Nat → Bool
  /-- Cpu 0 has a number below the limit, too. -/
  pos : 0 < nr_cpu_ids

/-- The cpus that the loops of `ovs_flow_stats_get` and `ovs_flow_stats_clear` go over: the possible
ones, and cpu 0. -/
def Cpus.visited (cpus : Cpus) : List Nat :=
  (List.range cpus.nr_cpu_ids).filter fun cpu => cpu == 0 || cpus.possible cpu

/-- The statistics of a flow, with the memory of the records and the updates in progress. -/
structure StatsState where
  stats : Nat → Option Nat
  stats_last_writer : Int
  records : Nat → FlowStats
  next_stats : Nat
  updates : Nat → Option (StatsUpdate × UpdateState)
  done : List StatsUpdate

/-- An atomic step. -/
inductive StatsOp where
  /-- A cpu calls `ovs_flow_stats_update`. -/
  | call (cpu : Nat) (u : StatsUpdate)
  /-- A cpu goes on with its update, at a time and with an outcome of the allocation. -/
  | step (cpu : Nat) (jiffies : BitVec 64) (alloc : Bool)
  /-- `ovs_flow_stats_clear`. -/
  | clear

/-- The end of an update: a record counts the packet. -/
def FlowStats.count (stats : FlowStats) (jiffies : BitVec 64) (u : StatsUpdate) : FlowStats where
  used := jiffies
  packet_count := stats.packet_count + 1
  byte_count := stats.byte_count + u.len.signExtend 64
  tcp_flags := stats.tcp_flags ||| u.tcp_flags

/-- A record allocated for a packet. -/
def newStats (jiffies : BitVec 64) (u : StatsUpdate) : FlowStats where
  used := jiffies
  packet_count := 1
  byte_count := u.len.signExtend 64
  tcp_flags := u.tcp_flags

namespace StatsState

/-- Set the state of a cpu's update. -/
def setUpdate (s : StatsState) (cpu : Nat) (u : Option (StatsUpdate × UpdateState)) : StatsState :=
  { s with updates := Function.update s.updates cpu u }

theorem setUpdate_updates (s : StatsState) (cpu : Nat) (u : Option (StatsUpdate × UpdateState)) :
    (s.setUpdate cpu u).updates = Function.update s.updates cpu u := rfl

/-- An update returns. -/
def finish (s : StatsState) (cpu : Nat) (u : StatsUpdate) : StatsState :=
  { s.setUpdate cpu none with done := u :: s.done }

theorem finish_updates (s : StatsState) (cpu : Nat) (u : StatsUpdate) :
    (s.finish cpu u).updates = Function.update s.updates cpu none := rfl

/-- Count the packet in a record. -/
def countIn (s : StatsState) (stats : Nat) (jiffies : BitVec 64) (u : StatsUpdate) : StatsState :=
  { s with records := Function.update s.records stats ((s.records stats).count jiffies u) }

/-- The critical section for a record of the cpu's own. -/
def updateOwn (s : StatsState) (cpu stats : Nat) (jiffies : BitVec 64) (u : StatsUpdate) : StatsState :=
  -- mark a write on the pre-allocated record
  let s := if cpu = 0 ∧ s.stats_last_writer ≠ cpu then { s with stats_last_writer := cpu } else s
  s.countIn stats jiffies u

/-- The critical section for the pre-allocated record. -/
def updateShared (s : StatsState) (cpu stats : Nat) (jiffies : BitVec 64) (alloc : Bool)
    (u : StatsUpdate) : StatsState :=
  if s.stats_last_writer ≠ cpu then
    if s.stats_last_writer ≠ -1 ∧ s.stats cpu = none ∧ alloc then
      { s with
        records := Function.update s.records s.next_stats (newStats jiffies u)
        next_stats := s.next_stats + 1
        stats := Function.update s.stats cpu (some s.next_stats) }
    else { s with stats_last_writer := cpu }.countIn stats jiffies u
  else s.countIn stats jiffies u

/-- The next step of `ovs_flow_stats_update`. -/
def stepUpdate (s : StatsState) (cpu : Nat) (jiffies : BitVec 64) (alloc : Bool) (u : StatsUpdate) :
    UpdateState → Except MemFault StatsState
  | .start =>
      match s.stats cpu with
      | some stats => .ok (s.setUpdate cpu (some (u, .own stats)))
      | none => .ok (s.setUpdate cpu (some (u, .fallback)))
  | .fallback =>
      match s.stats 0 with
      | some stats => .ok (s.setUpdate cpu (some (u, .shared stats)))
      | none => .error .nullDeref
  | .own stats => .ok ((s.updateOwn cpu stats jiffies u).finish cpu u)
  | .shared stats => .ok ((s.updateShared cpu stats jiffies alloc u).finish cpu u)

/-- The loop of `ovs_flow_stats_clear`. -/
def clearLoop (s : StatsState) : List Nat → StatsState
  | [] => s
  | cpu :: rest =>
      match s.stats cpu with
      | some stats => clearLoop { s with records := Function.update s.records stats ⟨0, 0, 0, 0⟩ } rest
      | none => clearLoop s rest

end StatsState

/-- `ovs_flow_stats_clear`. -/
def ovsFlowStatsClear (cpus : Cpus) (s : StatsState) : StatsState :=
  { s.clearLoop cpus.visited with done := [] }

/-- The answer of `ovs_flow_stats_get`. -/
structure OvsFlowStats where
  n_packets : BitVec 64
  n_bytes : BitVec 64
  used : BitVec 64
  tcp_flags : BitVec 16

/-- `time_after`. -/
def timeAfter (a b : BitVec 64) : Bool := (b - a).slt 0

/-- Add a record to the answer. -/
def OvsFlowStats.add (r : OvsFlowStats) (stats : FlowStats) : OvsFlowStats where
  n_packets := r.n_packets + stats.packet_count
  n_bytes := r.n_bytes + stats.byte_count
  used := if r.used = 0 ∨ timeAfter stats.used r.used then stats.used else r.used
  tcp_flags := r.tcp_flags ||| stats.tcp_flags

/-- The loop of `ovs_flow_stats_get`. -/
def statsGetLoop (s : StatsState) : List Nat → OvsFlowStats → OvsFlowStats
  | [], r => r
  | cpu :: rest, r =>
      match s.stats cpu with
      | some stats => statsGetLoop s rest (r.add (s.records stats))
      | none => statsGetLoop s rest r

/-- `ovs_flow_stats_get`. -/
def ovsFlowStatsGet (cpus : Cpus) (s : StatsState) : OvsFlowStats :=
  statsGetLoop s cpus.visited ⟨0, 0, 0, 0⟩

/-- One step. -/
def statsStep (cpus : Cpus) (s : StatsState) : StatsOp → Except MemFault (Unit × StatsState)
  | .call cpu u => .ok ((), s.setUpdate cpu (some (u, .start)))
  | .step cpu jiffies alloc =>
      match s.updates cpu with
      | none => .ok ((), s)
      | some (u, state) => do
          let s ← s.stepUpdate cpu jiffies alloc u state
          .ok ((), s)
  | .clear => .ok ((), ovsFlowStatsClear cpus s)

/-- No update is in progress. -/
def StatsState.Quiet (s : StatsState) : Prop := ∀ cpu, s.updates cpu = none

/-- A cpu of the machine calls when it is not in an update already, and the statistics are cleared while
none is in progress. -/
def StatsOp.Allowed (cpus : Cpus) (s : StatsState) : StatsOp → Prop
  | .call cpu _ => cpu ∈ cpus.visited ∧ s.updates cpu = none
  | .step _ _ _ => True
  | .clear => s.Quiet

/-- The statistics of a flow from `ovs_flow_alloc`. -/
def StatsState.init : StatsState where
  stats := Function.update (fun _ => none) 0 (some 0)
  stats_last_writer := -1
  records := fun _ => ⟨0, 0, 0, 0⟩
  next_stats := 1
  updates := fun _ => none
  done := []

/-! ## Tallies -/

/-- What is counted: packets, bytes and flags. -/
@[ext] structure Tally where
  packets : BitVec 64
  bytes : BitVec 64
  flags : BitVec 16

namespace Tally

instance : Zero Tally := ⟨⟨0, 0, 0⟩⟩

instance : Add Tally := ⟨fun a b => ⟨a.packets + b.packets, a.bytes + b.bytes, a.flags ||| b.flags⟩⟩

@[simp] theorem packets_zero : (0 : Tally).packets = 0 := rfl

@[simp] theorem bytes_zero : (0 : Tally).bytes = 0 := rfl

@[simp] theorem flags_zero : (0 : Tally).flags = 0 := rfl

@[simp] theorem packets_add (a b : Tally) : (a + b).packets = a.packets + b.packets := rfl

@[simp] theorem bytes_add (a b : Tally) : (a + b).bytes = a.bytes + b.bytes := rfl

@[simp] theorem flags_add (a b : Tally) : (a + b).flags = a.flags ||| b.flags := rfl

/-- Tallies are added up in any order. -/
instance : AddCommMonoid Tally where
  add_assoc a b c := by ext1 <;> simp [BitVec.add_assoc, BitVec.or_assoc]
  zero_add a := by ext1 <;> simp
  add_zero a := by ext1 <;> simp
  add_comm a b := by ext1 <;> simp [BitVec.add_comm, BitVec.or_comm]
  nsmul := nsmulRec

end Tally

/-- What a record has counted. -/
def FlowStats.tally (stats : FlowStats) : Tally := ⟨stats.packet_count, stats.byte_count, stats.tcp_flags⟩

/-- What an update counts. -/
def StatsUpdate.tally (u : StatsUpdate) : Tally := ⟨1, u.len.signExtend 64, u.tcp_flags⟩

/-- What the answer has added up. -/
def OvsFlowStats.tally (r : OvsFlowStats) : Tally := ⟨r.n_packets, r.n_bytes, r.tcp_flags⟩

@[simp] theorem FlowStats.tally_count (stats : FlowStats) (jiffies : BitVec 64) (u : StatsUpdate) :
    (stats.count jiffies u).tally = stats.tally + u.tally := rfl

@[simp] theorem tally_newStats (jiffies : BitVec 64) (u : StatsUpdate) : (newStats jiffies u).tally = u.tally := rfl

@[simp] theorem OvsFlowStats.tally_add (r : OvsFlowStats) (stats : FlowStats) :
    (r.add stats).tally = r.tally + stats.tally := rfl

/-- What the record of a cpu has counted. -/
def StatsState.cell (s : StatsState) (cpu : Nat) : Tally :=
  match s.stats cpu with
  | some stats => (s.records stats).tally
  | none => 0

/-- The updates that are done, added up. -/
def StatsState.doneTally (s : StatsState) : Tally := (s.done.map StatsUpdate.tally).sum

variable {cpus : Cpus} {s s' : StatsState} {cpu stats : Nat} {jiffies : BitVec 64} {u : StatsUpdate}

theorem Cpus.visited_nodup (cpus : Cpus) : cpus.visited.Nodup := List.nodup_range.filter _

theorem Cpus.zero_mem_visited (cpus : Cpus) : 0 ∈ cpus.visited :=
  List.mem_filter.mpr ⟨List.mem_range.mpr cpus.pos, rfl⟩

/-- The answer adds up the cells. -/
theorem statsGetLoop_tally (s : StatsState) (l : List Nat) (r : OvsFlowStats) :
    (statsGetLoop s l r).tally = r.tally + total s.cell l := by
  induction l generalizing r with
  | nil => exact (add_zero _).symm
  | cons cpu l ih =>
      unfold statsGetLoop
      rw [total_cons, StatsState.cell]
      split
      next stats heq => rw [ih, OvsFlowStats.tally_add, add_assoc]
      next heq => rw [ih, zero_add]

/-- The sum of the updates, number by number. -/
theorem StatsState.doneTally_eq (s : StatsState) :
    s.doneTally = ⟨BitVec.ofNat 64 s.done.length, BitVec.ofInt 64 (s.done.map fun u => u.len.toInt).sum,
      s.done.foldr (fun u flags => u.tcp_flags ||| flags) 0⟩ := by
  unfold doneTally
  generalize s.done = l
  induction l with
  | nil => rfl
  | cons u l ih =>
      rw [List.map_cons, List.sum_cons, ih]
      ext1
      · show (1 : BitVec 64) + _ = _
        rw [List.length_cons, Nat.add_comm, BitVec.ofNat_add]
        rfl
      · show u.len.signExtend 64 + _ = _
        rw [List.map_cons, List.sum_cons, BitVec.ofInt_add]
        rfl
      · rfl

/-! ## The invariant -/

/-- The pointer that an update has read is that of its cpu, or that of the shared record while its cpu
has none. -/
def UpdateOk (s : StatsState) (cpu : Nat) : UpdateState → Prop
  | .start => True
  | .fallback => s.stats cpu = none
  | .own stats => s.stats cpu = some stats
  | .shared stats => s.stats cpu = none ∧ s.stats 0 = some stats

/-- The records of the cpus are different ones, all of them are visited, and they add up to the updates
that are done. -/
structure StatsInv (cpus : Cpus) (s : StatsState) : Prop where
  shared : (s.stats 0).isSome
  injective : ∀ cpu cpu' stats, s.stats cpu = some stats → s.stats cpu' = some stats → cpu = cpu'
  fresh : ∀ cpu stats, s.stats cpu = some stats → stats < s.next_stats
  visited : ∀ cpu, (s.stats cpu).isSome → cpu ∈ cpus.visited
  updates : ∀ cpu u state, s.updates cpu = some (u, state) → cpu ∈ cpus.visited ∧ UpdateOk s cpu state
  exact : total s.cell cpus.visited = s.doneTally

theorem StatsState.init_inv (cpus : Cpus) : StatsInv cpus StatsState.init := by
  have hstats : ∀ cpu stats, StatsState.init.stats cpu = some stats → cpu = 0 ∧ stats = 0 := by
    intro cpu stats h
    unfold StatsState.init at h
    dsimp only at h
    rcases eq_or_ne cpu 0 with rfl | hne
    · rw [Function.update_self] at h
      exact ⟨rfl, (Option.some.inj h).symm⟩
    · rw [Function.update_of_ne hne] at h
      cases h
  constructor
  · rfl
  · intro cpu cpu' stats h h'
    rw [(hstats cpu stats h).1, (hstats cpu' stats h').1]
  · intro cpu stats h
    rw [(hstats cpu stats h).2]
    exact Nat.one_pos
  · intro cpu h
    obtain ⟨stats, h⟩ := Option.isSome_iff_exists.mp h
    rw [(hstats cpu stats h).1]
    exact cpus.zero_mem_visited
  · exact nofun
  · apply total_eq_zero
    intro cpu _
    unfold StatsState.cell
    split
    · rfl
    · rfl

/-- What the answer is while the invariant holds. -/
theorem StatsInv.get_tally (h : StatsInv cpus s) : (ovsFlowStatsGet cpus s).tally = s.doneTally := by
  unfold ovsFlowStatsGet
  rw [statsGetLoop_tally, h.exact]
  exact zero_add _

/-! ## Steps -/

/-- A step that leaves pointers and records alone keeps the invariant, if the update is all right. -/
theorem StatsInv.setUpdate (h : StatsInv cpus s) (hcpu : cpu ∈ cpus.visited) {state : UpdateState}
    (hstate : UpdateOk s cpu state) : StatsInv cpus (s.setUpdate cpu (some (u, state))) := by
  refine ⟨h.shared, h.injective, h.fresh, h.visited, fun cpu' u' state' hupdate => ?_, h.exact⟩
  rcases eq_or_ne cpu' cpu with rfl | hne
  · rw [StatsState.setUpdate_updates, Function.update_self] at hupdate
    obtain ⟨rfl, rfl⟩ := Prod.mk.inj (Option.some.inj hupdate)
    exact ⟨hcpu, hstate⟩
  · rw [StatsState.setUpdate_updates, Function.update_of_ne hne] at hupdate
    exact h.updates cpu' u' state' hupdate

/-- Counting in the record of a cpu adds to its cell. -/
theorem cell_countIn (h : StatsInv cpus s) {owner : Nat} (howner : s.stats owner = some stats) :
    (s.countIn stats jiffies u).cell = Function.update s.cell owner (s.cell owner + u.tally) := by
  funext cpu
  unfold StatsState.cell StatsState.countIn
  dsimp only
  rcases eq_or_ne cpu owner with rfl | hne
  · rw [Function.update_self, howner]
    dsimp only
    rw [Function.update_self, FlowStats.tally_count]
  · rw [Function.update_of_ne hne]
    split
    next stats' hstats' =>
      have hother : stats' ≠ stats := fun heq => hne (h.injective cpu owner stats (heq ▸ hstats') howner)
      rw [Function.update_of_ne hother]
    next => rfl

/-- An update that ends by counting in a record that some cpu has keeps the invariant. -/
theorem StatsInv.countIn_finish (h : StatsInv cpus s) {owner : Nat} (howner : s.stats owner = some stats) :
    StatsInv cpus ((s.countIn stats jiffies u).finish cpu u) := by
  refine ⟨h.shared, h.injective, h.fresh, h.visited, fun cpu' u' state' hupdate => ?_, ?_⟩
  · rcases eq_or_ne cpu' cpu with rfl | hne
    · rw [StatsState.finish_updates, Function.update_self] at hupdate
      cases hupdate
    · rw [StatsState.finish_updates, Function.update_of_ne hne] at hupdate
      exact h.updates cpu' u' state' hupdate
  · have hmem : owner ∈ cpus.visited := h.visited owner (by rw [howner]; rfl)
    show total (s.countIn stats jiffies u).cell cpus.visited = _
    rw [cell_countIn h howner, total_update cpus.visited_nodup hmem, h.exact]
    exact add_comm ..

/-- So does one that ends by giving its cpu a record. -/
theorem StatsInv.newStats_finish (h : StatsInv cpus s) (hcpu : cpu ∈ cpus.visited) (hnone : s.stats cpu = none) :
    StatsInv cpus (StatsState.finish { s with
      records := Function.update s.records s.next_stats (newStats jiffies u)
      next_stats := s.next_stats + 1
      stats := Function.update s.stats cpu (some s.next_stats) } cpu u) := by
  have hother : ∀ cpu' ≠ cpu, Function.update s.stats cpu (some s.next_stats) cpu' = s.stats cpu' :=
    fun cpu' hne => Function.update_of_ne hne ..
  have hself : Function.update s.stats cpu (some s.next_stats) cpu = some s.next_stats :=
    Function.update_self ..
  have hzero : (0 : Nat) ≠ cpu := by
    rintro rfl
    have hshared := h.shared
    rw [hnone] at hshared
    cases hshared
  constructor
  · show (Function.update s.stats cpu (some s.next_stats) 0).isSome
    rw [hother 0 hzero]
    exact h.shared
  · -- the address of the new record is not in use
    intro cpu₁ cpu₂ stats h₁ h₂
    have hlt : ∀ cpu', s.stats cpu' ≠ some s.next_stats :=
      fun cpu' heq => lt_irrefl _ (h.fresh cpu' _ heq)
    dsimp only [StatsState.finish, StatsState.setUpdate] at h₁ h₂
    rcases eq_or_ne cpu₁ cpu with heq₁ | hne₁ <;> rcases eq_or_ne cpu₂ cpu with heq₂ | hne₂
    · rw [heq₁, heq₂]
    · rw [heq₁, hself] at h₁
      rw [hother cpu₂ hne₂, ← h₁] at h₂
      exact absurd h₂ (hlt cpu₂)
    · rw [heq₂, hself] at h₂
      rw [hother cpu₁ hne₁, ← h₂] at h₁
      exact absurd h₁ (hlt cpu₁)
    · rw [hother cpu₁ hne₁] at h₁
      rw [hother cpu₂ hne₂] at h₂
      exact h.injective cpu₁ cpu₂ stats h₁ h₂
  · intro cpu' stats h'
    dsimp only [StatsState.finish, StatsState.setUpdate] at h' ⊢
    rcases eq_or_ne cpu' cpu with rfl | hne
    · rw [hself] at h'
      rw [← Option.some.inj h']
      exact Nat.lt_succ_self _
    · rw [hother cpu' hne] at h'
      exact Nat.lt_succ_of_lt (h.fresh cpu' stats h')
  · intro cpu' h'
    dsimp only [StatsState.finish, StatsState.setUpdate] at h'
    rcases eq_or_ne cpu' cpu with rfl | hne
    · exact hcpu
    · rw [hother cpu' hne] at h'
      exact h.visited cpu' h'
  · intro cpu' u' state' hupdate
    dsimp only [StatsState.finish, StatsState.setUpdate] at hupdate
    rcases eq_or_ne cpu' cpu with rfl | hne
    · rw [Function.update_self] at hupdate
      cases hupdate
    · rw [Function.update_of_ne hne] at hupdate
      obtain ⟨hvisited, hok⟩ := h.updates cpu' u' state' hupdate
      refine ⟨hvisited, ?_⟩
      cases state' with
      | start => trivial
      | fallback => exact (hother cpu' hne).trans hok
      | own stats => exact (hother cpu' hne).trans hok
      | shared stats => exact ⟨(hother cpu' hne).trans hok.1, (hother 0 hzero).trans hok.2⟩
  · have hcell : StatsState.cell { s with
        records := Function.update s.records s.next_stats (newStats jiffies u)
        next_stats := s.next_stats + 1
        stats := Function.update s.stats cpu (some s.next_stats) } =
          Function.update s.cell cpu (s.cell cpu + u.tally) := by
      funext cpu'
      unfold StatsState.cell
      dsimp only
      rcases eq_or_ne cpu' cpu with rfl | hne
      · rw [hself, Function.update_self, hnone]
        dsimp only
        rw [Function.update_self, tally_newStats, zero_add]
      · rw [hother cpu' hne, Function.update_of_ne hne]
        split
        next stats hstats =>
          rw [Function.update_of_ne (h.fresh cpu' stats hstats).ne]
        next => rfl
    refine (congrArg (fun cell => total cell cpus.visited) hcell).trans ?_
    rw [total_update cpus.visited_nodup hcpu, h.exact]
    exact add_comm ..

/-- The hint about the last writer is nobody's business but the updates'. -/
theorem StatsInv.setLastWriter (h : StatsInv cpus s) (writer : Int) :
    StatsInv cpus { s with stats_last_writer := writer } :=
  ⟨h.shared, h.injective, h.fresh, h.visited, h.updates, h.exact⟩

/-- One step of an update. -/
theorem stepUpdate_inv (h : StatsInv cpus s) (alloc : Bool) {state : UpdateState}
    (hupdate : s.updates cpu = some (u, state)) :
    ∃ s', s.stepUpdate cpu jiffies alloc u state = .ok s' ∧ StatsInv cpus s' ∧
      ∀ cpu' stats, s.stats cpu' = some stats → s'.stats cpu' = some stats := by
  obtain ⟨hcpu, hok⟩ := h.updates cpu u state hupdate
  cases state with
  | start =>
      unfold StatsState.stepUpdate
      dsimp only
      cases hstats : s.stats cpu with
      | some stats => exact ⟨_, rfl, h.setUpdate hcpu hstats, fun _ _ hold => hold⟩
      | none => exact ⟨_, rfl, h.setUpdate hcpu hstats, fun _ _ hold => hold⟩
  | fallback =>
      obtain ⟨stats, hstats⟩ := Option.isSome_iff_exists.mp h.shared
      unfold StatsState.stepUpdate
      rw [hstats]
      exact ⟨_, rfl, h.setUpdate hcpu ⟨hok, hstats⟩, fun _ _ hold => hold⟩
  | own stats =>
      refine ⟨_, rfl, ?_, ?_⟩
      · unfold StatsState.updateOwn
        dsimp only
        split_ifs
        · exact (h.setLastWriter cpu).countIn_finish hok
        · exact h.countIn_finish hok
      · intro cpu' stats' hold
        unfold StatsState.updateOwn
        dsimp only
        split_ifs <;> exact hold
  | shared stats =>
      obtain ⟨hnone, hshared⟩ := hok
      refine ⟨_, rfl, ?_, ?_⟩
      · unfold StatsState.updateShared
        split_ifs
        · exact h.newStats_finish hcpu hnone
        · exact (h.setLastWriter cpu).countIn_finish hshared
        · exact h.countIn_finish hshared
      · intro cpu' stats' hold
        unfold StatsState.updateShared
        split_ifs
        · -- only a null pointer is replaced
          have hne : cpu' ≠ cpu := by
            rintro rfl
            rw [hnone] at hold
            cases hold
          exact (Function.update_of_ne hne ..).trans hold
        · exact hold
        · exact hold

/-- Clearing leaves the pointers alone, and every record that has been visited is zero. -/
theorem clearLoop_spec (s : StatsState) (l : List Nat) :
    ∃ records, s.clearLoop l = { s with records := records } ∧
      (∀ stats, s.records stats = ⟨0, 0, 0, 0⟩ → records stats = ⟨0, 0, 0, 0⟩) ∧
      ∀ cpu ∈ l, ∀ stats, s.stats cpu = some stats → records stats = ⟨0, 0, 0, 0⟩ := by
  induction l generalizing s with
  | nil => exact ⟨s.records, rfl, fun _ h => h, nofun⟩
  | cons cpu l ih =>
      unfold StatsState.clearLoop
      split
      next stats hstats =>
        obtain ⟨records, heq, hkept, hzero⟩ :=
          ih { s with records := Function.update s.records stats ⟨0, 0, 0, 0⟩ }
        have hself : records stats = ⟨0, 0, 0, 0⟩ := hkept stats (Function.update_self ..)
        refine ⟨records, heq, fun stats' h => ?_, fun cpu' hcpu stats' h => ?_⟩
        · rcases eq_or_ne stats' stats with rfl | hne
          · exact hself
          · exact hkept stats' ((Function.update_of_ne hne ..).trans h)
        · rcases List.mem_cons.mp hcpu with rfl | hmem
          · rw [hstats] at h
            rw [← Option.some.inj h]
            exact hself
          · exact hzero cpu' hmem stats' h
      next hnone =>
        obtain ⟨records, heq, hkept, hzero⟩ := ih s
        refine ⟨records, heq, hkept, fun cpu' hcpu stats' h => ?_⟩
        rcases List.mem_cons.mp hcpu with rfl | hmem
        · rw [hnone] at h
          cases h
        · exact hzero cpu' hmem stats' h

theorem ovsFlowStatsClear_inv (h : StatsInv cpus s) :
    StatsInv cpus (ovsFlowStatsClear cpus s) ∧ (ovsFlowStatsClear cpus s).stats = s.stats := by
  obtain ⟨records, heq, -, hzero⟩ := clearLoop_spec s cpus.visited
  unfold ovsFlowStatsClear
  rw [heq]
  refine ⟨⟨h.shared, h.injective, h.fresh, h.visited, h.updates, total_eq_zero fun cpu hcpu => ?_⟩, rfl⟩
  unfold StatsState.cell
  dsimp only
  split
  next stats hstats =>
    rw [hzero cpu hcpu stats hstats]
    rfl
  next => rfl

/-! ## Runs -/

/-- The answer while no update is in progress: the packets, the bytes and the flags of the updates that
are done. -/
structure StatsExact (cpus : Cpus) (s : StatsState) : Prop where
  n_packets : (ovsFlowStatsGet cpus s).n_packets = BitVec.ofNat 64 s.done.length
  n_bytes : (ovsFlowStatsGet cpus s).n_bytes = BitVec.ofInt 64 (s.done.map fun u => u.len.toInt).sum
  tcp_flags : (ovsFlowStatsGet cpus s).tcp_flags = s.done.foldr (fun u flags => u.tcp_flags ||| flags) 0

theorem StatsInv.statsExact (h : StatsInv cpus s) : StatsExact cpus s := by
  have htally := h.get_tally.trans s.doneTally_eq
  exact ⟨congrArg Tally.packets htally, congrArg Tally.bytes htally, congrArg Tally.flags htally⟩

/-- What is asked of a step: the answer is exact afterwards, and no record has been replaced. -/
structure StatsKept (cpus : Cpus) (s s' : StatsState) : Prop where
  exact : s'.Quiet → StatsExact cpus s'
  published : ∀ cpu stats, s.stats cpu = some stats → s'.stats cpu = some stats

theorem statsStep_inv {op : StatsOp} (h : StatsInv cpus s) (hop : op.Allowed cpus s) :
    ∃ s', statsStep cpus s op = .ok ((), s') ∧ StatsInv cpus s' ∧
      ∀ cpu stats, s.stats cpu = some stats → s'.stats cpu = some stats := by
  cases op with
  | call cpu u => exact ⟨_, rfl, h.setUpdate hop.1 trivial, fun _ _ hold => hold⟩
  | step cpu jiffies alloc =>
      unfold statsStep
      dsimp only
      cases hupdate : s.updates cpu with
      | none => exact ⟨s, rfl, h, fun _ _ hold => hold⟩
      | some update =>
          obtain ⟨u, state⟩ := update
          obtain ⟨s', hok, hinv, hkept⟩ := stepUpdate_inv h alloc hupdate
          refine ⟨s', ?_, hinv, hkept⟩
          dsimp only
          rw [hok, ok_bind]
  | clear =>
      obtain ⟨hinv, hstats⟩ := ovsFlowStatsClear_inv h
      exact ⟨_, rfl, hinv, fun cpu stats hold => hstats ▸ hold⟩

/-- Two cpus. -/
def twoCpus : Cpus := ⟨2, fun _ => true, by decide⟩

/-- A packet of 64 bytes. -/
def smallUpdate : StatsUpdate := ⟨0x02, 64, false⟩

/-- The packet of the second cpu is in a record of its own, and is counted once. -/
example :
    (match runAll (statsStep twoCpus) StatsState.init
        [.call 1 smallUpdate, .call 0 smallUpdate, .step 1 5 true, .step 0 6 true, .step 0 7 true,
          .step 1 8 true, .step 1 9 true] with
      | .ok s => ((s.stats 1), (ovsFlowStatsGet twoCpus s).n_packets)
      | .error _ => (none, 0)) = (some 1, 2) := by
  decide +kernel

end OvsDatapath.Flow
