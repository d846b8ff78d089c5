import OvsDatapath.Datapath.FlowCmd
import OvsDatapath.Lib.Runs
import OvsDatapath.Lib.Scan

/-!
# The numbers of vports

`datapath.c`, `vport.c` and `dp_notify.c`: vports are added to datapaths, deleted, and detached when
their device goes away. All of that happens under `ovs_mutex`, with one exception: a request for a
type that nobody has registered drops the mutex while the kernel loads a module, and starts again.

A state holds the datapaths and, for each thread, whether it is inside `request_module` and with
which request and number. A step is what one thread does from taking the mutex to dropping it, so
a run is a list of events in the order in which the mutex was taken.

* Numbers are unique, in range, and found, after every run (`vportStep_inv`).
* A request keeps the number it chose across the restart, and after the restart takes it for one
  the user asked for. If someone else has that number by then, the request fails although others
  are free. `vportRun_iff` says that this is all that can go wrong.
-/

namespace OvsDatapath.Datapath

open OvsDatapath.Lib OvsDatapath.Flow

/-- `DP_MAX_PORTS`. -/
def dpMaxPorts : Nat := 65535

/-- `DP_VPORT_HASH_BUCKETS`. -/
def dpVportHashBuckets : Nat := 1024

/-- `OVSP_LOCAL`. -/
def ovspLocal : Nat := 0

/-- `OVS_VPORT_TYPE_INTERNAL`. -/
def vportTypeInternal : Nat := 2

/-- `EFBIG`, negated as the kernel returns it. -/
def efbig : Int := -27

/-- `EBUSY`. -/
def ebusy : Int := -16

/-- `EAFNOSUPPORT`. -/
def eafnosupport : Int := -97

/-- `struct vport`, with the type of its `ops` and, of its device, the index and whether
`IFF_OVS_DATAPATH` is set. -/
structure Vport where
  port_no : Nat
  type : Nat
  ifindex : Nat
  attached : Bool
  deriving DecidableEq, Repr

/-- `struct datapath`: the buckets of `ports`. -/
structure DpPorts where
  ports : Fin dpVportHashBuckets → List Vport

/-- `vport_hash_bucket`. -/
def vportHashBucket (port_no : Nat) : Fin dpVportHashBuckets :=
  ⟨port_no % dpVportHashBuckets, Nat.mod_lt _ (by decide)⟩

/-- `ovs_lookup_vport`. -/
def ovsLookupVport (dp : DpPorts) (port_no : Nat) : Option Vport :=
  (dp.ports (vportHashBucket port_no)).find? fun vport => vport.port_no == port_no

/-- `hlist_add_head_rcu` on the bucket of the vport's number. -/
def DpPorts.add (dp : DpPorts) (vport : Vport) : DpPorts :=
  let head := vportHashBucket vport.port_no
  ⟨Function.update dp.ports head (vport :: dp.ports head)⟩

/-- `hlist_del_rcu`. -/
def DpPorts.del (dp : DpPorts) (vport : Vport) : DpPorts :=
  let head := vportHashBucket vport.port_no
  ⟨Function.update dp.ports head ((dp.ports head).erase vport)⟩

/-- All vports of a datapath, bucket by bucket. -/
def DpPorts.vports (dp : DpPorts) : List Vport := (List.finRange dpVportHashBuckets).flatMap dp.ports

/-- The attributes of an `OVS_VPORT_CMD_NEW` request that decide about the number. -/
structure VportReq where
  dp_ifindex : Nat
  complete : Bool
  type : Nat
  port_no : Option Nat
  deriving DecidableEq, Repr

/-- What the rest of the kernel does for a request: whether the reply can be allocated, whether the
module of the type can be pinned, and what its `create` returns, the index of a new device or an
error. A `create` that returns `-EAGAIN` is called again in the same state; this is what the last
call returns. -/
structure VportEnv where
  reply : Bool
  module_get : Bool
  create : Except Int Nat
  deriving Repr

/-- The datapaths by address, the datapath of each internal device, the registered types, and the
threads inside `request_module`, with their request and the number it goes on with. -/
structure VportState where
  dps : Nat → Option DpPorts
  devs : Nat → Option Nat
  ops : Nat → Bool
  threads : Nat → Option (VportReq × Nat)

/-- How a step ends. -/
inductive VportAnswer where
  /-- The event does not apply, or has nobody to answer to. -/
  | none
  /-- The mutex was dropped to load a module. -/
  | loading
  /-- The vport exists now. -/
  | created (dp port_no : Nat)
  /-- `-EBUSY`: the number belongs to a vport. -/
  | portInUse
  /-- `-EFBIG`: no number is free. -/
  | noPortLeft
  /-- `-EFBIG`: the number of the request is no port number. -/
  | portTooLarge
  /-- Any other error. -/
  | failed (err : Int)
  /-- The vport was deleted. -/
  | deleted
  deriving DecidableEq, Repr

/-- `get_dp`: through the internal device with that index. -/
def getDp (s : VportState) (dp_ifindex : Nat) : Option (Nat × DpPorts) :=
  (s.devs dp_ifindex).bind fun d => (s.dps d).map fun dp => (d, dp)

/-- The loop of `ovs_vport_cmd_new` that looks for a free number, from `port_no` on. -/
def findPortNo (dp : DpPorts) (port_no : Nat) : Option Nat :=
  if dpMaxPorts ≤ port_no then none
  else
    match ovsLookupVport dp port_no with
    | none => some port_no
    | some _ => findPortNo dp (port_no + 1)
termination_by dpMaxPorts - port_no

/-- The number a request goes on with: the one it has, if that is free, or the first free one. -/
def choosePortNo (dp : DpPorts) (port_no : Nat) : Except VportAnswer Nat :=
  if port_no ≠ 0 then
    match ovsLookupVport dp port_no with
    | some _ => .error .portInUse
    | none => .ok port_no
  else
    match findPortNo dp 1 with
    | none => .error .noPortLeft
    | some port_no => .ok port_no

/-- The state after a new vport was linked into its datapath. -/
def VportState.withVport (s : VportState) (d : Nat) (dp : DpPorts) (vport : Vport) : VportState :=
  { s with
    dps := Function.update s.dps d (some (dp.add vport))
    devs := if vport.type = vportTypeInternal then Function.update s.devs vport.ifindex (some d)
      else s.devs }

/-- `new_vport` and `ovs_vport_add`, for thread `t`. For a type that is not registered the thread
drops the mutex and loads the module, with the number it has chosen. -/
def newVport (s : VportState) (t : Nat) (req : VportReq) (env : VportEnv) (d : Nat) (dp : DpPorts)
    (port_no : Nat) : VportAnswer × VportState :=
  if s.ops req.type then
    if env.module_get then
      match env.create with
      | .error err => (.failed err, s)
      | .ok ifindex =>
          (.created d port_no, s.withVport d dp ⟨port_no, req.type, ifindex, true⟩)
    else (.failed eafnosupport, s)
  else (.loading, { s with threads := Function.update s.threads t (some (req, port_no)) })

/-- `ovs_vport_cmd_new` from the label `restart` on, with the number in the variable `port_no`. -/
def vportCmdNewRestart (s : VportState) (t : Nat) (req : VportReq) (env : VportEnv) (port_no : Nat) :
    VportAnswer × VportState :=
  match getDp s req.dp_ifindex with
  | none => (.failed enodev, s)
  | some (d, dp) =>
      match choosePortNo dp port_no with
      | .error answer => (answer, s)
      | .ok port_no => newVport s t req env d dp port_no

/-- `ovs_vport_cmd_new`, by a thread that does nothing else. -/
def ovsVportCmdNew (s : VportState) (t : Nat) (req : VportReq) (env : VportEnv) :
    VportAnswer × VportState :=
  if (s.threads t).isSome then (.none, s)
  else if !req.complete then (.failed einval, s)
  else
    let port_no := req.port_no.getD 0
    if dpMaxPorts ≤ port_no then (.portTooLarge, s)
    else if !env.reply then (.failed enomem, s)
    else vportCmdNewRestart s t req env port_no

/-- The end of `ovs_vport_add` for a thread that has taken the mutex again after `request_module`:
if the type is registered now it returns `-EAGAIN`, and the request is restarted. -/
def ovsVportCmdNewResume (s : VportState) (t : Nat) (env : VportEnv) : VportAnswer × VportState :=
  match s.threads t with
  | none => (.none, s)
  | some (req, port_no) =>
      let s := { s with threads := Function.update s.threads t none }
      if s.ops req.type then vportCmdNewRestart s t req env port_no
      else (.failed eafnosupport, s)

/-- `ovs_dp_detach_port`. -/
def ovsDpDetachPort (s : VportState) (d : Nat) (dp : DpPorts) (vport : Vport) : VportState :=
  { s with
    dps := Function.update s.dps d (some (dp.del vport))
    devs := if vport.type = vportTypeInternal then Function.update s.devs vport.ifindex none
      else s.devs }

/-- How a request names a vport: by a name, with what `ovs_vport_locate` finds for it, or by its
number in a datapath. -/
inductive VportName where
  | name (found : Option (Nat × Vport))
  | number (dp_ifindex port_no : Nat)
  | missing
  deriving Repr

/-- `lookup_vport`, with the address of the vport's datapath. -/
def lookupVport (s : VportState) : VportName → Except Int (Nat × Vport)
  | .name none => .error enodev
  | .name (some found) => .ok found
  | .number dp_ifindex port_no =>
      if dpMaxPorts ≤ port_no then .error efbig
      else
        match getDp s dp_ifindex with
        | none => .error enodev
        | some (d, dp) =>
            match ovsLookupVport dp port_no with
            | none => .error enodev
            | some vport => .ok (d, vport)
  | .missing => .error einval

/-- `ovs_vport_cmd_del`. -/
def ovsVportCmdDel (s : VportState) (name : VportName) (reply : Bool) : VportAnswer × VportState :=
  if !reply then (.failed enomem, s)
  else
    match lookupVport s name with
    | .error err => (.failed err, s)
    | .ok (d, vport) =>
        if vport.port_no = ovspLocal then (.failed einval, s)
        else
          match s.dps d with
          | none => (.none, s)
          | some dp =>
              if vport ∈ dp.ports (vportHashBucket vport.port_no) then
                (.deleted, ovsDpDetachPort s d dp vport)
              else (.none, s)

/-- `dp_device_event` for `NETDEV_UNREGISTER` of a vport's device: the device is detached at once,
which clears `IFF_OVS_DATAPATH`. -/
def dpDeviceEvent (s : VportState) (d : Nat) (vport : Vport) : VportState :=
  { s with
    dps := Function.update s.dps d ((s.dps d).map fun dp =>
      ⟨fun b => (dp.ports b).map fun p => if p = vport then { p with attached := false } else p⟩) }

/-- `ovs_dp_notify_wq`: the vports whose device is gone are taken out of all datapaths. -/
def ovsDpNotifyWq (s : VportState) : VportState :=
  { s with
    dps := fun d => (s.dps d).map fun dp =>
      ⟨fun b => (dp.ports b).filter fun vport => vport.type == vportTypeInternal || vport.attached⟩ }

/-- `ovs_dp_cmd_new`, as far as it succeeds: a datapath with its local vport. -/
def ovsDpCmdNew (s : VportState) (d ifindex : Nat) : VportState :=
  if (s.dps d).isSome then s
  else s.withVport d ⟨fun _ => []⟩ ⟨ovspLocal, vportTypeInternal, ifindex, true⟩

/-- `__dp_destroy`. -/
def dpDestroy (s : VportState) (d : Nat) : VportState :=
  { s with
    dps := Function.update s.dps d none
    devs := fun ifindex => if s.devs ifindex = some d then none else s.devs ifindex }

/-- What can happen next. -/
inductive VportEvent where
  | cmdNew (t : Nat) (req : VportReq) (env : VportEnv)
  | resume (t : Nat) (env : VportEnv)
  | cmdDel (name : VportName) (reply : Bool)
  | deviceUnregister (d : Nat) (vport : Vport)
  | notifyWq
  | dpCmdNew (d ifindex : Nat)
  | dpDestroy (d : Nat)
  | registerOps (type : Nat)
  | unregisterOps (type : Nat)
  deriving Repr

/-- One step, from taking `ovs_mutex` to dropping it. -/
def vportStep (s : VportState) : VportEvent → Except MemFault (VportAnswer × VportState)
  | .cmdNew t req env => .ok (ovsVportCmdNew s t req env)
  | .resume t env => .ok (ovsVportCmdNewResume s t env)
  | .cmdDel name reply => .ok (ovsVportCmdDel s name reply)
  | .deviceUnregister d vport => .ok (.none, dpDeviceEvent s d vport)
  | .notifyWq => .ok (.none, ovsDpNotifyWq s)
  | .dpCmdNew d ifindex => .ok (.none, ovsDpCmdNew s d ifindex)
  | .dpDestroy d => .ok (.none, dpDestroy s d)
  | .registerOps type => .ok (.none, { s with ops := Function.update s.ops type true })
  | .unregisterOps type => .ok (.none, { s with ops := Function.update s.ops type false })

/-- Nothing exists yet, and nobody is at work. -/
def VportState.init : VportState where
  dps := fun _ => none
  devs := fun _ => none
  ops := fun _ => false
  threads := fun _ => none

/-! ## One datapath -/

/-- Every vport is in the bucket of its number, no bucket has a number twice, and all numbers are
in range. -/
structure DpPorts.Numbered (dp : DpPorts) : Prop where
  placed : ∀ b, ∀ vport ∈ dp.ports b, vportHashBucket vport.port_no = b
  nodup : ∀ b, ((dp.ports b).map Vport.port_no).Nodup
  below : ∀ b, ∀ vport ∈ dp.ports b, vport.port_no < dpMaxPorts

/-- The datapath's own device is there. -/
def DpPorts.HasLocal (dp : DpPorts) : Prop :=
  ∃ vport ∈ dp.ports (vportHashBucket ovspLocal), vport.port_no = ovspLocal ∧
    vport.type = vportTypeInternal

theorem ovsLookupVport_eq_none_iff {dp : DpPorts} {port_no : Nat} :
    ovsLookupVport dp port_no = none ↔
      ∀ vport ∈ dp.ports (vportHashBucket port_no), vport.port_no ≠ port_no := by
  simp [ovsLookupVport]

theorem DpPorts.HasLocal.lookup {dp : DpPorts} (h : dp.HasLocal) :
    ovsLookupVport dp ovspLocal ≠ none := by
  obtain ⟨vport, hmem, hnumber, -⟩ := h
  intro hnone
  exact ovsLookupVport_eq_none_iff.mp hnone vport hmem hnumber

namespace DpPorts.Numbered

variable {dp : DpPorts}

/-- Every vport is found under its number. -/
theorem lookup (h : dp.Numbered) {b : Fin dpVportHashBuckets} {vport : Vport}
    (hmem : vport ∈ dp.ports b) : ovsLookupVport dp vport.port_no = some vport := by
  rw [ovsLookupVport, h.placed b vport hmem]
  exact Scan.find?_key (h.nodup b) hmem

/-- No number occurs twice in the whole datapath. -/
theorem vports_nodup (h : dp.Numbered) : (dp.vports.map Vport.port_no).Nodup := by
  rw [DpPorts.vports, List.map_flatMap]
  rw [List.nodup_flatMap]
  refine ⟨fun b _ => h.nodup b, ?_⟩
  refine (List.nodup_finRange dpVportHashBuckets).imp ?_
  intro b b' hne port_no hb hb'
  obtain ⟨vport, hvport, hnumber⟩ := List.mem_map.mp hb
  obtain ⟨vport', hvport', hnumber'⟩ := List.mem_map.mp hb'
  apply hne
  rw [← h.placed b vport hvport, ← h.placed b' vport' hvport', hnumber, hnumber']

theorem empty : (DpPorts.mk fun _ => []).Numbered := by
  constructor
  · intro b vport hmem
    cases hmem
  · intro b
    exact List.nodup_nil
  · intro b vport hmem
    cases hmem

/-- A vport with a number that is free and in range. -/
theorem add (h : dp.Numbered) {vport : Vport} (hfree : ovsLookupVport dp vport.port_no = none)
    (hbelow : vport.port_no < dpMaxPorts) : (dp.add vport).Numbered := by
  have hports : ∀ b, (dp.add vport).ports b =
      if b = vportHashBucket vport.port_no then vport :: dp.ports b else dp.ports b := by
    intro b
    rw [DpPorts.add]
    dsimp only
    rw [Function.update_apply]
    split
    case isTrue hb => rw [hb]
    case isFalse => rfl
  constructor
  · intro b p hmem
    rw [hports] at hmem
    split at hmem
    case isTrue hb =>
      rcases List.mem_cons.mp hmem with rfl | hmem
      · exact hb.symm
      · exact h.placed b p hmem
    case isFalse => exact h.placed b p hmem
  · intro b
    rw [hports]
    split
    case isTrue hb =>
      rw [List.map_cons, List.nodup_cons]
      refine ⟨fun hmem => ?_, h.nodup b⟩
      obtain ⟨p, hp, hnumber⟩ := List.mem_map.mp hmem
      exact ovsLookupVport_eq_none_iff.mp hfree p (hb ▸ hp) hnumber
    case isFalse => exact h.nodup b
  · intro b p hmem
    rw [hports] at hmem
    split at hmem
    · rcases List.mem_cons.mp hmem with rfl | hmem
      · exact hbelow
      · exact h.below b p hmem
    · exact h.below b p hmem

/-- Taking vports out, from any buckets. -/
theorem of_sublist (h : dp.Numbered) {dp' : DpPorts}
    (hsub : ∀ b, ((dp'.ports b).map Vport.port_no).Sublist ((dp.ports b).map Vport.port_no)) :
    dp'.Numbered := by
  have hold : ∀ b, ∀ p ∈ dp'.ports b, ∃ p' ∈ dp.ports b, p'.port_no = p.port_no := by
    intro b p hmem
    exact List.mem_map.mp ((hsub b).subset (List.mem_map_of_mem hmem))
  constructor
  · intro b p hmem
    obtain ⟨p', hmem', hnumber⟩ := hold b p hmem
    rw [← hnumber]
    exact h.placed b p' hmem'
  · intro b
    exact (hsub b).nodup (h.nodup b)
  · intro b p hmem
    obtain ⟨p', hmem', hnumber⟩ := hold b p hmem
    rw [← hnumber]
    exact h.below b p' hmem'

theorem del (h : dp.Numbered) (vport : Vport) : (dp.del vport).Numbered := by
  apply h.of_sublist
  intro b
  rw [DpPorts.del]
  dsimp only
  rw [Function.update_apply]
  split
  case isTrue hb =>
    rw [hb]
    exact (List.erase_sublist ..).map _
  case isFalse => exact List.Sublist.refl _

end DpPorts.Numbered

theorem DpPorts.HasLocal.add {dp : DpPorts} (h : dp.HasLocal) (vport : Vport) :
    (dp.add vport).HasLocal := by
  obtain ⟨p, hmem, hp⟩ := h
  refine ⟨p, ?_, hp⟩
  rw [DpPorts.add]
  dsimp only
  rw [Function.update_apply]
  split
  case isTrue hb => exact List.mem_cons_of_mem _ (hb ▸ hmem)
  case isFalse => exact hmem

/-- Another vport than the local one is deleted. -/
theorem DpPorts.HasLocal.del {dp : DpPorts} (h : dp.HasLocal) {vport : Vport}
    (hother : vport.port_no ≠ ovspLocal) : (dp.del vport).HasLocal := by
  obtain ⟨p, hmem, hp⟩ := h
  refine ⟨p, ?_, hp⟩
  rw [DpPorts.del]
  dsimp only
  rw [Function.update_apply]
  split
  case isTrue hb =>
    have hne : p ≠ vport := by
      rintro rfl
      exact hother hp.1
    exact (List.mem_erase_of_ne hne).mpr (hb ▸ hmem)
  case isFalse => exact hmem

/-! ## The choice of a number -/

/-- The search finds the first free number, and none only if all are in use. -/
theorem findPortNo_spec (dp : DpPorts) (start : Nat) :
    (∀ port_no, findPortNo dp start = some port_no →
        start ≤ port_no ∧ port_no < dpMaxPorts ∧ ovsLookupVport dp port_no = none) ∧
      (findPortNo dp start = none →
        ∀ n, start ≤ n → n < dpMaxPorts → ovsLookupVport dp n ≠ none) := by
  induction start using findPortNo.induct dp with
  | case1 start hend =>
      rw [findPortNo, if_pos hend]
      refine ⟨nofun, fun _ n hlo hhi => ?_⟩
      omega
  | case2 start hroom hfree =>
      rw [findPortNo, if_neg hroom, hfree]
      refine ⟨fun port_no heq => ?_, nofun⟩
      obtain rfl := Option.some.inj heq
      exact ⟨le_rfl, not_le.mp hroom, hfree⟩
  | case3 start hroom vport hused ih =>
      rw [findPortNo, if_neg hroom, hused]
      refine ⟨fun port_no heq => ?_, fun hnone n hlo hhi => ?_⟩
      · obtain ⟨hlo, hrest⟩ := ih.1 port_no heq
        exact ⟨by omega, hrest⟩
      · rcases Nat.eq_or_lt_of_le hlo with rfl | hlt
        · rw [hused]
          exact Option.some_ne_none _
        · exact ih.2 hnone n hlt hhi

/-- All numbers but the local one are in use. -/
def AllInUse (dp : DpPorts) : Prop :=
  ∀ n, 1 ≤ n → n < dpMaxPorts → ovsLookupVport dp n ≠ none

/-- A chosen number is free, in range and not the local one, and it is the requested one if there is
one. -/
theorem choosePortNo_ok {dp : DpPorts} {port_no chosen : Nat}
    (h : choosePortNo dp port_no = .ok chosen) (hbelow : port_no < dpMaxPorts) :
    ovsLookupVport dp chosen = none ∧ chosen < dpMaxPorts ∧ chosen ≠ 0 ∧
      (port_no ≠ 0 → chosen = port_no) := by
  rw [choosePortNo] at h
  split at h
  case isTrue hnamed =>
    split at h
    case h_1 => cases h
    case h_2 hfree =>
      obtain rfl := Except.ok.inj h
      exact ⟨hfree, hbelow, hnamed, fun _ => rfl⟩
  case isFalse hzero =>
    split at h
    case h_1 => cases h
    case h_2 found hfound =>
      obtain rfl := Except.ok.inj h
      obtain ⟨hlo, hhi, hfree⟩ := (findPortNo_spec dp 1).1 found hfound
      exact ⟨hfree, hhi, by omega, fun hnamed => absurd hnamed hzero⟩

/-- A choice fails because the requested number is taken, or because all are. -/
theorem choosePortNo_error {dp : DpPorts} {port_no : Nat} {answer : VportAnswer}
    (h : choosePortNo dp port_no = .error answer) :
    (answer = .portInUse ∧ port_no ≠ 0 ∧ ovsLookupVport dp port_no ≠ none) ∨
      (answer = .noPortLeft ∧ port_no = 0 ∧ AllInUse dp) := by
  rw [choosePortNo] at h
  split at h
  case isTrue hnamed =>
    split at h
    case h_1 vport hused =>
      obtain rfl := Except.error.inj h
      exact .inl ⟨rfl, hnamed, by rw [hused]; exact Option.some_ne_none _⟩
    case h_2 => cases h
  case isFalse hzero =>
    split at h
    case h_1 hnone =>
      obtain rfl := Except.error.inj h
      exact .inr ⟨rfl, not_not.mp hzero, (findPortNo_spec dp 1).2 hnone⟩
    case h_2 => cases h

/-! ## The invariant -/

/-- A number that a request can go on with after the module is loaded: it is in range, not the local
one, and the one asked for if there is one. -/
structure Carried (req : VportReq) (port_no : Nat) : Prop where
  below : port_no < dpMaxPorts
  ne_zero : port_no ≠ 0
  named : ∀ n, req.port_no = some n → n ≠ 0 → port_no = n

/-- The datapaths are numbered and have their local vport, and the numbers that threads hold are
such. -/
structure VportInv (s : VportState) : Prop where
  numbered : ∀ d dp, s.dps d = some dp → dp.Numbered
  local_ : ∀ d dp, s.dps d = some dp → dp.HasLocal
  carried : ∀ t req port_no, s.threads t = some (req, port_no) → Carried req port_no

theorem vportInv_init : VportInv VportState.init := ⟨nofun, nofun, nofun⟩

theorem getDp_eq_some {s : VportState} {dp_ifindex d : Nat} {dp : DpPorts}
    (h : getDp s dp_ifindex = some (d, dp)) : s.dps d = some dp := by
  rw [getDp, Option.bind_eq_some_iff] at h
  obtain ⟨d', -, hmap⟩ := h
  rw [Option.map_eq_some_iff] at hmap
  obtain ⟨dp', hdp, heq⟩ := hmap
  cases heq
  exact hdp

variable {s : VportState}

/-- The datapaths are replaced. -/
theorem VportInv.update (h : VportInv s) {dps : Nat → Option DpPorts} {devs : Nat → Option Nat}
    {ops : Nat → Bool}
    (hdps : ∀ d dp, dps d = some dp → dp.Numbered ∧ dp.HasLocal) :
    VportInv ⟨dps, devs, ops, s.threads⟩ :=
  ⟨fun d dp hdp => (hdps d dp hdp).1, fun d dp hdp => (hdps d dp hdp).2, h.carried⟩

/-- The thread leaves `request_module`. -/
theorem VportInv.idle (h : VportInv s) (t : Nat) :
    VportInv { s with threads := Function.update s.threads t none } := by
  refine ⟨h.numbered, h.local_, fun t' req port_no hthread => ?_⟩
  dsimp only at hthread
  rw [Function.update_apply] at hthread
  split at hthread
  · cases hthread
  · exact h.carried t' req port_no hthread

theorem VportInv.withVport (h : VportInv s) {d : Nat} {dp : DpPorts} (hdp : s.dps d = some dp)
    {vport : Vport} (hfree : ovsLookupVport dp vport.port_no = none)
    (hbelow : vport.port_no < dpMaxPorts) : VportInv (s.withVport d dp vport) := by
  apply h.update
  intro d' dp' hdp'
  rw [Function.update_apply] at hdp'
  split at hdp'
  · obtain rfl := Option.some.inj hdp'
    exact ⟨(h.numbered d dp hdp).add hfree hbelow, (h.local_ d dp hdp).add vport⟩
  · exact ⟨h.numbered d' dp' hdp', h.local_ d' dp' hdp'⟩

/-! ## What a request does -/

/-- What the part from `restart` on does: it fails for reasons of its own, it fails because of its
number, or it goes on with a free number, to the module or to the new vport. -/
inductive RestartStep (s : VportState) (t : Nat) (req : VportReq) (port_no : Nat) :
    VportAnswer × VportState → Prop
  | failed (err : Int) : RestartStep s t req port_no (.failed err, s)
  | inUse (d : Nat) (dp : DpPorts) (hdp : getDp s req.dp_ifindex = some (d, dp))
      (hnamed : port_no ≠ 0) (hused : ovsLookupVport dp port_no ≠ none) :
      RestartStep s t req port_no (.portInUse, s)
  | noneLeft (d : Nat) (dp : DpPorts) (hdp : getDp s req.dp_ifindex = some (d, dp))
      (hzero : port_no = 0) (hall : AllInUse dp) : RestartStep s t req port_no (.noPortLeft, s)
  | loading (chosen : Nat) (hbelow : chosen < dpMaxPorts) (hne : chosen ≠ 0)
      (hnamed : port_no ≠ 0 → chosen = port_no) :
      RestartStep s t req port_no
        (.loading, { s with threads := Function.update s.threads t (some (req, chosen)) })
  | created (d : Nat) (dp : DpPorts) (hdp : s.dps d = some dp) (chosen ifindex : Nat)
      (hfree : ovsLookupVport dp chosen = none) (hbelow : chosen < dpMaxPorts)
      (hnamed : port_no ≠ 0 → chosen = port_no) :
      RestartStep s t req port_no
        (.created d chosen, s.withVport d dp ⟨chosen, req.type, ifindex, true⟩)

theorem vportCmdNewRestart_step (s : VportState) (t : Nat) (req : VportReq) (env : VportEnv)
    {port_no : Nat} (hbelow : port_no < dpMaxPorts) :
    RestartStep s t req port_no (vportCmdNewRestart s t req env port_no) := by
  rw [vportCmdNewRestart]
  cases hget : getDp s req.dp_ifindex with
  | none => exact .failed enodev
  | some found =>
      obtain ⟨d, dp⟩ := found
      dsimp only
      cases hchoose : choosePortNo dp port_no with
      | error answer =>
          rcases choosePortNo_error hchoose with ⟨rfl, hnamed, hused⟩ | ⟨rfl, hzero, hall⟩
          · exact .inUse d dp hget hnamed hused
          · exact .noneLeft d dp hget hzero hall
      | ok chosen =>
          obtain ⟨hfree, hlt, hne, hnamed⟩ := choosePortNo_ok hchoose hbelow
          dsimp only
          rw [newVport]
          split
          · split
            · split
              · exact .failed _
              · exact .created d dp (getDp_eq_some hget) chosen _ hfree hlt hnamed
            · exact .failed eafnosupport
          · exact .loading chosen hlt hne hnamed

/-- A taken number is refused. -/
theorem vportCmdNewRestart_inUse (t : Nat) {req : VportReq} (env : VportEnv) {port_no d : Nat}
    {dp : DpPorts} (hdp : getDp s req.dp_ifindex = some (d, dp)) (hnamed : port_no ≠ 0)
    (hused : ovsLookupVport dp port_no ≠ none) :
    (vportCmdNewRestart s t req env port_no).1 = .portInUse := by
  obtain ⟨vport, hvport⟩ := Option.ne_none_iff_exists'.mp hused
  have hchoose : choosePortNo dp port_no = .error .portInUse := by
    rw [choosePortNo, if_pos hnamed, hvport]
  rw [vportCmdNewRestart, hdp]
  simp only [hchoose]

/-- It keeps the invariant. -/
theorem RestartStep.inv {t : Nat} {req : VportReq} {port_no : Nat} {r : VportAnswer × VportState}
    (hstep : RestartStep s t req port_no r) (h : VportInv s)
    (hnamed : ∀ n, req.port_no = some n → n ≠ 0 → port_no = n) : VportInv r.2 := by
  cases hstep with
  | failed err => exact h
  | inUse d dp hdp hne hused => exact h
  | noneLeft d dp hdp hzero hall => exact h
  | loading chosen hbelow hne hchosen =>
      refine ⟨h.numbered, h.local_, fun t' req' port_no' hthread => ?_⟩
      dsimp only at hthread
      rw [Function.update_apply] at hthread
      split at hthread
      · cases Option.some.inj hthread
        refine ⟨hbelow, hne, fun n hn hn0 => ?_⟩
        have hport := hnamed n hn hn0
        rw [hchosen (by omega), hport]
      · exact h.carried t' req' port_no' hthread
  | created d dp hdp chosen ifindex hfree hbelow hchosen => exact h.withVport hdp hfree hbelow

/-- What a request is promised: if it names no number, it fails because of its number only where all
are in use, and if it names a free number, the new vport has that number. -/
structure AnswerGood (s : VportState) (req : VportReq) (answer : VportAnswer) : Prop where
  fails : answer = .portInUse ∨ answer = .noPortLeft ∨ answer = .portTooLarge →
    req.port_no = none → ∃ d dp, getDp s req.dp_ifindex = some (d, dp) ∧ AllInUse dp
  named : ∀ d dp port_no n, answer = .created d port_no → req.port_no = some n →
    s.dps d = some dp → ovsLookupVport dp n = none → port_no = n

/-- What other requests than restarted ones are answered, and restarted ones whose number is free. -/
theorem RestartStep.answerGood_iff {t : Nat} {req : VportReq} {port_no : Nat}
    {r : VportAnswer × VportState} (hstep : RestartStep s t req port_no r) (h : VportInv s)
    (hnamed : ∀ n, req.port_no = some n → n ≠ 0 → port_no = n) :
    AnswerGood s req r.1 ↔
      (r.1 = .portInUse → req.port_no = none →
        ∃ d dp, getDp s req.dp_ifindex = some (d, dp) ∧ AllInUse dp) := by
  constructor
  · exact fun hgood hanswer => hgood.fails (.inl hanswer)
  · intro hcond
    cases hstep with
    | failed err => exact ⟨nofun, nofun⟩
    | inUse d dp hdp hne hused => exact ⟨fun _ => hcond rfl, nofun⟩
    | noneLeft d dp hdp hzero hall => exact ⟨fun _ _ => ⟨d, dp, hdp, hall⟩, nofun⟩
    | loading chosen hbelow hne hchosen => exact ⟨nofun, nofun⟩
    | created d dp hdp chosen ifindex hfree hbelow hchosen =>
        refine ⟨nofun, fun d' dp' port_no' n hanswer hn hdp' hfree' => ?_⟩
        cases hanswer
        obtain rfl := Option.some.inj (hdp.symm.trans hdp')
        -- the local number is never free
        have hn0 : n ≠ 0 := by
          rintro rfl
          exact (h.local_ d dp hdp).lookup hfree'
        have hport := hnamed n hn hn0
        rw [hchosen (by omega), hport]

/-! ## Runs -/

/-- No two vports have one number, every vport is found under its number, and all numbers are below
`DP_MAX_PORTS`. -/
structure PortsGood (dp : DpPorts) : Prop where
  unique : (dp.vports.map Vport.port_no).Nodup
  found : ∀ vport ∈ dp.vports, ovsLookupVport dp vport.port_no = some vport
  below : ∀ vport ∈ dp.vports, vport.port_no < dpMaxPorts

theorem DpPorts.Numbered.portsGood {dp : DpPorts} (h : dp.Numbered) : PortsGood dp := by
  refine ⟨h.vports_nodup, fun vport hmem => ?_, fun vport hmem => ?_⟩
  · obtain ⟨b, -, hb⟩ := List.mem_flatMap.mp hmem
    exact h.lookup hb
  · obtain ⟨b, -, hb⟩ := List.mem_flatMap.mp hmem
    exact h.below b vport hb

/-- The request that a step works on. -/
def requestOf (s : VportState) : VportEvent → Option VportReq
  | .cmdNew _ req _ => some req
  | .resume t _ => (s.threads t).map Prod.fst
  | _ => none

/-- After the step the datapaths are numbered well, and the request it worked on was answered well. -/
def VportStepGood (s : VportState) (ev : VportEvent) (answer : VportAnswer) (s' : VportState) : Prop :=
  (∀ d dp, s'.dps d = some dp → PortsGood dp) ∧
    ∀ req, requestOf s ev = some req → AnswerGood s req answer

/-- A request that named no number and is restarted after its module was loaded finds the number it
chose before free in the datapath it looks up now, or finds no free number at all. -/
def CarriedFree (s : VportState) : VportEvent → Prop
  | .resume t _ => ∀ req port_no d dp, s.threads t = some (req, port_no) → req.port_no = none →
      s.ops req.type = true → getDp s req.dp_ifindex = some (d, dp) →
        ovsLookupVport dp port_no = none ∨ AllInUse dp
  | _ => True

/-- A new request. -/
theorem ovsVportCmdNew_good (h : VportInv s) (t : Nat) (req : VportReq) (env : VportEnv) :
    VportInv (ovsVportCmdNew s t req env).2 ∧ AnswerGood s req (ovsVportCmdNew s t req env).1 := by
  rw [ovsVportCmdNew]
  split
  · exact ⟨h, nofun, nofun⟩
  split
  · exact ⟨h, nofun, nofun⟩
  dsimp only
  split
  case isTrue hlarge =>
    refine ⟨h, fun _ hnone => ?_, nofun⟩
    rw [hnone] at hlarge
    exact absurd hlarge (by decide)
  case isFalse hsmall =>
    split
    · exact ⟨h, nofun, nofun⟩
    · have hstep := vportCmdNewRestart_step s t req env (not_le.mp hsmall)
      have hnamed : ∀ n, req.port_no = some n → n ≠ 0 → req.port_no.getD 0 = n := by
        intro n hn _
        rw [hn, Option.getD_some]
      refine ⟨hstep.inv h hnamed, (hstep.answerGood_iff h hnamed).mpr fun hanswer hnone => ?_⟩
      -- without a number nothing can be in use yet
      generalize vportCmdNewRestart s t req env (req.port_no.getD 0) = r at hstep hanswer
      cases hstep with
      | inUse d dp hdp hne hused =>
          rw [hnone] at hne
          exact absurd rfl hne
      | failed err => cases hanswer
      | noneLeft d dp hdp hzero hall => cases hanswer
      | loading chosen hbelow hne hchosen => cases hanswer
      | created d dp hdp chosen ifindex hfree hbelow hchosen => cases hanswer

/-- A request after its module was loaded. -/
theorem ovsVportCmdNewResume_good (h : VportInv s) (t : Nat) (env : VportEnv) :
    VportInv (ovsVportCmdNewResume s t env).2 ∧
      ((∀ req, (s.threads t).map Prod.fst = some req →
          AnswerGood s req (ovsVportCmdNewResume s t env).1) ↔ CarriedFree s (.resume t env)) := by
  cases hthread : s.threads t with
  | none =>
      have hresult : ovsVportCmdNewResume s t env = (.none, s) := by
        rw [ovsVportCmdNewResume, hthread]
      rw [hresult]
      refine ⟨h, iff_of_true nofun fun req port_no d dp hsome => ?_⟩
      rw [hthread] at hsome
      cases hsome
  | some carried =>
      obtain ⟨req, port_no⟩ := carried
      have hcarried := h.carried t req port_no hthread
      have hidle := h.idle t
      -- the condition, for the one request that the thread has
      have hcond : CarriedFree s (.resume t env) ↔
          (req.port_no = none → s.ops req.type = true → ∀ d dp,
            getDp s req.dp_ifindex = some (d, dp) →
              ovsLookupVport dp port_no = none ∨ AllInUse dp) := by
        constructor
        · exact fun hfree hnone hops d dp hdp => hfree req port_no d dp hthread hnone hops hdp
        · intro hfree req' port_no' d dp hsome hnone hops hdp
          cases Option.some.inj (hthread.symm.trans hsome)
          exact hfree hnone hops d dp hdp
      have hreq : ∀ P : VportReq → Prop,
          (∀ req', (some (req, port_no)).map Prod.fst = some req' → P req') ↔ P req :=
        fun P => ⟨fun hall => hall req rfl, fun hp req' heq => Option.some.inj heq ▸ hp⟩
      rw [hcond, hreq]
      rw [ovsVportCmdNewResume, hthread]
      dsimp only
      split
      case isFalse hops =>
        exact ⟨hidle, iff_of_true ⟨nofun, nofun⟩ fun _ hregistered => absurd hregistered hops⟩
      case isTrue hops =>
        have hstep := vportCmdNewRestart_step { s with threads := Function.update s.threads t none } t
          req env hcarried.below
        refine ⟨hstep.inv hidle hcarried.named, ?_⟩
        have hgood := hstep.answerGood_iff hidle hcarried.named
        have hsame : ∀ answer, AnswerGood { s with threads := Function.update s.threads t none } req
            answer ↔ AnswerGood s req answer :=
          fun answer => ⟨fun hg => ⟨hg.fails, hg.named⟩, fun hg => ⟨hg.fails, hg.named⟩⟩
        rw [← hsame, hgood]
        constructor
        · intro hinUse hnone _ d dp hdp
          -- a number that somebody else has got meanwhile is an answer only if all are in use
          by_cases hfree : ovsLookupVport dp port_no = none
          · exact .inl hfree
          · obtain ⟨d', dp', hdp', hall⟩ :=
              hinUse (vportCmdNewRestart_inUse t env hdp hcarried.ne_zero hfree) hnone
            cases Option.some.inj (hdp.symm.trans hdp')
            exact .inr hall
        · intro hfree hanswer hnone
          generalize vportCmdNewRestart { s with threads := Function.update s.threads t none } t req env
            port_no = r at hstep hanswer
          cases hstep with
          | inUse d dp hdp hne hused =>
              rcases hfree hnone hops d dp hdp with hlookup | hall
              · exact absurd hlookup hused
              · exact ⟨d, dp, hdp, hall⟩
          | failed err => cases hanswer
          | noneLeft d dp hdp hzero hall => cases hanswer
          | loading chosen hbelow hne hchosen => cases hanswer
          | created d dp hdp chosen ifindex hlookup hbelow hchosen => cases hanswer

/-- The other steps keep the invariant. -/
theorem ovsVportCmdDel_inv (h : VportInv s) (name : VportName) (reply : Bool) :
    VportInv (ovsVportCmdDel s name reply).2 := by
  rw [ovsVportCmdDel]
  split
  · exact h
  split
  · exact h
  case h_2 d vport _ =>
    split
    case isTrue => exact h
    case isFalse hother =>
      cases hdp : s.dps d with
      | none => exact h
      | some dp =>
          dsimp only
          split
          · apply h.update
            intro d' dp' hdp'
            rw [Function.update_apply] at hdp'
            split at hdp'
            · obtain rfl := Option.some.inj hdp'
              exact ⟨(h.numbered d dp hdp).del vport, (h.local_ d dp hdp).del hother⟩
            · exact ⟨h.numbered d' dp' hdp', h.local_ d' dp' hdp'⟩
          · exact h

theorem dpDeviceEvent_inv (h : VportInv s) (d : Nat) (vport : Vport) :
    VportInv (dpDeviceEvent s d vport) := by
  apply h.update
  intro d' dp' hdp'
  rw [Function.update_apply] at hdp'
  split at hdp'
  · obtain ⟨dp, hdp, rfl⟩ := Option.map_eq_some_iff.mp hdp'
    refine ⟨(h.numbered d dp hdp).of_sublist fun b => ?_, ?_⟩
    · have hnumbers : ∀ p : Vport,
          (if p = vport then { p with attached := false } else p).port_no = p.port_no := by
        intro p
        split <;> rfl
      simp only [List.map_map, Function.comp_def, hnumbers]
      exact List.Sublist.refl _
    · obtain ⟨p, hmem, hnumber, htype⟩ := h.local_ d dp hdp
      refine ⟨_, List.mem_map_of_mem hmem, ?_⟩
      split
      · exact ⟨hnumber, htype⟩
      · exact ⟨hnumber, htype⟩
  · exact ⟨h.numbered d' dp' hdp', h.local_ d' dp' hdp'⟩

theorem ovsDpNotifyWq_inv (h : VportInv s) : VportInv (ovsDpNotifyWq s) := by
  apply h.update
  intro d dp' hdp'
  obtain ⟨dp, hdp, rfl⟩ := Option.map_eq_some_iff.mp hdp'
  refine ⟨(h.numbered d dp hdp).of_sublist fun b => List.filter_sublist.map _, ?_⟩
  obtain ⟨p, hmem, hnumber, htype⟩ := h.local_ d dp hdp
  exact ⟨p, List.mem_filter.mpr ⟨hmem, by simp [htype]⟩, hnumber, htype⟩

theorem ovsDpCmdNew_inv (h : VportInv s) (d ifindex : Nat) : VportInv (ovsDpCmdNew s d ifindex) := by
  rw [ovsDpCmdNew]
  split
  · exact h
  · apply h.update
    intro d' dp' hdp'
    rw [Function.update_apply] at hdp'
    split at hdp'
    · obtain rfl := Option.some.inj hdp'
      refine ⟨DpPorts.Numbered.empty.add rfl (show ovspLocal < dpMaxPorts by decide),
        ⟨ovspLocal, vportTypeInternal, ifindex, true⟩, ?_, rfl, rfl⟩
      rw [DpPorts.add]
      dsimp only
      rw [Function.update_self]
      exact List.mem_cons_self ..
    · exact ⟨h.numbered d' dp' hdp', h.local_ d' dp' hdp'⟩

theorem dpDestroy_inv (h : VportInv s) (d : Nat) : VportInv (dpDestroy s d) := by
  apply h.update
  intro d' dp' hdp'
  rw [Function.update_apply] at hdp'
  split at hdp'
  · cases hdp'
  · exact ⟨h.numbered d' dp' hdp', h.local_ d' dp' hdp'⟩

/-- **Every step** keeps the invariant. -/
theorem vportStep_inv {s' : VportState} {ev : VportEvent} {answer : VportAnswer} (h : VportInv s)
    (hok : vportStep s ev = .ok (answer, s')) : VportInv s' := by
  have hresult : ∀ r : VportAnswer × VportState, VportInv r.2 →
      (.ok r : Except MemFault _) = .ok (answer, s') → VportInv s' := by
    intro r hr heq
    rwa [Except.ok.inj heq] at hr
  cases ev with
  | cmdNew t req env => exact hresult _ (ovsVportCmdNew_good h t req env).1 hok
  | resume t env => exact hresult _ (ovsVportCmdNewResume_good h t env).1 hok
  | cmdDel name reply => exact hresult _ (ovsVportCmdDel_inv h name reply) hok
  | deviceUnregister d vport => exact hresult _ (dpDeviceEvent_inv h d vport) hok
  | notifyWq => exact hresult _ (ovsDpNotifyWq_inv h) hok
  | dpCmdNew d ifindex => exact hresult _ (ovsDpCmdNew_inv h d ifindex) hok
  | dpDestroy d => exact hresult _ (dpDestroy_inv h d) hok
  | registerOps type => exact hresult _ (h.update fun d dp hdp => ⟨h.numbered d dp hdp, h.local_ d dp hdp⟩) hok
  | unregisterOps type =>
      exact hresult _ (h.update fun d dp hdp => ⟨h.numbered d dp hdp, h.local_ d dp hdp⟩) hok

/-- A step is good exactly when it does not restart a request whose number was taken. -/
theorem vportStepGood_iff (h : VportInv s) (ev : VportEvent) :
    (∃ answer s', vportStep s ev = .ok (answer, s') ∧ VportStepGood s ev answer s') ↔
      CarriedFree s ev := by
  have hports : ∀ answer s', vportStep s ev = .ok (answer, s') →
      ∀ d dp, s'.dps d = some dp → PortsGood dp :=
    fun answer s' hok d dp hdp => ((vportStep_inv h hok).numbered d dp hdp).portsGood
  cases ev with
  | cmdNew t req env =>
      refine iff_of_true ⟨_, _, rfl, hports _ _ rfl, fun req' heq => ?_⟩ trivial
      obtain rfl := Option.some.inj heq
      exact (ovsVportCmdNew_good h t req env).2
  | resume t env =>
      rw [← (ovsVportCmdNewResume_good h t env).2]
      constructor
      · rintro ⟨answer, s', hok, -, hgood⟩ req hreq
        have hanswer := congrArg Prod.fst (Except.ok.inj hok)
        exact hanswer ▸ hgood req hreq
      · intro hgood
        exact ⟨_, _, rfl, hports _ _ rfl, hgood⟩
  | cmdDel name reply => exact iff_of_true ⟨_, _, rfl, hports _ _ rfl, nofun⟩ trivial
  | deviceUnregister d vport => exact iff_of_true ⟨_, _, rfl, hports _ _ rfl, nofun⟩ trivial
  | notifyWq => exact iff_of_true ⟨_, _, rfl, hports _ _ rfl, nofun⟩ trivial
  | dpCmdNew d ifindex => exact iff_of_true ⟨_, _, rfl, hports _ _ rfl, nofun⟩ trivial
  | dpDestroy d => exact iff_of_true ⟨_, _, rfl, hports _ _ rfl, nofun⟩ trivial
  | registerOps type => exact iff_of_true ⟨_, _, rfl, hports _ _ rfl, nofun⟩ trivial
  | unregisterOps type => exact iff_of_true ⟨_, _, rfl, hports _ _ rfl, nofun⟩ trivial

/-- **Vport numbers under interleaving.** In every order of steps the ports are numbered well and the
requests are answered well, throughout exactly the runs in which no request without a number is
restarted after somebody else took the number it had chosen. -/
theorem vportRun_iff (events : List VportEvent) :
    RunHolds vportStep VportStepGood VportState.init events ↔
      RunMeets vportStep CarriedFree VportState.init events :=
  runHolds_iff_runMeets (fun _ _ => True) VportInv (fun _ ev h _ => vportStepGood_iff h ev)
    (fun _ _ _ _ h _ hok _ => vportStep_inv h hok) vportInv_init
    (runMeets_const_of_forall (p := fun _ => True) fun _ _ => trivial)

/-- A datapath with its local device only. -/
def localPorts : DpPorts := (DpPorts.mk fun _ => []).add ⟨ovspLocal, vportTypeInternal, 7, true⟩

theorem choosePortNo_localPorts : choosePortNo localPorts 0 = .ok 1 := by
  have hfree : ovsLookupVport localPorts 1 = none := by decide
  have hfind : findPortNo localPorts 1 = some 1 := by
    rw [findPortNo, if_neg (by decide), hfree]
  rw [choosePortNo, if_neg (by decide), hfind]

/-- The part from `restart` on, where a number can be chosen. -/
theorem vportCmdNewRestart_of_choose (t : Nat) {req : VportReq} (env : VportEnv) {port_no d chosen : Nat}
    {dp : DpPorts} (hdp : getDp s req.dp_ifindex = some (d, dp))
    (hchoose : choosePortNo dp port_no = .ok chosen) :
    vportCmdNewRestart s t req env port_no = newVport s t req env d dp chosen := by
  rw [vportCmdNewRestart, hdp]
  simp only [hchoose]

/-- A request for a type whose module has to be loaded, which names no number. -/
def vxlanReq : VportReq := ⟨7, true, 4, none⟩

/-- A request for an internal vport, without a number as well. -/
def internalReq : VportReq := ⟨7, true, vportTypeInternal, none⟩

/-- While the module of the first request is loaded, the second one takes the number that the first
has chosen. -/
def takenWhileLoading : List VportEvent :=
  [.registerOps vportTypeInternal, .dpCmdNew 0 7, .cmdNew 1 vxlanReq ⟨true, true, .ok 10⟩,
    .cmdNew 2 internalReq ⟨true, true, .ok 9⟩, .registerOps 4, .resume 1 ⟨true, true, .ok 10⟩]

/-- The states of that run: after the first two steps, and after each request. -/
def localState : VportState :=
  ovsDpCmdNew { VportState.init with ops := Function.update VportState.init.ops vportTypeInternal true }
    0 7

@[inherit_doc localState]
def loadingState : VportState :=
  { localState with threads := Function.update localState.threads 1 (some (vxlanReq, 1)) }

@[inherit_doc localState]
def takenState : VportState :=
  loadingState.withVport 0 localPorts ⟨1, vportTypeInternal, 9, true⟩

/-- The restarted request fails with `-EBUSY`, and all numbers but 0 and 1 are free. -/
theorem vportRun_takenWhileLoading :
    ¬ RunHolds vportStep VportStepGood VportState.init takenWhileLoading := by
  intro hrun
  have hlocal : RunHolds vportStep VportStepGood localState _ := ((hrun.tail rfl).2.tail rfl).2
  have hloading : vportCmdNewRestart localState 1 vxlanReq ⟨true, true, .ok 10⟩ 0 =
      (.loading, loadingState) :=
    vportCmdNewRestart_of_choose 1 ⟨true, true, .ok 10⟩ (d := 0) rfl choosePortNo_localPorts
  have hcreated : vportCmdNewRestart loadingState 2 internalReq ⟨true, true, .ok 9⟩ 0 =
      (.created 0 1, takenState) :=
    vportCmdNewRestart_of_choose 2 ⟨true, true, .ok 9⟩ (d := 0) rfl choosePortNo_localPorts
  have htaken := ((hlocal.tail (congrArg Except.ok hloading)).2.tail (congrArg Except.ok hcreated)).2
  obtain ⟨⟨-, hgood⟩, -⟩ := (htaken.tail rfl).2.tail rfl
  obtain ⟨d, dp, hdp, hall⟩ := (hgood vxlanReq rfl).fails (.inl rfl) rfl
  cases hdp
  exact hall 2 (by decide) (by decide) rfl

end OvsDatapath.Datapath
