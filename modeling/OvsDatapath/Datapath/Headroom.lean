import OvsDatapath.Datapath.Vports

/-!
# Headroom

A datapath keeps the maximum of the headrooms that its vports need to forward a packet, `max_headroom`, and
tells it to each device, so that room is reserved for a packet as soon as it arrives. The maximum is not
computed anew each time: a new vport may raise it, and a vport that has had the maximum may lower it when it
is deleted (`datapath.c`).

A vport also goes away when its device does (`dp_notify.c`), and there nobody looks at the headroom. So the
maximum is right throughout exactly those runs in which no such vport has been the only one to need it
(`headroomRun_iff`).
-/

namespace OvsDatapath.Datapath

open OvsDatapath.Lib

/-- The vports, the `max_headroom` of each datapath, and for each vport, by its datapath and number, the
headroom that `netdev_set_rx_headroom` has set last for its device; none after `netdev_reset_rx_headroom`. -/
structure HeadroomState extends VportState where
  max_headroom : Nat → Nat
  rx_headroom : Nat → Nat → Option Nat

/-- `netdev_get_fwd_headroom` of the device of a vport. That of a device by its index is an input. Nobody
sets that of an internal device, which is zero when it is allocated. -/
def fwdHeadroom (fwd : Nat → Nat) (vport : Vport) : Nat :=
  if vport.type = vportTypeInternal then 0 else fwd vport.ifindex

namespace HeadroomState

/-- `netdev_set_rx_headroom` and `netdev_reset_rx_headroom`. -/
def setRxHeadroom (s : HeadroomState) (d : Nat) (new_hr : Option Nat) (vport : Vport) : HeadroomState :=
  { s with
    rx_headroom := Function.update s.rx_headroom d (Function.update (s.rx_headroom d) vport.port_no new_hr) }

/-- `update_headroom`. -/
def updateHeadroom (fwd : Nat → Nat) (s : HeadroomState) (d : Nat) (dp : DpPorts) : HeadroomState :=
  let max_headroom := dp.vports.foldl
    (fun max_headroom vport =>
      let dev_headroom := fwdHeadroom fwd vport
      if max_headroom < dev_headroom then dev_headroom else max_headroom) 0
  dp.vports.foldl (fun s vport => s.setRxHeadroom d (some max_headroom) vport)
    { s with max_headroom := Function.update s.max_headroom d max_headroom }

/-- The part of `ovs_vport_cmd_new` behind the new vport. -/
def afterCmdNew (fwd : Nat → Nat) (s : HeadroomState) (d : Nat) (dp : DpPorts) (vport : Vport) : HeadroomState :=
  if s.max_headroom d < fwdHeadroom fwd vport then s.updateHeadroom fwd d dp
  else s.setRxHeadroom d (some (s.max_headroom d)) vport

/-- The part of `ovs_vport_cmd_del` around `ovs_dp_detach_port`, which leaves the vports `dp`. -/
def afterCmdDel (fwd : Nat → Nat) (s : HeadroomState) (d : Nat) (dp : DpPorts) (vport : Vport) : HeadroomState :=
  let must_update_headroom := fwdHeadroom fwd vport == s.max_headroom d
  let s := s.setRxHeadroom d none vport
  if must_update_headroom then s.updateHeadroom fwd d dp else s

/-- `ovs_dp_cmd_new`: the datapath is zeroed. -/
def afterDpCmdNew (s : HeadroomState) (d : Nat) : HeadroomState :=
  { s with
    max_headroom := Function.update s.max_headroom d 0
    rx_headroom := Function.update s.rx_headroom d fun _ => none }

end HeadroomState

/-- The end of `ovs_vport_cmd_new`, from the state before and the vports after. -/
def afterRequest (fwd : Nat → Nat) (s : HeadroomState) (v : VportState) : VportAnswer → HeadroomState
  | .created d port_no =>
      match v.dps d with
      | none => { s with toVportState := v }
      | some dp =>
          match ovsLookupVport dp port_no with
          | none => { s with toVportState := v }
          | some vport => { s with toVportState := v }.afterCmdNew fwd d dp vport
  | _ => { s with toVportState := v }

/-- The end of `ovs_vport_cmd_del`. -/
def afterDelete (fwd : Nat → Nat) (s : HeadroomState) (v : VportState) (name : VportName) :
    VportAnswer → HeadroomState
  | .deleted =>
      match lookupVport s.toVportState name with
      | .error _ => { s with toVportState := v }
      | .ok (d, vport) =>
          match v.dps d with
          | none => { s with toVportState := v }
          | some dp => { s with toVportState := v }.afterCmdDel fwd d dp vport
  | _ => { s with toVportState := v }

/-- What a step does to the headrooms. -/
def headroomAfter (fwd : Nat → Nat) (s : HeadroomState) (v : VportState) (answer : VportAnswer) :
    VportEvent → HeadroomState
  | .cmdNew .. | .resume .. => afterRequest fwd s v answer
  | .cmdDel name _ => afterDelete fwd s v name answer
  | .dpCmdNew d _ =>
      if (s.dps d).isSome then { s with toVportState := v } else { s with toVportState := v }.afterDpCmdNew d
  | _ => { s with toVportState := v }

/-- One step. -/
def headroomStep (fwd : Nat → Nat) (s : HeadroomState) (ev : VportEvent) :
    Except MemFault (VportAnswer × HeadroomState) := do
  let (answer, v) ← vportStep s.toVportState ev
  .ok (answer, headroomAfter fwd s v answer ev)

/-- No datapath yet. -/
def HeadroomState.init : HeadroomState := ⟨VportState.init, fun _ => 0, fun _ _ => none⟩

/-! ## The maximum -/

/-- The vports that have been attached to a datapath after its local one. -/
def DpPorts.attached (dp : DpPorts) : List Vport := dp.vports.filter fun vport => vport.port_no ≠ ovspLocal

/-- The maximum of the headrooms, or zero. -/
def maxHeadroom (fwd : Nat → Nat) (vports : List Vport) : Nat := (vports.map (fwdHeadroom fwd)).foldr max 0

section Maximum

variable {fwd : Nat → Nat} {l l' : List Vport} {m : Nat}

theorem fwdHeadroom_le_maxHeadroom {vport : Vport} (h : vport ∈ l) : fwdHeadroom fwd vport ≤ maxHeadroom fwd l := by
  induction l with
  | nil => cases h
  | cons v rest ih =>
      rw [maxHeadroom, List.map_cons, List.foldr_cons]
      rcases List.mem_cons.mp h with rfl | hrest
      · exact le_max_left ..
      · exact le_trans (ih hrest) (le_max_right ..)

theorem maxHeadroom_le (h : ∀ vport ∈ l, fwdHeadroom fwd vport ≤ m) : maxHeadroom fwd l ≤ m := by
  induction l with
  | nil => exact Nat.zero_le m
  | cons v rest ih =>
      rw [maxHeadroom, List.map_cons, List.foldr_cons]
      exact max_le (h v List.mem_cons_self) (ih fun vport hv => h vport (List.mem_cons_of_mem _ hv))

/-- Vports without headroom do not count. -/
theorem maxHeadroom_le_maxHeadroom (h : ∀ vport ∈ l, vport ∈ l' ∨ fwdHeadroom fwd vport = 0) :
    maxHeadroom fwd l ≤ maxHeadroom fwd l' := by
  apply maxHeadroom_le
  intro vport hv
  obtain hmem | hzero := h vport hv
  · exact fwdHeadroom_le_maxHeadroom hmem
  · rw [hzero]
    exact Nat.zero_le _

/-- The loop of `update_headroom`. -/
theorem foldl_headroom (fwd : Nat → Nat) (l : List Vport) (m : Nat) :
    l.foldl (fun m vport => if m < fwdHeadroom fwd vport then fwdHeadroom fwd vport else m) m =
      max m (maxHeadroom fwd l) := by
  induction l generalizing m with
  | nil => exact (Nat.max_zero m).symm
  | cons v rest ih =>
      have hmax : maxHeadroom fwd (v :: rest) = max (fwdHeadroom fwd v) (maxHeadroom fwd rest) := rfl
      rw [List.foldl_cons, ih, hmax, ← max_assoc]
      congr 1
      split_ifs with hlt
      · exact (max_eq_right hlt.le).symm
      · exact (max_eq_left (Nat.not_lt.mp hlt)).symm

end Maximum

/-! ## Vports of a datapath -/

section Vports

variable {dp : DpPorts} {vport v : Vport}

theorem mem_vports : v ∈ dp.vports ↔ ∃ b, v ∈ dp.ports b := by
  simp [DpPorts.vports]

theorem mem_attached : v ∈ dp.attached ↔ v ∈ dp.vports ∧ v.port_no ≠ ovspLocal := by
  simp [DpPorts.attached]

theorem mem_vports_add : v ∈ (dp.add vport).vports ↔ v = vport ∨ v ∈ dp.vports := by
  have hports : ∀ b, v ∈ (dp.add vport).ports b ↔
      (b = vportHashBucket vport.port_no ∧ v = vport) ∨ v ∈ dp.ports b := by
    intro b
    rw [DpPorts.add]
    dsimp only
    rw [Function.update_apply]
    split_ifs with hb
    · rw [List.mem_cons, hb]
      simp
    · simp [hb]
  rw [mem_vports, mem_vports]
  simp only [hports]
  constructor
  · rintro ⟨b, ⟨-, rfl⟩ | hmem⟩
    · exact .inl rfl
    · exact .inr ⟨b, hmem⟩
  · rintro (rfl | ⟨b, hmem⟩)
    · exact ⟨_, .inl ⟨rfl, rfl⟩⟩
    · exact ⟨b, .inr hmem⟩

theorem mem_vports_del (h : dp.Numbered) : v ∈ (dp.del vport).vports ↔ v ∈ dp.vports ∧ v ≠ vport := by
  have hnodup : ∀ b, (dp.ports b).Nodup := fun b => (h.nodup b).of_map _
  rw [mem_vports, mem_vports]
  constructor
  · rintro ⟨b, hmem⟩
    rw [DpPorts.del] at hmem
    dsimp only at hmem
    rw [Function.update_apply] at hmem
    split_ifs at hmem with hb
    · obtain ⟨hne, hmem⟩ := (hnodup _).mem_erase_iff.mp hmem
      exact ⟨⟨_, hmem⟩, hne⟩
    · refine ⟨⟨b, hmem⟩, ?_⟩
      rintro rfl
      exact hb (h.placed b v hmem).symm
  · rintro ⟨⟨b, hmem⟩, hne⟩
    refine ⟨b, ?_⟩
    rw [DpPorts.del]
    dsimp only
    rw [Function.update_apply]
    split_ifs with hb
    · rw [← hb]
      exact (hnodup b).mem_erase_iff.mpr ⟨hne, hmem⟩
    · exact hmem

/-- A number belongs to one vport. -/
theorem eq_of_port_no (h : dp.Numbered) (hv : v ∈ dp.vports) (hvport : vport ∈ dp.vports)
    (heq : v.port_no = vport.port_no) : v = vport := by
  obtain ⟨b, hb⟩ := mem_vports.mp hv
  obtain ⟨b', hb'⟩ := mem_vports.mp hvport
  have hfound := h.lookup hb
  rw [heq, h.lookup hb'] at hfound
  exact (Option.some.inj hfound).symm

/-- The local vport needs no headroom. -/
theorem fwdHeadroom_local (fwd : Nat → Nat) (h : dp.Numbered) (hlocal : dp.HasLocal) (hv : v ∈ dp.vports)
    (hzero : v.port_no = ovspLocal) : fwdHeadroom fwd v = 0 := by
  obtain ⟨p, hmem, hnumber, htype⟩ := hlocal
  obtain rfl := eq_of_port_no h hv (mem_vports.mpr ⟨_, hmem⟩) (hzero.trans hnumber.symm)
  exact if_pos htype

theorem maxHeadroom_vports (fwd : Nat → Nat) (h : dp.Numbered) (hlocal : dp.HasLocal) :
    maxHeadroom fwd dp.vports = maxHeadroom fwd dp.attached := by
  apply le_antisymm
  · refine maxHeadroom_le_maxHeadroom fun v hv => ?_
    by_cases hzero : v.port_no = ovspLocal
    · exact .inr (fwdHeadroom_local fwd h hlocal hv hzero)
    · exact .inl (mem_attached.mpr ⟨hv, hzero⟩)
  · exact maxHeadroom_le_maxHeadroom fun v hv => .inl (mem_attached.mp hv).1

end Vports

/-! ## What the updates do -/

section Updates

variable {fwd : Nat → Nat} {s : HeadroomState} {d : Nat} {dp : DpPorts}

theorem setRxHeadroom_rx (s : HeadroomState) (d : Nat) (new_hr : Option Nat) (vport : Vport) (d' n : Nat) :
    (s.setRxHeadroom d new_hr vport).rx_headroom d' n =
      if d' = d ∧ vport.port_no = n then new_hr else s.rx_headroom d' n := by
  simp only [HeadroomState.setRxHeadroom, Function.update_apply]
  by_cases hd : d' = d
  · subst hd
    by_cases hn : n = vport.port_no
    · simp [hn]
    · simp [hn, Ne.symm hn]
  · simp [hd]

/-- The devices of some vports are told. -/
theorem foldl_setRxHeadroom (new_hr : Option Nat) (l : List Vport) (s : HeadroomState) (d : Nat) :
    (l.foldl (fun s vport => s.setRxHeadroom d new_hr vport) s).toVportState = s.toVportState ∧
      (l.foldl (fun s vport => s.setRxHeadroom d new_hr vport) s).max_headroom = s.max_headroom ∧
      ∀ d' n, (l.foldl (fun s vport => s.setRxHeadroom d new_hr vport) s).rx_headroom d' n =
        if d' = d ∧ ∃ vport ∈ l, vport.port_no = n then new_hr else s.rx_headroom d' n := by
  induction l generalizing s with
  | nil => simp
  | cons v rest ih =>
      obtain ⟨hstate, hmax, hrx⟩ := ih (s.setRxHeadroom d new_hr v)
      rw [List.foldl_cons]
      refine ⟨hstate, hmax, fun d' n => ?_⟩
      rw [hrx, setRxHeadroom_rx]
      simp only [List.mem_cons, exists_eq_or_imp]
      by_cases hd : d' = d
      · by_cases hn : v.port_no = n <;> by_cases hrest : ∃ vport ∈ rest, vport.port_no = n <;> simp [hd, hn, hrest]
      · simp [hd]

/-- `update_headroom` makes everything right in its datapath. -/
theorem updateHeadroom_spec (fwd : Nat → Nat) (s : HeadroomState) (d : Nat) (dp : DpPorts) :
    (s.updateHeadroom fwd d dp).toVportState = s.toVportState ∧
      (∀ d', (s.updateHeadroom fwd d dp).max_headroom d' =
        if d' = d then maxHeadroom fwd dp.vports else s.max_headroom d') ∧
      ∀ d' n, (s.updateHeadroom fwd d dp).rx_headroom d' n =
        if d' = d ∧ ∃ vport ∈ dp.vports, vport.port_no = n then some (maxHeadroom fwd dp.vports)
        else s.rx_headroom d' n := by
  unfold HeadroomState.updateHeadroom
  dsimp only
  rw [foldl_headroom, Nat.zero_max]
  obtain ⟨hstate, hmax, hrx⟩ := foldl_setRxHeadroom (some (maxHeadroom fwd dp.vports)) dp.vports
    { s with max_headroom := Function.update s.max_headroom d (maxHeadroom fwd dp.vports) } d
  refine ⟨hstate, fun d' => ?_, hrx⟩
  rw [hmax]
  exact Function.update_apply ..

/-- The headrooms of a datapath with some vports: the maximum is that of the vports, and all of them have
been told. -/
structure DpHeadroom (fwd : Nat → Nat) (s : HeadroomState) (d : Nat) (dp : DpPorts) : Prop where
  max : s.max_headroom d = maxHeadroom fwd dp.attached
  rx : ∀ vport ∈ dp.attached, s.rx_headroom d vport.port_no = some (s.max_headroom d)

/-- Nothing has changed for a datapath. -/
def SameHeadroom (s s' : HeadroomState) (d : Nat) : Prop :=
  s'.max_headroom d = s.max_headroom d ∧ ∀ n, s'.rx_headroom d n = s.rx_headroom d n

theorem DpHeadroom.congr {s' : HeadroomState} (h : DpHeadroom fwd s d dp) (hsame : SameHeadroom s s' d) :
    DpHeadroom fwd s' d dp :=
  ⟨hsame.1.trans h.max, fun vport hv => by rw [hsame.2, hsame.1, h.rx vport hv]⟩

theorem updateHeadroom_ok (fwd : Nat → Nat) (s : HeadroomState) (d : Nat) (hnumbered : dp.Numbered)
    (hlocal : dp.HasLocal) :
    DpHeadroom fwd (s.updateHeadroom fwd d dp) d dp := by
  obtain ⟨-, hmax, hrx⟩ := updateHeadroom_spec fwd s d dp
  have hmax := hmax d
  rw [if_pos rfl] at hmax
  refine ⟨hmax.trans (maxHeadroom_vports fwd hnumbered hlocal), fun vport hv => ?_⟩
  rw [hrx, hmax, if_pos ⟨rfl, vport, (mem_attached.mp hv).1, rfl⟩]

theorem sameHeadroom_updateHeadroom (fwd : Nat → Nat) (s : HeadroomState) {d d' : Nat} (hne : d' ≠ d) (dp : DpPorts) :
    SameHeadroom s (s.updateHeadroom fwd d dp) d' := by
  obtain ⟨-, hmax, hrx⟩ := updateHeadroom_spec fwd s d dp
  refine ⟨(hmax d').trans (if_neg hne), fun n => ?_⟩
  rw [hrx, if_neg fun h => hne h.1]

theorem sameHeadroom_setRxHeadroom (s : HeadroomState) {d d' : Nat} (hne : d' ≠ d) (new_hr : Option Nat)
    (vport : Vport) :
    SameHeadroom s (s.setRxHeadroom d new_hr vport) d' :=
  ⟨rfl, fun n => by rw [setRxHeadroom_rx, if_neg fun h => hne h.1]⟩

/-- A new vport. -/
theorem afterCmdNew_ok {vport : Vport} (hnumbered : (dp.add vport).Numbered) (hlocal : (dp.add vport).HasLocal)
    (hne : vport.port_no ≠ ovspLocal) (h : DpHeadroom fwd s d dp) :
    DpHeadroom fwd (s.afterCmdNew fwd d (dp.add vport) vport) d (dp.add vport) := by
  have hvport : vport ∈ (dp.add vport).vports := mem_vports_add.mpr (.inl rfl)
  unfold HeadroomState.afterCmdNew
  split_ifs with hlt
  · exact updateHeadroom_ok fwd s d hnumbered hlocal
  · have hattached : ∀ v, v ∈ (dp.add vport).attached ↔ v = vport ∨ v ∈ dp.attached := by
      intro v
      rw [mem_attached, mem_attached, mem_vports_add]
      constructor
      · rintro ⟨rfl | hv, hlocal'⟩
        · exact .inl rfl
        · exact .inr ⟨hv, hlocal'⟩
      · rintro (rfl | ⟨hv, hlocal'⟩)
        · exact ⟨.inl rfl, hne⟩
        · exact ⟨.inr hv, hlocal'⟩
    refine ⟨?_, fun v hv => ?_⟩
    · show s.max_headroom d = _
      rw [h.max] at hlt ⊢
      apply le_antisymm
      · exact maxHeadroom_le_maxHeadroom fun v hv => .inl ((hattached v).mpr (.inr hv))
      · apply maxHeadroom_le
        intro v hv
        obtain rfl | hv := (hattached v).mp hv
        · exact Nat.not_lt.mp hlt
        · exact fwdHeadroom_le_maxHeadroom hv
    · rw [setRxHeadroom_rx]
      split_ifs with hn
      · rfl
      · obtain rfl | hv' := (hattached v).mp hv
        · exact absurd ⟨rfl, rfl⟩ hn
        · exact h.rx v hv'

/-- A vport is deleted. -/
theorem afterCmdDel_ok {vport : Vport} (hnumbered : dp.Numbered) (hlocal : (dp.del vport).HasLocal)
    (hvport : vport ∈ dp.attached) (h : DpHeadroom fwd s d dp) :
    DpHeadroom fwd (s.afterCmdDel fwd d (dp.del vport) vport) d (dp.del vport) := by
  unfold HeadroomState.afterCmdDel
  dsimp only
  split_ifs with hmust
  · exact updateHeadroom_ok fwd _ d (hnumbered.del vport) hlocal
  · have hattached : ∀ v, v ∈ (dp.del vport).attached ↔ v ∈ dp.attached ∧ v ≠ vport := by
      intro v
      rw [mem_attached, mem_attached, mem_vports_del hnumbered]
      exact and_right_comm
    have hless : fwdHeadroom fwd vport < maxHeadroom fwd dp.attached := by
      rw [h.max, beq_iff_eq] at hmust
      exact lt_of_le_of_ne (fwdHeadroom_le_maxHeadroom hvport) hmust
    refine ⟨?_, fun v hv => ?_⟩
    · show s.max_headroom d = _
      rw [h.max]
      apply le_antisymm
      · -- another vport has the maximum
        apply maxHeadroom_le
        intro v hv
        by_cases heq : v = vport
        · subst heq
          by_contra hnot
          refine absurd (maxHeadroom_le fun v' hv' => ?_) (Nat.not_le.mpr hless)
          by_cases heq' : v' = v
          · exact heq' ▸ le_rfl
          · exact le_trans (fwdHeadroom_le_maxHeadroom ((hattached v').mpr ⟨hv', heq'⟩)) (Nat.not_le.mp hnot).le
        · exact fwdHeadroom_le_maxHeadroom ((hattached v).mpr ⟨hv, heq⟩)
      · exact maxHeadroom_le_maxHeadroom fun v hv => .inl ((hattached v).mp hv).1
    · obtain ⟨hv', hne⟩ := (hattached v).mp hv
      rw [setRxHeadroom_rx, if_neg]
      · exact h.rx v hv'
      · rintro ⟨-, heq⟩
        exact hne (eq_of_port_no hnumbered (mem_attached.mp hv').1 (mem_attached.mp hvport).1 heq.symm)

end Updates

/-! ## Steps -/

/-- The headrooms are right in every datapath. -/
def HeadroomOk (fwd : Nat → Nat) (s : HeadroomState) : Prop :=
  ∀ d dp, s.dps d = some dp → DpHeadroom fwd s d dp

/-- The vport is not detached by `ovs_dp_notify_wq`. -/
def Vport.stays (vport : Vport) : Bool := vport.type == vportTypeInternal || vport.attached

/-- No vport that `ovs_dp_notify_wq` detaches has been the only one to need its headroom. -/
def KeepsMaximum (fwd : Nat → Nat) (s : HeadroomState) : VportEvent → Prop
  | .notifyWq => ∀ d dp, s.dps d = some dp → ∀ vport ∈ dp.attached, vport.stays = false →
      fwdHeadroom fwd vport ≤ maxHeadroom fwd (dp.attached.filter Vport.stays)
  | _ => True

section Steps

variable {fwd : Nat → Nat} {s : HeadroomState}

/-- What a request for a new vport does to the datapaths. -/
inductive RequestPorts (s : VportState) : VportAnswer → VportState → Prop
  | same {answer v} (hdps : v.dps = s.dps) (hanswer : ∀ d n, answer ≠ .created d n) : RequestPorts s answer v
  | created {v} (d : Nat) (dp : DpPorts) (vport : Vport) (hdp : s.dps d = some dp)
      (hfree : ovsLookupVport dp vport.port_no = none) (hbelow : vport.port_no < dpMaxPorts)
      (hdps : v.dps = Function.update s.dps d (some (dp.add vport))) :
      RequestPorts s (.created d vport.port_no) v

theorem RestartStep.ports {s₀ s : VportState} {t port_no : Nat} {req : VportReq} {r : VportAnswer × VportState}
    (h : RestartStep s t req port_no r) (hs : s.dps = s₀.dps) : RequestPorts s₀ r.1 r.2 := by
  cases h with
  | failed err => exact .same hs nofun
  | inUse d dp hdp hnamed hused => exact .same hs nofun
  | noneLeft d dp hdp hzero hall => exact .same hs nofun
  | loading chosen hbelow hne hnamed => exact .same hs nofun
  | created d dp hdp chosen ifindex hfree hbelow hnamed =>
      exact .created d dp ⟨chosen, req.type, ifindex, true⟩ (hs ▸ hdp) hfree hbelow (by rw [← hs]; rfl)

theorem requestPorts_cmdNew (s : VportState) (t : Nat) (req : VportReq) (env : VportEnv) :
    RequestPorts s (ovsVportCmdNew s t req env).1 (ovsVportCmdNew s t req env).2 := by
  unfold ovsVportCmdNew
  dsimp only
  split_ifs with hthread hcomplete hlarge hreply
  · exact .same rfl nofun
  · exact .same rfl nofun
  · exact .same rfl nofun
  · exact .same rfl nofun
  · exact (vportCmdNewRestart_step s t req env (Nat.not_le.mp hlarge)).ports rfl

theorem requestPorts_resume {s : VportState} (h : VportInv s) (t : Nat) (env : VportEnv) :
    RequestPorts s (ovsVportCmdNewResume s t env).1 (ovsVportCmdNewResume s t env).2 := by
  unfold ovsVportCmdNewResume
  cases hthread : s.threads t with
  | none => exact .same rfl nofun
  | some carried =>
      dsimp only
      split_ifs
      · exact (vportCmdNewRestart_step _ t carried.1 env (h.carried t _ _ hthread).below).ports rfl
      · exact .same rfl nofun

theorem afterCmdNew_toVportState (fwd : Nat → Nat) (s : HeadroomState) (d : Nat) (dp : DpPorts) (vport : Vport) :
    (s.afterCmdNew fwd d dp vport).toVportState = s.toVportState := by
  unfold HeadroomState.afterCmdNew
  split_ifs
  · exact (updateHeadroom_spec fwd s d dp).1
  · rfl

theorem afterCmdDel_toVportState (fwd : Nat → Nat) (s : HeadroomState) (d : Nat) (dp : DpPorts) (vport : Vport) :
    (s.afterCmdDel fwd d dp vport).toVportState = s.toVportState := by
  unfold HeadroomState.afterCmdDel
  dsimp only
  split_ifs
  · exact (updateHeadroom_spec fwd _ d dp).1
  · rfl

theorem sameHeadroom_afterCmdNew (fwd : Nat → Nat) (s : HeadroomState) {d d' : Nat} (hne : d' ≠ d) (dp : DpPorts)
    (vport : Vport) : SameHeadroom s (s.afterCmdNew fwd d dp vport) d' := by
  unfold HeadroomState.afterCmdNew
  split_ifs
  · exact sameHeadroom_updateHeadroom fwd s hne dp
  · exact sameHeadroom_setRxHeadroom s hne _ vport

theorem sameHeadroom_afterCmdDel (fwd : Nat → Nat) (s : HeadroomState) {d d' : Nat} (hne : d' ≠ d) (dp : DpPorts)
    (vport : Vport) : SameHeadroom s (s.afterCmdDel fwd d dp vport) d' := by
  have hset := sameHeadroom_setRxHeadroom s hne none vport
  unfold HeadroomState.afterCmdDel
  dsimp only
  split_ifs
  · have hupdate := sameHeadroom_updateHeadroom fwd (s.setRxHeadroom d none vport) hne dp
    exact ⟨hupdate.1.trans hset.1, fun n => (hupdate.2 n).trans (hset.2 n)⟩
  · exact hset

/-- A datapath has got other vports, and the other datapaths have not. -/
theorem HeadroomOk.update (h : HeadroomOk fwd s) {s' : HeadroomState} {d : Nat} {dp : DpPorts}
    (hdps : s'.dps = Function.update s.dps d (some dp)) (hdp : DpHeadroom fwd s' d dp)
    (hother : ∀ d', d' ≠ d → SameHeadroom s s' d') : HeadroomOk fwd s' := by
  intro d' dp' hdp'
  rw [hdps, Function.update_apply] at hdp'
  split_ifs at hdp' with heq
  · obtain rfl := Option.some.inj hdp'
    exact heq ▸ hdp
  · exact (h d' dp' hdp').congr (hother d' heq)

/-- A request for a new vport. -/
theorem afterRequest_ok (h : HeadroomOk fwd s) (hinv : VportInv s.toVportState) {v : VportState}
    {answer : VportAnswer}
    (hports : RequestPorts s.toVportState answer v) :
    (afterRequest fwd s v answer).toVportState = v ∧ HeadroomOk fwd (afterRequest fwd s v answer) := by
  cases hports with
  | same hdps hanswer =>
      have hsame : afterRequest fwd s v answer = { s with toVportState := v } := by
        cases answer with
        | created d n => exact absurd rfl (hanswer d n)
        | _ => rfl
      rw [hsame]
      exact ⟨rfl, fun d dp hdp => ⟨(h d dp (hdps ▸ hdp)).max, (h d dp (hdps ▸ hdp)).rx⟩⟩
  | created d dp vport hdp hfree hbelow hdps =>
      have hnumbered := (hinv.numbered d dp hdp).add hfree hbelow
      have hlocal := (hinv.local_ d dp hdp).add vport
      have hne : vport.port_no ≠ ovspLocal := fun heq => (hinv.local_ d dp hdp).lookup (heq ▸ hfree)
      have hv : v.dps d = some (dp.add vport) := by rw [hdps, Function.update_self]
      obtain ⟨b, hmem⟩ := mem_vports.mp (mem_vports_add.mpr (.inl rfl) : vport ∈ (dp.add vport).vports)
      have hrequest : afterRequest fwd s v (.created d vport.port_no) =
          { s with toVportState := v }.afterCmdNew fwd d (dp.add vport) vport := by
        simp only [afterRequest, hv, hnumbered.lookup hmem]
      have hold : DpHeadroom fwd { s with toVportState := v } d dp := ⟨(h d dp hdp).max, (h d dp hdp).rx⟩
      rw [hrequest]
      refine ⟨afterCmdNew_toVportState .., h.update ?_ (afterCmdNew_ok hnumbered hlocal hne hold) fun d' hd' =>
        sameHeadroom_afterCmdNew fwd { s with toVportState := v } hd' _ _⟩
      rw [afterCmdNew_toVportState]
      exact hdps

/-- A request to delete a vport. -/
theorem afterDelete_ok (h : HeadroomOk fwd s) (hinv : VportInv s.toVportState) (name : VportName) (reply : Bool) :
    let r := ovsVportCmdDel s.toVportState name reply
    (afterDelete fwd s r.2 name r.1).toVportState = r.2 ∧ HeadroomOk fwd (afterDelete fwd s r.2 name r.1) := by
  unfold ovsVportCmdDel
  dsimp only
  split_ifs with hreply
  · exact ⟨rfl, h⟩
  · cases hlookup : lookupVport s.toVportState name with
    | error err => exact ⟨rfl, h⟩
    | ok found =>
        obtain ⟨d, vport⟩ := found
        dsimp only
        split_ifs with hlocal
        · exact ⟨rfl, h⟩
        · cases hdp : s.dps d with
          | none => exact ⟨rfl, h⟩
          | some dp =>
              dsimp only
              split_ifs with hmem
              · have hdps : (ovsDpDetachPort s.toVportState d dp vport).dps =
                    Function.update s.dps d (some (dp.del vport)) := rfl
                have hv : (ovsDpDetachPort s.toVportState d dp vport).dps d = some (dp.del vport) := by
                  rw [hdps, Function.update_self]
                have hdelete : afterDelete fwd s (ovsDpDetachPort s.toVportState d dp vport) name .deleted =
                    { s with toVportState := ovsDpDetachPort s.toVportState d dp vport }.afterCmdDel fwd d
                      (dp.del vport) vport := by
                  simp only [afterDelete, hlookup, hv]
                have hattached : vport ∈ dp.attached := mem_attached.mpr ⟨mem_vports.mpr ⟨_, hmem⟩, hlocal⟩
                rw [hdelete]
                refine ⟨afterCmdDel_toVportState .., h.update ?_ (afterCmdDel_ok (hinv.numbered d dp hdp)
                  ((hinv.local_ d dp hdp).del hlocal) hattached ⟨(h d dp hdp).max, (h d dp hdp).rx⟩)
                  fun d' hd' => sameHeadroom_afterCmdDel fwd
                    { s with toVportState := ovsDpDetachPort s.toVportState d dp vport } hd' _ _⟩
                rw [afterCmdDel_toVportState]
                exact hdps
              · exact ⟨rfl, h⟩

/-- Each vport of the one datapath has its like in the other one. -/
theorem DpHeadroom.of_like {s' : HeadroomState} {d : Nat} {dp dp' : DpPorts} (h : DpHeadroom fwd s d dp)
    (hsame : SameHeadroom s s' d)
    (hto : ∀ v ∈ dp.attached, ∃ v' ∈ dp'.attached, fwdHeadroom fwd v' = fwdHeadroom fwd v)
    (hof : ∀ v' ∈ dp'.attached, ∃ v ∈ dp.attached,
      fwdHeadroom fwd v' = fwdHeadroom fwd v ∧ v'.port_no = v.port_no) :
    DpHeadroom fwd s' d dp' := by
  refine ⟨?_, fun v' hv' => ?_⟩
  · rw [hsame.1, h.max]
    apply le_antisymm
    · refine maxHeadroom_le fun v hv => ?_
      obtain ⟨v', hv', heq⟩ := hto v hv
      exact heq ▸ fwdHeadroom_le_maxHeadroom hv'
    · refine maxHeadroom_le fun v' hv' => ?_
      obtain ⟨v, hv, heq, -⟩ := hof v' hv'
      exact heq ▸ fwdHeadroom_le_maxHeadroom hv
  · obtain ⟨v, hv, -, hnumber⟩ := hof v' hv'
    rw [hnumber, hsame.2, hsame.1]
    exact h.rx v hv

/-- A device goes away: its vport is only marked. -/
theorem dpDeviceEvent_ok (h : HeadroomOk fwd s) (d : Nat) (vport : Vport) :
    HeadroomOk fwd { s with toVportState := dpDeviceEvent s.toVportState d vport } := by
  let mark : Vport → Vport := fun p => if p = vport then { p with attached := false } else p
  have hmark : ∀ p, fwdHeadroom fwd (mark p) = fwdHeadroom fwd p ∧ (mark p).port_no = p.port_no := by
    intro p
    show fwdHeadroom fwd (if p = vport then _ else p) = _ ∧ (if p = vport then _ else p).port_no = _
    split_ifs
    · exact ⟨rfl, rfl⟩
    · exact ⟨rfl, rfl⟩
  intro d' dp' hdp'
  replace hdp' : Function.update s.dps d ((s.dps d).map fun dp => ⟨fun b => (dp.ports b).map mark⟩) d' =
    some dp' := hdp'
  rw [Function.update_apply] at hdp'
  split_ifs at hdp' with heq
  · subst heq
    obtain ⟨dp, hdp, rfl⟩ := Option.map_eq_some_iff.mp hdp'
    have hmem : ∀ v', v' ∈ (DpPorts.mk fun b => (dp.ports b).map mark).attached ↔
        ∃ v ∈ dp.attached, mark v = v' := by
      intro v'
      rw [mem_attached, mem_vports]
      constructor
      · rintro ⟨⟨b, hb⟩, hne⟩
        obtain ⟨v, hv, rfl⟩ := List.mem_map.mp hb
        exact ⟨v, mem_attached.mpr ⟨mem_vports.mpr ⟨b, hv⟩, (hmark v).2 ▸ hne⟩, rfl⟩
      · rintro ⟨v, hv, rfl⟩
        obtain ⟨hv, hne⟩ := mem_attached.mp hv
        obtain ⟨b, hb⟩ := mem_vports.mp hv
        exact ⟨⟨b, List.mem_map_of_mem hb⟩, (hmark v).2.symm ▸ hne⟩
    refine (h d' dp hdp).of_like ⟨rfl, fun _ => rfl⟩ (fun v hv => ?_) fun v' hv' => ?_
    · exact ⟨mark v, (hmem _).mpr ⟨v, hv, rfl⟩, (hmark v).1⟩
    · obtain ⟨v, hv, rfl⟩ := (hmem v').mp hv'
      exact ⟨v, hv, hmark v⟩
  · exact ⟨(h d' dp' hdp').max, (h d' dp' hdp').rx⟩

/-- What is left of the vports of a datapath. -/
theorem attached_filter (dp : DpPorts) (p : Vport → Bool) :
    (DpPorts.mk fun b => (dp.ports b).filter p).attached = dp.attached.filter p := by
  have hvports : (DpPorts.mk fun b => (dp.ports b).filter p).vports = dp.vports.filter p := by
    rw [DpPorts.vports, DpPorts.vports, List.filter_flatMap]
  rw [DpPorts.attached, hvports, DpPorts.attached, List.filter_filter, List.filter_filter]
  simp only [Bool.and_comm]

/-- The maximum outlives some vports when none of them has been the only one to need it. -/
theorem maxHeadroom_filter_iff {l : List Vport} {p : Vport → Bool} :
    maxHeadroom fwd l = maxHeadroom fwd (l.filter p) ↔
      ∀ vport ∈ l, p vport = false → fwdHeadroom fwd vport ≤ maxHeadroom fwd (l.filter p) := by
  constructor
  · intro heq vport hv _
    exact heq ▸ fwdHeadroom_le_maxHeadroom hv
  · intro hgone
    apply le_antisymm
    · refine maxHeadroom_le fun vport hv => ?_
      by_cases hp : p vport
      · exact fwdHeadroom_le_maxHeadroom (List.mem_filter.mpr ⟨hv, hp⟩)
      · exact hgone vport hv (Bool.eq_false_iff.mpr hp)
    · exact maxHeadroom_le_maxHeadroom fun vport hv => .inl (List.mem_filter.mp hv).1

/-- The work queue looks at no headroom. -/
theorem ovsDpNotifyWq_ok_iff (h : HeadroomOk fwd s) :
    HeadroomOk fwd { s with toVportState := ovsDpNotifyWq s.toVportState } ↔ KeepsMaximum fwd s .notifyWq := by
  have hone : ∀ d dp, s.dps d = some dp →
      (DpHeadroom fwd { s with toVportState := ovsDpNotifyWq s.toVportState } d
          ⟨fun b => (dp.ports b).filter Vport.stays⟩ ↔
        ∀ vport ∈ dp.attached, vport.stays = false →
          fwdHeadroom fwd vport ≤ maxHeadroom fwd (dp.attached.filter Vport.stays)) := by
    intro d dp hdp
    rw [← maxHeadroom_filter_iff, ← (h d dp hdp).max, ← attached_filter]
    refine ⟨DpHeadroom.max, fun hmax => ⟨hmax, fun vport hv => ?_⟩⟩
    rw [attached_filter] at hv
    exact (h d dp hdp).rx vport (List.mem_filter.mp hv).1
  constructor
  · intro hok d dp hdp
    refine (hone d dp hdp).mp (hok d _ ?_)
    show (s.dps d).map _ = _
    rw [hdp]
    rfl
  · intro hkeeps d dp' hdp'
    obtain ⟨dp, hdp, rfl⟩ := Option.map_eq_some_iff.mp hdp'
    exact (hone d dp hdp).mpr (hkeeps d dp hdp)

/-- A new datapath has the local vport only. -/
theorem ovsDpCmdNew_ok (h : HeadroomOk fwd s) (d ifindex : Nat) :
    HeadroomOk fwd (headroomAfter fwd s (ovsDpCmdNew s.toVportState d ifindex) .none (.dpCmdNew d ifindex)) := by
  unfold headroomAfter ovsDpCmdNew
  dsimp only
  split_ifs with hsome
  · exact h
  · let vport : Vport := ⟨ovspLocal, vportTypeInternal, ifindex, true⟩
    have hnone : ((DpPorts.mk fun _ => []).add vport).attached = [] := by
      apply List.eq_nil_iff_forall_not_mem.mpr
      intro v hv
      obtain ⟨hv, hne⟩ := mem_attached.mp hv
      obtain rfl | hold := mem_vports_add.mp hv
      · exact hne rfl
      · obtain ⟨b, hb⟩ := mem_vports.mp hold
        cases hb
    refine h.update (d := d) rfl ⟨?_, fun vport hv => ?_⟩ fun d' hne => ⟨?_, fun n => ?_⟩
    · show Function.update s.max_headroom d 0 d = _
      rw [Function.update_self, hnone]
      rfl
    · rw [hnone] at hv
      cases hv
    · exact Function.update_of_ne hne ..
    · show Function.update s.rx_headroom d (fun _ => none) d' n = _
      rw [Function.update_of_ne hne]

/-- The headrooms follow the vports. -/
theorem headroomAfter_toVportState (h : HeadroomOk fwd s) (hinv : VportInv s.toVportState) {ev : VportEvent}
    {answer : VportAnswer} {v : VportState} (hok : vportStep s.toVportState ev = .ok (answer, v)) :
    (headroomAfter fwd s v answer ev).toVportState = v := by
  cases ev with
  | cmdNew t req env =>
      have hports := requestPorts_cmdNew s.toVportState t req env
      rw [Except.ok.inj hok] at hports
      exact (afterRequest_ok h hinv hports).1
  | resume t env =>
      have hports := requestPorts_resume hinv t env
      rw [Except.ok.inj hok] at hports
      exact (afterRequest_ok h hinv hports).1
  | cmdDel name reply =>
      have hdelete := (afterDelete_ok h hinv name reply).1
      rw [Except.ok.inj hok] at hdelete
      exact hdelete
  | dpCmdNew d ifindex =>
      unfold headroomAfter
      dsimp only
      split_ifs <;> rfl
  | deviceUnregister d vport => rfl
  | notifyWq => rfl
  | dpDestroy d => rfl
  | registerOps type => rfl
  | unregisterOps type => rfl

/-- **One step** leaves the headrooms right exactly when it detaches no vport that has been the only one to
need its headroom. -/
theorem headroomStep_iff (h : HeadroomOk fwd s) (hinv : VportInv s.toVportState) (ev : VportEvent) :
    (∃ answer s', headroomStep fwd s ev = .ok (answer, s') ∧ HeadroomOk fwd s') ↔ KeepsMaximum fwd s ev := by
  cases ev with
  | cmdNew t req env =>
      exact iff_of_true ⟨_, _, rfl, (afterRequest_ok h hinv (requestPorts_cmdNew _ t req env)).2⟩ trivial
  | resume t env =>
      exact iff_of_true ⟨_, _, rfl, (afterRequest_ok h hinv (requestPorts_resume hinv t env)).2⟩ trivial
  | cmdDel name reply => exact iff_of_true ⟨_, _, rfl, (afterDelete_ok h hinv name reply).2⟩ trivial
  | deviceUnregister d vport => exact iff_of_true ⟨_, _, rfl, dpDeviceEvent_ok h d vport⟩ trivial
  | notifyWq =>
      rw [← ovsDpNotifyWq_ok_iff h]
      constructor
      · rintro ⟨answer, s', hok, hs'⟩
        cases hok
        exact hs'
      · exact fun hs' => ⟨_, _, rfl, hs'⟩
  | dpCmdNew d ifindex => exact iff_of_true ⟨_, _, rfl, ovsDpCmdNew_ok h d ifindex⟩ trivial
  | dpDestroy d =>
      refine iff_of_true ⟨_, _, rfl, fun d' dp' hdp' => ?_⟩ trivial
      replace hdp' : Function.update s.dps d none d' = some dp' := hdp'
      rw [Function.update_apply] at hdp'
      split_ifs at hdp'
      exact ⟨(h d' dp' hdp').max, (h d' dp' hdp').rx⟩
  | registerOps type =>
      exact iff_of_true ⟨_, _, rfl, fun d dp hdp => ⟨(h d dp hdp).max, (h d dp hdp).rx⟩⟩ trivial
  | unregisterOps type =>
      exact iff_of_true ⟨_, _, rfl, fun d dp hdp => ⟨(h d dp hdp).max, (h d dp hdp).rx⟩⟩ trivial

/-- The vports are those of a run without headrooms. -/
theorem headroomStep_inv (h : HeadroomOk fwd s) (hinv : VportInv s.toVportState) {ev : VportEvent}
    {answer : VportAnswer} {s' : HeadroomState} (hok : headroomStep fwd s ev = .ok (answer, s')) :
    VportInv s'.toVportState := by
  obtain ⟨⟨answer', v⟩, hstep, hrest⟩ := bind_eq_ok.mp hok
  obtain ⟨rfl, rfl⟩ := Prod.mk.inj (Except.ok.inj hrest)
  rw [headroomAfter_toVportState h hinv hstep]
  exact vportStep_inv hinv hstep

end Steps

/-- **Headroom.** Over every run from the start, the maximum of each datapath is the maximum of its vports and
every device has been told, exactly if no vport that `ovs_dp_notify_wq` detaches has been the only one to need
its headroom. -/
theorem headroomRun_iff (fwd : Nat → Nat) (events : List VportEvent) :
    RunHolds (headroomStep fwd) (fun _ _ _ s' => HeadroomOk fwd s') HeadroomState.init events ↔
      RunMeets (headroomStep fwd) (KeepsMaximum fwd) HeadroomState.init events :=
  runHolds_iff_runMeets (fun _ _ => True) (fun s => VportInv s.toVportState ∧ HeadroomOk fwd s)
    (fun _ ev h _ => headroomStep_iff h.2 h.1 ev)
    (fun _ _ _ _ h _ hok hgood => ⟨headroomStep_inv h.2 h.1 hok, hgood⟩) ⟨vportInv_init, nofun⟩
    (runMeets_const_of_forall (p := fun _ => True) fun _ _ => trivial)

/-- Two devices, and the second one, which needs more headroom, goes away. -/
def widestGone : List VportEvent :=
  [.dpCmdNew 0 7, .registerOps 1, .cmdNew 1 ⟨7, true, 1, some 1⟩ ⟨true, true, .ok 10⟩,
    .cmdNew 1 ⟨7, true, 1, some 2⟩ ⟨true, true, .ok 50⟩, .deviceUnregister 0 ⟨2, 1, 50, true⟩, .notifyWq]

/-- The datapath goes on to reserve room for the device that has gone. -/
theorem headroomRun_widestGone :
    ¬ RunHolds (headroomStep id) (fun _ _ _ s' => HeadroomOk id s') HeadroomState.init widestGone := by
  intro hrun
  have hrest := ((((hrun.tail rfl).2.tail rfl).2.tail rfl).2.tail rfl).2
  have hlast := ((hrest.tail rfl).2.tail rfl).1
  have hstale := fun dp hdp => (hlast 0 dp hdp).max
  revert hstale
  decide +kernel

end OvsDatapath.Datapath
