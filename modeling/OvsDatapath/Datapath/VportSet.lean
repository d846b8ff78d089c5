import OvsDatapath.Datapath.UpcallPortids
import OvsDatapath.Datapath.Vports

/-!
# Changing a vport

`ovs_vport_cmd_set` changes the options of a vport and then its portids, one after the other, and each
change may fail (`datapath.c`, `vport.c`). Nothing is undone. What keeps a request from being done by
halves is that no type of vport has options that can be changed: a request with options fails before it
comes to the portids, and the portids are replaced as a whole (`ovsVportCmdSet_failed`).
-/

namespace OvsDatapath.Datapath

open OvsDatapath.Lib OvsDatapath.Flow

/-- `EOPNOTSUPP`. -/
def eopnotsupp : Int := -95

/-- `struct vport_ops`: the type, and `set_options`, which may be missing. That returns an error and the
options afterwards. -/
structure VportOps (Ω : Type) where
  type : Nat
  set_options : Option (Ω → List (BitVec 8) → Int × Ω)

section Ops

variable (Ω : Type)

def ovsNetdevVportOps : VportOps Ω := ⟨1, none⟩

def ovsInternalVportOps : VportOps Ω := ⟨vportTypeInternal, none⟩

def ovsGreVportOps : VportOps Ω := ⟨3, none⟩

def ovsVxlanNetdevVportOps : VportOps Ω := ⟨4, none⟩

def ovsGeneveVportOps : VportOps Ω := ⟨5, none⟩

def ovsLispVportOps : VportOps Ω := ⟨105, none⟩

def ovsSttVportOps : VportOps Ω := ⟨106, none⟩

/-- All that is registered with `ovs_vport_ops_register`. -/
def vportOps : List (VportOps Ω) :=
  [ovsNetdevVportOps Ω, ovsInternalVportOps Ω, ovsGreVportOps Ω, ovsVxlanNetdevVportOps Ω, ovsGeneveVportOps Ω,
    ovsLispVportOps Ω, ovsSttVportOps Ω]

end Ops

variable {Ω : Type}

/-- The part of `struct vport` that the request is about. The operations are registered ones, and the
options belong to the device. -/
structure VportSettings (Ω : Type) where
  ops : VportOps Ω
  registered : ops ∈ vportOps Ω
  options : Ω
  upcall_portids : Option VportPortids

/-- The vports, and the settings of each by its datapath and number. -/
structure SettingsState (Ω : Type) extends VportState where
  settings : Nat → Nat → VportSettings Ω

/-- The attributes of an `OVS_VPORT_CMD_SET` request, those of `OVS_VPORT_ATTR_OPTIONS` and
`OVS_VPORT_ATTR_UPCALL_PID` with their payload. -/
structure VportSetReq where
  name : VportName
  type : Option Nat
  options : Option (List (BitVec 8))
  upcall_pid : Option (List (BitVec 8))

/-- What the rest of the kernel does: whether the reply and a new array can be allocated, and the vports
that `ovs_vport_cmd_fill_info` has room for. -/
structure VportSetEnv (Ω : Type) where
  reply : Bool
  kmalloc : Bool
  fits : VportSettings Ω → Bool

/-- `ovs_vport_set_options`. -/
def ovsVportSetOptions (vport : VportSettings Ω) (options : List (BitVec 8)) : Int × VportSettings Ω :=
  match vport.ops.set_options with
  | none => (eopnotsupp, vport)
  | some set_options =>
      let (err, new) := set_options vport.options options
      (err, { vport with options := new })

/-- The second half of `ovs_vport_cmd_set`: the portids, and the reply. -/
def vportSetPortids (env : VportSetEnv Ω) (upcall_pid : Option (List (BitVec 8))) (vport : VportSettings Ω) :
    Except MemFault (Int × VportSettings Ω) :=
  match upcall_pid with
  | none => if env.fits vport then .ok (0, vport) else .error .bug
  | some ids =>
      let (err, new) := ovsVportSetUpcallPortids env.kmalloc vport.upcall_portids ids
      let vport := { vport with upcall_portids := new }
      if err ≠ 0 then .ok (err, vport) else if env.fits vport then .ok (0, vport) else .error .bug

/-- `ovs_vport_cmd_set` for the vport it has found. -/
def vportSetFound (env : VportSetEnv Ω) (req : VportSetReq) (vport : VportSettings Ω) :
    Except MemFault (Int × VportSettings Ω) :=
  if req.type.any fun type => type ≠ vport.ops.type then .ok (einval, vport)
  else
    match req.options with
    | none => vportSetPortids env req.upcall_pid vport
    | some options =>
        let (err, vport) := ovsVportSetOptions vport options
        if err ≠ 0 then .ok (err, vport) else vportSetPortids env req.upcall_pid vport

/-- `ovs_vport_cmd_set`. -/
def ovsVportCmdSet (env : VportSetEnv Ω) (req : VportSetReq) (s : SettingsState Ω) :
    Except MemFault (Int × SettingsState Ω) :=
  if !env.reply then .ok (enomem, s)
  else
    match lookupVport s.toVportState req.name with
    | .error err => .ok (err, s)
    | .ok (d, vport) => do
        let (err, new) ← vportSetFound env req (s.settings d vport.port_no)
        .ok (err, { s with
          settings := Function.update s.settings d (Function.update (s.settings d) vport.port_no new) })

/-! ## All or nothing -/

/-- Portids are replaced or left alone. -/
theorem ovsVportSetUpcallPortids_failed {kmalloc : Bool} {old new : Option VportPortids} {ids : List (BitVec 8)}
    {err : Int} (h : ovsVportSetUpcallPortids kmalloc old ids = (err, new)) (herr : err ≠ 0) : new = old := by
  unfold ovsVportSetUpcallPortids at h
  split_ifs at h with hlen halloc
  · exact (Prod.mk.inj h).2.symm
  · exact (Prod.mk.inj h).2.symm
  · exact absurd (Prod.mk.inj h).1.symm herr

theorem vportSetPortids_failed {env : VportSetEnv Ω} {upcall_pid : Option (List (BitVec 8))}
    {vport new : VportSettings Ω} {err : Int} (h : vportSetPortids env upcall_pid vport = .ok (err, new))
    (herr : err ≠ 0) : new = vport := by
  unfold vportSetPortids at h
  cases upcall_pid with
  | none =>
      dsimp only at h
      split_ifs at h
      exact absurd (Prod.mk.inj (Except.ok.inj h)).1.symm herr
  | some ids =>
      dsimp only at h
      split_ifs at h with hfailed hfits
      · obtain ⟨-, rfl⟩ := Prod.mk.inj (Except.ok.inj h)
        have hold : (ovsVportSetUpcallPortids env.kmalloc vport.upcall_portids ids).2 = vport.upcall_portids :=
          ovsVportSetUpcallPortids_failed rfl hfailed
        rw [hold]
      · exact absurd (Prod.mk.inj (Except.ok.inj h)).1.symm herr

/-- No type of vport can change its options. -/
theorem set_options_eq_none (vport : VportSettings Ω) : vport.ops.set_options = none := by
  have hall : ∀ ops ∈ vportOps Ω, ops.set_options = none := by
    simp [vportOps, ovsNetdevVportOps, ovsInternalVportOps, ovsGreVportOps, ovsVxlanNetdevVportOps,
      ovsGeneveVportOps, ovsLispVportOps, ovsSttVportOps]
  exact hall vport.ops vport.registered

theorem ovsVportSetOptions_eq (vport : VportSettings Ω) (options : List (BitVec 8)) :
    ovsVportSetOptions vport options = (eopnotsupp, vport) := by
  rw [ovsVportSetOptions, set_options_eq_none]

theorem vportSetFound_failed {env : VportSetEnv Ω} {req : VportSetReq} {vport new : VportSettings Ω} {err : Int}
    (h : vportSetFound env req vport = .ok (err, new)) (herr : err ≠ 0) : new = vport := by
  unfold vportSetFound at h
  split_ifs at h with htype
  · exact (Prod.mk.inj (Except.ok.inj h)).2.symm
  · cases hoptions : req.options with
    | none =>
        rw [hoptions] at h
        exact vportSetPortids_failed h herr
    | some options =>
        rw [hoptions] at h
        dsimp only at h
        rw [ovsVportSetOptions_eq, if_pos (show eopnotsupp ≠ 0 by decide)] at h
        exact (Prod.mk.inj (Except.ok.inj h)).2.symm

/-- **All or nothing.** A request that fails leaves all vports as they were, and so the options and the
portids of its own. -/
theorem ovsVportCmdSet_failed (env : VportSetEnv Ω) (req : VportSetReq) (s s' : SettingsState Ω) (err : Int)
    (h : ovsVportCmdSet env req s = .ok (err, s')) (herr : err ≠ 0) : s' = s := by
  unfold ovsVportCmdSet at h
  split_ifs at h with hreply
  · exact (Prod.mk.inj (Except.ok.inj h)).2.symm
  · cases hlookup : lookupVport s.toVportState req.name with
    | error e =>
        rw [hlookup] at h
        exact (Prod.mk.inj (Except.ok.inj h)).2.symm
    | ok found =>
        obtain ⟨d, vport⟩ := found
        rw [hlookup] at h
        obtain ⟨⟨err', new⟩, hfound, hrest⟩ := bind_eq_ok.mp h
        obtain ⟨rfl, rfl⟩ := Prod.mk.inj (Except.ok.inj hrest)
        rw [vportSetFound_failed hfound herr, Function.update_eq_self, Function.update_eq_self]

/-- The local vport of a datapath, which has the portid 5. -/
def localSettings : SettingsState Unit where
  toVportState := ovsDpCmdNew VportState.init 0 7
  settings _ _ := ⟨ovsInternalVportOps Unit, by simp [vportOps], (), some ⟨reciprocalValue 1, 1, [5]⟩⟩

/-- Options and a good portid: neither is set. -/
theorem ovsVportCmdSet_failed_options :
    (ovsVportCmdSet ⟨true, true, fun _ => true⟩ ⟨.number 7 0, none, some [], some [6, 0, 0, 0]⟩ localSettings) =
      .ok (eopnotsupp, localSettings) := by
  have hrun : ∃ s', ovsVportCmdSet ⟨true, true, fun _ => true⟩
      ⟨.number 7 0, none, some [], some [6, 0, 0, 0]⟩ localSettings = .ok (eopnotsupp, s') := ⟨_, rfl⟩
  obtain ⟨s', hs'⟩ := hrun
  rw [hs', ovsVportCmdSet_failed _ _ _ _ _ hs' (by decide)]

end OvsDatapath.Datapath
