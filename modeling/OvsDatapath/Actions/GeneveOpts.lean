import OvsDatapath.Actions.CopyActions
import OvsDatapath.Flow.NdOptions
import OvsDatapath.Lib.Records

/-!
# The options of a Geneve tunnel

A tunnel action can carry Geneve options. They stand at the end of `tun_opts` in the key, one behind the
other, and each tells its own length in units of four bytes. `validate_geneve_opts` (`flow_netlink.c`) goes
through them with a pointer and the number of bytes that are left.

`geneveOptsLoop` is this loop with its pointer: a byte outside of the options that it looked at would be a
fault. `validateGeneveOpts` works on the options as a list. They agree, and the list is accepted exactly if
it is a sequence of options, `GeneveOpt.bytes` of each, without a gap and without a rest.
-/

namespace OvsDatapath.Actions

open OvsDatapath.Lib OvsDatapath.Flow

/-! ## Options -/

/-- `struct geneve_opt`, with the data that the header announces. -/
structure GeneveOpt where
  opt_class : BitVec 16
  type : BitVec 8
  r1_r2_r3 : BitVec 3
  length : BitVec 5
  opt_data : List (BitVec 8)
  opt_data_length : opt_data.length = length.toNat * 4

namespace GeneveOpt

/-- The option as it lies in memory. -/
def bytes (option : GeneveOpt) : List (BitVec 8) :=
  be16 option.opt_class ++ option.type :: (option.r1_r2_r3 ++ option.length) :: option.opt_data

/-- `GENEVE_CRIT_OPT_TYPE` is set. -/
def critical (option : GeneveOpt) : Bool := option.type &&& 0x80 != 0

end GeneveOpt

/-- The byte with the length of an option is the fourth one of the header. -/
def geneveFormat : RecordFormat (BitVec 8) where
  header := 4
  size l := 4 + (byteAt l 3 &&& 0x1F).toNat * 4
  header_pos := Nat.zero_lt_succ 3
  header_le _ := Nat.le_add_right ..
  size_append r l hlength := by
    have hbyte : byteAt (r ++ l) 3 = byteAt r 3 := by
      rw [byteAt, List.getD_eq_getElem?_getD, List.getElem?_append_left hlength]
      exact (List.getD_eq_getElem?_getD ..).symm
    rw [hbyte]

/-- The length that stands in the low bits of a byte. -/
theorem low_bits (r1_r2_r3 : BitVec 3) (length : BitVec 5) :
    ((r1_r2_r3 ++ length) &&& 0x1F).toNat = length.toNat := by
  have hmask : (0x1F : BitVec 8).toNat = 2 ^ 5 - 1 := rfl
  rw [BitVec.toNat_and, hmask, Nat.and_two_pow_sub_one_eq_mod, BitVec.toNat_append, Nat.or_mod_two_pow,
    Nat.shiftLeft_eq, Nat.mul_mod_left, Nat.zero_or, Nat.mod_eq_of_lt length.isLt]

theorem GeneveOpt.isRecord (option : GeneveOpt) : geneveFormat.IsRecord option.bytes := by
  have hsize : geneveFormat.size option.bytes = 4 + option.length.toNat * 4 := by
    rw [← low_bits option.r1_r2_r3 option.length]
    rfl
  have hlength : option.bytes.length = option.opt_data.length + 4 := rfl
  rw [RecordFormat.IsRecord, hsize, hlength, option.opt_data_length, Nat.add_comm]

/-- The two bytes of a number, in network order. -/
theorem be16_append (a b : BitVec 8) : be16 (a ++ b) = [a, b] := by
  have hhigh : ((a ++ b) >>> 8).setWidth 8 = a := by
    apply BitVec.eq_of_getLsbD_eq
    intro i hi
    rw [BitVec.getLsbD_setWidth, BitVec.getLsbD_ushiftRight, BitVec.getLsbD_append]
    simp [hi]
  have hlow : (a ++ b).setWidth 8 = b := by
    apply BitVec.eq_of_getLsbD_eq
    intro i hi
    rw [BitVec.getLsbD_setWidth, BitVec.getLsbD_append]
    simp [hi]
  rw [be16, hhigh, hlow]

/-- Nothing is a record but the bytes of an option. -/
theorem isRecord_iff {r : List (BitVec 8)} :
    geneveFormat.IsRecord r ↔ ∃ option : GeneveOpt, option.bytes = r := by
  constructor
  · intro h
    have hheader : 4 ≤ r.length := h.header_le_length
    match r, h, hheader with
    | a :: b :: type :: flags :: opt_data, h, _ =>
        have hflags : flags.extractLsb' 5 3 ++ flags.extractLsb' 0 5 = flags :=
          BitVec.extractLsb'_append_extractLsb'
        have hsize : opt_data.length = (flags.extractLsb' 0 5).toNat * 4 := by
          have hlength : opt_data.length + 4 = 4 + (flags &&& 0x1F).toNat * 4 := h
          rw [← low_bits (flags.extractLsb' 5 3), hflags]
          omega
        refine ⟨⟨a ++ b, type, flags.extractLsb' 5 3, flags.extractLsb' 0 5, opt_data, hsize⟩, ?_⟩
        rw [GeneveOpt.bytes, be16_append, hflags]
        rfl
  · rintro ⟨option, rfl⟩
    exact option.isRecord

/-- A list of records is a list of options. -/
theorem tiles_options_iff {l : List (BitVec 8)} {rs : List (List (BitVec 8))} :
    geneveFormat.Tiles l rs ↔
      ∃ options : List GeneveOpt, rs = options.map GeneveOpt.bytes ∧ l = options.flatMap GeneveOpt.bytes := by
  constructor
  · rintro ⟨hrecords, rfl⟩
    have hall : ∃ options : List GeneveOpt, rs = options.map GeneveOpt.bytes := by
      induction rs with
      | nil => exact ⟨[], rfl⟩
      | cons r rs ih =>
          rw [List.forall_mem_cons] at hrecords
          obtain ⟨option, rfl⟩ := isRecord_iff.mp hrecords.1
          obtain ⟨options, rfl⟩ := ih hrecords.2
          exact ⟨option :: options, rfl⟩
    obtain ⟨options, rfl⟩ := hall
    exact ⟨options, rfl, (List.flatMap_def ..).symm⟩
  · rintro ⟨options, rfl, rfl⟩
    refine ⟨?_, (List.flatMap_def ..).symm⟩
    simp only [List.forall_mem_map]
    exact fun option _ => option.isRecord

theorem any_critical (options : List GeneveOpt) :
    ((options.map GeneveOpt.bytes).any fun r => byteAt r 2 &&& 0x80 != 0) = options.any GeneveOpt.critical := by
  rw [List.any_map]
  rfl

/-- The same bytes are not two different sequences. -/
theorem any_critical_unique {options options' : List GeneveOpt}
    (h : options.flatMap GeneveOpt.bytes = options'.flatMap GeneveOpt.bytes) :
    options.any GeneveOpt.critical = options'.any GeneveOpt.critical := by
  have htiles := tiles_options_iff.mpr ⟨options, rfl, rfl⟩
  have htiles' := tiles_options_iff.mpr ⟨options', rfl, h⟩
  rw [← any_critical, ← any_critical, htiles.unique htiles']

/-! ## The loop -/

@[simp] theorem geneveOptsCritical_nil (fuel : Nat) : geneveOptsCritical fuel [] = .ok false := by
  cases fuel <;> rfl

/-- One round for options that are not at their end. -/
theorem geneveOptsCritical_round {l : List (BitVec 8)} (hl : l ≠ []) (fuel : Nat) :
    geneveOptsCritical (fuel + 1) l =
      if l.length < 4 then .error einval
      else if l.length < geneveFormat.size l then .error einval
      else
        geneveOptsCritical fuel (l.drop (geneveFormat.size l)) >>= fun crit_opt =>
          .ok (byteAt l 2 &&& 0x80 != 0 || crit_opt) := by
  rw [geneveOptsCritical, if_neg (by simpa using hl)]
  rfl

/-- The list is accepted exactly if it is tiled, and the result is whether a record has the bit. -/
theorem geneveOptsCritical_ok_iff {fuel : Nat} {l : List (BitVec 8)} {crit_opt : Bool} (hfuel : l.length ≤ fuel) :
    geneveOptsCritical fuel l = .ok crit_opt ↔
      ∃ rs, geneveFormat.Tiles l rs ∧ crit_opt = rs.any fun r => byteAt r 2 &&& 0x80 != 0 := by
  induction fuel generalizing l crit_opt with
  | zero =>
      obtain rfl := List.eq_nil_of_length_eq_zero (Nat.le_zero.mp hfuel)
      simp only [RecordFormat.tiles_nil_iff, exists_eq_left, List.any_nil, geneveOptsCritical_nil]
      exact ⟨fun h => (Except.ok.inj h).symm, fun h => congrArg _ h.symm⟩
  | succ fuel ih =>
      by_cases hempty : l = []
      · subst hempty
        simp only [RecordFormat.tiles_nil_iff, exists_eq_left, List.any_nil, geneveOptsCritical_nil]
        exact ⟨fun h => (Except.ok.inj h).symm, fun h => congrArg _ h.symm⟩
      rw [geneveOptsCritical_round hempty]
      -- what the two checks reject is not a record
      simp only [RecordFormat.tiles_iff hempty]
      by_cases hheader : l.length < 4
      · rw [if_pos hheader]
        refine iff_of_false nofun ?_
        rintro ⟨_, ⟨hlong, -, -⟩, -⟩
        exact absurd hlong (Nat.not_le.mpr hheader)
      rw [if_neg hheader]
      by_cases hsize : l.length < geneveFormat.size l
      · rw [if_pos hsize]
        refine iff_of_false nofun ?_
        rintro ⟨_, ⟨-, hlong, -⟩, -⟩
        exact absurd hlong (Nat.not_le.mpr hsize)
      rw [if_neg hsize, bind_eq_ok]
      have htype : byteAt (l.take (geneveFormat.size l)) 2 = byteAt l 2 := by
        have htwo : 2 < geneveFormat.size l := Nat.lt_of_lt_of_le (by decide : 2 < 4) (geneveFormat.header_le l)
        rw [byteAt, byteAt, List.getD_eq_getElem?_getD, List.getD_eq_getElem?_getD, List.getElem?_take, if_pos htwo]
      have hrest : (l.drop (geneveFormat.size l)).length ≤ fuel := by
        have := geneveFormat.size_pos l
        rw [List.length_drop]
        omega
      constructor
      · rintro ⟨crit_opt', hcritical, hok⟩
        obtain ⟨rs, htiles, rfl⟩ := (ih hrest).mp hcritical
        refine ⟨_, ⟨Nat.not_lt.mp hheader, Nat.not_lt.mp hsize, rs, rfl, htiles⟩, ?_⟩
        rw [List.any_cons, htype]
        exact (Except.ok.inj hok).symm
      · rintro ⟨_, ⟨-, -, rs, rfl, htiles⟩, rfl⟩
        refine ⟨_, (ih hrest).mpr ⟨rs, htiles, rfl⟩, ?_⟩
        rw [List.any_cons, htype]

/-- A byte that the pointer of `validate_geneve_opts` is used for. The options are the last bytes of
`tun_opts`, which has 255. -/
def readOpt (key : SwFlowKey) (off : Nat) : Except MemFault (BitVec 8) :=
  if 255 - (key.u8 255).toNat ≤ off ∧ off < 255 then .ok (key.u8 off) else .error .outOfBounds

/-- The loop of `validate_geneve_opts`, for a number of rounds. -/
def geneveOptsLoop (key : SwFlowKey) : Nat → Nat → Int → Bool → Except MemFault (Except Int Bool)
  | 0, _, _, _ => .error .endless
  | fuel + 1, option, opts_len, crit_opt =>
      if 0 < opts_len then
        if opts_len < 4 then .ok (.error einval)
        else do
          let length ← readOpt key (option + 3)
          let len := 4 + (length &&& 0x1F).toNat * 4
          if opts_len < len then .ok (.error einval)
          else do
            let type ← readOpt key (option + 2)
            geneveOptsLoop key fuel (option + len) (opts_len - len) (crit_opt || type &&& 0x80 != 0)
      else .ok (.ok crit_opt)

/-- `validate_geneve_opts`, with its pointer. -/
def validateGeneveOptsAt (key : SwFlowKey) : Except MemFault (Except Int SwFlowKey) := do
  let tun_opts_len := (key.u8 255).toNat
  let crit_opt ← geneveOptsLoop key (tun_opts_len + 1) (255 - tun_opts_len) tun_opts_len false
  .ok (crit_opt.map fun crit_opt => if crit_opt then key.setU8 296 (key.u8 296 ||| 0x04) else key)

section Loop

variable {key : SwFlowKey} {off opts_len : Nat}

theorem readOpt_of_between (hstart : 255 - (key.u8 255).toNat ≤ off) (hend : off < 255) :
    readOpt key off = .ok (key.u8 off) := if_pos ⟨hstart, hend⟩

theorem byteAt_keyBytes {i : Nat} (hi : i < opts_len) : byteAt (key.bytes off opts_len) i = key.u8 (off + i) := by
  rw [byteAt, SwFlowKey.bytes, List.getD_eq_getElem?_getD, List.getElem?_map, List.getElem?_range hi]
  rfl

theorem drop_keyBytes (n : Nat) : (key.bytes off opts_len).drop n = key.bytes (off + n) (opts_len - n) := by
  apply List.ext_getElem
  · simp
  · intro i _ _
    simp only [SwFlowKey.bytes, List.getElem_drop, List.getElem_map, List.getElem_range, Nat.add_assoc]

/-- Pointer and length advance together, so no byte outside of the options is looked at. -/
theorem geneveOptsLoop_eq {fuel option : Nat} {crit_opt : Bool} (hstart : 255 - (key.u8 255).toNat ≤ option)
    (hend : option + opts_len = 255) (hfuel : opts_len ≤ fuel) :
    geneveOptsLoop key (fuel + 1) option opts_len crit_opt =
      .ok ((geneveOptsCritical fuel (key.bytes option opts_len)).map (crit_opt || ·)) := by
  induction fuel generalizing option opts_len crit_opt with
  | zero =>
      obtain rfl := Nat.le_zero.mp hfuel
      rw [geneveOptsLoop, if_neg (by simp), geneveOptsCritical, Except.map, Bool.or_false]
  | succ fuel ih =>
      by_cases hzero : opts_len = 0
      · subst hzero
        have hnil : key.bytes option 0 = [] := rfl
        rw [geneveOptsLoop, if_neg (by simp), hnil, geneveOptsCritical_nil, Except.map, Bool.or_false]
      have hne : key.bytes option opts_len ≠ [] := by
        apply List.ne_nil_of_length_pos
        rw [SwFlowKey.bytes_length]
        exact Nat.pos_of_ne_zero hzero
      rw [geneveOptsLoop, if_pos (by omega), geneveOptsCritical_round hne, SwFlowKey.bytes_length]
      by_cases hheader : opts_len < 4
      · rw [if_pos (by omega), if_pos hheader]
        rfl
      have hlen : geneveFormat.size (key.bytes option opts_len) =
          4 + (key.u8 (option + 3) &&& 0x1F).toNat * 4 := by
        rw [← byteAt_keyBytes (by omega : 3 < opts_len)]
        rfl
      rw [if_neg (by omega), if_neg hheader, readOpt_of_between (by omega) (by omega), ok_bind, ← hlen]
      by_cases hsize : opts_len < geneveFormat.size (key.bytes option opts_len)
      · rw [if_pos (by omega), if_pos hsize]
        rfl
      rw [if_neg (by omega), if_neg hsize, readOpt_of_between (by omega) (by omega), ok_bind]
      have hcast : ((opts_len : Int) - (geneveFormat.size (key.bytes option opts_len) : Nat)) =
          ((opts_len - geneveFormat.size (key.bytes option opts_len) : Nat) : Int) := by omega
      rw [hcast, ih (by omega) (by omega) (by omega), drop_keyBytes, byteAt_keyBytes (by omega)]
      cases geneveOptsCritical fuel _ with
      | error => rfl
      | ok crit_opt' => simp only [Except.map, ok_bind, Bool.or_assoc]

/-- The pointer stays within the options, and the loop comes to its end. -/
theorem validateGeneveOptsAt_eq (key : SwFlowKey) : validateGeneveOptsAt key = .ok (validateGeneveOpts key) := by
  have hlt := (key.u8 255).isLt
  rw [validateGeneveOptsAt, geneveOptsLoop_eq le_rfl (by omega) le_rfl, ok_bind, validateGeneveOpts]
  show Except.ok (Except.map _ (Except.map _ (geneveOptsCritical _ (key.bytes _ _)))) =
    Except.ok (geneveOptsCritical _ (key.bytes _ _) >>= _)
  cases geneveOptsCritical (key.u8 255).toNat (key.bytes (255 - (key.u8 255).toNat) (key.u8 255).toNat) with
  | error => rfl
  | ok crit_opt => rfl

/-- The key is accepted exactly if its options are a sequence of options, and then a flag is set if one of
them has to be understood. -/
theorem validateGeneveOpts_ok_iff {key' : SwFlowKey} :
    validateGeneveOpts key = .ok key' ↔
      ∃ options : List GeneveOpt, key.tunMetadataOpts (key.u8 255).toNat = options.flatMap GeneveOpt.bytes ∧
        key' = if options.any GeneveOpt.critical then key.setU8 296 (key.u8 296 ||| 0x04) else key := by
  rw [validateGeneveOpts, bind_eq_ok]
  constructor
  · rintro ⟨crit_opt, hcritical, hok⟩
    obtain ⟨rs, htiles, rfl⟩ := (geneveOptsCritical_ok_iff (by simp)).mp hcritical
    obtain ⟨options, rfl, hbytes⟩ := tiles_options_iff.mp htiles
    refine ⟨options, hbytes, ?_⟩
    rw [← any_critical]
    exact (Except.ok.inj hok).symm
  · rintro ⟨options, hbytes, rfl⟩
    refine ⟨options.any GeneveOpt.critical, ?_, rfl⟩
    rw [geneveOptsCritical_ok_iff (by simp)]
    exact ⟨_, tiles_options_iff.mpr ⟨options, rfl, hbytes⟩, (any_critical options).symm⟩

end Loop

/-! ## What is accepted -/

/-- `TUNNEL_CRIT_OPT`. -/
def tunnelCritOpt : BitVec 16 := 0x0400

theorem setU8_296 (key : SwFlowKey) (v : BitVec 8) :
    (key.setU8 296 v).u8 296 = v ∧ ∀ off, off ≠ 296 → (key.setU8 296 v).u8 off = key.u8 off := by
  constructor
  · rfl
  · intro off hoff
    simp only [SwFlowKey.u8, SwFlowKey.setU8, if_neg hoff]

/-- The options of a request are put at the end of `tun_opts`. -/
theorem genevTunOptFromNlattr_opts {key : SwFlowKey} {data : List (BitVec 8)} {stores : KeyStores}
    (h : genevTunOptFromNlattr key data false = .ok stores) :
    ((key.store stores).u8 255).toNat = data.length ∧ (key.store stores).tunMetadataOpts data.length = data := by
  unfold genevTunOptFromNlattr at h
  split at h
  case isTrue => cases h
  case isFalse hlen =>
    rw [if_neg (by simp)] at h
    obtain rfl := Except.ok.inj h
    obtain ⟨hle, -⟩ := not_or.mp hlen
    constructor
    · have hlast : stored [⟨255, [BitVec.ofNat 8 data.length]⟩, ⟨255 - data.length, data⟩] 255 =
          some (BitVec.ofNat 8 data.length) := by
        rw [stored, stored_eq_none_iff _ _ |>.mpr]
        · rfl
        · simp only [reaches_cons, reaches_nil, or_false]
          omega
      rw [if_neg (by simp), SwFlowKey.store_u8_of_stored hlast (by decide), BitVec.toNat_ofNat]
      exact Nat.mod_eq_of_lt (by omega)
    · exact SwFlowKey.bytes_store key [_] [] rfl (by unfold swFlowKeySize; omega) fun j _ _ => id

/-- `validate_geneve_opts` comes to its end and looks at the options only, as many bytes as `tun_opts_len`
says. It accepts them exactly if they are a sequence of Geneve options, and sets `TUNNEL_CRIT_OPT` exactly if
one of these is critical. The rest of the key stays, and with it all other flags. What
`genev_tun_opt_from_nlattr` leaves in a key are the bytes of the attribute. -/
theorem validateGeneveOpts_grammar (key : SwFlowKey) :
    validateGeneveOptsAt key = .ok (validateGeneveOpts key) ∧
      ((∃ key', validateGeneveOpts key = .ok key') ↔
        ∃ options : List GeneveOpt, key.tunMetadataOpts (key.u8 255).toNat = options.flatMap GeneveOpt.bytes) ∧
      (∀ options : List GeneveOpt, ∀ key', key.tunMetadataOpts (key.u8 255).toNat = options.flatMap GeneveOpt.bytes →
        validateGeneveOpts key = .ok key' →
        key'.be16 296 = key.be16 296 ||| (if ∃ option ∈ options, option.critical then tunnelCritOpt else 0) ∧
          ∀ off, off ≠ 296 → key'.u8 off = key.u8 off) ∧
      ∀ data stores, genevTunOptFromNlattr key data false = .ok stores →
        ((key.store stores).u8 255).toNat = data.length ∧
          (key.store stores).tunMetadataOpts data.length = data := by
  refine ⟨validateGeneveOptsAt_eq key, ?_, ?_, fun data stores => genevTunOptFromNlattr_opts⟩
  · simp only [validateGeneveOpts_ok_iff]
    constructor
    · rintro ⟨_, options, hbytes, -⟩
      exact ⟨options, hbytes⟩
    · rintro ⟨options, hbytes⟩
      exact ⟨_, options, hbytes, rfl⟩
  · intro options key' hbytes hok
    obtain ⟨options', hbytes', rfl⟩ := validateGeneveOpts_ok_iff.mp hok
    have hcritical : options'.any GeneveOpt.critical = true ↔ ∃ option ∈ options, option.critical := by
      rw [any_critical_unique (hbytes' ▸ hbytes)]
      exact List.any_eq_true
    obtain ⟨hself, hother⟩ := setU8_296 key (key.u8 296 ||| 0x04)
    by_cases hexists : ∃ option ∈ options, option.critical
    · rw [if_pos (hcritical.mpr hexists), if_pos hexists]
      refine ⟨?_, hother⟩
      have hflags : tunnelCritOpt = (0x04 : BitVec 8) ++ (0 : BitVec 8) := rfl
      rw [SwFlowKey.be16, SwFlowKey.be16, hself, hother 297 (by simp), hflags, BitVec.or_append]
      simp
    · rw [if_neg (mt hcritical.mp hexists), if_neg hexists]
      exact ⟨BitVec.or_zero.symm, fun _ _ => rfl⟩

end OvsDatapath.Actions
