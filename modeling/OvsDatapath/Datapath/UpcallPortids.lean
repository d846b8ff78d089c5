import OvsDatapath.Lib.MulShift
import OvsDatapath.Flow.Netlink

/-!
# Portids for upcalls

A vport has an array of Netlink portids (`vport.c`), and the hash of a packet selects the one that gets
its upcall: the remainder of the division by the number of portids. The quotient is computed with
`reciprocal_divide`, from a reciprocal that is kept along with the array (`reciprocal_div.c`).
-/

namespace OvsDatapath.Datapath

open OvsDatapath.Lib OvsDatapath.Flow

/-! ## Reciprocals -/

/-- `struct reciprocal_value`. -/
structure ReciprocalValue where
  m : BitVec 32
  sh1 : Nat
  sh2 : Nat
  deriving DecidableEq, Repr

/-- `fls`. -/
def fls (x : BitVec 32) : Nat := Nat.size x.toNat

/-- The dividend in `reciprocal_value`. -/
def reciprocalDividend (d : BitVec 32) : BitVec 64 :=
  (1#64 <<< 32) * ((1#64 <<< fls (d - 1)) - d.setWidth 64)

/-- `reciprocal_value`. -/
def reciprocalValue (d : BitVec 32) : ReciprocalValue :=
  let l := fls (d - 1)
  let m := reciprocalDividend d / d.setWidth 64 + 1
  ⟨m.setWidth 32, min l 1, l - 1⟩

/-- `reciprocal_divide`. -/
def reciprocalDivide (a : BitVec 32) (R : ReciprocalValue) : BitVec 32 :=
  let t := ((a.setWidth 64 * R.m.setWidth 64) >>> 32).setWidth 32
  (t + ((a - t) >>> R.sh1)) >>> R.sh2

/-- Nothing is lost on the way to the reciprocal: no division by zero, no carry out of 64 bits, and
a multiplier of 32 bits. -/
structure ReciprocalFits (d : BitVec 32) : Prop where
  divisor : d.setWidth 64 ≠ (0 : BitVec 64)
  shift : fls (d - 1) < 64
  sub : BitVec.usubOverflow (1#64 <<< fls (d - 1)) (d.setWidth 64) = false
  mul : BitVec.umulOverflow (1#64 <<< 32) ((1#64 <<< fls (d - 1)) - d.setWidth 64) = false
  succ : BitVec.uaddOverflow (reciprocalDividend d / d.setWidth 64) 1 = false
  multiplier : (reciprocalDividend d / d.setWidth 64 + 1).toNat < 2 ^ 32

variable {d : BitVec 32}

theorem fls_pred_le (d : BitVec 32) : fls (d - 1) ≤ 32 := Nat.size_le.mpr (d - 1).isLt

theorem toNat_shift {l : Nat} (hl : l < 64) : (1#64 <<< l).toNat = 2 ^ l := by
  have hlt : 2 ^ l < 2 ^ 64 := Nat.pow_lt_pow_right (by decide) hl
  rw [BitVec.toNat_shiftLeft, Nat.shiftLeft_eq, BitVec.toNat_ofNat, Nat.mod_eq_of_lt (by decide : 1 < 2 ^ 64),
    Nat.one_mul, Nat.mod_eq_of_lt hlt]

theorem toNat_divisor (d : BitVec 32) : (d.setWidth 64).toNat = d.toNat :=
  BitVec.toNat_setWidth_of_le (by decide)

theorem toNat_pos (hd : d ≠ 0) : 0 < d.toNat := by
  rw [Nat.pos_iff_ne_zero]
  exact fun h => hd (BitVec.eq_of_toNat_eq h)

/-- The power of two is the first one that is not below the divisor. -/
theorem fls_pred (hd : d ≠ 0) :
    d.toNat ≤ 2 ^ fls (d - 1) ∧ (fls (d - 1) ≠ 0 → 2 ^ (fls (d - 1) - 1) < d.toNat) := by
  have hpos := toNat_pos hd
  have hpred : (d - 1).toNat = d.toNat - 1 := by bv_omega
  have hlt := Nat.lt_size_self (d - 1).toNat
  refine ⟨?_, fun hne => ?_⟩
  · show d.toNat ≤ 2 ^ Nat.size (d - 1).toNat
    omega
  · have hle : 2 ^ (fls (d - 1) - 1) ≤ (d - 1).toNat := by
      apply Nat.lt_size.mp
      show fls (d - 1) - 1 < fls (d - 1)
      omega
    have : 0 < 2 ^ (fls (d - 1) - 1) := Nat.two_pow_pos _
    omega

/-- The multiplier has 32 bits. -/
theorem recip_fls_lt (hd : d ≠ 0) : recip 32 (fls (d - 1)) d.toNat < 2 ^ 32 := by
  obtain ⟨hle, hlt⟩ := fls_pred hd
  by_cases hzero : fls (d - 1) = 0
  · -- the divisor is one
    have hone : d.toNat = 1 := by
      have := toNat_pos hd
      rw [hzero] at hle
      omega
    rw [hzero, hone]
    decide
  · have hlt := hlt hzero
    have hdouble : 2 ^ fls (d - 1) = 2 * 2 ^ (fls (d - 1) - 1) := by
      rw [← Nat.pow_succ', Nat.succ_eq_add_one, Nat.sub_add_cancel (Nat.pos_of_ne_zero hzero)]
    apply recip_lt
    · have := d.isLt
      omega
    · omega

/-- Nothing overflows before the division. -/
theorem reciprocalDividend_fits (hd : d ≠ 0) :
    BitVec.usubOverflow (1#64 <<< fls (d - 1)) (d.setWidth 64) = false ∧
      BitVec.umulOverflow (1#64 <<< 32) ((1#64 <<< fls (d - 1)) - d.setWidth 64) = false ∧
      (reciprocalDividend d).toNat = 2 ^ 32 * (2 ^ fls (d - 1) - d.toNat) := by
  have hle := (fls_pred hd).1
  have hl := fls_pred_le d
  have hshift := toNat_shift (lt_of_le_of_lt hl (by decide : 32 < 64))
  have hsub : ((1#64 <<< fls (d - 1)) - d.setWidth 64).toNat = 2 ^ fls (d - 1) - d.toNat := by
    rw [BitVec.toNat_sub_of_le, hshift, toNat_divisor]
    rw [BitVec.le_def, hshift, toNat_divisor]
    exact hle
  have hpow : 2 ^ fls (d - 1) ≤ 2 ^ 32 := Nat.pow_le_pow_right (by decide) hl
  have hprod : 2 ^ 32 * (2 ^ fls (d - 1) - d.toNat) < 2 ^ 64 := by
    have := toNat_pos hd
    omega
  have hhigh : (1#64 <<< 32).toNat = 2 ^ 32 := toNat_shift (by decide)
  refine ⟨?_, ?_, ?_⟩
  · rw [BitVec.usubOverflow, hshift, toNat_divisor]
    exact decide_eq_false (Nat.not_lt.mpr hle)
  · rw [BitVec.umulOverflow, hhigh, hsub]
    exact decide_eq_false (Nat.not_le.mpr hprod)
  · rw [reciprocalDividend, BitVec.toNat_mul, hhigh, hsub, Nat.mod_eq_of_lt hprod]

theorem toNat_reciprocalQuotient (hd : d ≠ 0) :
    (reciprocalDividend d / d.setWidth 64).toNat + 1 = recip 32 (fls (d - 1)) d.toNat := by
  rw [BitVec.toNat_udiv, (reciprocalDividend_fits hd).2.2, toNat_divisor, recip]

/-- **The reciprocal is computed without a loss.** -/
theorem reciprocalFits (hd : d ≠ 0) : ReciprocalFits d := by
  obtain ⟨hsub, hmul, -⟩ := reciprocalDividend_fits hd
  have hquot := toNat_reciprocalQuotient hd
  have hrecip := recip_fls_lt hd
  have hone : (1 : BitVec 64).toNat = 1 := rfl
  have hsucc : (reciprocalDividend d / d.setWidth 64 + 1).toNat = recip 32 (fls (d - 1)) d.toNat := by
    rw [BitVec.toNat_add, ← hquot]
    exact Nat.mod_eq_of_lt (by rw [hone]; omega)
  refine ⟨fun h => ?_, lt_of_le_of_lt (fls_pred_le d) (by decide), hsub, hmul, ?_, hsucc ▸ hrecip⟩
  · have hzero := congrArg BitVec.toNat h
    rw [toNat_divisor] at hzero
    exact absurd hzero (toNat_pos hd).ne'
  · rw [BitVec.uaddOverflow]
    exact decide_eq_false (by rw [hone]; omega)

theorem toNat_reciprocalValue_m (hd : d ≠ 0) :
    (reciprocalValue d).m.toNat = recip 32 (fls (d - 1)) d.toNat := by
  have hquot := toNat_reciprocalQuotient hd
  have hrecip := recip_fls_lt hd
  show (BitVec.setWidth 32 (reciprocalDividend d / d.setWidth 64 + 1)).toNat = _
  rw [BitVec.toNat_setWidth, BitVec.toNat_add]
  rw [show (1 : BitVec 64).toNat = 1 from rfl]
  omega

/-- **`reciprocal_divide` divides.** -/
theorem reciprocalDivide_eq (a : BitVec 32) (hd : d ≠ 0) : reciprocalDivide a (reciprocalValue d) = a / d := by
  have hrecip := recip_fls_lt hd
  have hshift := mulShift_recip (toNat_pos hd) (fls_pred hd).1 hrecip.le a.isLt
  have hmul := mul_div_pow_le hrecip.le a.toNat
  have hprod : a.toNat * recip 32 (fls (d - 1)) d.toNat < 2 ^ 64 := by
    calc a.toNat * recip 32 (fls (d - 1)) d.toNat < 2 ^ 32 * 2 ^ 32 :=
          Nat.mul_lt_mul_of_lt_of_le a.isLt hrecip.le (Nat.two_pow_pos _)
      _ = 2 ^ 64 := by norm_num
  have ha := a.isLt
  -- the product and its upper half
  have ht : (((a.setWidth 64 * (reciprocalValue d).m.setWidth 64) >>> 32).setWidth 32).toNat =
      a.toNat * recip 32 (fls (d - 1)) d.toNat / 2 ^ 32 := by
    rw [BitVec.toNat_setWidth, BitVec.toNat_ushiftRight, BitVec.toNat_mul, toNat_divisor, toNat_divisor,
      toNat_reciprocalValue_m hd, Nat.mod_eq_of_lt hprod, Nat.shiftRight_eq_div_pow]
    exact Nat.mod_eq_of_lt (lt_of_le_of_lt hmul ha)
  unfold mulShift at hshift
  generalize a.toNat * recip 32 (fls (d - 1)) d.toNat / 2 ^ 32 = q at hmul ht hshift
  have hhalf : (a.toNat - q) / 2 ^ min (fls (d - 1)) 1 ≤ a.toNat - q := Nat.div_le_self ..
  apply BitVec.eq_of_toNat_eq
  unfold reciprocalDivide
  dsimp only
  rw [BitVec.toNat_udiv, ← hshift, BitVec.toNat_ushiftRight, BitVec.toNat_add, BitVec.toNat_ushiftRight,
    BitVec.toNat_sub_of_le (by rwa [BitVec.le_def, ht]), ht, Nat.shiftRight_eq_div_pow, Nat.shiftRight_eq_div_pow]
  show (q + (a.toNat - q) / 2 ^ min (fls (d - 1)) 1) % 2 ^ 32 / 2 ^ (fls (d - 1) - 1) = _
  rw [Nat.mod_eq_of_lt (by omega)]

/-! ## The array of portids -/

/-- `struct vport_portids`. -/
structure VportPortids where
  rn_ids : ReciprocalValue
  n_ids : BitVec 32
  ids : List (BitVec 32)
  deriving DecidableEq, Repr

/-- `ovs_vport_set_upcall_portids`, with the payload of the attribute: the error and the array of the
vport afterwards. -/
def ovsVportSetUpcallPortids (kmalloc : Bool) (upcall_portids : Option VportPortids) (ids : List (BitVec 8)) :
    Int × Option VportPortids :=
  if ids.length = 0 ∨ ids.length % 4 ≠ 0 then (einval, upcall_portids)
  else if !kmalloc then (enomem, upcall_portids)
  else
    let n_ids := BitVec.ofNat 32 (ids.length / 4)
    (0, some ⟨reciprocalValue n_ids, n_ids, (List.range (ids.length / 4)).map fun i => le32At ids (4 * i)⟩)

/-- The index that `ovs_vport_find_upcall_portid` computes. -/
def idsIndex (ids : VportPortids) (hash : BitVec 32) : BitVec 32 :=
  hash - ids.n_ids * reciprocalDivide hash ids.rn_ids

/-- `ovs_vport_find_upcall_portid`; nothing for a read behind the array. -/
def ovsVportFindUpcallPortid (ids : VportPortids) (hash : BitVec 32) : Option (BitVec 32) :=
  if ids.n_ids = 1 ∧ ids.ids[0]? = some 0 then some 0 else ids.ids[(idsIndex ids hash).toNat]?

/-- An array as long as it says, with its reciprocal. -/
structure VportPortids.Valid (ids : VportPortids) : Prop where
  nonempty : ids.n_ids ≠ 0
  length : ids.ids.length = ids.n_ids.toNat
  rn_ids : ids.rn_ids = reciprocalValue ids.n_ids

/-- The array of a vport is valid, whatever the attribute. -/
theorem valid_ovsVportSetUpcallPortids {kmalloc : Bool} {old new : VportPortids} {attr : List (BitVec 8)} {err : Int}
    (hattr : attr.length < 2 ^ 16) (hold : old.Valid)
    (h : ovsVportSetUpcallPortids kmalloc (some old) attr = (err, some new)) : new.Valid := by
  unfold ovsVportSetUpcallPortids at h
  split_ifs at h with hlen halloc
  · obtain ⟨-, rfl⟩ : _ ∧ old = new := by simpa using h
    exact hold
  · obtain ⟨-, rfl⟩ : _ ∧ old = new := by simpa using h
    exact hold
  · obtain rfl := Option.some.inj (Prod.mk.inj h).2
    have hn : (BitVec.ofNat 32 (attr.length / 4)).toNat = attr.length / 4 := by
      rw [BitVec.toNat_ofNat]
      omega
    refine ⟨fun hzero => ?_, ?_, rfl⟩
    · have hzero' := congrArg BitVec.toNat hzero
      dsimp only at hzero'
      rw [hn] at hzero'
      have : attr.length / 4 = 0 := hzero'
      omega
    · rw [List.length_map, List.length_range]
      exact hn.symm

/-- **The portid of an upcall.** The quotient is exact, for any number of portids and any hash, and the
index is the remainder. -/
theorem ovsVportFindUpcallPortid_mod (n hash : BitVec 32) (hn : n ≠ 0) :
    ReciprocalFits n ∧ reciprocalDivide hash (reciprocalValue n) = hash / n ∧
      ∀ ids : VportPortids, ids.Valid → ids.n_ids = n → idsIndex ids hash = hash % n ∧ hash % n < n ∧
        ∃ id, ids.ids[(hash % n).toNat]? = some id ∧ ovsVportFindUpcallPortid ids hash = some id := by
  refine ⟨reciprocalFits hn, reciprocalDivide_eq hash hn, ?_⟩
  rintro ids ⟨-, hlength, hrn⟩ rfl
  have hindex : idsIndex ids hash = hash % ids.n_ids := by
    rw [idsIndex, hrn, reciprocalDivide_eq hash hn]
    have hdiv := Nat.div_add_mod hash.toNat ids.n_ids.toNat
    have hmul : (ids.n_ids * (hash / ids.n_ids)).toNat = ids.n_ids.toNat * (hash.toNat / ids.n_ids.toNat) := by
      rw [BitVec.toNat_mul, BitVec.toNat_udiv]
      exact Nat.mod_eq_of_lt (by omega)
    apply BitVec.eq_of_toNat_eq
    rw [BitVec.toNat_sub_of_le (by rw [BitVec.le_def, hmul]; omega), hmul, BitVec.toNat_umod]
    omega
  have hmod : (hash % ids.n_ids).toNat < ids.n_ids.toNat := by
    rw [BitVec.toNat_umod]
    exact Nat.mod_lt _ (toNat_pos hn)
  refine ⟨hindex, BitVec.lt_def.mpr hmod, ?_⟩
  have hin : (hash % ids.n_ids).toNat < ids.ids.length := hlength ▸ hmod
  refine ⟨_, List.getElem?_eq_getElem hin, ?_⟩
  unfold ovsVportFindUpcallPortid
  rw [hindex]
  split_ifs with hsingle
  · -- a single portid that is zero is returned at once
    obtain ⟨hone, hzero⟩ := hsingle
    have hfirst : (hash % ids.n_ids).toNat = 0 := by
      rw [hone] at hmod ⊢
      exact Nat.lt_one_iff.mp hmod
    rw [← List.getElem?_eq_getElem hin, hfirst, hzero]
  · exact List.getElem?_eq_getElem hin

/-- Five portids and the largest hash. -/
theorem ovsVportFindUpcallPortid_five : (idsIndex ⟨reciprocalValue 5, 5, [10, 11, 12, 13, 14]⟩ 0xFFFFFFFF) = 0 :=
  ((ovsVportFindUpcallPortid_mod 5 0xFFFFFFFF (by decide)).2.2 _ ⟨by decide, rfl, rfl⟩ rfl).1

end OvsDatapath.Datapath
