import OvsDatapath.Flow.Key

/-!
# Masks

A flow mask is a key-shaped bit pattern together with the byte range that it covers
(`struct sw_flow_mask`). `flow_table.c` masks, compares and hashes keys over that range only, in
steps of a `long`; bytes outside it are left alone, even unread.

A mask that comes out of `ovs_nla_get_match` starts zeroed, and every store into it widens the range
first (`update_range`). `BuiltMask` describes such masks by their stores, and `BuiltMask.aligned`
states what the lookups rely on: the range is a range of whole words, and the mask is zero outside
it. For such a mask, masking and comparing over the range decide equality of whole masked keys
(`agreeOn_maskKey_iff`).
-/

namespace OvsDatapath.Flow

/-- `sizeof(long)`. -/
abbrev sizeofLong : Nat := 8

/-- `struct sw_flow_key_range`; `stop` is the source's `end`. -/
structure SwFlowKeyRange where
  start : Nat
  stop : Nat
  deriving DecidableEq, Repr

/-- `struct sw_flow_mask`, without the reference count that a mask in the table has. -/
structure SwFlowMask where
  range : SwFlowKeyRange
  key : SwFlowKey
  deriving DecidableEq

/-- `range_n_bytes`. -/
def rangeNBytes (range : SwFlowKeyRange) : Nat := range.stop - range.start

/-! ## Building a mask -/

/-- `update_range` on the range of the mask. -/
def updateRange (range : SwFlowKeyRange) (offset size : Nat) : SwFlowKeyRange :=
  let start := offset / sizeofLong * sizeofLong
  let stop := (offset + size + (sizeofLong - 1)) / sizeofLong * sizeofLong
  if range.start = range.stop then ⟨start, stop⟩
  else ⟨min range.start start, max range.stop stop⟩

/-- A store into the mask: `SW_FLOW_KEY_PUT`, `SW_FLOW_KEY_MEMCPY`, `SW_FLOW_KEY_MEMCPY_OFFSET` or
`SW_FLOW_KEY_MEMSET_FIELD` with `is_mask` set, for a field or a stretch inside the key. -/
structure MaskStore where
  offset : Nat
  bytes : List (BitVec 8)
  fits : offset + bytes.length ≤ swFlowKeySize

/-- What such a store does: widen the range, then write the bytes. -/
def MaskStore.apply (store : MaskStore) (mask : SwFlowMask) : SwFlowMask where
  range := updateRange mask.range store.offset store.bytes.length
  key := fun j =>
    if store.offset ≤ j ∧ (j : Nat) < store.offset + store.bytes.length then
      store.bytes.getD (j - store.offset) 0
    else mask.key j

/-- The mask that `ovs_match_init` leaves. -/
def zeroMask : SwFlowMask := ⟨⟨0, 0⟩, fun _ => 0⟩

/-- A mask that some sequence of stores has built. -/
def BuiltMask (mask : SwFlowMask) : Prop :=
  ∃ stores : List MaskStore, mask = stores.foldl (fun m store => store.apply m) zeroMask

/-- The range covers whole words of the key, and the mask is zero outside it. -/
structure SwFlowMask.Aligned (mask : SwFlowMask) : Prop where
  start_dvd : sizeofLong ∣ mask.range.start
  stop_dvd : sizeofLong ∣ mask.range.stop
  start_le : mask.range.start ≤ mask.range.stop
  stop_le : mask.range.stop ≤ swFlowKeySize
  zero_outside : ∀ j : Fin swFlowKeySize,
    ¬ (mask.range.start ≤ j ∧ (j : Nat) < mask.range.stop) → mask.key j = 0

theorem zeroMask_aligned : zeroMask.Aligned :=
  ⟨dvd_zero _, dvd_zero _, le_rfl, Nat.zero_le _, fun _ _ => rfl⟩

/-- The widened range is a range of words again, holds the store, and holds the old range unless
that was empty. -/
theorem updateRange_spec {range : SwFlowKeyRange} {offset size : Nat} (hstart : 8 ∣ range.start)
    (hstop : 8 ∣ range.stop) (hle : range.start ≤ range.stop) (hsize : range.stop ≤ 464)
    (hfits : offset + size ≤ 464) :
    let r := updateRange range offset size
    8 ∣ r.start ∧ 8 ∣ r.stop ∧ r.start ≤ r.stop ∧ r.stop ≤ 464 ∧
      r.start ≤ offset ∧ offset + size ≤ r.stop ∧
      (range.start = range.stop ∨ r.start ≤ range.start ∧ range.stop ≤ r.stop) := by
  simp only [updateRange, sizeofLong]
  by_cases hempty : range.start = range.stop
  · rw [if_pos hempty]
    dsimp only
    omega
  · rw [if_neg hempty]
    dsimp only
    omega

theorem MaskStore.apply_aligned {mask : SwFlowMask} (h : mask.Aligned) (store : MaskStore) :
    (store.apply mask).Aligned := by
  obtain ⟨hstart, hstop, hle, hsize, hlo, hhi, hold⟩ :=
    updateRange_spec h.start_dvd h.stop_dvd h.start_le h.stop_le store.fits
  refine ⟨hstart, hstop, hle, hsize, fun j hj => ?_⟩
  have hj' : ¬ ((updateRange mask.range store.offset store.bytes.length).start ≤ j ∧
      (j : Nat) < (updateRange mask.range store.offset store.bytes.length).stop) := hj
  have hout : ¬ (store.offset ≤ (j : Nat) ∧ (j : Nat) < store.offset + store.bytes.length) := by
    omega
  show (if _ then _ else mask.key j) = _
  rw [if_neg hout]
  exact h.zero_outside j (by omega)

/-- A built mask is zero outside its range, which is a range of words. -/
theorem BuiltMask.aligned {mask : SwFlowMask} (h : BuiltMask mask) : mask.Aligned := by
  obtain ⟨stores, rfl⟩ := h
  have hall : ∀ m : SwFlowMask, m.Aligned →
      (stores.foldl (fun m store => store.apply m) m).Aligned := by
    induction stores with
    | nil => exact fun _ hm => hm
    | cons store stores ih => exact fun m hm => ih _ (MaskStore.apply_aligned hm store)
  exact hall zeroMask zeroMask_aligned

/-! ## Masking -/

/-- One turn of the loop of `ovs_flow_mask_key`: the `long` at an offset. -/
def maskLong (dst src mask : SwFlowKey) (off : Nat) : SwFlowKey :=
  fun j => if off ≤ j ∧ (j : Nat) < off + sizeofLong then src j &&& mask j else dst j

/-- The loop, for a number of turns. -/
def maskLongs (src mask : SwFlowKey) : Nat → Nat → SwFlowKey → SwFlowKey
  | 0, _, dst => dst
  | n + 1, off, dst => maskLongs src mask n (off + sizeofLong) (maskLong dst src mask off)

/-- `ovs_flow_mask_key`. The bytes of `dst` that it does not write are those it had before. -/
def ovsFlowMaskKey (dst src : SwFlowKey) (full : Bool) (mask : SwFlowMask) : SwFlowKey :=
  let start := if full then 0 else mask.range.start
  let len := if full then swFlowKeySize else rangeNBytes mask.range
  maskLongs src mask.key ((len + (sizeofLong - 1)) / sizeofLong) start dst

theorem maskLongs_apply (src mask : SwFlowKey) (n off : Nat) (dst : SwFlowKey)
    (j : Fin swFlowKeySize) :
    maskLongs src mask n off dst j =
      if off ≤ j ∧ (j : Nat) < off + sizeofLong * n then src j &&& mask j else dst j := by
  induction n generalizing off dst with
  | zero =>
      rw [maskLongs, if_neg (by omega)]
  | succ n ih =>
      rw [maskLongs, ih, maskLong]
      simp only [sizeofLong]
      by_cases h₁ : off + 8 ≤ (j : Nat) ∧ (j : Nat) < off + 8 + 8 * n
      · rw [if_pos h₁, if_pos (by omega)]
      · rw [if_neg h₁]
        by_cases h₂ : off ≤ (j : Nat) ∧ (j : Nat) < off + 8
        · rw [if_pos h₂, if_pos (by omega)]
        · rw [if_neg h₂, if_neg (by omega)]

/-- The bytes of a key under a mask. -/
def SwFlowKey.masked (key mask : SwFlowKey) : SwFlowKey := fun j => key j &&& mask j

/-- In full, every byte is masked. -/
theorem ovsFlowMaskKey_full (dst src : SwFlowKey) (mask : SwFlowMask) :
    ovsFlowMaskKey dst src true mask = src.masked mask.key := by
  funext j
  have hj := j.isLt
  rw [ovsFlowMaskKey, maskLongs_apply, if_pos]
  · rfl
  · simp only [if_true, sizeofLong, swFlowKeySize] at hj ⊢
    omega

/-- Otherwise, the bytes of the mask's range are. -/
theorem ovsFlowMaskKey_apply (dst src : SwFlowKey) {mask : SwFlowMask} (h : mask.Aligned)
    {j : Fin swFlowKeySize} (hlo : mask.range.start ≤ j) (hhi : (j : Nat) < mask.range.stop) :
    ovsFlowMaskKey dst src false mask j = src.masked mask.key j := by
  obtain ⟨⟨a, ha⟩, ⟨b, hb⟩, hle, -, -⟩ := h
  simp only [sizeofLong] at ha hb
  rw [ovsFlowMaskKey, maskLongs_apply, if_pos]
  · rfl
  · simp only [rangeNBytes, Bool.false_eq_true, if_false, sizeofLong]
    omega

/-! ## Comparing and hashing -/

/-- The `long` at an offset, as its bytes. -/
def SwFlowKey.long (key : SwFlowKey) (off : Nat) : List (BitVec 8) :=
  (List.range sizeofLong).map fun i => key.u8 (off + i)

/-- `cmp_key`: no `long` from `key_start` up to `key_end` differs. -/
def cmpKey (key1 key2 : SwFlowKey) (key_start key_end : Nat) : Bool :=
  (List.range ((key_end - key_start + (sizeofLong - 1)) / sizeofLong)).all fun i =>
    key1.long (key_start + sizeofLong * i) == key2.long (key_start + sizeofLong * i)

/-- `flow_hash`: the words of the range, hashed. -/
def flowHash (jhash2 : List (BitVec 32) → BitVec 32) (key : SwFlowKey) (range : SwFlowKeyRange) :
    BitVec 32 :=
  jhash2 ((List.range ((range.stop - range.start) / 4)).map fun i => key.u32 (range.start + 4 * i))

/-- Two keys agree on a range of bytes. -/
def AgreeOn (range : SwFlowKeyRange) (key1 key2 : SwFlowKey) : Prop :=
  ∀ j : Fin swFlowKeySize, range.start ≤ j → (j : Nat) < range.stop → key1 j = key2 j

theorem AgreeOn.u8 {range : SwFlowKeyRange} {key1 key2 : SwFlowKey} (h : AgreeOn range key1 key2)
    {off : Nat} (hlo : range.start ≤ off) (hhi : off < range.stop) : key1.u8 off = key2.u8 off := by
  rw [SwFlowKey.u8, SwFlowKey.u8]
  split
  · exact h ⟨off, _⟩ hlo hhi
  · rfl

theorem SwFlowKey.long_eq_iff {key1 key2 : SwFlowKey} {off : Nat} :
    key1.long off = key2.long off ↔ ∀ i < sizeofLong, key1.u8 (off + i) = key2.u8 (off + i) := by
  simp [SwFlowKey.long, List.map_inj_left]

/-- Over a range of whole words, `cmp_key` compares bytes. -/
theorem cmpKey_iff {mask : SwFlowMask} (h : mask.Aligned) {key1 key2 : SwFlowKey} :
    cmpKey key1 key2 mask.range.start mask.range.stop = true ↔ AgreeOn mask.range key1 key2 := by
  obtain ⟨⟨a, ha⟩, ⟨b, hb⟩, hle, hstop, -⟩ := h
  simp only [cmpKey, List.all_eq_true, List.mem_range, beq_iff_eq, SwFlowKey.long_eq_iff]
  simp only [sizeofLong, swFlowKeySize] at ha hb hstop ⊢
  constructor
  · intro hall j hlo hhi
    have := hall ((j - mask.range.start) / 8) (by omega) ((j - mask.range.start) % 8) (by omega)
    have hoff : mask.range.start + 8 * ((j - mask.range.start) / 8) + (j - mask.range.start) % 8 =
        (j : Nat) := by omega
    rw [hoff] at this
    simpa [SwFlowKey.u8, j.isLt] using this
  · intro hagree i hi k hk
    exact hagree.u8 (by omega) (by omega)

theorem AgreeOn.u32 {range : SwFlowKeyRange} {key1 key2 : SwFlowKey} (h : AgreeOn range key1 key2)
    {off : Nat} (hlo : range.start ≤ off) (hhi : off + 4 ≤ range.stop) :
    key1.u32 off = key2.u32 off := by
  have h0 : key1.u8 off = key2.u8 off := h.u8 hlo (by omega)
  have h1 : key1.u8 (off + 1) = key2.u8 (off + 1) := h.u8 (by omega) (by omega)
  have h2 : key1.u8 (off + 2) = key2.u8 (off + 2) := h.u8 (by omega) (by omega)
  have h3 : key1.u8 (off + 2 + 1) = key2.u8 (off + 2 + 1) := h.u8 (by omega) (by omega)
  simp only [SwFlowKey.u32, SwFlowKey.u16, h0, h1, h2, h3]

/-- Keys that agree on the range have the same hash. -/
theorem flowHash_congr (jhash2 : List (BitVec 32) → BitVec 32) {range : SwFlowKeyRange}
    {key1 key2 : SwFlowKey} (h : AgreeOn range key1 key2) :
    flowHash jhash2 key1 range = flowHash jhash2 key2 range := by
  have hwords : ∀ i ∈ List.range ((range.stop - range.start) / 4),
      key1.u32 (range.start + 4 * i) = key2.u32 (range.start + 4 * i) := by
    intro i hi
    rw [List.mem_range] at hi
    exact h.u32 (by omega) (by omega)
  simp only [flowHash, List.map_congr_left hwords]

/-- A key that a mask has been applied to. -/
def MaskedBy (key : SwFlowKey) (mask : SwFlowMask) : Prop := key.masked mask.key = key

theorem maskedBy_masked (key : SwFlowKey) (mask : SwFlowMask) :
    MaskedBy (key.masked mask.key) mask := by
  funext j
  simp [SwFlowKey.masked, BitVec.and_assoc]

/-- **Looking at the range is enough.** A masked key agrees on the range with what the lookup has
computed exactly when it is the whole searched key under the mask. -/
theorem agreeOn_maskKey_iff {mask : SwFlowMask} (h : mask.Aligned) {key unmasked stack : SwFlowKey}
    (hkey : MaskedBy key mask) :
    AgreeOn mask.range key (ovsFlowMaskKey stack unmasked false mask) ↔
      unmasked.masked mask.key = key := by
  constructor
  · intro hagree
    funext j
    by_cases hj : mask.range.start ≤ j ∧ (j : Nat) < mask.range.stop
    · rw [← ovsFlowMaskKey_apply stack unmasked h hj.1 hj.2, hagree j hj.1 hj.2]
    · have hzero := h.zero_outside j hj
      rw [← hkey]
      simp [SwFlowKey.masked, hzero]
  · rintro rfl j hlo hhi
    exact (ovsFlowMaskKey_apply stack unmasked h hlo hhi).symm

/-- The same for two keys that have both been masked over the range only. -/
theorem agreeOn_maskKeys_iff {mask : SwFlowMask} (h : mask.Aligned) (key1 key2 stack1 stack2 : SwFlowKey) :
    AgreeOn mask.range (ovsFlowMaskKey stack1 key1 false mask) (ovsFlowMaskKey stack2 key2 false mask) ↔
      key1.masked mask.key = key2.masked mask.key := by
  rw [eq_comm, ← agreeOn_maskKey_iff h (maskedBy_masked key1 mask)]
  apply forall_congr'
  intro j
  apply forall₂_congr
  intro hlo hhi
  rw [ovsFlowMaskKey_apply stack1 key1 h hlo hhi]

end OvsDatapath.Flow
