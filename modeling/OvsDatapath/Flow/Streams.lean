import OvsDatapath.Flow.Match
import OvsDatapath.Flow.PutKey

/-!
# Reading what has been written

`nlaStream` lays attributes out one behind the other, and `nla_for_each_nested` reads them back if the
header of an attribute can tell its length and its type (`nlaForEachNested_nlaStream`).
`parse_flow_nlattrs` collects them, each by its type: `attrData` is what a list of attributes says of a
type, and `Collects` that this is what has been collected.

Most attributes hold bytes of the key, and most stores put them back to where they were. `Copies` is
said of such stores.
-/

namespace OvsDatapath.Flow

open OvsDatapath.Lib

/-! ## Streams -/

/-- The header can tell the length and the type. -/
def Nlattr.Fits (a : Nlattr) : Prop := nlaHdrlen + a.data.length < 65536 ∧ a.type < 16384

theorem le16At_le16 (v : BitVec 16) (l : List (BitVec 8)) : le16At (le16 v ++ l) 0 = v := be16_bytes v

theorem nlaType_le16 (v w : BitVec 16) (l : List (BitVec 8)) (hw : w.toNat < 16384) :
    nlaType (le16 v ++ (le16 w ++ l)) = w.toNat := by
  have hle : le16At (le16 v ++ (le16 w ++ l)) 2 = w := be16_bytes w
  have hmask : (0x3FFF : BitVec 16).toNat = 2 ^ 14 - 1 := rfl
  rw [nlaType, hle, BitVec.toNat_and, hmask, Nat.and_two_pow_sub_one_eq_mod]
  omega

/-- The attribute at the head of a stream. -/
theorem nlaForEach_putAttr {a : Nlattr} (ha : a.Fits) (fuel : Nat) (l : List (BitVec 8)) :
    nlaForEach (fuel + 1) (nlaPutAttr a ++ l) = (a :: (nlaForEach fuel l).1, (nlaForEach fuel l).2) := by
  obtain ⟨hlen, htype⟩ := ha
  have hsize := nlaPutAttr_length a
  have hnla : nlaPutAttr a ++ l = le16 (BitVec.ofNat 16 (nlaHdrlen + a.data.length)) ++
      (le16 (BitVec.ofNat 16 a.type) ++ (a.data ++
        (List.replicate (nlaAlign a.data.length - a.data.length) 0 ++ l))) := by
    simp only [nlaPutAttr, List.append_assoc]
  have hnlaLen : (BitVec.ofNat 16 (nlaHdrlen + a.data.length)).toNat = nlaHdrlen + a.data.length := by
    rw [BitVec.toNat_ofNat]
    omega
  have hnlaType : (BitVec.ofNat 16 a.type).toNat = a.type := by
    rw [BitVec.toNat_ofNat]
    omega
  have htotal : (nlaPutAttr a ++ l).length = nlaAlign (nlaHdrlen + a.data.length) + l.length := by
    rw [List.length_append, hsize]
    rfl
  have hok : nlaOk (nlaPutAttr a ++ l) = some (nlaHdrlen + a.data.length) := by
    unfold nlaOk
    rw [htotal, hnla, le16At_le16, hnlaLen, if_neg]
    unfold nlaAlign nlaHdrlen
    omega
  have hdata : ((nlaPutAttr a ++ l).take (nlaHdrlen + a.data.length)).drop nlaHdrlen = a.data := by
    rw [hnla, List.drop_take, Nat.add_sub_cancel_left]
    exact List.take_left
  have hrest : (nlaPutAttr a ++ l).drop (nlaAlign (nlaHdrlen + a.data.length)) = l := by
    apply List.drop_left'
    rw [hsize]
    rfl
  rw [nlaForEach, hok]
  dsimp only
  rw [if_neg (by omega), hdata, hrest, hnla, nlaType_le16 _ _ _ (by omega), hnlaType]

theorem nlaForEach_nlaStream {attrs : List Nlattr} (hfits : ∀ a ∈ attrs, a.Fits) :
    ∀ {fuel : Nat}, attrs.length ≤ fuel → nlaForEach fuel (nlaStream attrs) = (attrs, 0) := by
  induction attrs with
  | nil =>
      intro fuel _
      cases fuel with
      | zero => rfl
      | succ fuel => rfl
  | cons a attrs ih =>
      intro fuel hfuel
      obtain ⟨fuel, rfl⟩ := Nat.exists_eq_add_of_lt (show 0 < fuel from Nat.zero_lt_of_lt hfuel)
      show nlaForEach (0 + fuel + 1) (nlaPutAttr a ++ nlaStream attrs) = _
      rw [nlaForEach_putAttr (hfits a List.mem_cons_self),
        ih (fun b hb => hfits b (List.mem_cons_of_mem a hb)) (by simpa using hfuel)]

/-- **A stream is read back** as the attributes that have been written. -/
theorem nlaForEachNested_nlaStream {attrs : List Nlattr} (hfits : ∀ a ∈ attrs, a.Fits) :
    nlaForEachNested (nlaStream attrs) = (attrs, 0) := by
  apply nlaForEach_nlaStream hfits
  rw [nlaStream_length]
  -- every attribute takes four bytes or more
  induction attrs with
  | nil => exact Nat.zero_le _
  | cons a attrs ih =>
      have := ih fun b hb => hfits b (List.mem_cons_of_mem a hb)
      rw [List.length_cons, attrsSize_cons, nlaTotalSize, nlaAlign, nlaHdrlen]
      omega

/-- The attributes of a stream. -/
def attrsOf (l : List (BitVec 8)) : List Nlattr := (nlaForEachNested l).1

/-! ## Attributes by their type -/

/-- What a list of attributes says of a type: the first attribute that has it. -/
def attrData (attrs : List Nlattr) (attr : OvsKeyAttr) : Option (List (BitVec 8)) :=
  (attrs.find? fun a => a.type == ovsKeyAttrs.idxOf attr).map Nlattr.data

theorem ovsKeyAttrs_idxOf (attr : OvsKeyAttr) : ovsKeyAttrs[ovsKeyAttrs.idxOf attr]? = some attr := by
  cases attr <;> rfl

theorem ovsKeyAttrs_idxOf_inj {attr attr' : OvsKeyAttr}
    (h : ovsKeyAttrs.idxOf attr = ovsKeyAttrs.idxOf attr') : attr = attr' := by
  have heq := ovsKeyAttrs_idxOf attr
  rw [h, ovsKeyAttrs_idxOf attr'] at heq
  exact (Option.some.inj heq).symm

theorem ovsKeyAttrs_idxOf_lt (attr : OvsKeyAttr) : ovsKeyAttrs.idxOf attr < 29 :=
  (List.getElem?_eq_some_iff.mp (ovsKeyAttrs_idxOf attr)).1

theorem eq_idxOf {type : Nat} {attr : OvsKeyAttr} (h : ovsKeyAttrs[type]? = some attr) :
    type = ovsKeyAttrs.idxOf attr := by
  have hnodup : ovsKeyAttrs.Nodup := by decide
  obtain ⟨hlt, hget⟩ := List.getElem?_eq_some_iff.mp h
  rw [← hget]
  exact (hnodup.idxOf_getElem type hlt).symm

@[simp] theorem attrData_nil (attr : OvsKeyAttr) : attrData [] attr = none := rfl

@[simp] theorem attrData_cons (attr' : OvsKeyAttr) (data : List (BitVec 8)) (attrs : List Nlattr)
    (attr : OvsKeyAttr) :
    attrData (keyAttr attr' data :: attrs) attr = if attr' = attr then some data else attrData attrs attr := by
  unfold attrData keyAttr
  by_cases h : attr' = attr
  · simp [h]
  · have hne : ovsKeyAttrs.idxOf attr' ≠ ovsKeyAttrs.idxOf attr := fun heq => h (ovsKeyAttrs_idxOf_inj heq)
    simp [h, hne]

@[simp] theorem attrData_append (attrs attrs' : List Nlattr) (attr : OvsKeyAttr) :
    attrData (attrs ++ attrs') attr = (attrData attrs attr).or (attrData attrs' attr) := by
  unfold attrData
  rw [List.find?_append]
  cases attrs.find? fun a => a.type == ovsKeyAttrs.idxOf attr <;> rfl

theorem attrData_ite (c : Prop) [Decidable c] (attrs attrs' : List Nlattr) (attr : OvsKeyAttr) :
    attrData (if c then attrs else attrs') attr = if c then attrData attrs attr else attrData attrs' attr := by
  split_ifs
  · rfl
  · rfl

/-- An attribute of a flow key with the length that it has to have. -/
def Nlattr.Good (a : Nlattr) : Prop :=
  a.Fits ∧ ∃ attr, a.type = ovsKeyAttrs.idxOf attr ∧ checkAttrLen a.data.length (ovsKeyLens attr) = true

theorem keyAttr_good {attr : OvsKeyAttr} {data : List (BitVec 8)}
    (hlen : checkAttrLen data.length (ovsKeyLens attr) = true) (hfits : data.length < 65532) :
    (keyAttr attr data).Good := by
  refine ⟨⟨?_, ?_⟩, attr, rfl, hlen⟩
  · show 4 + data.length < 65536
    omega
  · exact (ovsKeyAttrs_idxOf_lt attr).trans (by decide)

/-- Whether an attribute is collected: zeros are left out if `nz` is set. -/
def keepAttr (nz : Bool) (a : Nlattr) : Bool :=
  match ovsKeyAttrs[a.type]? with
  | none => true
  | some attr => !(nz && isAllZero a.data (ovsKeyLens attr))

/-- The attributes that are collected from a list. -/
def keptAttrs (nz : Bool) (attrs : List Nlattr) : List Nlattr := attrs.filter (keepAttr nz)

/-- The attributes of a list have been collected, over what was there before. -/
structure Collects (p : ParsedAttrs) (attrs : List Nlattr) (p' : ParsedAttrs) : Prop where
  mem_attrs : ∀ attr, attr ∈ p'.attrs ↔ attr ∈ p.attrs ∨ (attrData attrs attr).isSome
  a : ∀ attr, p'.a attr = (attrData attrs attr).or (p.a attr)

theorem attrData_eq_none {attrs : List Nlattr} {attr : OvsKeyAttr}
    (h : ovsKeyAttrs.idxOf attr ∉ attrs.map Nlattr.type) : attrData attrs attr = none := by
  unfold attrData
  rw [Option.map_eq_none_iff, List.find?_eq_none]
  intro a ha heq
  exact h (List.mem_map.mpr ⟨a, ha, by simpa using heq⟩)

theorem keptAttrs_sublist (nz : Bool) (attrs : List Nlattr) : (keptAttrs nz attrs).Sublist attrs :=
  List.filter_sublist

/-- The loop collects one attribute after the other; none of them has been there before. -/
theorem parseFlowNlattrsLoop_collects (nz : Bool) {attrs : List Nlattr} (hgood : ∀ a ∈ attrs, a.Good)
    (hnodup : (attrs.map Nlattr.type).Nodup) :
    ∀ {p : ParsedAttrs}, (∀ attr ∈ p.attrs, ovsKeyAttrs.idxOf attr ∉ attrs.map Nlattr.type) →
      ∃ p', parseFlowNlattrsLoop nz attrs p = .ok p' ∧ Collects p (keptAttrs nz attrs) p' := by
  induction attrs with
  | nil =>
      intro p _
      exact ⟨p, rfl, by simp [keptAttrs], by simp [keptAttrs]⟩
  | cons a attrs ih =>
      intro p hnew
      obtain ⟨⟨-, attr, htype, hlen⟩, hrest⟩ := List.forall_mem_cons.mp hgood
      rw [List.map_cons, List.nodup_cons] at hnodup
      have ha : a = keyAttr attr a.data := by
        rw [keyAttr, ← htype]
      have hhas : p.has attr = false := by
        apply decide_eq_false
        intro hmem
        exact hnew attr hmem (by rw [← htype]; exact List.mem_cons_self)
      have hloop : parseFlowNlattrsLoop nz (a :: attrs) p =
          if nz && isAllZero a.data (ovsKeyLens attr) then parseFlowNlattrsLoop nz attrs p
          else parseFlowNlattrsLoop nz attrs (p.set attr a.data) := by
        rw [parseFlowNlattrsLoop, htype, ovsKeyAttrs_idxOf]
        simp only [hhas, hlen, Bool.false_eq_true, Bool.not_true, if_false]
      have hkept : keptAttrs nz (a :: attrs) =
          if nz && isAllZero a.data (ovsKeyLens attr) then keptAttrs nz attrs
          else a :: keptAttrs nz attrs := by
        have hkeep : keepAttr nz a = !(nz && isAllZero a.data (ovsKeyLens attr)) := by
          rw [keepAttr, htype, ovsKeyAttrs_idxOf]
        rw [keptAttrs, List.filter_cons, hkeep]
        by_cases hzero : (nz && isAllZero a.data (ovsKeyLens attr)) = true
        · simp [hzero, keptAttrs]
        · simp [Bool.eq_false_iff.mpr hzero, keptAttrs]
      rw [hloop, hkept]
      cases nz && isAllZero a.data (ovsKeyLens attr) with
      | true =>
          exact ih hrest hnodup.2 fun attr' hattr' hmem => hnew attr' hattr' (List.mem_cons_of_mem _ hmem)
      | false =>
          obtain ⟨p', hp', hmem, hdata⟩ := ih hrest hnodup.2 (p := p.set attr a.data) (by
            intro attr' hattr' hmem
            rcases Finset.mem_insert.mp hattr' with rfl | hold
            · exact hnodup.1 (htype ▸ hmem)
            · exact hnew attr' hold (List.mem_cons_of_mem _ hmem))
          -- the rest does not have this type again
          have hnone : attrData (keptAttrs nz attrs) attr = none := by
            apply attrData_eq_none
            intro hmem
            exact hnodup.1 (htype ▸ ((keptAttrs_sublist nz attrs).map Nlattr.type).subset hmem)
          refine ⟨p', hp', ?_, ?_⟩
          · intro attr'
            rw [hmem, if_neg Bool.false_ne_true, ha, attrData_cons]
            by_cases heq : attr = attr'
            · simp [ParsedAttrs.set, heq]
            · simp [ParsedAttrs.set, heq, Ne.symm heq]
          · intro attr'
            rw [hdata, if_neg Bool.false_ne_true, ha, attrData_cons]
            by_cases heq : attr = attr'
            · subst heq
              rw [hnone, if_pos rfl]
              exact Function.update_self ..
            · rw [if_neg heq]
              exact congrArg _ (Function.update_of_ne (Ne.symm heq) ..)

/-- **A stream is collected** as the attributes that have been written. -/
theorem parseFlowNlattrs_nlaStream (nz : Bool) {attrs : List Nlattr} {p : ParsedAttrs}
    (hgood : ∀ a ∈ attrs, a.Good) (hnodup : (attrs.map Nlattr.type).Nodup)
    (hnew : ∀ attr ∈ p.attrs, ovsKeyAttrs.idxOf attr ∉ attrs.map Nlattr.type) :
    ∃ p', parseFlowNlattrs nz (nlaStream attrs) p = .ok p' ∧ Collects p (keptAttrs nz attrs) p' := by
  obtain ⟨p', hp', hcollects⟩ := parseFlowNlattrsLoop_collects nz hgood hnodup hnew
  refine ⟨p', ?_, hcollects⟩
  rw [parseFlowNlattrs, nlaForEachNested_nlaStream fun a ha => (hgood a ha).1]
  dsimp only
  rw [hp']
  rfl

@[simp] theorem keptAttrs_false (attrs : List Nlattr) : keptAttrs false attrs = attrs := by
  unfold keptAttrs
  rw [List.filter_eq_self]
  intro a _
  unfold keepAttr
  cases ovsKeyAttrs[a.type]? <;> rfl

/-! ## Bytes of a key -/

theorem bitVec_append_inj {n m : Nat} {a a' : BitVec n} {b b' : BitVec m} :
    a ++ b = a' ++ b' ↔ a = a' ∧ b = b' := by
  constructor
  · intro h
    have hbit : ∀ i, (a ++ b).getLsbD i = (a' ++ b').getLsbD i := fun i => by rw [h]
    simp only [BitVec.getLsbD_append] at hbit
    constructor
    · apply BitVec.eq_of_getLsbD_eq
      intro i _
      simpa using hbit (m + i)
    · apply BitVec.eq_of_getLsbD_eq
      intro i hi
      simpa [hi] using hbit i
  · rintro ⟨rfl, rfl⟩
    rfl

theorem SwFlowKey.bytes_eq_iff {key key' : SwFlowKey} {off n : Nat} :
    key.bytes off n = key'.bytes off n ↔ ∀ j, off ≤ j → j < off + n → key.u8 j = key'.u8 j := by
  unfold SwFlowKey.bytes
  rw [List.map_inj_left]
  constructor
  · intro h j hle hlt
    have := h (j - off) (List.mem_range.mpr (by omega))
    rwa [Nat.add_sub_cancel' hle] at this
  · intro h i hi
    exact h (off + i) (Nat.le_add_right ..) (Nat.add_lt_add_left (List.mem_range.mp hi) _)

theorem SwFlowKey.bytes_eq_zeros_iff {key : SwFlowKey} {off n : Nat} :
    key.bytes off n = zeros n ↔ ∀ j, off ≤ j → j < off + n → key.u8 j = 0 := by
  have hzero : ∀ j, SwFlowKey.u8 (fun _ => 0) j = 0 := by
    intro j
    unfold SwFlowKey.u8
    split_ifs <;> rfl
  have hzeros : SwFlowKey.bytes (fun _ => 0) off n = zeros n := by
    simp only [SwFlowKey.bytes, hzero, List.map_const', List.length_range]
    rfl
  rw [← hzeros, SwFlowKey.bytes_eq_iff]
  simp only [hzero]

theorem SwFlowKey.u16_eq_zero_iff {key : SwFlowKey} {off : Nat} :
    key.u16 off = 0 ↔ ∀ j, off ≤ j → j < off + 2 → key.u8 j = 0 := by
  have hzero : (0 : BitVec 16) = (0 : BitVec 8) ++ (0 : BitVec 8) := rfl
  rw [SwFlowKey.u16, hzero, bitVec_append_inj]
  constructor
  · rintro ⟨hhigh, hlow⟩ j hle hlt
    obtain rfl | rfl : j = off ∨ j = off + 1 := by omega
    · exact hlow
    · exact hhigh
  · intro h
    exact ⟨h (off + 1) (by omega) (by omega), h off le_rfl (by omega)⟩

theorem SwFlowKey.u32_eq_zero_iff {key : SwFlowKey} {off : Nat} :
    key.u32 off = 0 ↔ ∀ j, off ≤ j → j < off + 4 → key.u8 j = 0 := by
  have hzero : (0 : BitVec 32) = (0 : BitVec 16) ++ (0 : BitVec 16) := rfl
  rw [SwFlowKey.u32, hzero, bitVec_append_inj, SwFlowKey.u16_eq_zero_iff, SwFlowKey.u16_eq_zero_iff]
  constructor
  · rintro ⟨hhigh, hlow⟩ j hle hlt
    by_cases h : j < off + 2
    · exact hlow j hle h
    · exact hhigh j (by omega) (by omega)
  · intro h
    exact ⟨fun j hle hlt => h j (by omega) (by omega), fun j hle hlt => h j hle (by omega)⟩

/-- The byte that stores leave. -/
theorem SwFlowKey.store_u8 {key : SwFlowKey} {stores : KeyStores} {j : Nat} (hj : j < swFlowKeySize) :
    (key.store stores).u8 j = (stored stores j).getD (key.u8 j) := by
  unfold SwFlowKey.u8
  rw [dif_pos hj, dif_pos hj]
  rfl

/-! ## Copies of a key -/

/-- All stores take bytes of the key to where they were. -/
def Copies (key : SwFlowKey) (stores : KeyStores) : Prop :=
  ∀ s ∈ stores, s.vals = key.bytes s.off s.vals.length

@[simp] theorem copies_nil (key : SwFlowKey) : Copies key [] := nofun

@[simp] theorem copies_append {key : SwFlowKey} {stores stores' : KeyStores} :
    Copies key (stores ++ stores') ↔ Copies key stores ∧ Copies key stores' :=
  List.forall_mem_append

@[simp] theorem copies_cons {key : SwFlowKey} {s : Store (BitVec 8)} {stores : KeyStores} :
    Copies key (s :: stores) ↔ s.vals = key.bytes s.off s.vals.length ∧ Copies key stores :=
  List.forall_mem_cons

theorem SwFlowKey.bytes_getElem? {key : SwFlowKey} {off n i : Nat} (hi : i < n) :
    (key.bytes off n)[i]? = some (key.u8 (off + i)) := by
  unfold SwFlowKey.bytes
  rw [List.getElem?_map, List.getElem?_range hi]
  rfl

/-- Where copies reach, the key has the bytes that they leave. -/
theorem Copies.stored_eq {key : SwFlowKey} {stores : KeyStores} (h : Copies key stores) {j : Nat}
    (hj : Reaches stores j) : stored stores j = some (key.u8 j) := by
  induction stores with
  | nil => exact hj.elim
  | cons s stores ih =>
      obtain ⟨hvals, hstores⟩ := copies_cons.mp h
      rw [stored]
      by_cases hlater : Reaches stores j
      · rw [ih hstores hlater]
        rfl
      · have hs := (reaches_cons s stores j).mp hj |>.resolve_right hlater
        rw [(stored_eq_none_iff stores j).mpr hlater, Option.none_or, Store.at, if_pos hs.1, hvals,
          SwFlowKey.bytes_getElem? (by omega), Nat.add_sub_cancel' hs.1]

/-- What is there again after clearing: the bytes that are stored, and zeros. -/
theorem Copies.getD_eq_iff {key : SwFlowKey} {stores : KeyStores} (h : Copies key stores) (j : Nat) :
    (stored stores j).getD 0 = key.u8 j ↔ (¬ Reaches stores j → key.u8 j = 0) := by
  by_cases hreach : Reaches stores j
  · rw [h.stored_eq hreach]
    exact iff_of_true rfl (absurd hreach)
  · rw [(stored_eq_none_iff stores j).mpr hreach]
    exact ⟨fun h _ => h.symm, fun h => (h hreach).symm⟩

@[simp] theorem copies_ite (key : SwFlowKey) (c : Prop) [Decidable c] (stores stores' : KeyStores) :
    Copies key (if c then stores else stores') ↔ if c then Copies key stores else Copies key stores' := by
  split_ifs
  · rfl
  · rfl

@[simp] theorem reaches_ite (c : Prop) [Decidable c] (stores stores' : KeyStores) (j : Nat) :
    Reaches (if c then stores else stores') j ↔ if c then Reaches stores j else Reaches stores' j := by
  split_ifs
  · rfl
  · rfl

end OvsDatapath.Flow
