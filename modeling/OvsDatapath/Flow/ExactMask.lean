import OvsDatapath.Flow.MatchFacts
import OvsDatapath.Flow.Streams

/-!
# The mask of a key, byte by byte

A request without a mask gets one made from its key: `mask_set_nlattr` overwrites the payload of each
attribute in a copy of the key. Whether an attribute is a leaf or a nest is looked up in a table of
lengths, and a nest of another kind brings a table of its own. `nlattr_set` keeps that table for the
attributes after the nest, where the numbers mean something else.

`exactMask` is what the function is for: the table of a nest is used inside the nest. `maskSet_exact_iff`
says for which keys the two agree, and the tables have an entry for every attribute that is looked up:
what matters is only what comes after a tunnel, and after the VXLAN options inside it.
-/

namespace OvsDatapath.Flow

open OvsDatapath.Lib

/-! ## What the function is for -/

/-- The payload of an attribute. -/
def nlaData (l : List (BitVec 8)) (nla_len : Nat) : List (BitVec 8) := (l.take nla_len).drop nlaHdrlen

/-- The padding behind an attribute. -/
def nlaPadding (l : List (BitVec 8)) (nla_len : Nat) : List (BitVec 8) :=
  (l.drop nla_len).take (nlaAlign nla_len - nla_len)

/-- The bits of `CT_SUPPORTED_MASK`, of a 32-bit number. -/
def ctSupported (data : List (BitVec 8)) : List (BitVec 8) :=
  data.take 1 ++ List.replicate (min 3 (data.length - 1)) 0 ++ data.drop 4

/-- The payload of a leaf in an exact mask. -/
def exactLeaf (val : BitVec 8) (tbl : LenTbl) (type len : Nat) : List (BitVec 8) :=
  if tbl = .key ∧ ovsKeyAttrs[type]? = some .ctState then ctSupported (List.replicate len val)
  else List.replicate len val

/-- The stream with the payload of every leaf set and everything else, at every level, as it is. -/
def exactMask (val : BitVec 8) : Nat → LenTbl → List (BitVec 8) → List (BitVec 8)
  | 0, _, l => l
  | fuel + 1, tbl, l =>
      match nlaOk l with
      | none => l
      | some nla_len =>
          let type := nlaType l
          let data := nlaData l nla_len
          let data := if tbl.len type = some .nested then
              exactMask val fuel ((tbl.next type).getD tbl) data
            else exactLeaf val tbl type data.length
          l.take nlaHdrlen ++ data ++ nlaPadding l nla_len ++
            exactMask val fuel tbl (l.drop (nlaAlign nla_len))

/-- The table that `nlattr_set` uses after an attribute, by the entry for it. -/
def tblAfter (tbl : LenTbl) (type : Nat) (len : AttrLen) : LenTbl :=
  if len = .nested then (tbl.next type).getD tbl else tbl

/-- Every lookup of `nlattr_set` finds an entry in its table. -/
def inTables : Nat → LenTbl → List (BitVec 8) → Bool
  | 0, _, _ => true
  | fuel + 1, tbl, l =>
      match nlaOk l with
      | none => true
      | some nla_len =>
          match tbl.len (nlaType l) with
          | none => false
          | some len =>
              let tbl := tblAfter tbl (nlaType l) len
              (len != .nested || inTables fuel tbl (nlaData l nla_len)) &&
                inTables fuel tbl (l.drop (nlaAlign nla_len))

/-- What `nlattr_set` makes of the payload of an attribute whose entry it has. -/
def setPayload (beyond : LenTbl → Nat → AttrLen) (val : BitVec 8) (fuel : Nat) (tbl : LenTbl) (type : Nat)
    (len : AttrLen) (data : List (BitVec 8)) : List (BitVec 8) :=
  let data := if len = .nested then nlattrSet beyond val fuel (tblAfter tbl type len) data
    else List.replicate data.length val
  if ovsKeyAttrs[type]? = some .ctState then ctSupported data else data

/-! ## One attribute at a time -/

variable {beyond : LenTbl → Nat → AttrLen} {val : BitVec 8} {tbl lvl : LenTbl} {l : List (BitVec 8)}
variable {nla_len fuel : Nat}

theorem nlaData_length (h : nlaOk l = some nla_len) : (nlaData l nla_len).length = nla_len - nlaHdrlen := by
  have hbounds := nlaOk_bounds h
  rw [nlaData, List.length_drop, List.length_take, min_eq_left hbounds.2]

/-- The rest of a stream is shorter. -/
theorem rest_length (h : nlaOk l = some nla_len) :
    (l.drop (nlaAlign nla_len)).length + nlaHdrlen ≤ l.length := by
  have hbounds := nlaOk_bounds h
  have := le_nlaAlign nla_len
  rw [List.length_drop]
  omega

theorem nlattrSet_none (h : nlaOk l = none) (fuel : Nat) : nlattrSet beyond val fuel tbl l = l := by
  cases fuel with
  | zero => rfl
  | succ fuel => rw [nlattrSet, h]

theorem exactMask_none (h : nlaOk l = none) (fuel : Nat) : exactMask val fuel tbl l = l := by
  cases fuel with
  | zero => rfl
  | succ fuel => rw [exactMask, h]

theorem inTables_none (h : nlaOk l = none) (fuel : Nat) : inTables fuel tbl l = true := by
  cases fuel with
  | zero => rfl
  | succ fuel => rw [inTables, h]

theorem nlattrSet_some (h : nlaOk l = some nla_len) (fuel : Nat) :
    nlattrSet beyond val (fuel + 1) tbl l =
      l.take nlaHdrlen ++
        setPayload beyond val fuel tbl (nlaType l) ((tbl.len (nlaType l)).getD (beyond tbl (nlaType l)))
          (nlaData l nla_len) ++
        nlaPadding l nla_len ++
        nlattrSet beyond val fuel
          (tblAfter tbl (nlaType l) ((tbl.len (nlaType l)).getD (beyond tbl (nlaType l))))
          (l.drop (nlaAlign nla_len)) := by
  rw [nlattrSet, h]
  rfl

theorem exactMask_some (h : nlaOk l = some nla_len) (fuel : Nat) :
    exactMask val (fuel + 1) tbl l =
      l.take nlaHdrlen ++
        (if tbl.len (nlaType l) = some .nested then
          exactMask val fuel ((tbl.next (nlaType l)).getD tbl) (nlaData l nla_len)
        else exactLeaf val tbl (nlaType l) (nlaData l nla_len).length) ++
        nlaPadding l nla_len ++ exactMask val fuel tbl (l.drop (nlaAlign nla_len)) := by
  rw [exactMask, h]

theorem inTables_some (h : nlaOk l = some nla_len) (fuel : Nat) :
    inTables (fuel + 1) tbl l =
      match tbl.len (nlaType l) with
      | none => false
      | some len =>
          (len != .nested || inTables fuel (tblAfter tbl (nlaType l) len) (nlaData l nla_len)) &&
            inTables fuel (tblAfter tbl (nlaType l) len) (l.drop (nlaAlign nla_len)) := by
  rw [inTables, h]

/-- Any two numbers of steps that are enough lead to the same. -/
theorem walk_fuel (beyond : LenTbl → Nat → AttrLen) (val : BitVec 8) :
    ∀ (n : Nat) (l : List (BitVec 8)) {fuel fuel' : Nat} (tbl : LenTbl), l.length ≤ n → n ≤ fuel →
      n ≤ fuel' →
      nlattrSet beyond val fuel tbl l = nlattrSet beyond val fuel' tbl l ∧
        exactMask val fuel tbl l = exactMask val fuel' tbl l ∧ inTables fuel tbl l = inTables fuel' tbl l := by
  intro n
  induction n using Nat.strong_induction_on with
  | _ n ih =>
  intro l fuel fuel' tbl hn hfuel hfuel'
  cases hok : nlaOk l with
  | none =>
      simp only [nlattrSet_none hok, exactMask_none hok, inTables_none hok, and_self]
  | some nla_len =>
      have hbounds := nlaOk_bounds hok
      have hrest := rest_length hok
      have hdata := nlaData_length hok
      have hfour : nlaHdrlen = 4 := rfl
      obtain ⟨n, rfl⟩ : ∃ k, n = k + 1 := ⟨n - 1, by omega⟩
      obtain ⟨fuel, rfl⟩ : ∃ k, fuel = k + 1 := ⟨fuel - 1, by omega⟩
      obtain ⟨fuel', rfl⟩ : ∃ k, fuel' = k + 1 := ⟨fuel' - 1, by omega⟩
      have hin := fun tbl => @ih n (Nat.lt_succ_self n) (nlaData l nla_len) fuel fuel' tbl (by omega)
        (by omega) (by omega)
      have hout := fun tbl => @ih n (Nat.lt_succ_self n) (l.drop (nlaAlign nla_len)) fuel fuel' tbl
        (by omega) (by omega) (by omega)
      refine ⟨?_, ?_, ?_⟩
      · rw [nlattrSet_some hok, nlattrSet_some hok, (hout _).1]
        unfold setPayload
        rw [(hin _).1]
      · rw [exactMask_some hok, exactMask_some hok, (hout _).2.1, (hin _).2.1]
      · rw [inTables_some hok, inTables_some hok]
        cases tbl.len (nlaType l) with
        | none => rfl
        | some len =>
            dsimp only
            rw [(hin _).2.2, (hout _).2.2]

theorem setPayload_length {type fuel : Nat} {len : AttrLen} {data : List (BitVec 8)}
    (h : ∀ tbl, (nlattrSet beyond val fuel tbl data).length = data.length) :
    (setPayload beyond val fuel tbl type len data).length = data.length := by
  have hdata : (if len = .nested then nlattrSet beyond val fuel (tblAfter tbl type len) data
      else List.replicate data.length val).length = data.length := by
    split_ifs
    · exact h _
    · exact List.length_replicate
  unfold setPayload ctSupported
  dsimp only
  split_ifs at hdata ⊢ <;> simp only [List.length_append, List.length_take, List.length_replicate,
    List.length_drop, hdata] <;> omega

theorem nlaParts_length (h : nlaOk l = some nla_len) {data rest : List (BitVec 8)}
    (hdata : data.length = (nlaData l nla_len).length)
    (hrest : rest.length = (l.drop (nlaAlign nla_len)).length) :
    (l.take nlaHdrlen ++ data ++ nlaPadding l nla_len ++ rest).length = l.length := by
  have hbounds := nlaOk_bounds h
  have := le_nlaAlign nla_len
  rw [List.length_append, List.length_append, List.length_append, hdata, hrest, nlaData_length h]
  simp only [nlaPadding, List.length_take, List.length_drop]
  omega

theorem nlattrSet_length (beyond : LenTbl → Nat → AttrLen) (val : BitVec 8) (fuel : Nat) :
    ∀ (tbl : LenTbl) (l : List (BitVec 8)), (nlattrSet beyond val fuel tbl l).length = l.length := by
  induction fuel with
  | zero => exact fun _ _ => rfl
  | succ fuel ih =>
      intro tbl l
      cases hok : nlaOk l with
      | none => rw [nlattrSet_none hok]
      | some nla_len =>
          rw [nlattrSet_some hok]
          exact nlaParts_length hok (setPayload_length fun tbl => ih tbl _) (ih _ _)

theorem exactLeaf_length (val : BitVec 8) (tbl : LenTbl) (type len : Nat) :
    (exactLeaf val tbl type len).length = len := by
  unfold exactLeaf ctSupported
  split_ifs
  · simp only [List.length_append, List.length_take, List.length_replicate, List.length_drop]
    omega
  · exact List.length_replicate

theorem exactMask_length (val : BitVec 8) (fuel : Nat) :
    ∀ (tbl : LenTbl) (l : List (BitVec 8)), (exactMask val fuel tbl l).length = l.length := by
  induction fuel with
  | zero => exact fun _ _ => rfl
  | succ fuel ih =>
      intro tbl l
      cases hok : nlaOk l with
      | none => rw [exactMask_none hok]
      | some nla_len =>
          rw [exactMask_some hok]
          apply nlaParts_length hok _ (ih _ _)
          split_ifs
          · exact ih _ _
          · exact exactLeaf_length _ _ _ _

/-- A stream whose first attribute has got another payload of the same length. -/
theorem nlaParts_read (h : nlaOk l = some nla_len) {data rest : List (BitVec 8)}
    (hdata : data.length = (nlaData l nla_len).length)
    (hrest : rest.length = (l.drop (nlaAlign nla_len)).length) :
    nlaOk (l.take nlaHdrlen ++ data ++ nlaPadding l nla_len ++ rest) = some nla_len ∧
      nlaType (l.take nlaHdrlen ++ data ++ nlaPadding l nla_len ++ rest) = nlaType l ∧
      nlaData (l.take nlaHdrlen ++ data ++ nlaPadding l nla_len ++ rest) nla_len = data ∧
      (l.take nlaHdrlen ++ data ++ nlaPadding l nla_len ++ rest).drop (nlaAlign nla_len) = rest := by
  have hbounds := nlaOk_bounds h
  have hle := le_nlaAlign nla_len
  have hlength := nlaParts_length h hdata hrest
  have hdlen := nlaData_length h
  have hfour : nlaHdrlen = 4 := rfl
  have htake : (l.take nlaHdrlen).length = 4 := by rw [List.length_take]; omega
  have hbyte : ∀ i < 4, byteAt (l.take nlaHdrlen ++ data ++ nlaPadding l nla_len ++ rest) i = byteAt l i := by
    intro i hi
    unfold byteAt
    rw [List.getD_eq_getElem?_getD, List.getD_eq_getElem?_getD, List.append_assoc, List.append_assoc,
      List.getElem?_append_left (by omega), List.getElem?_take, if_pos (by omega)]
  refine ⟨?_, ?_, ?_, ?_⟩
  · unfold nlaOk le16At at h ⊢
    rw [hbyte _ (by omega), hbyte _ (by omega), hlength]
    exact h
  · unfold nlaType le16At
    rw [hbyte _ (by omega), hbyte _ (by omega)]
  · have hfront : (l.take nlaHdrlen ++ data).length = nla_len := by
      rw [List.length_append]
      omega
    show List.drop nlaHdrlen (List.take nla_len _) = data
    rw [List.append_assoc, List.take_left' hfront, List.drop_left' (htake.trans hfour.symm)]
  · have hfront : (l.take nlaHdrlen ++ data ++ nlaPadding l nla_len).length = min (nlaAlign nla_len) l.length := by
      simp only [List.length_append, nlaPadding, List.length_take, List.length_drop]
      omega
    by_cases hpad : nlaAlign nla_len ≤ l.length
    · exact List.drop_left' (by rw [hfront, min_eq_left hpad])
    · rw [List.length_drop] at hrest
      obtain rfl : rest = [] := List.length_eq_zero_iff.mp (by omega)
      rw [List.append_nil]
      exact List.drop_eq_nil_of_le (by omega)

/-! ## Where the walk is right -/

/-- From a table on, `nlattr_set` finds all its entries and makes the exact mask of a level. -/
def SetsExactly (val : BitVec 8) (tbl lvl : LenTbl) (l : List (BitVec 8)) : Prop :=
  inTables l.length tbl l = true ∧
    ∀ beyond, nlattrSet beyond val l.length tbl l = exactMask val l.length lvl l

theorem setsExactly_none (h : nlaOk l = none) : SetsExactly val tbl lvl l :=
  ⟨inTables_none h _, fun _ => by rw [nlattrSet_none h, exactMask_none h]⟩

/-- The payload of an attribute becomes what it should. -/
def PayloadExact (val : BitVec 8) (tbl lvl : LenTbl) (type : Nat) (len : AttrLen) (data : List (BitVec 8)) :
    Prop :=
  (len = .nested → inTables data.length (tblAfter tbl type len) data = true) ∧
    ∀ beyond, setPayload beyond val data.length tbl type len data =
      if lvl.len type = some .nested then exactMask val data.length ((lvl.next type).getD lvl) data
      else exactLeaf val lvl type data.length

/-- One attribute, and the rest of the stream. -/
theorem setsExactly_some (h : nlaOk l = some nla_len) :
    SetsExactly val tbl lvl l ↔ ∃ len, tbl.len (nlaType l) = some len ∧
      PayloadExact val tbl lvl (nlaType l) len (nlaData l nla_len) ∧
      SetsExactly val (tblAfter tbl (nlaType l) len) lvl (l.drop (nlaAlign nla_len)) := by
  have hbounds := nlaOk_bounds h
  have hrest := rest_length h
  have hdata := nlaData_length h
  have hfour : nlaHdrlen = 4 := rfl
  obtain ⟨n, hn⟩ : ∃ n, l.length = n + 1 := ⟨l.length - 1, by omega⟩
  -- the fuel that is left is enough for the payload and for the rest
  have hin := fun beyond tbl => @walk_fuel beyond val _ (nlaData l nla_len) n (nlaData l nla_len).length tbl
    le_rfl (by omega) le_rfl
  have hout := fun beyond tbl => @walk_fuel beyond val _ (l.drop (nlaAlign nla_len)) n
    (l.drop (nlaAlign nla_len)).length tbl le_rfl (by omega) le_rfl
  have hset : ∀ beyond len, setPayload beyond val n tbl (nlaType l) len (nlaData l nla_len) =
      setPayload beyond val (nlaData l nla_len).length tbl (nlaType l) len (nlaData l nla_len) := by
    intro beyond len
    unfold setPayload
    rw [(hin beyond _).1]
  unfold SetsExactly PayloadExact
  rw [hn, inTables_some h]
  cases hlen : tbl.len (nlaType l) with
  | none => simp
  | some len =>
      have hin' := fun tbl => (hin (fun _ _ => .nested) tbl).2
      have hout' := fun tbl => (hout (fun _ _ => .nested) tbl).2
      -- header and padding are the same, so payload and rest have to be
      have hparts : ∀ beyond, nlattrSet beyond val (n + 1) tbl l = exactMask val (n + 1) lvl l ↔
          setPayload beyond val (nlaData l nla_len).length tbl (nlaType l) len (nlaData l nla_len) =
            (if lvl.len (nlaType l) = some .nested then
              exactMask val (nlaData l nla_len).length ((lvl.next (nlaType l)).getD lvl) (nlaData l nla_len)
            else exactLeaf val lvl (nlaType l) (nlaData l nla_len).length) ∧
          nlattrSet beyond val (l.drop (nlaAlign nla_len)).length (tblAfter tbl (nlaType l) len)
              (l.drop (nlaAlign nla_len)) =
            exactMask val (l.drop (nlaAlign nla_len)).length lvl (l.drop (nlaAlign nla_len)) := by
        intro beyond
        rw [nlattrSet_some h, exactMask_some h, hlen, Option.getD_some, hset, (hout beyond _).1,
          (hin' _).1, (hout' _).1]
        constructor
        · intro heq
          have hpayload : (setPayload beyond val (nlaData l nla_len).length tbl (nlaType l) len
              (nlaData l nla_len)).length = (if lvl.len (nlaType l) = some .nested then
              exactMask val (nlaData l nla_len).length ((lvl.next (nlaType l)).getD lvl) (nlaData l nla_len)
            else exactLeaf val lvl (nlaType l) (nlaData l nla_len).length).length := by
            rw [setPayload_length fun tbl => nlattrSet_length _ _ _ _ _]
            split_ifs
            · rw [exactMask_length]
            · rw [exactLeaf_length]
          obtain ⟨hfront, hback⟩ := List.append_inj' heq (by rw [nlattrSet_length, exactMask_length])
          obtain ⟨hfront, -⟩ := List.append_inj' hfront rfl
          exact ⟨(List.append_inj' hfront hpayload).2, hback⟩
        · rintro ⟨hpayload, hback⟩
          rw [hpayload, hback]
      simp only [Option.some.injEq, exists_eq_left', hparts, (hin' _).2, (hout' _).2, Bool.and_eq_true,
        Bool.or_eq_true, bne_iff_ne, ne_eq, forall_and]
      tauto

theorem setsExactly_beyond (h : nlaOk l = some nla_len) (hlen : tbl.len (nlaType l) = none) :
    ¬ SetsExactly val tbl lvl l := by
  rw [setsExactly_some h]
  rintro ⟨len, hsome, -⟩
  rw [hlen] at hsome
  cases hsome

/-- An attribute that is a leaf for the walk. -/
theorem payloadExact_leaf {type : Nat} {len : AttrLen} (hleaf : len ≠ .nested) (data : List (BitVec 8)) :
    PayloadExact val tbl lvl type len data ↔
      (if ovsKeyAttrs[type]? = some .ctState then ctSupported (List.replicate data.length val)
        else List.replicate data.length val) =
      if lvl.len type = some .nested then exactMask val data.length ((lvl.next type).getD lvl) data
      else exactLeaf val lvl type data.length := by
  unfold PayloadExact setPayload
  simp only [hleaf, false_implies, true_and, if_false]
  exact ⟨fun hall => hall fun _ _ => .nested, fun heq _ => heq⟩

theorem setsExactly_leaf {len : AttrLen} (h : nlaOk l = some nla_len)
    (hlen : tbl.len (nlaType l) = some len) (hleaf : len ≠ .nested)
    (hlvl : lvl.len (nlaType l) ≠ some .nested)
    (hct : lvl = .key ∨ ovsKeyAttrs[nlaType l]? ≠ some .ctState) :
    SetsExactly val tbl lvl l ↔ SetsExactly val tbl lvl (l.drop (nlaAlign nla_len)) := by
  rw [setsExactly_some h]
  have hpayload : PayloadExact val tbl lvl (nlaType l) len (nlaData l nla_len) := by
    rw [payloadExact_leaf hleaf, if_neg hlvl]
    unfold exactLeaf
    obtain rfl | hct := hct
    · simp only [true_and]
    · simp only [hct, and_false, if_false]
  have hafter : tblAfter tbl (nlaType l) len = tbl := if_neg hleaf
  constructor
  · rintro ⟨len', hlen', -, hrest⟩
    obtain rfl := Option.some.inj (hlen.symm.trans hlen')
    rw [hafter] at hrest
    exact hrest
  · intro hrest
    refine ⟨len, hlen, hpayload, ?_⟩
    rw [hafter]
    exact hrest

/-- Streams are taken apart from the front. -/
theorem stream_induction {P : List (BitVec 8) → Prop} (hnone : ∀ l, nlaOk l = none → P l)
    (hsome : ∀ l nla_len, nlaOk l = some nla_len → P (l.drop (nlaAlign nla_len)) → P l)
    (l : List (BitVec 8)) : P l := by
  induction hn : l.length using Nat.strong_induction_on generalizing l with
  | _ n ih =>
  cases hok : nlaOk l with
  | none => exact hnone l hok
  | some nla_len =>
      apply hsome l nla_len hok
      have hrest := rest_length hok
      have hfour : nlaHdrlen = 4 := rfl
      exact ih _ (by omega) _ rfl

/-! ## The attributes of a stream -/

theorem nlaForEach_fuel :
    ∀ (n : Nat) (l : List (BitVec 8)) {fuel fuel' : Nat}, l.length ≤ n → n ≤ fuel → n ≤ fuel' →
      nlaForEach fuel l = nlaForEach fuel' l := by
  intro n
  induction n with
  | zero =>
      intro l fuel fuel' hn _ _
      obtain rfl := List.length_eq_zero_iff.mp (Nat.le_zero.mp hn)
      cases fuel <;> cases fuel' <;> rfl
  | succ n ih =>
      intro l fuel fuel' hn hfuel hfuel'
      obtain ⟨fuel, rfl⟩ : ∃ k, fuel = k + 1 := ⟨fuel - 1, by omega⟩
      obtain ⟨fuel', rfl⟩ : ∃ k, fuel' = k + 1 := ⟨fuel' - 1, by omega⟩
      rw [nlaForEach, nlaForEach]
      cases hok : nlaOk l with
      | none => rfl
      | some nla_len =>
          have hrest := rest_length hok
          have hfour : nlaHdrlen = 4 := rfl
          dsimp only
          rw [@ih (l.drop (nlaAlign nla_len)) fuel fuel' (by omega) (by omega) (by omega)]

theorem attrsOf_none (h : nlaOk l = none) : nlaForEachNested l = ([], (l.length : Int)) := by
  unfold nlaForEachNested
  cases hn : l.length with
  | zero => rw [nlaForEach, hn]
  | succ n => rw [nlaForEach, h, hn]

theorem attrsOf_some (h : nlaOk l = some nla_len) :
    attrsOf l = ⟨nlaType l, nlaData l nla_len⟩ :: attrsOf (l.drop (nlaAlign nla_len)) ∧
      ((nlaForEachNested l).2 = 0 → (nlaForEachNested (l.drop (nlaAlign nla_len))).2 = 0) := by
  have hrest := rest_length h
  have hfour : nlaHdrlen = 4 := rfl
  obtain ⟨n, hn⟩ : ∃ n, l.length = n + 1 := ⟨l.length - 1, by omega⟩
  unfold attrsOf nlaForEachNested
  rw [hn, nlaForEach, h]
  dsimp only
  split_ifs with hshort
  · rw [List.drop_eq_nil_of_le hshort.le]
    exact ⟨rfl, fun _ => rfl⟩
  · rw [@nlaForEach_fuel _ (l.drop (nlaAlign nla_len)) n (l.drop (nlaAlign nla_len)).length le_rfl
      (by omega) le_rfl]
    exact ⟨rfl, fun hrem => hrem⟩

/-- The payload of an attribute in an exact mask. -/
def exactData (val : BitVec 8) (tbl : LenTbl) (nla : Nlattr) : List (BitVec 8) :=
  if tbl.len nla.type = some .nested then
    exactMask val nla.data.length ((tbl.next nla.type).getD tbl) nla.data
  else exactLeaf val tbl nla.type nla.data.length

theorem exactMask_cons (h : nlaOk l = some nla_len) :
    exactMask val l.length tbl l = l.take nlaHdrlen ++
      exactData val tbl ⟨nlaType l, nlaData l nla_len⟩ ++ nlaPadding l nla_len ++
      exactMask val (l.drop (nlaAlign nla_len)).length tbl (l.drop (nlaAlign nla_len)) := by
  have hbounds := nlaOk_bounds h
  have hrest := rest_length h
  have hdata := nlaData_length h
  have hfour : nlaHdrlen = 4 := rfl
  obtain ⟨n, hn⟩ : ∃ n, l.length = n + 1 := ⟨l.length - 1, by omega⟩
  have hin := fun tbl => (@walk_fuel (fun _ _ => .nested) val _ (nlaData l nla_len) n
    (nlaData l nla_len).length tbl le_rfl (by omega) le_rfl).2.1
  have hout := (@walk_fuel (fun _ _ => .nested) val _ (l.drop (nlaAlign nla_len)) n
    (l.drop (nlaAlign nla_len)).length tbl le_rfl (by omega) le_rfl).2.1
  rw [hn, exactMask_some h, hin, hout]
  rfl

theorem exactData_length (val : BitVec 8) (tbl : LenTbl) (nla : Nlattr) :
    (exactData val tbl nla).length = nla.data.length := by
  unfold exactData
  split_ifs
  · exact exactMask_length _ _ _ _
  · exact exactLeaf_length _ _ _ _

/-- **An exact mask parses like its key**: it has the same attributes, and at each of them a payload that
is as long as before. -/
theorem exactMask_attrs (val : BitVec 8) (tbl : LenTbl) (l : List (BitVec 8)) :
    attrsOf (exactMask val l.length tbl l) = (attrsOf l).map fun nla => ⟨nla.type, exactData val tbl nla⟩ := by
  induction l using stream_induction with
  | hnone l h =>
      have hnil : attrsOf l = [] := congrArg Prod.fst (attrsOf_none h)
      rw [exactMask_none h, hnil]
      rfl
  | hsome l nla_len h ih =>
      obtain ⟨hok, htype, hdata, hrest⟩ := nlaParts_read h
        (exactData_length val tbl ⟨nlaType l, nlaData l nla_len⟩)
        (exactMask_length val (l.drop (nlaAlign nla_len)).length tbl (l.drop (nlaAlign nla_len)))
      rw [exactMask_cons h, (attrsOf_some hok).1, htype, hdata, hrest, ih, (attrsOf_some h).1, List.map_cons]

/-- A stream of VXLAN options: every type has an entry. -/
def VxlanStream (l : List (BitVec 8)) : Prop := ∀ nla ∈ attrsOf l, nla.type ≤ ovsVxlanExtMax

/-- A stream of tunnel attributes, all of known types. -/
structure TunnelStream (l : List (BitVec 8)) : Prop where
  known : ∀ nla ∈ attrsOf l, nla.type < ovsTunnelKeyAttrs.length
  vxlan : ∀ nla ∈ attrsOf l, ovsTunnelKeyAttrs[nla.type]? = some .vxlanOpts → VxlanStream nla.data

/-- A stream of key attributes, all of known types and lengths, and nothing behind them. -/
inductive KeyStream : List (BitVec 8) → Prop
  | mk {l : List (BitVec 8)} (hrem : (nlaForEachNested l).2 = 0)
      (known : ∀ nla ∈ attrsOf l, nla.type < ovsKeyAttrs.length)
      (len : ∀ nla ∈ attrsOf l, ∀ attr, ovsKeyAttrs[nla.type]? = some attr →
        checkAttrLen nla.data.length (ovsKeyLens attr) = true)
      (tunnel : ∀ nla ∈ attrsOf l, ovsKeyAttrs[nla.type]? = some .tunnel → TunnelStream nla.data)
      (encap : ∀ nla ∈ attrsOf l, ovsKeyAttrs[nla.type]? = some .encap → KeyStream nla.data) :
      KeyStream l

theorem VxlanStream.rest (hl : VxlanStream l) (h : nlaOk l = some nla_len) :
    nlaType l ≤ ovsVxlanExtMax ∧ VxlanStream (l.drop (nlaAlign nla_len)) := by
  unfold VxlanStream at hl
  rw [(attrsOf_some h).1] at hl
  exact List.forall_mem_cons.mp hl

theorem TunnelStream.rest (hl : TunnelStream l) (h : nlaOk l = some nla_len) :
    TunnelStream (l.drop (nlaAlign nla_len)) := by
  obtain ⟨hknown, hvxlan⟩ := hl
  rw [(attrsOf_some h).1] at hknown hvxlan
  exact ⟨(List.forall_mem_cons.mp hknown).2, (List.forall_mem_cons.mp hvxlan).2⟩

theorem KeyStream.rest (hl : KeyStream l) (h : nlaOk l = some nla_len) :
    KeyStream (l.drop (nlaAlign nla_len)) := by
  obtain ⟨hrem, hknown, hlen, htunnel, hencap⟩ := hl
  obtain ⟨hattrs, hrest⟩ := attrsOf_some h
  rw [hattrs] at hknown hlen htunnel hencap
  exact .mk (hrest hrem) (List.forall_mem_cons.mp hknown).2 (List.forall_mem_cons.mp hlen).2
    (List.forall_mem_cons.mp htunnel).2 (List.forall_mem_cons.mp hencap).2

/-- The first attribute of a key stream. -/
theorem KeyStream.first (hl : KeyStream l) (h : nlaOk l = some nla_len) :
    ∃ attr, ovsKeyAttrs[nlaType l]? = some attr ∧
      checkAttrLen (nlaData l nla_len).length (ovsKeyLens attr) = true ∧
      (attr = .tunnel → TunnelStream (nlaData l nla_len)) ∧
      (attr = .encap → KeyStream (nlaData l nla_len)) := by
  obtain ⟨-, hknown, hlen, htunnel, hencap⟩ := hl
  rw [(attrsOf_some h).1] at hknown hlen htunnel hencap
  have hattr := List.getElem?_eq_getElem (List.forall_mem_cons.mp hknown).1
  refine ⟨_, hattr, (List.forall_mem_cons.mp hlen).1 _ hattr, ?_, ?_⟩
  · intro htun
    exact (List.forall_mem_cons.mp htunnel).1 (hattr.trans (congrArg some htun))
  · intro hen
    exact (List.forall_mem_cons.mp hencap).1 (hattr.trans (congrArg some hen))

/-! ## The order of the attributes -/

/-- After the VXLAN options of a tunnel, in the table for these. -/
def afterVxlan (nlas : List Nlattr) : Bool := nlas.all fun nla => nla.type ≤ ovsVxlanExtMax

/-- The attributes of a tunnel. -/
def tunnelOrdered : List Nlattr → Bool
  | [] => true
  | nla :: rest =>
      if ovsTunnelKeyAttrs[nla.type]? = some .vxlanOpts then afterVxlan rest else tunnelOrdered rest

/-- After a tunnel and ICMP, whose number means VXLAN options in a tunnel. -/
def afterIcmp (nlas : List Nlattr) : Bool :=
  nlas.all fun nla => decide (nla.type ≤ ovsVxlanExtMax) &&
    (ovsKeyAttrs[nla.type]? != some .encap || nla.data.isEmpty)

/-- After a tunnel, in the table for tunnels. -/
def afterTunnel (val : BitVec 8) : List Nlattr → Bool
  | [] => true
  | nla :: rest =>
      match ovsKeyAttrs[nla.type]? with
      | some .encap => nla.data.isEmpty && afterTunnel val rest
      | some .icmp => nla.data.all (· == val) && afterIcmp rest
      | _ => decide (nla.type < ovsTunnelKeyAttrs.length) && afterTunnel val rest

/-- The attributes of a key, up to a tunnel. -/
def keyOrdered (val : BitVec 8) (nested : List (BitVec 8) → Bool) : List Nlattr → Bool
  | [] => true
  | nla :: rest =>
      match ovsKeyAttrs[nla.type]? with
      | some .encap => nested nla.data && keyOrdered val nested rest
      | some .tunnel => tunnelOrdered (attrsOf nla.data) && afterTunnel val rest
      | _ => keyOrdered val nested rest

/-- **Nothing that is misread comes after a tunnel**: at each level of a key, the attributes after
OVS_KEY_ATTR_TUNNEL have types that tunnel attributes also have (at most that of OVS_KEY_ATTR_ND), an
OVS_KEY_ATTR_ENCAP among them is empty, and there is no OVS_KEY_ATTR_ICMP, unless its two bytes are the
value already and what follows has types of at most 8. Inside a tunnel, the attributes after the VXLAN
options have types of at most 8. -/
def nestsLast (val : BitVec 8) : Nat → List (BitVec 8) → Bool
  | 0, _ => true
  | depth + 1, l => keyOrdered val (nestsLast val depth) (attrsOf l)

/-! ## Level by level -/

theorem vxlan_len {type : Nat} (h : type ≤ ovsVxlanExtMax) :
    ∃ len, LenTbl.vxlan.len type = some len ∧ len ≠ .nested := by
  refine ⟨ovsVxlanExtKeyLens type, if_pos h, ?_⟩
  unfold ovsVxlanExtKeyLens
  split_ifs <;> nofun

/-- The types of VXLAN options are leaves among the tunnel attributes. -/
theorem tunnel_leaf_le : ∀ type ≤ ovsVxlanExtMax, LenTbl.tunnel.len type ≠ some .nested := by decide

/-- All tunnel attributes but the VXLAN options are leaves. -/
theorem tunnel_leaf_lt : ∀ type < ovsTunnelKeyAttrs.length, ovsTunnelKeyAttrs[type]? ≠ some .vxlanOpts →
    (LenTbl.tunnel.len type).isSome ∧ LenTbl.tunnel.len type ≠ some .nested := by decide

theorem vxlan_len_beyond {type : Nat} (h : ¬ type ≤ ovsVxlanExtMax) : LenTbl.vxlan.len type = none :=
  if_neg h

/-- CT_STATE has a number that only key attributes have. -/
theorem not_ctState {type : Nat} (h : type < ovsTunnelKeyAttrs.length) :
    ovsKeyAttrs[type]? ≠ some .ctState := by
  intro hct
  have hidx := eq_idxOf hct
  have hlength : ovsTunnelKeyAttrs.length = 15 := rfl
  have hnumber : ovsKeyAttrs.idxOf .ctState = 22 := rfl
  omega

theorem lt_of_le_vxlan {type : Nat} (h : type ≤ ovsVxlanExtMax) : type < ovsTunnelKeyAttrs.length :=
  lt_of_le_of_lt h (by decide)

theorem vxlan_exact (l : List (BitVec 8)) (hl : VxlanStream l) : SetsExactly val .vxlan .vxlan l := by
  induction l using stream_induction with
  | hnone l h => exact setsExactly_none h
  | hsome l nla_len h ih =>
      obtain ⟨htype, hrest⟩ := hl.rest h
      obtain ⟨len, hlen, hleaf⟩ := vxlan_len htype
      rw [setsExactly_leaf h hlen hleaf (by rw [hlen]; exact fun heq => hleaf (Option.some.inj heq))
        (.inr (not_ctState (lt_of_le_vxlan htype)))]
      exact ih hrest

/-- The table for VXLAN options, at the level of tunnel attributes. -/
theorem afterVxlan_exact (l : List (BitVec 8)) :
    SetsExactly val .vxlan .tunnel l ↔ afterVxlan (attrsOf l) = true := by
  induction l using stream_induction with
  | hnone l h =>
      have hnil : attrsOf l = [] := congrArg Prod.fst (attrsOf_none h)
      rw [hnil]
      exact iff_of_true (setsExactly_none h) rfl
  | hsome l nla_len h ih =>
      rw [(attrsOf_some h).1]
      unfold afterVxlan at ih ⊢
      rw [List.all_cons, Bool.and_eq_true, decide_eq_true_iff]
      by_cases htype : nlaType l ≤ ovsVxlanExtMax
      · obtain ⟨len, hlen, hleaf⟩ := vxlan_len htype
        rw [setsExactly_leaf h hlen hleaf ?_ (.inr (not_ctState (lt_of_le_vxlan htype))), ih]
        · exact (and_iff_right htype).symm
        · exact tunnel_leaf_le _ htype
      · exact iff_of_false (setsExactly_beyond h (vxlan_len_beyond htype)) fun hand => htype hand.1

/-- The VXLAN options of a tunnel are a nest for the walk and at their level. -/
theorem vxlanOpts_exact (h : nlaOk l = some nla_len) (hopts : ovsTunnelKeyAttrs[nlaType l]? = some .vxlanOpts)
    (hdata : VxlanStream (nlaData l nla_len)) :
    SetsExactly val .tunnel .tunnel l ↔ SetsExactly val .vxlan .tunnel (l.drop (nlaAlign nla_len)) := by
  have hlen : LenTbl.tunnel.len (nlaType l) = some .nested := by
    unfold LenTbl.len
    rw [hopts]
    rfl
  have hnext : LenTbl.tunnel.next (nlaType l) = some .vxlan := if_pos hopts
  have hafter : tblAfter .tunnel (nlaType l) .nested = .vxlan := by
    unfold tblAfter
    rw [if_pos rfl, hnext]
    rfl
  have hlt : nlaType l < ovsTunnelKeyAttrs.length := (List.getElem?_eq_some_iff.mp hopts).1
  obtain ⟨hin, hset⟩ := @vxlan_exact val _ hdata
  have hpayload : PayloadExact val .tunnel .tunnel (nlaType l) .nested (nlaData l nla_len) := by
    unfold PayloadExact setPayload
    rw [hafter, if_pos hlen, hnext]
    refine ⟨fun _ => hin, fun beyond => ?_⟩
    rw [if_pos rfl, if_neg (not_ctState hlt)]
    exact hset beyond
  rw [setsExactly_some h, hlen]
  constructor
  · rintro ⟨len, hlen', -, hrest⟩
    obtain rfl := Option.some.inj hlen'
    rw [hafter] at hrest
    exact hrest
  · intro hrest
    refine ⟨.nested, rfl, hpayload, ?_⟩
    rw [hafter]
    exact hrest

theorem tunnel_exact (l : List (BitVec 8)) (hl : TunnelStream l) :
    SetsExactly val .tunnel .tunnel l ↔ tunnelOrdered (attrsOf l) = true := by
  induction l using stream_induction with
  | hnone l h =>
      have hnil : attrsOf l = [] := congrArg Prod.fst (attrsOf_none h)
      rw [hnil]
      exact iff_of_true (setsExactly_none h) rfl
  | hsome l nla_len h ih =>
      have hrest := hl.rest h
      obtain ⟨hknown, hvxlan⟩ := hl
      rw [(attrsOf_some h).1] at hknown hvxlan ⊢
      have hlt := (List.forall_mem_cons.mp hknown).1
      unfold tunnelOrdered
      split_ifs with hopts
      · rw [vxlanOpts_exact h hopts ((List.forall_mem_cons.mp hvxlan).1 hopts)]
        exact afterVxlan_exact _
      · obtain ⟨hsome, hleaf⟩ := tunnel_leaf_lt _ hlt hopts
        obtain ⟨len, hlen⟩ := Option.isSome_iff_exists.mp hsome
        rw [setsExactly_leaf h hlen (fun heq => hleaf (hlen.trans (congrArg some heq))) hleaf
          (.inr (not_ctState hlt))]
        exact ih hrest

/-! ### After a tunnel -/

/-- No header consists of one value, if its type is that of a key attribute. -/
theorem header_not_constant : ∀ val : BitVec 8,
    ¬ (4 ≤ (val ++ val : BitVec 16).toNat ∧ ((val ++ val : BitVec 16) &&& 0x3FFF).toNat < 29) := by
  decide

/-- A nest that is overwritten as a whole is not what it should be. -/
theorem nest_overwritten {data : List (BitVec 8)} (hdata : KeyStream data) :
    List.replicate data.length val = exactMask val data.length .key data ↔ data = [] := by
  constructor
  · intro heq
    cases hok : nlaOk data with
    | none =>
        obtain ⟨hrem, -⟩ := hdata
        rw [attrsOf_none hok] at hrem
        exact List.length_eq_zero_iff.mp (Int.natCast_eq_zero.mp hrem)
    | some nla_len =>
        exfalso
        have hbounds := nlaOk_bounds hok
        have hfour : nlaHdrlen = 4 := rfl
        obtain ⟨n, hn⟩ : ∃ n, data.length = n + 4 := ⟨data.length - 4, by omega⟩
        obtain ⟨attr, hattr, -⟩ := hdata.first hok
        rw [hn, exactMask_some hok] at heq
        have hhead : List.replicate 4 val = data.take 4 := by
          have htake := congrArg (List.take nlaHdrlen) heq
          rw [List.append_assoc, List.append_assoc, List.take_left' (by rw [List.length_take]; omega),
            List.take_replicate] at htake
          exact (congrArg (List.replicate · val) (by omega)).trans htake
        -- so the header says that it is `val` bytes long, and of that type
        have hcons : data = val :: val :: val :: val :: data.drop 4 := by
          conv_lhs => rw [← List.take_append_drop 4 data, ← hhead]
          rfl
        have hlen : (le16At data 0).toNat = (val ++ val : BitVec 16).toNat := by rw [hcons]; rfl
        have htype : nlaType data = ((val ++ val : BitVec 16) &&& 0x3FFF).toNat := by rw [hcons]; rfl
        have hok' : (le16At data 0).toNat = nla_len := by
          unfold nlaOk at hok
          dsimp only at hok
          split_ifs at hok
          exact Option.some.inj hok
        apply header_not_constant val
        refine ⟨by omega, ?_⟩
        rw [← htype, eq_idxOf hattr]
        exact ovsKeyAttrs_idxOf_lt attr
  · rintro rfl
    rfl

/-- An ENCAP that the walk takes for a leaf. -/
theorem encap_overwritten {len : AttrLen} (h : nlaOk l = some nla_len)
    (hencap : ovsKeyAttrs[nlaType l]? = some .encap) (hlen : tbl.len (nlaType l) = some len)
    (hleaf : len ≠ .nested) (hdata : KeyStream (nlaData l nla_len)) :
    SetsExactly val tbl .key l ↔
      nlaData l nla_len = [] ∧ SetsExactly val tbl .key (l.drop (nlaAlign nla_len)) := by
  have hnest : LenTbl.key.len (nlaType l) = some .nested := by
    unfold LenTbl.len
    rw [hencap]
    rfl
  have hnext : LenTbl.key.next (nlaType l) = none := by
    unfold LenTbl.next
    rw [hencap]
    rfl
  have hafter : tblAfter tbl (nlaType l) len = tbl := if_neg hleaf
  have hpayload : PayloadExact val tbl .key (nlaType l) len (nlaData l nla_len) ↔
      nlaData l nla_len = [] := by
    rw [payloadExact_leaf hleaf, if_pos hnest, hnext, if_neg (by rw [hencap]; nofun)]
    exact nest_overwritten hdata
  rw [setsExactly_some h, hlen]
  simp only [Option.some.injEq, exists_eq_left', hpayload, hafter]

/-- An attribute that is a leaf of the key and an entry of the walk's table. -/
theorem keyLeaf_exact {len : AttrLen} {attr : OvsKeyAttr} (h : nlaOk l = some nla_len)
    (hattr : ovsKeyAttrs[nlaType l]? = some attr) (hkey : ovsKeyLens attr ≠ .nested)
    (hlen : tbl.len (nlaType l) = some len) (hleaf : len ≠ .nested) :
    SetsExactly val tbl .key l ↔ SetsExactly val tbl .key (l.drop (nlaAlign nla_len)) := by
  apply setsExactly_leaf h hlen hleaf _ (.inl rfl)
  unfold LenTbl.len
  rw [hattr]
  exact fun heq => hkey (Option.some.inj heq)

theorem keyLens_leaf {attr : OvsKeyAttr} (hencap : attr ≠ .encap) (htunnel : attr ≠ .tunnel) :
    ovsKeyLens attr ≠ .nested := by
  cases attr with
  | encap => exact absurd rfl hencap
  | tunnel => exact absurd rfl htunnel
  | _ => nofun

/-- The table for VXLAN options, at the level of key attributes. -/
theorem afterIcmp_exact (l : List (BitVec 8)) (hl : KeyStream l) :
    SetsExactly val .vxlan .key l ↔ afterIcmp (attrsOf l) = true := by
  induction l using stream_induction with
  | hnone l h =>
      have hnil : attrsOf l = [] := congrArg Prod.fst (attrsOf_none h)
      rw [hnil]
      exact iff_of_true (setsExactly_none h) rfl
  | hsome l nla_len h ih =>
      have hrest := hl.rest h
      obtain ⟨attr, hattr, -, -, hencap⟩ := hl.first h
      rw [(attrsOf_some h).1]
      unfold afterIcmp at ih ⊢
      rw [List.all_cons, Bool.and_eq_true, Bool.and_eq_true, decide_eq_true_iff, Bool.or_eq_true,
        bne_iff_ne, List.isEmpty_iff, ← ih hrest]
      by_cases htype : nlaType l ≤ ovsVxlanExtMax
      · obtain ⟨len, hlen, hleaf⟩ := vxlan_len htype
        by_cases hen : attr = .encap
        · subst hen
          rw [encap_overwritten h hattr hlen hleaf (hencap rfl)]
          simp only [htype, hattr, true_and, ne_eq, not_true_eq_false, false_or]
        · rw [keyLeaf_exact h hattr ?_ hlen hleaf]
          · have hne : ovsKeyAttrs[nlaType l]? ≠ some .encap := by
              rw [hattr]
              exact fun heq => hen (Option.some.inj heq)
            exact (and_iff_right ⟨htype, .inl hne⟩).symm
          · apply keyLens_leaf hen
            rintro rfl
            have hidx := eq_idxOf hattr
            rw [hidx] at htype
            exact absurd htype (by decide)
      · exact iff_of_false (setsExactly_beyond h (vxlan_len_beyond htype)) fun hand => htype hand.1.1

/-- ICMP has the number of VXLAN options: its two bytes are taken for a nest, in which nothing is
found. -/
theorem icmp_exact (h : nlaOk l = some nla_len) (hicmp : ovsKeyAttrs[nlaType l]? = some .icmp)
    (hdata : (nlaData l nla_len).length = 2) :
    SetsExactly val .tunnel .key l ↔ (nlaData l nla_len).all (· == val) = true ∧
      SetsExactly val .vxlan .key (l.drop (nlaAlign nla_len)) := by
  have hnumber : nlaType l = 11 := eq_idxOf hicmp
  have hlen : LenTbl.tunnel.len (nlaType l) = some .nested := by rw [hnumber]; rfl
  have hnext : LenTbl.tunnel.next (nlaType l) = some .vxlan := by rw [hnumber]; rfl
  have hleaf : LenTbl.key.len (nlaType l) ≠ some .nested := by rw [hnumber]; decide
  have hct : ovsKeyAttrs[nlaType l]? ≠ some .ctState := by rw [hicmp]; nofun
  have hafter : tblAfter .tunnel (nlaType l) .nested = .vxlan := by
    unfold tblAfter
    rw [if_pos rfl, hnext]
    rfl
  have hnone : nlaOk (nlaData l nla_len) = none := by
    unfold nlaOk
    exact if_pos (.inl (by rw [hdata]; decide))
  have hpayload : PayloadExact val .tunnel .key (nlaType l) .nested (nlaData l nla_len) ↔
      (nlaData l nla_len).all (· == val) = true := by
    unfold PayloadExact setPayload exactLeaf
    simp only [hafter, if_pos, hleaf, hct, if_false, and_false, nlattrSet_none hnone, inTables_none hnone,
      implies_true, true_and]
    constructor
    · intro heq
      rw [List.all_eq_true]
      intro b hb
      rw [heq fun _ _ => .nested] at hb
      exact beq_iff_eq.mpr (List.eq_of_mem_replicate hb)
    · intro hall _
      rw [List.all_eq_true] at hall
      exact List.eq_replicate_of_mem fun b hb => beq_iff_eq.mp (hall b hb)
  rw [setsExactly_some h, hlen]
  simp only [Option.some.injEq, exists_eq_left', hpayload, hafter]

theorem vxlanOpts_icmp : ∀ type < ovsTunnelKeyAttrs.length,
    ovsTunnelKeyAttrs[type]? = some .vxlanOpts → ovsKeyAttrs[type]? = some .icmp := by decide

/-- The table for tunnels, at the level of key attributes. -/
theorem afterTunnel_exact (l : List (BitVec 8)) (hl : KeyStream l) :
    SetsExactly val .tunnel .key l ↔ afterTunnel val (attrsOf l) = true := by
  induction l using stream_induction with
  | hnone l h =>
      have hnil : attrsOf l = [] := congrArg Prod.fst (attrsOf_none h)
      rw [hnil]
      exact iff_of_true (setsExactly_none h) rfl
  | hsome l nla_len h ih =>
      have hrest := hl.rest h
      obtain ⟨attr, hattr, hcheck, -, hencap⟩ := hl.first h
      have hidx := eq_idxOf hattr
      rw [(attrsOf_some h).1]
      unfold afterTunnel
      dsimp only
      rw [hattr]
      split
      · -- ENCAP, whose number is that of the source address
        rename_i hen
        obtain rfl := Option.some.inj hen
        rw [encap_overwritten h hattr (hidx ▸ rfl : LenTbl.tunnel.len (nlaType l) = some (.fixed 4)) nofun
          (hencap rfl), ih hrest, Bool.and_eq_true, List.isEmpty_iff]
      · rename_i hicmp
        obtain rfl := Option.some.inj hicmp
        have htwo : (nlaData l nla_len).length = 2 := (beq_iff_eq.mp hcheck).symm
        rw [icmp_exact h hattr htwo, afterIcmp_exact _ hrest, Bool.and_eq_true]
      · rename_i hen hicmp
        rw [Bool.and_eq_true, decide_eq_true_iff]
        by_cases hlt : nlaType l < ovsTunnelKeyAttrs.length
        · have hopts : ovsTunnelKeyAttrs[nlaType l]? ≠ some .vxlanOpts := by
            intro hopts
            apply hicmp
            rw [← hattr, vxlanOpts_icmp _ hlt hopts]
          obtain ⟨hsome, hleaf⟩ := tunnel_leaf_lt _ hlt hopts
          obtain ⟨len, hlen⟩ := Option.isSome_iff_exists.mp hsome
          rw [keyLeaf_exact h hattr ?_ hlen fun heq => hleaf (hlen.trans (congrArg some heq)), ih hrest]
          · exact (and_iff_right hlt).symm
          · apply keyLens_leaf
            · rintro rfl
              exact hen rfl
            · rintro rfl
              rw [hidx] at hlt
              exact absurd hlt (by decide)
        · refine iff_of_false (setsExactly_beyond h ?_) fun hand => hlt hand.1
          unfold LenTbl.len
          rw [List.getElem?_eq_none (not_lt.mp hlt)]
          rfl

/-! ### A key -/

/-- An ENCAP before any tunnel: the nest has the table of its level. -/
theorem encap_exact (h : nlaOk l = some nla_len) (hencap : ovsKeyAttrs[nlaType l]? = some .encap) :
    SetsExactly val .key .key l ↔
      SetsExactly val .key .key (nlaData l nla_len) ∧ SetsExactly val .key .key (l.drop (nlaAlign nla_len)) := by
  have hnumber : nlaType l = 1 := eq_idxOf hencap
  have hlen : LenTbl.key.len (nlaType l) = some .nested := by rw [hnumber]; rfl
  have hnext : LenTbl.key.next (nlaType l) = none := by rw [hnumber]; rfl
  have hct : ovsKeyAttrs[nlaType l]? ≠ some .ctState := by rw [hencap]; nofun
  have hafter : tblAfter .key (nlaType l) .nested = .key := by
    unfold tblAfter
    rw [if_pos rfl, hnext]
    rfl
  have hpayload : PayloadExact val .key .key (nlaType l) .nested (nlaData l nla_len) ↔
      SetsExactly val .key .key (nlaData l nla_len) := by
    unfold PayloadExact setPayload SetsExactly
    simp only [hafter, hlen, hnext, hct, if_true, if_false, true_implies, Option.getD_none]
  rw [setsExactly_some h, hlen]
  simp only [Option.some.injEq, exists_eq_left', hpayload, hafter]

/-- A tunnel brings its table, and the attributes after it are read in it. -/
theorem keyTunnel_exact (h : nlaOk l = some nla_len) (htunnel : ovsKeyAttrs[nlaType l]? = some .tunnel) :
    SetsExactly val .key .key l ↔ SetsExactly val .tunnel .tunnel (nlaData l nla_len) ∧
      SetsExactly val .tunnel .key (l.drop (nlaAlign nla_len)) := by
  have hnumber : nlaType l = 16 := eq_idxOf htunnel
  have hlen : LenTbl.key.len (nlaType l) = some .nested := by rw [hnumber]; rfl
  have hnext : LenTbl.key.next (nlaType l) = some .tunnel := by rw [hnumber]; rfl
  have hct : ovsKeyAttrs[nlaType l]? ≠ some .ctState := by rw [htunnel]; nofun
  have hafter : tblAfter .key (nlaType l) .nested = .tunnel := by
    unfold tblAfter
    rw [if_pos rfl, hnext]
    rfl
  have hpayload : PayloadExact val .key .key (nlaType l) .nested (nlaData l nla_len) ↔
      SetsExactly val .tunnel .tunnel (nlaData l nla_len) := by
    unfold PayloadExact setPayload SetsExactly
    simp only [hafter, hlen, hnext, hct, if_true, if_false, true_implies, Option.getD_some]
  rw [setsExactly_some h, hlen]
  simp only [Option.some.injEq, exists_eq_left', hpayload, hafter]

/-- One level, given what is known of the nests in it. -/
theorem keyOrdered_exact {nested : List (BitVec 8) → Bool} (l : List (BitVec 8)) (hl : KeyStream l)
    (hnested : ∀ data : List (BitVec 8), data.length < l.length → KeyStream data →
      (SetsExactly val .key .key data ↔ nested data = true)) :
    SetsExactly val .key .key l ↔ keyOrdered val nested (attrsOf l) = true := by
  induction l using stream_induction with
  | hnone l h =>
      have hnil : attrsOf l = [] := congrArg Prod.fst (attrsOf_none h)
      rw [hnil]
      exact iff_of_true (setsExactly_none h) rfl
  | hsome l nla_len h ih =>
      have hrest := hl.rest h
      have hlength := rest_length h
      have hbounds := nlaOk_bounds h
      have hdata := nlaData_length h
      have hfour : nlaHdrlen = 4 := rfl
      obtain ⟨attr, hattr, hcheck, htunnel, hencap⟩ := hl.first h
      have hrec := ih hrest fun data hlt => hnested data (by omega)
      rw [(attrsOf_some h).1]
      unfold keyOrdered
      dsimp only
      rw [hattr]
      split
      · rename_i hen
        obtain rfl := Option.some.inj hen
        rw [encap_exact h hattr, hnested _ (by omega) (hencap rfl), hrec, Bool.and_eq_true]
      · rename_i htun
        obtain rfl := Option.some.inj htun
        rw [keyTunnel_exact h hattr, tunnel_exact _ (htunnel rfl), afterTunnel_exact _ hrest,
          Bool.and_eq_true]
      · rename_i hen htun
        have hkey := keyLens_leaf (fun heq => hen (congrArg some heq)) fun heq => htun (congrArg some heq)
        have hlen : LenTbl.key.len (nlaType l) = some (ovsKeyLens attr) := by
          unfold LenTbl.len
          rw [hattr]
          rfl
        rw [keyLeaf_exact h hattr hkey hlen hkey, hrec]

theorem nestsLast_exact (depth : Nat) :
    ∀ l : List (BitVec 8), l.length ≤ depth → KeyStream l →
      (SetsExactly val .key .key l ↔ nestsLast val depth l = true) := by
  induction depth with
  | zero =>
      intro l hl _
      obtain rfl := List.length_eq_zero_iff.mp (Nat.le_zero.mp hl)
      exact iff_of_true (setsExactly_none rfl) rfl
  | succ depth ih =>
      intro l hl hstream
      exact keyOrdered_exact l hstream fun data hlt => ih data (by omega)

/-! ## The keys that are accepted -/

variable {env : NetlinkEnv} {key : SwFlowKey} {p p' : ParsedAttrs} {stores : KeyStores}
variable {data nla_key : List (BitVec 8)}

theorem vxlanTunOptLoop_ok {nlas : List Nlattr} {opts opts' : List (BitVec 8)}
    (h : vxlanTunOptLoop nlas opts = .ok opts') : ∀ nla ∈ nlas, nla.type ≤ ovsVxlanExtMax := by
  induction nlas generalizing opts with
  | nil => exact nofun
  | cons nla rest ih =>
      unfold vxlanTunOptLoop at h
      split_ifs at h with hbad
      push Not at hbad
      exact List.forall_mem_cons.mpr ⟨hbad.1, ih h⟩

theorem vxlanTunOpt_stream {is_mask : Bool} (h : vxlanTunOptFromNlattr data is_mask = .ok stores) :
    VxlanStream data := by
  unfold vxlanTunOptFromNlattr at h
  dsimp only at h
  split at h
  · cases h
  · rename_i hloop
    exact vxlanTunOptLoop_ok hloop

theorem ipTunLoop_ok {is_mask : Bool} {nlas : List Nlattr} {s s' : TunState}
    (h : ipTunLoop key is_mask nlas s = .ok s') :
    ∀ nla ∈ nlas, nla.type < ovsTunnelKeyAttrs.length ∧
      (ovsTunnelKeyAttrs[nla.type]? = some .vxlanOpts → VxlanStream nla.data) := by
  induction nlas generalizing s with
  | nil => exact nofun
  | cons nla rest ih =>
      unfold ipTunLoop at h
      split at h
      · cases h
      · rename_i attr hattr
        split_ifs at h
        split at h
        · cases h
        · rename_i s₁ hstep
          refine List.forall_mem_cons.mpr ⟨⟨(List.getElem?_eq_some_iff.mp hattr).1, fun hopts => ?_⟩, ih h⟩
          obtain rfl := Option.some.inj (hattr.symm.trans hopts)
          dsimp only [ipTunAttr] at hstep
          split_ifs at hstep
          split at hstep
          · cases hstep
          · rename_i hvxlan
            exact vxlanTunOpt_stream hvxlan

/-- The data of a tunnel that is accepted. -/
theorem ipTun_stream {is_mask : Bool} (h : ipTunFromNlattr key data is_mask = .ok stores) :
    TunnelStream data := by
  unfold ipTunFromNlattr at h
  dsimp only at h
  split at h
  · cases h
  · rename_i s hloop
    have hall := ipTunLoop_ok hloop
    exact ⟨fun nla hnla => (hall nla hnla).1, fun nla hnla => (hall nla hnla).2⟩

/-- What is known of the nests that the parser has seen. -/
structure NestsParsed (p : ParsedAttrs) : Prop where
  tunnel : OvsKeyAttr.tunnel ∈ p.attrs → TunnelStream (p.data .tunnel)
  encap : OvsKeyAttr.encap ∈ p.attrs → KeyStream (p.data .encap)

/-- A level of a key that is accepted, given its nests. -/
theorem NestsParsed.keyStream (hp : NestsParsed p') (h : parseFlowNlattrs false data p = .ok p') :
    KeyStream data := by
  obtain ⟨hrem, hcollected⟩ := parseFlowNlattrs_ok h
  have hseen : ∀ nla ∈ attrsOf data, ∀ attr, ovsKeyAttrs[nla.type]? = some attr →
      checkAttrLen nla.data.length (ovsKeyLens attr) = true ∧ attr ∈ p'.attrs ∧
        p'.data attr = nla.data := by
    intro nla hnla attr hattr
    obtain ⟨attr', hattr', -, hlen, hset⟩ := hcollected.known nla hnla
    obtain rfl := Option.some.inj (hattr.symm.trans hattr')
    obtain ⟨hmem, ha⟩ := hset rfl
    exact ⟨hlen, hmem, congrArg (Option.getD · []) ha⟩
  refine .mk hrem ?_ (fun nla hnla attr hattr => (hseen nla hnla attr hattr).1) ?_ ?_
  · intro nla hnla
    obtain ⟨attr, hattr, -⟩ := hcollected.known nla hnla
    exact (List.getElem?_eq_some_iff.mp hattr).1
  · intro nla hnla hattr
    obtain ⟨-, hmem, hdata⟩ := hseen nla hnla _ hattr
    exact hdata ▸ hp.tunnel hmem
  · intro nla hnla hattr
    obtain ⟨-, hmem, hdata⟩ := hseen nla hnla _ hattr
    exact hdata ▸ hp.encap hmem

/-- What an accepted key has left after its tags: a tunnel as it should be, and no ENCAP. -/
theorem ovsKeyFromNlattrs_nests (h : ovsKeyFromNlattrs env key p false = .ok stores) : NestsParsed p := by
  obtain ⟨p₁, meta_stores, p₂, eth_stores, hmeta, heth, -, hleft, -⟩ := ovsKeyFromNlattrs_ok h
  constructor
  · intro hmem
    obtain ⟨in_port, tunnel, eth_type, -, htunnel, -⟩ := hmeta.parts
    unfold tunnelAttrStores ParsedAttrs.has at htunnel
    rw [if_pos (decide_eq_true hmem)] at htunnel
    exact ipTun_stream htunnel
  · intro hmem
    exfalso
    have hmeta_attrs : OvsKeyAttr.encap ∉ (metadataAttrs env).toFinset := by
      unfold metadataAttrs ctAttrs
      simp [phyAttrs, ctTupleAttrs]
    have hmem₁ : OvsKeyAttr.encap ∈ p₁.attrs := by
      rw [hmeta.attrs]
      split_ifs
      · exact Finset.mem_erase.mpr ⟨nofun, Finset.mem_sdiff.mpr ⟨hmem, hmeta_attrs⟩⟩
      · exact Finset.mem_sdiff.mpr ⟨hmem, hmeta_attrs⟩
    exact absurd (hleft (((ethFromNlattrs_rest heth).2 .encap nofun nofun).mpr hmem₁)) (by decide)

/-- The nests before a tag is parsed, by those after it. -/
theorem NestsParsed.tag {inner : Bool} (hp : NestsParsed p')
    (h : parseVlanFromNlattrs1 key p inner false = .ok (p', stores)) : NestsParsed p := by
  unfold parseVlanFromNlattrs1 at h
  split at h
  · cases h
  · obtain ⟨rfl, -⟩ := Prod.mk.inj (Except.ok.inj h)
    exact hp
  · dsimp only at h
    split at h
    · cases h
    · rename_i p₁ hparse
      obtain ⟨rfl, -⟩ := Prod.mk.inj (Except.ok.inj h)
      refine ⟨fun hmem => ?_, fun _ => hp.keyStream hparse⟩
      have hcleared : OvsKeyAttr.tunnel ∈ (((p.clear .encap).clear .vlan).clear .ethertype).attrs := by
        simp [ParsedAttrs.clear, hmem]
      obtain ⟨hkept, ha⟩ := (parseFlowNlattrs_ok hparse).2.kept _ hcleared
      have hdata : p₁.data .tunnel = p.data .tunnel := congrArg (Option.getD · []) ha
      rw [← hdata]
      exact hp.tunnel hkept

/-- The streams of an accepted key. -/
theorem keyFromNlattrs_stream {r : ParsedAttrs × KeyStores} (h : keyFromNlattrs env nla_key = .ok r) :
    KeyStream nla_key := by
  obtain ⟨p₁, hparse, h⟩ := bind_eq_ok.mp h
  obtain ⟨⟨p₂, vlan_stores⟩, hvlan, h⟩ := bind_eq_ok.mp h
  obtain ⟨key_stores, hkey, -⟩ := bind_eq_ok.mp h
  have hnests := ovsKeyFromNlattrs_nests hkey
  apply NestsParsed.keyStream _ hparse
  unfold parseVlanFromNlattrs at hvlan
  split at hvlan
  · cases hvlan
  · rename_i p₃ stores₃ hfirst
    dsimp only at hvlan
    split_ifs at hvlan
    · split at hvlan
      · cases hvlan
      · rename_i p₄ stores₄ hsecond
        obtain ⟨rfl, -⟩ := Prod.mk.inj (Except.ok.inj hvlan)
        exact (hnests.tag hsecond).tag hfirst
    · obtain ⟨rfl, -⟩ := Prod.mk.inj (Except.ok.inj hvlan)
      exact hnests.tag hfirst

/-! ## The exact mask -/

/-- **The mask made from a key is exact if and only if nothing that is misread comes after a tunnel**:
the tables have an entry for every attribute, all leaves are set and nothing else is changed. -/
theorem maskSet_exact_iff {r : ParsedAttrs × KeyStores} (h : keyFromNlattrs env nla_key = .ok r)
    (val : BitVec 8) :
    (inTables nla_key.length .key nla_key = true ∧
        ∀ beyond, maskSetNlattr beyond val nla_key = exactMask val nla_key.length .key nla_key) ↔
      nestsLast val nla_key.length nla_key = true := by
  apply nestsLast_exact _ _ le_rfl
  exact keyFromNlattrs_stream h

/-- A tunnel to 192.0.2.1. -/
def tunnelAttr : Nlattr :=
  keyAttr .tunnel (nlaStream [tunAttr .ipv4Dst [192, 0, 2, 1], tunAttr .ttl [64]])

/-- A marked frame from a tunnel, with the tunnel behind everything else. -/
def tunnelLastKey : List (BitVec 8) :=
  nlaStream [keyAttr .skbMark [1, 0, 0, 0], keyAttr .ethernet (zeros 12), keyAttr .ethertype [0x08, 0x06],
    keyAttr .arp (zeros 24), tunnelAttr]

/-- A frame of ARP from a tunnel. -/
theorem maskSet_exact_tunnelLast : ∃ r, keyFromNlattrs plainNetlink tunnelLastKey = .ok r ∧
    inTables tunnelLastKey.length .key tunnelLastKey = true ∧
    ∀ beyond, maskSetNlattr beyond 0xFF tunnelLastKey = exactMask 0xFF tunnelLastKey.length .key tunnelLastKey := by
  have haccepted : (keyFromNlattrs plainNetlink tunnelLastKey).toBool = true := by decide +kernel
  obtain ⟨r, hr⟩ : ∃ r, keyFromNlattrs plainNetlink tunnelLastKey = .ok r := by
    cases hkey : keyFromNlattrs plainNetlink tunnelLastKey with
    | error e =>
        rw [hkey] at haccepted
        cases haccepted
    | ok r => exact ⟨r, rfl⟩
  exact ⟨r, hr, (maskSet_exact_iff hr 0xFF).mpr (by decide +kernel)⟩

/-- A marked frame from a tunnel, in the order in which keys are written. -/
def markedKey : List (BitVec 8) :=
  nlaStream [tunnelAttr, keyAttr .skbMark [1, 0, 0, 0], keyAttr .ethernet (zeros 12),
    keyAttr .ethertype [0x08, 0x06], keyAttr .arp (zeros 24)]

/-- An echo request from a tunnel. -/
def echoKey : List (BitVec 8) :=
  nlaStream [tunnelAttr, keyAttr .ethernet (zeros 12), keyAttr .ethertype [0x08, 0x00],
    keyAttr .ipv4 [10, 0, 0, 1, 10, 0, 0, 2, 1, 0, 64, 0], keyAttr .icmp [8, 0]]

/-- The mark after a tunnel has no entry in the table for tunnels, and the type of the ICMP message is
not set in the mask, nor is its code. -/
theorem maskSet_not_exact :
    ((keyFromNlattrs plainNetlink markedKey).toBool = true ∧
      inTables markedKey.length .key markedKey = false) ∧
    (keyFromNlattrs plainNetlink echoKey).toBool = true ∧
      (maskSetNlattr plainNetlink.beyond 0xFF echoKey).drop 60 = echoKey.drop 60 ∧
      (exactMask 0xFF echoKey.length .key echoKey).drop 60 = [6, 0, 11, 0, 0xFF, 0xFF, 0, 0] ∧
      echoKey.drop 60 = [6, 0, 11, 0, 8, 0, 0, 0] := by
  decide +kernel

end OvsDatapath.Flow
