import OvsDatapath.Actions.CopyActions
import OvsDatapath.Lib.Wrap

/-!
# What the action validator reads

`__ovs_nla_copy_actions` once more, with the addresses that it reads. An attribute is an offset into the
payload of `OVS_FLOW_ATTR_ACTIONS`, and each read is checked against the length of the payload. A read past
it stops the validator with `outside`.

The walk over the attributes stays within the payload. `validate_set` looks at the header of the key before
it asks whether there is one, and `copy_action` copies the padding of an attribute whether it is there or
not. `Readable` says that none of the attributes that the validator comes to is of this kind, and
`copyActionsAt_spec` that it gives the answer of `copyActionsLoop` then, and is stopped otherwise.
-/

namespace OvsDatapath.Actions.Read

open OvsDatapath.Lib OvsDatapath.Flow

/-! ## Reading -/

/-- Why the validator stops: a read past the payload, an error, or the walk has not come to its end. -/
inductive Stop where
  | outside
  | errno (err : Int)
  | fuel
  deriving DecidableEq, Repr

/-- An answer that needs no read. -/
def lift {α : Type} : Except Int α → Except Stop α
  | .ok a => .ok a
  | .error err => .error (.errno err)

/-- Some bytes of the payload. -/
def readBytes (p : List (BitVec 8)) (off len : Nat) : Except Stop (List (BitVec 8)) :=
  if off + len ≤ p.length then .ok ((p.drop off).take len) else .error .outside

/-- `nla_ok`, and the length that the header gives. -/
def nlaOkAt (p : List (BitVec 8)) (a : Nat) (rem : Int) : Except Stop (Option Nat) :=
  if rem < nlaHdrlen then .ok none
  else do
    let header ← readBytes p a nlaHdrlen
    let nla_len := (le16At header 0).toNat
    .ok (if nla_len < nlaHdrlen ∨ rem < nla_len then none else some nla_len)

/-- An attribute in the payload, with what its header says. -/
structure NlaAt where
  off : Nat
  nla_len : Nat
  type : Nat

/-- `nla_for_each_attr`: the attributes, and the bytes that remain. -/
def nlaForEachAt (p : List (BitVec 8)) : Nat → Nat → Int → Except Stop (List NlaAt × Int)
  | 0, _, _ => .error .fuel
  | fuel + 1, a, rem => do
      match ← nlaOkAt p a rem with
      | none => .ok ([], rem)
      | some nla_len =>
          let header ← readBytes p a nlaHdrlen
          let (rest, rem) ← nlaForEachAt p fuel (a + nlaAlign nla_len) (rem - nlaAlign nla_len)
          .ok (⟨a, nla_len, nlaType header⟩ :: rest, rem)

/-! ## Set actions -/

/-- The loop of `validate_masked`, from the addresses of a byte of the key and of one of the mask. -/
def validateMaskedAt (p : List (BitVec 8)) : Nat → Nat → Nat → Except Stop Bool
  | 0, _, _ => .ok true
  | len + 1, data, mask => do
      let byte ← readBytes p data 1
      let bits ← readBytes p mask 1
      if byteAt byte 0 &&& ~~~byteAt bits 0 ≠ 0 then .ok false
      else validateMaskedAt p len (data + 1) (mask + 1)

/-- `key_len` of `validate_set`, a `size_t`. For a header that is shorter than itself it is huge. -/
def keyLen (inner : Nat) (masked : Bool) : Nat :=
  let key_len := (((inner : Int) - nlaHdrlen) % 2 ^ 64).toNat
  if masked then key_len / 2 else key_len

/-- The call of `validate_masked`, which takes the length as an `int`. A negative length is counted down
until it comes round to zero. -/
def validateMaskedKey (p : List (BitVec 8)) (data key_len : Nat) : Except Stop Bool :=
  let len := signed 32 key_len
  validateMaskedAt p (len % 2 ^ 32).toNat data (data + len).toNat

/-- `validate_set`. -/
def validateSetAt (env : ActionsEnv) (key : SwFlowKey) (p : List (BitVec 8)) (st : CopyState)
    (sfa : SwFlowActions) (a nla_len : Nat) (masked : Bool) :
    Except Stop (Option Action × SwFlowActions) := do
  let ovs_key := a + nlaHdrlen
  let header ← readBytes p ovs_key nlaHdrlen
  let inner := (le16At header 0).toNat
  if nlaAlign inner ≠ nla_len - nlaHdrlen then .error (.errno einval)
  else
    let key_len := keyLen inner masked
    match ovsKeyAttrs[nlaType header]? with
    | none => .error (.errno einval)
    | some attr =>
        if !checkAttrLen (key_len % 2 ^ 32) (ovsKeyLens attr) then .error (.errno einval)
        else do
          let covered ← if masked then validateMaskedKey p (ovs_key + nlaHdrlen) key_len else .ok true
          if !covered then .error (.errno einval)
          else do
            let data ← readBytes p (ovs_key + nlaHdrlen) (inner - nlaHdrlen)
            if attr = .tunnel then
              if !env.upstream_tunnel && ethPMpls st.eth_type then .error (.errno einval)
              else if masked then .error (.errno einval)
              else do
                let sfa ← lift (validateAndCopySetTun env sfa data)
                .ok (none, sfa)
            else if !validateSetKey st key masked data attr then .error (.errno einval)
            else if masked then do
              let set ← readBytes p ovs_key (nla_len - nlaHdrlen)
              .ok (some (.setMasked set), sfa)
            else do
              let sfa ← lift (reserveSfaSize env sfa nlaHdrlen)
              let sfa ← lift (addAction env sfa (nlaHdrlen + key_len * 2)
                (.setMasked (nlaBytes attr (data ++ fullMask attr key_len))))
              .ok (none, sfa)

/-! ## The list -/

/-- The loop of `validate_and_copy_sample` that sorts the attributes by type. -/
def sampleAttrsAt : List NlaAt → (Nat → Option NlaAt) → Except Int (Nat → Option NlaAt)
  | [], attrs => .ok attrs
  | a :: rest, attrs =>
      if a.type = 0 ∨ ovsSampleAttrActions < a.type ∨ (attrs a.type).isSome then .error einval
      else sampleAttrsAt rest (Function.update attrs a.type (some a))

/-- What `validate_and_copy_sample` has found before it goes through the nested actions. -/
structure SampleStart where
  probability : BitVec 32
  exec : Bool
  actions : NlaAt
  sfa : SwFlowActions

/-- `validate_and_copy_sample` up to the nested actions. -/
def sampleStartAt (env : ActionsEnv) (p : List (BitVec 8)) (sfa : SwFlowActions) (a nla_len : Nat)
    (last : Bool) : Except Stop SampleStart := do
  let (nlas, rem) ← nlaForEachAt p (p.length + 1) (a + nlaHdrlen) (nla_len - nlaHdrlen : Nat)
  let attrs ← lift (sampleAttrsAt nlas fun _ => none)
  if rem ≠ 0 then .error (.errno einval)
  else
    match attrs ovsSampleAttrProbability, attrs ovsSampleAttrActions with
    | some probability, some actions =>
        if probability.nla_len - nlaHdrlen ≠ 4 then .error (.errno einval)
        else if actions.nla_len - nlaHdrlen ≠ 0 ∧ actions.nla_len - nlaHdrlen < nlaHdrlen then
          .error (.errno einval)
        else do
          let start ← lift (reserveSfaSize env sfa nlaHdrlen)
          let (nested, _) ← nlaForEachAt p (p.length + 1) (actions.off + nlaHdrlen)
            (actions.nla_len - nlaHdrlen : Nat)
          let exec := last || !attrsMayChangeFlow (nested.map NlaAt.type)
          let value ← readBytes p (probability.off + nlaHdrlen) 4
          -- `struct sample_arg`
          let start ← lift (reserveSfaSize env start (nlaHdrlen + 8))
          .ok ⟨le32At value 0, exec, actions, { start with actions := [] }⟩
    | _, _ => .error (.errno einval)

/-- `validate_and_copy_sample`; `copy` goes through the nested actions. -/
def validateAndCopySampleAt (env : ActionsEnv) (p : List (BitVec 8))
    (copy : Nat → Int → SwFlowActions → Except Stop SwFlowActions) (sfa : SwFlowActions) (a nla_len : Nat)
    (last : Bool) : Except Stop SwFlowActions := do
  let start ← sampleStartAt env p sfa a nla_len last
  let nested ← copy (start.actions.off + nlaHdrlen) (start.actions.nla_len - nlaHdrlen : Nat) start.sfa
  .ok { nested with actions := sfa.actions ++ [.sample start.probability start.exec nested.actions] }

/-- The switch of `__ovs_nla_copy_actions`. The other actions, and the callees of USERSPACE and CT, read
what is in their attribute. -/
def copyActionsSwitchAt (env : ActionsEnv) (key : SwFlowKey) (p : List (BitVec 8))
    (copy : CopyState → Nat → Int → SwFlowActions → Except Stop SwFlowActions) (st : CopyState)
    (sfa : SwFlowActions) (a nla_len : Nat) (last : Bool) :
    OvsActionAttr → Except Stop (CopyState × Option Action × SwFlowActions)
  | .set => do
      let (action, sfa) ← validateSetAt env key p st sfa a nla_len false
      .ok (st, action, sfa)
  | .setMasked => do
      let (action, sfa) ← validateSetAt env key p st sfa a nla_len true
      .ok (st, action, sfa)
  | .sample => do
      -- the nested list starts with the Ethernet header that the key has
      let nested : CopyState := { st with mac_proto := ovsKeyMacProto key }
      let sfa ← validateAndCopySampleAt env p (copy nested) sfa a nla_len last
      .ok (st, none, sfa)
  | attr => do
      let data ← readBytes p (a + nlaHdrlen) (nla_len - nlaHdrlen)
      lift (copyActionsSwitch env key (fun _ _ sfa => .ok sfa) st sfa data last attr)

/-- `copy_action`: the padding is copied along. -/
def copyActionAt (env : ActionsEnv) (p : List (BitVec 8)) (sfa : SwFlowActions) (a nla_len : Nat)
    (action : Action) : Except Stop SwFlowActions := do
  let sfa ← lift (reserveSfaSize env sfa nla_len)
  let _ ← readBytes p a (nlaAlign nla_len)
  .ok (sfa.push action)

/-- The loop of `__ovs_nla_copy_actions`, from an attribute and the bytes that remain. -/
def copyActionsAt (env : ActionsEnv) (key : SwFlowKey) (p : List (BitVec 8)) :
    Nat → CopyState → Nat → Int → SwFlowActions → Except Stop SwFlowActions
  | 0, _, _, _, _ => .error .fuel
  | fuel + 1, st, a, rem, sfa => do
      match ← nlaOkAt p a rem with
      | none => if 0 < rem then .error (.errno einval) else .ok sfa
      | some nla_len =>
          let header ← readBytes p a nlaHdrlen
          match ovsActionAttrs[nlaType header]? with
          | none => .error (.errno einval)
          | some attr =>
              if (actionLens attr).any (· ≠ nla_len - nlaHdrlen) then .error (.errno einval)
              else do
                let (st, action, sfa) ← copyActionsSwitchAt env key p (copyActionsAt env key p fuel) st sfa
                  a nla_len (rem == nla_len) attr
                let sfa ← match action with
                  | some action => copyActionAt env p sfa a nla_len action
                  | none => .ok sfa
                copyActionsAt env key p fuel st (a + nlaAlign nla_len) (rem - nlaAlign nla_len) sfa

/-- `ovs_nla_copy_actions`, which may go through as many attributes as it likes. -/
def ovsNlaCopyActionsAt (env : ActionsEnv) (attr : List (BitVec 8)) (key : SwFlowKey) (fuel : Nat) :
    Except Stop (List Action) :=
  if env.max_actions_bufsize < attr.length then .error (.errno einval)
  else if !env.sfa_alloc then .error (.errno enomem)
  else do
    let sfa ← copyActionsAt env key attr fuel (copyStateOf key) 0 attr.length ⟨0, []⟩
    .ok sfa.actions

/-! ## What can be read -/

/-- The part of the payload from an offset on, of some length. -/
def cut (p : List (BitVec 8)) (off : Nat) (len : Int) : List (BitVec 8) := (p.drop off).take len.toNat

/-- The bytes of a key and of its mask are within the payload, up to the first bit that the mask does not
have. -/
def MaskReadable (p : List (BitVec 8)) (len data mask : Nat) : Prop :=
  data + len ≤ p.length ∨
    ∃ i < len, data + i < p.length ∧ byteAt p (data + i) &&& ~~~byteAt p (mask + i) ≠ 0

/-- There are four bytes behind the header of a set action, and where they pass for the header of a key
with a mask, both can be read. They can unless the length that they give is less than four. -/
def SetReadable (p : List (BitVec 8)) (a nla_len : Nat) (masked : Bool) : Prop :=
  let header := cut p (a + nlaHdrlen) nlaHdrlen
  let inner := (le16At header 0).toNat
  a + nlaHdrlen + nlaHdrlen ≤ p.length ∧
    ∀ attr, nlaAlign inner = nla_len - nlaHdrlen → ovsKeyAttrs[nlaType header]? = some attr →
      checkAttrLen (keyLen inner masked % 2 ^ 32) (ovsKeyLens attr) = true → masked = true →
      let len := signed 32 (keyLen inner masked)
      let data := a + nlaHdrlen + nlaHdrlen
      MaskReadable p (len % 2 ^ 32).toNat data (data + len).toNat

/-- `copy_action`, unless the copy is skipped. -/
def copyIfAny (env : ActionsEnv) (sfa : SwFlowActions) (nla_len : Nat) :
    Option Action → Except Int SwFlowActions
  | some action => addAction env sfa nla_len action
  | none => .ok sfa

/-- One attribute, before it is copied. -/
def ReadableAttr (env : ActionsEnv) (key : SwFlowKey) (p : List (BitVec 8))
    (readable : CopyState → Nat → Int → SwFlowActions → Prop) (st : CopyState) (sfa : SwFlowActions)
    (a nla_len : Nat) (last : Bool) : OvsActionAttr → Prop
  | .set => SetReadable p a nla_len false
  | .setMasked => SetReadable p a nla_len true
  | .sample =>
      ∀ start, sampleStartAt env p sfa a nla_len last = .ok start →
        readable { st with mac_proto := ovsKeyMacProto key } (start.actions.off + nlaHdrlen)
          (start.actions.nla_len - nlaHdrlen : Nat) start.sfa
  | _ => True

/-- **Each attribute that the validator comes to can be read**: a set action has four bytes behind its
header, and what is copied has its padding. -/
def Readable (env : ActionsEnv) (key : SwFlowKey) (p : List (BitVec 8)) :
    Nat → CopyState → Nat → Int → SwFlowActions → Prop
  | 0, _, _, _, _ => True
  | fuel + 1, st, a, rem, sfa =>
      ∀ nla_len attr, nlaOk (cut p a rem) = some nla_len →
      ovsActionAttrs[nlaType (cut p a rem)]? = some attr →
      (actionLens attr).any (· ≠ nla_len - nlaHdrlen) = false →
      ReadableAttr env key p (Readable env key p fuel) st sfa a nla_len (rem == nla_len) attr ∧
      ∀ st' action sfa', copyActionsSwitch env key (copyActionsLoop env key fuel) st sfa
          (cut p (a + nlaHdrlen) (nla_len - nlaHdrlen : Nat)) (rem == nla_len) attr =
        .ok (st', action, sfa') →
        (∀ sfa'', action.isSome → reserveSfaSize env sfa' nla_len = .ok sfa'' →
          a + nlaAlign nla_len ≤ p.length) ∧
        ∀ sfa'', copyIfAny env sfa' nla_len action = .ok sfa'' →
          Readable env key p fuel st' (a + nlaAlign nla_len) (rem - nlaAlign nla_len) sfa''

/-- The validator comes to an answer without a read past the payload. -/
def ReadsInside (r : Except Stop (List Action)) : Prop := ∃ answer, r = lift answer

/-! ## Answers -/

/-- A computation gives an answer if something can be read, and else stops at the read. -/
structure Answers {α : Type} (readable : Prop) (r : Except Stop α) (answer : Except Int α) : Prop where
  inside : readable → r = lift answer
  outside : ¬ readable → r = .error .outside

section

variable {α β : Type} {R R' : Prop} {r : Except Stop α} {answer : Except Int α}

theorem Answers.congr (h : Answers R r answer) (hiff : R' ↔ R) : Answers R' r answer :=
  ⟨fun hR => h.inside (hiff.mp hR), fun hR => h.outside (mt hiff.mpr hR)⟩

theorem answers_lift (answer : Except Int α) : Answers True (lift answer) answer :=
  ⟨fun _ => rfl, fun h => absurd trivial h⟩

/-- What needs no read may come first. -/
theorem answers_lift_bind {f : α → Except Stop β} {g : α → Except Int β} (answer : Except Int α)
    (hf : ∀ a, Answers True (f a) (g a)) : Answers True (lift answer >>= f) (answer >>= g) := by
  cases answer with
  | error err => exact answers_lift (.error err)
  | ok a => exact hf a

theorem answers_ok (a : α) : Answers True (.ok a) (.ok a) := answers_lift (.ok a)

theorem answers_error (err : Int) : Answers True (.error (.errno err) : Except Stop α) (.error err) :=
  answers_lift (.error err)

/-- The second part of a sequence is read if the first one has an answer. -/
theorem Answers.bind {f : α → Except Stop β} {g : α → Except Int β} {S : α → Prop} (h : Answers R r answer)
    (hf : ∀ a, answer = .ok a → Answers (S a) (f a) (g a)) :
    Answers (R ∧ ∀ a, answer = .ok a → S a) (r >>= f) (answer >>= g) := by
  by_cases hR : R
  · rw [h.inside hR]
    cases answer with
    | error err => exact ⟨fun _ => rfl, fun hnot => absurd ⟨hR, fun a ha => by cases ha⟩ hnot⟩
    | ok a =>
        refine Answers.congr (hf a rfl) ?_
        simp [hR]
  · rw [h.outside hR]
    exact ⟨fun hboth => absurd hboth.1 hR, fun _ => rfl⟩

/-- The answer may be put into another shape. -/
theorem Answers.then_ok (h : Answers R r answer) (f : α → β) :
    Answers R (r >>= fun a => .ok (f a)) (answer >>= fun a => .ok (f a)) := by
  refine Answers.congr (h.bind (S := fun _ => True) fun a _ => answers_ok (f a)) ?_
  exact ⟨fun hR => ⟨hR, fun _ _ => trivial⟩, And.left⟩

/-- The same for a first part without errors. -/
theorem Answers.bind_ok {f : α → Except Stop β} {a : α} {S : Prop} {answer : Except Int β}
    (h : Answers R r (.ok a)) (hf : Answers S (f a) answer) : Answers (R ∧ S) (r >>= f) answer := by
  by_cases hR : R
  · rw [h.inside hR]
    exact hf.congr (and_iff_right hR)
  · rw [h.outside hR]
    exact ⟨fun hboth => absurd hboth.1 hR, fun _ => rfl⟩

end

/-! ## The walk -/

section

variable {env : ActionsEnv} {key : SwFlowKey} {p : List (BitVec 8)} {st : CopyState} {sfa : SwFlowActions}
variable {a nla_len : Nat} {rem : Int} {last : Bool}

theorem cut_length {off : Nat} {len : Int} (h : off + len.toNat ≤ p.length) :
    (cut p off len).length = len.toNat := by
  rw [cut, List.length_take, List.length_drop]
  omega

/-- A byte of a part is a byte of the payload. -/
theorem byteAt_cut {off i : Nat} {len : Int} (h : i < len.toNat) :
    byteAt (cut p off len) i = byteAt p (off + i) := by
  simp only [byteAt, cut, List.getD_eq_getElem?_getD, List.getElem?_take_of_lt h, List.getElem?_drop]

theorem readBytes_of_le {off len : Nat} (h : off + len ≤ p.length) :
    readBytes p off len = .ok (cut p off len) := if_pos h

theorem readBytes_of_not_le {off len : Nat} (h : ¬ off + len ≤ p.length) :
    readBytes p off len = .error .outside := if_neg h

/-- The header of an attribute can be read in the part that it heads. -/
theorem header_cut (h : nlaHdrlen ≤ rem.toNat) :
    le16At (cut p a nlaHdrlen) 0 = le16At (cut p a rem) 0 ∧
      nlaType (cut p a nlaHdrlen) = nlaType (cut p a rem) := by
  have hbyte : ∀ i < 4, byteAt (cut p a nlaHdrlen) i = byteAt (cut p a rem) i := by
    intro i hi
    rw [byteAt_cut (show i < ((nlaHdrlen : Nat) : Int).toNat from hi), byteAt_cut (hi.trans_le h)]
  have hle : ∀ i < 3, le16At (cut p a nlaHdrlen) i = le16At (cut p a rem) i := by
    intro i hi
    rw [le16At, le16At, hbyte i (by omega), hbyte (i + 1) (by omega)]
  exact ⟨hle 0 (by decide), by rw [nlaType, nlaType, hle 2 (by decide)]⟩

theorem nlaOkAt_eq (h : a + rem.toNat ≤ p.length) : nlaOkAt p a rem = .ok (nlaOk (cut p a rem)) := by
  have hlen := cut_length h
  have hfour : nlaHdrlen = 4 := rfl
  unfold nlaOkAt nlaOk
  by_cases hshort : rem < nlaHdrlen
  · rw [if_pos hshort]
    dsimp only
    rw [if_pos (.inl (by omega))]
  · have hhdr : nlaHdrlen ≤ rem.toNat := by omega
    rw [if_neg hshort, readBytes_of_le (by omega), ok_bind, (header_cut hhdr).1]
    dsimp only
    congr 1
    refine if_congr ?_ rfl rfl
    omega

/-- The payload of an attribute, in the list and in the whole. -/
theorem data_cut (h : nlaHdrlen ≤ nla_len ∧ nla_len ≤ (cut p a rem).length) :
    ((cut p a rem).take nla_len).drop nlaHdrlen = cut p (a + nlaHdrlen) (nla_len - nlaHdrlen : Nat) := by
  have hlen : nla_len ≤ rem.toNat := h.2.trans (List.length_take_le _ _)
  rw [cut, cut, List.take_take, min_eq_left hlen, List.drop_take, List.drop_drop]
  rfl

theorem rest_cut :
    (cut p a rem).drop (nlaAlign nla_len) = cut p (a + nlaAlign nla_len) (rem - nlaAlign nla_len) := by
  rw [cut, cut, List.drop_take, List.drop_drop]
  congr 1
  omega

/-- An attribute, with its payload in place of its offset. -/
def NlaAt.nlattr (p : List (BitVec 8)) (n : NlaAt) : Nlattr :=
  ⟨n.type, cut p (n.off + nlaHdrlen) (n.nla_len - nlaHdrlen : Nat)⟩

/-- An attribute lies between two offsets. -/
def NlaAt.Within (lo hi : Nat) (n : NlaAt) : Prop := lo ≤ n.off ∧ nlaHdrlen ≤ n.nla_len ∧ n.off + n.nla_len ≤ hi

/-- The walk reads nothing but headers of attributes that are there. -/
theorem nlaForEachAt_eq (fuel fuel' : Nat) (hrem : 0 ≤ rem) (h : a + rem.toNat ≤ p.length)
    (hfuel : rem.toNat ≤ fuel) (hfuel' : rem.toNat < fuel') :
    ∃ nlas, nlaForEachAt p fuel' a rem = .ok (nlas, (nlaForEach fuel (cut p a rem)).2) ∧
      nlas.map (NlaAt.nlattr p) = (nlaForEach fuel (cut p a rem)).1 ∧
      ∀ n ∈ nlas, n.Within a (a + rem.toNat) := by
  induction fuel generalizing fuel' a rem with
  | zero =>
      obtain ⟨fuel', rfl⟩ : ∃ n, fuel' = n + 1 := ⟨fuel' - 1, by omega⟩
      have hzero : rem = 0 := by omega
      subst hzero
      exact ⟨[], by simp [nlaForEachAt, nlaOkAt, nlaHdrlen, nlaForEach, cut], rfl, by simp⟩
  | succ fuel ih =>
      obtain ⟨fuel', rfl⟩ : ∃ n, fuel' = n + 1 := ⟨fuel' - 1, by omega⟩
      have hlen := cut_length h
      rw [nlaForEachAt, nlaOkAt_eq h, ok_bind, nlaForEach]
      cases hok : nlaOk (cut p a rem) with
      | none =>
          refine ⟨[], ?_, rfl, by simp⟩
          dsimp only
          rw [hlen, Int.toNat_of_nonneg hrem]
      | some nla_len =>
          have hle := nlaOk_bounds hok
          have halign := le_nlaAlign nla_len
          have hfour : nlaHdrlen = 4 := rfl
          rw [hlen] at hle
          dsimp only
          rw [readBytes_of_le (by omega), ok_bind, hlen]
          have hnla : NlaAt.nlattr p ⟨a, nla_len, nlaType (cut p a nlaHdrlen)⟩ =
              ⟨nlaType (cut p a rem), ((cut p a rem).take nla_len).drop nlaHdrlen⟩ := by
            rw [NlaAt.nlattr, (header_cut (hle.1.trans hle.2)).2, data_cut (hlen.symm ▸ hle)]
          by_cases hshort : rem.toNat < nlaAlign nla_len
          · -- the padding is missing, and nothing is left
            rw [if_pos hshort]
            refine ⟨[⟨a, nla_len, nlaType (cut p a nlaHdrlen)⟩], ?_, by rw [List.map_singleton, hnla], ?_⟩
            · obtain ⟨n, rfl⟩ : ∃ n, fuel' = n + 1 := ⟨fuel' - 1, by omega⟩
              rw [nlaForEachAt, nlaOkAt, if_pos (by omega), ok_bind]
              dsimp only
              rw [ok_bind, Int.toNat_of_nonneg hrem]
            · rintro n hn
              obtain rfl := List.mem_singleton.mp hn
              exact ⟨le_rfl, hle.1, by dsimp only; omega⟩
          · rw [if_neg hshort]
            obtain ⟨nlas, hwalk, hmap, hwithin⟩ := @ih (a + nlaAlign nla_len) (rem - nlaAlign nla_len)
              fuel' (by omega) (by omega) (by omega) (by omega)
            rw [rest_cut, hwalk, ok_bind]
            refine ⟨⟨a, nla_len, nlaType (cut p a nlaHdrlen)⟩ :: nlas, rfl, ?_, ?_⟩
            · rw [List.map_cons, hnla, hmap]
            · intro n hn
              rcases List.mem_cons.mp hn with rfl | hn
              · exact ⟨le_rfl, hle.1, by dsimp only; omega⟩
              · obtain ⟨hlo, hhdr, hhi⟩ := hwithin n hn
                exact ⟨by omega, hhdr, by omega⟩

/-! ## Set actions -/

theorem readByte {off : Nat} (h : off < p.length) :
    ∃ byte, readBytes p off 1 = .ok byte ∧ byteAt byte 0 = byteAt p off :=
  ⟨_, readBytes_of_le h, byteAt_cut (by decide)⟩

/-- The scan of a key and its mask comes to an answer, or to the end of the payload. -/
theorem validateMaskedAt_answers {len data mask : Nat} (hdata : data ≤ p.length)
    (hmask : mask ≤ data ∨ mask + len ≤ p.length) :
    Answers (MaskReadable p len data mask) (validateMaskedAt p len data mask)
      (.ok (decide (∀ i < len, byteAt p (data + i) &&& ~~~byteAt p (mask + i) = 0))) := by
  induction len generalizing data mask with
  | zero =>
      have hreadable : MaskReadable p 0 data mask := .inl hdata
      have hall : ∀ i < 0, byteAt p (data + i) &&& ~~~byteAt p (mask + i) = 0 := by simp
      rw [validateMaskedAt, decide_eq_true hall]
      exact (answers_ok true).congr (iff_true_intro hreadable)
  | succ len ih =>
      rw [validateMaskedAt]
      by_cases hroom : data < p.length
      · obtain ⟨byte, hbyte, hbyte'⟩ := readByte hroom
        obtain ⟨bits, hbits, hbits'⟩ := readByte (show mask < p.length by omega)
        rw [hbyte, ok_bind, hbits, ok_bind, hbyte', hbits']
        by_cases hbad : byteAt p data &&& ~~~byteAt p mask ≠ 0
        · have hfalse : ¬ ∀ i < len + 1, byteAt p (data + i) &&& ~~~byteAt p (mask + i) = 0 :=
            fun hall => hbad (hall 0 (by omega))
          rw [if_pos hbad, decide_eq_false hfalse]
          exact (answers_ok false).congr (iff_true_intro (.inr ⟨0, by omega, hroom, hbad⟩))
        · rw [if_neg hbad]
          have hgood : byteAt p data &&& ~~~byteAt p mask = 0 := not_not.mp hbad
          have hshift : ∀ i, data + (i + 1) = data + 1 + i ∧ mask + (i + 1) = mask + 1 + i := by omega
          have hsame : MaskReadable p (len + 1) data mask ↔ MaskReadable p len (data + 1) (mask + 1) := by
            refine or_congr (by omega) ⟨?_, ?_⟩
            · rintro ⟨i, hi, hin, hbad⟩
              cases i with
              | zero => exact absurd hgood hbad
              | succ i =>
                  rw [(hshift i).1] at hin
                  rw [(hshift i).1, (hshift i).2] at hbad
                  exact ⟨i, by omega, hin, hbad⟩
            · rintro ⟨i, hi, hin, hbad⟩
              refine ⟨i + 1, by omega, ?_, ?_⟩
              · rwa [(hshift i).1]
              · rwa [(hshift i).1, (hshift i).2]
          have hall : (∀ i < len + 1, byteAt p (data + i) &&& ~~~byteAt p (mask + i) = 0) ↔
              ∀ i < len, byteAt p (data + 1 + i) &&& ~~~byteAt p (mask + 1 + i) = 0 := by
            rw [Nat.forall_lt_succ_left, Nat.add_zero, Nat.add_zero, and_iff_right hgood]
            refine forall₂_congr fun i _ => ?_
            rw [(hshift i).1, (hshift i).2]
          simp only [hall]
          exact (ih hroom (by omega)).congr hsame
      · rw [readBytes_of_not_le (by omega), error_bind]
        refine ⟨?_, fun _ => rfl⟩
        rintro (hfits | ⟨i, -, hin, -⟩)
        · omega
        · omega

theorem keyLen_of_le {inner : Nat} {masked : Bool} (h : nlaHdrlen ≤ inner) (hlt : inner < 2 ^ 16) :
    keyLen inner masked = if masked then (inner - nlaHdrlen) / 2 else inner - nlaHdrlen := by
  have hround : ((inner : Int) - nlaHdrlen) % 2 ^ 64 = (inner - nlaHdrlen : Nat) := by
    rw [Int.emod_eq_of_lt (by omega) (by omega)]
    omega
  simp only [keyLen, hround, Int.toNat_natCast]

/-- A length that comes from a short header is near the end of the range. -/
theorem keyLen_of_lt {inner : Nat} (h : inner < nlaHdrlen) (masked : Bool) :
    2 ^ 32 - 4 ≤ keyLen inner masked % 2 ^ 32 ∧ signed 32 (keyLen inner masked) < 0 := by
  unfold nlaHdrlen at h
  interval_cases inner <;> cases masked <;> decide

/-- The length that fits no key but a nested one. -/
theorem nested_of_checkAttrLen {n : Nat} {attr : OvsKeyAttr} (hn : 40 < n)
    (h : checkAttrLen n (ovsKeyLens attr) = true) : attr = .encap ∨ attr = .tunnel := by
  cases attr <;> simp [ovsKeyLens, checkAttrLen] at h ⊢ <;> omega

/-- The call of `validate_masked` for a header that is shorter than itself. -/
theorem validateMaskedKey_answers {data key_len : Nat} (hdata : data ≤ p.length)
    (hneg : signed 32 key_len < 0) :
    ∃ covered, Answers (MaskReadable p (signed 32 key_len % 2 ^ 32).toNat data (data + signed 32 key_len).toNat)
      (validateMaskedKey p data key_len) (.ok covered) :=
  ⟨_, validateMaskedAt_answers hdata (.inl (by omega))⟩

theorem validateAndCopySetTun_nil : validateAndCopySetTun env sfa [] = .error einval := rfl

/-- The part of `validate_set` behind the length, on a header that is shorter than itself: an error, once
the mask is read. -/
theorem validateSetAt_short (hin : a + nlaHdrlen + nlaHdrlen ≤ p.length) (masked : Bool)
    (hshort : (le16At (cut p (a + nlaHdrlen) nlaHdrlen) 0).toNat < nlaHdrlen) :
    Answers (SetReadable p a nla_len masked) (validateSetAt env key p st sfa a nla_len masked)
      (.error einval) := by
  unfold validateSetAt SetReadable
  dsimp only
  rw [readBytes_of_le hin, ok_bind]
  generalize (le16At (cut p (a + nlaHdrlen) nlaHdrlen) 0).toNat = inner at hshort ⊢
  obtain ⟨hlarge, hneg⟩ := keyLen_of_lt hshort masked
  by_cases halign : nlaAlign inner = nla_len - nlaHdrlen
  · rw [if_neg (not_not.mpr halign)]
    cases hattr : ovsKeyAttrs[nlaType (cut p (a + nlaHdrlen) nlaHdrlen)]? with
    | none => exact (answers_error einval).congr (iff_true_intro ⟨hin, fun attr _ h => by cases h⟩)
    | some attr =>
        dsimp only
        by_cases hcheck : checkAttrLen (keyLen inner masked % 2 ^ 32) (ovsKeyLens attr) = true
        · rw [hcheck, Bool.not_true, if_neg Bool.false_ne_true]
          have hnested := nested_of_checkAttrLen (by omega) hcheck
          have hzero : inner - nlaHdrlen = 0 := by omega
          have hread : readBytes p (a + nlaHdrlen + nlaHdrlen) (inner - nlaHdrlen) = .ok [] := by
            rw [hzero]
            exact readBytes_of_le (show a + nlaHdrlen + nlaHdrlen + 0 ≤ p.length from hin)
          cases masked with
          | false =>
              simp only [Bool.false_eq_true, if_false, ok_bind, Bool.not_true, hread, false_implies,
                implies_true, and_true]
              refine Answers.congr ?_ (iff_true_intro hin)
              rcases hnested with rfl | rfl
              · exact answers_error einval
              · simp only [if_true, validateAndCopySetTun_nil]
                split_ifs
                · exact answers_error einval
                · exact answers_error einval
          | true =>
              obtain ⟨covered, hmasked⟩ := validateMaskedKey_answers hin hneg
              simp only [if_true]
              refine Answers.congr (hmasked.bind_ok (S := True) ?_) ?_
              · cases covered with
                | false => exact answers_error einval
                | true =>
                    simp only [Bool.not_true, Bool.false_eq_true, if_false, hread, ok_bind]
                    rcases hnested with rfl | rfl
                    · exact answers_error einval
                    · simp only [if_true]
                      split_ifs
                      · exact answers_error einval
                      · exact answers_error einval
              · constructor
                · exact fun hall => ⟨hall.2 attr halign rfl hcheck trivial, trivial⟩
                · exact fun hmask => ⟨hin, fun attr' _ _ _ _ => hmask.1⟩
        · rw [Bool.not_eq_true] at hcheck
          rw [hcheck, Bool.not_false, if_pos rfl]
          refine (answers_error einval).congr (iff_true_intro ⟨hin, fun attr' _ h hcheck' => ?_⟩)
          obtain rfl := Option.some.inj h
          rw [hcheck] at hcheck'
          cases hcheck'
  · rw [if_pos halign]
    exact (answers_error einval).congr (iff_true_intro ⟨hin, fun attr h => absurd h halign⟩)

/-- The mask of a whole key is within the payload. -/
theorem validateMaskedKey_full {data key_len len : Nat} (hlt : key_len < 2 ^ 31) (hlen : key_len + key_len ≤ len)
    (hdata : data + len ≤ p.length) :
    MaskReadable p (signed 32 key_len % 2 ^ 32).toNat data (data + signed 32 key_len).toNat ∧
      validateMaskedKey p data key_len = .ok (validateMasked (cut p data len) key_len) := by
  have hsigned : signed 32 (key_len : Int) = key_len := signed32_eq_self (by omega) (by omega)
  have hcount : ((key_len : Int) % 2 ^ 32).toNat = key_len := by omega
  have hmask : ((data : Int) + key_len).toNat = data + key_len := by omega
  unfold validateMaskedKey
  dsimp only
  rw [hsigned, hcount, hmask]
  have hreadable : MaskReadable p key_len data (data + key_len) := .inl (by omega)
  refine ⟨hreadable, ?_⟩
  have hscan := (@validateMaskedAt_answers p key_len data (data + key_len) (by omega) (.inr (by omega))).inside
    hreadable
  rw [hscan, validateMasked]
  refine congrArg Except.ok ?_
  rw [Bool.eq_iff_iff, decide_eq_true_iff, List.all_eq_true]
  simp only [List.mem_range, beq_iff_eq]
  refine forall₂_congr fun i hi => ?_
  rw [byteAt_cut (by omega), byteAt_cut (by omega), Nat.add_assoc]

/-- A set action whose key has a whole header. -/
theorem validateSetAt_full (h : a + nla_len ≤ p.length) (masked : Bool)
    (hin : a + nlaHdrlen + nlaHdrlen ≤ a + nla_len)
    (hfull : nlaHdrlen ≤ (le16At (cut p (a + nlaHdrlen) nlaHdrlen) 0).toNat) :
    Answers (SetReadable p a nla_len masked) (validateSetAt env key p st sfa a nla_len masked)
      (validateSet env key st sfa (cut p (a + nlaHdrlen) (nla_len - nlaHdrlen : Nat)) masked) := by
  have hdatalen : (cut p (a + nlaHdrlen) (nla_len - nlaHdrlen : Nat)).length = nla_len - nlaHdrlen :=
    cut_length (by omega)
  obtain ⟨hlen16, htype⟩ := @header_cut p (a + nlaHdrlen) (nla_len - nlaHdrlen : Nat) (by omega)
  have hok : nlaOk (cut p (a + nlaHdrlen) (nla_len - nlaHdrlen : Nat)) =
      if nla_len - nlaHdrlen < (le16At (cut p (a + nlaHdrlen) nlaHdrlen) 0).toNat then none
      else some (le16At (cut p (a + nlaHdrlen) nlaHdrlen) 0).toNat := by
    unfold nlaOk
    dsimp only
    rw [← hlen16, hdatalen]
    refine if_congr ?_ rfl rfl
    omega
  have hlt := (le16At (cut p (a + nlaHdrlen) nlaHdrlen) 0).isLt
  unfold validateSetAt SetReadable validateSet
  dsimp only
  rw [readBytes_of_le (by omega), ok_bind, hok, ← htype, hdatalen]
  generalize (le16At (cut p (a + nlaHdrlen) nlaHdrlen) 0).toNat = inner at hfull hlt hlen16 ⊢
  generalize ovsKeyAttrs[nlaType (cut p (a + nlaHdrlen) nlaHdrlen)]? = attr?
  have hpad := le_nlaAlign inner
  -- the key has to fill the payload, so its length is known from here on
  by_cases halign : nlaAlign inner = nla_len - nlaHdrlen
  · rw [if_neg (not_not.mpr halign), if_neg (by omega)]
    dsimp only
    rw [if_neg (not_not.mpr halign)]
    have hkey : ((cut p (a + nlaHdrlen) (nla_len - nlaHdrlen : Nat)).take inner).drop nlaHdrlen =
        cut p (a + nlaHdrlen + nlaHdrlen) (inner - nlaHdrlen : Nat) :=
      data_cut ⟨hfull, by rw [hdatalen]; omega⟩
    rw [hkey, cut_length (by omega), Int.toNat_natCast]
    rw [← keyLen_of_le hfull hlt]
    have hkeylen := @keyLen_of_le inner masked hfull hlt
    generalize keyLen inner masked = key_len at hkeylen ⊢
    have hsmall : key_len < 2 ^ 16 := by split_ifs at hkeylen <;> omega
    rw [Nat.mod_eq_of_lt (by omega : key_len < 2 ^ 32)]
    cases attr? with
    | none => exact (answers_error einval).congr (iff_true_intro ⟨by omega, fun attr _ h => by cases h⟩)
    | some attr =>
        dsimp only
        -- the mask is only looked at if the key has its length
        cases hcheck : checkAttrLen key_len (ovsKeyLens attr) with
        | false =>
            refine (answers_error einval).congr (iff_true_intro ⟨by omega, fun attr' _ h hcheck' => ?_⟩)
            obtain rfl := Option.some.inj h
            rw [hcheck] at hcheck'
            cases hcheck'
        | true =>
            rw [Bool.not_true, if_neg Bool.false_ne_true, if_neg Bool.false_ne_true]
            have hread := @readBytes_of_le p (a + nlaHdrlen + nlaHdrlen) (inner - nlaHdrlen) (by omega)
            have hset := @readBytes_of_le p (a + nlaHdrlen) (nla_len - nlaHdrlen) (by omega)
            cases masked with
            | true =>
                rw [if_pos rfl] at hkeylen
                obtain ⟨hreadable, hmasked⟩ := @validateMaskedKey_full p (a + nlaHdrlen + nlaHdrlen) key_len
                  (inner - nlaHdrlen) (by omega) (by omega) (by omega)
                refine Answers.congr ?_ (iff_true_intro ⟨by omega, fun _ _ _ _ _ => hreadable⟩)
                rw [if_pos rfl, hmasked, ok_bind, hread, ok_bind, hset, ok_bind, Bool.true_and]
                simp only [if_true]
                split_ifs
                · exact answers_error einval
                · exact answers_error einval
                · exact answers_error einval
                · exact answers_error einval
                · exact answers_ok _
            | false =>
                refine Answers.congr ?_ (iff_true_intro ⟨by omega, fun _ _ _ _ h => by cases h⟩)
                rw [if_neg Bool.false_ne_true, ok_bind, hread, ok_bind, Bool.not_true, Bool.false_and]
                simp only [Bool.false_eq_true, if_false]
                split_ifs
                · exact answers_error einval
                · exact answers_lift_bind _ fun _ => answers_ok _
                · exact answers_error einval
                · exact answers_lift_bind _ fun _ => answers_lift_bind _ fun _ => answers_ok _
  · rw [if_pos halign]
    refine Answers.congr ?_ (iff_true_intro ⟨by omega, fun attr h => absurd h halign⟩)
    by_cases hlong : nla_len - nlaHdrlen < inner
    · rw [if_pos hlong]
      exact answers_error einval
    · rw [if_neg hlong]
      dsimp only
      rw [if_pos halign]
      exact answers_error einval

/-- **`validate_set`** reads what is there, unless there is no header behind its own, or one that is shorter
than itself and a mask that goes on to the end of the payload. -/
theorem validateSetAt_answers (hhdr : nlaHdrlen ≤ nla_len) (h : a + nla_len ≤ p.length) (masked : Bool) :
    Answers (SetReadable p a nla_len masked) (validateSetAt env key p st sfa a nla_len masked)
      (validateSet env key st sfa (cut p (a + nlaHdrlen) (nla_len - nlaHdrlen : Nat)) masked) := by
  have hdatalen : (cut p (a + nlaHdrlen) (nla_len - nlaHdrlen : Nat)).length = nla_len - nlaHdrlen :=
    cut_length (by omega)
  by_cases hin : a + nlaHdrlen + nlaHdrlen ≤ p.length
  · by_cases hshort : (le16At (cut p (a + nlaHdrlen) nlaHdrlen) 0).toNat < nlaHdrlen
    · -- the length of the key is less than that of its header
      have hnone : nlaOk (cut p (a + nlaHdrlen) (nla_len - nlaHdrlen : Nat)) = none := by
        unfold nlaOk
        dsimp only
        rw [hdatalen]
        by_cases hroom : nla_len - nlaHdrlen < nlaHdrlen
        · exact if_pos (.inl hroom)
        · rw [← (@header_cut p (a + nlaHdrlen) (nla_len - nlaHdrlen : Nat) (by omega)).1]
          exact if_pos (.inr (.inl hshort))
      rw [validateSet, hnone]
      exact validateSetAt_short hin masked hshort
    · by_cases hroom : nla_len - nlaHdrlen < nlaHdrlen
      · -- the header of what follows, which does not fit
        have hpad := le_nlaAlign (le16At (cut p (a + nlaHdrlen) nlaHdrlen) 0).toNat
        have halign : nlaAlign (le16At (cut p (a + nlaHdrlen) nlaHdrlen) 0).toNat ≠ nla_len - nlaHdrlen := by
          omega
        have hnone : nlaOk (cut p (a + nlaHdrlen) (nla_len - nlaHdrlen : Nat)) = none := by
          unfold nlaOk
          dsimp only
          rw [hdatalen]
          exact if_pos (.inl hroom)
        unfold validateSetAt
        dsimp only
        rw [validateSet, hnone, readBytes_of_le hin, ok_bind, if_pos halign]
        exact (answers_error einval).congr (iff_true_intro ⟨hin, fun attr h => absurd h halign⟩)
      · exact validateSetAt_full h masked (by omega) (by omega)
  · rw [validateSetAt, readBytes_of_not_le hin, error_bind]
    exact ⟨fun hread => absurd hread.1 hin, fun _ => rfl⟩

/-! ## Samples -/

/-- The attributes of a SAMPLE are sorted alike, with their payload or with their offset. -/
theorem sampleAttrsAt_eq (nlas : List NlaAt) (attrs : Nat → Option NlaAt) :
    sampleAttrs (nlas.map (NlaAt.nlattr p)) (fun t => (attrs t).map fun n => (n.nlattr p).data) =
      (sampleAttrsAt nlas attrs).map fun sorted t => (sorted t).map fun n => (n.nlattr p).data := by
  induction nlas generalizing attrs with
  | nil => rfl
  | cons n nlas ih =>
      have htype : (n.nlattr p).type = n.type := rfl
      rw [List.map_cons, sampleAttrs, sampleAttrsAt, Option.isSome_map, htype]
      split_ifs with hbad
      · rfl
      · rw [← ih]
        refine congrArg _ (funext fun t => ?_)
        by_cases ht : t = n.type
        · subst ht
          simp [NlaAt.nlattr]
        · rw [Function.update_of_ne ht]
          exact (congrArg _ (Function.update_of_ne ht ..)).symm

/-- What has been sorted is one of the attributes. -/
theorem sampleAttrsAt_mem {nlas : List NlaAt} {attrs sorted : Nat → Option NlaAt} {ok : NlaAt → Prop}
    (h : sampleAttrsAt nlas attrs = .ok sorted) (hattrs : ∀ t n, attrs t = some n → ok n)
    (hnlas : ∀ n ∈ nlas, ok n) {t : Nat} {n : NlaAt} (hsorted : sorted t = some n) : ok n := by
  induction nlas generalizing attrs with
  | nil =>
      obtain rfl := Except.ok.inj h
      exact hattrs t n hsorted
  | cons m nlas ih =>
      rw [sampleAttrsAt] at h
      split_ifs at h
      refine ih h ?_ fun n hn => hnlas n (List.mem_cons_of_mem _ hn)
      intro t' n' hn'
      by_cases ht : t' = m.type
      · subst ht
        rw [Function.update_self] at hn'
        exact Option.some.inj hn' ▸ hnlas m List.mem_cons_self
      · rw [Function.update_of_ne ht] at hn'
        exact hattrs t' n' hn'

/-- The values with which a SAMPLE is put in front of its nested actions. -/
def SampleStart.finish (start : SampleStart) (sfa nested : SwFlowActions) : SwFlowActions :=
  { nested with actions := sfa.actions ++ [.sample start.probability start.exec nested.actions] }

/-- The part of `validate_and_copy_sample` before the nested actions reads headers and four bytes of an
attribute that has four. -/
theorem sampleStartAt_cases (hhdr : nlaHdrlen ≤ nla_len) (h : a + nla_len ≤ p.length) :
    (∃ err, sampleStartAt env p sfa a nla_len last = .error (.errno err) ∧
      ∀ copy, validateAndCopySample env copy sfa (cut p (a + nlaHdrlen) (nla_len - nlaHdrlen : Nat)) last =
        .error err) ∨
    ∃ start, sampleStartAt env p sfa a nla_len last = .ok start ∧
      start.actions.Within (a + nlaHdrlen) (a + nla_len) ∧
      ∀ copy, validateAndCopySample env copy sfa (cut p (a + nlaHdrlen) (nla_len - nlaHdrlen : Nat)) last =
        (copy (start.actions.nlattr p).data start.sfa).map (start.finish sfa) := by
  have hin : a + nlaHdrlen + ((nla_len - nlaHdrlen : Nat) : Int).toNat ≤ p.length := by omega
  have hlen := cut_length hin
  obtain ⟨nlas, hwalk, hmap, hwithin⟩ := @nlaForEachAt_eq p (a + nlaHdrlen) (nla_len - nlaHdrlen : Nat)
    (nla_len - nlaHdrlen) (p.length + 1) (by omega) hin (by omega) (by omega)
  rw [Int.toNat_natCast] at hlen
  unfold sampleStartAt validateAndCopySample nlaForEachNested
  dsimp only
  rw [hwalk, ok_bind, hlen, ← hmap]
  have hsorted := @sampleAttrsAt_eq p nlas fun _ => none
  simp only [Option.map_none] at hsorted
  rw [hsorted]
  -- the attributes are sorted by type; each lies inside of the SAMPLE
  cases hattrs : sampleAttrsAt nlas fun _ => none with
  | error err => exact .inl ⟨err, rfl, fun copy => rfl⟩
  | ok sorted =>
      have hmem : ∀ {t n}, sorted t = some n → n.Within (a + nlaHdrlen) (a + nla_len) := by
        intro t n hn
        refine sampleAttrsAt_mem hattrs (by simp) (fun n hn => ?_) hn
        have := hwithin n hn
        unfold NlaAt.Within at *
        omega
      simp only [Except.map, lift, ok_bind]
      split_ifs with hrem
      · exact .inl ⟨einval, rfl, fun copy => rfl⟩
      · cases hprob : sorted ovsSampleAttrProbability with
        | none => exact .inl ⟨einval, rfl, fun copy => rfl⟩
        | some probability =>
            cases hact : sorted ovsSampleAttrActions with
            | none => exact .inl ⟨einval, rfl, fun copy => rfl⟩
            | some actions =>
                have hpin := hmem hprob
                have hain := hmem hact
                have hlens : ∀ n : NlaAt, n.Within (a + nlaHdrlen) (a + nla_len) →
                    (n.nlattr p).data.length = n.nla_len - nlaHdrlen := by
                  intro n hn
                  unfold NlaAt.Within at hn
                  exact cut_length (by omega)
                simp only [Option.map_some, hlens _ hpin, hlens _ hain]
                -- the probability has four bytes, and the actions have a header or nothing
                by_cases hfour : probability.nla_len - nlaHdrlen ≠ 4
                · simp only [if_pos hfour]
                  exact .inl ⟨einval, rfl, fun copy => rfl⟩
                by_cases hshort : actions.nla_len - nlaHdrlen ≠ 0 ∧ actions.nla_len - nlaHdrlen < nlaHdrlen
                · simp only [if_neg hfour, if_pos hshort]
                  exact .inl ⟨einval, rfl, fun copy => rfl⟩
                simp only [if_neg hfour, if_neg hshort]
                rw [not_not] at hfour
                cases reserveSfaSize env sfa nlaHdrlen with
                | error err => exact .inl ⟨err, rfl, fun copy => rfl⟩
                | ok start =>
                    obtain ⟨-, hphdr, hphi⟩ := hpin
                    obtain ⟨-, hahdr, hahi⟩ := hain
                    -- the nested actions are walked over once, for the precomputed flag
                    obtain ⟨nested, hnested, hnestedmap, -⟩ := @nlaForEachAt_eq p (actions.off + nlaHdrlen)
                      (actions.nla_len - nlaHdrlen : Nat) (actions.nla_len - nlaHdrlen) (p.length + 1)
                      (by omega) (by omega) (by omega) (by omega)
                    have hread := @readBytes_of_le p (probability.off + nlaHdrlen) 4 (by omega)
                    have htypes : nested.map NlaAt.type =
                        (nlaForEach (actions.nla_len - nlaHdrlen) (NlaAt.nlattr p actions).data).1.map
                          Nlattr.type := by
                      change _ = (nlaForEach (actions.nla_len - nlaHdrlen)
                        (cut p (actions.off + nlaHdrlen) (actions.nla_len - nlaHdrlen : Nat))).1.map Nlattr.type
                      rw [← hnestedmap, List.map_map]
                      rfl
                    have hvalue : (NlaAt.nlattr p probability).data = cut p (probability.off + nlaHdrlen) 4 := by
                      rw [NlaAt.nlattr, hfour]
                      rfl
                    simp only [ok_bind, hnested, hread, htypes, hvalue]
                    cases reserveSfaSize env start (nlaHdrlen + 8) with
                    | error err => exact .inl ⟨err, rfl, fun copy => rfl⟩
                    | ok start =>
                        refine .inr ⟨_, rfl, hmem hact, fun copy => ?_⟩
                        dsimp only [ok_bind]
                        cases copy (NlaAt.nlattr p actions).data ⟨start.actions_len, []⟩ with
                        | error err => rfl
                        | ok nested => rfl

/-! ## The list -/

/-- The padding of what is copied is read, once there is room for it. -/
theorem copyActionAt_answers (sfa : SwFlowActions) (a nla_len : Nat) (action : Action) :
    Answers (∀ sfa', reserveSfaSize env sfa nla_len = .ok sfa' → a + nlaAlign nla_len ≤ p.length)
      (copyActionAt env p sfa a nla_len action) (addAction env sfa nla_len action) := by
  refine Answers.congr ((answers_lift (reserveSfaSize env sfa nla_len)).bind
    (S := fun _ => a + nlaAlign nla_len ≤ p.length) fun sfa' _ => ?_) (by simp)
  by_cases hin : a + nlaAlign nla_len ≤ p.length
  · rw [readBytes_of_le hin, ok_bind]
    exact (answers_ok _).congr (iff_true_intro hin)
  · rw [readBytes_of_not_le hin, error_bind]
    exact ⟨fun h => absurd h hin, fun _ => rfl⟩

/-- The switch: set actions read the header of their key, and SAMPLE goes through its nested actions. -/
theorem copyActionsSwitchAt_answers {fuel : Nat} (hhdr : nlaHdrlen ≤ nla_len) (h : a + nla_len ≤ p.length)
    (hfuel : nla_len ≤ fuel + 4)
    (hcopy : ∀ st a rem sfa, (0 < rem → a + rem.toNat ≤ p.length) → rem.toNat ≤ fuel →
      Answers (Readable env key p fuel st a rem sfa) (copyActionsAt env key p (fuel + 1) st a rem sfa)
        (copyActionsLoop env key fuel st (cut p a rem) sfa))
    (attr : OvsActionAttr) :
    Answers (ReadableAttr env key p (Readable env key p fuel) st sfa a nla_len last attr)
      (copyActionsSwitchAt env key p (copyActionsAt env key p (fuel + 1)) st sfa a nla_len last attr)
      (copyActionsSwitch env key (copyActionsLoop env key fuel) st sfa
        (cut p (a + nlaHdrlen) (nla_len - nlaHdrlen : Nat)) last attr) := by
  cases attr
  case set => exact (validateSetAt_answers hhdr h false).then_ok _
  case setMasked => exact (validateSetAt_answers hhdr h true).then_ok _
  case sample =>
    unfold copyActionsSwitchAt copyActionsSwitch validateAndCopySampleAt ReadableAttr
    dsimp only
    rcases @sampleStartAt_cases env p sfa a nla_len last hhdr h with
      ⟨err, hstart, hcopied⟩ | ⟨start, hstart, hwithin, hcopied⟩
    · rw [hstart, hcopied]
      exact (answers_error err).congr (iff_true_intro fun _ h => by cases h)
    · obtain ⟨hlo, hahdr, hhi⟩ := hwithin
      have hfour : nlaHdrlen = 4 := rfl
      rw [hstart, hcopied, ok_bind]
      have hnested := hcopy { st with mac_proto := ovsKeyMacProto key } (start.actions.off + nlaHdrlen)
        (start.actions.nla_len - nlaHdrlen : Nat) start.sfa (by omega) (by omega)
      refine Answers.congr ?_ (⟨fun hall => hall start rfl, fun hread start' h => Except.ok.inj h ▸ hread⟩ :
        _ ↔ Readable env key p fuel { st with mac_proto := ovsKeyMacProto key }
          (start.actions.off + nlaHdrlen) (start.actions.nla_len - nlaHdrlen : Nat) start.sfa)
      have hmap : ∀ x : Except Int SwFlowActions,
          x.map (start.finish sfa) = x >>= fun nested => .ok (start.finish sfa nested) := by
        intro x
        cases x <;> rfl
      rw [hmap]
      exact (hnested.then_ok (start.finish sfa)).then_ok _
  all_goals
    have hread := @readBytes_of_le p (a + nlaHdrlen) (nla_len - nlaHdrlen) (by omega)
    unfold copyActionsSwitchAt
    dsimp only
    rw [hread, ok_bind]
    exact answers_lift _

/-- **The validator with its reads** gives the answer of the validator, or stops at an attribute that
cannot be read. -/
theorem copyActionsAt_answers (fuel : Nat) (h : 0 < rem → a + rem.toNat ≤ p.length) (hfuel : rem.toNat ≤ fuel) :
    Answers (Readable env key p fuel st a rem sfa) (copyActionsAt env key p (fuel + 1) st a rem sfa)
      (copyActionsLoop env key fuel st (cut p a rem) sfa) := by
  induction fuel generalizing st a rem sfa with
  | zero =>
      have hzero : rem.toNat = 0 := by omega
      have hfour : nlaHdrlen = 4 := rfl
      have hnil : cut p a rem = [] := by rw [cut, hzero, List.take_zero]
      rw [copyActionsAt, nlaOkAt, if_pos (by omega), ok_bind, hnil]
      dsimp only
      rw [if_neg (by omega)]
      exact (answers_ok sfa).congr (iff_true_intro trivial)
  | succ fuel ih =>
      have hfour : nlaHdrlen = 4 := rfl
      rw [copyActionsAt, copyActionsLoop]
      by_cases hrem : 0 < rem
      · have hlen := cut_length (h hrem)
        rw [nlaOkAt_eq (h hrem), ok_bind]
        unfold Readable
        cases hok : nlaOk (cut p a rem) with
        | none =>
            dsimp only
            have hne : cut p a rem ≠ [] := by
              intro hnil
              rw [hnil, List.length_nil] at hlen
              omega
            rw [if_pos hrem, if_neg hne]
            exact (answers_error einval).congr (iff_true_intro fun _ _ h => by cases h)
        | some nla_len =>
            have hle := nlaOk_bounds hok
            have halign := le_nlaAlign nla_len
            rw [hlen] at hle
            have hdatalen : (cut p (a + nlaHdrlen) (nla_len - nlaHdrlen : Nat)).length = nla_len - nlaHdrlen :=
              cut_length (by omega)
            have hlast : (nla_len == (cut p a rem).length) = (rem == (nla_len : Int)) := by
              rw [Bool.eq_iff_iff, beq_iff_eq, beq_iff_eq]
              omega
            dsimp only
            rw [readBytes_of_le (by omega), ok_bind, (header_cut (hle.1.trans hle.2)).2,
              data_cut (hlen.symm ▸ hle), hdatalen, hlast]
            cases hattr : ovsActionAttrs[nlaType (cut p a rem)]? with
            | none => exact (answers_error einval).congr (iff_true_intro fun _ _ _ h => by cases h)
            | some attr =>
                dsimp only
                -- the length of the attribute is checked before anything behind its header is read
                cases hlens : (actionLens attr).any (· ≠ nla_len - nlaHdrlen) with
                | true =>
                    rw [if_pos rfl]
                    refine (answers_error einval).congr (iff_true_intro fun n attr' hn hattr' hlens' => ?_)
                    obtain rfl := Option.some.inj hn
                    obtain rfl := Option.some.inj hattr'
                    rw [hlens] at hlens'
                    cases hlens'
                | false =>
                    rw [if_neg Bool.false_ne_true, if_neg Bool.false_ne_true]
                    have hswitch := @copyActionsSwitchAt_answers env key p st sfa a nla_len (rem == (nla_len : Int))
                      fuel hle.1 (by omega) (by omega) (fun st a rem sfa h hfuel => ih h hfuel) attr
                    -- what the walk does behind this attribute, by the induction on the fuel
                    have hrest : ∀ st' sfa',
                        Answers (Readable env key p fuel st' (a + nlaAlign nla_len) (rem - nlaAlign nla_len) sfa')
                          (copyActionsAt env key p (fuel + 1) st' (a + nlaAlign nla_len)
                            (rem - nlaAlign nla_len) sfa')
                          (copyActionsLoop env key fuel st' ((cut p a rem).drop (nlaAlign nla_len)) sfa') := by
                      intro st' sfa'
                      rw [rest_cut]
                      exact ih (by omega) (by omega)
                    refine Answers.congr (hswitch.bind (S := fun r => (∀ sfa'', r.2.1.isSome →
                        reserveSfaSize env r.2.2 nla_len = .ok sfa'' → a + nlaAlign nla_len ≤ p.length) ∧
                      ∀ sfa'', copyIfAny env r.2.2 nla_len r.2.1 = .ok sfa'' →
                        Readable env key p fuel r.1 (a + nlaAlign nla_len) (rem - nlaAlign nla_len) sfa'') ?_) ?_
                    · rintro ⟨st', action, sfa'⟩ -
                      -- an action without a copy of its own has been stored already
                      cases action with
                      | none =>
                          refine (hrest st' sfa').congr ⟨fun hall => hall.2 sfa' rfl, fun hread => ⟨?_, ?_⟩⟩
                          · exact fun _ h => by cases h
                          · exact fun sfa'' h => Except.ok.inj h ▸ hread
                      | some action =>
                          refine ((copyActionAt_answers sfa' a nla_len action).bind
                            (fun sfa'' _ => hrest st' sfa'')).congr ?_
                          exact and_congr_left' ⟨fun hall sfa'' => hall sfa'' rfl, fun hall sfa'' _ => hall sfa''⟩
                    · constructor
                      · intro hall
                        obtain ⟨hattr', hnext⟩ := hall nla_len attr rfl rfl hlens
                        exact ⟨hattr', fun r hr => hnext r.1 r.2.1 r.2.2 hr⟩
                      · rintro ⟨hattr', hnext⟩ n attr' hn hattr'' -
                        obtain rfl := Option.some.inj hn
                        obtain rfl := Option.some.inj hattr''
                        exact ⟨hattr', fun st' action sfa' h => hnext ⟨st', action, sfa'⟩ h⟩
      · have hzero : rem.toNat = 0 := by omega
        have hnil : cut p a rem = [] := by rw [cut, hzero, List.take_zero]
        unfold Readable
        rw [nlaOkAt, if_pos (by omega), ok_bind, hnil]
        dsimp only
        rw [if_neg hrem]
        exact (answers_ok sfa).congr (iff_true_intro fun _ _ h => by cases h)

end

/-- Each attribute that the validator of a request comes to can be read. -/
def AllReadable (env : ActionsEnv) (attr : List (BitVec 8)) (key : SwFlowKey) : Prop :=
  attr.length ≤ env.max_actions_bufsize → env.sfa_alloc = true →
    Readable env key attr attr.length (copyStateOf key) 0 attr.length ⟨0, []⟩

/-- A request, with its reads and without them. -/
theorem ovsNlaCopyActionsAt_answers (env : ActionsEnv) (attr : List (BitVec 8)) (key : SwFlowKey) :
    Answers (AllReadable env attr key) (ovsNlaCopyActionsAt env attr key (attr.length + 1))
      (ovsNlaCopyActions env attr key) := by
  unfold ovsNlaCopyActionsAt ovsNlaCopyActions AllReadable
  split_ifs with hsize halloc
  · exact (answers_error einval).congr (iff_true_intro fun h => absurd h (not_le.mpr hsize))
  · exact (answers_error enomem).congr (iff_true_intro fun _ h => by simp [h] at halloc)
  · rw [Bool.not_eq_true, Bool.not_eq_false'] at halloc
    have hwhole : cut attr 0 attr.length = attr := by
      rw [cut, Int.toNat_natCast, List.drop_zero, List.take_length]
    have hloop := @copyActionsAt_answers env key attr (copyStateOf key) ⟨0, []⟩ 0 attr.length attr.length
      (fun _ => by omega) (by omega)
    rw [hwhole] at hloop
    refine (hloop.then_ok fun sfa => sfa.actions).congr ?_
    exact ⟨fun h => h (not_lt.mp hsize) halloc, fun h _ _ => h⟩

/-- **The validator terminates and reads its own payload only** if and only if each attribute that it comes
to can be read. -/
theorem copyReads_inside_iff (env : ActionsEnv) (attr : List (BitVec 8)) (key : SwFlowKey) :
    ReadsInside (ovsNlaCopyActionsAt env attr key (attr.length + 1)) ↔ AllReadable env attr key := by
  have hanswers := ovsNlaCopyActionsAt_answers env attr key
  constructor
  · rintro ⟨answer, hanswer⟩
    by_contra hnot
    rw [hanswers.outside hnot] at hanswer
    cases answer <;> cases hanswer
  · exact fun hread => ⟨_, hanswers.inside hread⟩

/-- Everything can be allocated. -/
def plainEnv : ActionsEnv where
  max_actions_bufsize := 16 * 1024
  sfa_alloc := true
  reserve_sfa_size _ _ := 0
  tun_dst := 0
  upstream_tunnel := true
  ct_info _ _ := .error einval

/-- A SET without a key at the end of the payload, and a USERSPACE that ends in one byte of user data
without its padding. -/
theorem copyReads_outside :
    ¬ ReadsInside (ovsNlaCopyActionsAt plainEnv [4, 0, 3, 0] (fun _ => 0) 5) ∧
      ¬ ReadsInside (ovsNlaCopyActionsAt plainEnv
        ([17, 0, 2, 0] ++ [8, 0, 1, 0, 1, 0, 0, 0] ++ [5, 0, 2, 0, 7]) (fun _ => 0) 18) := by
  constructor
  all_goals
    rintro ⟨answer, hanswer⟩
    cases answer with
    | ok actions => cases hanswer
    | error err => cases hanswer

end OvsDatapath.Actions.Read
