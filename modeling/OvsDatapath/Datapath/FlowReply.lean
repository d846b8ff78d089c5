import OvsDatapath.Datapath.PutActions
import OvsDatapath.Flow.FlowTable

/-!
# The room of a flow reply

The flow commands answer with the flow (`datapath.c`). The message is allocated with as many bytes as
`ovs_flow_cmd_msg_size` says, which for NEW and SET is before the flow is looked up, and
`ovs_flow_cmd_fill_info` writes the flow into it. The sum has a line for the key where there is an
identifier, but a flow without one is written with its unmasked key in the place of the identifier; and
the line for the actions is as long as the request was.

`ReplyFits` goes through the lines, and `ovsFlowCmdFillInfo_complete_iff` says that the reply is complete
if those that are not used up make up for the rest, and not otherwise.
-/

namespace OvsDatapath.Datapath

open OvsDatapath.Lib OvsDatapath.Flow OvsDatapath.Actions

/-! ## The message -/

/-- `enum ovs_flow_attr`. -/
inductive OvsFlowAttr where
  | unspec
  | key
  | actions
  | stats
  | tcpFlags
  | used
  | clear
  | mask
  | probe
  | ufid
  | ufidFlags
  | pad
  deriving DecidableEq, Repr

/-- The attributes by their number. -/
def ovsFlowAttrs : List OvsFlowAttr :=
  [.unspec, .key, .actions, .stats, .tcpFlags, .used, .clear, .mask, .probe, .ufid, .ufidFlags, .pad]

/-- An attribute of a flow. -/
def flowAttr (attr : OvsFlowAttr) (data : List (BitVec 8)) : Nlattr := ⟨ovsFlowAttrs.idxOf attr, data⟩

/-- `-EMSGSIZE`. -/
def emsgsize : Int := -90

/-- `OVS_UFID_F_OMIT_KEY`. -/
def ovsUfidFOmitKey : BitVec 32 := 1

/-- `OVS_UFID_F_OMIT_MASK`. -/
def ovsUfidFOmitMask : BitVec 32 := 2

/-- `OVS_UFID_F_OMIT_ACTIONS`. -/
def ovsUfidFOmitActions : BitVec 32 := 4

/-- Whether there is an empty attribute before a 64-bit number, in the places where there is one apart
from the actions. -/
structure FlowReplyEnv extends ReplyEnv where
  key_pad : Bool
  mask_pad : Bool
  used_pad : Bool
  stats_pad : Bool
  key_pad_le : key_pad = true → efficient = false
  mask_pad_le : mask_pad = true → efficient = false
  used_pad_le : used_pad = true → efficient = false
  stats_pad_le : stats_pad = true → efficient = false

/-- What a key, or a mask, is written with. -/
def FlowReplyEnv.forKey (env : FlowReplyEnv) : UpcallEnv :=
  ⟨env.ct_config, env.efficient, env.key_pad, false, env.key_pad_le, nofun⟩

@[inherit_doc FlowReplyEnv.forKey]
def FlowReplyEnv.forMask (env : FlowReplyEnv) : UpcallEnv :=
  ⟨env.ct_config, env.efficient, env.mask_pad, false, env.mask_pad_le, nofun⟩

/-- What a reply says of a flow: its key, its identifier and its mask, its actions with the length that
they had in the request, and what `ovs_flow_stats_get` has collected. -/
structure ReplyFlow where
  key : SwFlowKey
  id : SwFlowId
  mask : SwFlowKey
  orig_len : Nat
  sf_acts : List StoredAction
  n_packets : BitVec 64
  n_bytes : BitVec 64
  used : BitVec 64
  /-- `ovs_flow_used_time`. -/
  used_time : BitVec 64
  /-- In the byte order of the machine. -/
  tcp_flags : BitVec 16

/-- `should_fill_key`. -/
def shouldFillKey (sfid : SwFlowId) (ufid_flags : BitVec 32) : Bool :=
  sfid.isUfid && ufid_flags &&& ovsUfidFOmitKey == 0

/-- `should_fill_mask`. -/
def shouldFillMask (ufid_flags : BitVec 32) : Bool := ufid_flags &&& ovsUfidFOmitMask == 0

/-- `should_fill_actions`. -/
def shouldFillActions (ufid_flags : BitVec 32) : Bool := ufid_flags &&& ovsUfidFOmitActions == 0

/-! ## The size -/

/-- `nla_total_size_64bit`. -/
def nlaTotalSize64bit (env : ReplyEnv) (payload : Nat) : Nat :=
  nlaTotalSize payload + if env.efficient then 0 else nlaTotalSize 0

/-- The line of the sum for an identifier. -/
def ufidLine : SwFlowId → Nat
  | .ufid bytes => nlaTotalSize bytes.length
  | .unmaskedKey _ => 0

/-- The line for a key or for a mask. -/
def keyLine (env : FlowReplyEnv) : Nat := nlaTotalSize (ovsKeyAttrSize env.forKey)

/-- `ovs_flow_cmd_msg_size`, for actions whose request had a length. -/
def ovsFlowCmdMsgSize (env : FlowReplyEnv) (orig_len : Nat) (sfid : SwFlowId) (ufid_flags : BitVec 32) : Nat :=
  -- `NLMSG_ALIGN(sizeof(struct ovs_header))`
  4 + ufidLine sfid + (if shouldFillKey sfid ufid_flags then keyLine env else 0) +
    (if shouldFillMask ufid_flags then keyLine env else 0) +
    (if shouldFillActions ufid_flags then nlaTotalSize orig_len else 0) +
    nlaTotalSize64bit env.toReplyEnv 16 + nlaTotalSize 1 + nlaTotalSize64bit env.toReplyEnv 8

/-! ## The attributes -/

/-- The bytes of a 64-bit number in the byte order of the machine. -/
def le64 (v : BitVec 64) : List (BitVec 8) := le32 (v.setWidth 32) ++ le32 ((v >>> 32).setWidth 32)

/-- Attributes behind those that are there: with their room, or not at all. -/
def putAttrs (size : Nat) (attrs msg : List Nlattr) : Except Int (List Nlattr) :=
  if 4 + attrsSize msg + attrsSize attrs ≤ size then .ok (msg ++ attrs) else .error emsgsize

/-- `nla_put_64bit`. -/
def attr64 (pad : Bool) (attr : OvsFlowAttr) (data : List (BitVec 8)) : List Nlattr :=
  (if pad then [flowAttr .pad []] else []) ++ [flowAttr attr data]

/-- `ovs_nla_put_identifier`. -/
def identifierAttrs (env : FlowReplyEnv) (flow : ReplyFlow) : List Nlattr :=
  match flow.id with
  | .ufid bytes => [flowAttr .ufid bytes]
  | .unmaskedKey key => [flowAttr .key (ovsNlaPutKey ⟨env.ct_config, env.key_pad⟩ key key false)]

/-- `ovs_nla_put_masked_key`, if it is called. -/
def maskedKeyAttrs (env : FlowReplyEnv) (flow : ReplyFlow) (ufid_flags : BitVec 32) : List Nlattr :=
  if shouldFillKey flow.id ufid_flags then
    [flowAttr .key (ovsNlaPutKey ⟨env.ct_config, env.key_pad⟩ flow.key flow.key false)]
  else []

/-- `ovs_nla_put_mask`, if it is called. -/
def maskAttrs (env : FlowReplyEnv) (flow : ReplyFlow) (ufid_flags : BitVec 32) : List Nlattr :=
  if shouldFillMask ufid_flags then
    [flowAttr .mask (ovsNlaPutKey ⟨env.ct_config, env.mask_pad⟩ flow.key flow.mask true)]
  else []

/-- The time in `ovs_flow_cmd_fill_stats`. -/
def usedAttrs (env : FlowReplyEnv) (flow : ReplyFlow) : List Nlattr :=
  if flow.used ≠ 0 then attr64 env.used_pad .used (le64 flow.used_time) else []

/-- The counters. -/
def statsAttrs (env : FlowReplyEnv) (flow : ReplyFlow) : List Nlattr :=
  if flow.n_packets ≠ 0 then attr64 env.stats_pad .stats (le64 flow.n_packets ++ le64 flow.n_bytes) else []

/-- The TCP flags, the lower eight of them. -/
def tcpFlagsAttrs (flow : ReplyFlow) : List Nlattr :=
  if flow.tcp_flags.setWidth 8 ≠ 0 then [flowAttr .tcpFlags [flow.tcp_flags.setWidth 8]] else []

/-- `ovs_flow_cmd_fill_stats`. -/
def ovsFlowCmdFillStats (env : FlowReplyEnv) (size : Nat) (flow : ReplyFlow) (msg : List Nlattr) :
    Except Int (List Nlattr) := do
  let msg ← putAttrs size (usedAttrs env flow) msg
  let msg ← putAttrs size (statsAttrs env flow) msg
  putAttrs size (tcpFlagsAttrs flow) msg

/-- `ovs_flow_cmd_fill_actions`: actions for which there is no room are left out of a message that has
nothing else. -/
def ovsFlowCmdFillActions (env : FlowReplyEnv) (size : Nat) (flow : ReplyFlow) (skb_orig_len : Nat)
    (msg : List Nlattr) : Except Int (List Nlattr) :=
  let put := match ovsNlaPutActions env.toReplyEnv 0 flow.sf_acts with
    | some attrs => putAttrs size [flowAttr .actions (nlaStream attrs)] msg
    | none => .error emsgsize
  match put with
  | .ok msg => .ok msg
  | .error err => if skb_orig_len ≠ 0 then .error err else .ok msg

/-- `ovs_flow_cmd_fill_info`: the attributes of the message, if there is no error. -/
def ovsFlowCmdFillInfo (env : FlowReplyEnv) (size : Nat) (flow : ReplyFlow) (ufid_flags : BitVec 32)
    (skb_orig_len : Nat) : Except Int (List Nlattr) := do
  let msg ← putAttrs size [] []
  let msg ← putAttrs size (identifierAttrs env flow) msg
  let msg ← putAttrs size (maskedKeyAttrs env flow ufid_flags) msg
  let msg ← putAttrs size (maskAttrs env flow ufid_flags) msg
  let msg ← ovsFlowCmdFillStats env size flow msg
  if shouldFillActions ufid_flags then ovsFlowCmdFillActions env size flow skb_orig_len msg
  else .ok msg

/-- The reply to a command, that is allocated with the identifier that the command has got: the
identifier of the request in NEW and in a SET with actions, and that of the flow otherwise. -/
def flowReply (env : FlowReplyEnv) (flow : ReplyFlow) (sfid : SwFlowId) (ufid_flags : BitVec 32) :
    Except Int (List Nlattr) :=
  ovsFlowCmdFillInfo env (ovsFlowCmdMsgSize env flow.orig_len sfid ufid_flags) flow ufid_flags 0

/-- There is a reply, and the actions are in it if they have not been omitted. -/
def ReplyComplete (ufid_flags : BitVec 32) (reply : Except Int (List Nlattr)) : Prop :=
  ∃ msg, reply = .ok msg ∧
    (shouldFillActions ufid_flags → ∃ a ∈ msg, a.type = ovsFlowAttrs.idxOf .actions)

/-! ## What is there, and what there is room for -/

/-- The room of a key, or a mask: its line, and a second tag, without what it leaves free. -/
def keyRoom (env : UpcallEnv) (swkey output : SwFlowKey) (is_mask : Bool) : Nat :=
  nlaTotalSize (ovsKeyAttrSize env) + (if hasSecondTag swkey then tagSize else 0) -
    spareKeyOf env swkey output is_mask

/-- The room of the identifier. -/
def identifierRoom (env : FlowReplyEnv) : SwFlowId → Nat
  | .ufid bytes => nlaTotalSize bytes.length
  | .unmaskedKey key => keyRoom env.forKey key key false

/-- The room of a 64-bit attribute. -/
def room64 (pad : Bool) (payload : Nat) : Nat := nlaTotalSize payload + if pad then nlaTotalSize 0 else 0

/-- What is free in the lines for the identifier and for the key. A flow without an identifier has no
line for its key. -/
def identifierFree (env : FlowReplyEnv) (flow : ReplyFlow) (sfid : SwFlowId) (ufid_flags : BitVec 32) : ℤ :=
  (ufidLine sfid + if shouldFillKey sfid ufid_flags then keyLine env else 0 : Nat) -
    (identifierRoom env flow.id +
      if shouldFillKey flow.id ufid_flags then keyRoom env.forKey flow.key flow.key false else 0 : Nat)

/-- What is free in the line for the mask. -/
def maskFree (env : FlowReplyEnv) (flow : ReplyFlow) (ufid_flags : BitVec 32) : ℤ :=
  if shouldFillMask ufid_flags then (keyLine env : ℤ) - keyRoom env.forMask flow.key flow.mask true else 0

/-- What is free in the lines for statistics, those of which there are none. -/
def statsFree (env : FlowReplyEnv) (flow : ReplyFlow) : Nat :=
  (nlaTotalSize64bit env.toReplyEnv 8 - if flow.used ≠ 0 then room64 env.used_pad 8 else 0) +
  (nlaTotalSize64bit env.toReplyEnv 16 - if flow.n_packets ≠ 0 then room64 env.stats_pad 16 else 0) +
  (nlaTotalSize 1 - optSize (flow.tcp_flags.setWidth 8 ≠ 0) 1)

/-- What is free in the line for the actions: negative if they take more than in the request. -/
def actionsFree (env : FlowReplyEnv) (flow : ReplyFlow) (ufid_flags : BitVec 32) : ℤ :=
  if shouldFillActions ufid_flags then
    (nlaTotalSize flow.orig_len : ℤ) - nlaTotalSize (actionsSize env.toReplyEnv 0 flow.sf_acts)
  else 0

/-- The actions can be written, and what is free makes up for what there is no line for. -/
def ReplyFits (env : FlowReplyEnv) (flow : ReplyFlow) (sfid : SwFlowId) (ufid_flags : BitVec 32) : Prop :=
  (shouldFillActions ufid_flags → actionsWritable env.toReplyEnv flow.sf_acts) ∧
    0 ≤ identifierFree env flow sfid ufid_flags + maskFree env flow ufid_flags + statsFree env flow +
      actionsFree env flow ufid_flags

instance {env : FlowReplyEnv} {flow : ReplyFlow} {sfid : SwFlowId} {ufid_flags : BitVec 32} :
    Decidable (ReplyFits env flow sfid ufid_flags) :=
  inferInstanceAs (Decidable (_ ∧ _))

section

variable {env : FlowReplyEnv} {flow : ReplyFlow} {ufid_flags : BitVec 32} {size : Nat}

theorem keyRoom_eq (env : UpcallEnv) (swkey output : SwFlowKey) (is_mask : Bool) :
    nlaTotalSize (ovsNlaPutKey ⟨env.ct_config, env.key_pad⟩ swkey output is_mask).length =
      keyRoom env swkey output is_mask := by
  have hspare := putKey_spare env swkey output is_mask
  have hroom : nlaTotalSize (ovsNlaPutKey ⟨env.ct_config, env.key_pad⟩ swkey output is_mask).length =
      nlaTotalSize 0 + (ovsNlaPutKey ⟨env.ct_config, env.key_pad⟩ swkey output is_mask).length := by
    rw [ovsNlaPutKey, nlaStream_length, nlaTotalSize_attrsSize]
  have hline := (nlaTotalSize_lines env).1
  unfold keyRoom
  omega

theorem attrsSize_identifier : attrsSize (identifierAttrs env flow) = identifierRoom env flow.id := by
  unfold identifierAttrs identifierRoom
  cases flow.id with
  | ufid bytes => rfl
  | unmaskedKey key =>
      rw [attrsSize_cons, attrsSize_nil]
      exact keyRoom_eq env.forKey key key false

theorem attrsSize_maskedKey : attrsSize (maskedKeyAttrs env flow ufid_flags) =
    if shouldFillKey flow.id ufid_flags then keyRoom env.forKey flow.key flow.key false else 0 := by
  unfold maskedKeyAttrs
  split_ifs
  · rw [attrsSize_cons, attrsSize_nil]
    exact keyRoom_eq env.forKey flow.key flow.key false
  · rfl

theorem attrsSize_mask : attrsSize (maskAttrs env flow ufid_flags) =
    if shouldFillMask ufid_flags then keyRoom env.forMask flow.key flow.mask true else 0 := by
  unfold maskAttrs
  split_ifs
  · rw [attrsSize_cons, attrsSize_nil]
    exact keyRoom_eq env.forMask flow.key flow.mask true
  · rfl

theorem attrsSize_attr64 (pad : Bool) (attr : OvsFlowAttr) (data : List (BitVec 8)) :
    attrsSize (attr64 pad attr data) = room64 pad data.length := by
  unfold attr64 room64
  cases pad with
  | false => rfl
  | true =>
      show nlaTotalSize 0 + (nlaTotalSize data.length + 0) = _
      exact Nat.add_comm _ _

theorem room64_le {pad : Bool} (hpad : pad = true → env.efficient = false) (payload : Nat) :
    room64 pad payload ≤ nlaTotalSize64bit env.toReplyEnv payload := by
  unfold room64 nlaTotalSize64bit
  cases pad with
  | false => exact Nat.add_le_add_left (Nat.zero_le _) _
  | true => rw [hpad rfl]; rfl

/-- What of the lines for statistics is free, and what there is of them. -/
theorem attrsSize_stats : attrsSize (usedAttrs env flow ++ (statsAttrs env flow ++ tcpFlagsAttrs flow)) +
    statsFree env flow =
      nlaTotalSize64bit env.toReplyEnv 16 + nlaTotalSize 1 + nlaTotalSize64bit env.toReplyEnv 8 := by
  have hused := room64_le env.used_pad_le 8
  have hstats := room64_le env.stats_pad_le 16
  have h64 : ∀ {present : Prop} [Decidable present] (pad : Bool) (attr : OvsFlowAttr)
      (data : List (BitVec 8)), attrsSize (if present then attr64 pad attr data else []) =
        if present then room64 pad data.length else 0 := by
    intro present _ pad attr data
    split_ifs
    · exact attrsSize_attr64 pad attr data
    · rfl
  have hflags : optSize (flow.tcp_flags.setWidth 8 ≠ 0) 1 ≤ nlaTotalSize 1 := by
    unfold optSize
    split_ifs
    · exact le_rfl
    · exact Nat.zero_le _
  unfold usedAttrs statsAttrs tcpFlagsAttrs statsFree
  rw [attrsSize_append, attrsSize_append, h64, h64, attrsSize_opt (n := 1) rfl]
  show (if flow.used ≠ 0 then room64 env.used_pad 8 else 0) +
    ((if flow.n_packets ≠ 0 then room64 env.stats_pad 16 else 0) + _) + _ = _
  split_ifs
  all_goals omega

/-! ## The reply -/

/-- Two puts are one. -/
theorem putAttrs_append (attrs attrs' : List Nlattr) :
    putAttrs size (attrs ++ attrs') = fun msg => putAttrs size attrs msg >>= putAttrs size attrs' := by
  funext msg
  unfold putAttrs
  rw [attrsSize_append]
  by_cases hfits : 4 + attrsSize msg + attrsSize attrs ≤ size
  · rw [if_pos hfits, ok_bind, attrsSize_append, List.append_assoc]
    simp only [Nat.add_assoc]
  · rw [if_neg hfits, if_neg (by omega)]
    rfl

/-- What there is in a reply before the actions. -/
def replyAttrs (env : FlowReplyEnv) (flow : ReplyFlow) (ufid_flags : BitVec 32) : List Nlattr :=
  identifierAttrs env flow ++ (maskedKeyAttrs env flow ufid_flags ++ (maskAttrs env flow ufid_flags ++
    (usedAttrs env flow ++ (statsAttrs env flow ++ tcpFlagsAttrs flow))))

theorem ovsFlowCmdFillInfo_eq (env : FlowReplyEnv) (size : Nat) (flow : ReplyFlow)
    (ufid_flags : BitVec 32) (skb_orig_len : Nat) :
    ovsFlowCmdFillInfo env size flow ufid_flags skb_orig_len =
      putAttrs size (replyAttrs env flow ufid_flags) [] >>= fun msg =>
        if shouldFillActions ufid_flags then ovsFlowCmdFillActions env size flow skb_orig_len msg
        else .ok msg := by
  unfold replyAttrs
  rw [← List.nil_append (identifierAttrs env flow ++ _)]
  simp only [ovsFlowCmdFillInfo, ovsFlowCmdFillStats, putAttrs_append, bind_assoc]

/-- There are no actions among some attributes. -/
def NoActions (attrs : List Nlattr) : Prop := ∀ a ∈ attrs, a.type ≠ ovsFlowAttrs.idxOf .actions

theorem NoActions.nil : NoActions [] := nofun

theorem NoActions.append {attrs attrs' : List Nlattr} (h : NoActions attrs) (h' : NoActions attrs') :
    NoActions (attrs ++ attrs') := by
  intro a ha
  rcases List.mem_append.mp ha with ha | ha
  · exact h a ha
  · exact h' a ha

theorem NoActions.flowAttr {attr : OvsFlowAttr} (hattr : attr ≠ .actions) (data : List (BitVec 8)) :
    NoActions [flowAttr attr data] := by
  intro a ha
  rw [List.mem_singleton] at ha
  subst ha
  show ovsFlowAttrs.idxOf attr ≠ _
  cases attr <;> first | decide | exact absurd rfl hattr

theorem NoActions.ite {present : Prop} [Decidable present] {attrs : List Nlattr} (h : NoActions attrs) :
    NoActions (if present then attrs else []) := by
  split_ifs
  · exact h
  · exact .nil

theorem NoActions.attr64 {attr : OvsFlowAttr} (hattr : attr ≠ .actions) (pad : Bool)
    (data : List (BitVec 8)) : NoActions (attr64 pad attr data) :=
  (NoActions.flowAttr (by decide) _).ite.append (.flowAttr hattr data)

/-- There are no actions in what stands before them. -/
theorem noActions_replyAttrs : NoActions (replyAttrs env flow ufid_flags) := by
  have hid : NoActions (identifierAttrs env flow) := by
    unfold identifierAttrs
    cases flow.id with
    | ufid bytes => exact .flowAttr (by decide) _
    | unmaskedKey key => exact .flowAttr (by decide) _
  have hkey : NoActions (maskedKeyAttrs env flow ufid_flags) := (NoActions.flowAttr (by decide) _).ite
  have hmask : NoActions (maskAttrs env flow ufid_flags) := (NoActions.flowAttr (by decide) _).ite
  have hused : NoActions (usedAttrs env flow) := (NoActions.attr64 (by decide) _ _).ite
  have hstats : NoActions (statsAttrs env flow) := (NoActions.attr64 (by decide) _ _).ite
  have hflags : NoActions (tcpFlagsAttrs flow) := (NoActions.flowAttr (by decide) _).ite
  exact hid.append (hkey.append (hmask.append (hused.append (hstats.append hflags))))

/-- The actions are added if they can be written and there is room, and left out otherwise. -/
theorem ovsFlowCmdFillActions_complete_iff {msg : List Nlattr}
    (hmsg : NoActions msg) :
    (∃ msg', ovsFlowCmdFillActions env size flow 0 msg = .ok msg' ∧
        ∃ a ∈ msg', a.type = ovsFlowAttrs.idxOf .actions) ↔
      actionsWritable env.toReplyEnv flow.sf_acts ∧
        4 + attrsSize msg + nlaTotalSize (actionsSize env.toReplyEnv 0 flow.sf_acts) ≤ size := by
  have hleft : ∀ {msg' : List Nlattr}, (.ok msg : Except Int (List Nlattr)) = .ok msg' →
      ¬ ∃ a ∈ msg', a.type = ovsFlowAttrs.idxOf .actions := by
    rintro msg' heq ⟨a, ha, htype⟩
    obtain rfl := Except.ok.inj heq
    exact hmsg a ha htype
  unfold ovsFlowCmdFillActions
  rcases map_eq_ite (@ovsNlaPutActions_size env.toReplyEnv 0 flow.sf_acts) with
    ⟨hput, hwritable⟩ | ⟨attrs, hput, hwritable, hsize⟩
  · rw [hput, hwritable]
    refine iff_of_false ?_ (by simp)
    rintro ⟨msg', heq, hmem⟩
    exact hleft heq hmem
  · have hroom : attrsSize [flowAttr .actions (nlaStream attrs)] =
        nlaTotalSize (actionsSize env.toReplyEnv 0 flow.sf_acts) := by
      rw [attrsSize_cons, attrsSize_nil, ← hsize, ← nlaStream_length]
      rfl
    simp only [hput, hwritable, putAttrs, hroom, true_and]
    by_cases hfits : 4 + attrsSize msg + nlaTotalSize (actionsSize env.toReplyEnv 0 flow.sf_acts) ≤ size
    · rw [if_pos hfits]
      refine iff_of_true ⟨_, rfl, _, List.mem_append_right _ List.mem_cons_self, rfl⟩ hfits
    · rw [if_neg hfits]
      refine iff_of_false ?_ hfits
      rintro ⟨msg', heq, hmem⟩
      exact hleft heq hmem

/-- The room before the actions, and what is free before them. -/
theorem attrsSize_replyAttrs (sfid : SwFlowId) :
    (attrsSize (replyAttrs env flow ufid_flags) : ℤ) + identifierFree env flow sfid ufid_flags +
        maskFree env flow ufid_flags + statsFree env flow + 4 +
        (if shouldFillActions ufid_flags then nlaTotalSize flow.orig_len else 0 : Nat) =
      ovsFlowCmdMsgSize env flow.orig_len sfid ufid_flags := by
  have hstats := @attrsSize_stats env flow
  unfold replyAttrs identifierFree maskFree ovsFlowCmdMsgSize
  rw [attrsSize_append, attrsSize_append, attrsSize_append, attrsSize_identifier, attrsSize_maskedKey,
    attrsSize_mask]
  by_cases hmask : shouldFillMask ufid_flags = true
  · simp only [if_pos hmask]
    push_cast
    omega
  · simp only [if_neg hmask]
    push_cast
    omega

end

/-- **A flow reply is complete** if and only if what is free in the lines of its size makes up for what
there is no line for, and the actions can be written. -/
theorem flowReply_complete_iff (env : FlowReplyEnv) (flow : ReplyFlow) (sfid : SwFlowId)
    (ufid_flags : BitVec 32) :
    ReplyComplete ufid_flags (flowReply env flow sfid ufid_flags) ↔ ReplyFits env flow sfid ufid_flags := by
  have hroom := @attrsSize_replyAttrs env flow ufid_flags sfid
  unfold ReplyComplete flowReply
  generalize ovsFlowCmdMsgSize env flow.orig_len sfid ufid_flags = size at hroom ⊢
  rw [ovsFlowCmdFillInfo_eq]
  unfold ReplyFits actionsFree
  by_cases hacts : shouldFillActions ufid_flags = true
  · simp only [hacts, if_true, forall_const] at hroom ⊢
    by_cases hfits : 4 + attrsSize [] + attrsSize (replyAttrs env flow ufid_flags) ≤ size
    · have hput : putAttrs size (replyAttrs env flow ufid_flags) [] =
          .ok ([] ++ replyAttrs env flow ufid_flags) := if_pos hfits
      rw [hput, ok_bind, List.nil_append, ovsFlowCmdFillActions_complete_iff noActions_replyAttrs]
      refine and_congr_right fun _ => ?_
      omega
    · have hput : putAttrs size (replyAttrs env flow ufid_flags) [] = .error emsgsize := if_neg hfits
      rw [hput]
      refine iff_of_false (fun ⟨msg, heq, _⟩ => nomatch heq) ?_
      rw [attrsSize_nil] at hfits
      have : nlaTotalSize (actionsSize env.toReplyEnv 0 flow.sf_acts) ≥ 0 := Nat.zero_le _
      omega
  · simp only [hacts, if_false, false_implies, and_true, true_and, Bool.false_eq_true] at hroom ⊢
    by_cases hfits : 4 + attrsSize [] + attrsSize (replyAttrs env flow ufid_flags) ≤ size
    · have hput : putAttrs size (replyAttrs env flow ufid_flags) [] =
          .ok ([] ++ replyAttrs env flow ufid_flags) := if_pos hfits
      rw [hput]
      refine iff_of_true ⟨_, rfl⟩ ?_
      rw [attrsSize_nil] at hfits
      omega
    · have hput : putAttrs size (replyAttrs env flow ufid_flags) [] = .error emsgsize := if_neg hfits
      rw [hput]
      refine iff_of_false (fun ⟨msg, heq⟩ => nomatch heq) ?_
      rw [attrsSize_nil] at hfits
      omega

/-- A key without a second tag has room in its line. -/
theorem keyRoom_le {env : UpcallEnv} {swkey output : SwFlowKey} {is_mask : Bool}
    (htag : hasSecondTag swkey = false) : keyRoom env swkey output is_mask ≤ nlaTotalSize (ovsKeyAttrSize env) := by
  unfold keyRoom
  rw [htag, if_neg Bool.false_ne_true]
  exact Nat.sub_le _ _

/-- A flow with an identifier, one tag at most, and actions that are not longer than in the request has
room in the reply that is sized for it. -/
theorem replyFits_of_ufid {env : FlowReplyEnv} {flow : ReplyFlow} {ufid : List (BitVec 8)}
    (hid : flow.id = .ufid ufid) (htag : hasSecondTag flow.key = false)
    (hwritable : actionsWritable env.toReplyEnv flow.sf_acts)
    (hlen : actionsSize env.toReplyEnv 0 flow.sf_acts ≤ flow.orig_len) (ufid_flags : BitVec 32) :
    ReplyFits env flow flow.id ufid_flags := by
  have hkey : keyRoom env.forKey flow.key flow.key false ≤ keyLine env := keyRoom_le htag
  have hmask : keyRoom env.forMask flow.key flow.mask true ≤ keyLine env := keyRoom_le htag
  have hacts := nlaTotalSize_mono hlen
  have hfree : 0 ≤ identifierFree env flow flow.id ufid_flags := by
    unfold identifierFree identifierRoom ufidLine
    rw [hid]
    dsimp only
    split_ifs
    all_goals omega
  refine ⟨fun _ => hwritable, ?_⟩
  have hmaskFree : 0 ≤ maskFree env flow ufid_flags := by
    unfold maskFree
    split_ifs
    all_goals omega
  have hactionsFree : 0 ≤ actionsFree env flow ufid_flags := by
    unfold actionsFree
    split_ifs
    all_goals omega
  omega

/-- Where there is no padding, it need not be accounted for. -/
theorem unpadded_le (_ : Nat) : false = true → true = false := Eq.symm

/-- Everything is configured, and the processor does without padding. -/
def fullReplyEnv : FlowReplyEnv where
  ct_config _ := true
  nf_conntrack_zones := true
  nf_conntrack_mark := true
  nf_conntrack_labels := true
  nf_nat_needed := true
  nf_nat_ipv4 := true
  nf_nat_ipv6 := true
  nat_random_fully := true
  efficient := true
  pad _ := false
  pad_le := unpadded_le
  key_pad := false
  mask_pad := false
  used_pad := false
  stats_pad := false
  key_pad_le := Eq.symm
  mask_pad_le := Eq.symm
  used_pad_le := Eq.symm
  stats_pad_le := Eq.symm

/-- CT without anything else, for IPv4. -/
def plainCt : OvsConntrackInfo where
  helper := none
  zone := 0
  commit := false
  nat := 0
  random_fully_compat := false
  force := false
  have_eventmask := false
  family := .ipv4
  eventmask := 0
  mark_value := 0
  mark_mask := 0
  labels_value _ := 0
  labels_mask _ := 0
  range := ⟨0, fun _ => 0, fun _ => 0, 0, 0⟩

/-- A flow for datagrams that has seen none, with its identifier and its actions. -/
def datagramFlow (id : SwFlowId) (orig_len : Nat) (sf_acts : List StoredAction) : ReplyFlow where
  key := longKey
  id := id
  mask _ := 0
  orig_len := orig_len
  sf_acts := sf_acts
  n_packets := 0
  n_bytes := 0
  used := 0
  used_time := 0
  tcp_flags := 0

deriving instance DecidableEq for Nlattr

/-- The key of a flow without an identifier has no room in a reply without the mask, and what six CT
actions are written as has none in a reply without key and mask. -/
theorem flowReply_short :
    flowReply fullReplyEnv (datagramFlow (.unmaskedKey longKey) 0 []) (.unmaskedKey longKey) ovsUfidFOmitMask =
        .error emsgsize ∧
      ¬ ReplyComplete ovsUfidFOmitMask (flowReply fullReplyEnv
        (datagramFlow (.unmaskedKey longKey) 0 []) (.unmaskedKey longKey) ovsUfidFOmitMask) ∧
      flowReply fullReplyEnv (datagramFlow (.ufid [1]) 24 (List.replicate 6 (.ct plainCt))) (.ufid [1])
        (ovsUfidFOmitKey ||| ovsUfidFOmitMask) = .ok [flowAttr .ufid [1]] ∧
      ¬ ReplyComplete (ovsUfidFOmitKey ||| ovsUfidFOmitMask) (flowReply fullReplyEnv
        (datagramFlow (.ufid [1]) 24 (List.replicate 6 (.ct plainCt))) (.ufid [1])
        (ovsUfidFOmitKey ||| ovsUfidFOmitMask)) := by
  have hkey : flowReply fullReplyEnv (datagramFlow (.unmaskedKey longKey) 0 []) (.unmaskedKey longKey)
      ovsUfidFOmitMask = .error emsgsize := by
    decide +kernel
  have hct : flowReply fullReplyEnv (datagramFlow (.ufid [1]) 24 (List.replicate 6 (.ct plainCt))) (.ufid [1])
      (ovsUfidFOmitKey ||| ovsUfidFOmitMask) = .ok [flowAttr .ufid [1]] := by
    decide +kernel
  refine ⟨hkey, ?_, hct, ?_⟩
  · rw [hkey]
    rintro ⟨msg, heq, -⟩
    cases heq
  · rw [hct]
    rintro ⟨msg, heq, hacts⟩
    obtain rfl := Except.ok.inj heq
    obtain ⟨a, ha, htype⟩ := hacts (by decide)
    exact NoActions.flowAttr (by decide) _ a ha htype

end OvsDatapath.Datapath
