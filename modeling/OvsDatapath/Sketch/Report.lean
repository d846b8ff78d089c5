import OvsDatapath.Lib.Fault
import OvsDatapath.Lib.Runs

/-!
# The report listener

The loop of `sketch_report_listen` (`sketch_manage.c`). One receive buffer serves all connections.
It is zeroed when it is allocated and never again; a connection overwrites as many bytes from the
front as it delivers, and then the whole buffer is compared with the magic command as a C string.
The number of bytes received is printed and not used.

So the rest of an old command completes a new message that is too short, and a message may go on
after the terminator. `requestsIndependent_iff` says that nothing else goes wrong.
-/

namespace OvsDatapath.Sketch

open OvsDatapath.Lib

/-- `buf_size`: `MAX_BATCH` keys of 16 bytes. -/
def bufSize : Nat := 1024 * 16

/-- `magic_command`, without its terminator. -/
def magicCommand : List (BitVec 8) := "lol233hhh".toList.map fun c => BitVec.ofNat 8 c.toNat

/-- The magic command with its terminator. -/
def magicMessage : List (BitVec 8) := magicCommand ++ [0]

/-- The outcome of `kernel_recvmsg`: bytes that fit the buffer, or an error code. -/
inductive Received where
  | bytes (m : List (BitVec 8)) (fits : m.length ≤ bufSize)
  | error (code : Int)

/-- The bytes received; an error delivers none. -/
def Received.message : Received → List (BitVec 8)
  | .bytes m _ => m
  | .error _ => []

theorem Received.length_le (r : Received) : r.message.length ≤ bufSize := by
  cases r with
  | bytes m fits => exact fits
  | error code => exact Nat.zero_le _

/-- One turn of the loop: the outcome of `kernel_accept` and, on a connection, of
`kernel_recvmsg`. -/
inductive ListenEvent where
  | again
  | acceptError (code : Int)
  | connection (r : Received)

/-- The listening thread: its buffer, and whether it is still in its loop. -/
structure Listener where
  recvbuf : List (BitVec 8)
  listening : Bool

/-- The thread when it enters the loop. -/
def Listener.start : Listener := ⟨List.replicate bufSize 0, true⟩

/-- The characters of a C string: everything before the first zero. -/
def cString (bytes : List (BitVec 8)) : List (BitVec 8) := bytes.takeWhile fun b => b ≠ 0

/-- One turn. The answer is none if no connection was served, else whether a report was sent. -/
def listenStep (thread : Listener) : ListenEvent → Except MemFault (Option Bool × Listener)
  | .again => .ok (none, thread)
  | .acceptError _ => .ok (none, { thread with listening := false })
  | .connection r =>
      if thread.listening then
        let recvbuf := r.message ++ thread.recvbuf.drop r.message.length
        -- `strcmp(recvbuf, magic_command) == 0`
        .ok (some (cString recvbuf == magicCommand), { thread with recvbuf := recvbuf })
      else .ok (none, thread)

/-! ## When the command is found in the buffer -/

theorem takeWhile_ne_zero_eq_iff {s l : List (BitVec 8)} (hs : ∀ b ∈ s, b ≠ 0)
    (hlen : s.length < l.length) : cString l = s ↔ s ++ [0] <+: l := by
  induction s generalizing l with
  | nil =>
      cases l with
      | nil => simp at hlen
      | cons b l =>
          by_cases hb : b = 0#8
          · simp [cString, hb]
          · simp [cString, hb, Ne.symm hb]
  | cons c s ih =>
      rw [List.forall_mem_cons] at hs
      cases l with
      | nil => simp at hlen
      | cons b l =>
          have hrest := ih hs.2 (Nat.lt_of_succ_lt_succ hlen)
          simp only [cString] at hrest
          by_cases hb : b = 0
          · have hne : c ≠ 0#8 := hs.1
            simp [cString, hb, hne]
          · rw [cString, List.takeWhile_cons_of_pos (by simpa using hb), List.cons_eq_cons, hrest,
              List.cons_append, List.cons_prefix_cons]
            exact and_congr_left fun _ => eq_comm

theorem magicCommand_ne_zero : ∀ b ∈ magicCommand, b ≠ 0 := by decide

theorem magicCommand_length : magicCommand.length = 9 := by decide

theorem magicMessage_length : magicMessage.length = 10 := by decide

/-- The command is found exactly when the first ten bytes of the buffer are the magic message. -/
theorem cString_eq_magicCommand_iff {recvbuf : List (BitVec 8)} (h : 9 < recvbuf.length) :
    (cString recvbuf == magicCommand) = true ↔ recvbuf.take 10 = magicMessage := by
  rw [beq_iff_eq, takeWhile_ne_zero_eq_iff magicCommand_ne_zero (by rw [magicCommand_length]; exact h)]
  show magicMessage <+: recvbuf ↔ _
  rw [List.prefix_iff_eq_take, magicMessage_length]
  exact eq_comm

/-! ## Requests -/

/-- A connection is answered with a report exactly when the bytes it delivered are the command. -/
def RequestGood (_ : Listener) : ListenEvent → Option Bool → Listener → Prop
  | .connection r, some answered, _ => answered = true ↔ r.message = magicMessage
  | _, _, _ => True

/-- The condition on a connection: nothing follows a complete command, and an incomplete command,
or no bytes at all, does not meet the rest of the command in the buffer. -/
def RequestOk (thread : Listener) : ListenEvent → Prop
  | .connection r =>
      thread.listening = true →
        (10 < r.message.length → ¬ magicMessage <+: r.message) ∧
          (r.message.length < 10 →
            ¬ (r.message <+: magicMessage ∧
              (thread.recvbuf.take 10).drop r.message.length =
                magicMessage.drop r.message.length))
  | _ => True

/-- The first ten bytes of the buffer after a message. -/
theorem take_overwrite_eq_iff {m recvbuf : List (BitVec 8)} :
    ((m ++ recvbuf.drop m.length).take 10 = magicMessage) ↔
      if m.length < 10 then
        m <+: magicMessage ∧ (recvbuf.take 10).drop m.length = magicMessage.drop m.length
      else magicMessage <+: m := by
  split
  case isTrue hlt =>
    have htake : (m ++ recvbuf.drop m.length).take 10 = m ++ (recvbuf.take 10).drop m.length := by
      rw [List.take_append, List.take_of_length_le (by omega), List.take_drop]
      congr 3
      omega
    rw [htake]
    constructor
    · intro heq
      refine ⟨⟨_, heq⟩, ?_⟩
      rw [← heq, List.drop_left]
    · rintro ⟨⟨rest, hrest⟩, hdrop⟩
      rw [hdrop, ← hrest, List.drop_left]
  case isFalse hge =>
    rw [List.take_append_of_le_length (by omega), List.prefix_iff_eq_take, magicMessage_length]
    exact eq_comm

theorem request_step_iff {thread : Listener} (hbuf : thread.recvbuf.length = bufSize)
    (event : ListenEvent) :
    (∃ answer thread', listenStep thread event = .ok (answer, thread') ∧
      RequestGood thread event answer thread') ↔ RequestOk thread event := by
  cases event with
  | again => exact iff_of_true ⟨_, _, rfl, trivial⟩ trivial
  | acceptError code => exact iff_of_true ⟨_, _, rfl, trivial⟩ trivial
  | connection r =>
      cases hlisten : thread.listening with
      | false =>
          refine iff_of_true ⟨none, thread, by simp [listenStep, hlisten], trivial⟩ ?_
          intro h
          rw [hlisten] at h
          cases h
      | true =>
          have hlen : 9 < (r.message ++ thread.recvbuf.drop r.message.length).length := by
            have := r.length_le
            rw [List.length_append, List.length_drop, hbuf]
            simp only [bufSize] at this ⊢
            omega
          have hstep : (∃ answer thread', listenStep thread (.connection r) = .ok (answer, thread') ∧
              RequestGood thread (.connection r) answer thread') ↔
              ((r.message ++ thread.recvbuf.drop r.message.length).take 10 = magicMessage ↔
                r.message = magicMessage) := by
            rw [← cString_eq_magicCommand_iff hlen]
            simp [listenStep, hlisten, RequestGood]
          -- a short message leaves the end of the one before it in the buffer
          rw [hstep, take_overwrite_eq_iff, RequestOk, hlisten]
          split
          case isTrue hlt =>
            have hne : r.message ≠ magicMessage := by
              intro heq
              rw [heq, magicMessage_length] at hlt
              omega
            constructor
            · exact fun h _ => ⟨fun h10 => by omega, fun _ hand => hne (h.mp hand)⟩
            · exact fun h => iff_of_false ((h rfl).2 hlt) hne
          case isFalse hge =>
            constructor
            · intro h _
              refine ⟨fun h10 hpre => ?_, fun hlt => by omega⟩
              rw [h.mp hpre, magicMessage_length] at h10
              omega
            · intro h
              refine ⟨fun hpre => ?_, fun heq => heq ▸ List.prefix_refl _⟩
              have hle : ¬ 10 < r.message.length := fun h10 => (h rfl).1 h10 hpre
              refine (hpre.eq_of_length ?_).symm
              rw [magicMessage_length]
              omega

/-- Every connection of a run is answered by its own bytes alone. -/
def RequestsIndependent (events : List ListenEvent) : Prop :=
  RunHolds listenStep RequestGood Listener.start events

/-- **Requests are independent** exactly in the runs in which no message goes on after a complete
command and no message, together with what is left in the buffer, makes up a command. -/
theorem requestsIndependent_iff (events : List ListenEvent) :
    RequestsIndependent events ↔ RunMeets listenStep RequestOk Listener.start events := by
  refine runHolds_iff_runMeets (fun _ _ => True)
    (fun thread => thread.recvbuf.length = bufSize)
    (fun thread event hbuf _ => request_step_iff hbuf event) ?_ ?_
    (runMeets_const_of_forall fun _ _ => trivial)
  · intro thread event answer thread' hbuf _ hstep _
    cases event with
    | again =>
        cases hstep
        exact hbuf
    | acceptError code =>
        cases hstep
        exact hbuf
    | connection r =>
        rw [listenStep] at hstep
        split at hstep
        · cases hstep
          have := r.length_le
          dsimp only
          rw [List.length_append, List.length_drop, hbuf]
          omega
        · cases hstep
          exact hbuf
  · exact List.length_replicate

/-- A client that sends nothing is answered after one that sent the command. -/
theorem requestsIndependent_silent_client :
    ¬ RequestsIndependent
      [.connection (.bytes magicMessage (by decide)), .connection (.bytes [] (by decide))] := by
  rintro ⟨answer₁, thread₁, h₁, -, answer₂, thread₂, h₂, hgood, -⟩
  cases h₁
  have hanswered : (cString (magicMessage ++ (List.replicate bufSize 0).drop 10) == magicCommand) =
      true := by
    rw [cString_eq_magicCommand_iff]
    · rfl
    · rw [List.length_append, magicMessage_length]
      omega
  cases h₂
  exact absurd (hgood.mp hanswered) (by decide)

end OvsDatapath.Sketch
