import OvsDatapath.Lib.Fault

/-!
# Reading a buffer

A parser that walks over a buffer looks at bytes whose presence it has established before. `Reading` is
the monad of such walks. Its state is the position of the parser's pointer and the number of bytes, from
the start of the buffer on, that are known to be there. To access a byte behind them is a fault, and so is
to move the pointer behind them.

* `Runs m r post` — the walk comes to its end without a fault, and `post` holds there.
* `Gives len m r a n` — it computes `a`, leaves the pointer where it was, and knows no fewer bytes than
  before and no fewer than `n`, all of them within `len`.
-/

namespace OvsDatapath.Lib

/-- Where a walk stands. -/
structure Reader where
  data : Nat
  present : Nat

/-- A walk over a buffer. -/
abbrev Reading := StateT Reader (Except MemFault)

namespace Reading

variable {α β : Type}

/-- The value `a` of `n` bytes at an offset. -/
def read (off n : Nat) (a : α) : Reading α := fun r =>
  if off + n ≤ r.present then .ok (a, r) else .error .outOfBounds

/-- A check that, if it succeeds, establishes that the first `n` bytes are there. -/
def establish (ok : Bool) (n : Nat) : Reading Bool := fun r =>
  .ok (ok, if ok then { r with present := max r.present n } else r)

/-- The position of the pointer. -/
def position : Reading Nat := fun r => .ok (r.data, r)

/-- The pointer moves on. -/
def pull (n : Nat) : Reading Unit := fun r =>
  if r.data + n ≤ r.present then .ok ((), { r with data := r.data + n }) else .error .bug

/-- The pointer moves back. -/
def push (n : Nat) : Reading Unit := fun r =>
  if n ≤ r.data then .ok ((), { r with data := r.data - n }) else .error .bug

/-- Bytes are taken out of the part that is known. -/
def cut (n : Nat) : Reading Unit := fun r => .ok ((), { r with present := r.present - n })

/-- A walk that goes on for too long. -/
def endless : Reading α := fun _ => .error .endless

/-! ## Walks without a fault -/

/-- The walk comes to its end, and there the postcondition holds. -/
def Runs (m : Reading α) (r : Reader) (post : α → Reader → Prop) : Prop :=
  ∃ a r', m r = .ok (a, r') ∧ post a r'

variable {m : Reading α} {f : α → Reading β} {r : Reader} {post post' : α → Reader → Prop}

theorem Runs.pure {a : α} (h : post a r) : Runs (pure a) r post := ⟨a, r, rfl, h⟩

theorem Runs.bind {post : β → Reader → Prop} (h : Runs m r fun a r' => Runs (f a) r' post) :
    Runs (m >>= f) r post := by
  obtain ⟨a, r', hm, b, r'', hf, hpost⟩ := h
  refine ⟨b, r'', ?_, hpost⟩
  show (m r >>= fun x => f x.1 x.2) = _
  rw [hm]
  exact hf

theorem Runs.imp (h : Runs m r post) (himp : ∀ a r', post a r' → post' a r') : Runs m r post' := by
  obtain ⟨a, r', hm, hpost⟩ := h
  exact ⟨a, r', hm, himp a r' hpost⟩

section Steps

variable {off n : Nat} {a : α} {post : Unit → Reader → Prop}

theorem Runs.read {post : α → Reader → Prop} (hin : off + n ≤ r.present) (h : post a r) :
    Runs (read off n a) r post := ⟨a, r, if_pos hin, h⟩

theorem Runs.position {post : Nat → Reader → Prop} (h : post r.data r) : Runs position r post :=
  ⟨r.data, r, rfl, h⟩

theorem Runs.pull (hin : r.data + n ≤ r.present) (h : post () { r with data := r.data + n }) :
    Runs (pull n) r post := ⟨(), _, if_pos hin, h⟩

theorem Runs.push (hin : n ≤ r.data) (h : post () { r with data := r.data - n }) : Runs (push n) r post :=
  ⟨(), _, if_pos hin, h⟩

theorem Runs.cut (h : post () { r with present := r.present - n }) : Runs (cut n) r post := ⟨(), _, rfl, h⟩

end Steps

/-! ## Walks that compute a value -/

/-- More is known than before, within a number of bytes. -/
structure Grown (len : Nat) (r r' : Reader) : Prop where
  data : r'.data = r.data
  present : r.present ≤ r'.present
  inside : r'.present ≤ len

/-- The walk computes a value, and then so many bytes are known. -/
def Gives (len : Nat) (m : Reading α) (r : Reader) (a : α) (n : Nat) : Prop :=
  Runs m r fun a' r' => a' = a ∧ Grown len r r' ∧ n ≤ r'.present

variable {len off n k : Nat} {a : α} {b : β} {r' r'' : Reader}

theorem Grown.refl (h : r.present ≤ len) : Grown len r r := ⟨rfl, le_rfl, h⟩

theorem Grown.trans (h : Grown len r r') (h' : Grown len r' r'') : Grown len r r'' :=
  ⟨h'.data.trans h.data, h.present.trans h'.present, h'.inside⟩

namespace Gives

theorem pure (hr : r.present ≤ len) (hn : n ≤ r.present) : Gives len (pure a) r a n :=
  Runs.pure ⟨rfl, .refl hr, hn⟩

theorem bind (hm : Gives len m r a n) (hf : ∀ r', Grown len r r' → n ≤ r'.present → Gives len (f a) r' b k) :
    Gives len (m >>= f) r b k := by
  apply Runs.bind
  refine Runs.imp hm ?_
  rintro a' r' ⟨rfl, hgrown, hn⟩
  refine Runs.imp (hf r' hgrown hn) ?_
  rintro b' r'' ⟨rfl, hgrown', hk⟩
  exact ⟨rfl, hgrown.trans hgrown', hk⟩

/-- An access that is in order. -/
theorem read_bind (hin : off + n ≤ r.present) (hf : Gives len (f a) r b k) :
    Gives len (Reading.read off n a >>= f) r b k :=
  Runs.bind (Runs.read hin hf)

theorem establish {ok : Bool} (hr : r.present ≤ len) (hok : ok = true → n ≤ len) :
    Gives len (establish ok n) r ok (if ok then n else 0) := by
  refine ⟨ok, _, rfl, rfl, ?_⟩
  split_ifs with h
  · exact ⟨⟨rfl, le_max_left .., max_le hr (hok h)⟩, le_max_right ..⟩
  · exact ⟨.refl hr, Nat.zero_le _⟩

end Gives

end Reading

end OvsDatapath.Lib
