import Mathlib.Tactic

/-!
# Flow keys and their hashes

The five-tuple that every sketch counts by, and the two hash functions over it (`flow_key.h`,
`sketch_util.h`). Both hashes read the two addresses and the port word only: two keys that differ
in the protocol alone always collide, while `flowKeyEqual` compares all five fields.

Counters have the type `elemtype`, a `long long`: they are modelled by `Int`, and the operations
that can leave its range wrap explicitly.
-/

namespace OvsDatapath.Sketch

/-- `struct flow_key`. -/
structure FlowKey where
  srcip : BitVec 32
  dstip : BitVec 32
  srcport : BitVec 16
  dstport : BitVec 16
  protocol : BitVec 16
  deriving DecidableEq, Repr

/-- The all-zero key that a fresh allocation holds. -/
def emptyKey : FlowKey := ⟨0, 0, 0, 0, 0⟩

/-- The `port` member of the union: both ports read as one word, on a little-endian machine. -/
def FlowKey.port (key : FlowKey) : BitVec 32 := key.dstport ++ key.srcport

/-- `flow_key_hash_old`: two multiply-and-xor rounds in 32-bit arithmetic. -/
def flowKeyHashOld (key : FlowKey) : BitVec 32 :=
  let hashCode := key.srcip
  let hashCode := (hashCode * 397#32) ^^^ key.dstip
  (hashCode * 397#32) ^^^ key.port

/-- `GOLDEN_RATIO_PRIME_32`. -/
def goldenRatioPrime32 : BitVec 32 := 0x9e370001#32

/-- `sketch_hash_32`: the top `bits` bits of a product. -/
def sketchHash32 (val : BitVec 32) (bits : Nat) : BitVec 32 :=
  (val * goldenRatioPrime32) >>> (32 - bits)

/-- `flow_key_hash`. -/
def flowKeyHash (key : FlowKey) (bits : Nat) : BitVec 32 :=
  sketchHash32 key.srcip bits ^^^ sketchHash32 key.dstip bits ^^^ sketchHash32 key.port bits

/-- `flow_key_equal`. -/
def flowKeyEqual (lhs rhs : FlowKey) : Bool :=
  lhs.srcip == rhs.srcip && lhs.dstip == rhs.dstip && lhs.srcport == rhs.srcport &&
    lhs.dstport == rhs.dstport && lhs.protocol == rhs.protocol

/-- The field-by-field comparison is equality of keys. -/
@[simp] theorem flowKeyEqual_iff {lhs rhs : FlowKey} : flowKeyEqual lhs rhs = true ↔ lhs = rhs := by
  cases lhs; cases rhs
  simp [flowKeyEqual, and_assoc]

@[simp] theorem flowKeyEqual_eq_false_iff {lhs rhs : FlowKey} :
    flowKeyEqual lhs rhs = false ↔ lhs ≠ rhs := by
  rw [← Bool.not_eq_true, flowKeyEqual_iff]

theorem sketchHash32_lt (val : BitVec 32) {bits : Nat} (hbits : bits ≤ 32) :
    (sketchHash32 val bits).toNat < 2 ^ bits := by
  have hlt := (val * goldenRatioPrime32).isLt
  rw [sketchHash32, BitVec.toNat_ushiftRight, Nat.shiftRight_eq_div_pow]
  apply Nat.div_lt_of_lt_mul
  calc (val * goldenRatioPrime32).toNat < 2 ^ 32 := hlt
    _ = 2 ^ (32 - bits) * 2 ^ bits := by rw [← pow_add]; congr 1; omega

/-- A hash of `bits` bits is below `2 ^ bits`, so it is the index of a slot. -/
theorem flowKeyHash_lt (key : FlowKey) {bits : Nat} (hbits : bits ≤ 32) :
    (flowKeyHash key bits).toNat < 2 ^ bits := by
  rw [flowKeyHash, BitVec.toNat_xor, BitVec.toNat_xor]
  exact Nat.xor_lt_two_pow (Nat.xor_lt_two_pow (sketchHash32_lt _ hbits) (sketchHash32_lt _ hbits))
    (sketchHash32_lt _ hbits)

/-! ## Streams of updates -/

/-- The sum of the values given for `key` in a stream of updates, first update first. -/
def valueSum (key : FlowKey) (stream : List (FlowKey × Int)) : Int :=
  ((stream.filter fun p => p.1 = key).map Prod.snd).sum

theorem valueSum_append (key : FlowKey) (stream : List (FlowKey × Int)) (u : FlowKey × Int) :
    valueSum key (stream ++ [u]) = valueSum key stream + if u.1 = key then u.2 else 0 := by
  by_cases hu : u.1 = key <;> simp [valueSum, List.filter_append, hu]

/-- With non-negative values, a larger selection of updates has a larger sum. -/
theorem filterSum_le_filterSum {p q : FlowKey × Int → Bool} {stream : List (FlowKey × Int)}
    (hpq : ∀ u ∈ stream, p u = true → q u = true) (hvalues : ∀ u ∈ stream, 0 ≤ u.2) :
    ((stream.filter p).map Prod.snd).sum ≤ ((stream.filter q).map Prod.snd).sum := by
  induction stream with
  | nil => exact le_rfl
  | cons u stream ih =>
      have hu := hvalues u (List.mem_cons_self ..)
      have hrest := ih (fun x hx => hpq x (List.mem_cons_of_mem _ hx))
        (fun x hx => hvalues x (List.mem_cons_of_mem _ hx))
      by_cases hp : p u = true
      · have hq := hpq u (List.mem_cons_self ..) hp
        simp only [List.filter_cons, hp, hq, if_true, List.map_cons, List.sum_cons]
        omega
      · by_cases hq : q u = true <;>
          simp only [List.filter_cons, hp, hq, if_true, if_false, Bool.false_eq_true,
            List.map_cons, List.sum_cons] <;> omega

theorem filterSum_nonneg (p : FlowKey × Int → Bool) {stream : List (FlowKey × Int)}
    (hvalues : ∀ u ∈ stream, 0 ≤ u.2) : 0 ≤ ((stream.filter p).map Prod.snd).sum := by
  have h := filterSum_le_filterSum (p := fun _ => false) (q := p)
    (fun _ _ h => absurd h Bool.false_ne_true) hvalues
  simpa using h

theorem filterSum_le_sum (p : FlowKey × Int → Bool) {stream : List (FlowKey × Int)}
    (hvalues : ∀ u ∈ stream, 0 ≤ u.2) :
    ((stream.filter p).map Prod.snd).sum ≤ (stream.map Prod.snd).sum := by
  have h := filterSum_le_filterSum (p := p) (q := fun _ => true) (fun _ _ _ => rfl) hvalues
  simpa using h

end OvsDatapath.Sketch
