import OvsDatapath.Lib.Fault
import OvsDatapath.Lib.Pieces
import OvsDatapath.Lib.Runs

/-!
# STT reassembly

`linux/compat/stt.c`: an STT packet crosses the network as a TCP stream of its own. The sequence
number of each segment says how long the packet is and where in it the segment belongs. Each cpu
keeps the segments it has in a hash table with one chain per slot, and hands a packet on when the
chain of its slot holds as many bytes as the first segment announced.

An skb is a value here; where the code keeps a pointer to one, the model keeps its address, and
`SttPercpu.fresh` gives every skb that comes in an address of its own. What the rest of the kernel
does is a parameter: the clock, the hash, and whether two skbs can be joined.
-/

namespace OvsDatapath.Stt

open OvsDatapath.Lib

/-! ### The data -/

/-- `struct first_frag`: what the first skb of a chain knows about all of it. -/
structure FirstFrag where
  last_skb : Nat
  mem_used : UInt32
  tot_len : Nat
  rcvd_len : Nat
  set_ecn_ce : Bool
  deriving DecidableEq, Repr

/-- `struct pkt_key`. -/
structure PktKey where
  saddr : BitVec 32
  daddr : BitVec 32
  pkt_seq : BitVec 32
  mark : BitVec 32
  deriving DecidableEq, Repr

/-- An skb as `stt_rcv` hands it on: the fields of its outer headers that are read, the namespace
of its device, the data after the TCP header, and what the layers below left in its `cb`. -/
structure Segment where
  net : Nat
  saddr : BitVec 32
  daddr : BitVec 32
  ack_seq : BitVec 32
  mark : BitVec 32
  seq : BitVec 32
  tos : BitVec 8
  tstamp : Nat
  truesize : UInt32
  data : List UInt8
  cb : FirstFrag
  deriving DecidableEq, Repr

/-- `STT_SEQ_LEN_SHIFT`. -/
def sttSeqLenShift : Nat := 16

/-- `STT_SEQ_OFFSET_MASK`. -/
def sttSeqOffsetMask : BitVec 32 := 0xFFFF

/-- The length that the segment announces for the whole packet. -/
def Segment.tot_len (seg : Segment) : Nat := (seg.seq >>> sttSeqLenShift).toNat

/-- Where in the packet the segment belongs. -/
def Segment.offset (seg : Segment) : Nat := (seg.seq &&& sttSeqOffsetMask).toNat

/-- The key of the packet that the segment is of. -/
def Segment.key (seg : Segment) : PktKey := ⟨seg.saddr, seg.daddr, seg.ack_seq, seg.mark⟩

/-- An skb in a chain, with its `struct frag_skb_cb`. -/
structure FragSkb where
  addr : Nat
  skb : Segment
  offset : Nat
  first : FirstFrag
  deriving DecidableEq, Repr

/-- `struct pkt_frag`; no skbs stands for `NULL`. -/
structure PktFrag where
  skbs : List FragSkb
  timestamp : BitVec 64
  key : PktKey
  deriving DecidableEq, Repr

/-- `FRAG_HASH_SHIFT`. -/
def fragHashShift : Nat := 8

/-- `FRAG_HASH_ENTRIES`. -/
def fragHashEntries : Nat := 256

/-- `FRAG_HASH_SEGS`. -/
def fragHashSegs : Nat := 4

/-- `REASM_HI_THRESH`. -/
def reasmHiThresh : UInt32 := 4 * 1024 * 1024

/-- `REASM_LO_THRESH`. -/
def reasmLoThresh : UInt32 := 3 * 1024 * 1024

/-- `struct stt_percpu`, with the address of the next skb that comes in. -/
structure SttPercpu where
  frag_hash : Fin fragHashEntries → PktFrag
  frag_lru : List (Fin fragHashEntries)
  frag_mem_used : UInt32
  fresh : Nat

/-- What does not change: the hash with its seed, `FRAG_EXP_TIME` in ticks, and whether the build
has `SKIP_ZERO_COPY`. -/
structure SttEnv where
  pkt_key_hash : Nat → PktKey → BitVec 32
  frag_exp_time : BitVec 64
  skip_zero_copy : Bool

/-- What the kernel answers when one skb is to be joined to another: whether `skb_unclone` succeeds,
by how much `skb_try_coalesce` changes the size, if it can, and whether `pskb_expand_head` succeeds. -/
structure CopyEnv where
  unclone : Bool
  coalesce : Option UInt32
  expand : Bool
  deriving DecidableEq, Repr

/-- `time_before`. -/
def timeBefore (a b : BitVec 64) : Bool := (a - b).slt 0

/-! ### Freeing entries -/

/-- `free_frag`. -/
def freeFrag (s : SttPercpu) (i : Fin fragHashEntries) : SttPercpu :=
  match (s.frag_hash i).skbs with
  | [] => s
  | head :: _ =>
      { s with
        frag_mem_used := s.frag_mem_used - head.first.mem_used
        frag_lru := s.frag_lru.erase i
        frag_hash := Function.update s.frag_hash i { s.frag_hash i with skbs := [] } }

/-- The loop of `evict_frags`, for at most as many rounds as there are entries. -/
def evictLoop : Nat → SttPercpu → SttPercpu
  | 0, s => s
  | fuel + 1, s =>
      match s.frag_lru with
      | [] => s
      | i :: _ => if reasmLoThresh < s.frag_mem_used then evictLoop fuel (freeFrag s i) else s

/-- `evict_frags`. -/
def evictFrags (s : SttPercpu) : SttPercpu := evictLoop s.frag_lru.length s

/-- The check of `reassemble` for too much memory in use. -/
def makeRoom (s : SttPercpu) (seg : Segment) : SttPercpu :=
  if reasmHiThresh < s.frag_mem_used + seg.truesize then evictFrags s else s

/-! ### Looking an entry up -/

/-- `pkt_key_match`. -/
def pktKeyMatch (net : Nat) (a : PktFrag) (b : PktKey) : Bool :=
  a.key == b && a.skbs.head?.any fun head => head.skb.net == net

/-- The slot for the low byte of a hash. -/
def hashSlot (hash : BitVec 32) : Fin fragHashEntries :=
  ⟨hash.toNat % fragHashEntries, Nat.mod_lt _ (by decide)⟩

/-- Whether `lookup_frag` may return the entry. -/
def fragUsable (env : SttEnv) (net : Nat) (key : PktKey) (jiffies : BitVec 64) (frag : PktFrag) :
    Bool :=
  !frag.skbs.isEmpty && timeBefore jiffies (frag.timestamp + env.frag_exp_time) &&
    pktKeyMatch net frag key

/-- The choice between the victim so far and the slot at hand. -/
def pickVictim (s : SttPercpu) (i : Fin fragHashEntries) :
    Option (Fin fragHashEntries) → Fin fragHashEntries
  | none => i
  | some victim =>
      if !(s.frag_hash victim).skbs.isEmpty && ((s.frag_hash i).skbs.isEmpty ||
          timeBefore (s.frag_hash i).timestamp (s.frag_hash victim).timestamp) then i
      else victim

/-- The loop of `lookup_frag`: the entry it finds, or else the victim. The clock is read in every
round. -/
def lookupLoop (env : SttEnv) (s : SttPercpu) (net : Nat) (key : PktKey) (clock : Nat → BitVec 64) :
    Nat → BitVec 32 → Option (Fin fragHashEntries) →
      Fin fragHashEntries ⊕ Option (Fin fragHashEntries)
  | 0, _, victim => .inr victim
  | n + 1, hash, victim =>
      if fragUsable env net key (clock n) (s.frag_hash (hashSlot hash)) then .inl (hashSlot hash)
      else
        lookupLoop env s net key clock n (hash >>> fragHashShift)
          (some (pickVictim s (hashSlot hash) victim))

/-- `lookup_frag`. -/
def lookupFrag (env : SttEnv) (s : SttPercpu) (net : Nat) (key : PktKey) (hash : BitVec 32)
    (clock : Nat → BitVec 64) : SttPercpu × Fin fragHashEntries :=
  match lookupLoop env s net key clock fragHashSegs hash none with
  | .inl frag => (s, frag)
  | .inr victim =>
      let victim := victim.getD (hashSlot hash)
      (if (s.frag_hash victim).skbs.isEmpty then s else freeFrag s victim, victim)

/-! ### Placing a segment -/

/-- `__copy_skb`: `tail` is what follows the skb copied to. -/
def copySkb (env : SttEnv) (copy : CopyEnv) (head : FragSkb) (tail : List FragSkb) (src : FragSkb) :
    Option (FragSkb × UInt32) :=
  let joined (delta : UInt32) : FragSkb × UInt32 :=
    ({ head with skb := { head.skb with
        data := head.skb.data ++ src.skb.data, truesize := head.skb.truesize + delta } }, delta)
  if !env.skip_zero_copy then none
  else if !tail.isEmpty then none
  else if head.offset ≠ 0 then none
  else if !copy.unclone then none
  else
    match copy.coalesce with
    | some delta => some (joined delta)
    | none => if copy.expand then some (joined (UInt32.ofNat src.skb.data.length)) else none

/-- The chain after `x->next = tail` for the skb `x` at an address. -/
def linkAfter (addr : Nat) (tail : List FragSkb) : List FragSkb → List FragSkb
  | [] => []
  | x :: xs => if x.addr = addr then x :: tail else x :: linkAfter addr tail xs

/-- A change of the bookkeeping in the first skb. -/
def updateFirst (f : FirstFrag → FirstFrag) : List FragSkb → List FragSkb
  | [] => []
  | head :: rest => { head with first := f head.first } :: rest

/-- `FRAG_CB(frag->skbs)->first.last_skb = skb`. -/
def setLastSkb (skb : FragSkb) : List FragSkb → List FragSkb :=
  updateFirst fun first => { first with last_skb := skb.addr }

/-- The middle part of `reassemble`: the chain with the segment in its place and what that adds to
the memory in use, or `none` for a segment that overlaps. -/
def placeSkb (env : SttEnv) (copy : CopyEnv) (head : FragSkb) (rest : List FragSkb) (skb : FragSkb) :
    Option (List FragSkb × UInt32) :=
  match (head :: rest).find? fun x => x.addr == head.first.last_skb with
  | none => none -- `last_skb` dangles; `ChainHolds.find_last` excludes it
  | some last =>
      if last.offset + last.skb.data.length = skb.offset then
        match copySkb env copy head rest skb with
        | some (head', delta) => some (head' :: rest, delta)
        | none =>
            some (setLastSkb skb (linkAfter last.addr [skb] (head :: rest)), skb.skb.truesize)
      else
        let before := (head :: rest).takeWhile fun x => x.offset < skb.offset
        let after := (head :: rest).dropWhile fun x => x.offset < skb.offset
        if before.getLast?.any fun prev => skb.offset < prev.offset + prev.skb.data.length then none
        else if after.head?.any fun next => next.offset < skb.offset + skb.skb.data.length then none
        else
          let chain :=
            if before.isEmpty then { skb with first := head.first } :: after
            else before ++ skb :: after
          some (if after.isEmpty then setLastSkb skb chain else chain, skb.skb.truesize)

/-! ### `reassemble` -/

/-- `INET_ECN_is_ce`. -/
def inetEcnIsCe (tos : BitVec 8) : Bool := tos &&& 3 == 3

/-- `INET_ECN_set_ce`: only a packet that is capable of it is marked. -/
def inetEcnSetCe (tos : BitVec 8) : BitVec 8 :=
  if tos &&& 3 == 1 || tos &&& 3 == 2 then tos ||| 3 else tos

/-- A segment that starts an entry. -/
def startFrag (s : SttPercpu) (i : Fin fragHashEntries) (skb : FragSkb) (jiffies : BitVec 64) :
    SttPercpu :=
  let first : FirstFrag := ⟨skb.addr, skb.skb.truesize, skb.skb.tot_len, skb.skb.data.length, false⟩
  { s with
    frag_hash := Function.update s.frag_hash i ⟨[{ skb with first := first }], jiffies, skb.skb.key⟩
    frag_lru := s.frag_lru ++ [i]
    frag_mem_used := s.frag_mem_used + skb.skb.truesize }

/-- The counters of a chain, after a segment was placed in it. -/
def countSegment (seg : Segment) (delta : UInt32) (first : FirstFrag) : FirstFrag :=
  { first with
    set_ecn_ce := first.set_ecn_ce || inetEcnIsCe seg.tos
    rcvd_len := (first.rcvd_len + seg.data.length) % 2 ^ 16
    mem_used := first.mem_used + delta }

/-- The first skb of a packet that is handed on. -/
def finishHead (seg : Segment) (head : FragSkb) : FragSkb :=
  { head with skb := { head.skb with
      tstamp := seg.tstamp
      tos := if head.first.set_ecn_ce then inetEcnSetCe head.skb.tos else head.skb.tos } }

/-- The end of `reassemble`: hand the packet on if it is complete. -/
def finishFrag (s : SttPercpu) (i : Fin fragHashEntries) (chain : List FragSkb) (delta : UInt32)
    (seg : Segment) : SttPercpu × Option (List FragSkb) :=
  match updateFirst (countSegment seg delta) chain with
  | [] => (s, none)
  | head :: rest =>
      if head.first.tot_len = head.first.rcvd_len then
        ({ s with
            frag_hash := Function.update s.frag_hash i { s.frag_hash i with skbs := [] }
            frag_lru := s.frag_lru.erase i
            frag_mem_used := s.frag_mem_used + delta - head.first.mem_used },
          some (finishHead seg head :: rest))
      else
        ({ s with
            frag_hash := Function.update s.frag_hash i { s.frag_hash i with skbs := head :: rest }
            frag_lru := s.frag_lru.erase i ++ [i]
            frag_mem_used := s.frag_mem_used + delta },
          none)

/-- The part of `reassemble` under the lock, once the entry has been looked up. -/
def storeSegment (env : SttEnv) (s : SttPercpu) (i : Fin fragHashEntries) (skb : FragSkb)
    (jiffies : BitVec 64) (copy : CopyEnv) : SttPercpu × Option (List FragSkb) :=
  match (s.frag_hash i).skbs with
  | [] => (startFrag s i skb jiffies, none)
  | head :: rest =>
      match placeSkb env copy head rest skb with
      | none => (s, none)
      | some (chain, delta) => finishFrag s i chain delta skb.skb

/-- `reassemble`. The length of an skb is far below `2 ^ 32`, so its sum with an offset does not wrap. -/
def reassemble (env : SttEnv) (s : SttPercpu) (seg : Segment) (clock : Nat → BitVec 64)
    (copy : CopyEnv) : SttPercpu × Option (List FragSkb) :=
  let skb : FragSkb := ⟨s.fresh, seg, seg.offset, seg.cb⟩
  let s := { s with fresh := s.fresh + 1 }
  if seg.data.length = 0 then (s, none)
  else if seg.tot_len < skb.offset + seg.data.length then (s, none)
  else if seg.tot_len = seg.data.length then (s, some [skb])
  else
    let hash := env.pkt_key_hash seg.net seg.key
    let found := lookupFrag env (makeRoom s seg) seg.net seg.key hash clock
    storeSegment env found.1 found.2 skb (clock fragHashSegs) copy

/-- `coalesce_skb` in a build without `SKIP_ZERO_COPY`. The first skb has `headlen` bytes in its
linear part; what else it has and the data of the others are put behind them, into the room that
`pskb_expand_head` makes if it can. No room left is a fault: `skb_put` panics. -/
def coalesceSkb (headlen : Nat) (expand : Bool) :
    List FragSkb → Except MemFault (Option FragSkb)
  | [] => .error .nullDeref
  | [head] => .ok (some head)
  | head :: rest =>
      let delta := head.first.tot_len - headlen
      let data := rest.flatMap fun frag => frag.skb.data
      if !expand then .ok none
      else if delta < head.skb.data.length - headlen + data.length then .error .bug
      else .ok (some { head with skb := { head.skb with data := head.skb.data ++ data } })

end OvsDatapath.Stt
