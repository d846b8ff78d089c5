import OvsDatapath.Stt.ListSegment

/-!
# IPv4 reassembly

`linux/compat/ip_fragment.c`, which the conntrack action calls for a packet that is a fragment. The fragments of
a datagram wait in a queue of their own, ordered by offset; a new one is cut where it overlaps with what is there
before it and cuts what is there behind it. The datagram is handed on when the first and the last fragment are in
and the lengths add up.

An skb is a value, with an address where the code keeps a pointer to one. The memory for a change of an skb, the
timer of the queue and the counter of the peer are answers of the kernel, `FragEnv`. What a queue charges to the
memory limit of its namespace is kept with the queue.
-/

namespace OvsDatapath.Frag

open OvsDatapath.Lib OvsDatapath.Flow OvsDatapath.Stt

/-! ### The data -/

/-- `struct iphdr` and the options behind it; numbers are what `ntohs` and `ntohl` make of them. -/
structure IpHdr where
  tos : BitVec 8
  tot_len : BitVec 16
  id : BitVec 16
  frag_off : BitVec 16
  ttl : BitVec 8
  protocol : BitVec 8
  check : BitVec 16
  saddr : BitVec 32
  daddr : BitVec 32
  options : List (BitVec 8)
  /-- `ihl` has four bits and counts words. -/
  options_ok : options.length % 4 = 0 ∧ options.length ≤ 40
  deriving DecidableEq

/-- `IP_DF`. -/
def ipDf : BitVec 16 := 0x4000

/-- `IP_MF`. -/
def ipMf : BitVec 16 := 0x2000

/-- `IP_OFFSET`. -/
def ipOffset : BitVec 16 := 0x1FFF

namespace IpHdr

/-- `ip_hdrlen`. -/
def hdrlen (iph : IpHdr) : Nat := iphdrLen + iph.options.length

/-- `iph->ihl`. -/
def ihl (iph : IpHdr) : Nat := iph.hdrlen / 4

/-- The header in the packet. -/
def bytes (iph : IpHdr) : List (BitVec 8) :=
  [0x40 ||| BitVec.ofNat 8 iph.ihl, iph.tos] ++ be16 iph.tot_len ++ be16 iph.id ++ be16 iph.frag_off ++
    [iph.ttl, iph.protocol] ++ be16 iph.check ++ be32 iph.saddr ++ be32 iph.daddr ++ iph.options

/-- `ip_send_check`. -/
def sendCheck (iph : IpHdr) : IpHdr :=
  let iph := { iph with check := 0 }
  { iph with check := ipFastCsum iph.bytes iph.ihl }

/-- Where in the datagram the data of the packet belong. -/
def offset (iph : IpHdr) : Nat := (iph.frag_off &&& ipOffset).toNat * 8

/-- Whether more fragments follow. -/
def moreFragments (iph : IpHdr) : Bool := iph.frag_off &&& ipMf != 0

/-- Whether the packet must not be fragmented. -/
def dontFragment (iph : IpHdr) : Bool := iph.frag_off &&& ipDf != 0

end IpHdr

/-- An skb in a queue, or in the `frag_list` of another one: its data are what follows the header, and what has
been pulled is between the two. -/
structure FragSkb where
  addr : Nat
  l2 : List (BitVec 8)
  iph : IpHdr
  pulled : List (BitVec 8)
  data : List (BitVec 8)
  /-- `FRAG_CB(skb)->offset`. -/
  offset : Nat
  ip_summed : IpSummed
  csum : BitVec 32
  truesize : Nat
  /-- `IPSKB_FRAG_COMPLETE` and `IPSKB_FRAG_PMTU` in `IPCB(skb)->flags`. -/
  frag_complete : Bool
  frag_pmtu : Bool
  /-- `IPCB(skb)->opt.optlen` and `IPCB(skb)->frag_max_size`. -/
  optlen : Nat
  frag_max_size : BitVec 16
  tstamp : Nat
  deriving DecidableEq

/-- An skb that holds an IPv4 packet: what is in front of the header, the header, the data behind it and those in
its `frag_list`. -/
structure IpSkb where
  l2 : List (BitVec 8)
  iph : IpHdr
  payload : List (BitVec 8)
  frag_list : List FragSkb
  ip_summed : IpSummed
  csum : BitVec 32
  dev : Option Nat
  tstamp : Nat
  truesize : Nat
  frag_complete : Bool
  frag_pmtu : Bool
  optlen : Nat
  frag_max_size : BitVec 16
  deriving DecidableEq

/-- What is behind the header. -/
def IpSkb.ipData (skb : IpSkb) : List (BitVec 8) := skb.payload ++ skb.frag_list.flatMap FragSkb.data

/-- What two fragments of one datagram agree in. -/
structure IpqKey where
  id : BitVec 16
  saddr : BitVec 32
  daddr : BitVec 32
  protocol : BitVec 8
  user : BitVec 32
  vif : Nat
  deriving DecidableEq, Repr

/-- `struct ipq`. `mem` is its part in what is charged to the namespace, `fresh` the next address. -/
structure Ipq where
  key : IpqKey
  ecn : BitVec 8
  max_df_size : BitVec 16
  iif : Nat
  rid : BitVec 32
  peer : Bool
  fragments : List FragSkb
  fragments_tail : Option Nat
  stamp : Nat
  len : Nat
  meat : Int
  max_size : BitVec 16
  first_in : Bool
  last_in : Bool
  complete : Bool
  mem : Int
  fresh : Nat
  deriving DecidableEq

/-- What the kernel answers while a fragment is queued. -/
structure FragEnv where
  /-- What `atomic_inc_return` makes of the counter of the peer. -/
  rid : BitVec 32
  /-- Whether the timer was still pending, for `mod_timer`. -/
  timer_pending : Bool
  /-- Whether `pskb_pull` succeeds: for the header, for the front of the fragment and for the next one. -/
  pull_header : Bool
  pull_front : Bool
  pull_next : Bool
  /-- Whether `__pskb_trim` succeeds. -/
  trim : Bool
  clone : Bool
  unclone : Bool

/-- What `ip_defrag` returns if it does not hand a datagram on. -/
inductive DefragErr where
  | einprogress
  | enoent
  | einval
  | enomem
  | etimedout
  | e2big
  deriving DecidableEq, Repr

/-- `sysctl_ipfrag_max_dist`. -/
def sysctlIpfragMaxDist : BitVec 32 := 64

/-! ### Congestion marks -/

/-- `ip4_frag_ecn`. -/
def ip4FragEcn (tos : BitVec 8) : BitVec 8 := 1 <<< (tos &&& 3).toNat

/-- `ip_frag_ecn_table`: no mark at all beside any of the others is a mistake, and some packet that has met
congestion beside one that could have marks the datagram. -/
def ipFragEcnTable (ecn : BitVec 8) : Option (BitVec 8) :=
  if ecn &&& 1 ≠ 0 ∧ ecn ≠ 1 then none
  else if ecn &&& 8 ≠ 0 ∧ ecn ≠ 8 then some 3
  else some 0

/-! ### The queue before a fragment -/

/-- `ip4_frag_init`, for a queue that has just been allocated. -/
def ip4FragInit (key : IpqKey) (tos : BitVec 8) (peer : Bool) : Ipq where
  key := key
  ecn := ip4FragEcn tos
  max_df_size := 0
  iif := 0
  rid := 0
  peer := peer
  fragments := []
  fragments_tail := none
  stamp := 0
  len := 0
  meat := 0
  max_size := 0
  first_in := false
  last_in := false
  complete := false
  mem := 0
  fresh := 0

/-- `ipq_kill`. -/
def Ipq.kill (qp : Ipq) : Ipq := { qp with complete := true }

/-- `ip_frag_too_far`. -/
def ipFragTooFar (env : FragEnv) (qp : Ipq) : Bool × Ipq :=
  if !qp.peer then (false, qp)
  else (!qp.fragments.isEmpty && decide (sysctlIpfragMaxDist < env.rid - qp.rid), { qp with rid := env.rid })

/-- How much memory the skbs of a chain are charged for. -/
def sumTruesize (chain : List FragSkb) : Nat := (chain.map FragSkb.truesize).sum

/-- `ip_frag_reinit`. -/
def ipFragReinit (env : FragEnv) (qp : Ipq) : Option Ipq :=
  if !env.timer_pending then none
  else some { qp with
    mem := qp.mem - sumTruesize qp.fragments
    first_in := false
    last_in := false
    complete := false
    len := 0
    meat := 0
    fragments := []
    fragments_tail := none
    iif := 0
    ecn := 0 }

/-- The beginning of `ip_frag_queue`: the queue as the fragment finds it. -/
def openQueue (env : FragEnv) (qp : Ipq) (skb : IpSkb) : Ipq × Option DefragErr :=
  if qp.complete then (qp, some .enoent)
  else if skb.frag_complete then (qp, none)
  else if (ipFragTooFar env qp).1 then
    match ipFragReinit env (ipFragTooFar env qp).2 with
    | some qp => (qp, none)
    | none => ((ipFragTooFar env qp).2.kill, some .etimedout)
  else ((ipFragTooFar env qp).2, none)

/-- Where the fragment ends, and the queue that has heard of it. All but the last are cut to whole blocks of
eight bytes; nothing may lie behind the end of the last one. -/
def fragStop (qp : Ipq) (skb : IpSkb) : Ipq × Option Nat :=
  let stop := skb.iph.offset + skb.ipData.length
  if !skb.iph.moreFragments then
    if stop < qp.len || (qp.last_in && stop != qp.len) then (qp, none)
    else ({ qp with last_in := true, len := stop }, some stop)
  else
    let stop := stop / 8 * 8
    if qp.len < stop then
      if qp.last_in then (qp, none) else ({ qp with len := stop }, some stop)
    else (qp, some stop)

/-! ### Placing a fragment -/

/-- The checksum of an skb that has lost some of its data. -/
def IpSummed.cut : IpSummed → IpSummed
  | .checksumUnnecessary => .checksumUnnecessary
  | _ => .checksumNone

/-- `pskb_pull`, and what goes with it. -/
def FragSkb.pull (skb : FragSkb) (i : Nat) : FragSkb :=
  { skb with
    pulled := skb.pulled ++ skb.data.take i
    data := skb.data.drop i
    offset := skb.offset + i
    ip_summed := IpSummed.cut skb.ip_summed }

/-- The fragment without its header and without what is behind its end, at an address of its own. -/
def fragSkb (qp : Ipq) (skb : IpSkb) (stop : Nat) : FragSkb where
  addr := qp.fresh
  l2 := skb.l2
  iph := skb.iph
  pulled := []
  data := skb.ipData.take (stop - skb.iph.offset)
  offset := skb.iph.offset
  ip_summed :=
    let ip_summed :=
      if skb.iph.moreFragments && (skb.iph.offset + skb.ipData.length) % 8 != 0 then IpSummed.cut skb.ip_summed
      else skb.ip_summed
    -- `pskb_trim_rcsum`
    if skb.ipData.length ≤ stop - skb.iph.offset then ip_summed
    else if ip_summed = .checksumComplete then .checksumNone
    else ip_summed
  csum := skb.csum
  truesize := skb.truesize
  frag_complete := skb.frag_complete
  frag_pmtu := skb.frag_pmtu
  optlen := skb.optlen
  frag_max_size := skb.frag_max_size
  tstamp := skb.tstamp

/-- The chain up to the skb at an address. -/
def upTo (addr : Nat) : List FragSkb → List FragSkb
  | [] => []
  | x :: xs => if x.addr = addr then [x] else x :: upTo addr xs

/-- What is in front of a fragment and what is at the back of it. -/
def findPlace (qp : Ipq) (offset : Nat) : List FragSkb × List FragSkb :=
  match qp.fragments_tail with
  | none => ([], [])
  | some tail =>
      if (qp.fragments.find? fun x => x.addr == tail).any fun x => x.offset < offset then
        (upTo tail qp.fragments, [])
      else (qp.fragments.takeWhile fun x => x.offset < offset, qp.fragments.dropWhile fun x => x.offset < offset)

/-- What the loop over the next fragments leaves of them, and what it has taken off `meat` and the memory. -/
structure Cleared where
  ok : Bool
  next : List FragSkb
  meat : Nat
  mem : Nat

/-- The loop over the next fragments: they lose what the new one has, or they go. -/
def eatNext (pull_next : Bool) (stop : Nat) : List FragSkb → Cleared
  | [] => ⟨true, [], 0, 0⟩
  | next :: rest =>
      if stop ≤ next.offset then ⟨true, next :: rest, 0, 0⟩
      else if stop - next.offset < next.data.length then
        if pull_next then ⟨true, next.pull (stop - next.offset) :: rest, stop - next.offset, 0⟩
        else ⟨false, next :: rest, 0, 0⟩
      else
        let cleared := eatNext pull_next stop rest
        { cleared with meat := cleared.meat + next.data.length, mem := cleared.mem + next.truesize }

/-- What the one in front leaves of a fragment. -/
def cutFront (env : FragEnv) (prev : Option FragSkb) (skb : FragSkb) (stop : Nat) : Except DefragErr FragSkb :=
  match prev with
  | none => .ok skb
  | some prev =>
      let i := prev.offset + prev.data.length - skb.offset
      if i = 0 then .ok skb
      else if stop ≤ skb.offset + i then .error .einval
      else if !env.pull_front then .error .enomem
      else .ok (skb.pull i)

/-- The counters of a queue, after a fragment was inserted in it. -/
def countFrag (qp : Ipq) (skb : IpSkb) (frag : FragSkb) : Ipq :=
  let fragsize := frag.data.length + skb.iph.hdrlen
  { qp with
    iif := skb.dev.getD qp.iif
    stamp := skb.tstamp
    meat := qp.meat + frag.data.length
    ecn := qp.ecn ||| ip4FragEcn skb.iph.tos
    mem := qp.mem + frag.truesize
    first_in := qp.first_in || frag.offset == 0
    max_size := if qp.max_size.toNat < fragsize then BitVec.ofNat 16 fragsize else qp.max_size
    max_df_size :=
      if skb.iph.dontFragment && qp.max_df_size.toNat < fragsize then BitVec.ofNat 16 fragsize
      else qp.max_df_size }

/-- The middle part of `ip_frag_queue`: the queue with the fragment in its place, and whether there is one in
front of it. -/
def insertFrag (env : FragEnv) (qp : Ipq) (skb : IpSkb) (stop : Nat) : Ipq × Except DefragErr Bool :=
  let found := findPlace qp skb.iph.offset
  match cutFront env found.1.getLast? (fragSkb qp skb stop) stop with
  | .error e => (qp, .error e)
  | .ok frag =>
      let cleared := eatNext env.pull_next stop found.2
      let qp := { qp with meat := qp.meat - cleared.meat, mem := qp.mem - cleared.mem }
      if !cleared.ok then ({ qp with fragments := found.1 ++ cleared.next }, .error .enomem)
      else
        (countFrag { qp with
            fragments := found.1 ++ frag :: cleared.next
            fragments_tail := if cleared.next.isEmpty then some frag.addr else qp.fragments_tail
            fresh := qp.fresh + 1 } skb frag,
          .ok !found.1.isEmpty)

/-! ### The datagram -/

/-- `csum_add`. -/
def csumAdd (a b : BitVec 32) : BitVec 32 := a + b + (if 2 ^ 32 ≤ a.toNat + b.toNat then 1 else 0)

/-- What the datagram knows about its checksum, when the next fragment is added to it. -/
def addSummed (sum : IpSummed × BitVec 32) (fp : FragSkb) : IpSummed × BitVec 32 :=
  if sum.1 ≠ fp.ip_summed then (.checksumNone, sum.2)
  else if sum.1 = .checksumComplete then (sum.1, csumAdd sum.2 fp.csum)
  else sum

/-- The datagram of the skbs of a queue. -/
def gluedSkb (qp : Ipq) (ecn : BitVec 8) (dev : Option Nat) (head : FragSkb) (rest : List FragSkb) : IpSkb :=
  let sum := rest.foldl addSummed (head.ip_summed, head.csum)
  { l2 := head.l2
    iph := { head.iph with
      tot_len := BitVec.ofNat 16 (head.iph.hdrlen + qp.len)
      tos := head.iph.tos ||| ecn
      frag_off := if qp.max_df_size = qp.max_size then ipDf else 0 }.sendCheck
    -- the data pointer is moved back to the header
    payload := head.pulled ++ head.data
    frag_list := rest
    ip_summed := sum.1
    csum := sum.2
    dev := dev
    tstamp := qp.stamp
    truesize := sumTruesize (head :: rest)
    frag_complete := head.frag_complete
    frag_pmtu := head.frag_pmtu || qp.max_df_size == qp.max_size
    optlen := head.optlen
    frag_max_size := if qp.max_df_size.toNat < qp.max_size.toNat then qp.max_size else qp.max_df_size }

/-- `ip_frag_reasm`. The skb that came in last takes the contents of the first one, which does not show here. -/
def ipFragReasm (env : FragEnv) (qp : Ipq) (prev : Bool) (dev : Option Nat) : Ipq × Except DefragErr IpSkb :=
  match ipFragEcnTable qp.ecn with
  | none => (qp.kill, .error .einval)
  | some ecn =>
      if prev && !env.clone then (qp.kill, .error .enomem)
      else
        match qp.fragments with
        | [] => (qp.kill, .error .einval) -- `head` is null; `Inserted.ne_nil` excludes it
        | head :: rest =>
            if 65535 < head.iph.hdrlen + qp.len then (qp.kill, .error .e2big)
            else if !env.unclone then (qp.kill, .error .enomem)
            else
              ({ qp.kill with
                  fragments := []
                  fragments_tail := none
                  mem := qp.mem - sumTruesize (head :: rest) },
                .ok (gluedSkb qp ecn dev head rest))

/-- The end of `ip_frag_queue`: hand the datagram on if it is complete. -/
def finishQueue (env : FragEnv) (qp : Ipq) (prev : Bool) (dev : Option Nat) : Ipq × Except DefragErr IpSkb :=
  if qp.first_in && qp.last_in && !qp.complete && qp.meat == qp.len then ipFragReasm env qp prev dev
  else (qp, .error .einprogress)

/-- `ip_frag_queue`. -/
def ipFragQueue (env : FragEnv) (qp : Ipq) (skb : IpSkb) : Ipq × Except DefragErr IpSkb :=
  match openQueue env qp skb with
  | (qp, some e) => (qp, .error e)
  | (qp, none) =>
      match fragStop qp skb with
      | (qp, none) => (qp, .error .einval)
      | (qp, some stop) =>
          if stop = skb.iph.offset then (qp, .error .einval)
          else if !env.pull_header then (qp, .error .enomem)
          else if stop - skb.iph.offset < skb.ipData.length ∧ !env.trim then (qp, .error .enomem)
          else
            match insertFrag env qp skb stop with
            | (qp, .error e) => (qp, .error e)
            | (qp, .ok prev) => finishQueue env qp prev skb.dev

/-! ### The queues of a namespace -/

/-- The key of the queue that the packet belongs to. -/
def IpSkb.ipqKey (skb : IpSkb) (user : BitVec 32) (vif : Nat) : IpqKey :=
  ⟨skb.iph.id, skb.iph.saddr, skb.iph.daddr, skb.iph.protocol, user, vif⟩

/-- What the kernel answers in `ip_find`, if it has to make a queue: whether it can, and whether that has a
peer. -/
structure FindEnv where
  create : Bool
  peer : Bool

/-- `ip_find`: the queues, and the one for the packet if there is one or can be. -/
def ipFind (env : FindEnv) (queues : List Ipq) (key : IpqKey) (tos : BitVec 8) : Option Ipq :=
  match queues.find? fun q => q.key = key with
  | some qp => some qp
  | none => if env.create then some (ip4FragInit key tos env.peer) else none

/-- The queues after one of them has changed. A killed one has left the table. -/
def storeQueue (queues : List Ipq) (qp : Ipq) : List Ipq :=
  let others := queues.filter fun q => q.key ≠ qp.key
  if qp.complete then others else qp :: others

/-- `ip_defrag`. -/
def ipDefrag (find : FindEnv) (env : FragEnv) (queues : List Ipq) (skb : IpSkb) (user : BitVec 32) (vif : Nat) :
    List Ipq × Except DefragErr IpSkb :=
  match ipFind find queues (skb.ipqKey user vif) skb.iph.tos with
  | none => (queues, .error .enomem)
  | some qp =>
      let queued := ipFragQueue env qp skb
      (storeQueue queues queued.1, queued.2)

/-- `ip_expire` and `ip_evictor`, for the queue that they throw out. -/
def ipqDrop (queues : List Ipq) (key : IpqKey) : List Ipq := queues.filter fun q => q.key ≠ key

end OvsDatapath.Frag
