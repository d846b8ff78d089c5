import OvsDatapath.Frag.Ipq

/-!
# IPv4 fragmentation

`linux/compat/ip_output.c`: a datagram that does not fit is cut into packets that do. If it consists of parts of the
right size, as `ip_frag_reasm` leaves it, each part is sent with a header of its own; else its data are copied into
new packets, block by block. The options that only the first packet is to have are blanked out behind it.
-/

namespace OvsDatapath.Frag

open OvsDatapath.Lib OvsDatapath.Flow OvsDatapath.Stt

/-- What the kernel and the device answer while a packet is cut. -/
structure OutputEnv where
  /-- `ip_skb_dst_mtu`. -/
  mtu : BitVec 32
  /-- `skb_checksum_help`. -/
  checksum_help : IpSkb → Except Int IpSkb
  /-- `skb_cloned` for the packet; `skb_headroom` and `skb_shared` for the skbs in its `frag_list`. -/
  cloned : Bool
  headroom : FragSkb → Nat
  shared : FragSkb → Bool
  /-- `alloc_skb` for the packets in turn, with the size that is charged for them. -/
  alloc : Nat → Option Nat
  /-- What `output` returns for the packets in turn. -/
  output : Nat → Int

/-! ### Options -/

/-- `IPOPT_END`. -/
def ipoptEnd : BitVec 8 := 0

/-- `IPOPT_NOOP`. -/
def ipoptNoop : BitVec 8 := 1

/-- `IPOPT_COPIED`. -/
def ipoptCopied (opt : BitVec 8) : Bool := opt &&& 0x80 != 0

/-- The loop of `ip_options_fragment`, for at most so many options. -/
def optionsLoop : Nat → Nat → List (BitVec 8) → List (BitVec 8)
  | 0, _, options => options
  | _ + 1, _, [] => []
  | fuel + 1, l, opt :: rest =>
      if l = 0 ∨ opt = ipoptEnd then opt :: rest
      else if opt = ipoptNoop then opt :: optionsLoop fuel (l - 1) rest
      else
        let optlen := (rest.headD 0).toNat
        if optlen < 2 ∨ l < optlen then opt :: rest
        else
          let option := (opt :: rest).take optlen
          (if ipoptCopied opt then option else option.map fun _ => ipoptNoop) ++
            optionsLoop fuel (l - optlen) ((opt :: rest).drop optlen)

@[simp] theorem optionsLoop_length (fuel l : Nat) (options : List (BitVec 8)) :
    (optionsLoop fuel l options).length = options.length := by
  induction fuel generalizing l options with
  | zero => rfl
  | succ fuel ih =>
      cases options with
      | nil => rfl
      | cons opt rest =>
          rw [optionsLoop]
          dsimp only
          split_ifs
          · rfl
          · simp [ih]
          · rfl
          · rw [List.length_append, ih, ← List.length_append, List.take_append_drop]
          · rw [List.length_append, List.length_map, ih, ← List.length_append, List.take_append_drop]

/-- `ip_options_fragment`. -/
def IpHdr.optionsFragment (optlen : Nat) (iph : IpHdr) : IpHdr :=
  { iph with
    options := optionsLoop optlen optlen iph.options
    options_ok := by
      rw [optionsLoop_length]
      exact iph.options_ok }

/-! ### The two ways -/

/-- The field `frag_off` of a packet. -/
def fragOff (offset : Nat) (df mf : Bool) : BitVec 16 :=
  BitVec.ofNat 16 (offset / 8) ||| (if df then ipDf else 0) ||| if mf then ipMf else 0

/-- `ip_is_fragment`. -/
def ipIsFragment (iph : IpHdr) : Bool := iph.frag_off &&& (ipMf ||| ipOffset) != 0

/-- Whether the skbs of the `frag_list` can be sent as they are. -/
def geometryOk (env : OutputEnv) (hlen mtu : Nat) : List FragSkb → Bool
  | [] => true
  | frag :: rest =>
      !decide (mtu < frag.data.length) && (frag.data.length % 8 == 0 || rest.isEmpty) &&
        !decide (env.headroom frag < hlen) && !env.shared frag && geometryOk env hlen mtu rest

/-- The next packet of the fast way, made of an skb and the packet before it. -/
def nextFrame (skb : IpSkb) (offset : Nat) (frag : FragSkb) (more : Bool) : IpSkb where
  l2 := []
  iph := IpHdr.sendCheck { (if offset = 0 then skb.iph.optionsFragment frag.optlen else skb.iph) with
    tot_len := BitVec.ofNat 16 (skb.iph.hdrlen + frag.data.length)
    frag_off := fragOff (offset + skb.payload.length) false more }
  payload := frag.data
  frag_list := []
  ip_summed := .checksumNone
  csum := frag.csum
  dev := skb.dev
  tstamp := frag.tstamp
  truesize := frag.truesize
  frag_complete := skb.frag_complete
  frag_pmtu := skb.frag_pmtu
  optlen := frag.optlen
  frag_max_size := frag.frag_max_size

/-- The loop of the fast way: the packets that were sent, and the error if one could not be. -/
def fastPath (env : OutputEnv) : Nat → IpSkb → Nat → List FragSkb → List IpSkb × Int
  | n, skb, _, [] => ([skb], env.output n)
  | n, skb, offset, frag :: rest =>
      if env.output n ≠ 0 then ([skb], env.output n)
      else
        let sent := fastPath env (n + 1) (nextFrame skb offset frag !rest.isEmpty) (offset + skb.payload.length) rest
        (skb :: sent.1, sent.2)

/-- A packet of the slow way. -/
def slowFrame (skb : IpSkb) (iph : IpHdr) (data : List (BitVec 8)) (offset truesize : Nat) (more : Bool) : IpSkb where
  l2 := []
  iph := IpHdr.sendCheck { iph with
    tot_len := BitVec.ofNat 16 (data.length + iph.hdrlen)
    frag_off := fragOff offset skb.frag_pmtu more }
  payload := data
  frag_list := []
  ip_summed := .checksumNone
  csum := 0
  dev := skb.dev
  tstamp := 0
  truesize := truesize
  frag_complete := skb.frag_complete
  frag_pmtu := skb.frag_pmtu
  optlen := 0
  frag_max_size := 0

/-- How much of the rest the next packet takes. -/
def frameLen (mtu left : Nat) : Nat := if mtu < left then mtu / 8 * 8 else left

/-- The loop of the slow way, for at most so many packets. -/
def slowPath (env : OutputEnv) (skb : IpSkb) (mtu : Nat) (not_last_frag : Bool) :
    Nat → Nat → IpHdr → List (BitVec 8) → Nat → Except MemFault (List IpSkb × Int)
  | 0, _, _, _, _ => .error .endless
  | fuel + 1, n, iph, left, offset =>
      if left.isEmpty then .ok ([], 0)
      else
        match env.alloc n with
        | none => .ok ([], -12)
        | some truesize =>
            let len := frameLen mtu left.length
            let skb2 := slowFrame skb iph (left.take len) offset truesize
              (!(left.drop len).isEmpty || not_last_frag)
            if env.output n ≠ 0 then .ok ([skb2], env.output n)
            else
              (slowPath env skb mtu not_last_frag fuel (n + 1)
                (if offset = 0 then iph.optionsFragment skb.optlen else iph) (left.drop len) (offset + len)).map
                  fun sent => (skb2 :: sent.1, sent.2)

/-- The room for data in a packet: what the device takes, or what the fragments had, without the header. -/
def dataSpace (env : OutputEnv) (skb : IpSkb) : Nat :=
  let max_size := skb.frag_max_size.setWidth 32
  let mtu := if max_size ≠ 0 ∧ max_size < env.mtu then max_size else env.mtu
  (mtu - BitVec.ofNat 32 skb.iph.hdrlen).toNat

/-- `ip_do_fragment`, once the checksum is complete: the packets that were sent and the value returned. -/
def cutPacket (env : OutputEnv) (skb : IpSkb) : Except MemFault (List IpSkb × Int) :=
  let mtu := dataSpace env skb
  let skb := { skb with frag_complete := true }
  let slow := slowPath env skb mtu skb.iph.moreFragments (skb.ipData.length + 1) 0 skb.iph skb.ipData skb.iph.offset
  if skb.frag_list.isEmpty then slow
  else if mtu < skb.payload.length || skb.payload.length % 8 != 0 || ipIsFragment skb.iph || env.cloned then slow
  else if !geometryOk env skb.iph.hdrlen mtu skb.frag_list then slow
  else
    .ok (fastPath env 0 { skb with
      iph := IpHdr.sendCheck { skb.iph with
        tot_len := BitVec.ofNat 16 (skb.iph.hdrlen + skb.payload.length)
        frag_off := ipMf }
      frag_list := []
      truesize := skb.truesize - sumTruesize skb.frag_list } 0 skb.frag_list)

/-- `ip_do_fragment`. -/
def ipDoFragment (env : OutputEnv) (skb : IpSkb) : Except MemFault (List IpSkb × Int) :=
  if skb.ip_summed = .checksumPartial then
    match env.checksum_help skb with
    | .ok skb => cutPacket env skb
    | .error e => .ok ([], e)
  else cutPacket env skb

end OvsDatapath.Frag
