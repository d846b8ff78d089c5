import OvsDatapath.Frag.QueueHolds

/-!
# What reassembly hands on

A run of `ip_defrag` over the queues of a namespace, with fragments of any datagrams in any order, cut, repeated,
overlapping or corrupt, with queues that expire or are evicted, and with allocations that fail at any place.
`fragRun_assembled` says what every datagram is that comes out of it: each byte is one that a fragment with the
same key had at that offset, the header is that of a fragment that starts the datagram, and it ends where a last
fragment ends. What a queue has charged is what its skbs are charged for, so it is nothing once they are gone.
-/

namespace OvsDatapath.Frag

open OvsDatapath.Lib OvsDatapath.Flow OvsDatapath.Stt

/-! ### What a queue has been given -/

/-- A queue that waits for more, and what it has heard from the fragments it was given. -/
structure QueueInv (given : List IpSkb) (qp : Ipq) : Prop where
  holds : QueueHolds qp
  waiting : qp.complete = false
  headers : ∀ x ∈ qp.fragments, ∃ f ∈ given, x.front = f.front
  bytes : ∀ x ∈ qp.fragments, ∀ j b, x.piece.At j b → ∃ f ∈ given, f.piece.At j b
  last : qp.last_in = true → ∃ f ∈ given, f.iph.moreFragments = false ∧ f.piece.stop = qp.len

/-- What every queue keeps, also one that has left the table: nothing is charged but what is there. -/
def MemHolds (qp : Ipq) : Prop := qp.mem = sumTruesize qp.fragments

/-- A datagram made of fragments that were given. -/
structure Assembled (given : List IpSkb) (pkt : IpSkb) : Prop where
  bytes : ∀ j b, pkt.ipData[j]? = some b → ∃ f ∈ given, f.piece.At j b
  last : ∃ f ∈ given, f.iph.moreFragments = false ∧ f.piece.stop = pkt.ipData.length
  length_le : pkt.iph.hdrlen + pkt.ipData.length ≤ 65535
  header : ∃ f ∈ given, f.iph.offset = 0 ∧ pkt.l2 = f.l2 ∧ ∃ ecn frag_off, (frag_off = 0 ∨ frag_off = ipDf) ∧
    pkt.iph = IpHdr.sendCheck { f.iph with
      tot_len := BitVec.ofNat 16 (f.iph.hdrlen + pkt.ipData.length)
      tos := f.iph.tos ||| ecn
      frag_off := frag_off }

theorem QueueInv.mono {given given' : List IpSkb} {qp : Ipq} (h : QueueInv given qp)
    (hsub : ∀ f ∈ given, f ∈ given') : QueueInv given' qp where
  holds := h.holds
  waiting := h.waiting
  headers := fun x hx => (h.headers x hx).imp fun f => And.imp_left (hsub f)
  bytes := fun x hx j b hat => (h.bytes x hx j b hat).imp fun f => And.imp_left (hsub f)
  last := fun hlast => (h.last hlast).imp fun f => And.imp_left (hsub f)

theorem chainHolds_nil (len fresh : Nat) : ChainHolds len fresh [] :=
  ⟨Nat.zero_le _, by simp, List.nodup_nil, by simp⟩

/-- A queue that has just been made. -/
theorem ip4FragInit_inv (key : IpqKey) (tos : BitVec 8) (peer : Bool) : QueueInv [] (ip4FragInit key tos peer) where
  holds := ⟨chainHolds_nil _ _, rfl, rfl, rfl⟩
  waiting := rfl
  headers := by simp [ip4FragInit]
  bytes := by simp [ip4FragInit]
  last := by simp [ip4FragInit]

/-! ### One fragment -/

section

variable {given : List IpSkb} {env : FragEnv} {qp qp' : Ipq} {skb : IpSkb} {stop : Nat}

theorem ipFragTooFar_snd (env : FragEnv) (qp : Ipq) :
    (ipFragTooFar env qp).2 = { qp with rid := (ipFragTooFar env qp).2.rid } := by
  rw [ipFragTooFar]
  split <;> rfl

theorem QueueInv.rid (h : QueueInv given qp) (rid : BitVec 32) : QueueInv given { qp with rid := rid } :=
  ⟨⟨h.holds.chain, h.holds.meat, h.holds.mem, h.holds.tail⟩, h.waiting, h.headers, h.bytes, h.last⟩

theorem ipFragReinit_inv (h : ipFragReinit env qp = some qp') (hinv : QueueInv given qp) :
    QueueInv given qp' ∧ qp'.key = qp.key := by
  rw [ipFragReinit] at h
  split_ifs at h with hpending
  obtain rfl := Option.some.inj h
  refine ⟨⟨⟨chainHolds_nil _ _, rfl, ?_, rfl⟩, rfl, by simp, by simp, by simp⟩, rfl⟩
  -- the charge goes with the skbs
  have hmem := hinv.holds.mem
  simp only [hmem, sub_self]
  rfl

theorem openQueue_inv (hinv : QueueInv given qp) :
    (openQueue env qp skb).1.key = qp.key ∧ MemHolds (openQueue env qp skb).1 ∧
      ((openQueue env qp skb).1.complete = false → QueueInv given (openQueue env qp skb).1) ∧
      ((openQueue env qp skb).2 = none → (openQueue env qp skb).1.complete = false) := by
  have hmem : MemHolds qp := hinv.holds.mem
  have hrid := hinv.rid (ipFragTooFar env qp).2.rid
  rw [openQueue, if_neg (by simp [hinv.waiting])]
  split_ifs with hcomplete hfar
  · exact ⟨rfl, hmem, fun _ => hinv, fun _ => hinv.waiting⟩
  · rw [ipFragTooFar_snd]
    cases hre : ipFragReinit env { qp with rid := (ipFragTooFar env qp).2.rid } with
    | none => exact ⟨rfl, hmem, fun hopen => by simp [Ipq.kill] at hopen, fun hnone => by simp at hnone⟩
    | some qp' =>
        obtain ⟨hinv', hkey⟩ := ipFragReinit_inv hre hrid
        exact ⟨hkey, hinv'.holds.mem, fun _ => hinv', fun _ => hinv'.waiting⟩
  · rw [ipFragTooFar_snd]
    exact ⟨rfl, hmem, fun _ => hrid, fun _ => hrid.waiting⟩

theorem IpHdr.offset_mod (iph : IpHdr) : iph.offset % 8 = 0 := Nat.mul_mod_left ..

/-- What `fragStop` finds out. -/
structure StopFound (qp : Ipq) (skb : IpSkb) (qp' : Ipq) (stop : Nat) : Prop where
  start_le : skb.iph.offset ≤ stop
  le_stop : stop ≤ skb.piece.stop
  len_eq : qp'.len = max qp.len stop
  eq : qp' = { qp with len := qp'.len, last_in := qp'.last_in }
  more : skb.iph.moreFragments = true → qp'.last_in = qp.last_in ∧ (qp.last_in = true → qp'.len = qp.len) ∧
    stop = skb.piece.stop / 8 * 8
  last : skb.iph.moreFragments = false → qp'.last_in = true ∧ qp'.len = stop ∧ stop = skb.piece.stop

theorem StopFound.le_len (h : StopFound qp skb qp' stop) : stop ≤ qp'.len := h.len_eq ▸ le_max_right ..

theorem StopFound.len_le (h : StopFound qp skb qp' stop) : qp.len ≤ qp'.len := h.len_eq ▸ le_max_left ..

theorem fragStop_some (h : fragStop qp skb = (qp', some stop)) : StopFound qp skb qp' stop := by
  have hoff := skb.iph.offset_mod
  have hpiece : skb.piece.stop = skb.iph.offset + skb.ipData.length := rfl
  rw [fragStop] at h
  cases hmore : skb.iph.moreFragments with
  | false =>
      simp only [hmore, Bool.not_false, if_true] at h
      split_ifs at h with hbad
      · simp at h
      · simp only [Bool.or_eq_true, decide_eq_true_eq, not_or, Nat.not_lt] at hbad
        simp only [Prod.mk.injEq, Option.some.injEq] at h
        obtain ⟨rfl, rfl⟩ := h
        exact ⟨Nat.le_add_right .., le_rfl, (max_eq_right hbad.1).symm, rfl, by simp [hmore],
          fun _ => ⟨rfl, rfl, rfl⟩⟩
  | true =>
      simp only [hmore, Bool.not_true, Bool.false_eq_true, if_false] at h
      split_ifs at h with hlong hlast
      · simp at h
      · simp only [Prod.mk.injEq, Option.some.injEq] at h
        obtain ⟨rfl, rfl⟩ := h
        exact ⟨by omega, by omega, (max_eq_right hlong.le).symm, rfl,
          fun _ => ⟨rfl, fun hin => absurd hin hlast, rfl⟩, by simp [hmore]⟩
      · simp only [Prod.mk.injEq, Option.some.injEq] at h
        obtain ⟨rfl, rfl⟩ := h
        exact ⟨by omega, by omega, (max_eq_left (by omega)).symm, rfl, fun _ => ⟨rfl, fun _ => rfl, rfl⟩,
          by simp [hmore]⟩

theorem fragStop_none (h : fragStop qp skb = (qp', none)) : qp' = qp := by
  rw [fragStop] at h
  dsimp only at h
  split_ifs at h <;> simp only [Prod.mk.injEq, reduceCtorEq, and_false, and_true] at h <;> exact h.symm

/-- The fragment has been heard of. -/
theorem QueueInv.stopFound (h : QueueInv given qp) (hfound : StopFound qp skb qp' stop) :
    QueueInv (skb :: given) qp' := by
  have heq := hfound.eq
  have hchain := h.holds.chain.mono hfound.len_le
  have hinv : QueueInv (skb :: given) qp := h.mono fun f hf => List.mem_cons_of_mem _ hf
  rw [heq]
  refine ⟨⟨hchain, hinv.holds.meat, hinv.holds.mem, hinv.holds.tail⟩, hinv.waiting, hinv.headers, hinv.bytes, ?_⟩
  intro hlast
  dsimp only at hlast ⊢
  cases hmore : skb.iph.moreFragments with
  | false =>
      obtain ⟨-, hlen, hstop⟩ := hfound.last hmore
      exact ⟨skb, List.mem_cons_self .., hmore, by omega⟩
  | true =>
      obtain ⟨hin, hlen, -⟩ := hfound.more hmore
      rw [hin] at hlast
      rw [hlen hlast]
      exact hinv.last hlast

theorem QueueInv.inserted (h : QueueInv (skb :: given) qp) (hins : Inserted qp skb stop qp') :
    QueueInv (skb :: given) qp' where
  holds := hins.holds
  waiting := hins.complete.trans h.waiting
  headers := by
    intro x hx
    rcases hins.headers x hx with heq | ⟨y, hy, heq⟩
    · exact ⟨skb, List.mem_cons_self .., heq⟩
    · obtain ⟨f, hf, heq'⟩ := h.headers y hy
      exact ⟨f, hf, heq.trans heq'⟩
  bytes := by
    intro x hx j b hat
    obtain ⟨before, after, hsplit, hlay⟩ := hins.laid
    obtain ⟨r, hr, hat'⟩ := at_of_lay hlay (List.mem_map_of_mem hx) hat
    rcases List.mem_cons.mp hr with rfl | hr
    · exact ⟨skb, List.mem_cons_self .., Piece.at_of_take hat'⟩
    · rw [← pieces_append, ← hsplit.eq] at hr
      obtain ⟨y, hy, rfl⟩ := List.mem_map.mp hr
      exact h.bytes y hy j b hat'
  last := by
    rw [hins.last_in, hins.len]
    exact h.last

theorem QueueInv.spared (h : QueueInv given qp) (hspared : Spared qp qp') : QueueInv given qp' where
  holds := hspared.holds
  waiting := hspared.complete.trans h.waiting
  headers := fun x hx => h.headers x (hspared.fragments x hx)
  bytes := fun x hx => h.bytes x (hspared.fragments x hx)
  last := by
    rw [hspared.last_in, hspared.len]
    exact h.last

theorem Inserted.ne_nil (h : Inserted qp skb stop qp') : qp'.fragments ≠ [] := by
  obtain ⟨before, after, -, hlay⟩ := h.laid
  obtain ⟨-, heq⟩ := lay_eq_some_iff.mp hlay
  intro hnil
  simp [hnil] at heq

end

/-! ### The datagram -/

section

variable {given : List IpSkb} {env : FragEnv} {qp qp' : Ipq} {prev : Bool} {dev : Option Nat} {pkt : IpSkb}

@[simp] theorem sendCheck_hdrlen (iph : IpHdr) : iph.sendCheck.hdrlen = iph.hdrlen := rfl

/-- What is in the chain when it is complete. -/
theorem gluedSkb_assembled (h : QueueInv given qp) (hlast : qp.last_in = true) (hmeat : qp.meat = qp.len)
    {head : FragSkb} {rest : List FragSkb} (hchain : qp.fragments = head :: rest) {ecn : BitVec 8}
    (hlen : head.iph.hdrlen + qp.len ≤ 65535) : Assembled given (gluedSkb qp ecn dev head rest) := by
  have hord := h.holds.chain.ordered
  have hcount : (contents (pieces qp.fragments)).length = qp.len := by
    have hcounted := h.holds.meat
    omega
  have htiles : Tiles 0 qp.len (pieces qp.fragments) := hord.tiles (by omega)
  -- nothing has been pulled off the head
  have hzero : head.offset = 0 := by
    rw [hchain] at htiles
    exact htiles.1
  have hpulled := (h.holds.chain.skbs head (by simp [hchain])).pulled
  have hnil : head.pulled = [] := List.eq_nil_of_length_eq_zero (by omega)
  have hdata : (gluedSkb qp ecn dev head rest).ipData = contents (pieces qp.fragments) := by
    rw [contents_pieces, hchain]
    simp [gluedSkb, IpSkb.ipData, hnil]
  have hlength : (gluedSkb qp ecn dev head rest).ipData.length = qp.len := by rw [hdata, hcount]
  refine ⟨?_, ?_, ?_, ?_⟩
  · intro j b hb
    rw [hdata] at hb
    obtain ⟨p, hp, hat⟩ := htiles.at_of_contents hb
    obtain ⟨x, hx, rfl⟩ := List.mem_map.mp hp
    rw [Nat.zero_add] at hat
    exact h.bytes x hx j b hat
  · rw [hlength]
    exact h.last hlast
  · rw [hlength]
    exact hlen
  · obtain ⟨f, hf, hfront⟩ := h.headers head (by simp [hchain])
    have heq : head.iph = f.iph := congrArg Prod.snd hfront
    refine ⟨f, hf, ?_, congrArg Prod.fst hfront, ecn, if qp.max_df_size = qp.max_size then ipDf else 0, ?_, ?_⟩
    · rw [← heq]
      omega
    · split <;> simp
    · rw [hlength, ← heq]
      rfl

/-- The end of `ip_frag_queue`. -/
theorem finishQueue_inv (h : QueueInv given qp) (hne : qp.fragments ≠ [])
    (hres : finishQueue env qp prev dev = (qp', r)) :
    qp'.key = qp.key ∧ MemHolds qp' ∧ (qp'.complete = false → QueueInv given qp') ∧
      ∀ pkt, r = .ok pkt → Assembled given pkt ∧ qp'.complete = true ∧ qp'.fragments = [] := by
  have hmem : MemHolds qp := h.holds.mem
  have hkill : MemHolds qp.kill := hmem
  rw [finishQueue] at hres
  split_ifs at hres with hready
  · simp only [Bool.and_eq_true, beq_iff_eq] at hready
    obtain ⟨⟨⟨-, hlast⟩, -⟩, hmeat⟩ := hready
    obtain ⟨head, rest, hchain⟩ := List.exists_cons_of_ne_nil hne
    have hkilled : ∀ e : DefragErr, (qp.kill, (.error e : Except DefragErr IpSkb)) = (qp', r) →
        qp'.key = qp.key ∧ MemHolds qp' ∧ (qp'.complete = false → QueueInv given qp') ∧
          ∀ pkt, r = .ok pkt → Assembled given pkt ∧ qp'.complete = true ∧ qp'.fragments = [] := by
      rintro e heq
      obtain ⟨rfl, rfl⟩ := Prod.mk.inj heq
      exact ⟨rfl, hkill, by simp [Ipq.kill], by simp⟩
    rw [ipFragReasm] at hres
    cases hecn : ipFragEcnTable qp.ecn with
    | none =>
        rw [hecn] at hres
        exact hkilled _ hres
    | some ecn =>
        rw [hecn, hchain] at hres
        dsimp only at hres
        by_cases hclone : (prev && !env.clone) = true
        case pos => exact hkilled _ (by rwa [if_pos hclone] at hres)
        rw [if_neg hclone] at hres
        by_cases hlong : 65535 < head.iph.hdrlen + qp.len
        case pos => exact hkilled _ (by rwa [if_pos hlong] at hres)
        rw [if_neg hlong] at hres
        by_cases hunclone : (!env.unclone) = true
        case pos => exact hkilled _ (by rwa [if_pos hunclone] at hres)
        rw [if_neg hunclone] at hres
        obtain ⟨rfl, rfl⟩ := Prod.mk.inj hres
        refine ⟨rfl, ?_, by simp [Ipq.kill], ?_⟩
        · rw [MemHolds, hchain] at hmem
          simp [MemHolds, hmem, sumTruesize]
        · rintro pkt ⟨⟩
          exact ⟨gluedSkb_assembled h hlast hmeat hchain (by omega), rfl, rfl⟩
  · obtain ⟨rfl, rfl⟩ := Prod.mk.inj hres
    exact ⟨rfl, hmem, fun _ => h, by simp⟩

/-- **One fragment**: the queue keeps what it keeps, or it has left the table with nothing charged but what is
there; and what it hands on is made of the fragments that it was given. -/
theorem ipFragQueue_inv {skb : IpSkb} (h : QueueInv given qp) (hres : ipFragQueue env qp skb = (qp', r)) :
    qp'.key = qp.key ∧ MemHolds qp' ∧ (qp'.complete = false → QueueInv (skb :: given) qp') ∧
      ∀ pkt, r = .ok pkt → Assembled (skb :: given) pkt ∧ qp'.complete = true ∧ qp'.fragments = [] := by
  have hcons : ∀ f ∈ given, f ∈ skb :: given := fun f hf => List.mem_cons_of_mem _ hf
  obtain ⟨hkey, hmem, hinv, hopen⟩ := @openQueue_inv given env qp skb h
  rw [ipFragQueue] at hres
  generalize openQueue env qp skb = opened at *
  obtain ⟨qp₁, err⟩ := opened
  cases err with
  | some e =>
      obtain ⟨rfl, rfl⟩ := Prod.mk.inj hres
      exact ⟨hkey, hmem, fun hw => (hinv hw).mono hcons, by simp⟩
  | none =>
      have hinv₁ := hinv (hopen rfl)
      dsimp only at hres hkey
      generalize hfound : fragStop qp₁ skb = found at hres
      obtain ⟨qp₂, stop⟩ := found
      cases stop with
      | none =>
          obtain ⟨rfl, rfl⟩ := Prod.mk.inj hres
          rw [fragStop_none hfound]
          exact ⟨hkey, hinv₁.holds.mem, fun _ => hinv₁.mono hcons, by simp⟩
      | some stop =>
          have hstop := fragStop_some hfound
          have hinv₂ := hinv₁.stopFound hstop
          have hkey₂ : qp₂.key = qp.key := by rw [hstop.eq]; exact hkey
          have hdropped : ∀ e : DefragErr, (qp₂, (.error e : Except DefragErr IpSkb)) = (qp', r) →
              qp'.key = qp.key ∧ MemHolds qp' ∧ (qp'.complete = false → QueueInv (skb :: given) qp') ∧
                ∀ pkt, r = .ok pkt → Assembled (skb :: given) pkt ∧ qp'.complete = true ∧ qp'.fragments = [] := by
            rintro e heq
            obtain ⟨rfl, rfl⟩ := Prod.mk.inj heq
            exact ⟨hkey₂, hinv₂.holds.mem, fun _ => hinv₂, by simp⟩
          dsimp only at hres
          split_ifs at hres with hempty hpull htrim
          · exact hdropped _ hres
          · exact hdropped _ hres
          · exact hdropped _ hres
          · have hstopOk : StopOk skb stop := ⟨Nat.lt_of_le_of_ne hstop.start_le (Ne.symm hempty), hstop.le_stop⟩
            generalize hinsert : insertFrag env qp₂ skb stop = inserted at hres
            obtain ⟨qp₃, prev⟩ := inserted
            cases prev with
            | error e =>
                have hspared := insertFrag_error hinv₂.holds hinsert
                obtain ⟨rfl, rfl⟩ := Prod.mk.inj hres
                exact ⟨hspared.key.trans hkey₂, hspared.holds.mem, fun _ => hinv₂.spared hspared, by simp⟩
            | ok prev =>
                have hins := insertFrag_ok hinv₂.holds hstopOk hstop.le_len hinsert
                obtain ⟨hkey', hrest⟩ := finishQueue_inv (hinv₂.inserted hins) hins.ne_nil hres
                exact ⟨hkey'.trans (hins.key.trans hkey₂), hrest⟩

end

/-! ### A namespace -/

/-- What happens to the queues of a namespace: a fragment comes in, or a queue expires or is evicted. -/
inductive FragEvent where
  | defrag (find : FindEnv) (env : FragEnv) (skb : IpSkb) (user : BitVec 32) (vif : Nat)
  | drop (key : IpqKey)

/-- The queues after an event, and what `ip_defrag` returns. -/
def fragStep (queues : List Ipq) : FragEvent → List Ipq × Option (Except DefragErr IpSkb)
  | .defrag find env skb user vif =>
      ((ipDefrag find env queues skb user vif).1, some (ipDefrag find env queues skb user vif).2)
  | .drop key => (ipqDrop queues key, none)

/-- The queues after a run. -/
def fragRun (queues : List Ipq) (es : List FragEvent) : List Ipq := es.foldl (fun qs e => (fragStep qs e).1) queues

/-- The packet that the event gives to the queue of a key. -/
def FragEvent.given (key : IpqKey) : FragEvent → Option IpSkb
  | .defrag _ _ skb user vif => if skb.ipqKey user vif = key then some skb else none
  | .drop _ => none

/-- The packets that a run has given to the queue of a key. -/
def givenTo (key : IpqKey) (es : List FragEvent) : List IpSkb := es.filterMap (FragEvent.given key)

/-- The queues of a namespace, one for each key, each with what it was given. -/
structure NetInv (es : List FragEvent) (queues : List Ipq) : Prop where
  keys : (queues.map Ipq.key).Nodup
  queues : ∀ qp ∈ queues, QueueInv (givenTo qp.key es) qp

/-- What a maker of a queue and a finder of one have in common. -/
theorem ipFind_inv {find : FindEnv} {es : List FragEvent} {queues : List Ipq} {key : IpqKey} {tos : BitVec 8}
    {qp : Ipq} (h : NetInv es queues) (hfind : ipFind find queues key tos = some qp) :
    qp.key = key ∧ QueueInv (givenTo key es) qp := by
  rw [ipFind] at hfind
  cases hfound : queues.find? fun q => decide (q.key = key) with
  | some q =>
      rw [hfound] at hfind
      obtain rfl := Option.some.inj hfind
      have hkey : q.key = key := by simpa using List.find?_some hfound
      exact ⟨hkey, hkey ▸ h.queues q (List.mem_of_find?_eq_some hfound)⟩
  | none =>
      simp only [hfound] at hfind
      split_ifs at hfind
      obtain rfl := Option.some.inj hfind
      exact ⟨rfl, (ip4FragInit_inv key tos find.peer).mono (by simp)⟩

theorem givenTo_append (key : IpqKey) (es es' : List FragEvent) :
    givenTo key (es ++ es') = givenTo key es ++ givenTo key es' := List.filterMap_append

theorem NetInv.step {es : List FragEvent} {queues : List Ipq} (h : NetInv es queues) (e : FragEvent) :
    NetInv (es ++ [e]) (fragStep queues e).1 := by
  have hmore : ∀ q ∈ queues, QueueInv (givenTo q.key (es ++ [e])) q := fun q hq =>
    (h.queues q hq).mono fun f hf => by simp [givenTo_append, hf]
  have hkeys : ∀ p : Ipq → Bool, ((queues.filter p).map Ipq.key).Nodup := fun p =>
    h.keys.sublist ((List.filter_sublist).map _)
  cases e with
  | drop key => exact ⟨hkeys _, fun q hq => hmore q (List.mem_of_mem_filter hq)⟩
  | defrag find env skb user vif =>
      simp only [fragStep, ipDefrag]
      cases hfind : ipFind find queues (skb.ipqKey user vif) skb.iph.tos with
      | none => exact ⟨h.keys, hmore⟩
      | some qp =>
          obtain ⟨hkey, hinv⟩ := ipFind_inv h hfind
          obtain ⟨hkey', -, hinv', -⟩ := ipFragQueue_inv hinv (Prod.mk.eta.symm : ipFragQueue env qp skb = _)
          dsimp only
          rw [storeQueue]
          split_ifs with hcomplete
          · exact ⟨hkeys _, fun q hq => hmore q (List.mem_of_mem_filter hq)⟩
          · refine ⟨List.nodup_cons.mpr ⟨?_, hkeys _⟩, ?_⟩
            · rintro hmem
              obtain ⟨q, hq, heq⟩ := List.mem_map.mp hmem
              simpa [heq] using (List.mem_filter.mp hq).2
            · intro q hq
              rcases List.mem_cons.mp hq with rfl | hq
              · refine (hinv' (by simpa using hcomplete)).mono fun f hf => ?_
                rw [hkey', hkey, givenTo_append, List.mem_append]
                rcases List.mem_cons.mp hf with rfl | hf
                · exact Or.inr (by simp [givenTo, FragEvent.given])
                · exact Or.inl hf
              · exact hmore q (List.mem_of_mem_filter hq)

theorem fragRun_inv (es : List FragEvent) : NetInv es (fragRun [] es) := by
  induction es using List.reverseRecOn with
  | nil => exact ⟨List.nodup_nil, by simp [fragRun]⟩
  | append_singleton es e ih =>
      rw [fragRun, List.foldl_append]
      exact ih.step e

/-- **Every queue keeps its books**, in every run and whatever fails in it. There is one queue for a key; its skbs are
in order and apart from each other, their lengths are what it has counted, their sizes are what it has charged, and
its tail is the last of them. -/
theorem fragRun_holds (es : List FragEvent) :
    ((fragRun [] es).map Ipq.key).Nodup ∧ ∀ qp ∈ fragRun [] es, QueueHolds qp ∧ qp.complete = false :=
  ⟨(fragRun_inv es).keys, fun qp hqp =>
    ⟨((fragRun_inv es).queues qp hqp).holds, ((fragRun_inv es).queues qp hqp).waiting⟩⟩

/-- **What reassembly hands on is made of what it was given.** In every run, over any datagrams, each byte of a
datagram that `ip_defrag` hands on is one that a fragment with the same key had at that offset; its header is that
of a fragment that starts it, with the new length and checksum, and it ends where a last fragment ends. -/
theorem fragRun_assembled (es : List FragEvent) (find : FindEnv) (env : FragEnv) (skb : IpSkb) (user : BitVec 32)
    (vif : Nat) (pkt : IpSkb)
    (hok : (ipDefrag find env (fragRun [] es) skb user vif).2 = .ok pkt) :
    Assembled (skb :: givenTo (skb.ipqKey user vif) es) pkt := by
  have hnet := fragRun_inv es
  rw [ipDefrag] at hok
  cases hfind : ipFind find (fragRun [] es) (skb.ipqKey user vif) skb.iph.tos with
  | none => simp [hfind] at hok
  | some qp =>
      rw [hfind] at hok
      obtain ⟨-, hinv⟩ := ipFind_inv hnet hfind
      obtain ⟨-, -, -, hdone⟩ := ipFragQueue_inv hinv (Prod.mk.eta.symm : ipFragQueue env qp skb = _)
      exact (hdone pkt hok).1

/-! ### Two fragments -/

/-- A kernel with memory, and no peer for a queue. -/
def plentyFind : FindEnv := ⟨true, false⟩

def plentyFrag : FragEnv := ⟨0, true, true, true, true, true, true, true⟩

/-- A packet with these data in its place. -/
def partSkb (frag_off : BitVec 16) (payload : List (BitVec 8)) : IpSkb where
  l2 := List.replicate 14 0
  iph :=
    { tos := 0
      tot_len := BitVec.ofNat 16 (20 + payload.length)
      id := 7
      frag_off := frag_off
      ttl := 64
      protocol := 17
      check := 0
      saddr := 0x0A000001
      daddr := 0x0A000002
      options := []
      options_ok := by decide }
  payload := payload
  frag_list := []
  ip_summed := .checksumNone
  csum := 0
  dev := none
  tstamp := 0
  truesize := 512
  frag_complete := false
  frag_pmtu := false
  optlen := 0
  frag_max_size := 0

def firstPart : IpSkb := partSkb ipMf [1, 2, 3, 4, 5, 6, 7, 8]

def lastPart : IpSkb := partSkb 1 [9, 10]

/-- The last one has come in. -/
def lastPartCame (user : BitVec 32) : List FragEvent := [.defrag plentyFind plentyFrag lastPart user 0]

theorem parts_delivered : ∃ pkt,
    (ipDefrag plentyFind plentyFrag (fragRun [] (lastPartCame 0)) firstPart 0 0).2 = .ok pkt := by
  have hok : (ipDefrag plentyFind plentyFrag (fragRun [] (lastPartCame 0)) firstPart 0 0).2.toOption.isSome = true := by
    decide +kernel
  cases hpkt : (ipDefrag plentyFind plentyFrag (fragRun [] (lastPartCame 0)) firstPart 0 0).2 with
  | error e =>
      rw [hpkt] at hok
      cases hok
  | ok pkt => exact ⟨pkt, rfl⟩

theorem fragRun_assembled_parts : ∃ pkt,
    (ipDefrag plentyFind plentyFrag (fragRun [] (lastPartCame 0)) firstPart 0 0).2 = .ok pkt ∧
      Assembled [firstPart, lastPart] pkt := by
  obtain ⟨pkt, hpkt⟩ := parts_delivered
  exact ⟨pkt, hpkt, fragRun_assembled (lastPartCame 0) _ _ _ _ _ _ hpkt⟩

end OvsDatapath.Frag
