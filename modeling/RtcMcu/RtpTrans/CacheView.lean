import RtcMcu.MediaManager.CircularCache
import RtcMcu.RtpTrans.Arrivals
import RtcMcu.RtpTrans.RtpTransManager

/-!
# A stream's cache under way

`set_rtp` starts a cache over when a number lies before its front, and when the timestamps jump.
While the window holds a packet before some numbers, by less than its size, and their timestamps are
near, neither happens: each packet of one of them is stored and found (`Holds.setRtp`). So the server
remembers the packets of a stream without players as a session relies on it (`server_remembers`).
-/

namespace RtcMcu.MediaManager

open RtcMcu.Avformat RtcMcu.Fragment RtcMcu.Serial

/-! ## What a window keeps -/

section Window

variable {max : Nat} {w : SlotWindow max} {p q : Rtp} {u : Seq}

/-- A packet among the last ones is not trimmed away. -/
theorem SlotWindow.length_trimmed_ge (max : Nat) {l : List (Option Rtp)} {i : Nat}
    (hget : l[i]? = some (some q)) (hnear : l.length - max ≤ i) :
    l.length - i ≤ (SlotWindow.trimmed max l).length := by
  have hdrop : ∀ (l : List (Option Rtp)) (i : Nat), l[i]? = some (some q) →
      l.length - i ≤ (l.dropWhile Option.isNone).length := by
    intro l
    induction l with
    | nil =>
      intro i h
      cases h
    | cons o l ih =>
      intro i h
      cases i with
      | zero =>
        have ho : o = some q := Option.some.inj h
        rw [ho, List.dropWhile_cons_of_neg Bool.false_ne_true]
        exact Nat.le_refl _
      | succ i =>
        have hle := ih i h
        rw [List.dropWhile_cons]
        split
        · rw [List.length_cons]
          omega
        · rw [List.length_cons]
          omega
  have hkept := hdrop (l.drop (l.length - max)) (i - (l.length - max)) (by
    rw [List.getElem?_drop, Nat.add_sub_cancel' hnear]
    exact hget)
  rw [List.length_drop] at hkept
  unfold SlotWindow.trimmed
  omega

theorem SlotWindow.slot_eq_some (hslot : w.slot u = some q) :
    w.slots[ahead w.front u]? = some (some q) := by
  rw [SlotWindow.slot] at hslot
  rcases hget : w.slots[ahead w.front u]? with _ | o
  · rw [hget] at hslot
    cases hslot
  · rw [hget] at hslot
    exact congrArg some hslot

/-- A packet less than the size behind the one that is appended stays. -/
theorem SlotWindow.append_keeps (hp : p.len ≤ maxRtpLen) (hd : 0 < ahead w.back p.seq)
    (hmax : max ≤ 0x7fff) (hlt : ahead w.back p.seq ≤ max) (hslot : w.slot u = some q)
    (hnear : ahead w.front p.seq < ahead w.front u + max) :
    (w.append p hp hd).covers u = true := by
  have hsize := w.size_le
  have hpos := w.length_pos
  have hget := SlotWindow.slot_eq_some hslot
  obtain ⟨hi, -⟩ := List.getElem?_eq_some_iff.mp hget
  have hlen := w.grown_length p hd
  have hfront : ahead w.front p.seq = w.slots.length - 1 + ahead w.back p.seq := by
    rw [← w.ahead_front_back hmax]
    exact ahead_trans (by rw [w.ahead_front_back hmax]; omega)
  have hgrown : (w.grown p (ahead w.back p.seq))[ahead w.front u]? = some (some q) := by
    rw [SlotWindow.grown, List.append_assoc, List.getElem?_append_left hi]
    exact hget
  have hkept := SlotWindow.length_trimmed_ge max hgrown (by omega)
  have hle := (SlotWindow.trimmed_length_le max (w.grown p (ahead w.back p.seq))).2
  have hstep : ahead w.front (w.append p hp hd).front =
      (w.grown p (ahead w.back p.seq)).length -
        (SlotWindow.trimmed max (w.grown p (ahead w.back p.seq))).length :=
    ahead_add_ofNat _ (by omega)
  refine decide_eq_true ?_
  show ahead (w.append p hp hd).front u <
    (SlotWindow.trimmed max (w.grown p (ahead w.back p.seq))).length
  rw [ahead_sub (by rw [hstep]; omega), hstep]
  omega

/-- A put of a packet whose slot is free, which keeps the packets the window has. -/
theorem SlotWindow.slot_of_put {w' : SlotWindow max}
    (h : w'.toWindow = w.toWindow.put
      { key := p.seq, value := p, fresh := false, covers := w'.covers })
    (hcov : w'.covers p.seq = true) (hnew : w.slot p.seq = none)
    (hkeeps : (w.slot u).isSome = true → w'.covers u = true) :
    w'.slot u = if u = p.seq then some p else w.slot u := by
  have hslot : w'.slot u = (w.toWindow.put
      { key := p.seq, value := p, fresh := false, covers := w'.covers }).slot u :=
    congrArg (fun x => x.slot u) h
  have hown : ∀ s, w.toWindow.covers s = false → w.toWindow.slot s = none :=
    fun s hs => SlotWindow.slot_eq_none_of_not_covers hs
  exact hslot.trans (FirstWins.Window.put_slot
    { key := p.seq, value := p, fresh := false, covers := w'.covers } rfl hown hcov hnew hkeeps)

/-- What is stored for `p` and `copy` is the same: the bytes of `p` up to the length. -/
theorem copy_copy (p : Rtp) (len : Nat) : (p.copy len).copy len = p.copy len := by
  simp only [Rtp.copy, List.take_take, Nat.min_self]

theorem len_copy {len : Nat} (hhead : rtpHeaderLen ≤ len) (hlen : len ≤ p.len) :
    (p.copy len).len = len := by
  simp only [Rtp.len] at hlen
  simp only [Rtp.copy, Rtp.len, List.length_take]
  omega

theorem block_set_copy (b : RTPBlock) (p : Rtp) (len : Nat) :
    b.set (some (p.copy len)) len = b.set (some p) len := by
  simp only [RTPBlock.set, copy_copy]

/-- The cache takes of a packet the bytes up to the length. -/
theorem setRtp_copy (c : RTPCircularCache) (p : Rtp) (len : Nat) (status : StatusCode) :
    c.setRtp (p.copy len) len status = c.setRtp p len status := by
  have hjump : ∀ c : RTPCircularCache, c.timestampJump (p.copy len) = c.timestampJump p :=
    fun c => rfl
  have hseq : (p.copy len).seq = p.seq := rfl
  have hssrc : (p.copy len).ssrc = p.ssrc := rfl
  simp only [RTPCircularCache.setRtp, RTPCircularCache.store, RTPCircularCache.fillIn,
    RTPBlock.new, block_set_copy, hjump, hseq, hssrc]

end Window

/-! ## A cache under way -/

/-- The window holds a packet before the numbers, by less than its size, and its newest packet has
one of the timestamps. No two of these are 20 seconds apart. -/
structure RTPCircularCache.Holds (c : RTPCircularCache) (ssrc : BitVec 32)
    (stamps : List (BitVec 32)) (numbers : List Seq) : Prop where
  serves : c.Serves ssrc
  near : ∀ a ∈ stamps, ∀ b ∈ stamps, BitVec.sle (20 * c.sampleRate) (a - b).abs = false
  window : ∃ (max : Nat) (w : SlotWindow max), Represents c (some w) ∧ max ≤ 0x7fff ∧
    (∃ anchor q, w.slot anchor = some q ∧ ∀ t ∈ numbers, ahead anchor t < max) ∧
    ∃ q, w.slots.getLast? = some (some q) ∧ q.timestamp ∈ stamps

/-- The packet a cache finds for a number. -/
def RTPCircularCache.found (c : RTPCircularCache) (seq : Seq) : Option Rtp :=
  match c.getBySeq seq with
  | .ok (rtp, _) => rtp
  | .error _ => none

section Holds

variable {max : Nat} {w : SlotWindow max} {c : RTPCircularCache} {ssrc : BitVec 32}
  {stamps : List (BitVec 32)} {numbers : List Seq} {anchor t : Seq} {p q : Rtp}

/-- A number past the anchor and not in the window lies past its back. -/
theorem SlotWindow.past_back (hmax : max ≤ 0x7fff) (hanchor : w.slot anchor = some q)
    (hnear : ahead anchor t < max) (hout : w.covers t = false) :
    0 < ahead w.back t ∧ ahead w.back t < max ∧
      ahead w.front t = ahead w.front anchor + ahead anchor t := by
  have hpos := w.length_pos
  have hsize := w.size_le
  obtain ⟨hi, -⟩ := List.getElem?_eq_some_iff.mp (SlotWindow.slot_eq_some hanchor)
  have hge : w.slots.length ≤ ahead w.front t := by
    simpa only [SlotWindow.covers, decide_eq_false_iff_not, Nat.not_lt] using hout
  have hsum : ahead w.front t = ahead w.front anchor + ahead anchor t := ahead_trans (by omega)
  have hfb := w.ahead_front_back hmax
  have hback : ahead w.back t = ahead w.front t - ahead w.front w.back := ahead_sub (by omega)
  omega

/-- A lookup of one of the numbers reads its slot. -/
theorem getBySeq_near (h : Represents c (some w)) (hmax : max ≤ 0x7fff)
    (hanchor : w.slot anchor = some q) (hnear : ahead anchor t < max) :
    ∃ status, c.getBySeq t = .ok (w.slot t, (w.slot t).elim 0 Rtp.len, status) := by
  cases hcov : w.covers t with
  | true =>
    rw [getBySeq_of_covers h hmax hcov]
    cases w.slot t with
    | none => exact ⟨_, rfl⟩
    | some r => exact ⟨_, rfl⟩
  | false =>
    obtain ⟨-, hback, -⟩ := SlotWindow.past_back hmax hanchor hnear hcov
    obtain ⟨status, hget⟩ := getBySeq_of_not_covers h hmax hcov (Or.inl (by omega))
    rw [SlotWindow.slot_eq_none_of_not_covers hcov]
    exact ⟨status, hget⟩

theorem found_near (h : Represents c (some w)) (hmax : max ≤ 0x7fff)
    (hanchor : w.slot anchor = some q) (hnear : ahead anchor t < max) : c.found t = w.slot t := by
  obtain ⟨status, hget⟩ := getBySeq_near h hmax hanchor hnear
  rw [RTPCircularCache.found, hget]

/-- Storing a packet of one of the numbers fills its slot and takes no packet behind the anchor. -/
theorem store_near (h : Represents c (some w)) (hmax : max ≤ 0x7fff) (hp : p.len ≤ maxRtpLen)
    (hjump : c.timestampJump p = false) (hanchor : w.slot anchor = some q)
    (hnear : ahead anchor p.seq < max) (hnew : w.slot p.seq = none) :
    ∃ (c' : RTPCircularCache) (w' : SlotWindow max), c.store p p.len = .ok c' ∧
      Represents c' (some w') ∧ c.SameSettings c' ∧
      (∀ u, ahead anchor u < max → w'.slot u = if u = p.seq then some p else w.slot u) ∧
      ∃ r, w'.slots.getLast? = some (some r) ∧ (r = p ∨ w.slots.getLast? = some (some r)) := by
  have hpos := w.length_pos
  have hsize := w.size_le
  have hfb := w.ahead_front_back hmax
  cases hcov : w.covers p.seq with
  | true =>
    have hin : ahead w.front p.seq < w.slots.length := of_decide_eq_true hcov
    obtain ⟨happend, hover⟩ := not_append_not_over_of_covered w hmax p.seq hin
    have happend' : ¬ (p.seq ≠ w.back ∧ p.seq - w.back < c.maxSize) := fun hcase =>
      happend ⟨hcase.1, Nat.lt_of_lt_of_eq (BitVec.lt_def.mp hcase.2) h.size_eq⟩
    have hover' : ¬ p.seq - (w.back + c.maxSize) < w.front - (w.back + c.maxSize) := by
      rw [show c.maxSize = BitVec.ofNat 16 max by
        rw [← h.size_eq, BitVec.ofNat_toNat, BitVec.setWidth_eq]]
      exact fun hcase => hover (BitVec.lt_def.mp hcase)
    have hle : p.seq - w.front ≤ w.back - w.front := by
      refine BitVec.le_def.mpr ?_
      show ahead w.front p.seq ≤ ahead w.front w.back
      omega
    obtain ⟨c', hfill, hrep, hsame⟩ := fillIn_represents h hp hin
    refine ⟨c', w.fill p hp, ?_, hrep, hsame, fun u hu => ?_, ?_⟩
    · rw [RTPCircularCache.store, h.not_isEmpty, if_neg Bool.false_ne_true, hjump,
        if_neg Bool.false_ne_true, h.backSeq, ok_bind, h.frontSeq, ok_bind]
      dsimp only
      rw [if_neg happend', if_neg hover', if_pos hle, hfill]
    · refine SlotWindow.slot_of_put (SlotWindow.fill_put w p hp hcov) ?_ hnew fun hsome => ?_
      · exact (w.fill_covers p hp p.seq).trans hcov
      · refine (w.fill_covers p hp u).trans ?_
        by_contra hout
        rw [SlotWindow.slot_eq_none_of_not_covers (Bool.eq_false_iff.mpr hout)] at hsome
        cases hsome
    · obtain ⟨r, hr⟩ := w.last_set
      refine ⟨r, ?_, Or.inr hr⟩
      show (w.slots.modify (ahead w.front p.seq) fun o => o.or (some p)).getLast? = _
      rw [List.getLast?_eq_getElem?] at hr ⊢
      simp only [List.length_modify, List.getElem?_modify, hr]
      split <;> rfl
  | false =>
    obtain ⟨hd, hlt, hsum⟩ := SlotWindow.past_back hmax hanchor hnear hcov
    have happend : p.seq ≠ w.back ∧ p.seq - w.back < c.maxSize := by
      refine ⟨fun heq => ?_, BitVec.lt_def.mpr (Nat.lt_of_lt_of_eq hlt h.size_eq.symm)⟩
      rw [heq, ahead_self] at hd
      exact absurd hd (Nat.lt_irrefl 0)
    have hcovers := SlotWindow.append_covers w p hp hd hmax
    refine ⟨_, w.append p hp hd, ?_, adjust_represents h hp hd, ⟨rfl, rfl, rfl⟩, fun u hu => ?_, ?_⟩
    · rw [RTPCircularCache.store, h.not_isEmpty, if_neg Bool.false_ne_true, hjump,
        if_neg Bool.false_ne_true, h.backSeq, ok_bind, h.frontSeq, ok_bind]
      dsimp only
      rw [if_pos happend]
    · refine SlotWindow.slot_of_put (SlotWindow.append_put w p hp hd (Nat.le_of_lt hlt) hmax)
        hcovers hnew fun hsome => ?_
      obtain ⟨r, hr⟩ := Option.isSome_iff_exists.mp hsome
      obtain ⟨hi, -⟩ := List.getElem?_eq_some_iff.mp (SlotWindow.slot_eq_some hanchor)
      have hfront : ahead w.front u = ahead w.front anchor + ahead anchor u :=
        ahead_trans (by omega)
      exact SlotWindow.append_keeps hp hd hmax (Nat.le_of_lt hlt) hr (by omega)
    · obtain ⟨l, hl⟩ := SlotWindow.trimmed_append max (Nat.le_trans hpos hsize)
        (w.slots ++ List.replicate (ahead w.back p.seq - 1) none) p
      refine ⟨p, ?_, Or.inl rfl⟩
      show (SlotWindow.trimmed max (w.grown p (ahead w.back p.seq))).getLast? = _
      rw [SlotWindow.grown, hl, List.getLast?_append, List.getLast?_singleton, Option.some_or]

/-- No jump of the timestamps is seen. -/
theorem timestampJump_near (h : Represents c (some w)) {r : Rtp}
    (hlast : w.slots.getLast? = some (some r)) (hr : r.timestamp ∈ stamps)
    (hp : p.timestamp ∈ stamps)
    (hnear : ∀ a ∈ stamps, ∀ b ∈ stamps, BitVec.sle (20 * c.sampleRate) (a - b).abs = false) :
    c.timestampJump p = false := by
  have hback : (c.circularCache.getLast?.map RTPBlock.get).bind (·.1) = some r := by
    rw [h.deque_eq, deque, List.getLast?_map, hlast]
    show (RTPBlock.holding r).get.1 = some r
    rw [RTPBlock.get_holding]
  rw [RTPCircularCache.timestampJump, hback]
  dsimp only
  rw [hnear _ hr _ hp, Bool.and_false]

/-- Each packet of one of the numbers is stored and found. -/
theorem RTPCircularCache.Holds.setRtp (h : c.Holds ssrc stamps numbers) {len : Nat}
    (hseq : p.seq ∈ numbers) (hssrc : p.ssrc = ssrc) (hstamp : p.timestamp ∈ stamps)
    (hhead : rtpHeaderLen ≤ len) (hmax : len ≤ maxRtpLen) (hlen : len ≤ p.len)
    (hnew : c.found p.seq = none) :
    ∃ c', c.setRtp p len .statusSuccess = .ok (c', 0, .statusSuccess) ∧
      c'.Holds ssrc stamps numbers ∧
      ∀ u ∈ numbers, c'.found u = if u = p.seq then some (p.copy len) else c.found u := by
  obtain ⟨max, w, hrep, hsize, ⟨anchor, q, hanchor, hnear⟩, r, hlast, hr⟩ := h.window
  have hcopy := len_copy hhead hlen
  have hserved : Represents { c with ssrc := ssrc } (some w) := ⟨hrep.deque_eq, hrep.size_eq⟩
  have hfree : w.slot p.seq = none := by
    rw [← found_near hrep hsize hanchor (hnear _ hseq)]
    exact hnew
  obtain ⟨c', w', hstore, hrep', hsame, hslots, r', hlast', hr'⟩ := store_near hserved hsize
    (p := p.copy len) (by rw [hcopy]; exact hmax)
    (timestampJump_near hserved hlast hr hstamp h.near) hanchor (hnear _ hseq) hfree
  rw [hcopy] at hstore
  have hother : ¬ anchor = (p.copy len).seq := by
    intro heq
    rw [heq] at hanchor
    exact Option.some_ne_none q (hanchor.symm.trans hfree)
  have hpos : 0 < max := Nat.lt_of_lt_of_le w.length_pos w.size_le
  have hanchor' : w'.slot anchor = some q := by
    rw [hslots anchor (by rw [ahead_self]; exact hpos), if_neg hother, hanchor]
  refine ⟨c', ?_, ⟨⟨?_, Or.inr hsame.2.2⟩, ?_, max, w', hrep', hsize, ⟨anchor, q, hanchor', hnear⟩,
    r', hlast', ?_⟩, fun u hu => ?_⟩
  · have hssrc' : (p.copy len).ssrc = ssrc := hssrc
    rw [← setRtp_copy, setRtp_of_serves h.serves hssrc' hhead, hstore]
    rfl
  · rw [hsame.1]
    exact h.serves.rate_ne
  · rw [hsame.1]
    exact h.near
  · rcases hr' with rfl | hold
    · exact hstamp
    · rw [hlast] at hold
      rw [← Option.some.inj (Option.some.inj hold)]
      exact hr
  · rw [found_near hrep' hsize hanchor' (hnear _ hu), found_near hrep hsize hanchor (hnear _ hu)]
    exact hslots u (hnear _ hu)

/-- A lookup gives what the cache finds. -/
theorem RTPCircularCache.Holds.getBySeq (h : c.Holds ssrc stamps numbers) (ht : t ∈ numbers) :
    c.isInited = true ∧
      ∃ status, c.getBySeq t = .ok (c.found t, (c.found t).elim 0 Rtp.len, status) := by
  obtain ⟨max, w, hrep, hsize, ⟨anchor, q, hanchor, hnear⟩, -⟩ := h.window
  refine ⟨?_, ?_⟩
  · have hpos : 0 < max := Nat.lt_of_lt_of_le w.length_pos w.size_le
    have hrate : (0 : BitVec 32) < c.sampleRate := by
      rw [BitVec.lt_def]
      exact Nat.pos_of_ne_zero fun hzero => h.serves.rate_ne (BitVec.eq_of_toNat_eq hzero)
    have hmaxSize : (0 : BitVec 16) < c.maxSize := by
      rw [BitVec.lt_def, hrep.size_eq]
      exact hpos
    rw [RTPCircularCache.isInited, decide_eq_true hrate, decide_eq_true hmaxSize]
    rfl
  · rw [found_near hrep hsize hanchor (hnear _ ht)]
    exact getBySeq_near hrep hsize hanchor (hnear _ ht)

end Holds

end RtcMcu.MediaManager

namespace RtcMcu.ConnectionManager

open RtcMcu.Avformat RtcMcu.Fragment RtcMcu.MediaManager RtcMcu.RtpTrans

/-! ## The server as a session sees it -/

/-- The packet the cache of a stream finds. -/
def foundIn (m : RtpCacheManager) (id : StreamId) (video : Bool) (seq : Seq) : Option Rtp :=
  (m.caches (get32bitStreamId id)).bind fun cache => (cache.media video).found seq

/-- A packet that was given to `recv_rtp`. -/
def Output.handedOver : Output → Option Sent
  | .recovered _ pkt len _ => some (pkt.copy len, len)
  | _ => none

/-- The server for the receiver sessions of a stream: the stream's cache is under way, and its group
has no players. -/
def serverView (id : StreamId) (video : Bool) (ssrc : BitVec 32) (stamps : List (BitVec 32))
    (numbers : List Seq) : HostView Server where
  ready w := (∃ cache, w.rtpCache.caches (get32bitStreamId id) = some cache ∧
      (cache.media video).Holds ssrc stamps numbers) ∧
    ∀ c ∈ w.members id, ∃ con, w.connections[c]? = some con ∧ con.isPlayer = false
  accepts p := p.ssrc = ssrc ∧ p.timestamp ∈ stamps ∧
    (p.payload = RTP_AV_H264 ∨ p.payload = RTP_AV_AAC ∨ p.payload = RTP_AV_MP3)
  cached w := foundIn w.rtpCache id video
  handed w := w.outputs.filterMap Output.handedOver

section View

variable {env : ServerEnv} {c : Addr} {id : StreamId} {video : Bool} {ssrc : BitVec 32}
  {stamps : List (BitVec 32)} {numbers : List Seq} {w : Server}

theorem foundIn_eq {m : RtpCacheManager} {cache : RTPMediaCache}
    (h : m.caches (get32bitStreamId id) = some cache) (video : Bool) (seq : Seq) :
    foundIn m id video seq = (cache.media video).found seq := by
  rw [foundIn, h, Option.bind_some]

/-- Without players a packet goes to nobody. -/
theorem forwardRtp_alone (h : ∀ c ∈ w.members id, ∃ con, w.connections[c]? = some con ∧
      con.isPlayer = false) (p : Rtp) (len : Nat) : w.forwardRtp env id p len = .ok (w, p) := by
  unfold Server.forwardRtp
  generalize w.members id = members at h
  induction members with
  | nil => rfl
  | cons c members ih =>
    obtain ⟨con, hcon, hplayer⟩ := h c List.mem_cons_self
    have hto : w.forwardTo env p len c = .ok (w, p) := by
      rw [Server.forwardTo, Server.connection, hcon]
      dsimp only
      rw [ok_bind, hplayer, if_neg Bool.false_ne_true]
    rw [List.foldlM_cons]
    dsimp only
    rw [hto, ok_bind]
    exact ih fun c hc => h c (List.mem_cons_of_mem _ hc)

/-- `set_rtp` of a packet of a media is the call on the cache of that media. -/
theorem mediaSetRtp_media (cache : RTPMediaCache) (now : Nat) {p : Rtp} {len : Nat}
    (hhead : rtpHeaderLen ≤ len) (hvideo : (p.payload == RTP_AV_H264) = video)
    (hpayload : p.payload = RTP_AV_H264 ∨ p.payload = RTP_AV_AAC ∨ p.payload = RTP_AV_MP3)
    {media : RTPCircularCache}
    (hset : (cache.media video).setRtp p len .statusSuccess = .ok (media, 0, .statusSuccess)) :
    ∃ cache', cache.setRtp now p len = .ok (cache', .statusSuccess) ∧
      cache'.media video = media := by
  have hshort : ¬ len < rtpHeaderLen := Nat.not_lt.mpr hhead
  rw [RTPMediaCache.setRtp, if_neg hshort]
  by_cases hv : p.payload = RTP_AV_H264
  · have haudio : ¬ (p.payload = RTP_AV_MP3 ∨ p.payload = RTP_AV_AAC) := by
      rw [hv]
      decide
    rw [hv] at hvideo
    subst hvideo
    have hset' : cache.videoCache.setRtp p len .statusSuccess = .ok (media, 0, .statusSuccess) :=
      hset
    refine ⟨{ cache with videoCache := media, pushActive := now }, ?_, rfl⟩
    rw [if_neg haudio, if_pos hv, hset', ok_bind]
    rfl
  · have haudio : p.payload = RTP_AV_MP3 ∨ p.payload = RTP_AV_AAC :=
      (hpayload.resolve_left hv).symm
    have hnot : (p.payload == RTP_AV_H264) = false := beq_eq_false_iff_ne.mpr hv
    rw [hnot] at hvideo
    subst hvideo
    have hset' : cache.audioCache.setRtp p len .statusSuccess = .ok (media, 0, .statusSuccess) :=
      hset
    refine ⟨{ cache with audioCache := media, pushActive := now }, ?_, rfl⟩
    rw [if_pos haudio, hset', ok_bind]
    rfl

/-- The server remembers the packets of a stream under way. -/
theorem server_remembers (env : ServerEnv) (c : Addr) (id : StreamId) (video : Bool)
    (ssrc : BitVec 32) (stamps : List (BitVec 32)) (numbers : List Seq) :
    (Server.host env c id).Remembers video numbers
      (serverView id video ssrc stamps numbers) where
  get := by
    rintro w ⟨⟨cache, hcache, hholds⟩, -⟩ seq hseq
    obtain ⟨hinited, status, hget⟩ := hholds.getBySeq hseq
    show w.rtpCache.getRtpBySeq id video seq =
      .ok ((foundIn w.rtpCache id video seq).elim (none, 0) fun p => (some p, p.len))
    rw [foundIn_eq hcache, RtpCacheManager.getRtpBySeq, hcache]
    dsimp only
    rw [RTPMediaCache.getRtpBySeq, if_pos hinited, hget, ok_bind]
    cases (cache.media video).found seq with
    | none => rfl
    | some p => rfl
  setRtp := by
    rintro w p len ⟨⟨cache, hcache, hholds⟩, hplayers⟩ hseq hvideo ⟨hssrc, hstamp, hpayload⟩ hhead
      hmax hlen hnew
    have hfree : (cache.media video).found p.seq = none :=
      (foundIn_eq hcache video p.seq).symm.trans hnew
    obtain ⟨media, hset, hholds', hfound⟩ :=
      hholds.setRtp hseq hssrc hstamp hhead hmax hlen hfree
    obtain ⟨cache', hstore, hmedia⟩ := mediaSetRtp_media cache env.time hhead hvideo hpayload hset
    have hput : (w.rtpCache.put (get32bitStreamId id) (some cache')).caches
        (get32bitStreamId id) = some cache' := if_pos rfl
    refine ⟨{ w with rtpCache := w.rtpCache.put (get32bitStreamId id) (some cache') }, ?_,
      ⟨⟨cache', hput, hmedia ▸ hholds'⟩, hplayers⟩, rfl, fun seq hin => ?_⟩
    · show w.setRtp env id p len = _
      rw [Server.setRtp, RtpCacheManager.setRtp, hcache]
      dsimp only
      rw [hstore, ok_bind]
      rfl
    · show foundIn (w.rtpCache.put (get32bitStreamId id) (some cache')) id video seq =
        if seq = p.seq then some (p.copy len) else foundIn w.rtpCache id video seq
      rw [foundIn_eq hput, foundIn_eq hcache, hmedia]
      exact hfound seq hin
  forwardRtp w p len hready :=
    ⟨w, p.ssrc, forwardRtp_alone hready.2 p len, hready, rfl, rfl⟩
  recovered w s len hready := by
    refine ⟨hready, ?_, rfl⟩
    show List.filterMap _ (w.outputs ++ [_]) = _
    rw [List.filterMap_append]
    rfl

end View

end RtcMcu.ConnectionManager
