import Mathlib.Data.List.TakeWhile
import RtcMcu.Lib.Coupling
import RtcMcu.MediaManager.CircularCache

/-!
# What the RTP caches answer

The two caches of an `RTPMediaCache` over whole runs of `set_sdp` and `set_rtp`, with packets of
any 16-bit length. A packet over 2048 bytes is refused by `RTPBlock::set` and still takes its place
in the deque: where that is the last place, the next operation reads the number of a block without
a packet (`LastUnset`). Until then a cache is a window of slots (`Kept`).

`getBySeq_in_deque` is about the index of a lookup, `setRtp_truthful` about the status of
`set_rtp`.
-/

namespace RtcMcu.MediaManager

open RtcMcu.Avformat RtcMcu.Fragment RtcMcu.Serial RtcMcu.Coupling

/-! ## Runs -/

/-- A packet as `set_rtp` gets it: a pointer and a 16-bit length. Where the length reaches the end
of the header the memory behind the pointer is that long. -/
structure Datagram where
  rtp : Rtp
  len : Nat
  whole : rtpHeaderLen ≤ len → rtp.len = len
  len_lt : len < 2 ^ 16

/-- A call that changes an `RTPMediaCache`, with the time it is made at. -/
inductive CacheCall
  | setSdp (now : Nat) (sdp : SdpText)
  | setRtp (now : Nat) (d : Datagram)

def RTPMediaCache.call (info : SdpInfo) (c : RTPMediaCache) :
    CacheCall → Except Fault RTPMediaCache
  | .setSdp now sdp => .ok (c.setSdp info now sdp)
  | .setRtp now d => do
    let r ← c.setRtp now d.rtp d.len
    .ok r.1

/-- A run of calls on a new cache. -/
def RTPMediaCache.run (info : SdpInfo) (calls : List CacheCall) : Except Fault RTPMediaCache :=
  calls.foldlM (RTPMediaCache.call info) RTPMediaCache.new

/-- The deque has one packet, and the number lies exactly half a turn from it. -/
def RTPCircularCache.HalfTurnFromOnly (c : RTPCircularCache) (seq : Seq) : Prop :=
  c.circularCache.length = 1 ∧ ∃ f, c.frontSeq = .ok f ∧ seq = f + 0x8000#16

/-- The media a packet belongs to, for a lookup. -/
def Datagram.video (d : Datagram) : Bool := decide (d.rtp.payload = RTP_AV_H264)

/-- A packet of neither media. -/
def Datagram.Foreign (d : Datagram) : Prop :=
  d.rtp.payload ≠ RTP_AV_MP3 ∧ d.rtp.payload ≠ RTP_AV_AAC ∧ d.rtp.payload ≠ RTP_AV_H264

/-- `set_rtp` says success only if the packet's number is found right afterwards, and with any other
status both caches are as they were. -/
def RTPMediaCache.Truthful (c : RTPMediaCache) (now : Nat) (d : Datagram) : Prop :=
  ∃ (c' : RTPMediaCache) (status : StatusCode), c.setRtp now d.rtp d.len = .ok (c', status) ∧
    (status = .statusSuccess → ∃ q n, c'.getRtpBySeq d.video d.rtp.seq = .ok (some q, n)) ∧
    (status ≠ .statusSuccess → c'.audioCache = c.audioCache ∧ c'.videoCache = c.videoCache)

/-- The cache is initialised, and it either turns the packet down for its ssrc, or its newest block
has a packet and the new one fits in a block or has its number filled already. -/
def RTPCircularCache.Answers (c : RTPCircularCache) (d : Datagram) : Prop :=
  c.sampleRate ≠ 0 ∧
    ((c.ssrc ≠ 0 ∧ c.ssrc ≠ d.rtp.ssrc) ∨
      ((∀ b, c.circularCache.getLast? = some b → b.isValid = true) ∧
        (d.len ≤ maxRtpLen ∨
          (c.timestampJump d.rtp = false ∧
            ∃ q n status, c.getBySeq d.rtp.seq = .ok (some q, n, status)))))

/-- The packet is turned down before it reaches a cache, or its cache answers for it. -/
def RTPMediaCache.Answers (c : RTPMediaCache) (d : Datagram) : Prop :=
  d.len < rtpHeaderLen ∨ d.Foreign ∨ (c.media d.video).Answers d

/-! ## The states of a cache -/

/-- The newest block has no packet. -/
def RTPCircularCache.LastUnset (c : RTPCircularCache) : Prop :=
  c.circularCache.getLast? = some RTPBlock.unset

/-- Nothing is stored without a rate, and with one the size lies within half a turn. -/
structure RTPCircularCache.Sized (c : RTPCircularCache) : Prop where
  unused : c.sampleRate = 0 → c.circularCache = []
  size : c.sampleRate ≠ 0 → 1 ≤ c.maxSize.toNat ∧ c.maxSize.toNat ≤ 0x7fff

/-- A reachable cache into which every packet fitted. -/
structure RTPCircularCache.Whole (c : RTPCircularCache) : Prop extends c.Sized where
  content : ∃ o : Option (SlotWindow c.maxSize.toNat), Represents c o

/-- What every reachable cache keeps. -/
structure RTPCircularCache.Kept (c : RTPCircularCache) : Prop extends c.Sized where
  content : (∃ o : Option (SlotWindow c.maxSize.toNat), Represents c o) ∨ c.LastUnset

/-- The settings of a cache decide whether it is sized. -/
theorem RTPCircularCache.Sized.of_eq {c c' : RTPCircularCache} (h : c.Sized)
    (hrate : c.sampleRate ≠ 0) (hr : c'.sampleRate = c.sampleRate) (hm : c'.maxSize = c.maxSize) :
    c'.Sized := by
  refine ⟨fun hzero => absurd (hr.symm.trans hzero) hrate, fun _ => ?_⟩
  rw [hm]
  exact h.size hrate

theorem RTPCircularCache.Whole.kept {c : RTPCircularCache} (h : c.Whole) : c.Kept :=
  ⟨h.toSized, .inl h.content⟩

/-- An empty cache of a size within half a turn, if it has a rate at all. -/
structure RTPCircularCache.Unfilled (c : RTPCircularCache) : Prop where
  empty : c.circularCache = []
  size : c.sampleRate ≠ 0 → 1 ≤ c.maxSize.toNat ∧ c.maxSize.toNat ≤ 0x7fff

theorem RTPCircularCache.Unfilled.whole {c : RTPCircularCache} (h : c.Unfilled) : c.Whole :=
  ⟨⟨fun _ => h.empty, h.size⟩, none, h.empty, rfl⟩

theorem reset_unfilled : RTPCircularCache.reset.Unfilled := ⟨rfl, fun h => absurd rfl h⟩

/-- The sizes `set_sdp` gives lie within half a turn. -/
theorem initMedia_unfilled {c : RTPMediaCache} (h : ∀ video, (c.media video).Unfilled)
    (i : RtpMediaInfo) (video : Bool) : ((c.initMedia i).media video).Unfilled := by
  have hsize : ∀ size : BitVec 32, 1 ≤ (size.setWidth 16).toNat ∧
      (size.setWidth 16).toNat ≤ 0x7fff → (((c.media video).init i.rate size)).Unfilled :=
    fun _ hsize => ⟨(h video).empty, fun _ => hsize⟩
  unfold RTPMediaCache.initMedia
  cases video with
  | false =>
    split
    · exact h false
    · split
      · exact hsize 1000 (by decide)
      · exact h false
  | true =>
    split
    · exact hsize 3000 (by decide)
    · split <;> exact h true

theorem foldl_initMedia_unfilled (infos : List RtpMediaInfo) {c : RTPMediaCache}
    (h : ∀ video, (c.media video).Unfilled) (video : Bool) :
    ((infos.foldl RTPMediaCache.initMedia c).media video).Unfilled := by
  induction infos generalizing c with
  | nil => exact h video
  | cons i infos ih => exact ih fun v => initMedia_unfilled h i v

/-- `set_sdp` empties both caches. -/
theorem setSdp_unfilled (info : SdpInfo) (c : RTPMediaCache) (now : Nat) (sdp : SdpText)
    (video : Bool) : ((c.setSdp info now sdp).media video).Unfilled := by
  have h := foldl_initMedia_unfilled (info.mediaInfos sdp) (c := { c with
      sdp := some sdp
      audioCache := RTPCircularCache.reset
      videoCache := RTPCircularCache.reset })
    (fun v => by cases v <;> exact reset_unfilled) video
  cases video with
  | false => exact h
  | true => exact h

/-! ## The index of a lookup -/

section Get

variable {max : Nat} {c : RTPCircularCache} {w : SlotWindow max} {s : Seq}

/-- A number the window does not cover, and that lies half a turn or more from both ends, lies
exactly half a turn from the only slot. -/
theorem halfTurn_of_far (w : SlotWindow max) (hmax : max ≤ 0x7fff) (hout : w.covers s = false)
    (hback : 0x8000 ≤ ahead w.back s) (hfront : 0x8000 ≤ ahead s w.front) :
    w.slots.length = 1 ∧ ahead w.front s = 0x8000 := by
  have hge : w.slots.length ≤ ahead w.front s := by
    simpa only [SlotWindow.covers, decide_eq_false_iff_not, Nat.not_lt] using hout
  have hpos := w.length_pos
  have hfb := w.ahead_front_back hmax
  have hne : s ≠ w.front := by
    rintro rfl
    rw [ahead_self] at hge
    omega
  have hturn : ahead s w.front = 2 ^ 16 - ahead w.front s := ahead_comm hne.symm
  have hrest : ahead w.back s = ahead w.front s - ahead w.front w.back := ahead_sub (by omega)
  omega

/-- The two comparisons of `get_by_seq` leave an index past the deque only there. -/
theorem getBySeq_of_far (h : Represents c (some w)) (hmax : max ≤ 0x7fff)
    (hlen : w.slots.length = 1) (hhalf : ahead w.front s = 0x8000) :
    c.getBySeq s = .error .outOfBounds := by
  have hfb := w.ahead_front_back hmax
  have hback : ahead w.back s = 0x8000 := by
    rw [ahead_sub (a := w.front) (by omega)]
    omega
  have hne : s ≠ w.front := by
    rintro rfl
    rw [ahead_self] at hhalf
    cases hhalf
  have hfront : ahead s w.front = 0x8000 := by
    have hturn : ahead s w.front = 2 ^ 16 - ahead w.front s := ahead_comm hne.symm
    omega
  have hgt : seqGt s w.back = false := by
    have : ¬ s - w.back < 0x8000#16 := fun hlt => by
      have := BitVec.lt_def.mp hlt
      rw [show (s - w.back).toNat = ahead w.back s from rfl, hback] at this
      exact absurd this (by decide)
    rw [seqGt, decide_eq_false this, Bool.and_false]
  have hlt : seqLt s w.front = false := by
    have : ¬ w.front - s < 0x8000#16 := fun hlt => by
      have := BitVec.lt_def.mp hlt
      rw [show (w.front - s).toNat = ahead s w.front from rfl, hfront] at this
      exact absurd this (by decide)
    rw [seqLt, decide_eq_false this, Bool.and_false]
  have hget : c.circularCache[(s - w.front).toNat]? = none := by
    rw [h.getElem?, show (s - w.front).toNat = 0x8000 from hhalf,
      List.getElem?_eq_none (by omega)]
    rfl
  simp only [RTPCircularCache.getBySeq, h.not_isEmpty, Bool.false_eq_true, ↓reduceIte,
    h.backSeq, h.frontSeq, ok_bind, hgt, hlt, hget]

/-- A lookup of a number the window does not cover finds nothing. -/
theorem getBySeq_outside (h : Represents c (some w)) (hmax : max ≤ 0x7fff)
    (hout : w.covers s = false) :
    (∃ status, c.getBySeq s = .ok (none, 0, status) ∧
        ¬ (w.slots.length = 1 ∧ ahead w.front s = 0x8000)) ∨
      (c.getBySeq s = .error .outOfBounds ∧ w.slots.length = 1 ∧ ahead w.front s = 0x8000) := by
  by_cases hfar : w.slots.length = 1 ∧ ahead w.front s = 0x8000
  · exact .inr ⟨getBySeq_of_far h hmax hfar.1 hfar.2, hfar⟩
  · have hnear : ahead w.back s < 0x8000 ∨ ahead s w.front < 0x8000 := by
      by_contra hcon
      rw [not_or, Nat.not_lt, Nat.not_lt] at hcon
      exact hfar (halfTurn_of_far w hmax hout hcon.1 hcon.2)
    obtain ⟨status, hget⟩ := getBySeq_of_not_covers h hmax hout hnear
    exact .inl ⟨status, hget, hfar⟩

/-- The condition read off the cache is the one of the window. -/
theorem Represents.halfTurnFromOnly_iff (h : Represents c (some w)) :
    c.HalfTurnFromOnly s ↔ w.slots.length = 1 ∧ ahead w.front s = 0x8000 := by
  have hlen : c.circularCache.length = w.slots.length := by
    rw [h.deque_eq, deque, List.length_map]
  rw [RTPCircularCache.HalfTurnFromOnly, hlen, h.frontSeq]
  refine and_congr_right fun _ => ⟨?_, fun hhalf => ⟨w.front, rfl, ?_⟩⟩
  · rintro ⟨f, hf, rfl⟩
    cases hf
    exact ahead_add_ofNat w.front (i := 0x8000) (by decide)
  · rw [← add_ahead w.front s, hhalf]

end Get

/-- In a cache every packet fitted into a lookup stays inside the deque, except of the number half
a turn from an only packet. -/
theorem RTPCircularCache.Whole.getBySeq_ok_iff {c : RTPCircularCache} (h : c.Whole) (seq : Seq) :
    (∃ r, c.getBySeq seq = .ok r) ↔ ¬ c.HalfTurnFromOnly seq := by
  obtain ⟨o, hrep⟩ := h.content
  cases o with
  | none =>
    have hnil : c.circularCache = [] := hrep.deque_eq
    refine iff_of_true ⟨(none, 0, .rtpCacheCircularCacheEmpty), ?_⟩ fun hhalf => ?_
    · rw [RTPCircularCache.getBySeq, hnil]
      rfl
    · have hlen := hhalf.1
      rw [hnil] at hlen
      cases hlen
  | some w =>
    have hrate : c.sampleRate ≠ 0 := by
      intro hzero
      have hne := hrep.not_isEmpty
      rw [h.unused hzero] at hne
      cases hne
    have hmax := (h.size hrate).2
    rw [hrep.halfTurnFromOnly_iff]
    cases hcov : w.covers seq with
    | true =>
      have hlt : ahead w.front seq < w.slots.length := of_decide_eq_true hcov
      refine iff_of_true ?_ fun hhalf => by omega
      rw [getBySeq_of_covers hrep hmax hcov]
      cases w.slot seq with
      | none => exact ⟨_, rfl⟩
      | some q => exact ⟨_, rfl⟩
    | false =>
      rcases getBySeq_outside hrep hmax hcov with ⟨_, hget, hnot⟩ | ⟨hget, hfar⟩
      · exact iff_of_true ⟨_, hget⟩ hnot
      · refine iff_of_false ?_ fun hnot => hnot hfar
        rintro ⟨r, hr⟩
        rw [hget] at hr
        cases hr

/-! ## Storing -/

section Store

variable {max : Nat} {c : RTPCircularCache} {p : Rtp}

/-- A packet that fits is stored, and is found. -/
theorem store_fits {o : Option (SlotWindow max)} (h : Represents c o) (hone : 1 ≤ max)
    (hmax : max ≤ 0x7fff) (hp : p.len ≤ maxRtpLen) :
    ∃ (c' : RTPCircularCache) (w' : SlotWindow max), c.store p p.len = .ok c' ∧
      Represents c' (some w') ∧ c.SameSettings c' ∧
      ∃ q n, c'.getBySeq p.seq = .ok (some q, n, .statusSuccess) := by
  obtain ⟨c', w', hstore, hrep, hsame, hcov, hput⟩ := store_put h hone hmax hp
  refine ⟨c', w', hstore, hrep, hsame, ?_⟩
  have hin : (c.putOf c' p).covers (c.putOf c' p).key = true := by
    show c'.inWindow p.seq = true
    rw [hrep.inWindow hmax]
    exact hcov
  have hsome : (w'.slot p.seq).isSome = true := by
    have hkey := (windowOf o).put_key_isSome (c.putOf c' p) hin
    rw [← hput] at hkey
    exact hkey
  obtain ⟨q, hq⟩ := Option.isSome_iff_exists.mp hsome
  refine ⟨q, q.len, ?_⟩
  rw [getBySeq_of_covers hrep hmax hcov, hq]

/-- `RTPBlock::set` refuses a packet that does not fit. -/
theorem set_over (b : RTPBlock) (hp : maxRtpLen < p.len) : b.set (some p) p.len = b := by
  simp only [RTPBlock.set, if_pos (Or.inr hp)]

theorem new_over (hp : maxRtpLen < p.len) : RTPBlock.new (some p) p.len = RTPBlock.unset :=
  set_over _ hp

/-- A block without a packet pushed on an empty deque is its last. -/
theorem clean_pushBack_lastUnset (hp : maxRtpLen < p.len) :
    (c.clean.pushBack (RTPBlock.new (some p) p.len)).LastUnset := by
  rw [new_over hp]
  rfl

/-- What an adjustment leaves ends as the deque ended, if it leaves anything. -/
theorem adjust_getLast? {b : RTPBlock} (hmem : b ∈ c.circularCache.drop
      (c.circularCache.length - c.maxSize.toNat)) (hvalid : b.isValid = true) :
    c.adjust.circularCache.getLast? = c.circularCache.getLast? := by
  have hsuffix : c.adjust.circularCache <:+ c.circularCache :=
    (List.dropWhile_suffix _).trans (List.drop_suffix _ _)
  have hne : c.adjust.circularCache ≠ [] := by
    intro hnil
    have hall := List.dropWhile_eq_nil_iff.mp hnil b hmem
    rw [hvalid] at hall
    cases hall
  rw [List.getLast?_eq_some_getLast hne, List.getLast?_eq_some_getLast (hsuffix.ne_nil hne),
    hsuffix.getLast hne]

/-- A packet that does not fit, appended: the newest packet stays, and a block without a packet
comes behind it. -/
theorem adjust_lastUnset {w : SlotWindow max} (h : Represents c (some w)) (hp : maxRtpLen < p.len)
    (hd : 0 < ahead w.back p.seq) (hlt : ahead w.back p.seq < max) :
    (({ c with
        circularCache := c.circularCache ++
          List.replicate (p.seq - (w.back + 1)).toNat (RTPBlock.new none 0) } :
        RTPCircularCache).pushBack (RTPBlock.new (some p) p.len)).adjust.LastUnset := by
  obtain ⟨q, hq⟩ := w.last_set
  have hpos := w.length_pos
  have hholes : (p.seq - (w.back + 1)).toNat = ahead w.back p.seq - 1 := by
    have hone : ahead w.back (w.back + 1) = 1 := ahead_add_ofNat w.back (i := 1) (by decide)
    rw [← hone]
    exact ahead_sub (by rw [hone]; exact hd)
  have hlen : c.circularCache.length = w.slots.length := by
    rw [h.deque_eq, deque, List.length_map]
  have hback : c.circularCache[c.circularCache.length - 1]? = some (RTPBlock.holding q) := by
    rw [← List.getLast?_eq_getElem?, h.deque_eq, deque, List.getLast?_map, hq]
    rfl
  rw [RTPCircularCache.LastUnset, adjust_getLast? (b := RTPBlock.holding q) ?_ (by simp)]
  · rw [new_over hp]
    simp only [RTPCircularCache.pushBack, List.getLast?_append, List.getLast?_singleton,
      Option.some_or]
  · -- the newest packet is less than the size before the end
    simp only [RTPCircularCache.pushBack, List.append_assoc, List.length_append,
      List.length_replicate, List.length_singleton, hholes, h.size_eq]
    rw [List.mem_drop_iff_getElem]
    refine ⟨c.circularCache.length - 1 - (c.circularCache.length +
      (ahead w.back p.seq - 1 + 1) - max), ?_, ?_⟩
    · simp only [List.length_append, List.length_replicate, List.length_singleton, hlen]
      omega
    · rw [List.getElem_append_left (by omega)]
      rw [List.getElem?_eq_some_iff] at hback
      obtain ⟨hi, hget⟩ := hback
      rw [← hget]
      congr 1
      omega

/-- Filling in with a packet that does not fit leaves everything as it is. -/
theorem fillIn_over {w : SlotWindow max} (h : Represents c (some w)) (hp : maxRtpLen < p.len)
    (hin : ahead w.front p.seq < w.slots.length) : c.fillIn p p.len = .ok c := by
  have hget : c.circularCache[(p.seq - w.front).toNat]? =
      some (slotBlock (w.slots[ahead w.front p.seq])) := by
    rw [h.getElem?]
    exact congrArg (Option.map slotBlock) (List.getElem?_eq_getElem hin)
  obtain ⟨hi, hblock⟩ := List.getElem?_eq_some_iff.mp hget
  simp only [RTPCircularCache.fillIn, h.frontSeq, ok_bind, hget, set_over _ hp]
  split
  · rfl
  · rw [← hblock, List.set_getElem_self]

/-- Where its number has a slot, a packet that does not fit changes nothing. -/
theorem store_over_covered {w : SlotWindow max} (h : Represents c (some w)) (hmax : max ≤ 0x7fff)
    (hp : maxRtpLen < p.len) (hjump : c.timestampJump p = false) (hcov : w.covers p.seq = true) :
    c.store p p.len = .ok c := by
  have hsize : BitVec.ofNat 16 max = c.maxSize := by
    rw [← h.size_eq, BitVec.ofNat_toNat, BitVec.setWidth_eq]
  have hin : ahead w.front p.seq < w.slots.length := of_decide_eq_true hcov
  obtain ⟨happend, hover⟩ := not_append_not_over_of_covered w hmax p.seq hin
  have happend' : ¬ (p.seq ≠ w.back ∧ p.seq - w.back < c.maxSize) := fun hcase =>
    happend ⟨hcase.1, Nat.lt_of_lt_of_eq (BitVec.lt_def.mp hcase.2) h.size_eq⟩
  have hover' : ¬ p.seq - (w.back + c.maxSize) < w.front - (w.back + c.maxSize) := by
    rw [← hsize]
    exact fun hcase => hover (BitVec.lt_def.mp hcase)
  have hle : p.seq - w.front ≤ w.back - w.front := by
    have hfb := w.ahead_front_back hmax
    refine BitVec.le_def.mpr ?_
    show ahead w.front p.seq ≤ ahead w.front w.back
    omega
  simp only [RTPCircularCache.store, h.not_isEmpty, hjump, Bool.false_eq_true, ↓reduceIte,
    h.frontSeq, h.backSeq, ok_bind, if_neg happend', if_neg hover', if_pos hle]
  exact fillIn_over h hp hin

/-- On an empty deque it becomes a block without a packet. -/
theorem store_over_empty (h : Represents c (none : Option (SlotWindow max)))
    (hp : maxRtpLen < p.len) :
    ∃ c', c.store p p.len = .ok c' ∧ c.SameSettings c' ∧ c'.LastUnset := by
  have hnil : c.circularCache = [] := h.deque_eq
  refine ⟨c.pushBack (RTPBlock.new (some p) p.len), ?_, ⟨rfl, rfl, rfl⟩, ?_⟩
  · rw [RTPCircularCache.store, hnil]
    rfl
  · rw [RTPCircularCache.LastUnset, RTPCircularCache.pushBack, hnil, new_over hp]
    rfl

/-- And so it does past the window, or with a timestamp that jumps. -/
theorem store_over_outside {w : SlotWindow max} (h : Represents c (some w)) (hmax : max ≤ 0x7fff)
    (hp : maxRtpLen < p.len)
    (hout : ¬ (c.timestampJump p = false ∧ w.covers p.seq = true)) :
    ∃ c', c.store p p.len = .ok c' ∧ c.SameSettings c' ∧ c'.LastUnset := by
  have hcleaned := clean_pushBack_lastUnset (c := c) hp
  have hsize : BitVec.ofNat 16 max = c.maxSize := by
    rw [← h.size_eq, BitVec.ofNat_toNat, BitVec.setWidth_eq]
  simp only [RTPCircularCache.store, h.not_isEmpty, Bool.false_eq_true, ↓reduceIte, h.frontSeq,
    h.backSeq, ok_bind]
  cases hjump : c.timestampJump p with
  | true => exact ⟨_, rfl, ⟨rfl, rfl, rfl⟩, hcleaned⟩
  | false =>
    simp only [Bool.false_eq_true, ↓reduceIte]
    by_cases happend : p.seq ≠ w.back ∧ p.seq - w.back < c.maxSize
    · have hd : 0 < ahead w.back p.seq := by
        rw [Nat.pos_iff_ne_zero, Ne, ahead_eq_zero]
        exact fun heq => happend.1 heq.symm
      have hlt : ahead w.back p.seq < max :=
        Nat.lt_of_lt_of_eq (BitVec.lt_def.mp happend.2) h.size_eq
      rw [if_pos happend]
      exact ⟨_, rfl, ⟨rfl, rfl, rfl⟩, adjust_lastUnset h hp hd hlt⟩
    · rw [if_neg happend]
      by_cases hover : p.seq - (w.back + c.maxSize) < w.front - (w.back + c.maxSize)
      · rw [if_pos hover]
        exact ⟨_, rfl, ⟨rfl, rfl, rfl⟩, hcleaned⟩
      · have hcovered : ahead w.front p.seq ≤ ahead w.front w.back := by
          refine covered_of_not_append_not_over w hmax p.seq ?_ ?_
          · rintro ⟨hne, hlt⟩
            exact happend ⟨hne, BitVec.lt_def.mpr (Nat.lt_of_lt_of_eq hlt h.size_eq.symm)⟩
          · rw [hsize]
            exact fun hlt => hover (BitVec.lt_def.mpr hlt)
        have hpos := w.length_pos
        rw [w.ahead_front_back hmax] at hcovered
        exact absurd ⟨hjump, decide_eq_true (by omega)⟩ hout

/-- Storing a packet of any length leaves a window, or a block without a packet behind it. -/
theorem store_content {o : Option (SlotWindow max)} (h : Represents c o) (hone : 1 ≤ max)
    (hmax : max ≤ 0x7fff) :
    ∃ c', c.store p p.len = .ok c' ∧ c.SameSettings c' ∧
      ((∃ o' : Option (SlotWindow max), Represents c' o') ∨ c'.LastUnset) := by
  by_cases hp : p.len ≤ maxRtpLen
  · obtain ⟨c', w', hstore, hrep, hsame, _⟩ := store_fits h hone hmax hp
    exact ⟨c', hstore, hsame, .inl ⟨some w', hrep⟩⟩
  rw [Nat.not_le] at hp
  cases o with
  | none =>
    obtain ⟨c', hstore, hsame, hlast⟩ := store_over_empty h hp
    exact ⟨c', hstore, hsame, .inr hlast⟩
  | some w =>
    by_cases hin : c.timestampJump p = false ∧ w.covers p.seq = true
    · exact ⟨c, store_over_covered h hmax hp hin.1 hin.2, ⟨rfl, rfl, rfl⟩, .inl ⟨some w, h⟩⟩
    · obtain ⟨c', hstore, hsame, hlast⟩ := store_over_outside h hmax hp hin
      exact ⟨c', hstore, hsame, .inr hlast⟩

end Store

/-! ## One call of set_rtp -/

section Call

variable {c : RTPCircularCache} {d : Datagram}

/-- After a block without a packet came last, a lookup reads its number. -/
theorem RTPCircularCache.LastUnset.getBySeq (h : c.LastUnset) (seq : Seq) :
    c.getBySeq seq = .error .nullDeref := by
  have hne : c.circularCache.isEmpty = false := by
    rw [List.isEmpty_eq_false_iff]
    intro hnil
    rw [RTPCircularCache.LastUnset, hnil] at h
    cases h
  have hback : c.backSeq = .error .nullDeref := by
    rw [RTPCircularCache.backSeq, h]
    rfl
  simp only [RTPCircularCache.getBySeq, hne, Bool.false_eq_true, ↓reduceIte, hback, error_bind]

/-- And so does storing the next packet. -/
theorem RTPCircularCache.LastUnset.store (h : c.LastUnset) (p : Rtp) (len : Nat) :
    c.store p len = .error .nullDeref := by
  have hne : c.circularCache.isEmpty = false := by
    rw [List.isEmpty_eq_false_iff]
    intro hnil
    rw [RTPCircularCache.LastUnset, hnil] at h
    cases h
  have hback : c.backSeq = .error .nullDeref := by
    rw [RTPCircularCache.backSeq, h]
    rfl
  have hjump : c.timestampJump p = false := by
    rw [RTPCircularCache.timestampJump, h]
    rfl
  simp only [RTPCircularCache.store, hne, hjump, Bool.false_eq_true, ↓reduceIte, hback,
    error_bind]

/-- A packet of another ssrc is turned down. -/
theorem setRtp_of_foreign (hrate : c.sampleRate ≠ 0) (hlen : rtpHeaderLen ≤ d.len)
    (hforeign : c.ssrc ≠ 0 ∧ c.ssrc ≠ d.rtp.ssrc) (status : StatusCode) :
    c.setRtp d.rtp d.len status = .ok (c, -1, .rtpCacheRtpInvalid) := by
  have hne : d.rtp.ssrc ≠ c.ssrc := fun heq => hforeign.2 heq.symm
  simp only [RTPCircularCache.setRtp, if_neg hrate, if_neg (Nat.not_lt.mpr hlen),
    if_neg hforeign.1, if_pos hne]

theorem serves_of_not_foreign (hrate : c.sampleRate ≠ 0)
    (hforeign : ¬ (c.ssrc ≠ 0 ∧ c.ssrc ≠ d.rtp.ssrc)) : c.Serves d.rtp.ssrc := by
  refine ⟨hrate, ?_⟩
  by_contra hcon
  rw [not_or] at hcon
  exact hforeign hcon

/-- A whole cache takes a packet that fits without a fault, and stays whole. -/
theorem RTPCircularCache.Whole.setRtp (h : c.Whole) (hlen : rtpHeaderLen ≤ d.len)
    (hfits : d.len ≤ maxRtpLen) (status : StatusCode) :
    ∃ r, c.setRtp d.rtp d.len status = .ok r ∧ r.1.Whole := by
  by_cases hrate : c.sampleRate = 0
  · exact ⟨(c, 1, status), by rw [RTPCircularCache.setRtp, if_pos hrate], h⟩
  by_cases hforeign : c.ssrc ≠ 0 ∧ c.ssrc ≠ d.rtp.ssrc
  · exact ⟨_, setRtp_of_foreign hrate hlen hforeign status, h⟩
  obtain ⟨o, hrep⟩ := h.content
  obtain ⟨hone, hmax⟩ := h.size hrate
  have hwhole := d.whole hlen
  obtain ⟨c', w', hstore, hrep', hsame, _⟩ := store_fits
    (c := { c with ssrc := d.rtp.ssrc }) (p := d.rtp) ⟨hrep.deque_eq, hrep.size_eq⟩ hone hmax
    (by rw [hwhole]; exact hfits)
  rw [setRtp_of_serves (serves_of_not_foreign hrate hforeign) rfl hlen, ← hwhole, hstore]
  have hmaxSize : c'.maxSize = c.maxSize := hsame.2.1
  refine ⟨_, rfl, h.toSized.of_eq hrate hsame.1 hmaxSize, ?_⟩
  show ∃ o : Option (SlotWindow c'.maxSize.toNat), Represents c' o
  rw [hmaxSize]
  exact ⟨some w', hrep'⟩

/-- A call on one of the caches is truthful. -/
def RTPCircularCache.Truthful (c : RTPCircularCache) (d : Datagram) : Prop :=
  ∃ (c' : RTPCircularCache) (r : Int) (status : StatusCode),
    c.setRtp d.rtp d.len .statusSuccess = .ok (c', r, status) ∧
    (status = .statusSuccess → ∃ q n st, c'.getBySeq d.rtp.seq = .ok (some q, n, st)) ∧
    (status ≠ .statusSuccess → c' = c)

/-- A lookup that finds a packet finds it in the window. -/
theorem covers_of_getBySeq {max : Nat} {w : SlotWindow max} {s : Seq} {q : Rtp} {n : Nat}
    {status : StatusCode} (h : Represents c (some w)) (hmax : max ≤ 0x7fff)
    (hget : c.getBySeq s = .ok (some q, n, status)) : w.covers s = true := by
  by_contra hcov
  rw [Bool.not_eq_true] at hcov
  rcases getBySeq_outside h hmax hcov with ⟨_, hnone, _⟩ | ⟨herr, _⟩
  · rw [hnone] at hget
    cases hget
  · rw [herr] at hget
    cases hget

/-- What a call amounts to once the packet is stored. -/
theorem truthful_of_store (hs : c.Serves d.rtp.ssrc) (hlen : rtpHeaderLen ≤ d.len)
    {c' : RTPCircularCache}
    (hstore : ({ c with ssrc := d.rtp.ssrc } : RTPCircularCache).store d.rtp d.len = .ok c') :
    c.Truthful d ↔ ∃ q n st, c'.getBySeq d.rtp.seq = .ok (some q, n, st) := by
  have hset : c.setRtp d.rtp d.len .statusSuccess = .ok (c', 0, .statusSuccess) := by
    rw [setRtp_of_serves hs rfl hlen, hstore]
    rfl
  constructor
  · rintro ⟨c'', r, status, hset', hfound, _⟩
    rw [hset] at hset'
    cases hset'
    exact hfound rfl
  · intro hfound
    exact ⟨c', 0, .statusSuccess, hset, fun _ => hfound, fun hne => absurd rfl hne⟩

/-- A packet that does not fit into a block, on a window of slots. -/
theorem truthful_iff_of_over {max : Nat} {o : Option (SlotWindow max)} (h : Represents c o)
    (hs : c.Serves d.rtp.ssrc) (hmax : max ≤ 0x7fff) (hlen : rtpHeaderLen ≤ d.len)
    (hover : maxRtpLen < d.len) :
    c.Truthful d ↔ c.timestampJump d.rtp = false ∧
      ∃ q n st, c.getBySeq d.rtp.seq = .ok (some q, n, st) := by
  have hwhole := d.whole hlen
  have hp : maxRtpLen < d.rtp.len := by rw [hwhole]; exact hover
  have hrep : Represents { c with ssrc := d.rtp.ssrc } o := ⟨h.deque_eq, h.size_eq⟩
  have hunset : ∀ c' : RTPCircularCache, c'.LastUnset →
      ¬ ∃ q n st, c'.getBySeq d.rtp.seq = .ok (some q, n, st) := by
    rintro c' hlast ⟨q, n, st, hget⟩
    rw [hlast.getBySeq] at hget
    cases hget
  cases o with
  | none =>
    obtain ⟨c', hstore, _, hlast⟩ := store_over_empty hrep hp
    rw [hwhole] at hstore
    rw [truthful_of_store hs hlen hstore]
    refine iff_of_false (hunset c' hlast) ?_
    rintro ⟨_, q, n, st, hget⟩
    have hnil : c.circularCache = [] := h.deque_eq
    rw [RTPCircularCache.getBySeq, hnil] at hget
    cases hget
  | some w =>
    by_cases hin : c.timestampJump d.rtp = false ∧ w.covers d.rtp.seq = true
    · have hstore := store_over_covered hrep hmax hp hin.1 hin.2
      rw [hwhole] at hstore
      rw [truthful_of_store hs hlen hstore, and_iff_right hin.1]
      exact Iff.rfl
    · obtain ⟨c', hstore, _, hlast⟩ := store_over_outside hrep hmax hp hin
      rw [hwhole] at hstore
      rw [truthful_of_store hs hlen hstore]
      refine iff_of_false (hunset c' hlast) ?_
      rintro ⟨hjump, q, n, st, hget⟩
      exact hin ⟨hjump, covers_of_getBySeq h hmax hget⟩

/-- A call on a reachable cache is truthful exactly if the cache answers for the packet. -/
theorem RTPCircularCache.Kept.truthful_iff (h : c.Kept) (hlen : rtpHeaderLen ≤ d.len) :
    c.Truthful d ↔ c.Answers d := by
  by_cases hrate : c.sampleRate = 0
  · -- the status the caller passed in is left as it was
    refine iff_of_false ?_ fun hanswers => hanswers.1 hrate
    rintro ⟨c', r, status, hset, hfound, _⟩
    rw [RTPCircularCache.setRtp, if_pos hrate] at hset
    cases hset
    obtain ⟨q, n, st, hget⟩ := hfound rfl
    rw [RTPCircularCache.getBySeq, h.unused hrate] at hget
    cases hget
  rw [RTPCircularCache.Answers, and_iff_right hrate]
  by_cases hforeign : c.ssrc ≠ 0 ∧ c.ssrc ≠ d.rtp.ssrc
  · refine iff_of_true ⟨c, -1, .rtpCacheRtpInvalid, ?_, fun hsuccess => ?_, fun _ => rfl⟩
      (.inl hforeign)
    · exact setRtp_of_foreign hrate hlen hforeign _
    · cases hsuccess
  have hs := serves_of_not_foreign hrate hforeign
  rw [or_iff_right hforeign]
  rcases h.content with ⟨o, hrep⟩ | hlast
  · obtain ⟨hone, hmax⟩ := h.size hrate
    have hends : ∀ b, c.circularCache.getLast? = some b → b.isValid = true := by
      intro b hb
      rcases hrep.invariant.ends_valid with hnil | ⟨_, back, _, _, hback, hvalid⟩
      · rw [hnil] at hb
        cases hb
      · rw [hb] at hback
        cases hback
        exact hvalid
    rw [and_iff_right hends]
    by_cases hfits : d.len ≤ maxRtpLen
    · refine iff_of_true ?_ (.inl hfits)
      have hwhole := d.whole hlen
      obtain ⟨c', _, hstore, _, _, q, n, hget⟩ := store_fits
        (c := { c with ssrc := d.rtp.ssrc }) (p := d.rtp) ⟨hrep.deque_eq, hrep.size_eq⟩ hone hmax
        (by rw [hwhole]; exact hfits)
      rw [hwhole] at hstore
      exact (truthful_of_store hs hlen hstore).mpr ⟨q, n, _, hget⟩
    · rw [or_iff_right hfits]
      exact truthful_iff_of_over hrep hs hmax hlen (Nat.lt_of_not_le hfits)
  · refine iff_of_false ?_ ?_
    · rintro ⟨c', r, status, hset, _⟩
      have hlast' : ({ c with ssrc := d.rtp.ssrc } : RTPCircularCache).LastUnset := hlast
      rw [setRtp_of_serves hs rfl hlen, hlast'.store] at hset
      cases hset
    · rintro ⟨hvalid, _⟩
      exact absurd (hvalid _ hlast) (by simp)

/-- A call that ends leaves a cache as every reachable cache is. -/
theorem RTPCircularCache.Kept.setRtp (h : c.Kept) {r : RTPCircularCache × Int × StatusCode}
    {status : StatusCode} (hset : c.setRtp d.rtp d.len status = .ok r) : r.1.Kept := by
  by_cases hrate : c.sampleRate = 0
  · rw [RTPCircularCache.setRtp, if_pos hrate] at hset
    cases hset
    exact h
  by_cases hlen : d.len < rtpHeaderLen
  · rw [RTPCircularCache.setRtp, if_neg hrate, if_pos hlen] at hset
    cases hset
    exact h
  rw [Nat.not_lt] at hlen
  by_cases hforeign : c.ssrc ≠ 0 ∧ c.ssrc ≠ d.rtp.ssrc
  · rw [setRtp_of_foreign hrate hlen hforeign] at hset
    cases hset
    exact h
  have hwhole := d.whole hlen
  obtain ⟨hone, hmax⟩ := h.size hrate
  rw [setRtp_of_serves (serves_of_not_foreign hrate hforeign) rfl hlen] at hset
  obtain ⟨c', hstore, hr⟩ := bind_eq_ok.mp hset
  cases hr
  rcases h.content with ⟨o, hrep⟩ | hlast
  · obtain ⟨c'', hstore', hsame, hcontent⟩ := store_content
      (c := { c with ssrc := d.rtp.ssrc }) (p := d.rtp) ⟨hrep.deque_eq, hrep.size_eq⟩ hone hmax
    rw [hwhole, hstore] at hstore'
    cases hstore'
    have hmaxSize : c'.maxSize = c.maxSize := hsame.2.1
    refine ⟨h.toSized.of_eq hrate hsame.1 hmaxSize, ?_⟩
    show (∃ o : Option (SlotWindow c'.maxSize.toNat), Represents c' o) ∨ c'.LastUnset
    rw [hmaxSize]
    exact hcontent
  · have hlast' : ({ c with ssrc := d.rtp.ssrc } : RTPCircularCache).LastUnset := hlast
    rw [hlast'.store] at hstore
    cases hstore

end Call

/-! ## Media caches -/

section Media

variable {info : SdpInfo} {c : RTPMediaCache} {d : Datagram}

/-- The media cache with the cache of one media replaced. -/
def RTPMediaCache.withMedia (c : RTPMediaCache) (video : Bool) (cache : RTPCircularCache)
    (pushActive : Nat) : RTPMediaCache :=
  if video then { c with videoCache := cache, pushActive := pushActive }
  else { c with audioCache := cache, pushActive := pushActive }

theorem media_withMedia (v video : Bool) (cache : RTPCircularCache) (pushActive : Nat) :
    (c.withMedia video cache pushActive).media v = if v = video then cache else c.media v := by
  cases v <;> cases video <;> rfl

/-- `set_rtp` of a packet of a media is the call on the cache of that media. -/
theorem mediaSetRtp_eq (now : Nat) (hlen : rtpHeaderLen ≤ d.len) (hmedia : ¬ d.Foreign) :
    c.setRtp now d.rtp d.len =
      (do let r ← (c.media d.video).setRtp d.rtp d.len .statusSuccess
          .ok (c.withMedia d.video r.1
            (if r.2.2 = .statusSuccess then now else c.pushActive), r.2.2)) := by
  unfold RTPMediaCache.setRtp Datagram.video RTPMediaCache.withMedia
  rw [if_neg (Nat.not_lt.mpr hlen)]
  by_cases haudio : d.rtp.payload = RTP_AV_MP3 ∨ d.rtp.payload = RTP_AV_AAC
  · have hvideo : d.rtp.payload ≠ RTP_AV_H264 := by
      rcases haudio with h | h <;> rw [h] <;> decide
    rw [if_pos haudio, decide_eq_false hvideo]
    rfl
  · have hvideo : d.rtp.payload = RTP_AV_H264 := by
      by_contra hne
      exact hmedia ⟨fun h => haudio (.inl h), fun h => haudio (.inr h), hne⟩
    rw [if_neg haudio, if_pos hvideo, decide_eq_true hvideo]
    rfl

theorem mediaSetRtp_foreign (now : Nat) (hlen : rtpHeaderLen ≤ d.len) (hforeign : d.Foreign) :
    c.setRtp now d.rtp d.len = .ok (c, .rtpCacheSetRtpFailed) := by
  unfold RTPMediaCache.setRtp
  rw [if_neg (Nat.not_lt.mpr hlen), if_neg (not_or.mpr ⟨hforeign.1, hforeign.2.1⟩),
    if_neg hforeign.2.2]

/-- The caches of a run keep what every reachable cache keeps. -/
theorem call_kept (h : ∀ video, (c.media video).Kept) {k : CacheCall} {c' : RTPMediaCache}
    (hcall : c.call info k = .ok c') (video : Bool) : (c'.media video).Kept := by
  cases k with
  | setSdp now sdp =>
    cases hcall
    exact (setSdp_unfilled info c now sdp video).whole.kept
  | setRtp now d =>
    obtain ⟨r, hset, hr⟩ := bind_eq_ok.mp hcall
    cases hr
    by_cases hlen : d.len < rtpHeaderLen
    · rw [RTPMediaCache.setRtp, if_pos hlen] at hset
      cases hset
      exact h video
    rw [Nat.not_lt] at hlen
    by_cases hforeign : d.Foreign
    · rw [mediaSetRtp_foreign now hlen hforeign] at hset
      cases hset
      exact h video
    · rw [mediaSetRtp_eq now hlen hforeign] at hset
      obtain ⟨r', hset', hr'⟩ := bind_eq_ok.mp hset
      cases hr'
      show ((c.withMedia d.video r'.1 _).media video).Kept
      rw [media_withMedia]
      split
      · exact (h d.video).setRtp hset'
      · exact h video

/-- With packets that fit no call fails, and the caches stay whole. -/
theorem call_whole (info : SdpInfo) (h : ∀ video, (c.media video).Whole) {k : CacheCall}
    (hfits : ∀ now d, k = .setRtp now d → rtpHeaderLen ≤ d.len ∧ d.len ≤ maxRtpLen) :
    ∃ c', c.call info k = .ok c' ∧ ∀ video, (c'.media video).Whole := by
  cases k with
  | setSdp now sdp =>
    exact ⟨_, rfl, fun video => (setSdp_unfilled info c now sdp video).whole⟩
  | setRtp now d =>
    obtain ⟨hlen, hle⟩ := hfits now d rfl
    by_cases hforeign : d.Foreign
    · refine ⟨c, ?_, h⟩
      rw [RTPMediaCache.call, mediaSetRtp_foreign now hlen hforeign]
      rfl
    · obtain ⟨r, hset, hwhole⟩ := (h d.video).setRtp hlen hle .statusSuccess
      refine ⟨c.withMedia d.video r.1 (if r.2.2 = .statusSuccess then now else c.pushActive),
        ?_, fun video => ?_⟩
      · rw [RTPMediaCache.call, mediaSetRtp_eq now hlen hforeign, hset]
        rfl
      · rw [media_withMedia]
        split
        · exact hwhole
        · exact h video

theorem run_kept {calls : List CacheCall} (hrun : RTPMediaCache.run info calls = .ok c)
    (video : Bool) : (c.media video).Kept := by
  have hnew : ∀ v, ((RTPMediaCache.new).media v).Kept := fun v => by
    cases v <;> exact reset_unfilled.whole.kept
  have hends : Ends (fun _ => True) (fun c : RTPMediaCache => ∀ v, (c.media v).Kept)
      (calls.foldlM (RTPMediaCache.call info) RTPMediaCache.new) := by
    refine Ends.foldlM calls (fun b k _ hb => ?_) hnew
    cases hcall : b.call info k with
    | error e => trivial
    | ok c' => exact call_kept hb hcall
  exact hends.of_ok hrun video

theorem run_whole (info : SdpInfo) (calls : List CacheCall) (hfits : ∀ now d, CacheCall.setRtp now d ∈ calls →
      rtpHeaderLen ≤ d.len ∧ d.len ≤ maxRtpLen) (hc : ∀ video, (c.media video).Whole) :
    ∃ c', calls.foldlM (RTPMediaCache.call info) c = .ok c' ∧
      ∀ video, (c'.media video).Whole := by
  induction calls generalizing c with
  | nil => exact ⟨c, rfl, hc⟩
  | cons k calls ih =>
    obtain ⟨c₁, hcall, hc₁⟩ := call_whole info hc (k := k)
      (fun now d hk => hfits now d (hk ▸ List.mem_cons_self))
    obtain ⟨c', hrun, hc'⟩ := ih (fun now d hd => hfits now d (List.mem_cons_of_mem k hd)) hc₁
    refine ⟨c', ?_, hc'⟩
    rw [List.foldlM_cons, hcall]
    exact hrun

/-- A cache that finds a packet is initialised. -/
theorem isInited_of_getBySeq {m : RTPCircularCache} (h : m.Kept) {seq : Seq} {q : Rtp} {n : Nat}
    {status : StatusCode} (hget : m.getBySeq seq = .ok (some q, n, status)) :
    m.isInited = true := by
  have hrate : m.sampleRate ≠ 0 := by
    intro hzero
    rw [RTPCircularCache.getBySeq, h.unused hzero] at hget
    cases hget
  have hsize := (h.size hrate).1
  have hpos : (0 : BitVec 32) < m.sampleRate := by
    rw [BitVec.lt_def]
    exact Nat.pos_of_ne_zero fun hzero => hrate (BitVec.eq_of_toNat_eq hzero)
  have hmax : (0 : BitVec 16) < m.maxSize := by
    rw [BitVec.lt_def]
    exact hsize
  rw [RTPCircularCache.isInited, decide_eq_true hpos, decide_eq_true hmax]
  rfl

/-- A lookup through the media cache, where the cache of the media finds a packet. -/
theorem getRtpBySeq_iff {video : Bool} (h : (c.media video).Kept) (seq : Seq) :
    (∃ q n, c.getRtpBySeq video seq = .ok (some q, n)) ↔
      ∃ q n st, (c.media video).getBySeq seq = .ok (some q, n, st) := by
  constructor
  · rintro ⟨q, n, hget⟩
    rw [RTPMediaCache.getRtpBySeq] at hget
    split at hget
    · obtain ⟨⟨q', n', st⟩, hfound, heq⟩ := bind_eq_ok.mp hget
      cases heq
      exact ⟨q, n, st, hfound⟩
    · cases hget
  · rintro ⟨q, n, st, hfound⟩
    refine ⟨q, n, ?_⟩
    rw [RTPMediaCache.getRtpBySeq, if_pos (isInited_of_getBySeq h hfound), hfound]
    rfl

/-- The call of a media cache is truthful exactly if the one on the cache of the media is. -/
theorem mediaTruthful_iff (h : ∀ video, (c.media video).Kept) (now : Nat)
    (hlen : rtpHeaderLen ≤ d.len) (hmedia : ¬ d.Foreign) :
    c.Truthful now d ↔ (c.media d.video).Truthful d := by
  constructor
  · rintro ⟨c', status, hset, hfound, hsame⟩
    rw [mediaSetRtp_eq now hlen hmedia] at hset
    obtain ⟨⟨m, r, status'⟩, hset', heq⟩ := bind_eq_ok.mp hset
    cases heq
    have hm := (h d.video).setRtp hset'
    have hmedia' := media_withMedia (c := c) d.video d.video m
      (if status' = .statusSuccess then now else c.pushActive)
    rw [if_pos rfl] at hmedia'
    refine ⟨m, r, status', hset', fun hsucc => ?_, fun hne => ?_⟩
    · have hlookup := (getRtpBySeq_iff (by rw [hmedia']; exact hm) d.rtp.seq).mp (hfound hsucc)
      rw [hmedia'] at hlookup
      exact hlookup
    · obtain ⟨haudio, hvideo⟩ := hsame hne
      have hboth : ∀ v, (c.withMedia d.video m
          (if status' = .statusSuccess then now else c.pushActive)).media v = c.media v := by
        intro v
        cases v with
        | false => exact haudio
        | true => exact hvideo
      exact hmedia'.symm.trans (hboth d.video)
  · rintro ⟨m, r, status, hset, hfound, hsame⟩
    have hm := (h d.video).setRtp hset
    have hmedia' := media_withMedia (c := c) d.video d.video m
      (if status = .statusSuccess then now else c.pushActive)
    rw [if_pos rfl] at hmedia'
    refine ⟨c.withMedia d.video m (if status = .statusSuccess then now else c.pushActive), status,
      ?_, fun hsucc => ?_, fun hne => ?_⟩
    · rw [mediaSetRtp_eq now hlen hmedia, hset]
      rfl
    · refine (getRtpBySeq_iff (by rw [hmedia']; exact hm) d.rtp.seq).mpr ?_
      rw [hmedia']
      exact hfound hsucc
    · rw [hsame hne, RTPMediaCache.withMedia, RTPMediaCache.media]
      cases d.video <;> exact ⟨rfl, rfl⟩

theorem truthful_iff_answers (h : ∀ video, (c.media video).Kept) (now : Nat) (d : Datagram) :
    c.Truthful now d ↔ c.Answers d := by
  rw [RTPMediaCache.Answers]
  by_cases hlen : d.len < rtpHeaderLen
  · refine iff_of_true ⟨c, .rtpCacheRtpInvalid, ?_, nofun, fun _ => ⟨rfl, rfl⟩⟩ (.inl hlen)
    rw [RTPMediaCache.setRtp, if_pos hlen]
  rw [or_iff_right hlen]
  rw [Nat.not_lt] at hlen
  by_cases hforeign : d.Foreign
  · exact iff_of_true ⟨c, .rtpCacheSetRtpFailed, mediaSetRtp_foreign now hlen hforeign, nofun,
      fun _ => ⟨rfl, rfl⟩⟩ (.inl hforeign)
  · rw [or_iff_right hforeign, mediaTruthful_iff h now hlen hforeign]
    exact (h d.video).truthful_iff hlen

/-- From every reachable state, and for every packet, `set_rtp` is truthful exactly if it turns the
packet down or its cache answers for it. -/
theorem setRtp_truthful (info : SdpInfo) (calls : List CacheCall) (c : RTPMediaCache)
    (hrun : RTPMediaCache.run info calls = .ok c) (now : Nat) (d : Datagram) :
    c.Truthful now d ↔ c.Answers d :=
  truthful_iff_answers (run_kept hrun) now d

theorem headed_lt {n : Nat} (h : n < 2 ^ 15) : rtpHeaderLen + n < 2 ^ 16 := by
  simp only [rtpHeaderLen]
  omega

/-- A video packet with `n` bytes after the header. -/
def videoOf (seq : Seq) (n : Nat) (h : n < 2 ^ 15) : Datagram where
  rtp := { Rtp.zero with payload := RTP_AV_H264, seq := seq, ssrc := 7, data := List.replicate n 1 }
  len := rtpHeaderLen + n
  whole := fun _ => congrArg (rtpHeaderLen + ·) List.length_replicate
  len_lt := headed_lt h

/-- An SDP parser that finds one video media in every text. -/
def oneVideo : SdpInfo := { mediaInfos := fun _ => [⟨RTP_AV_H264, 90000⟩], getSdpStr := id }

theorem setRtp_truthful_new :
    RTPMediaCache.new.Truthful 1 (videoOf 5 1 (by decide)) ↔
      RTPMediaCache.new.Answers (videoOf 5 1 (by decide)) :=
  setRtp_truthful oneVideo [] RTPMediaCache.new rfl 1 (videoOf 5 1 (by decide))

/-- A cache without an SDP says success and keeps nothing, and one with an SDP says success for a
packet of 2049 bytes that no lookup finds. -/
theorem setRtp_untruthful :
    ¬ RTPMediaCache.new.Truthful 1 (videoOf 5 1 (by decide)) ∧
    ∃ c, RTPMediaCache.run oneVideo [.setSdp 0 []] = .ok c ∧
      ¬ c.Truthful 1 (videoOf 5 2037 (by decide)) := by
  constructor
  · have hrun : RTPMediaCache.run oneVideo [] = .ok RTPMediaCache.new := rfl
    rw [truthful_iff_answers (run_kept hrun)]
    rintro (hlen | hforeign | hanswers)
    · exact absurd hlen (by decide)
    · exact hforeign.2.2 rfl
    · exact hanswers.1 rfl
  · have hrun : RTPMediaCache.run oneVideo [.setSdp 0 []] =
        .ok (RTPMediaCache.new.setSdp oneVideo 0 []) := rfl
    refine ⟨RTPMediaCache.new.setSdp oneVideo 0 [], hrun, ?_⟩
    rw [truthful_iff_answers (run_kept hrun)]
    rintro (hlen | hforeign | hanswers)
    · exact absurd hlen (by decide)
    · exact hforeign.2.2 rfl
    · rcases hanswers.2 with hssrc | ⟨_, hle | ⟨_, q, n, st, hget⟩⟩
      · exact hssrc.1 rfl
      · exact absurd hle (by decide)
      · cases hget

/-- In every state reached with packets of 12 to 2048 bytes, and for every number, a lookup in
either cache stays inside the deque unless the deque has one packet and the number lies exactly
half a turn from it. -/
theorem getBySeq_in_deque (info : SdpInfo) (calls : List CacheCall)
    (hfits : ∀ now d, CacheCall.setRtp now d ∈ calls →
      rtpHeaderLen ≤ d.len ∧ d.len ≤ maxRtpLen) :
    ∃ c, RTPMediaCache.run info calls = .ok c ∧ ∀ (video : Bool) (seq : Seq),
      (∃ r, (c.media video).getBySeq seq = .ok r) ↔ ¬ (c.media video).HalfTurnFromOnly seq := by
  obtain ⟨c, hrun, hc⟩ := run_whole info calls hfits (c := RTPMediaCache.new)
    (fun v => by cases v <;> exact reset_unfilled.whole)
  exact ⟨c, hrun, fun video seq => (hc video).getBySeq_ok_iff seq⟩

theorem getBySeq_in_deque_one_packet :
    ∃ c, RTPMediaCache.run oneVideo [.setSdp 0 [], .setRtp 1 (videoOf 5 1 (by decide))] = .ok c ∧
      ∀ (video : Bool) (seq : Seq),
        (∃ r, (c.media video).getBySeq seq = .ok r) ↔ ¬ (c.media video).HalfTurnFromOnly seq :=
  getBySeq_in_deque _ _ (by
    intro now d hd
    simp only [List.mem_cons, reduceCtorEq, CacheCall.setRtp.injEq, List.not_mem_nil, or_false,
      false_or] at hd
    rw [hd.2]
    decide)

/-- After one packet, with number 5, a lookup of the number half a turn from it reads at index
32768 of a deque of one block. -/
theorem getBySeq_past_deque :
    ∃ c, RTPMediaCache.run oneVideo [.setSdp 0 [], .setRtp 1 (videoOf 5 1 (by decide))] = .ok c ∧
      c.videoCache.circularCache.length = 1 ∧
      c.videoCache.getBySeq 32773 = .error .outOfBounds :=
  ⟨_, rfl, rfl, by decide⟩

end Media

end RtcMcu.MediaManager
