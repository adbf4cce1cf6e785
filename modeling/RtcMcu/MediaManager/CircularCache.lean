import RtcMcu.MediaManager.RtpBlockCache
import RtcMcu.MediaManager.SlotWindow

/-!
# The RTP cache is a sliding window

An `RTPCircularCache` that is not empty is the deque of a `SlotWindow` (`Represents`), and
`set_rtp` moves it by one of the window's three operations, so no assertion of the code fails and
what `get_by_seq` answers is what the window holds. A run of `set_rtp` calls is a run of puts of
`Lib.FirstWins`, read off the code's own window and its own decision to start over.
-/

namespace RtcMcu.MediaManager

open RtcMcu.Avformat RtcMcu.Fragment RtcMcu.Serial

/-! ## Runs of set_rtp -/

/-- One call of `set_rtp` with a packet and its length. -/
def RTPCircularCache.accept (c : RTPCircularCache) (p : Rtp) : Except Fault RTPCircularCache := do
  let r ← c.setRtp p p.len .statusSuccess
  .ok r.1

/-- A run of `set_rtp` calls. -/
def RTPCircularCache.run (c : RTPCircularCache) (ps : List Rtp) : Except Fault RTPCircularCache :=
  ps.foldlM RTPCircularCache.accept c

/-- What every reachable state keeps: it fits, it is empty or ends in packets on both sides, and
the packet of a block is numbered by the block's place. -/
structure RTPCircularCache.Invariant (c : RTPCircularCache) : Prop where
  size_le : c.circularCache.length ≤ c.maxSize.toNat
  ends_valid : c.circularCache = [] ∨ ∃ front back, c.circularCache.head? = some front ∧
    front.isValid = true ∧ c.circularCache.getLast? = some back ∧ back.isValid = true
  numbered : ∀ (i : Nat) (b : RTPBlock), c.circularCache[i]? = some b → b.isValid = true →
    ∃ f, c.frontSeq = .ok f ∧ b.getSeq = .ok (f + BitVec.ofNat 16 i)

/-- The sequence number lies in the current window `[front.seq, back.seq]`. -/
def RTPCircularCache.inWindow (c : RTPCircularCache) (s : Seq) : Bool :=
  match c.frontSeq, c.backSeq with
  | .ok f, .ok b => decide (ahead f s ≤ ahead f b)
  | _, _ => false

/-- `set_rtp` cleans the deque before it stores the packet: the timestamp jumps, or the number
falls past `expect_next_max` and before the front. -/
def RTPCircularCache.startsOver (c : RTPCircularCache) (p : Rtp) : Bool :=
  c.timestampJump p ||
    match c.frontSeq, c.backSeq with
    | .ok f, .ok b => !decide (p.seq ≠ b ∧ p.seq - b < c.maxSize) &&
        decide (p.seq - (b + c.maxSize) < f - (b + c.maxSize))
    | _, _ => false

/-- The put a `set_rtp` call amounts to: what the window covers is read off the cache it leaves. -/
def RTPCircularCache.putOf (c c' : RTPCircularCache) (p : Rtp) : FirstWins.Put Seq Rtp :=
  { key := p.seq, value := p, fresh := c.startsOver p, covers := c'.inWindow }

/-- The puts a run amounts to. -/
def RTPCircularCache.putsOf (c : RTPCircularCache) :
    List Rtp → Except Fault (List (FirstWins.Put Seq Rtp))
  | [] => .ok []
  | p :: ps => do
    let c' ← c.accept p
    let rest ← c'.putsOf ps
    .ok (c.putOf c' p :: rest)

/-- The packets stored for a number since it entered the current window, oldest first. -/
def RTPCircularCache.storedSince (c : RTPCircularCache) (ps : List Rtp) (s : Seq) :
    Except Fault (List Rtp) := do
  let puts ← c.putsOf ps
  .ok (FirstWins.log puts s)

/-! ## The deque of a window -/

/-- The block of a slot. -/
def slotBlock : Option Rtp → RTPBlock
  | none => RTPBlock.unset
  | some p => RTPBlock.holding p

@[simp] theorem slotBlock_isValid (o : Option Rtp) : (slotBlock o).isValid = o.isSome := by
  cases o with
  | none => rfl
  | some p => exact RTPBlock.isValid_holding p

/-- The deque that stands for a window, or for none. -/
def deque {max : Nat} : Option (SlotWindow max) → List RTPBlock
  | none => []
  | some w => w.slots.map slotBlock

/-- The cache holds exactly the window, and its size limit is the window's. -/
structure Represents {max : Nat} (c : RTPCircularCache) (o : Option (SlotWindow max)) : Prop where
  deque_eq : c.circularCache = deque o
  size_eq : c.maxSize.toNat = max

section Window

variable {max : Nat} {c : RTPCircularCache} {w : SlotWindow max}

theorem Represents.frontSeq (h : Represents c (some w)) : c.frontSeq = .ok w.front := by
  obtain ⟨p, hp⟩ := w.head_set
  have hhead : c.circularCache.head? = some (RTPBlock.holding p) := by
    rw [h.deque_eq, deque, List.head?_map, hp]
    rfl
  rw [RTPCircularCache.frontSeq, hhead, ← w.head_seq hp]
  rfl

theorem Represents.backSeq (h : Represents c (some w)) : c.backSeq = .ok w.back := by
  obtain ⟨p, hp⟩ := w.last_set
  have hlast : c.circularCache.getLast? = some (RTPBlock.holding p) := by
    rw [h.deque_eq, deque, List.getLast?_map, hp]
    rfl
  rw [RTPCircularCache.backSeq, hlast, ← w.last_seq hp]
  rfl

theorem Represents.not_isEmpty (h : Represents c (some w)) :
    c.circularCache.isEmpty = false := by
  rw [h.deque_eq, deque, List.isEmpty_eq_false_iff]
  intro hnil
  have hpos := w.length_pos
  rw [List.map_eq_nil_iff.mp hnil] at hpos
  exact absurd hpos (Nat.lt_irrefl 0)

theorem Represents.getElem? (h : Represents c (some w)) (i : Nat) :
    c.circularCache[i]? = w.slots[i]?.map slotBlock := by
  rw [h.deque_eq, deque, List.getElem?_map]

/-- The current window of the cache is what the window covers. -/
theorem Represents.inWindow (h : Represents c (some w)) (hmax : max ≤ 0x7fff) :
    c.inWindow = w.covers := by
  funext s
  have hpos := w.length_pos
  simp only [RTPCircularCache.inWindow, h.frontSeq, h.backSeq, SlotWindow.covers,
    w.ahead_front_back hmax]
  exact decide_eq_decide.mpr (by omega)

theorem Represents.inWindow_none (h : Represents c (none : Option (SlotWindow max))) :
    c.inWindow = fun _ => false := by
  have hfront : c.frontSeq = .error .outOfBounds := by
    rw [RTPCircularCache.frontSeq, h.deque_eq]
    rfl
  funext s
  simp only [RTPCircularCache.inWindow, hfront]

/-- A represented cache keeps the invariant: the window proves it. -/
theorem Represents.invariant {o : Option (SlotWindow max)} (h : Represents c o) :
    c.Invariant := by
  cases o with
  | none =>
    have hnil : c.circularCache = [] := h.deque_eq
    refine ⟨?_, .inl hnil, ?_⟩
    · rw [hnil]
      exact Nat.zero_le _
    · intro i b hb
      rw [hnil] at hb
      cases hb
  | some w =>
    refine ⟨?_, .inr ?_, ?_⟩
    · rw [h.deque_eq, deque, List.length_map, h.size_eq]
      exact w.size_le
    · obtain ⟨p, hp⟩ := w.head_set
      obtain ⟨q, hq⟩ := w.last_set
      refine ⟨RTPBlock.holding p, RTPBlock.holding q, ?_, RTPBlock.isValid_holding p, ?_,
        RTPBlock.isValid_holding q⟩
      · rw [h.deque_eq, deque, List.head?_map, hp]
        rfl
      · rw [h.deque_eq, deque, List.getLast?_map, hq]
        rfl
    · intro i b hb hvalid
      rw [h.getElem?] at hb
      obtain ⟨o, ho, rfl⟩ := Option.map_eq_some_iff.mp hb
      cases o with
      | none => cases hvalid
      | some p =>
        refine ⟨w.front, h.frontSeq, ?_⟩
        rw [← w.numbered i p ho]
        rfl

end Window

/-! ## One call of set_rtp -/

section Store

variable {max : Nat} {c : RTPCircularCache} {w : SlotWindow max} {p : Rtp}

/-- Everything but the deque. -/
def RTPCircularCache.SameSettings (c c' : RTPCircularCache) : Prop :=
  c'.sampleRate = c.sampleRate ∧ c'.maxSize = c.maxSize ∧ c'.ssrc = c.ssrc

/-- Storing after a `clean` leaves the window of one packet. -/
theorem clean_pushBack_represents (hsize : c.maxSize.toNat = max) (hmax : 1 ≤ max)
    (hp : p.len ≤ maxRtpLen) :
    Represents (c.clean.pushBack (RTPBlock.new (some p) p.len))
      (some (SlotWindow.single p hp hmax)) := by
  refine ⟨?_, hsize⟩
  rw [RTPBlock.new_fits hp]
  rfl

/-- A gap filled with unset blocks, the packet behind it, and the adjustment are the window's
`append`. -/
theorem adjust_represents (h : Represents c (some w)) (hp : p.len ≤ maxRtpLen)
    (hd : 0 < ahead w.back p.seq) :
    Represents (({ c with
        circularCache := c.circularCache ++
          List.replicate (p.seq - (w.back + 1)).toNat (RTPBlock.new none 0) } :
        RTPCircularCache).pushBack (RTPBlock.new (some p) p.len)).adjust
      (some (w.append p hp hd)) := by
  refine ⟨?_, h.size_eq⟩
  have hholes : (p.seq - (w.back + 1)).toNat = ahead w.back p.seq - 1 := by
    have hone : ahead w.back (w.back + 1) = 1 := ahead_add_ofNat w.back (i := 1) (by decide)
    rw [← hone]
    exact ahead_sub (by rw [hone]; exact hd)
  have hgrown : c.circularCache ++ List.replicate (p.seq - (w.back + 1)).toNat
      (RTPBlock.new none 0) ++ [RTPBlock.new (some p) p.len] =
        (w.grown p (ahead w.back p.seq)).map slotBlock := by
    rw [h.deque_eq, hholes, RTPBlock.new_fits hp, SlotWindow.grown, List.map_append,
      List.map_append, List.map_replicate]
    rfl
  have hisNone : ((fun b : RTPBlock => !b.isValid) ∘ slotBlock) = Option.isNone := by
    funext o
    cases o with
    | none => rfl
    | some q => simp only [Function.comp, slotBlock_isValid, Option.isSome_some, Bool.not_true,
        Option.isNone_some]
  simp only [RTPCircularCache.adjust, RTPCircularCache.pushBack, hgrown, List.length_map,
    h.size_eq, deque, SlotWindow.append, SlotWindow.trimmed]
  rw [← List.map_drop, List.dropWhile_map, hisNone]

/-- Filling in is the window's `fill`; the slot exists, so the assertion of `_fill_in` holds. -/
theorem fillIn_represents (h : Represents c (some w)) (hp : p.len ≤ maxRtpLen)
    (hin : ahead w.front p.seq < w.slots.length) :
    ∃ c', c.fillIn p p.len = .ok c' ∧ Represents c' (some (w.fill p hp)) ∧ c.SameSettings c' := by
  have hget : c.circularCache[(p.seq - w.front).toNat]? =
      some (slotBlock (w.slots[ahead w.front p.seq])) := by
    rw [h.getElem?]
    exact congrArg (Option.map slotBlock) (List.getElem?_eq_getElem hin)
  simp only [RTPCircularCache.fillIn, h.frontSeq, ok_bind, hget, slotBlock_isValid]
  have hmod : w.slots.modify (ahead w.front p.seq) (fun o => o.or (some p)) =
      w.slots.set (ahead w.front p.seq) ((w.slots[ahead w.front p.seq]).or (some p)) := by
    rw [List.modify_eq_set, List.getElem?_eq_getElem hin]
    rfl
  cases hslot : w.slots[ahead w.front p.seq] with
  | none =>
    refine ⟨_, rfl, ⟨?_, h.size_eq⟩, rfl, rfl, rfl⟩
    simp only [deque, SlotWindow.fill, hmod, hslot, Option.none_or, List.map_set, h.deque_eq,
      RTPBlock.set_fits _ hp]
    rfl
  | some q =>
    refine ⟨c, rfl, ⟨?_, h.size_eq⟩, rfl, rfl, rfl⟩
    have hself : w.slots.set (ahead w.front p.seq) (some q) = w.slots := by
      rw [← hslot]
      exact List.set_getElem_self hin
    simp only [deque, SlotWindow.fill, hmod, hslot, Option.some_or, hself, h.deque_eq]

/-- `expect_next_max` lies the size past the back. -/
theorem ahead_front_expect (w : SlotWindow max) (hmax : max ≤ 0x7fff) :
    ahead w.front (w.back + BitVec.ofNat 16 max) = w.slots.length - 1 + max := by
  have hle := w.size_le
  have hfb := w.ahead_front_back hmax
  have hstep : ahead w.back (w.back + BitVec.ofNat 16 max) = max := ahead_add_ofNat _ (by omega)
  rw [ahead_trans (by rw [hfb, hstep]; omega), hfb, hstep]

/-- From `expect_next_max` on to the front is the rest of the turn. -/
theorem ahead_expect_front (w : SlotWindow max) (hmax : max ≤ 0x7fff) :
    ahead (w.back + BitVec.ofNat 16 max) w.front = 2 ^ 16 - (w.slots.length - 1 + max) := by
  have hpos := w.length_pos
  have hle := w.size_le
  have hexpect := ahead_front_expect w hmax
  have hne : w.front ≠ w.back + BitVec.ofNat 16 max := by
    intro heq
    rw [← heq, ahead_self] at hexpect
    omega
  rw [← hexpect]
  exact ahead_comm hne

/-- The three cases of `set_rtp` leave nothing: a number that neither follows the back by less
than the size nor falls in the gap to start over in lies in the window. -/
theorem covered_of_not_append_not_over (w : SlotWindow max) (hmax : max ≤ 0x7fff) (s : Seq)
    (happend : ¬ (s ≠ w.back ∧ ahead w.back s < max))
    (hover : ¬ ahead (w.back + BitVec.ofNat 16 max) s < ahead (w.back + BitVec.ofNat 16 max)
      w.front) :
    ahead w.front s ≤ ahead w.front w.back := by
  have hpos := w.length_pos
  have hle := w.size_le
  have hfb := w.ahead_front_back hmax
  have hexpect := ahead_front_expect w hmax
  have hwrap := ahead_expect_front w hmax
  by_contra hgt
  have hback : ahead w.back s = ahead w.front s - ahead w.front w.back := ahead_sub (by omega)
  have hne : s ≠ w.back := by
    rintro rfl
    omega
  have hfar : w.slots.length - 1 + max ≤ ahead w.front s := by
    by_contra hnear
    exact happend ⟨hne, by omega⟩
  have hbehind : ahead (w.back + BitVec.ofNat 16 max) s =
      ahead w.front s - (w.slots.length - 1 + max) := by
    rw [← hexpect]
    exact ahead_sub (by rw [hexpect]; exact hfar)
  have hturn := ahead_lt w.front s
  omega

/-- And they do not overlap: a number of the window is neither appended nor starts over. -/
theorem not_append_not_over_of_covered (w : SlotWindow max) (hmax : max ≤ 0x7fff) (s : Seq)
    (hin : ahead w.front s < w.slots.length) :
    ¬ (s ≠ w.back ∧ ahead w.back s < max) ∧
      ¬ ahead (w.back + BitVec.ofNat 16 max) s < ahead (w.back + BitVec.ofNat 16 max)
        w.front := by
  have hle := w.size_le
  have hfb := w.ahead_front_back hmax
  have hexpect := ahead_front_expect w hmax
  have hwrap := ahead_expect_front w hmax
  constructor
  · rintro ⟨hne, hlt⟩
    have hnot : ahead w.front s ≠ ahead w.front w.back := fun h => hne (ahead_inj.mp h)
    have hback : ahead w.back s = 2 ^ 16 + ahead w.front s - ahead w.front w.back :=
      ahead_sub_of_lt (by omega)
    omega
  · have hbehind : ahead (w.back + BitVec.ofNat 16 max) s =
        2 ^ 16 + ahead w.front s - (w.slots.length - 1 + max) := by
      rw [← hexpect]
      exact ahead_sub_of_lt (by omega)
    omega

/-- `set_rtp` past its checks never faults, and what it does to the window is a put. -/
theorem store_represents (h : Represents c (some w)) (hmax : max ≤ 0x7fff)
    (hp : p.len ≤ maxRtpLen) :
    ∃ (c' : RTPCircularCache) (w' : SlotWindow max), c.store p p.len = .ok c' ∧
      Represents c' (some w') ∧ c.SameSettings c' ∧ w'.covers p.seq = true ∧
      w'.toWindow = w.toWindow.put
        { key := p.seq, value := p, fresh := c.startsOver p, covers := w'.covers } := by
  have hone : 1 ≤ max := Nat.le_trans w.length_pos w.size_le
  have hsize : BitVec.ofNat 16 max = c.maxSize := by
    rw [← h.size_eq, BitVec.ofNat_toNat, BitVec.setWidth_eq]
  simp only [RTPCircularCache.store, RTPCircularCache.startsOver, h.not_isEmpty,
    Bool.false_eq_true, ↓reduceIte, h.frontSeq, h.backSeq, ok_bind]
  cases hjump : c.timestampJump p with
  | true =>
    exact ⟨_, _, rfl, clean_pushBack_represents h.size_eq hone hp, ⟨rfl, rfl, rfl⟩,
      SlotWindow.single_covers p hp hone, SlotWindow.single_put _ p hp hone⟩
  | false =>
    simp only [Bool.false_eq_true, ↓reduceIte, Bool.false_or]
    by_cases happend : p.seq ≠ w.back ∧ p.seq - w.back < c.maxSize
    · have hd : 0 < ahead w.back p.seq := by
        rw [Nat.pos_iff_ne_zero, Ne, ahead_eq_zero]
        exact fun heq => happend.1 heq.symm
      have hlt : ahead w.back p.seq < max :=
        Nat.lt_of_lt_of_eq (BitVec.lt_def.mp happend.2) h.size_eq
      simp only [if_pos happend, decide_eq_true happend, Bool.not_true, Bool.false_and]
      exact ⟨_, _, rfl, adjust_represents h hp hd, ⟨rfl, rfl, rfl⟩,
        SlotWindow.append_covers w p hp hd hmax, SlotWindow.append_put w p hp hd (Nat.le_of_lt hlt) hmax⟩
    · simp only [if_neg happend, decide_eq_false happend, Bool.not_false, Bool.true_and]
      by_cases hover : p.seq - (w.back + c.maxSize) < w.front - (w.back + c.maxSize)
      · simp only [hover, decide_true]
        exact ⟨_, _, rfl, clean_pushBack_represents h.size_eq hone hp, ⟨rfl, rfl, rfl⟩,
          SlotWindow.single_covers p hp hone, SlotWindow.single_put _ p hp hone⟩
      · have hcovered : ahead w.front p.seq ≤ ahead w.front w.back := by
          refine covered_of_not_append_not_over w hmax p.seq ?_ ?_
          · rintro ⟨hne, hlt⟩
            exact happend ⟨hne, BitVec.lt_def.mpr (Nat.lt_of_lt_of_eq hlt h.size_eq.symm)⟩
          · rw [hsize]
            exact fun hlt => hover (BitVec.lt_def.mpr hlt)
        have hin : ahead w.front p.seq < w.slots.length := by
          have hpos := w.length_pos
          rw [w.ahead_front_back hmax] at hcovered
          omega
        have hle : p.seq - w.front ≤ w.back - w.front := BitVec.le_def.mpr hcovered
        obtain ⟨c', hfill, hrep, hsame⟩ := fillIn_represents h hp hin
        simp only [if_neg hover, if_pos hle, decide_eq_false hover]
        exact ⟨c', _, hfill, hrep, hsame,
          (w.fill_covers p hp p.seq).trans (decide_eq_true hin),
          SlotWindow.fill_put w p hp (decide_eq_true hin)⟩

/-- The first-write-wins window that stands for a cache. -/
def windowOf : Option (SlotWindow max) → FirstWins.Window Seq Rtp
  | none => FirstWins.Window.empty
  | some w => w.toWindow

/-- An empty cache takes any packet as its window. -/
theorem store_empty (h : Represents c (none : Option (SlotWindow max))) (hmax : 1 ≤ max)
    (hp : p.len ≤ maxRtpLen) :
    ∃ c', c.store p p.len = .ok c' ∧ Represents c' (some (SlotWindow.single p hp hmax)) ∧
      c.SameSettings c' := by
  have hnil : c.circularCache = [] := h.deque_eq
  refine ⟨c.pushBack (RTPBlock.new (some p) p.len), ?_, ?_, rfl, rfl, rfl⟩
  · rw [RTPCircularCache.store, hnil]
    rfl
  · have hclean : c.pushBack (RTPBlock.new (some p) p.len) =
        c.clean.pushBack (RTPBlock.new (some p) p.len) := by
      simp only [RTPCircularCache.pushBack, RTPCircularCache.clean, hnil]
    rw [hclean]
    exact clean_pushBack_represents h.size_eq hmax hp

/-- On an empty window it does not matter whether a put starts over. -/
theorem put_empty (f : Bool) (key : Seq) (covers : Seq → Bool) :
    (FirstWins.Window.empty : FirstWins.Window Seq Rtp).put
      { key := key, value := p, fresh := f, covers := covers } =
    FirstWins.Window.empty.put { key := key, value := p, fresh := true, covers := covers } := by
  simp only [FirstWins.Window.put, FirstWins.Window.mk.injEq, true_and]
  funext s
  cases f with
  | true => rfl
  | false => rfl

/-- The cache takes the packets of `ssrc`: it has a sample rate, and it has seen no other ssrc. -/
structure RTPCircularCache.Serves (c : RTPCircularCache) (ssrc : BitVec 32) : Prop where
  rate_ne : c.sampleRate ≠ 0
  ssrc_eq : c.ssrc = 0 ∨ c.ssrc = ssrc

/-- Storing with the ssrc taken over, from an empty cache or not. -/
theorem store_put {o : Option (SlotWindow max)} (h : Represents c o) (hone : 1 ≤ max)
    (hmax : max ≤ 0x7fff) (hp : p.len ≤ maxRtpLen) :
    ∃ (c' : RTPCircularCache) (w' : SlotWindow max), c.store p p.len = .ok c' ∧
      Represents c' (some w') ∧ c.SameSettings c' ∧ w'.covers p.seq = true ∧
      w'.toWindow = (windowOf o).put (c.putOf c' p) := by
  cases o with
  | none =>
    obtain ⟨c', hstore, hrep, hsame⟩ := store_empty h hone hp
    refine ⟨c', _, hstore, hrep, hsame, SlotWindow.single_covers p hp hone, ?_⟩
    rw [SlotWindow.single_put FirstWins.Window.empty p hp hone, windowOf,
      RTPCircularCache.putOf, put_empty (c.startsOver p), hrep.inWindow hmax]
  | some w =>
    obtain ⟨c', w', hstore, hrep, hsame, hcov, hput⟩ := store_represents h hmax hp
    refine ⟨c', w', hstore, hrep, hsame, hcov, ?_⟩
    rw [hput, windowOf, RTPCircularCache.putOf, hrep.inWindow hmax]

/-- A packet of the cache's ssrc is stored, whether the ssrc is taken over or known. -/
theorem setRtp_of_serves {ssrc : BitVec 32} (hs : c.Serves ssrc) (hssrc : p.ssrc = ssrc)
    {len : Nat} (hlen : rtpHeaderLen ≤ len) (status : StatusCode) :
    c.setRtp p len status =
      (do let c' ← ({ c with ssrc := ssrc } : RTPCircularCache).store p len
          .ok (c', 0, .statusSuccess)) := by
  have htaken : (if c.ssrc = 0 then { c with ssrc := ssrc } else c) = { c with ssrc := ssrc } := by
    by_cases hzero : c.ssrc = 0
    · rw [if_pos hzero]
    · rw [if_neg hzero, ← hs.ssrc_eq.resolve_left hzero]
  simp only [RTPCircularCache.setRtp, if_neg hs.rate_ne, if_neg (Nat.not_lt.mpr hlen), hssrc,
    htaken, ne_eq, not_true_eq_false, ↓reduceIte]

/-- One call of `set_rtp` on a reachable cache: it succeeds, and it is a put. -/
theorem accept_put {ssrc : BitVec 32} {o : Option (SlotWindow max)} (h : Represents c o)
    (hs : c.Serves ssrc) (hone : 1 ≤ max) (hmax : max ≤ 0x7fff) (hp : p.len ≤ maxRtpLen)
    (hssrc : p.ssrc = ssrc) :
    ∃ (c' : RTPCircularCache) (w' : SlotWindow max), c.accept p = .ok c' ∧
      Represents c' (some w') ∧ c'.Serves ssrc ∧
      w'.toWindow = (windowOf o).put (c.putOf c' p) := by
  have hlen : rtpHeaderLen ≤ p.len := Nat.le_add_right _ _
  obtain ⟨c', w', hstore, hrep, hsame, _, hput⟩ :=
    store_put (c := { c with ssrc := ssrc }) ⟨h.deque_eq, h.size_eq⟩ hone hmax hp
  refine ⟨c', w', ?_, hrep, ⟨?_, .inr hsame.2.2⟩, hput⟩
  · rw [RTPCircularCache.accept, setRtp_of_serves hs hssrc hlen, hstore]
    rfl
  · rw [hsame.1]
    exact hs.rate_ne

end Store

/-! ## Runs -/

section Run

variable {max : Nat} {c : RTPCircularCache} {ssrc : BitVec 32}

/-- A run of `set_rtp` calls succeeds, and the window it ends in is the run of its puts. -/
theorem run_puts (hone : 1 ≤ max) (hmax : max ≤ 0x7fff) (ps : List Rtp)
    (hlen : ∀ p ∈ ps, p.len ≤ maxRtpLen) (hssrc : ∀ p ∈ ps, p.ssrc = ssrc)
    {o : Option (SlotWindow max)} (h : Represents c o) (hs : c.Serves ssrc) :
    ∃ (c' : RTPCircularCache) (o' : Option (SlotWindow max)) (puts : List (FirstWins.Put Seq Rtp)),
      c.run ps = .ok c' ∧ c.putsOf ps = .ok puts ∧ Represents c' o' ∧
        windowOf o' = puts.foldl FirstWins.Window.put (windowOf o) := by
  induction ps generalizing c o with
  | nil => exact ⟨c, o, [], rfl, rfl, h, rfl⟩
  | cons p ps ih =>
    obtain ⟨c₁, w₁, haccept, hrep, hserves, hput⟩ := accept_put h hs hone hmax
      (hlen p List.mem_cons_self) (hssrc p List.mem_cons_self)
    obtain ⟨c', o', puts, hrun, hputs, hrep', hwin⟩ :=
      ih (fun q hq => hlen q (List.mem_cons_of_mem p hq))
        (fun q hq => hssrc q (List.mem_cons_of_mem p hq)) hrep hserves
    refine ⟨c', o', c.putOf c₁ p :: puts, ?_, ?_, hrep', ?_⟩
    · rw [RTPCircularCache.run, List.foldlM_cons, haccept]
      exact hrun
    · rw [RTPCircularCache.putsOf, haccept, ok_bind, hputs]
      rfl
    · rw [hwin, List.foldl_cons, ← hput]
      rfl

/-- An initialised cache stands for no window. -/
theorem init_represents (rate maxSize : BitVec 32) (hmax : maxSize.toNat ≤ 0x7fff) :
    Represents (RTPCircularCache.reset.init rate maxSize)
      (none : Option (SlotWindow maxSize.toNat)) := by
  refine ⟨rfl, ?_⟩
  show (maxSize.setWidth 16).toNat = maxSize.toNat
  rw [BitVec.toNat_setWidth, Nat.mod_eq_of_lt (by omega)]

/-- In every state a run of `set_rtp` calls reaches from an initialised cache the invariant holds,
and no call on the way fails an assertion. -/
theorem run_invariant (rate maxSize : BitVec 32) (hrate : rate ≠ 0) (hone : 1 ≤ maxSize.toNat)
    (hmax : maxSize.toNat ≤ 0x7fff) (hne : ssrc ≠ 0) (ps : List Rtp)
    (hlen : ∀ p ∈ ps, p.len ≤ maxRtpLen) (hssrc : ∀ p ∈ ps, p.ssrc = ssrc) :
    ∃ c, (RTPCircularCache.reset.init rate maxSize).run ps = .ok c ∧ c.Invariant := by
  obtain ⟨c, o, _, hrun, _, hrep, _⟩ := run_puts hone hmax ps hlen hssrc
    (init_represents rate maxSize hmax) ⟨hrate, .inl rfl⟩
  exact ⟨c, hrun, hrep.invariant⟩

theorem run_invariant_across_wrap :
    ∃ c, (RTPCircularCache.reset.init 90000 4).run
      [{ Rtp.zero with payload := RTP_AV_H264, seq := 65535, ssrc := 7, data := [1] },
        { Rtp.zero with payload := RTP_AV_H264, seq := 1, ssrc := 7, data := [2, 3] }] = .ok c ∧
      c.Invariant :=
  run_invariant 90000 4 (by decide) (by decide) (by decide) (show (7 : BitVec 32) ≠ 0 by decide) _
    (by decide) (by decide)

end Run

/-! ## Reading -/

section Get

variable {max : Nat} {c : RTPCircularCache} {w : SlotWindow max} {s : Seq}

/-- Inside the window `get_by_seq` reads the slot. -/
theorem getBySeq_of_covers (h : Represents c (some w)) (hmax : max ≤ 0x7fff)
    (hin : w.covers s = true) :
    c.getBySeq s = match w.slot s with
      | some q => .ok (some q, q.len, .statusSuccess)
      | none => .ok (none, 0, .rtpCacheNoThisSeq) := by
  have hlt : ahead w.front s < w.slots.length := of_decide_eq_true hin
  have hle := w.size_le
  have hfb := w.ahead_front_back hmax
  have hgt : seqGt s w.back = false := by
    rw [seqGt, Bool.and_eq_false_imp]
    intro hne
    have hback : ahead w.back s = 2 ^ 16 - ahead s w.back := ahead_comm (by simpa using hne)
    have hrest : ahead s w.back = ahead w.front w.back - ahead w.front s := ahead_sub (by omega)
    have hhalf : ¬ ahead w.back s < 0x8000 := by omega
    exact decide_eq_false fun hlt => hhalf (BitVec.lt_def.mp hlt)
  have hlow : seqLt s w.front = false := by
    rw [seqLt, Bool.and_eq_false_imp]
    intro hne
    have hfront : ahead s w.front = 2 ^ 16 - ahead w.front s :=
      ahead_comm fun heq => by simp [heq] at hne
    have hhalf : ¬ ahead s w.front < 0x8000 := by omega
    exact decide_eq_false fun hlt => hhalf (BitVec.lt_def.mp hlt)
  have hget : c.circularCache[(s - w.front).toNat]? =
      some (slotBlock (w.slots[ahead w.front s])) := by
    rw [h.getElem?]
    exact congrArg (Option.map slotBlock) (List.getElem?_eq_getElem hlt)
  simp only [RTPCircularCache.getBySeq, h.not_isEmpty, Bool.false_eq_true, ↓reduceIte,
    h.backSeq, h.frontSeq, ok_bind, hgt, hlow, hget, slotBlock_isValid, SlotWindow.slot,
    List.getElem?_eq_getElem hlt, Option.join_some]
  cases hslot : w.slots[ahead w.front s] with
  | none => rfl
  | some q =>
    have hseq : s = q.seq := by
      rw [w.numbered _ q ((List.getElem?_eq_getElem hlt).trans (congrArg some hslot)), add_ahead]
    simp only [Option.isSome_some, ↓reduceIte, slotBlock, RTPBlock.getSeq_holding, ok_bind,
      if_pos hseq, RTPBlock.get_holding]

/-- Outside the window, but within half a turn of one of its ends, `get_by_seq` gives null. -/
theorem getBySeq_of_not_covers (h : Represents c (some w)) (hmax : max ≤ 0x7fff)
    (hout : w.covers s = false) (hnear : ahead w.back s < 0x8000 ∨ ahead s w.front < 0x8000) :
    ∃ status, c.getBySeq s = .ok (none, 0, status) := by
  have hge : w.slots.length ≤ ahead w.front s := by
    simpa only [SlotWindow.covers, decide_eq_false_iff_not, Nat.not_lt] using hout
  have hpos := w.length_pos
  have hfb := w.ahead_front_back hmax
  have hneb : s ≠ w.back := by
    rintro rfl
    omega
  have hnef : s ≠ w.front := by
    rintro rfl
    rw [ahead_self] at hge
    omega
  simp only [RTPCircularCache.getBySeq, h.not_isEmpty, Bool.false_eq_true, ↓reduceIte,
    h.backSeq, h.frontSeq, ok_bind]
  cases hgt : seqGt s w.back with
  | true => exact ⟨_, rfl⟩
  | false =>
    have hlow : seqLt s w.front = true := by
      have hfront : ahead s w.front < 0x8000 := by
        refine hnear.resolve_left fun hback => ?_
        have : seqGt s w.back = true := by
          rw [seqGt, Bool.and_eq_true]
          exact ⟨bne_iff_ne.mpr hneb, decide_eq_true (BitVec.lt_def.mpr hback)⟩
        rw [this] at hgt
        cases hgt
      rw [seqLt, Bool.and_eq_true]
      exact ⟨bne_iff_ne.mpr hnef, decide_eq_true (BitVec.lt_def.mpr hfront)⟩
    simp only [hlow, Bool.false_eq_true, ↓reduceIte]
    exact ⟨_, rfl⟩

/-- After a run of `set_rtp` calls `get_by_seq` answers for a number of the current window with
the first packet stored for it since it entered the window, or that there is none, and for a
number outside it, within half a turn of one of its ends, with null. -/
theorem get_by_seq_first_stored (rate maxSize : BitVec 32) (hrate : rate ≠ 0)
    (hone : 1 ≤ maxSize.toNat) (hmax : maxSize.toNat ≤ 0x7fff) {ssrc : BitVec 32} (hne : ssrc ≠ 0)
    (ps : List Rtp) (hlen : ∀ p ∈ ps, p.len ≤ maxRtpLen) (hssrc : ∀ p ∈ ps, p.ssrc = ssrc) :
    ∃ (c : RTPCircularCache) (stored : Seq → List Rtp),
      (RTPCircularCache.reset.init rate maxSize).run ps = .ok c ∧
      (∀ s, (RTPCircularCache.reset.init rate maxSize).storedSince ps s = .ok (stored s)) ∧
      (∀ s, c.inWindow s = true → c.getBySeq s = match (stored s).head? with
        | some q => .ok (some q, q.len, .statusSuccess)
        | none => .ok (none, 0, .rtpCacheNoThisSeq)) ∧
      (∀ s, c.inWindow s = false →
        (∀ f b, c.frontSeq = .ok f → c.backSeq = .ok b →
          ahead b s < 0x8000 ∨ ahead s f < 0x8000) →
        ∃ status, c.getBySeq s = .ok (none, 0, status)) := by
  obtain ⟨c, o, puts, hrun, hputs, hrep, hwin⟩ := run_puts hone hmax ps hlen hssrc
    (init_represents rate maxSize hmax) ⟨hrate, .inl rfl⟩
  have hslot : ∀ s, (windowOf o).slot s = (FirstWins.log puts s).head? := by
    intro s
    rw [hwin]
    exact FirstWins.slot_run puts s
  refine ⟨c, FirstWins.log puts, hrun, ?_, ?_, ?_⟩
  · intro s
    rw [RTPCircularCache.storedSince, hputs]
    rfl
  · intro s hin
    cases o with
    | none =>
      rw [hrep.inWindow_none] at hin
      cases hin
    | some w =>
      rw [hrep.inWindow hmax] at hin
      rw [getBySeq_of_covers hrep hmax hin, ← hslot s]
      rfl
  · intro s hout hnear
    cases o with
    | none =>
      have hnil : c.circularCache = [] := hrep.deque_eq
      refine ⟨.rtpCacheCircularCacheEmpty, ?_⟩
      rw [RTPCircularCache.getBySeq, hnil]
      rfl
    | some w =>
      rw [hrep.inWindow hmax] at hout
      exact getBySeq_of_not_covers hrep hmax hout (hnear _ _ hrep.frontSeq hrep.backSeq)

theorem get_by_seq_first_stored_twice :
    ∃ (c : RTPCircularCache) (stored : Seq → List Rtp),
      (RTPCircularCache.reset.init 90000 4).run
        [{ Rtp.zero with payload := RTP_AV_H264, seq := 65535, ssrc := 7, data := [1] },
          { Rtp.zero with payload := RTP_AV_H264, seq := 65535, ssrc := 7, data := [2] }] =
          .ok c ∧
      (∀ s, (RTPCircularCache.reset.init 90000 4).storedSince
        [{ Rtp.zero with payload := RTP_AV_H264, seq := 65535, ssrc := 7, data := [1] },
          { Rtp.zero with payload := RTP_AV_H264, seq := 65535, ssrc := 7, data := [2] }] s =
          .ok (stored s)) ∧
      (∀ s, c.inWindow s = true → c.getBySeq s = match (stored s).head? with
        | some q => .ok (some q, q.len, .statusSuccess)
        | none => .ok (none, 0, .rtpCacheNoThisSeq)) ∧
      (∀ s, c.inWindow s = false →
        (∀ f b, c.frontSeq = .ok f → c.backSeq = .ok b →
          ahead b s < 0x8000 ∨ ahead s f < 0x8000) →
        ∃ status, c.getBySeq s = .ok (none, 0, status)) :=
  get_by_seq_first_stored 90000 4 (by decide) (by decide) (by decide)
    (show (7 : BitVec 32) ≠ 0 by decide) _ (by decide) (by decide)

end Get

end RtcMcu.MediaManager
