import RtcMcu.Fragment.RtpBlock
import RtcMcu.Lib.FirstWins
import RtcMcu.Lib.Serial

/-!
# Windows of slots

What the deque of an `RTPCircularCache` is for: a window of consecutive sequence numbers, each with
a packet or a hole, that begins and ends at a packet. The invariant is part of the type, so the
three ways a packet enters (`single`, `append`, `fill`) prove it where they build the new window.
Each is a put of the first-write-wins window of `Lib.FirstWins`.
-/

namespace RtcMcu.MediaManager

open RtcMcu.Avformat RtcMcu.Fragment RtcMcu.Serial

/-- A window of at most `max` slots, numbered from `front`. -/
structure SlotWindow (max : Nat) where
  front : Seq
  slots : List (Option Rtp)
  head_set : ∃ p, slots.head? = some (some p)
  last_set : ∃ p, slots.getLast? = some (some p)
  numbered : ∀ i p, slots[i]? = some (some p) → p.seq = front + BitVec.ofNat 16 i
  fits : ∀ p, some p ∈ slots → p.len ≤ maxRtpLen
  size_le : slots.length ≤ max

namespace SlotWindow

variable {max : Nat}

/-- The window covers a number that lies less than its size ahead of its front. -/
def covers (w : SlotWindow max) (s : Seq) : Bool := decide (ahead w.front s < w.slots.length)

/-- What the window holds for a number. -/
def slot (w : SlotWindow max) (s : Seq) : Option Rtp := (w.slots[ahead w.front s]?).join

/-- The newest number of the window. -/
def back (w : SlotWindow max) : Seq := w.front + BitVec.ofNat 16 (w.slots.length - 1)

/-- The window as a first-write-wins window. -/
def toWindow (w : SlotWindow max) : FirstWins.Window Seq Rtp :=
  { covers := w.covers, slot := w.slot }

theorem length_pos (w : SlotWindow max) : 0 < w.slots.length := by
  obtain ⟨p, hp⟩ := w.head_set
  cases hs : w.slots with
  | nil => rw [hs] at hp; cases hp
  | cons a l => exact Nat.succ_pos _

theorem slot_eq_none_of_not_covers {w : SlotWindow max} {s : Seq} (h : w.covers s = false) :
    w.slot s = none := by
  have hlen : w.slots.length ≤ ahead w.front s := by simpa [covers] using h
  simp only [slot, List.getElem?_eq_none hlen, Option.join_none]

/-- The first packet of the window carries its front number. -/
theorem head_seq (w : SlotWindow max) {p : Rtp} (h : w.slots.head? = some (some p)) :
    p.seq = w.front := by
  rw [List.head?_eq_getElem?] at h
  rw [w.numbered 0 p h]
  exact BitVec.add_zero _

/-- The last packet of the window carries its back number. -/
theorem last_seq (w : SlotWindow max) {p : Rtp} (h : w.slots.getLast? = some (some p)) :
    p.seq = w.back := by
  rw [List.getLast?_eq_getElem?] at h
  exact w.numbered _ p h

/-- The back lies one less than the size ahead of the front. -/
theorem ahead_front_back (w : SlotWindow max) (hmax : max ≤ 0x7fff) :
    ahead w.front w.back = w.slots.length - 1 := by
  have hle := w.size_le
  exact ahead_add_ofNat _ (by omega)

/-- A window covers its newest number. -/
theorem covers_back (w : SlotWindow max) (hmax : max ≤ 0x7fff) : w.covers w.back = true := by
  have hpos := w.length_pos
  refine decide_eq_true ?_
  rw [w.ahead_front_back hmax]
  omega

/-! ## One packet alone -/

/-- The window that holds one packet. -/
def single (p : Rtp) (hp : p.len ≤ maxRtpLen) (hmax : 1 ≤ max) : SlotWindow max where
  front := p.seq
  slots := [some p]
  head_set := ⟨p, rfl⟩
  last_set := ⟨p, rfl⟩
  numbered := by
    intro i q h
    cases i with
    | zero =>
      cases h
      exact (BitVec.add_zero _).symm
    | succ i => cases h
  fits := by
    intro q hq
    cases List.mem_singleton.mp hq
    exact hp
  size_le := hmax

/-- The window of one packet covers its number. -/
theorem single_covers (p : Rtp) (hp : p.len ≤ maxRtpLen) (hmax : 1 ≤ max) :
    (single p hp hmax).covers p.seq = true := by
  refine decide_eq_true ?_
  show ahead p.seq p.seq < 1
  rw [ahead_self]
  exact Nat.one_pos

/-- Starting over is a fresh put. -/
theorem single_put (w : FirstWins.Window Seq Rtp) (p : Rtp) (hp : p.len ≤ maxRtpLen)
    (hmax : 1 ≤ max) :
    (single p hp hmax).toWindow = w.put
      { key := p.seq, value := p, fresh := true, covers := (single p hp hmax).covers } := by
  simp only [toWindow, FirstWins.Window.put, FirstWins.Window.mk.injEq, true_and]
  funext s
  simp only [slot, covers, single, FirstWins.Window.kept, ↓reduceIte, List.length_singleton,
    Option.none_or]
  by_cases hs : p.seq = s
  · subst hs
    simp
  · have hne : ahead p.seq s ≠ 0 := fun h => hs (ahead_eq_zero.mp h)
    have hge : [some p].length ≤ ahead p.seq s := by
      rw [List.length_singleton]
      omega
    simp only [List.getElem?_eq_none hge, Option.join_none, if_neg hs, ite_self]

/-! ## Filling in -/

/-- The packet of a number inside the window takes the slot unless it is taken. -/
def fill (w : SlotWindow max) (p : Rtp) (hp : p.len ≤ maxRtpLen) : SlotWindow max where
  front := w.front
  slots := w.slots.modify (ahead w.front p.seq) fun o => o.or (some p)
  head_set := by
    obtain ⟨q, hq⟩ := w.head_set
    refine ⟨q, ?_⟩
    rw [List.head?_eq_getElem?] at hq ⊢
    simp only [List.getElem?_modify, hq]
    split <;> rfl
  last_set := by
    obtain ⟨q, hq⟩ := w.last_set
    refine ⟨q, ?_⟩
    rw [List.getLast?_eq_getElem?] at hq ⊢
    simp only [List.length_modify, List.getElem?_modify, hq]
    split <;> rfl
  numbered := by
    intro i q h
    simp only [List.getElem?_modify] at h
    obtain ⟨o, ho, hq⟩ := Option.map_eq_some_iff.mp h
    split at hq
    · next hi =>
      cases o with
      | none =>
        have hpq : p = q := Option.some.inj hq
        rw [← hpq, ← hi, add_ahead]
      | some r =>
        have hrq : r = q := Option.some.inj hq
        rw [← hrq]
        exact w.numbered i r ho
    · subst hq
      exact w.numbered i q ho
  fits := by
    intro q h
    obtain ⟨i, hi⟩ := List.mem_iff_getElem?.mp h
    simp only [List.getElem?_modify] at hi
    obtain ⟨o, ho, hq⟩ := Option.map_eq_some_iff.mp hi
    have hmem := List.mem_iff_getElem?.mpr ⟨i, ho⟩
    split at hq
    · cases o with
      | none =>
        have hpq : p = q := Option.some.inj hq
        rw [← hpq]
        exact hp
      | some r =>
        have hrq : r = q := Option.some.inj hq
        rw [← hrq]
        exact w.fits r hmem
    · subst hq
      exact w.fits q hmem
  size_le := by
    rw [List.length_modify]
    exact w.size_le

/-- Filling in leaves the coverage as it is. -/
theorem fill_covers (w : SlotWindow max) (p : Rtp) (hp : p.len ≤ maxRtpLen) (s : Seq) :
    (w.fill p hp).covers s = w.covers s := by
  simp only [covers, fill, List.length_modify]

/-- Filling in is a put. -/
theorem fill_put (w : SlotWindow max) (p : Rtp) (hp : p.len ≤ maxRtpLen)
    (hin : w.covers p.seq = true) :
    (w.fill p hp).toWindow = w.toWindow.put
      { key := p.seq, value := p, fresh := false, covers := (w.fill p hp).covers } := by
  have hin' : ahead w.front p.seq < w.slots.length := by simpa [covers] using hin
  simp only [toWindow, FirstWins.Window.put, FirstWins.Window.mk.injEq, true_and]
  funext s
  have hcov : (w.fill p hp).covers s = w.covers s := w.fill_covers p hp s
  simp only [FirstWins.Window.kept, hcov, Bool.false_eq_true, ↓reduceIte]
  cases hc : w.covers s with
  | false =>
    simp only [Bool.false_eq_true, ↓reduceIte]
    exact slot_eq_none_of_not_covers (hcov.trans hc)
  | true =>
    simp only [↓reduceIte]
    by_cases hs : p.seq = s
    · subst hs
      simp only [slot, fill, List.getElem?_modify, ↓reduceIte, List.getElem?_eq_getElem hin',
        Option.map_eq_map, Option.map_some, Option.join_some]
    · have hne : ahead w.front p.seq ≠ ahead w.front s := fun h => hs (ahead_inj.mp h)
      simp only [slot, fill, List.getElem?_modify, if_neg hne, if_neg hs, Option.or_none,
        Option.map_eq_map, Option.map_id']

/-! ## Appending -/

/-- The slots after a packet `d` ahead of the back is appended, before any goes. -/
def grown (w : SlotWindow max) (p : Rtp) (d : Nat) : List (Option Rtp) :=
  w.slots ++ List.replicate (d - 1) none ++ [some p]

/-- The oldest slots go until `max` are left, then the holes before the first packet. -/
def trimmed (max : Nat) (l : List (Option Rtp)) : List (Option Rtp) :=
  (l.drop (l.length - max)).dropWhile Option.isNone

theorem trimmed_eq_drop (max : Nat) (l : List (Option Rtp)) :
    trimmed max l = l.drop (l.length - (trimmed max l).length) :=
  List.suffix_iff_eq_drop.mp ((List.dropWhile_suffix _).trans (List.drop_suffix _ l))

theorem trimmed_length_le (max : Nat) (l : List (Option Rtp)) :
    (trimmed max l).length ≤ max ∧ (trimmed max l).length ≤ l.length := by
  have h := (List.dropWhile_suffix (l := l.drop (l.length - max)) Option.isNone).length_le
  rw [List.length_drop] at h
  unfold trimmed
  omega

/-- A list that ends in a packet still has it after trimming. -/
theorem trimmed_append (max : Nat) (hmax : 1 ≤ max) (l : List (Option Rtp)) (p : Rtp) :
    ∃ l', trimmed max (l ++ [some p]) = l' ++ [some p] := by
  have hk : (l ++ [some p]).length - max ≤ l.length := by
    rw [List.length_append, List.length_singleton]
    omega
  unfold trimmed
  rw [List.drop_append_of_le_length hk, List.dropWhile_append]
  split
  · exact ⟨[], rfl⟩
  · exact ⟨_, rfl⟩

/-- Nothing but a packet heads a trimmed list. -/
theorem trimmed_head (max : Nat) (l : List (Option Rtp)) :
    ∀ o, (trimmed max l).head? = some o → o ≠ none := by
  intro o ho hnone
  have h := List.head?_dropWhile_not Option.isNone (l.drop (l.length - max))
  unfold trimmed at ho
  rw [ho, hnone] at h
  exact absurd h (by decide)

theorem grown_length (w : SlotWindow max) (p : Rtp) {d : Nat} (hd : 0 < d) :
    (w.grown p d).length = w.slots.length + d := by
  simp only [grown, List.length_append, List.length_replicate, List.length_singleton]
  omega

/-- Every packet of the grown slots carries its number, the appended one too. -/
theorem grown_numbered (w : SlotWindow max) {p : Rtp} (hd : 0 < ahead w.back p.seq) {i : Nat}
    {q : Rtp} (h : (w.grown p (ahead w.back p.seq))[i]? = some (some q)) :
    q.seq = w.front + BitVec.ofNat 16 i := by
  have hpos := w.length_pos
  have hlen := grown_length w p hd
  rcases Nat.lt_trichotomy i (w.slots.length + (ahead w.back p.seq - 1)) with hi | hi | hi
  · have hi' : i < (w.slots ++ List.replicate (ahead w.back p.seq - 1) none).length := by
      rw [List.length_append, List.length_replicate]
      exact hi
    rw [grown, List.getElem?_append_left hi'] at h
    by_cases hold : i < w.slots.length
    · rw [List.getElem?_append_left hold] at h
      exact w.numbered i q h
    · rw [List.getElem?_append_right (Nat.le_of_not_lt hold), List.getElem?_replicate] at h
      split at h <;> cases h
  · have hi' : (w.slots ++ List.replicate (ahead w.back p.seq - 1) none).length = i := by
      rw [List.length_append, List.length_replicate, hi]
    rw [grown, List.getElem?_append_right (Nat.le_of_eq hi'), hi', Nat.sub_self] at h
    have hpq : p = q := Option.some.inj (Option.some.inj h)
    have hsum : i = (w.slots.length - 1) + ahead w.back p.seq := by omega
    rw [← hpq, hsum, BitVec.ofNat_add, ← BitVec.add_assoc]
    exact (add_ahead w.back p.seq).symm
  · rw [List.getElem?_eq_none (by omega)] at h
    cases h

/-- The packet of a number past the back is appended and the window moves on to it. -/
def append (w : SlotWindow max) (p : Rtp) (hp : p.len ≤ maxRtpLen)
    (hd : 0 < ahead w.back p.seq) : SlotWindow max where
  front := w.front + BitVec.ofNat 16 ((w.grown p (ahead w.back p.seq)).length -
    (trimmed max (w.grown p (ahead w.back p.seq))).length)
  slots := trimmed max (w.grown p (ahead w.back p.seq))
  head_set := by
    have hmax : 1 ≤ max := Nat.le_trans w.length_pos w.size_le
    obtain ⟨l, hl⟩ := trimmed_append max hmax
      (w.slots ++ List.replicate (ahead w.back p.seq - 1) none) p
    have hhead := trimmed_head max (w.grown p (ahead w.back p.seq))
    cases h : (trimmed max (w.grown p (ahead w.back p.seq))).head? with
    | none =>
      rw [grown, hl, List.head?_eq_none_iff] at h
      exact absurd h (List.append_ne_nil_of_right_ne_nil _ (List.cons_ne_nil _ _))
    | some o =>
      cases o with
      | none => exact absurd rfl (hhead none h)
      | some q => exact ⟨q, rfl⟩
  last_set := by
    have hmax : 1 ≤ max := Nat.le_trans w.length_pos w.size_le
    obtain ⟨l, hl⟩ := trimmed_append max hmax
      (w.slots ++ List.replicate (ahead w.back p.seq - 1) none) p
    refine ⟨p, ?_⟩
    rw [grown, hl, List.getLast?_append, List.getLast?_singleton, Option.some_or]
  numbered := by
    intro i q h
    rw [trimmed_eq_drop, List.getElem?_drop] at h
    rw [grown_numbered w hd h, BitVec.ofNat_add, BitVec.add_assoc]
  fits := by
    intro q h
    rw [trimmed_eq_drop] at h
    rcases List.mem_append.mp (List.mem_of_mem_drop h) with hq | hq
    · rcases List.mem_append.mp hq with hq | hq
      · exact w.fits q hq
      · cases List.eq_of_mem_replicate hq
    · have hqp : q = p := Option.some.inj (List.mem_singleton.mp hq)
      rw [hqp]
      exact hp
  size_le := (trimmed_length_le max _).1

/-- The appended packet is the newest of the window. -/
theorem append_covers (w : SlotWindow max) (p : Rtp) (hp : p.len ≤ maxRtpLen)
    (hd : 0 < ahead w.back p.seq) (hmax : max ≤ 0x7fff) :
    (w.append p hp hd).covers p.seq = true := by
  have hone : 1 ≤ max := Nat.le_trans w.length_pos w.size_le
  obtain ⟨l, hl⟩ := trimmed_append max hone
    (w.slots ++ List.replicate (ahead w.back p.seq - 1) none) p
  have hlast : (w.append p hp hd).slots.getLast? = some (some p) := by
    show (trimmed max (w.grown p (ahead w.back p.seq))).getLast? = some (some p)
    rw [grown, hl, List.getLast?_append, List.getLast?_singleton, Option.some_or]
  rw [last_seq _ hlast]
  exact covers_back _ hmax

/-- Appending is a put: what the window still covers stays, what it newly covers is free. -/
theorem append_put (w : SlotWindow max) (p : Rtp) (hp : p.len ≤ maxRtpLen)
    (hd : 0 < ahead w.back p.seq) (hlt : ahead w.back p.seq ≤ max) (hmax : max ≤ 0x7fff) :
    (w.append p hp hd).toWindow = w.toWindow.put
      { key := p.seq, value := p, fresh := false, covers := (w.append p hp hd).covers } := by
  have hsize := w.size_le
  have hpos := w.length_pos
  have hlen := grown_length w p hd
  have hle := (trimmed_length_le max (w.grown p (ahead w.back p.seq))).2
  have hpseq : ahead w.front p.seq = w.slots.length - 1 + ahead w.back p.seq := by
    rw [← ahead_front_back w hmax]
    exact ahead_trans (by rw [ahead_front_back w hmax]; omega)
  simp only [toWindow, FirstWins.Window.put, FirstWins.Window.mk.injEq, true_and]
  funext s
  simp only [FirstWins.Window.kept, Bool.false_eq_true, ↓reduceIte]
  cases hc : (w.append p hp hd).covers s with
  | false =>
    simp only [Bool.false_eq_true, ↓reduceIte]
    exact slot_eq_none_of_not_covers hc
  | true =>
    simp only [↓reduceIte]
    have hin : ahead (w.append p hp hd).front s
        < (trimmed max (w.grown p (ahead w.back p.seq))).length := of_decide_eq_true hc
    -- measured from the old front, the slot lies as many further on as slots went
    have hidx : ahead w.front s = (w.grown p (ahead w.back p.seq)).length -
        (trimmed max (w.grown p (ahead w.back p.seq))).length +
          ahead (w.append p hp hd).front s := by
      have hstep : ahead w.front (w.append p hp hd).front =
          (w.grown p (ahead w.back p.seq)).length -
            (trimmed max (w.grown p (ahead w.back p.seq))).length :=
        ahead_add_ofNat _ (by omega)
      rw [← hstep]
      exact ahead_trans (by rw [hstep]; omega)
    have hslot : (w.append p hp hd).slot s =
        ((w.grown p (ahead w.back p.seq))[ahead w.front s]?).join := by
      unfold slot
      rw [hidx, ← List.getElem?_drop, ← trimmed_eq_drop]
      rfl
    rw [hslot]
    by_cases hold : ahead w.front s < w.slots.length
    · have hne : p.seq ≠ s := by
        rintro rfl
        omega
      have hcov : w.covers s = true := decide_eq_true hold
      rw [if_neg hne, Option.or_none, if_pos hcov, grown, List.append_assoc,
        List.getElem?_append_left hold]
      rfl
    · have hcov : ¬ w.covers s = true := fun h => hold (of_decide_eq_true h)
      rw [if_neg hcov, Option.none_or, grown, List.append_assoc,
        List.getElem?_append_right (Nat.le_of_not_lt hold)]
      by_cases hs : p.seq = s
      · have hlast : ahead w.front s - w.slots.length =
            (List.replicate (ahead w.back p.seq - 1) (none : Option Rtp)).length := by
          rw [← hs, List.length_replicate]
          omega
        rw [if_pos hs, List.getElem?_append_right (Nat.le_of_eq hlast.symm), hlast, Nat.sub_self]
        rfl
      · have hne : ahead w.front s ≠ ahead w.front p.seq := fun h => hs (ahead_inj.mp h).symm
        have hhole : ahead w.front s - w.slots.length <
            (List.replicate (ahead w.back p.seq - 1) (none : Option Rtp)).length := by
          rw [List.length_replicate]
          omega
        rw [if_neg hs, List.getElem?_append_left hhole, List.getElem?_replicate]
        split <;> rfl

end SlotWindow

end RtcMcu.MediaManager
