import RtcMcu.Avcodec.H264

/-!
# The NAL units in a frame

The loops of `scanNals` walk a frame by positions. Here the units are said without them: cut at the
start codes (`codeUnits`), or laid out each behind a split code (`coded`) or behind its size
(`sized`). `scanCodes_codeUnits` and `scanSizes_sized` say that the loops visit exactly these units,
and `codeUnits_coded` that units without a start code in them are found again.
-/

namespace RtcMcu.Avcodec

open RtcMcu.Avformat (byteAt rdBe32 be32)
open RtcMcu.Coupling

/-! ## Bytes -/

theorem byteAt_drop (m : List Byte) (p i : Nat) : byteAt (m.drop p) i = byteAt m (p + i) := by
  simp only [byteAt, List.getD_eq_getElem?_getD, List.getElem?_drop]

theorem byteAt_append_right (m n : List Byte) (i : Nat) :
    byteAt (m ++ n) (m.length + i) = byteAt n i := by
  simp only [byteAt, List.getD_eq_getElem?_getD, List.getElem?_append_right (Nat.le_add_right _ _),
    Nat.add_sub_cancel_left]

/-- A NAL unit with these bytes. -/
def NalUnit.ofBytes (u : List Byte) : NalUnit := { header := u.headD 0, bytes := .ok u }

/-- A NAL unit with this header is a parameter set. -/
def isParameterSet (header : Byte) : Bool := nalType header == NAL_SPS || nalType header == NAL_PPS

/-- The units that are parameter sets. -/
def parameterSets (units : List (List Byte)) : List (List Byte) :=
  units.filter fun u => isParameterSet (u.headD 0)

/-- The units that are not. -/
def pictures (units : List (List Byte)) : List (List Byte) :=
  units.filter fun u => !isParameterSet (u.headD 0)

section Visit

variable {σ : Type}

/-- What a scan does with the units it finds. -/
def visitUnits (f : σ → NalUnit → Except Fault σ) (stop : σ → Bool) :
    List (List Byte) → σ → Except Fault σ
  | [], s => .ok s
  | u :: us, s => do
    let s ← f s (NalUnit.ofBytes u)
    if stop s then .ok s else visitUnits f stop us s

/-- Visits whose units keep a relation, and stop alike, keep it. -/
theorem visitUnits_coupled {f : σ → NalUnit → Except Fault σ} {stop : σ → Bool} {R : σ → σ → Prop}
    (hf : ∀ s t nal, R s t → Coupled (fun _ => True) R (f s nal) (f t nal))
    (hstop : ∀ s t, R s t → stop s = stop t) (units : List (List Byte)) {s t : σ} (h : R s t) :
    Coupled (fun _ => True) R (visitUnits f stop units s) (visitUnits f stop units t) := by
  induction units generalizing s t with
  | nil => exact h
  | cons u us ih =>
    refine Coupled.bind (hf s t _ h) fun s' t' h' => ?_
    rw [hstop s' t' h']
    exact Coupled.ite (fun _ => h') fun _ => ih h'

end Visit

/-! ## Start codes -/

/-- The bytes `0 0 1` with a byte behind them. -/
def startsShort (m : List Byte) : Bool :=
  decide (3 < m.length) && (byteAt m 0 == 0 && byteAt m 1 == 0 && byteAt m 2 == 1)

/-- A start code, of three bytes or of four. -/
def startsCode (m : List Byte) : Bool :=
  startsShort m || (byteAt m 0 == 0 && startsShort (m.drop 1))

/-- The bytes before the next start code, and the bytes from it on. -/
def cutUnit : List Byte → List Byte × List Byte
  | [] => ([], [])
  | b :: m =>
    if startsCode (b :: m) then ([], b :: m)
    else (b :: (cutUnit m).1, (cutUnit m).2)

/-- The units behind the start codes of a memory image that begins with one. A code is not empty, so
the fuel is the length. -/
def cutUnits : Nat → List Byte → List (List Byte)
  | 0, _ => []
  | fuel + 1, m =>
    if m = [] then []
    else
      let r := cutUnit (m.drop (behindZeros m 0))
      r.1 :: cutUnits fuel r.2

/-- The NAL units of a memory image: what lies behind its start codes. -/
def codeUnits (m : List Byte) : List (List Byte) := cutUnits m.length (cutUnit m).2

theorem startsShort_iff {m : List Byte} :
    startsShort m = true ↔ ∃ c rest, m = 0 :: 0 :: 1 :: c :: rest := by
  constructor
  · intro h
    obtain ⟨hlen, hbytes⟩ := Bool.and_eq_true_iff.mp h
    match m, of_decide_eq_true hlen with
    | a :: b :: d :: c :: rest, _ =>
      simp only [byteAt, List.getD_cons_zero, List.getD_cons_succ, Bool.and_eq_true, beq_iff_eq]
        at hbytes
      obtain ⟨⟨rfl, rfl⟩, rfl⟩ := hbytes
      exact ⟨c, rest, rfl⟩
  · rintro ⟨c, rest, rfl⟩
    refine Bool.and_eq_true_iff.mpr ⟨decide_eq_true ?_, rfl⟩
    show 3 < rest.length + 1 + 1 + 1 + 1
    omega

theorem startsCode_iff {m : List Byte} :
    startsCode m = true ↔
      (∃ c rest, m = 0 :: 0 :: 1 :: c :: rest) ∨ ∃ c rest, m = 0 :: 0 :: 0 :: 1 :: c :: rest := by
  unfold startsCode
  rw [Bool.or_eq_true, startsShort_iff, Bool.and_eq_true, startsShort_iff, beq_iff_eq]
  refine or_congr_right ⟨?_, ?_⟩
  · rintro ⟨hzero, c, rest, hrest⟩
    cases m with
    | nil => cases hrest
    | cons b m =>
      have hb : b = 0 := hzero
      have hm : m = 0 :: 0 :: 1 :: c :: rest := hrest
      exact ⟨c, rest, by rw [hb, hm]⟩
  · rintro ⟨c, rest, rfl⟩
    exact ⟨rfl, c, rest, rfl⟩

theorem cutUnit_append (m : List Byte) : (cutUnit m).1 ++ (cutUnit m).2 = m := by
  induction m with
  | nil => rfl
  | cons b m ih =>
    unfold cutUnit
    split
    · rfl
    · rw [List.cons_append, ih]

theorem drop_cutUnit (m : List Byte) : m.drop (cutUnit m).1.length = (cutUnit m).2 := by
  have hleft : ((cutUnit m).1 ++ (cutUnit m).2).drop (cutUnit m).1.length = (cutUnit m).2 :=
    List.drop_left
  rwa [cutUnit_append] at hleft

/-- What is left begins with a start code, or nothing is left. -/
theorem cutUnit_rest (m : List Byte) : (cutUnit m).2 = [] ∨ startsCode (cutUnit m).2 = true := by
  induction m with
  | nil => exact .inl rfl
  | cons b m ih =>
    unfold cutUnit
    split
    case isTrue h => exact .inr h
    case isFalse => exact ih

theorem cutUnit_of_startsCode {m : List Byte} (h : startsCode m = true) : cutUnit m = ([], m) := by
  cases m with
  | nil => rfl
  | cons b m => rw [cutUnit, if_pos h]

/-- In front of the cut there is no start code. -/
theorem not_startsCode_cutUnit (m : List Byte) :
    ∀ i < (cutUnit m).1.length, startsCode (m.drop i) = false := by
  induction m with
  | nil => exact fun i hi => absurd hi (Nat.not_lt_zero i)
  | cons b m ih =>
    unfold cutUnit
    split
    case isTrue => exact fun i hi => absurd hi (Nat.not_lt_zero i)
    case isFalse hno =>
      intro i hi
      cases i with
      | zero => exact Bool.eq_false_iff.mpr hno
      | succ i => exact ih i (Nat.lt_of_succ_lt_succ hi)

/-! ## Positions -/

/-- `j` is the first position from `p` on where a start code stands, or the end. -/
structure FirstCode (m : List Byte) (p j : Nat) : Prop where
  lower : p ≤ j
  upper : j ≤ m.length
  none : ∀ i, p ≤ i → i < j → startsCode (m.drop i) = false
  code : j = m.length ∨ startsCode (m.drop j) = true

theorem FirstCode.unique {m : List Byte} {p i j : Nat} (hi : FirstCode m p i)
    (hj : FirstCode m p j) : i = j := by
  have hlt : ∀ {i j : Nat}, FirstCode m p i → FirstCode m p j → ¬ i < j := by
    intro i j hi hj hij
    rcases hi.code with hend | hcode
    · have hup := hj.upper
      omega
    · rw [hj.none i hi.lower hij] at hcode
      cases hcode
  have h₁ := hlt hi hj
  have h₂ := hlt hj hi
  omega

theorem firstCode_cutUnit {m : List Byte} {p : Nat} (hp : p ≤ m.length) :
    FirstCode m p (p + (cutUnit (m.drop p)).1.length) := by
  have happend := cutUnit_append (m.drop p)
  have hlen := congrArg List.length happend
  rw [List.length_append, List.length_drop] at hlen
  refine ⟨Nat.le_add_right _ _, by omega, fun i hpi hi => ?_, ?_⟩
  · have hno := not_startsCode_cutUnit (m.drop p) (i - p) (by omega)
    rwa [List.drop_drop, Nat.add_sub_cancel' hpi] at hno
  · have hdrop := drop_cutUnit (m.drop p)
    rw [List.drop_drop] at hdrop
    rcases cutUnit_rest (m.drop p) with hnil | hcode
    · rw [hnil, List.length_nil] at hlen
      left
      omega
    · right
      rw [hdrop]
      exact hcode

theorem startsShort_drop (m : List Byte) (i : Nat) :
    startsShort (m.drop i) = (decide (i + 3 < m.length) &&
      (byteAt m i == 0 && byteAt m (i + 1) == 0 && byteAt m (i + 2) == 1)) := by
  unfold startsShort
  rw [byteAt_drop, byteAt_drop, byteAt_drop, List.length_drop, Nat.add_zero]
  congr 1
  exact decide_eq_decide.mpr (by omega)

/-- `ff_avc_find_startcode_internal` finds the first code of three bytes. -/
theorem findStartcodeInternal_spec (m : List Byte) (p : Nat) (hp : p ≤ m.length) :
    (findStartcodeInternal m p = m.length ∧ ∀ i, p ≤ i → startsShort (m.drop i) = false) ∨
      (p ≤ findStartcodeInternal m p ∧ findStartcodeInternal m p < m.length ∧
        startsShort (m.drop (findStartcodeInternal m p)) = true ∧
        ∀ i, p ≤ i → i < findStartcodeInternal m p → startsShort (m.drop i) = false) := by
  have hshort : ∀ i, p ≤ i → ¬ i - p < m.length - 3 - p → startsShort (m.drop i) = false := by
    intro i hpi hi
    rw [startsShort_drop, decide_eq_false (by omega), Bool.false_and]
  unfold findStartcodeInternal
  rw [List.find?_map]
  cases hfind : (List.range (m.length - 3 - p)).find? _ with
  | none =>
    left
    refine ⟨rfl, fun i hpi => ?_⟩
    by_cases hi : i - p < m.length - 3 - p
    case neg => exact hshort i hpi hi
    case pos =>
      have hno := List.find?_range_eq_none.mp hfind (i - p) hi
      simp only [Function.comp_apply, Nat.add_sub_cancel' hpi, Bool.not_eq_true'] at hno
      rw [startsShort_drop, hno, Bool.and_false]
  | some k =>
    right
    obtain ⟨hk, hmem, hbefore⟩ := List.find?_range_eq_some.mp hfind
    have hlt := List.mem_range.mp hmem
    simp only [Function.comp_apply] at hk
    simp only [Option.map_some, Option.getD_some]
    refine ⟨Nat.le_add_right _ _, by omega, ?_, fun i hpi hi => ?_⟩
    · rw [startsShort_drop, hk, decide_eq_true (by omega), Bool.true_and]
    · have hno := hbefore (i - p) (by omega)
      simp only [Function.comp_apply, Nat.add_sub_cancel' hpi, Bool.not_eq_true'] at hno
      rw [startsShort_drop, hno, Bool.and_false]

theorem startsCode_drop (m : List Byte) (i : Nat) :
    startsCode (m.drop i) =
      (startsShort (m.drop i) || (byteAt m i == 0 && startsShort (m.drop (i + 1)))) := by
  unfold startsCode
  rw [byteAt_drop, Nat.add_zero, List.drop_drop]

/-- `ff_avc_find_startcode` finds the first code of three bytes or of four. -/
theorem firstCode_findStartcode {m : List Byte} {p : Nat} (hp : p ≤ m.length) :
    FirstCode m p (findStartcode m p) := by
  unfold findStartcode
  rcases findStartcodeInternal_spec m p hp with ⟨hend, hno⟩ | ⟨hlow, hhigh, hcode, hno⟩
  case inl =>
    dsimp only
    rw [hend, if_neg (by omega)]
    refine ⟨hp, Nat.le_refl _, fun i hpi _ => ?_, .inl rfl⟩
    rw [startsCode_drop, hno i hpi, hno (i + 1) (by omega), Bool.and_false, Bool.or_false]
  case inr =>
    dsimp only
    generalize findStartcodeInternal m p = out at hlow hhigh hcode hno ⊢
    split
    case isTrue h =>
      obtain ⟨hlt, -, hzero⟩ := h
      refine ⟨by omega, by omega, fun i hpi hi => ?_, .inr ?_⟩
      · rw [startsCode_drop, hno i hpi (by omega), hno (i + 1) (by omega) (by omega),
          Bool.and_false, Bool.or_false]
      · rw [startsCode_drop, hzero, Nat.sub_add_cancel (by omega), hcode]
        exact Bool.or_true _
    case isFalse h =>
      refine ⟨hlow, Nat.le_of_lt hhigh, fun i hpi hi => ?_, .inr ?_⟩
      · rw [startsCode_drop, hno i hpi hi, Bool.false_or, Bool.and_eq_false_iff]
        by_cases hnext : i + 1 = out
        case pos =>
          left
          rw [beq_eq_false_iff_ne]
          intro hzero
          refine h ⟨by omega, hhigh, ?_⟩
          rw [← hnext, Nat.add_sub_cancel]
          exact hzero
        case neg => exact .inr (hno (i + 1) (by omega) (by omega))
      · rw [startsCode_drop, hcode, Bool.true_or]

theorem findStartcode_eq {m : List Byte} {p : Nat} (hp : p ≤ m.length) :
    findStartcode m p = p + (cutUnit (m.drop p)).1.length :=
  (firstCode_findStartcode hp).unique (firstCode_cutUnit hp)

/-! ## The loop over start codes -/

theorem behindZeros_eq (m : List Byte) (r : Nat) :
    behindZeros m r = r + behindZeros (m.drop r) 0 := by
  unfold behindZeros
  rw [List.drop_zero]
  omega

/-- A start code has a byte behind it. -/
theorem behindZeros_lt {m : List Byte} (h : startsCode m = true) : behindZeros m 0 < m.length := by
  rcases startsCode_iff.mp h with ⟨c, rest, rfl⟩ | ⟨c, rest, rfl⟩
  · show 3 < rest.length + 1 + 1 + 1 + 1
    omega
  · show 4 < rest.length + 1 + 1 + 1 + 1 + 1
    omega

/-- What the loop reads between two start codes. -/
theorem unit_at {m : List Byte} {start : Nat} (hlt : start < m.length) :
    ({ header := byteAt m start
       bytes := slice m start (findStartcode m start - start) } : NalUnit) =
      NalUnit.ofBytes (cutUnit (m.drop start)).1 := by
  have happend := cutUnit_append (m.drop start)
  have hlen := congrArg List.length happend
  rw [List.length_append, List.length_drop] at hlen
  have hheader : byteAt m start = (cutUnit (m.drop start)).1.headD 0 := by
    have hzero := byteAt_drop m start 0
    rw [Nat.add_zero] at hzero
    rw [← hzero]
    rcases hcut : cutUnit (m.drop start) with ⟨unit, rest⟩
    rw [hcut] at happend hlen
    dsimp only at happend hlen ⊢
    cases unit with
    | cons b unit =>
      rw [← happend]
      rfl
    | nil =>
      -- an empty unit: the byte read is the first one of the next start code
      have hrest := cutUnit_rest (m.drop start)
      rw [hcut] at hrest
      rcases hrest with hnil | hcode
      · dsimp only at hnil
        rw [hnil, List.length_nil] at hlen
        omega
      · rw [← happend]
        rcases startsCode_iff.mp hcode with ⟨c, rest', heq⟩ | ⟨c, rest', heq⟩
        · dsimp only at heq
          rw [heq]
          rfl
        · dsimp only at heq
          rw [heq]
          rfl
  have hbytes : slice m start (findStartcode m start - start) =
      .ok (cutUnit (m.drop start)).1 := by
    rw [findStartcode_eq (Nat.le_of_lt hlt), Nat.add_sub_cancel_left, slice, if_pos (by omega)]
    have htake : ((cutUnit (m.drop start)).1 ++ (cutUnit (m.drop start)).2).take
        (cutUnit (m.drop start)).1.length = (cutUnit (m.drop start)).1 := List.take_left
    rw [happend] at htake
    rw [htake]
  rw [hheader, hbytes]
  rfl

section Visit

variable {σ : Type} {f : σ → NalUnit → Except Fault σ} {stop : σ → Bool}

theorem scanCodes_cutUnits (m : List Byte) (fuel : Nat) :
    ∀ (r : Nat) (s : σ), m.drop r = [] ∨ startsCode (m.drop r) = true →
      scanCodes m f stop fuel r s = visitUnits f stop (cutUnits fuel (m.drop r)) s := by
  induction fuel with
  | zero => exact fun _ _ _ => rfl
  | succ fuel ih =>
    intro r s hat
    unfold scanCodes cutUnits
    by_cases hlt : r < m.length
    case neg =>
      have hnil : m.drop r = [] := List.drop_eq_nil_of_le (Nat.le_of_not_lt hlt)
      rw [if_neg hlt, if_pos hnil]
      rfl
    case pos =>
      have hne : m.drop r ≠ [] := by
        intro hnil
        have hle := List.drop_eq_nil_iff.mp hnil
        omega
      have hcode := hat.resolve_left hne
      have hstart : behindZeros m r < m.length := by
        have hbehind := behindZeros_lt hcode
        rw [List.length_drop] at hbehind
        rw [behindZeros_eq]
        omega
      have hdrop : (m.drop r).drop (behindZeros (m.drop r) 0) = m.drop (behindZeros m r) := by
        rw [List.drop_drop, ← behindZeros_eq]
      rw [if_pos hlt, if_neg hne]
      dsimp only
      rw [hdrop, unit_at hstart, visitUnits]
      have hnext : m.drop (findStartcode m (behindZeros m r)) =
          (cutUnit (m.drop (behindZeros m r))).2 := by
        rw [findStartcode_eq (Nat.le_of_lt hstart), ← List.drop_drop, drop_cutUnit]
      congr 1
      funext s'
      split
      · rfl
      · rw [ih _ s' (hnext ▸ cutUnit_rest _), hnext]

/-- The loop from the first start code on visits the units behind the start codes. -/
theorem scanCodes_codeUnits (m : List Byte) (s : σ) :
    scanCodes m f stop m.length (findStartcode m 0) s = visitUnits f stop (codeUnits m) s := by
  have hdrop : m.drop (findStartcode m 0) = (cutUnit m).2 := by
    rw [findStartcode_eq (Nat.zero_le _), List.drop_zero, Nat.zero_add, drop_cutUnit]
  rw [scanCodes_cutUnits m m.length _ s (hdrop ▸ cutUnit_rest m), hdrop]
  rfl

/-- A frame that starts with a split code is cut at its start codes. -/
theorem scanNals_codes {m : List Byte} (h : startsWithCode m = true) (s : σ) :
    scanNals m f stop s = visitUnits f stop (codeUnits m) s := by
  rw [scanNals, if_pos h, scanCodes_codeUnits]

end Visit

/-! ## Units behind split codes -/

/-- The units, each behind a split code. -/
def coded (units : List (List Byte)) : List Byte := units.flatMap (h264SplitCode ++ ·)

/-- The unit is not empty, and there is no start code in it. -/
structure Uncoded (u : List Byte) : Prop where
  ne_nil : u ≠ []
  no_code : ¬ [0, 0, 1] <:+: u

theorem startsCode_coded {units : List (List Byte)} (hne : units ≠ [])
    (h : ∀ u ∈ units, u ≠ []) : startsCode (coded units) = true := by
  obtain ⟨u, us, rfl⟩ := List.exists_cons_of_ne_nil hne
  obtain ⟨b, u, rfl⟩ := List.exists_cons_of_ne_nil (h u List.mem_cons_self)
  refine startsCode_iff.mpr (.inr ⟨b, u ++ coded us, ?_⟩)
  rfl

/-- A start code that begins in a unit, with a split code or the end behind the unit, lies in the
unit. -/
theorem not_startsCode_append {b : Byte} {u n : List Byte} (hno : ¬ [0, 0, 1] <:+: b :: u)
    (hn : n = [] ∨ ∃ rest, n = h264SplitCode ++ rest) : startsCode (b :: (u ++ n)) = false := by
  rw [Bool.eq_false_iff]
  intro hcode
  have hsplit : ∀ {x : Byte} {t : List Byte}, n = x :: t → x = 0 ∧ ∃ t', t = 0 :: 0 :: 1 :: t' := by
    intro x t hnt
    rcases hn with hnil | ⟨rest, hrest⟩
    · rw [hnil] at hnt
      cases hnt
    · rw [hrest] at hnt
      cases hnt
      exact ⟨rfl, rest, rfl⟩
  rcases startsCode_iff.mp hcode with ⟨c, rest, heq⟩ | ⟨c, rest, heq⟩
  · match u, heq with
    | [], heq =>
      obtain ⟨-, t', ht⟩ := hsplit (List.cons.inj heq).2
      cases ht
    | [x], heq =>
      obtain ⟨hone, -⟩ := hsplit (List.cons.inj (List.cons.inj heq).2).2
      cases hone
    | x :: y :: u, heq =>
      simp only [List.cons_append, List.cons.injEq] at heq
      obtain ⟨rfl, rfl, rfl, -⟩ := heq
      exact hno ⟨[], u, rfl⟩
  · match u, heq with
    | [], heq =>
      obtain ⟨-, t', ht⟩ := hsplit (List.cons.inj heq).2
      cases ht
    | [x], heq =>
      obtain ⟨-, t', ht⟩ := hsplit (List.cons.inj (List.cons.inj heq).2).2
      cases ht
    | [x, y], heq =>
      obtain ⟨hone, -⟩ := hsplit (List.cons.inj (List.cons.inj (List.cons.inj heq).2).2).2
      cases hone
    | x :: y :: z :: u, heq =>
      simp only [List.cons_append, List.cons.injEq] at heq
      obtain ⟨rfl, rfl, rfl, rfl, -⟩ := heq
      exact hno ⟨[0], u, rfl⟩

/-- A unit without a start code is cut off whole. -/
theorem cutUnit_unit {u n : List Byte} (hno : ¬ [0, 0, 1] <:+: u)
    (hn : n = [] ∨ ∃ rest, n = h264SplitCode ++ rest) (hcode : n = [] ∨ startsCode n = true) :
    cutUnit (u ++ n) = (u, n) := by
  induction u with
  | nil =>
    rcases hcode with rfl | hcode
    · rfl
    · exact cutUnit_of_startsCode hcode
  | cons b u ih =>
    have hno' : ¬ [0, 0, 1] <:+: u := fun h => hno (h.trans (List.suffix_cons b u).isInfix)
    rw [List.cons_append, cutUnit, if_neg (by rw [not_startsCode_append hno hn]; decide), ih hno']

theorem cutUnits_coded {units : List (List Byte)} (h : ∀ u ∈ units, Uncoded u) {fuel : Nat}
    (hfuel : units.length ≤ fuel) : cutUnits fuel (coded units) = units := by
  induction units generalizing fuel with
  | nil =>
    cases fuel with
    | zero => rfl
    | succ fuel => rfl
  | cons u us ih =>
    cases fuel with
    | zero => cases hfuel
    | succ fuel =>
      have hus : ∀ u ∈ us, Uncoded u := fun v hv => h v (List.mem_cons_of_mem u hv)
      have hcode : coded us = [] ∨ startsCode (coded us) = true := by
        by_cases hnil : us = []
        · exact .inl (by rw [hnil]; rfl)
        · exact .inr (startsCode_coded hnil fun v hv => (hus v hv).ne_nil)
      have hsplit : coded us = [] ∨ ∃ rest, coded us = h264SplitCode ++ rest := by
        cases us with
        | nil => exact .inl rfl
        | cons v us => exact .inr ⟨v ++ coded us, List.append_assoc _ _ _⟩
      have hcut := cutUnit_unit (h u List.mem_cons_self).no_code hsplit hcode
      have hdrop : (coded (u :: us)).drop (behindZeros (coded (u :: us)) 0) = u ++ coded us := rfl
      have hne : coded (u :: us) ≠ [] := List.cons_ne_nil _ _
      rw [cutUnits, if_neg hne, hdrop]
      dsimp only
      rw [hcut, ih hus (Nat.le_of_succ_le_succ hfuel)]

theorem length_coded (units : List (List Byte)) : units.length ≤ (coded units).length := by
  induction units with
  | nil => exact Nat.le_refl _
  | cons u us ih =>
    rw [coded, List.flatMap_cons, List.length_append, List.length_append, List.length_cons]
    rw [coded] at ih
    have hfour : h264SplitCode.length = 4 := rfl
    omega

/-- Units without start codes are the units of the memory they are laid out in. -/
theorem codeUnits_coded {units : List (List Byte)} (h : ∀ u ∈ units, Uncoded u) :
    codeUnits (coded units) = units := by
  have hcut : cutUnit (coded units) = ([], coded units) := by
    by_cases hnil : units = []
    · rw [hnil]
      rfl
    · exact cutUnit_of_startsCode (startsCode_coded hnil fun u hu => (h u hu).ne_nil)
  rw [codeUnits, hcut]
  exact cutUnits_coded h (length_coded units)

theorem startsWithCode_coded {units : List (List Byte)} (hne : units ≠ []) :
    startsWithCode (coded units) = true := by
  obtain ⟨u, us, rfl⟩ := List.exists_cons_of_ne_nil hne
  rfl

/-! ## Units behind their sizes -/

/-- The units, each behind its size in four bytes. -/
def sized (units : List (List Byte)) : List Byte :=
  units.flatMap fun u => be32 (BitVec.ofNat 32 u.length) ++ u

/-- The unit is not empty, and its size fits into four bytes. -/
structure Sizable (u : List Byte) : Prop where
  ne_nil : u ≠ []
  length_lt : u.length < 2 ^ 32

theorem rdBe32_be32 (x : BitVec 32) (pre m : List Byte) :
    rdBe32 (pre ++ (be32 x ++ m)) pre.length = x := by
  have hbytes : ∀ i < 4, byteAt (pre ++ (be32 x ++ m)) (pre.length + i) = byteAt (be32 x ++ m) i :=
    fun i _ => byteAt_append_right pre (be32 x ++ m) i
  have hzero := hbytes 0 (by decide)
  rw [Nat.add_zero] at hzero
  rw [rdBe32, hzero, hbytes 1 (by decide), hbytes 2 (by decide), hbytes 3 (by decide)]
  show x.extractLsb' 24 8 ++ x.extractLsb' 16 8 ++ x.extractLsb' 8 8 ++ x.extractLsb' 0 8 = x
  have h₁ : x.extractLsb' 24 8 ++ x.extractLsb' 16 8 = x.extractLsb' 16 16 :=
    BitVec.extractLsb'_append_extractLsb'_eq_extractLsb' rfl
  have h₂ : x.extractLsb' 16 16 ++ x.extractLsb' 8 8 = x.extractLsb' 8 24 :=
    BitVec.extractLsb'_append_extractLsb'_eq_extractLsb' rfl
  have h₃ : x.extractLsb' 8 24 ++ x.extractLsb' 0 8 = x.extractLsb' 0 32 :=
    BitVec.extractLsb'_append_extractLsb'_eq_extractLsb' rfl
  rw [h₁, h₂, h₃, BitVec.extractLsb'_eq_self]

section Visit

variable {σ : Type} {f : σ → NalUnit → Except Fault σ} {stop : σ → Bool}

/-- The loop over sizes visits the units behind them. -/
theorem scanSizes_sized (units : List (List Byte)) (h : ∀ u ∈ units, Sizable u) :
    ∀ (pre : List Byte) (fuel : Nat) (s : σ), units.length ≤ fuel →
      scanSizes (pre ++ sized units) f stop fuel pre.length s = visitUnits f stop units s := by
  induction units with
  | nil =>
    intro pre fuel s _
    cases fuel with
    | zero => rfl
    | succ fuel =>
      have hend : ¬ pre.length < (pre ++ sized []).length := by
        show ¬ pre.length < (pre ++ []).length
        rw [List.append_nil]
        exact Nat.lt_irrefl _
      rw [scanSizes, if_neg hend]
      rfl
  | cons u us ih =>
    intro pre fuel s hfuel
    cases fuel with
    | zero => cases hfuel
    | succ fuel =>
      have hu := h u List.mem_cons_self
      have hpos : 0 < u.length := List.length_pos_iff.mpr hu.ne_nil
      have hlt := hu.length_lt
      have hsized : pre ++ sized (u :: us) =
          pre ++ (be32 (BitVec.ofNat 32 u.length) ++ (u ++ sized us)) := by
        rw [sized, List.flatMap_cons, List.append_assoc]
        rfl
      have hfour : (be32 (BitVec.ofNat 32 u.length)).length = 4 := rfl
      have hsize : (rdBe32 (pre ++ sized (u :: us)) pre.length).toNat = u.length := by
        rw [hsized, rdBe32_be32, BitVec.toNat_ofNat, Nat.mod_eq_of_lt hlt]
      have hlen : (pre ++ sized (u :: us)).length =
          pre.length + 4 + u.length + (sized us).length := by
        rw [hsized, List.length_append, List.length_append, List.length_append, hfour]
        omega
      have hunit : pre ++ sized (u :: us) =
          (pre ++ be32 (BitVec.ofNat 32 u.length)) ++ (u ++ sized us) := by
        rw [hsized, List.append_assoc]
      have hplace : (pre ++ be32 (BitVec.ofNat 32 u.length)).length = pre.length + 4 := by
        rw [List.length_append, hfour]
      have hheader : byteAt (pre ++ sized (u :: us)) (pre.length + 4) = u.headD 0 := by
        have hbyte := byteAt_append_right (pre ++ be32 (BitVec.ofNat 32 u.length)) (u ++ sized us) 0
        rw [hplace, Nat.add_zero] at hbyte
        rw [hunit, hbyte]
        obtain ⟨b, u, rfl⟩ := List.exists_cons_of_ne_nil hu.ne_nil
        rfl
      have hbytes : slice (pre ++ sized (u :: us)) (pre.length + 4) u.length = .ok u := by
        rw [slice, if_pos (by omega), hunit, ← hplace, List.drop_left, List.take_left]
      rw [scanSizes, if_pos (by omega), if_neg (by omega)]
      dsimp only
      rw [hsize, if_neg (by omega), if_neg (by omega), hheader, hbytes, visitUnits]
      show (f s (NalUnit.ofBytes u) >>= _) = _
      congr 1
      funext s'
      split
      · rfl
      · have hrest := ih (fun v hv => h v (List.mem_cons_of_mem u hv))
          (pre ++ be32 (BitVec.ofNat 32 u.length) ++ u) fuel s' (Nat.le_of_succ_le_succ hfuel)
        rw [List.length_append, hplace, List.append_assoc, ← hunit] at hrest
        exact hrest

/-- A frame of sized units is not taken for one with start codes unless its first unit has one
byte. -/
theorem startsWithCode_sized {u : List Byte} (us : List (List Byte)) (hlt : u.length < 2 ^ 32) :
    startsWithCode (sized (u :: us)) = decide (u.length = 1) := by
  have hbytes : ∀ x : BitVec 32, (x.extractLsb' 24 8 == 0 && x.extractLsb' 16 8 == 0 &&
      x.extractLsb' 8 8 == 0 && x.extractLsb' 0 8 == 1) = decide (x = 1) := by
    intro x
    have hread := rdBe32_be32 x [] []
    rw [Bool.eq_iff_iff]
    simp only [Bool.and_eq_true, beq_iff_eq, decide_eq_true_eq]
    constructor
    · rintro ⟨⟨⟨h₁, h₂⟩, h₃⟩, h₄⟩
      have hx : x = x.extractLsb' 24 8 ++ x.extractLsb' 16 8 ++ x.extractLsb' 8 8 ++
          x.extractLsb' 0 8 := hread.symm
      rw [h₁, h₂, h₃, h₄] at hx
      exact hx
    · rintro rfl
      decide
  show (_ && _ && _ && _) = _
  have hone : (BitVec.ofNat 32 u.length = 1) ↔ u.length = 1 := by
    rw [← BitVec.toNat_inj, BitVec.toNat_ofNat, Nat.mod_eq_of_lt hlt]
    rfl
  refine (hbytes (BitVec.ofNat 32 u.length)).trans ?_
  exact decide_eq_decide.mpr hone

end Visit

end RtcMcu.Avcodec
