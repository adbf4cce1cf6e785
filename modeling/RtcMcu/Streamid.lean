import RtcMcu.Avformat.SdpCodes
import RtcMcu.MediaManager.RtpBlockCache

/-!
# The text of a stream id

`streamid.h`: `unparse` writes the 16 bytes of an id as 32 hexadecimal digits, the last byte in front,
and `parse` reads them with `sscanf`. What one writes the other reads, and a text that was read is
written again in upper case.

A text is its bytes before the zero byte. What `libuuid` does with texts of 36 characters is a
parameter (`LibUuid`).
-/

namespace RtcMcu.Streamid

open MediaManager (StreamId)
open Avformat (isspace toupper isDigit)

/-- The variables `output_uuid` and `little_endian` of the file. -/
structure Flags where
  outputUuid : Bool
  littleEndian : Bool

/-- What they are set to. -/
def Flags.default : Flags := { outputUuid := false, littleEndian := false }

/-- `uuid_parse`, with what it leaves in the id, and `uuid_unparse`. -/
structure LibUuid where
  uuidParse : List Byte → StreamId → Int × StreamId
  uuidUnparse : StreamId → List Byte

/-! ## Numbers in a text -/

def isxdigit (c : Byte) : Bool :=
  isDigit c || (0x41 ≤ c && c ≤ 0x46) || (0x61 ≤ c && c ≤ 0x66)

/-- The value of a digit in the largest base, and 36 for other characters. -/
def digitValue (c : Byte) : Nat :=
  if isDigit c then c.toNat - 0x30
  else if 0x41 ≤ toupper c && toupper c ≤ 0x5a then (toupper c).toNat - 0x41 + 10
  else 36

/-- `sscanf(s, "%2x", &ii)`: what is stored in `ii`, if anything is. A sign is one of the two
characters, and `0x` is the beginning of a number but no number. -/
def scan2x (s : List Byte) : Option (BitVec 32) :=
  match s.dropWhile isspace with
  | [] => none
  | [c] => if isxdigit c then some (BitVec.ofNat 32 (digitValue c)) else none
  | c :: d :: _ =>
    if c == 0x2d || c == 0x2b then
      if isxdigit d then
        some (if c == 0x2d then -BitVec.ofNat 32 (digitValue d) else BitVec.ofNat 32 (digitValue d))
      else none
    else if !isxdigit c || (c == 0x30 && toupper d == 0x58) then none
    else if isxdigit d then some (BitVec.ofNat 32 (digitValue c * 16 + digitValue d))
    else some (BitVec.ofNat 32 (digitValue c))

/-- `strtol(s, NULL, radix)`. -/
def strtol (s : List Byte) (radix : Int) : Int :=
  let s := s.dropWhile isspace
  let negative := s.head? == some 0x2d
  let s := if s.head? == some 0x2d || s.head? == some 0x2b then s.tail else s
  let marked := s.head? == some 0x30 && (s.tail.head?.map toupper) == some 0x58 &&
    (s.drop 2).head?.any isxdigit
  if radix < 0 ∨ radix = 1 ∨ 36 < radix then 0
  else
    let (base, digits) :=
      if (radix = 0 ∨ radix = 16) ∧ marked then (16, s.drop 2)
      else if radix = 0 then (if s.head? == some 0x30 then 8 else 10, s)
      else (radix.toNat, s)
    let n := (digits.takeWhile fun c => decide (digitValue c < base)).foldl
      (fun n c => n * base + digitValue c) 0
    if negative then max (-2 ^ 63) (-(n : Int)) else min (2 ^ 63 - 1) (n : Int)

/-! ## StreamId_Ext -/

/-- `id_char[i]`. -/
def idChar (id : StreamId) (i : Nat) : Byte := id.extractLsb' (8 * i) 8

/-- `id_char[i] = b`. -/
def setIdChar (id : StreamId) (i : Nat) (b : Byte) : StreamId :=
  (id &&& ~~~((0xff : StreamId) <<< (8 * i))) ||| (b.setWidth 128 <<< (8 * i))

/-- The loops of `parse`. What round `i` reads goes to the byte `pos i`; `junk i` is what `ii` holds
when it is not set. -/
def parseLoop (pos : Nat → Nat) (junk : Nat → BitVec 32) (id : StreamId) (str : List Byte) :
    StreamId :=
  (List.range 16).foldl
    (fun id i => setIdChar id (pos i) (((scan2x (str.drop (2 * i))).getD (junk i)).setWidth 8)) id

/-- `parse`: what it returns, and the id. -/
def parse (lib : LibUuid) (flags : Flags) (junk : Nat → BitVec 32) (id : StreamId)
    (str : List Byte) (radix : Int) : Int × StreamId :=
  if str.length = 36 then
    let (ret, id) := lib.uuidParse str id
    if ret < 0 then (ret, id) else (0, id)
  else if str.length = 32 then
    if flags.littleEndian then (0, parseLoop (fun i => i) junk id str)
    else (0, parseLoop (fun i => 15 - i) junk id str)
  else (0, (BitVec.ofInt 32 (strtol str radix)).setWidth 128)

/-- `unparse_four_bits`. -/
def unparseFourBits (input : Byte) : Byte :=
  let input := input &&& 0x0f
  if input.slt 10 then input + 0x30 else input + 0x41 - 10

/-- A round of the loops of `unparse`, on the bytes at `str`. `temp1` is a `char` and has a sign. -/
def unparseChar (pos : Nat → Nat) (id : StreamId) (str : List Byte) (i : Nat) : List Byte :=
  (str.set (i * 2) (unparseFourBits ((idChar id (pos i)).sshiftRight 4))).set (i * 2 + 1)
    (unparseFourBits (idChar id (pos i) &&& 0x0f))

/-- The loops of `unparse`. -/
def unparseLoop (pos : Nat → Nat) (id : StreamId) (str : List Byte) : List Byte :=
  (List.range 16).foldl (unparseChar pos id) str

/-- `unparse(str)`. -/
def unparseTo (lib : LibUuid) (flags : Flags) (id : StreamId) (str : List Byte) : List Byte :=
  if flags.outputUuid then
    lib.uuidUnparse id ++ 0 :: str.drop ((lib.uuidUnparse id).length + 1)
  else if flags.littleEndian then (unparseLoop (fun i => i) id str).set 32 0
  else (unparseLoop (fun i => 15 - i) id str).set 32 0

/-- `unparse()`: the text in its array of 40 bytes. -/
def unparse (lib : LibUuid) (flags : Flags) (str : Vector Byte 40) (id : StreamId) : List Byte :=
  (unparseTo lib flags id str.toList).takeWhile (· != 0)

/-! ## The bytes of an id -/

theorem getLsbD_setIdChar (id : StreamId) (i : Nat) (b : Byte) {n : Nat} (hn : n < 128) :
    (setIdChar id i b).getLsbD n =
      if 8 * i ≤ n ∧ n < 8 * i + 8 then b.getLsbD (n - 8 * i) else id.getLsbD n := by
  have hmask : ∀ m, (0xff : StreamId).getLsbD m = decide (m < 8) := by
    intro m
    have hones : (0xff : StreamId) = (BitVec.allOnes 8).setWidth 128 := by decide
    rw [hones, BitVec.getLsbD_setWidth, BitVec.getLsbD_allOnes]
    by_cases hm : m < 8
    · simp [hm, Nat.lt_trans hm (by decide : 8 < 128)]
    · simp [hm]
  simp only [setIdChar, BitVec.getLsbD_or, BitVec.getLsbD_and, BitVec.getLsbD_not,
    BitVec.getLsbD_shiftLeft, BitVec.getLsbD_setWidth, hmask, hn, decide_true, Bool.true_and]
  by_cases hlow : n < 8 * i
  · rw [if_neg (by omega)]
    simp [hlow]
  · by_cases hhigh : n < 8 * i + 8
    · have hbit : n - 8 * i < 8 := by omega
      have hwide : n - 8 * i < 128 := by omega
      rw [if_pos ⟨Nat.le_of_not_lt hlow, hhigh⟩]
      simp [hlow, hbit, hwide]
    · have hbit : ¬ n - 8 * i < 8 := by omega
      rw [if_neg (fun h => hhigh h.2)]
      simp [hlow, hbit, BitVec.getLsbD_of_ge b (n - 8 * i) (by omega)]

theorem idChar_setIdChar (id : StreamId) {i j : Nat} (hj : j < 16) (b : Byte) :
    idChar (setIdChar id i b) j = if j = i then b else idChar id j := by
  apply BitVec.eq_of_getLsbD_eq
  intro k hk
  rw [idChar, BitVec.getLsbD_extractLsb', getLsbD_setIdChar id i b (by omega)]
  by_cases hji : j = i
  · rw [if_pos hji, if_pos (by omega), hji, Nat.add_sub_cancel_left]
    simp [hk]
  · rw [if_neg hji, if_neg (by omega), idChar, BitVec.getLsbD_extractLsb']

/-- An id is its bytes. -/
theorem ext_idChar {id id' : StreamId} (h : ∀ i < 16, idChar id i = idChar id' i) : id = id' := by
  apply BitVec.eq_of_getLsbD_eq
  intro k hk
  have hbyte := congrArg (fun b => BitVec.getLsbD b (k % 8)) (h (k / 8) (by omega))
  simp only [idChar, BitVec.getLsbD_extractLsb'] at hbyte
  rw [Nat.div_add_mod] at hbyte
  have hlt : k % 8 < 8 := Nat.mod_lt k (by decide)
  simpa only [hlt, decide_true, Bool.true_and] using hbyte

/-! ## Digits -/

theorem isxdigit_iff (c : Byte) : isxdigit c = true ↔ digitValue c < 16 := by
  revert c
  decide +kernel

theorem unparseFourBits_digit {c : Byte} (h : isxdigit c = true) :
    unparseFourBits (BitVec.ofNat 8 (digitValue c)) = toupper c := by
  revert c
  decide +kernel

theorem digit_unparseFourBits (b : Byte) :
    isxdigit (unparseFourBits b) = true ∧ digitValue (unparseFourBits b) = b.toNat % 16 ∧
      unparseFourBits b ≠ 0 := by
  revert b
  decide +kernel

theorem unparseFourBits_high (b : Byte) :
    unparseFourBits (b.sshiftRight 4) = unparseFourBits (BitVec.ofNat 8 (b.toNat / 16)) := by
  revert b
  decide +kernel

theorem unparseFourBits_low (b : Byte) :
    unparseFourBits (b &&& 0x0f) = unparseFourBits (BitVec.ofNat 8 (b.toNat % 16)) := by
  revert b
  decide +kernel

/-- Two digits are read as a byte. -/
theorem scan2x_digits {a b : Byte} (ha : isxdigit a = true) (hb : isxdigit b = true)
    (s : List Byte) :
    scan2x (a :: b :: s) = some (BitVec.ofNat 32 (digitValue a * 16 + digitValue b)) := by
  have hfirst : ∀ c, isxdigit c = true → isspace c = false ∧ (c == 0x2d || c == 0x2b) = false ∧
      (toupper c == 0x58) = false := by
    decide +kernel
  obtain ⟨hspace, hsign, -⟩ := hfirst a ha
  rw [scan2x, List.dropWhile_cons_of_neg (by simp [hspace])]
  simp only [hsign, ha, hb, (hfirst b hb).2.2, Bool.not_true, Bool.and_false, Bool.or_false,
    Bool.false_eq_true, if_false, if_true]

/-! ## The loops -/

/-- The digits of an id, from left to right. -/
def nibble (pos : Nat → Nat) (id : StreamId) (k : Nat) : Nat :=
  if k % 2 = 0 then (idChar id (pos (k / 2))).toNat / 16 else (idChar id (pos (k / 2))).toNat % 16

def digits (pos : Nat → Nat) (id : StreamId) : List Byte :=
  (List.range 32).map fun k => unparseFourBits (BitVec.ofNat 8 (nibble pos id k))

@[simp] theorem length_unparseChar (pos : Nat → Nat) (id : StreamId) (str : List Byte) (i : Nat) :
    (unparseChar pos id str i).length = str.length := by
  rw [unparseChar, List.length_set, List.length_set]

/-- A round writes two digits. -/
theorem getElem?_unparseChar (pos : Nat → Nat) (id : StreamId) {str : List Byte} {i : Nat}
    (hlen : 2 * i + 1 < str.length) (k : Nat) :
    (unparseChar pos id str i)[k]? =
      if k / 2 = i then some (unparseFourBits (BitVec.ofNat 8 (nibble pos id k))) else str[k]? := by
  rw [unparseChar]
  by_cases hround : k / 2 = i
  · rw [if_pos hround, nibble, hround]
    rcases Nat.mod_two_eq_zero_or_one k with hk | hk
    · have hat : k = i * 2 := by omega
      rw [if_pos hk, ← unparseFourBits_high, List.getElem?_set_ne (by omega), hat,
        List.getElem?_set_self (by omega)]
    · have hat : k = i * 2 + 1 := by omega
      rw [if_neg (by omega), ← unparseFourBits_low, hat,
        List.getElem?_set_self (by rw [List.length_set]; omega)]
  · rw [if_neg hround, List.getElem?_set_ne (by omega), List.getElem?_set_ne (by omega)]

/-- What `n` rounds have written. -/
theorem unparse_rounds (pos : Nat → Nat) (id : StreamId) (str : List Byte) (n : Nat)
    (hlen : 2 * n ≤ str.length) :
    ((List.range n).foldl (unparseChar pos id) str).length = str.length ∧
      ∀ k < 2 * n, ((List.range n).foldl (unparseChar pos id) str)[k]? =
        some (unparseFourBits (BitVec.ofNat 8 (nibble pos id k))) := by
  induction n with
  | zero => exact ⟨rfl, fun k hk => absurd hk (Nat.not_lt_zero k)⟩
  | succ n ih =>
    obtain ⟨hdoneLen, hdone⟩ := ih (by omega)
    rw [List.range_succ, List.foldl_append, List.foldl_cons, List.foldl_nil]
    refine ⟨by rw [length_unparseChar, hdoneLen], fun k hk => ?_⟩
    rw [getElem?_unparseChar pos id (by omega) k]
    split
    · rfl
    · exact hdone k (by omega)

theorem length_digits (pos : Nat → Nat) (id : StreamId) : (digits pos id).length = 32 := by
  rw [digits, List.length_map, List.length_range]

theorem getElem?_digits (pos : Nat → Nat) (id : StreamId) {k : Nat} (hk : k < 32) :
    (digits pos id)[k]? = some (unparseFourBits (BitVec.ofNat 8 (nibble pos id k))) := by
  rw [digits, List.getElem?_map, List.getElem?_range hk, Option.map_some]

/-- The text ends behind the 32 digits. -/
theorem takeWhile_unparseLoop (pos : Nat → Nat) (id : StreamId) (str : List Byte)
    (hlen : 32 < str.length) :
    ((unparseLoop pos id str).set 32 0).takeWhile (· != 0) = digits pos id := by
  obtain ⟨houtLen, hwritten⟩ := unparse_rounds pos id str 16 (by omega)
  rw [← unparseLoop] at houtLen hwritten
  have htake : (unparseLoop pos id str).take 32 = digits pos id := by
    apply List.ext_getElem?
    intro k
    by_cases hk : k < 32
    · rw [List.getElem?_take_of_lt hk, hwritten k hk, getElem?_digits pos id hk]
    · rw [List.getElem?_eq_none (by rw [List.length_take]; omega),
        List.getElem?_eq_none (by rw [length_digits]; omega)]
  have hnonzero : ∀ c ∈ digits pos id, (c != 0) = true := by
    intro c hc
    obtain ⟨k, -, rfl⟩ := List.mem_map.mp hc
    simpa using (digit_unparseFourBits _).2.2
  rw [List.set_eq_take_append_cons_drop, if_pos (by omega), htake,
    List.takeWhile_append_of_pos hnonzero, List.takeWhile_cons_of_neg (by decide), List.append_nil]

/-- What the loop of `parse` has stored after `n` rounds, where no byte is stored twice. -/
theorem idChar_parse_rounds {pos : Nat → Nat} (hpos : ∀ i < 16, pos i < 16 ∧ pos (pos i) = i)
    (f : Nat → Byte) (id : StreamId) {n i : Nat} (hn : n ≤ 16) (hi : i < n) :
    idChar ((List.range n).foldl (fun id i => setIdChar id (pos i) (f i)) id) (pos i) = f i := by
  induction n with
  | zero => exact absurd hi (Nat.not_lt_zero i)
  | succ n ih =>
    rw [List.range_succ, List.foldl_append, List.foldl_cons, List.foldl_nil,
      idChar_setIdChar _ (hpos i (by omega)).1]
    by_cases hlast : i = n
    · rw [if_pos (congrArg pos hlast), hlast]
    · have hne : pos i ≠ pos n := by
        intro heq
        apply hlast
        rw [← (hpos i (by omega)).2, heq, (hpos n (by omega)).2]
      rw [if_neg hne]
      exact ih (by omega) (by omega)

/-- A byte that was read from two digits. -/
theorem idChar_parseLoop {pos : Nat → Nat} (hpos : ∀ i < 16, pos i < 16 ∧ pos (pos i) = i)
    (junk : Nat → BitVec 32) (id : StreamId) {s : List Byte} (hs : ∀ c ∈ s, isxdigit c = true)
    {i : Nat} (hi : i < 16) {a b : Byte} (ha : s[2 * i]? = some a) (hb : s[2 * i + 1]? = some b) :
    (idChar (parseLoop pos junk id s) (pos i)).toNat = digitValue a * 16 + digitValue b := by
  have hdrop : s.drop (2 * i) = a :: b :: s.drop (2 * i + 2) := by
    rw [List.drop_eq_getElem?_toList_append, ha, List.drop_eq_getElem?_toList_append, hb]
    rfl
  have hadigit := hs a (List.mem_of_getElem? ha)
  have hbdigit := hs b (List.mem_of_getElem? hb)
  have hahex := (isxdigit_iff a).mp hadigit
  have hbhex := (isxdigit_iff b).mp hbdigit
  rw [parseLoop, idChar_parse_rounds hpos _ id (Nat.le_refl 16) hi, hdrop,
    scan2x_digits hadigit hbdigit, Option.getD_some, BitVec.toNat_setWidth, BitVec.toNat_ofNat]
  omega

/-! ## There and back -/

section RoundTrip

variable {pos : Nat → Nat} (hpos : ∀ i < 16, pos i < 16 ∧ pos (pos i) = i)
include hpos

/-- The digits of an id are read as the id. -/
theorem parseLoop_digits (junk : Nat → BitVec 32) (old id : StreamId) :
    parseLoop pos junk old (digits pos id) = id := by
  have hdigits : ∀ c ∈ digits pos id, isxdigit c = true := by
    intro c hc
    obtain ⟨k, -, rfl⟩ := List.mem_map.mp hc
    exact (digit_unparseFourBits _).1
  apply ext_idChar
  intro j hj
  obtain ⟨hi, hback⟩ := hpos j hj
  apply BitVec.eq_of_toNat_eq
  have hread := idChar_parseLoop hpos junk old hdigits hi
    (getElem?_digits pos id (k := 2 * pos j) (by omega))
    (getElem?_digits pos id (k := 2 * pos j + 1) (by omega))
  have hbyte := (idChar id j).isLt
  rw [hback] at hread
  rw [hread, (digit_unparseFourBits _).2.1, (digit_unparseFourBits _).2.1, nibble, nibble,
    if_pos (by omega), if_neg (by omega), show 2 * pos j / 2 = pos j by omega,
    show (2 * pos j + 1) / 2 = pos j by omega, hback, BitVec.toNat_ofNat, BitVec.toNat_ofNat]
  omega

/-- 32 digits that were read are written in upper case. -/
theorem digits_parseLoop (junk : Nat → BitVec 32) (old : StreamId) {s : List Byte}
    (hlen : s.length = 32) (hs : ∀ c ∈ s, isxdigit c = true) :
    digits pos (parseLoop pos junk old s) = s.map toupper := by
  apply List.ext_getElem?
  intro k
  by_cases hk : k < 32
  · have hbyte := idChar_parseLoop hpos junk old hs (i := k / 2) (by omega)
      (List.getElem?_eq_getElem (by omega)) (List.getElem?_eq_getElem (by omega))
    have hk' : k < s.length := by omega
    have hdigit := hs s[k] (List.getElem_mem hk')
    have hlow := (isxdigit_iff _).mp (hs (s.get ⟨2 * (k / 2) + 1, by omega⟩) (List.get_mem _ _))
    rw [getElem?_digits pos _ hk, List.getElem?_map, List.getElem?_eq_getElem hk', Option.map_some,
      ← unparseFourBits_digit hdigit, nibble, hbyte]
    congr 3
    rw [List.get_eq_getElem] at hlow
    rcases Nat.mod_two_eq_zero_or_one k with heven | hodd
    · rw [if_pos heven]
      simp only [show 2 * (k / 2) = k by omega] at hlow ⊢
      omega
    · rw [if_neg (by omega)]
      simp only [show 2 * (k / 2) + 1 = k by omega] at hlow ⊢
      omega
  · rw [List.getElem?_eq_none (by rw [length_digits]; omega),
      List.getElem?_eq_none (by rw [List.length_map]; omega)]

end RoundTrip

theorem reversed_involutive : ∀ i < 16, 15 - i < 16 ∧ 15 - (15 - i) = i := by
  omega

theorem unparse_default (lib : LibUuid) (str : Vector Byte 40) (id : StreamId) :
    unparse lib .default str id = digits (fun i => 15 - i) id := by
  have htext : unparseTo lib .default id str.toList =
      (unparseLoop (fun i => 15 - i) id str.toList).set 32 0 := by
    simp only [unparseTo, Flags.default, Bool.false_eq_true, if_false]
  rw [unparse, htext]
  exact takeWhile_unparseLoop _ id str.toList (by rw [Vector.length_toList]; decide)

theorem parse_default (lib : LibUuid) (junk : Nat → BitVec 32) (old : StreamId) {s : List Byte}
    (radix : Int) (hlen : s.length = 32) :
    parse lib .default junk old s radix = (0, parseLoop (fun i => 15 - i) junk old s) := by
  rw [parse, if_neg (by omega), if_pos hlen]
  rfl

/-- An id that is written and read is the same id, and 32 hexadecimal digits that are read and
written are the same digits in upper case. -/
theorem streamid_text_inverse (lib : LibUuid) (junk : Nat → BitVec 32) (str : Vector Byte 40)
    (old : StreamId) (radix : Int) :
    (∀ id, parse lib .default junk old (unparse lib .default str id) radix = (0, id)) ∧
      ∀ s : List Byte, s.length = 32 → (∀ c ∈ s, isxdigit c = true) →
        (parse lib .default junk old s radix).1 = 0 ∧
          unparse lib .default str (parse lib .default junk old s radix).2 = s.map toupper := by
  constructor
  · intro id
    rw [unparse_default, parse_default lib junk old radix (length_digits _ id),
      parseLoop_digits reversed_involutive]
  · intro s hlen hs
    rw [parse_default lib junk old radix hlen, unparse_default]
    exact ⟨rfl, digits_parseLoop reversed_involutive junk old hlen hs⟩

/-- A text in both cases. -/
theorem streamid_text_inverse_mixed :
    let lib : LibUuid := { uuidParse := fun _ id => (-1, id), uuidUnparse := fun _ => [] }
    unparse lib .default (Vector.replicate 40 0)
        (parse lib .default (fun _ => 0) 0 (ascii "00fF10e7aBcDeF9876543210fedcba80") 10).2 =
      ascii "00FF10E7ABCDEF9876543210FEDCBA80" :=
  ((streamid_text_inverse _ (fun _ => 0) (Vector.replicate 40 0) 0 10).2
    (ascii "00fF10e7aBcDeF9876543210fedcba80") (by decide) (by decide)).2.trans (by decide)

end RtcMcu.Streamid
