import Mathlib.Data.List.TakeWhile
import RtcMcu.Avformat.Rtp

/-!
# Numbers and bytes in an SDP

How `avformat/sdp.cpp` writes numbers with `sprintf` and reads them with `atoi`, and how it writes
and reads bytes: `data_to_hex` and `hex_to_data` in hexadecimal, `base64_encode` and `base64_decode`
in base 64. What is written is read back.
-/

namespace RtcMcu.Avformat

/-! ## Numbers -/

/-- `isspace` of the C library, and of `SdpInfo`. -/
def isspace (c : Byte) : Bool :=
  c == 0x20 || c == 0x0c || c == 0x0a || c == 0x0d || c == 0x09 || c == 0x0b

def isDigit (c : Byte) : Bool := 0x30 ≤ c && c ≤ 0x39

/-- The last `fuel` decimal digits. -/
def decimalDigits : Nat → Nat → List Byte
  | 0, _ => []
  | fuel + 1, n =>
    (if n < 10 then [] else decimalDigits fuel (n / 10)) ++ [BitVec.ofNat 8 (0x30 + n % 10)]

/-- `%d` of `sprintf`. An `int` has ten digits at most. -/
def formatInt (n : BitVec 32) : List Byte :=
  if n.toInt < 0 then 0x2d :: decimalDigits 10 n.toInt.natAbs
  else decimalDigits 10 n.toInt.natAbs

/-- The number a string of digits stands for. -/
def decimalValue (s : List Byte) : Nat := s.foldl (fun n c => n * 10 + (c.toNat - 0x30)) 0

/-- `atoi`, which is `strtol` with its bounds of 64 bits, cut to an `int`. -/
def atoi (s : List Byte) : BitVec 32 :=
  match s.dropWhile isspace with
  | 0x2d#8 :: s => BitVec.ofInt 32 (max (-2 ^ 63) (-(decimalValue (s.takeWhile isDigit) : Int)))
  | 0x2b#8 :: s => BitVec.ofInt 32 (min (2 ^ 63 - 1) (decimalValue (s.takeWhile isDigit) : Int))
  | s => BitVec.ofInt 32 (min (2 ^ 63 - 1) (decimalValue (s.takeWhile isDigit) : Int))

theorem isDigit_digit (n : Nat) : isDigit (BitVec.ofNat 8 (0x30 + n % 10)) = true := by
  have hlt : n % 10 < 10 := Nat.mod_lt n (by decide)
  generalize n % 10 = d at hlt
  revert d
  decide

theorem toNat_digit (n : Nat) : (BitVec.ofNat 8 (0x30 + n % 10)).toNat - 0x30 = n % 10 := by
  rw [BitVec.toNat_ofNat]
  omega

theorem decimalDigits_isDigit (fuel n : Nat) : ∀ c ∈ decimalDigits fuel n, isDigit c = true := by
  induction fuel generalizing n with
  | zero =>
    intro c hc
    cases hc
  | succ fuel ih =>
    intro c hc
    unfold decimalDigits at hc
    rcases List.mem_append.mp hc with hc | hc
    · split at hc
      · cases hc
      · exact ih _ c hc
    · rw [List.mem_singleton.mp hc]
      exact isDigit_digit n

theorem decimalDigits_ne_nil (fuel n : Nat) : decimalDigits (fuel + 1) n ≠ [] := by
  unfold decimalDigits
  simp

theorem decimalValue_decimalDigits {fuel n : Nat} (h : n < 10 ^ fuel) :
    decimalValue (decimalDigits fuel n) = n := by
  induction fuel generalizing n with
  | zero =>
    have hzero : n = 0 := by omega
    rw [hzero]
    rfl
  | succ fuel ih =>
    unfold decimalDigits decimalValue
    rw [List.foldl_append, List.foldl_cons, List.foldl_nil, toNat_digit]
    split
    · rw [List.foldl_nil]
      omega
    · have hdiv : n / 10 < 10 ^ fuel := by
        rw [Nat.pow_succ] at h
        omega
      have hrest := ih hdiv
      unfold decimalValue at hrest
      rw [hrest]
      omega

/-- A number is not followed by a digit where it is written, so all of it is read. -/
theorem takeWhile_decimalDigits (fuel n : Nat) :
    (decimalDigits fuel n).takeWhile isDigit = decimalDigits fuel n :=
  List.takeWhile_eq_self_iff.mpr (decimalDigits_isDigit fuel n)

theorem not_isspace_of_isDigit {c : Byte} (h : isDigit c = true) : isspace c = false := by
  revert c
  decide +kernel

theorem formatInt_chars (n : BitVec 32) : ∀ c ∈ formatInt n, isDigit c = true ∨ c = 0x2d := by
  unfold formatInt
  intro c hc
  split at hc
  · rcases List.mem_cons.mp hc with hc | hc
    · exact .inr hc
    · exact .inl (decimalDigits_isDigit _ _ c hc)
  · exact .inl (decimalDigits_isDigit _ _ c hc)

theorem formatInt_ne_nil (n : BitVec 32) : formatInt n ≠ [] := by
  unfold formatInt
  split
  · simp
  · exact decimalDigits_ne_nil 9 _

/-- What `%d` writes, `atoi` reads. -/
theorem atoi_formatInt (n : BitVec 32) : atoi (formatInt n) = n := by
  have hlow := BitVec.le_toInt n
  have hhigh := BitVec.toInt_lt (x := n)
  have habs : n.toInt.natAbs < 10 ^ 10 := by omega
  have hvalue := decimalValue_decimalDigits habs
  have hback : BitVec.ofInt 32 n.toInt = n := BitVec.ofInt_toInt
  unfold formatInt
  split
  · rename_i hneg
    unfold atoi
    rw [List.dropWhile_cons_of_neg (by decide)]
    show BitVec.ofInt 32 (max (-2 ^ 63)
      (-(decimalValue ((decimalDigits 10 n.toInt.natAbs).takeWhile isDigit) : Int))) = n
    have hsame : max (-2 ^ 63) (-(n.toInt.natAbs : Int)) = n.toInt := by omega
    rw [takeWhile_decimalDigits, hvalue, hsame, hback]
  · rename_i hnonneg
    obtain ⟨d, ds, hds⟩ := List.exists_cons_of_ne_nil (decimalDigits_ne_nil 9 n.toInt.natAbs)
    have hdigit : isDigit d = true := by
      apply decimalDigits_isDigit 10 n.toInt.natAbs
      rw [hds]
      exact List.mem_cons_self
    have hsame : min (2 ^ 63 - 1) (n.toInt.natAbs : Int) = n.toInt := by omega
    unfold atoi
    rw [hds, List.dropWhile_cons_of_neg (by rw [not_isspace_of_isDigit hdigit]; decide)]
    split
    · rename_i hminus
      cases hminus
      exact absurd hdigit (by decide)
    · rename_i hplus
      cases hplus
      exact absurd hdigit (by decide)
    · rw [← hds, takeWhile_decimalDigits, hvalue, hsame, hback]

/-! ## Hexadecimal -/

/-- `hex_table_uc`. -/
def hexDigit (n : Nat) : Byte := byteAt (ascii "0123456789ABCDEF") n

/-- `data_to_hex` in upper case. -/
def dataToHex (src : List Byte) : List Byte :=
  src.flatMap fun b => [hexDigit (b.toNat / 16), hexDigit (b.toNat % 16)]

/-- `SPACE_CHARS`. -/
def isSpaceChar (c : Byte) : Bool := c == 0x20 || c == 0x09 || c == 0x0d || c == 0x0a

def toupper (c : Byte) : Byte := if 0x61 ≤ c && c ≤ 0x7a then c ^^^ 0x20 else c

/-- The value of a digit in hexadecimal. -/
def hexValue (c : Byte) : Option Nat :=
  let c := toupper c
  if 0x30 ≤ c && c ≤ 0x39 then some (c.toNat - 0x30)
  else if 0x41 ≤ c && c ≤ 0x46 then some (c.toNat - 0x41 + 10)
  else none

/-- `hex_to_data`, where `v` has a bit above the digits read so far. Spaces are skipped, and the
first other character ends it. -/
def hexToData (v : Nat) : List Byte → List Byte
  | [] => []
  | c :: p =>
    if isSpaceChar c then hexToData v p
    else
      match hexValue c with
      | none => []
      | some d =>
        let v := v * 16 + d
        if 0x100 ≤ v then BitVec.ofNat 8 v :: hexToData 1 p else hexToData v p

theorem hexDigit_spec {n : Nat} (h : n < 16) :
    isSpaceChar (hexDigit n) = false ∧ hexValue (hexDigit n) = some n := by
  revert n
  decide +kernel

theorem hexToData_dataToHex (src : List Byte) : hexToData 1 (dataToHex src) = src := by
  induction src with
  | nil => rfl
  | cons b src ih =>
    have hlt := b.isLt
    obtain ⟨hhigh, hhighValue⟩ := hexDigit_spec (n := b.toNat / 16) (by omega)
    obtain ⟨hlow, hlowValue⟩ := hexDigit_spec (n := b.toNat % 16) (by omega)
    show hexToData 1 (hexDigit (b.toNat / 16) :: hexDigit (b.toNat % 16) :: dataToHex src) = _
    rw [hexToData, if_neg (by rw [hhigh]; decide), hhighValue]
    dsimp only
    rw [if_neg (by omega), hexToData, if_neg (by rw [hlow]; decide), hlowValue]
    dsimp only
    rw [if_pos (by omega), ih]
    congr 1
    apply BitVec.eq_of_toNat_eq
    rw [BitVec.toNat_ofNat]
    omega

theorem length_dataToHex (src : List Byte) : (dataToHex src).length = 2 * src.length := by
  induction src with
  | nil => rfl
  | cons b src ih =>
    show (dataToHex src).length + 2 = 2 * (src.length + 1)
    rw [ih]
    rfl

/-! ## Base 64 -/

/-- `b64`. -/
def b64 : List Byte := ascii "ABCDEFGHIJKLMNOPQRSTUVWXYZabcdefghijklmnopqrstuvwxyz0123456789+/"

/-- A character of `b64`. -/
def b64Char (n : Nat) : Byte := byteAt b64 n

/-- The four characters `base64_encode` makes of three bytes. It reads the byte behind them too. -/
def base64Quad (a b c d : Byte) : List Byte :=
  let iBits := ((a.toNat * 256 + b.toNat) * 256 + c.toNat) * 256 + d.toNat
  [b64Char (iBits / 2 ^ 26), b64Char (iBits / 2 ^ 20 % 64), b64Char (iBits / 2 ^ 14 % 64),
    b64Char (iBits / 2 ^ 8 % 64)]

/-- The values `i_shift` goes through while it is above zero. -/
def shiftsFrom : Nat → Nat → List Nat
  | 0, _ => []
  | fuel + 1, shift => if 0 < shift then shift :: shiftsFrom fuel (shift - 6) else []

/-- The characters of the last bytes, of which there are three at most, and the padding. -/
def base64Last (bytes : List Byte) : List Byte :=
  let iBits := bytes.foldl (fun bits b => bits * 256 + b.toNat) 0
  let chars := (shiftsFrom 4 (8 * bytes.length)).map fun shift =>
    b64Char (iBits * 64 / 2 ^ shift % 64)
  chars ++ List.replicate ((4 - chars.length % 4) % 4) 0x3d

/-- The text `base64_encode` writes. -/
def base64Text : List Byte → List Byte
  | a :: b :: c :: d :: rest => base64Quad a b c d ++ base64Text (d :: rest)
  | bytes => base64Last bytes

/-- `AV_BASE64_SIZE`. -/
def base64Size (n : Nat) : Nat := (n + 2) / 3 * 4 + 1

/-- `base64_encode`, or `none` where it returns `NULL`. The size of what it encodes is below
`UINT_MAX / 4`. -/
def base64Encode (outSize : Nat) (bytes : List Byte) : Option (List Byte) :=
  if outSize < base64Size bytes.length then none else some (base64Text bytes)

/-- `map2`, 254 at the end of a string and at the padding, 255 at what is no character of `b64`. -/
def map2 (c : Byte) : Byte :=
  if c = 0 ∨ c = 0x3d then 0xfe
  else if 0x41 ≤ c ∧ c ≤ 0x5a then c - 0x41
  else if 0x61 ≤ c ∧ c ≤ 0x7a then c - 0x61 + 26
  else if 0x30 ≤ c ∧ c ≤ 0x39 then c - 0x30 + 52
  else if c = 0x2b then 62
  else if c = 0x2f then 63
  else 0xff

/-- `BASE64_DEC_STEP`: the six bits of a character, or the end of the decoding. At the end `last` is
written behind what was decoded, or it is all refused. -/
def base64DecStep (last : List Byte) (c : Byte) : Except (Option (List Byte)) Nat :=
  if map2 c &&& 0x80 = 0 then .ok (map2 c).toNat
  else if map2 c &&& 1 = 0 then .error (some last)
  else .error none

/-- Four characters of `base64_decode`. -/
def base64DecQuad (c₀ c₁ c₂ c₃ : Byte) : Except (Option (List Byte)) (List Byte) := do
  let bits ← base64DecStep [] c₀
  let v := bits
  let bits ← base64DecStep [] c₁
  let v := v * 64 + bits
  let bits ← base64DecStep [BitVec.ofNat 8 (v / 2 ^ 4)] c₂
  let v := v * 64 + bits
  let bits ← base64DecStep [BitVec.ofNat 8 (v / 2 ^ 10), BitVec.ofNat 8 (v * 4 / 2 ^ 4)] c₃
  let v := v * 64 + bits
  .ok [BitVec.ofNat 8 (v / 2 ^ 16), BitVec.ofNat 8 (v / 2 ^ 8), BitVec.ofNat 8 v]

/-- `base64_decode` into a buffer that is not filled, or `none` where it returns -1. A string has a
zero byte behind it. -/
def base64Decode : List Byte → Option (List Byte)
  | c₀ :: c₁ :: c₂ :: c₃ :: rest =>
    match base64DecQuad c₀ c₁ c₂ c₃ with
    | .ok bytes => (base64Decode rest).map (bytes ++ ·)
    | .error decoded => decoded
  | short =>
    match base64DecQuad (byteAt short 0) (byteAt short 1) (byteAt short 2) (byteAt short 3) with
    | .ok bytes => some bytes
    | .error decoded => decoded

theorem map2_b64Char {n : Nat} (h : n < 64) :
    map2 (b64Char n) = BitVec.ofNat 8 n ∧ map2 (b64Char n) &&& 0x80 = 0 := by
  revert n
  decide +kernel

@[simp] theorem base64DecStep_b64Char (last : List Byte) {n : Nat} (h : n < 64) :
    base64DecStep last (b64Char n) = .ok n := by
  obtain ⟨hvalue, hbits⟩ := map2_b64Char h
  unfold base64DecStep
  rw [if_pos hbits, hvalue, BitVec.toNat_ofNat, Nat.mod_eq_of_lt (by omega)]

@[simp] theorem base64DecStep_pad (last : List Byte) :
    base64DecStep last 0x3d = .error (some last) := rfl

/-- A byte is the low eight bits of what has it there. -/
theorem ofNat_eq_byte {b : Byte} {n : Nat} (h : n % 256 = b.toNat) : BitVec.ofNat 8 n = b := by
  apply BitVec.eq_of_toNat_eq
  rw [BitVec.toNat_ofNat]
  exact h

theorem base64DecQuad_full (a b c : Byte) {v : Nat}
    (hv : v = (a.toNat * 256 + b.toNat) * 256 + c.toNat) :
    base64DecQuad (b64Char (v / 2 ^ 18)) (b64Char (v / 2 ^ 12 % 64)) (b64Char (v / 2 ^ 6 % 64))
      (b64Char (v % 64)) = .ok [a, b, c] := by
  have ha := a.isLt
  have hb := b.isLt
  have hc := c.isLt
  have h₀ : v / 2 ^ 18 < 64 := by omega
  have h₁ : v / 2 ^ 12 % 64 < 64 := Nat.mod_lt _ (by decide)
  have h₂ : v / 2 ^ 6 % 64 < 64 := Nat.mod_lt _ (by decide)
  have h₃ : v % 64 < 64 := Nat.mod_lt _ (by decide)
  simp only [base64DecQuad, base64DecStep_b64Char _ h₀, base64DecStep_b64Char _ h₁,
    base64DecStep_b64Char _ h₂, base64DecStep_b64Char _ h₃, ok_bind]
  rw [ofNat_eq_byte (b := a) (by omega), ofNat_eq_byte (b := b) (by omega),
    ofNat_eq_byte (b := c) (by omega)]

/-- Two bytes, and the padding behind them. -/
theorem base64DecQuad_two (a b : Byte) {v : Nat} (hv : v = a.toNat * 256 + b.toNat) :
    base64DecQuad (b64Char (v / 2 ^ 10)) (b64Char (v / 2 ^ 4 % 64)) (b64Char (v * 4 % 64)) 0x3d =
      .error (some [a, b]) := by
  have ha := a.isLt
  have hb := b.isLt
  have h₀ : v / 2 ^ 10 < 64 := by omega
  have h₁ : v / 2 ^ 4 % 64 < 64 := Nat.mod_lt _ (by decide)
  have h₂ : v * 4 % 64 < 64 := Nat.mod_lt _ (by decide)
  simp only [base64DecQuad, base64DecStep_b64Char _ h₀, base64DecStep_b64Char _ h₁,
    base64DecStep_b64Char _ h₂, base64DecStep_pad, ok_bind, error_bind]
  rw [ofNat_eq_byte (b := a) (by omega), ofNat_eq_byte (b := b) (by omega)]

/-- One byte, and the padding behind it. -/
theorem base64DecQuad_one (a : Byte) {v : Nat} (hv : v = a.toNat) :
    base64DecQuad (b64Char (v / 2 ^ 2)) (b64Char (v * 16 % 64)) 0x3d 0x3d =
      .error (some [a]) := by
  have ha := a.isLt
  have h₀ : v / 2 ^ 2 < 64 := by omega
  have h₁ : v * 16 % 64 < 64 := Nat.mod_lt _ (by decide)
  simp only [base64DecQuad, base64DecStep_b64Char _ h₀, base64DecStep_b64Char _ h₁,
    base64DecStep_pad, ok_bind, error_bind]
  rw [ofNat_eq_byte (b := a) (by omega)]

theorem base64Quad_eq (a b c d : Byte) {v : Nat}
    (hv : v = (a.toNat * 256 + b.toNat) * 256 + c.toNat) :
    base64Quad a b c d = [b64Char (v / 2 ^ 18), b64Char (v / 2 ^ 12 % 64),
      b64Char (v / 2 ^ 6 % 64), b64Char (v % 64)] := by
  have hd := d.isLt
  unfold base64Quad
  dsimp only
  rw [← hv]
  have h₀ : (v * 256 + d.toNat) / 2 ^ 26 = v / 2 ^ 18 := by omega
  have h₁ : (v * 256 + d.toNat) / 2 ^ 20 % 64 = v / 2 ^ 12 % 64 := by omega
  have h₂ : (v * 256 + d.toNat) / 2 ^ 14 % 64 = v / 2 ^ 6 % 64 := by omega
  have h₃ : (v * 256 + d.toNat) / 2 ^ 8 % 64 = v % 64 := by omega
  rw [h₀, h₁, h₂, h₃]

theorem base64Last_one (a : Byte) {v : Nat} (hv : v = a.toNat) :
    base64Last [a] = [b64Char (v / 2 ^ 2), b64Char (v * 16 % 64), 0x3d, 0x3d] := by
  have ha := a.isLt
  have h₀ : (0 * 256 + a.toNat) * 64 / 2 ^ 8 % 64 = v / 2 ^ 2 := by omega
  have h₁ : (0 * 256 + a.toNat) * 64 / 2 ^ 2 % 64 = v * 16 % 64 := by omega
  rw [← h₀, ← h₁]
  rfl

theorem base64Last_two (a b : Byte) {v : Nat} (hv : v = a.toNat * 256 + b.toNat) :
    base64Last [a, b] =
      [b64Char (v / 2 ^ 10), b64Char (v / 2 ^ 4 % 64), b64Char (v * 4 % 64), 0x3d] := by
  have ha := a.isLt
  have hb := b.isLt
  have h₀ : ((0 * 256 + a.toNat) * 256 + b.toNat) * 64 / 2 ^ 16 % 64 = v / 2 ^ 10 := by omega
  have h₁ : ((0 * 256 + a.toNat) * 256 + b.toNat) * 64 / 2 ^ 10 % 64 = v / 2 ^ 4 % 64 := by omega
  have h₂ : ((0 * 256 + a.toNat) * 256 + b.toNat) * 64 / 2 ^ 4 % 64 = v * 4 % 64 := by omega
  rw [← h₀, ← h₁, ← h₂]
  rfl

theorem base64Last_three (a b c : Byte) {v : Nat}
    (hv : v = (a.toNat * 256 + b.toNat) * 256 + c.toNat) :
    base64Last [a, b, c] = [b64Char (v / 2 ^ 18), b64Char (v / 2 ^ 12 % 64),
      b64Char (v / 2 ^ 6 % 64), b64Char (v % 64)] := by
  have ha := a.isLt
  have hb := b.isLt
  have hc := c.isLt
  have hbits : [a, b, c].foldl (fun bits b => bits * 256 + b.toNat) 0 = v := by
    rw [hv]
    simp
  have hshifts : shiftsFrom 4 (8 * [a, b, c].length) = [24, 18, 12, 6] := rfl
  have h₀ : v * 64 / 2 ^ 24 % 64 = v / 2 ^ 18 := by omega
  have h₁ : v * 64 / 2 ^ 18 % 64 = v / 2 ^ 12 % 64 := by omega
  have h₂ : v * 64 / 2 ^ 12 % 64 = v / 2 ^ 6 % 64 := by omega
  have h₃ : v * 64 / 2 ^ 6 % 64 = v % 64 := by omega
  unfold base64Last
  rw [hbits, hshifts]
  simp only [List.map_cons, List.map_nil, h₀, h₁, h₂, h₃, List.length_cons, List.length_nil]
  rfl

/-- What `base64_encode` writes, `base64_decode` reads. -/
theorem base64Decode_base64Text (bytes : List Byte) :
    base64Decode (base64Text bytes) = some bytes := by
  fun_induction base64Text bytes with
  | case1 a b c d rest ih =>
    rw [base64Quad_eq a b c d rfl]
    simp only [List.cons_append, List.nil_append, base64Decode, base64DecQuad_full a b c rfl, ih,
      Option.map_some]
  | case2 bytes hshort =>
    match bytes, hshort with
    | [], _ => rfl
    | [a], _ =>
      rw [base64Last_one a rfl, base64Decode, base64DecQuad_one a rfl]
    | [a, b], _ =>
      rw [base64Last_two a b rfl, base64Decode, base64DecQuad_two a b rfl]
    | [a, b, c], _ =>
      rw [base64Last_three a b c rfl, base64Decode, base64DecQuad_full a b c rfl]
      rfl
    | a :: b :: c :: d :: rest, hshort => exact absurd rfl (hshort a b c d rest)

/-- The characters of a text in base 64. -/
def isBase64 (c : Byte) : Bool := b64.contains c || c == 0x3d

theorem isBase64_b64Char {n : Nat} (h : n < 64) : isBase64 (b64Char n) = true := by
  revert n
  decide +kernel

theorem isBase64_base64Text (bytes : List Byte) : ∀ c ∈ base64Text bytes, isBase64 c = true := by
  fun_induction base64Text bytes with
  | case1 a b c d rest ih =>
    intro x hx
    have ha := a.isLt
    have hb := b.isLt
    have hc := c.isLt
    rcases List.mem_append.mp hx with hx | hx
    · rw [base64Quad_eq a b c d rfl] at hx
      simp only [List.mem_cons, List.not_mem_nil, or_false] at hx
      rcases hx with rfl | rfl | rfl | rfl
      · exact isBase64_b64Char (by omega)
      · exact isBase64_b64Char (by omega)
      · exact isBase64_b64Char (by omega)
      · exact isBase64_b64Char (by omega)
    · exact ih x hx
  | case2 bytes hshort =>
    intro x hx
    unfold base64Last at hx
    rcases List.mem_append.mp hx with hx | hx
    · obtain ⟨shift, _, rfl⟩ := List.mem_map.mp hx
      exact isBase64_b64Char (Nat.mod_lt _ (by decide))
    · rw [(List.mem_replicate.mp hx).2]
      rfl

theorem length_base64Text (bytes : List Byte) :
    (base64Text bytes).length = (bytes.length + 2) / 3 * 4 := by
  fun_induction base64Text bytes with
  | case1 a b c d rest ih =>
    rw [List.length_append, ih]
    simp only [base64Quad, List.length_cons, List.length_nil]
    omega
  | case2 bytes hshort =>
    match bytes, hshort with
    | [], _ => rfl
    | [a], _ => simp [base64Last_one a rfl]
    | [a, b], _ => simp [base64Last_two a b rfl]
    | [a, b, c], _ => simp [base64Last_three a b c rfl]
    | a :: b :: c :: d :: rest, hshort => exact absurd rfl (hshort a b c d rest)

/-- The first character has the high six bits of the first byte. -/
theorem head?_base64Text (a : Byte) (rest : List Byte) :
    (base64Text (a :: rest)).head? = some (b64Char (a.toNat / 4)) := by
  have ha := a.isLt
  match rest with
  | [] =>
    rw [base64Text, base64Last_one a rfl]
    · rfl
    · simp
  | [b] =>
    have hb := b.isLt
    have hhigh : (a.toNat * 256 + b.toNat) / 2 ^ 10 = a.toNat / 4 := by omega
    rw [base64Text, base64Last_two a b rfl, hhigh]
    · rfl
    · simp
  | [b, c] =>
    have hb := b.isLt
    have hc := c.isLt
    have hhigh : ((a.toNat * 256 + b.toNat) * 256 + c.toNat) / 2 ^ 18 = a.toNat / 4 := by omega
    rw [base64Text, base64Last_three a b c rfl, hhigh]
    · rfl
    · simp
  | b :: c :: d :: rest =>
    have hb := b.isLt
    have hc := c.isLt
    have hhigh : ((a.toNat * 256 + b.toNat) * 256 + c.toNat) / 2 ^ 18 = a.toNat / 4 := by omega
    rw [base64Text, base64Quad_eq a b c d rfl, hhigh]
    rfl

end RtcMcu.Avformat
