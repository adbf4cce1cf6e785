import RtcMcu.Base
import Mathlib.Data.List.Basic

/-!
# Codes of bits

Numbers as strings of bits with the highest first, in a fixed number of bits or in the exponential
Golomb code, and parsers that read them. `Reads rest m bs a` says of a parser `m`, over a state of
which `rest` is what is still to be read, that it takes `bs` from the front and gives `a`; the rules
put such parsers together as the code puts its calls together.
-/

namespace RtcMcu.BitCode

/-! ## Numbers -/

/-- The number that a string of bits stands for. -/
def value (bs : List Bool) : Nat := bs.foldl (fun n b => 2 * n + b.toNat) 0

theorem foldl_value (bs : List Bool) (n : Nat) :
    bs.foldl (fun n b => 2 * n + b.toNat) n = n * 2 ^ bs.length + value bs := by
  induction bs generalizing n with
  | nil => exact (Nat.mul_one n).symm
  | cons b bs ih =>
    rw [value, List.foldl_cons, List.foldl_cons, ih, ih (2 * 0 + b.toNat), List.length_cons,
      Nat.pow_succ, Nat.mul_zero, Nat.zero_add, Nat.add_mul, ← Nat.add_assoc, Nat.mul_comm 2 n,
      Nat.mul_assoc, Nat.mul_comm 2]

theorem value_append (bs cs : List Bool) :
    value (bs ++ cs) = value bs * 2 ^ cs.length + value cs := by
  rw [value, List.foldl_append, foldl_value cs]
  rfl

theorem value_cons (b : Bool) (bs : List Bool) :
    value (b :: bs) = b.toNat * 2 ^ bs.length + value bs := by
  have hcons : b :: bs = [b] ++ bs := rfl
  rw [hcons, value_append]
  congr 2
  show 2 * 0 + b.toNat = b.toNat
  rw [Nat.mul_zero, Nat.zero_add]

theorem value_lt (bs : List Bool) : value bs < 2 ^ bs.length := by
  induction bs with
  | nil => exact Nat.zero_lt_one
  | cons b bs ih =>
    have hb : b.toNat ≤ 1 := Bool.toNat_le b
    have hmul : b.toNat * 2 ^ bs.length ≤ 1 * 2 ^ bs.length := Nat.mul_le_mul_right _ hb
    rw [value_cons, List.length_cons, Nat.pow_succ]
    omega

theorem value_replicate_false (n : Nat) : value (List.replicate n false) = 0 := by
  induction n with
  | zero => rfl
  | succ n ih => rw [List.replicate_succ, value_cons, ih, Bool.toNat_false, Nat.zero_mul]

/-- The low bits of a number. -/
def bits : Nat → Nat → List Bool
  | 0, _ => []
  | n + 1, x => x.testBit n :: bits n x

@[simp] theorem length_bits (n x : Nat) : (bits n x).length = n := by
  induction n with
  | zero => rfl
  | succ n ih => rw [bits, List.length_cons, ih]

theorem value_bits (n x : Nat) : value (bits n x) = x % 2 ^ n := by
  induction n with
  | zero => rw [Nat.pow_zero, Nat.mod_one]; rfl
  | succ n ih =>
    rw [bits, value_cons, length_bits, ih, Nat.mod_pow_succ, Nat.toNat_testBit, Nat.add_comm,
      Nat.mul_comm]

theorem bits_mod (n x : Nat) : bits n (x % 2 ^ n) = bits n x := by
  have hmod : ∀ m, m ≤ n → bits m (x % 2 ^ n) = bits m x := by
    intro m
    induction m with
    | zero => exact fun _ => rfl
    | succ m ih =>
      intro hm
      have hlt : m < n := hm
      rw [bits, bits, ih (Nat.le_of_lt hlt), Nat.testBit_mod_two_pow, decide_eq_true hlt,
        Bool.true_and]
  exact hmod n (Nat.le_refl n)

/-- The bits of two numbers behind each other. -/
theorem bits_add (m n x : Nat) : bits (m + n) x = bits m (x >>> n) ++ bits n x := by
  induction m with
  | zero => rw [Nat.zero_add]; rfl
  | succ m ih =>
    rw [Nat.succ_add, bits, bits, ih, Nat.testBit_shiftRight, Nat.add_comm n m]
    rfl

/-- The bits of bytes. -/
def stream (bytes : List (BitVec 8)) : List Bool := bytes.flatMap fun b => bits 8 b.toNat

theorem stream_cons (b : BitVec 8) (bytes : List (BitVec 8)) :
    stream (b :: bytes) = bits 8 b.toNat ++ stream bytes := List.flatMap_cons

theorem stream_append (bytes bytes' : List (BitVec 8)) :
    stream (bytes ++ bytes') = stream bytes ++ stream bytes' := List.flatMap_append

@[simp] theorem length_stream (bytes : List (BitVec 8)) :
    (stream bytes).length = 8 * bytes.length := by
  induction bytes with
  | nil => rfl
  | cons b bytes ih =>
    rw [stream_cons, List.length_append, length_bits, ih, List.length_cons, Nat.mul_succ,
      Nat.add_comm]

/-- The bit at a place is one of the byte at an eighth of it. -/
theorem getElem?_bits {n x i : Nat} (h : i < n) :
    (bits n x)[i]? = some (x.testBit (n - 1 - i)) := by
  induction n generalizing i with
  | zero => exact absurd h (Nat.not_lt_zero i)
  | succ n ih =>
    rw [bits]
    cases i with
    | zero => rfl
    | succ i =>
      rw [List.getElem?_cons_succ, ih (Nat.lt_of_succ_lt_succ h)]
      congr 2
      omega

theorem getElem?_stream {bytes : List (BitVec 8)} {i : Nat} (h : i < 8 * bytes.length) :
    (stream bytes)[i]? = some ((bytes.getD (i / 8) 0).toNat.testBit (7 - i % 8)) := by
  induction bytes generalizing i with
  | nil => exact absurd h (Nat.not_lt_zero i)
  | cons b bytes ih =>
    rw [stream_cons]
    rcases Nat.lt_or_ge i 8 with hlt | hge
    · rw [List.getElem?_append_left (by rw [length_bits]; exact hlt), getElem?_bits hlt,
        Nat.div_eq_of_lt hlt, Nat.mod_eq_of_lt hlt]
      rfl
    · rw [List.length_cons] at h
      have hdiv : i / 8 = (i - 8) / 8 + 1 := by omega
      have hmod : i % 8 = (i - 8) % 8 := by omega
      rw [List.getElem?_append_right (by rw [length_bits]; exact hge), length_bits,
        ih (by omega), hdiv, hmod]
      rfl

/-! ## The exponential Golomb code -/

/-- As many zeros as the number, plus one, has bits behind its first, and these bits. -/
def expGolomb (n : Nat) : List Bool :=
  List.replicate (n + 1).log2 false ++ true :: bits (n + 1).log2 (n + 1)

/-- What is behind the first bit gives the number back. -/
theorem expGolomb_value (n : Nat) :
    2 ^ (n + 1).log2 - 1 + value (bits (n + 1).log2 (n + 1)) = n := by
  have hlow : 2 ^ (n + 1).log2 ≤ n + 1 := Nat.log2_self_le (Nat.succ_ne_zero n)
  have hhigh : n + 1 < 2 ^ ((n + 1).log2 + 1) := Nat.lt_log2_self
  have hpos : 0 < 2 ^ (n + 1).log2 := Nat.two_pow_pos _
  rw [value_bits, Nat.mod_eq_sub_mod hlow, Nat.mod_eq_of_lt]
  · omega
  · rw [Nat.pow_succ] at hhigh
    omega

/-! ## Parsers -/

section Reads

variable {σ ε α β : Type} {rest : σ → List Bool}

/-- The parser takes `bs` from what is still to be read, and gives `a`. -/
def Reads (rest : σ → List Bool) (m : StateT σ (Except ε) α) (bs : List Bool) (a : α) : Prop :=
  ∀ s t, rest s = bs ++ t → ∃ s', m s = .ok (a, s') ∧ rest s' = t

namespace Reads

theorem pure (a : α) : Reads rest (Pure.pure a : StateT σ (Except ε) α) [] a :=
  fun s _ h => ⟨s, rfl, h⟩

theorem bind {m : StateT σ (Except ε) α} {f : α → StateT σ (Except ε) β} {bs cs : List Bool}
    {a : α} {b : β} (h : Reads rest m bs a) (hf : Reads rest (f a) cs b) :
    Reads rest (m >>= f) (bs ++ cs) b := by
  intro s t hs
  rw [List.append_assoc] at hs
  obtain ⟨s', hm, hs'⟩ := h s _ hs
  obtain ⟨s'', hf', ht⟩ := hf s' t hs'
  refine ⟨s'', ?_, ht⟩
  show (m s >>= fun p => f p.1 p.2) = _
  rw [hm]
  exact hf'

/-- The last of several calls. -/
theorem map {m : StateT σ (Except ε) α} {f : α → β} {bs : List Bool} {a : α}
    (h : Reads rest m bs a) : Reads rest (m >>= fun x => Pure.pure (f x)) bs (f a) := by
  have hpure : Reads rest (m >>= fun x => Pure.pure (f x)) (bs ++ []) (f a) :=
    h.bind (Reads.pure (f a))
  rw [List.append_nil] at hpure
  exact hpure

theorem of_eq {m : StateT σ (Except ε) α} {bs bs' : List Bool} {a : α} (h : Reads rest m bs a)
    (hbs : bs' = bs) : Reads rest m bs' a := hbs ▸ h

end Reads

/-- A call under a condition. -/
def onlyIf (c : Prop) [Decidable c] (m : StateT σ (Except ε) Unit) : StateT σ (Except ε) Unit :=
  if c then m else Pure.pure ()

theorem Reads.onlyIf {c : Prop} [Decidable c] {m : StateT σ (Except ε) Unit} {bs : List Bool}
    (h : c → Reads rest m bs ()) : Reads rest (onlyIf c m) (if c then bs else []) () := by
  rw [BitCode.onlyIf]
  by_cases hc : c
  · rw [if_pos hc, if_pos hc]
    exact h hc
  · rw [if_neg hc, if_neg hc]
    exact Reads.pure ()

/-- As many calls, for what they read. -/
def times (n : Nat) (m : StateT σ (Except ε) Unit) : StateT σ (Except ε) Unit :=
  match n with
  | 0 => Pure.pure ()
  | n + 1 => do
    m
    times n m

theorem Reads.times {m : StateT σ (Except ε) Unit} {code : α → List Bool} (xs : List α)
    (h : ∀ x ∈ xs, Reads rest m (code x) ()) :
    Reads rest (times xs.length m) (xs.flatMap code) () := by
  induction xs with
  | nil => exact Reads.pure ()
  | cons x xs ih =>
    rw [List.flatMap_cons]
    exact (h x List.mem_cons_self).bind (ih fun y hy => h y (List.mem_cons_of_mem _ hy))

end Reads

end RtcMcu.BitCode
