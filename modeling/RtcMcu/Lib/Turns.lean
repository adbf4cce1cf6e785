import Mathlib.Algebra.Group.Nat.Defs

/-!
# Counters that wrap

A count is seen by its low `w` bits. From one count to a later one less than a turn ahead, the bits
step back just when the count passes into the next turn. Where counts are divided by `k`, a turn
comes to less than two short of its quotient, if it is put together from the two parts before and
behind a count.
-/

namespace RtcMcu.Turns

variable {w : Nat}

/-- The turn a count is in. -/
def turn (w n : Nat) : Nat := n / 2 ^ w

theorem turn_add_mod (w n : Nat) : 2 ^ w * turn w n + n % 2 ^ w = n := Nat.div_add_mod n (2 ^ w)

theorem turn_mono {m n : Nat} (h : m ≤ n) : turn w m ≤ turn w n := Nat.div_le_div_right h

/-- A count less than a turn ahead is in the same turn or in the next one. -/
theorem turn_le_succ {m n : Nat} (h : n < m + 2 ^ w) : turn w n ≤ turn w m + 1 := by
  have hnext : (m + 2 ^ w) / 2 ^ w = m / 2 ^ w + 1 := Nat.add_div_right m (Nat.two_pow_pos w)
  have hle : n / 2 ^ w ≤ (m + 2 ^ w) / 2 ^ w := Nat.div_le_div_right (Nat.le_of_lt h)
  rw [hnext] at hle
  exact hle

/-- The bits step back when the count passes into the next turn. -/
theorem ofNat_lt_iff {m n : Nat} (hle : m ≤ n) (hlt : n < m + 2 ^ w) :
    BitVec.ofNat w n < BitVec.ofNat w m ↔ turn w n = turn w m + 1 := by
  have hm := turn_add_mod w m
  have hn := turn_add_mod w n
  rw [BitVec.lt_def, BitVec.toNat_ofNat, BitVec.toNat_ofNat]
  rcases Nat.lt_or_ge (turn w m) (turn w n) with hturn | hturn
  · have hnext : turn w n = turn w m + 1 := Nat.le_antisymm (turn_le_succ hlt) hturn
    rw [hnext, Nat.mul_add, Nat.mul_one] at hn
    exact iff_of_true (by omega) hnext
  · have hsame : turn w n = turn w m := Nat.le_antisymm hturn (turn_mono hle)
    rw [hsame] at hn
    exact iff_of_false (by omega) (by omega)

/-- Otherwise it stays in its turn. -/
theorem turn_eq_of_not_lt {m n : Nat} (hle : m ≤ n) (hlt : n < m + 2 ^ w)
    (h : ¬ BitVec.ofNat w n < BitVec.ofNat w m) : turn w n = turn w m := by
  rw [ofNat_lt_iff hle hlt] at h
  have hup : turn w m ≤ turn w n := turn_mono hle
  have hnext := turn_le_succ hlt
  omega

/-! ## Turns divided by `k` -/

/-- The quotient of a turn, put together from the parts before and behind a count. -/
def parts (k turn m : Nat) : Nat := m / k + (turn - 1 - m) / k

theorem parts_bounds {k turn m : Nat} (hk : 0 < k) (hm : m < turn) :
    k * parts k turn m ≤ turn ∧ turn ≤ k * parts k turn m + 2 * k := by
  have hbefore := Nat.div_add_mod m k
  have hbehind := Nat.div_add_mod (turn - 1 - m) k
  have hrem := Nat.mod_lt m hk
  have hrem' := Nat.mod_lt (turn - 1 - m) hk
  have hsum : k * parts k turn m = k * (m / k) + k * ((turn - 1 - m) / k) := Nat.mul_add _ _ _
  omega

end RtcMcu.Turns
