import Mathlib.Algebra.Group.Nat.Defs
import Mathlib.Tactic.Common

/-!
# Serial numbers

Numbers that count modulo `2 ^ w` and are compared by the distance that leads from one to the
other. `ahead a b` is that distance; everything else here is arithmetic of it. The order it gives
(`newer`) is not transitive over the whole circle, so the laws state the span they need: two
distances add up as long as their sum stays on one turn (`ahead_trans`).
-/

namespace RtcMcu.Serial

variable {w : Nat}

/-- How far `b` lies after `a` on the circle. -/
def ahead (a b : BitVec w) : Nat := (b - a).toNat

/-- `b` is newer than `a`: it lies after it, by less than half a turn. -/
def newer (b a : BitVec w) : Bool := b != a && decide (ahead a b < 2 ^ (w - 1))

/-! ## Distances -/

/-- The distance by cases on the order of the representatives. Every law below reduces to linear
arithmetic through it. -/
theorem ahead_cases (a b : BitVec w) :
    ahead a b = if a.toNat ≤ b.toNat then b.toNat - a.toNat else 2 ^ w + b.toNat - a.toNat := by
  have ha := a.isLt
  have hb := b.isLt
  unfold ahead
  rw [BitVec.toNat_sub]
  split
  · next h =>
    have hsum : 2 ^ w - a.toNat + b.toNat = (b.toNat - a.toNat) + 2 ^ w := by omega
    rw [hsum, Nat.add_mod_right, Nat.mod_eq_of_lt (by omega)]
  · next h => rw [Nat.mod_eq_of_lt (by omega)]; omega

theorem ahead_lt (a b : BitVec w) : ahead a b < 2 ^ w := (b - a).isLt

@[simp] theorem ahead_self (a : BitVec w) : ahead a a = 0 := by simp [ahead]

theorem ahead_eq_zero {a b : BitVec w} : ahead a b = 0 ↔ a = b := by
  rw [← BitVec.toNat_inj]
  have ha := a.isLt
  have hb := b.isLt
  rw [ahead_cases]
  split <;> omega

/-- Going back is going the rest of the turn. -/
theorem ahead_comm {a b : BitVec w} (h : a ≠ b) : ahead b a = 2 ^ w - ahead a b := by
  rw [Ne, ← BitVec.toNat_inj] at h
  have ha := a.isLt
  have hb := b.isLt
  rw [ahead_cases, ahead_cases]
  split <;> split <;> omega

/-- Two distances add up as long as they stay on one turn. -/
theorem ahead_trans {a b c : BitVec w} (h : ahead a b + ahead b c < 2 ^ w) :
    ahead a c = ahead a b + ahead b c := by
  have ha := a.isLt
  have hb := b.isLt
  have hc := c.isLt
  rw [ahead_cases, ahead_cases] at h
  rw [ahead_cases, ahead_cases, ahead_cases]
  split at h <;> split at h <;> repeat' split
  all_goals omega

/-- Measured from a common origin, a distance is the difference. -/
theorem ahead_sub {a b c : BitVec w} (h : ahead a b ≤ ahead a c) :
    ahead b c = ahead a c - ahead a b := by
  have ha := a.isLt
  have hb := b.isLt
  have hc := c.isLt
  rw [ahead_cases, ahead_cases] at h
  rw [ahead_cases, ahead_cases, ahead_cases]
  split at h <;> split at h <;> repeat' split
  all_goals omega

/-- Measured from a common origin, going backwards goes the rest of the turn. -/
theorem ahead_sub_of_lt {a b c : BitVec w} (h : ahead a c < ahead a b) :
    ahead b c = 2 ^ w + ahead a c - ahead a b := by
  have ha := a.isLt
  have hb := b.isLt
  have hc := c.isLt
  rw [ahead_cases, ahead_cases] at h
  rw [ahead_cases, ahead_cases, ahead_cases]
  split at h <;> split at h <;> repeat' split
  all_goals omega

theorem ahead_inj {a b c : BitVec w} : ahead a b = ahead a c ↔ b = c := by
  constructor
  · intro h
    have hbc : ahead b c = 0 := by rw [ahead_sub (Nat.le_of_eq h)]; omega
    exact ahead_eq_zero.mp hbc
  · rintro rfl
    rfl

theorem ahead_left_inj {a b c : BitVec w} : ahead a c = ahead b c ↔ a = b := by
  constructor
  · intro h
    have hdiff : c - a = c - b := BitVec.eq_of_toNat_eq h
    have hneg : -a = -b := by
      rw [BitVec.sub_eq_add_neg, BitVec.sub_eq_add_neg] at hdiff
      exact BitVec.add_right_inj c |>.mp hdiff
    exact BitVec.neg_inj.mp hneg
  · rintro rfl
    rfl

/-- Stepping `i` ahead lies `i` ahead. -/
@[simp] theorem ahead_add_ofNat (a : BitVec w) {i : Nat} (h : i < 2 ^ w) :
    ahead a (a + BitVec.ofNat w i) = i := by
  unfold ahead
  rw [show a + BitVec.ofNat w i - a = BitVec.ofNat w i by
    rw [BitVec.add_comm, BitVec.add_sub_cancel], BitVec.toNat_ofNat, Nat.mod_eq_of_lt h]

/-- Stepping by the distance arrives. -/
@[simp] theorem add_ahead (a b : BitVec w) : a + BitVec.ofNat w (ahead a b) = b := by
  unfold ahead
  rw [BitVec.ofNat_toNat, BitVec.setWidth_eq, BitVec.add_comm, BitVec.sub_add_cancel]

/-- Over numbers that count one index, the distance is that of the indices. -/
theorem ahead_ofNat {m n : Nat} (h : m ≤ n) (hlt : n - m < 2 ^ w) :
    ahead (BitVec.ofNat w m) (BitVec.ofNat w n) = n - m := by
  have hsum : BitVec.ofNat w n = BitVec.ofNat w m + BitVec.ofNat w (n - m) := by
    rw [← BitVec.ofNat_add, Nat.add_sub_cancel' h]
  rw [hsum, ahead_add_ofNat _ hlt]

/-! ## The order -/

theorem newer_iff {b a : BitVec w} : newer b a = true ↔ b ≠ a ∧ ahead a b < 2 ^ (w - 1) := by
  simp only [newer, Bool.and_eq_true, bne_iff_ne, decide_eq_true_eq]

theorem newer_irrefl (a : BitVec w) : newer a a = false := by simp [newer]

/-- Of two numbers within half a turn of a common origin, the nearer one is not newer. -/
theorem not_newer_of_le {base a b : BitVec w} (hb : ahead base b < 2 ^ (w - 1))
    (h : ahead base a ≤ ahead base b) : newer a b = false := by
  by_contra hnewer
  obtain ⟨hne, hlt⟩ := newer_iff.mp (Bool.not_eq_false _ ▸ hnewer)
  rw [ahead_comm hne, ahead_sub h] at hlt
  cases w with
  | zero => exact hne (BitVec.eq_of_toNat_eq (by omega))
  | succ w =>
    rw [Nat.add_sub_cancel] at hlt hb
    rw [Nat.pow_succ] at hlt
    omega

/-- Of two numbers within half a turn of a common origin, the one that is not older lies less than
half a turn ahead. -/
theorem ahead_lt_of_not_newer {base a b : BitVec w} (ha : ahead base a < 2 ^ (w - 1))
    (hb : ahead base b < 2 ^ (w - 1)) (h : newer a b = false) : ahead a b < 2 ^ (w - 1) := by
  by_cases hab : a = b
  · subst hab
    rw [ahead_self]
    exact Nat.two_pow_pos _
  rcases Nat.le_total (ahead base a) (ahead base b) with hle | hle
  · rw [ahead_sub hle]
    omega
  · have hback : ahead b a < 2 ^ (w - 1) := by
      rw [ahead_sub hle]
      omega
    rw [newer_iff.mpr ⟨hab, hback⟩] at h
    cases h

end RtcMcu.Serial
