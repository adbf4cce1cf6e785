import Mathlib.Data.Int.Order.Basic
import Mathlib.Tactic.Common

/-!
# Binary search

The loop that halves an interval of indices until it stands on the index it looks for. What is
searched is known only through `cmp`, which says how what stands at an index compares with what is
looked for. The loop returns the last index it looked at, so that a caller has to look again whether
it is the right one.
-/

namespace RtcMcu.BinarySearch

/-- The loop over `low`, `high` and `mid`. -/
def bisect (cmp : Int → Ordering) : Nat → Int → Int → Int → Int
  | 0, _, _, mid => mid
  | fuel + 1, low, high, mid =>
    if low ≤ high then
      match cmp ((low + high) / 2) with
      | .lt => bisect cmp fuel ((low + high) / 2 + 1) high ((low + high) / 2)
      | .gt => bisect cmp fuel low ((low + high) / 2 - 1) ((low + high) / 2)
      | .eq => (low + high) / 2
    else mid

variable {cmp : Int → Ordering}

/-- The search stays in its interval. -/
theorem bisect_mem (fuel : Nat) {low high mid l h : Int} (hlow : l ≤ low) (hhigh : high ≤ h)
    (hmid : l ≤ mid ∧ mid ≤ h) :
    l ≤ bisect cmp fuel low high mid ∧ bisect cmp fuel low high mid ≤ h := by
  induction fuel generalizing low high mid with
  | zero => exact hmid
  | succ fuel ih =>
    rw [bisect]
    split
    · have hhalf : l ≤ (low + high) / 2 ∧ (low + high) / 2 ≤ h := by omega
      split
      · exact ih (by omega) hhigh hhalf
      · exact ih hlow (by omega) hhalf
      · exact hhalf
    · exact hmid

/-- An index of the interval is found if everything before it is too small and everything behind it
too large. Each round leaves it in the interval, which becomes shorter. -/
theorem bisect_eq (fuel : Nat) {low high mid k : Int} (hlow : low ≤ k) (hhigh : k ≤ high)
    (hfuel : high - low < fuel) (hbefore : ∀ i, low ≤ i → i < k → cmp i = .lt)
    (hat : cmp k = .eq) (hbehind : ∀ i, k < i → i ≤ high → cmp i = .gt) :
    bisect cmp fuel low high mid = k := by
  induction fuel generalizing low high mid with
  | zero => omega
  | succ fuel ih =>
    rw [bisect, if_pos (by omega)]
    rcases lt_trichotomy ((low + high) / 2) k with hlt | heq | hgt
    · rw [hbefore _ (by omega) hlt]
      apply ih
      · omega
      · exact hhigh
      · omega
      · intro i hi hik
        exact hbefore i (by omega) hik
      · exact hbehind
    · rw [heq, hat]
    · rw [hbehind _ hgt (by omega)]
      apply ih
      · exact hlow
      · omega
      · omega
      · exact hbefore
      · intro i hki hi
        exact hbehind i hki (by omega)

end RtcMcu.BinarySearch
