import Mathlib.Order.Basic

/-!
# The successor on a ring

The entries of a ring stand at points of an order, and a point belongs to the first entry from
it on: the one with the smallest point that is not below it, or the smallest of all if there is none.
What matters is only which entries there are; on a sorted list the successor is known by the entries
before it.
-/

namespace RtcMcu.Successor

variable {α β : Type} [Preorder β] {f : α → β} {l : List α} {x : β}

/-- `v` is the first entry from `x` on. -/
def IsSuccessor (f : α → β) (l : List α) (x : β) (v : α) : Prop :=
  v ∈ l ∧ ((x ≤ f v ∧ ∀ u ∈ l, x ≤ f u → f v ≤ f u) ∨ ∀ u ∈ l, f u < x ∧ f v ≤ f u)

/-- The entries are in the order of their points. -/
def Sorted (f : α → β) (l : List α) : Prop := l.Pairwise fun u v => f u ≤ f v

theorem Sorted.le (h : Sorted f l) {i j : Nat} {u v : α} (hij : i ≤ j) (hu : l[i]? = some u)
    (hv : l[j]? = some v) : f u ≤ f v := by
  obtain ⟨hi, rfl⟩ := List.getElem?_eq_some_iff.mp hu
  obtain ⟨hj, rfl⟩ := List.getElem?_eq_some_iff.mp hv
  rcases Nat.lt_or_eq_of_le hij with hlt | heq
  · exact List.pairwise_iff_getElem.mp h i j hi hj hlt
  · subst heq
    exact le_refl _

/-- The first entry that is not below the point. -/
theorem IsSuccessor.of_sorted (h : Sorted f l) {k : Nat} {v : α} (hv : l[k]? = some v)
    (hle : x ≤ f v) (hbefore : ∀ i u, i < k → l[i]? = some u → f u < x) : IsSuccessor f l x v := by
  refine ⟨List.mem_of_getElem? hv, .inl ⟨hle, fun u hu hxu => ?_⟩⟩
  obtain ⟨i, hi⟩ := List.mem_iff_getElem?.mp hu
  rcases Nat.lt_or_ge i k with hik | hki
  · exact absurd (hbefore i u hik hi) (not_lt_of_ge hxu)
  · exact h.le hki hv hi

/-- All entries are below the point. -/
theorem IsSuccessor.wrap (h : Sorted f l) {v : α} (hv : l[0]? = some v)
    (hbelow : ∀ u ∈ l, f u < x) : IsSuccessor f l x v := by
  refine ⟨List.mem_of_getElem? hv, .inr fun u hu => ⟨hbelow u hu, ?_⟩⟩
  obtain ⟨i, hi⟩ := List.mem_iff_getElem?.mp hu
  exact h.le (Nat.zero_le i) hv hi

end RtcMcu.Successor
