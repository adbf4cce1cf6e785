import RtcMcu.Base

/-!
# Merging two queues

Two queues are merged by taking the smaller head as long as both have one (`Merge.cut`). What is
taken and what is left make up the merge of the two lists (`cut_merge`), and it does not matter
whether the lists are there from the start or come in parts (`cut_append`).
-/

namespace RtcMcu.Merge

variable {α : Type} (le : α → α → Bool)

/-- What is taken, and what is left of either list. -/
def cut : List α → List α → List α × List α × List α
  | x :: xs, y :: ys =>
    if le x y then
      let r := cut xs (y :: ys)
      (x :: r.1, r.2)
    else
      let r := cut (x :: xs) ys
      (y :: r.1, r.2)
  | xs, ys => ([], xs, ys)
termination_by xs ys => xs.length + ys.length

theorem cut_nil_left (ys : List α) : cut le [] ys = ([], [], ys) := by
  unfold cut
  rfl

theorem cut_nil_right (xs : List α) : cut le xs [] = ([], xs, []) := by
  unfold cut
  cases xs with
  | nil => rfl
  | cons x xs => rfl

theorem cut_left {x y : α} (h : le x y = true) (xs ys : List α) :
    cut le (x :: xs) (y :: ys) =
      (x :: (cut le xs (y :: ys)).1, (cut le xs (y :: ys)).2) := by
  rw [cut, if_pos h]

theorem cut_right {x y : α} (h : le x y = false) (xs ys : List α) :
    cut le (x :: xs) (y :: ys) =
      (y :: (cut le (x :: xs) ys).1, (cut le (x :: xs) ys).2) := by
  rw [cut, if_neg (by rw [h]; decide)]

/-- One of the lists is used up. -/
theorem cut_dry (xs ys : List α) : (cut le xs ys).2.1 = [] ∨ (cut le xs ys).2.2 = [] := by
  induction xs, ys using cut.induct le with
  | case1 x xs y ys h ih =>
    rw [cut_left le h]
    exact ih
  | case2 x xs y ys h ih =>
    rw [cut_right le (Bool.eq_false_iff.mpr h)]
    exact ih
  | case3 xs ys hnot =>
    cases xs with
    | nil => exact .inl (by rw [cut_nil_left])
    | cons x xs =>
      cases ys with
      | nil => exact .inr (by rw [cut_nil_right])
      | cons y ys => exact (hnot x xs y ys rfl rfl).elim

/-- What is taken comes first in the merge of the lists. -/
theorem cut_merge (xs ys : List α) :
    (cut le xs ys).1 ++ ((cut le xs ys).2.1 ++ (cut le xs ys).2.2) = List.merge xs ys le := by
  induction xs, ys using cut.induct le with
  | case1 x xs y ys h ih =>
    rw [cut_left le h, List.cons_merge_cons, if_pos h, ← ih]
    rfl
  | case2 x xs y ys h ih =>
    rw [cut_right le (Bool.eq_false_iff.mpr h), List.cons_merge_cons, if_neg h, ← ih]
    rfl
  | case3 xs ys hnot =>
    cases xs with
    | nil => rw [cut_nil_left, List.nil_merge]; rfl
    | cons x xs =>
      cases ys with
      | nil => rw [cut_nil_right, List.merge_right, List.append_nil]; rfl
      | cons y ys => exact (hnot x xs y ys rfl rfl).elim

/-- What comes later is merged with what was left. -/
theorem cut_append (xs ys xs' ys' : List α) :
    cut le (xs ++ xs') (ys ++ ys') =
      ((cut le xs ys).1 ++ (cut le ((cut le xs ys).2.1 ++ xs') ((cut le xs ys).2.2 ++ ys')).1,
        (cut le ((cut le xs ys).2.1 ++ xs') ((cut le xs ys).2.2 ++ ys')).2) := by
  induction xs, ys using cut.induct le with
  | case1 x xs y ys h ih =>
    rw [List.cons_append, List.cons_append, cut_left le h, cut_left le h, ← List.cons_append, ih]
    rfl
  | case2 x xs y ys h ih =>
    rw [List.cons_append, List.cons_append, cut_right le (Bool.eq_false_iff.mpr h),
      cut_right le (Bool.eq_false_iff.mpr h), ← List.cons_append, ih]
    rfl
  | case3 xs ys hnot =>
    cases xs with
    | nil => rw [cut_nil_left]; rfl
    | cons x xs =>
      cases ys with
      | nil => rw [cut_nil_right]; rfl
      | cons y ys => exact (hnot x xs y ys rfl rfl).elim

end RtcMcu.Merge
