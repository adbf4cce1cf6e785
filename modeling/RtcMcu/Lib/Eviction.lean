import Mathlib.Data.List.Nodup
import Mathlib.Data.List.Perm.Basic

/-!
# Eviction

A queue of entries from which entries are evicted in front. An entry that is pinned gets another
chance: it is passed over and goes to the back, and it is evicted only when no entry is left that is
not pinned (`Evicts`).

Which entry was used least recently is read off the history of uses (`LastBefore`). A queue in the
order of last use (`ByLastUse`) stays in it when an entry is used and goes to the back.
-/

namespace RtcMcu.Eviction

/-! ## Passing over and evicting -/

section Queue

variable {β : Type} {pinned : β → Prop}

/-- From a queue some entries are passed over, some evicted, and the rest stays. -/
inductive Evicts (pinned : β → Prop) : List β → List β → List β → List β → Prop
  | stop (l : List β) : Evicts pinned l [] [] l
  | pass {x : β} {l passed evicted rest : List β} (held : pinned x)
      (later : Evicts pinned (l ++ [x]) passed evicted rest) :
      Evicts pinned (x :: l) (x :: passed) evicted rest
  | evict {x : β} {l passed evicted rest : List β} (allowed : pinned x → ∀ y ∈ l, pinned y)
      (later : Evicts pinned l passed evicted rest) :
      Evicts pinned (x :: l) passed (x :: evicted) rest

/-- Nothing is lost. -/
theorem Evicts.perm {l passed evicted rest : List β} (h : Evicts pinned l passed evicted rest) :
    l.Perm (evicted ++ rest) := by
  induction h with
  | stop l => exact List.Perm.refl l
  | pass _ _ ih => exact (List.perm_append_singleton _ _).symm.trans ih
  | evict _ _ ih => exact List.Perm.cons _ ih

/-- If a pinned entry is evicted, all that stay are pinned. -/
theorem Evicts.pinned_of_pinned {l passed evicted rest : List β}
    (h : Evicts pinned l passed evicted rest) {x : β} (hx : x ∈ evicted) (hpinned : pinned x) :
    ∀ y ∈ rest, pinned y := by
  induction h with
  | stop l => cases hx
  | pass _ _ ih => exact ih hx
  | evict allowed later ih =>
    rcases List.mem_cons.mp hx with rfl | hx
    · intro y hy
      exact allowed hpinned y (later.perm.mem_iff.mpr (List.mem_append_right _ hy))
    · exact ih hx

/-- Evicting goes on from where it stopped. -/
theorem Evicts.append {l m rest passed passed' evicted evicted' : List β}
    (h : Evicts pinned l passed evicted m) (h' : Evicts pinned m passed' evicted' rest) :
    Evicts pinned l (passed ++ passed') (evicted ++ evicted') rest := by
  induction h with
  | stop l => exact h'
  | pass held _ ih => exact .pass held (ih h')
  | evict allowed _ ih => exact .evict allowed (ih h')

/-- Only pinned entries are passed over. -/
theorem Evicts.pinned_of_passed {l passed evicted rest : List β}
    (h : Evicts pinned l passed evicted rest) : ∀ x ∈ passed, pinned x := by
  induction h with
  | stop l =>
    intro x hx
    cases hx
  | pass held _ ih =>
    intro x hx
    rcases List.mem_cons.mp hx with rfl | hx
    · exact held
    · exact ih x hx
  | evict _ _ ih => exact ih

theorem Evicts.passed_subset {l passed evicted rest : List β}
    (h : Evicts pinned l passed evicted rest) : passed ⊆ l := by
  induction h with
  | stop l => exact List.nil_subset l
  | pass _ _ ih =>
    intro y hy
    rcases List.mem_cons.mp hy with rfl | hy
    · exact List.mem_cons_self
    · exact (List.perm_append_singleton _ _).mem_iff.mp (ih hy)
  | evict _ _ ih => exact fun y hy => List.mem_cons_of_mem _ (ih hy)

/-- Without pinned entries the evicted ones are those in front. -/
theorem Evicts.of_unpinned {l passed evicted rest : List β}
    (h : Evicts pinned l passed evicted rest) (hfree : ∀ y ∈ l, ¬ pinned y) :
    passed = [] ∧ l = evicted ++ rest := by
  induction h with
  | stop l => exact ⟨rfl, rfl⟩
  | pass held _ _ => exact absurd held (hfree _ List.mem_cons_self)
  | evict _ _ ih =>
    obtain ⟨hpassed, hl⟩ := ih fun y hy => hfree y (List.mem_cons_of_mem _ hy)
    exact ⟨hpassed, by rw [hl, List.cons_append]⟩

end Queue

/-! ## The order of last use -/

section Uses

variable {κ : Type}

/-- `a` was used for the last time before `b` was. -/
def LastBefore (uses : List κ) (a b : κ) : Prop :=
  ∃ pre post, uses = pre ++ a :: post ∧ a ∉ post ∧ b ∈ post

theorem LastBefore.append {uses : List κ} {a b k : κ} (h : LastBefore uses a b) (hk : a ≠ k) :
    LastBefore (uses ++ [k]) a b := by
  obtain ⟨pre, post, rfl, ha, hb⟩ := h
  refine ⟨pre, post ++ [k], by rw [List.append_assoc, List.cons_append], ?_, ?_⟩
  · rw [List.mem_append, List.mem_singleton]
    exact fun hmem => hmem.elim ha hk
  · exact List.mem_append_left _ hb

/-- What was used has a last use. -/
theorem exists_last_use {uses : List κ} {a : κ} (ha : a ∈ uses) :
    ∃ pre post, uses = pre ++ a :: post ∧ a ∉ post := by
  induction uses with
  | nil => cases ha
  | cons x uses ih =>
    by_cases hmem : a ∈ uses
    · obtain ⟨pre, post, rfl, hpost⟩ := ih hmem
      exact ⟨x :: pre, post, rfl, hpost⟩
    · rcases List.mem_cons.mp ha with rfl | hlater
      · exact ⟨[], uses, rfl, hmem⟩
      · exact absurd hlater hmem

/-- What was used before is older than what is used now. -/
theorem lastBefore_append {uses : List κ} {a k : κ} (ha : a ∈ uses) (hk : a ≠ k) :
    LastBefore (uses ++ [k]) a k := by
  obtain ⟨pre, post, rfl, hpost⟩ := exists_last_use ha
  refine ⟨pre, post ++ [k], by rw [List.append_assoc, List.cons_append], ?_, ?_⟩
  · rw [List.mem_append, List.mem_singleton]
    exact fun hmem => hmem.elim hpost hk
  · exact List.mem_append_right _ List.mem_cons_self

/-- The keys stand in the order in which they were last used. -/
structure ByLastUse (uses : List κ) (keys : List κ) : Prop where
  used : ∀ k ∈ keys, k ∈ uses
  ordered : keys.Pairwise (LastBefore uses)

theorem ByLastUse.sublist {uses keys keys' : List κ} (h : ByLastUse uses keys)
    (hsub : keys'.Sublist keys) : ByLastUse uses keys' where
  used k hk := h.used k (hsub.subset hk)
  ordered := h.ordered.sublist hsub

/-- A key that is used goes to the back. -/
theorem ByLastUse.use {uses keys : List κ} {k : κ} (h : ByLastUse uses keys) (hk : k ∉ keys) :
    ByLastUse (uses ++ [k]) (keys ++ [k]) where
  used x hx := by
    rcases List.mem_append.mp hx with hx | hx
    · exact List.mem_append_left _ (h.used x hx)
    · exact List.mem_append_right _ hx
  ordered := by
    have hne : ∀ x ∈ keys, x ≠ k := fun x hx hxk => hk (hxk ▸ hx)
    apply List.pairwise_append.mpr
    refine ⟨?_, List.pairwise_singleton _ _, ?_⟩
    · exact h.ordered.imp_of_mem fun hx _ hlast => hlast.append (hne _ hx)
    · intro x hx y hy
      rw [List.mem_singleton.mp hy]
      exact lastBefore_append (h.used x hx) (hne x hx)

/-- In front of a queue in the order of last use stand the entries used least recently. -/
theorem ByLastUse.front {uses front rest : List κ} (h : ByLastUse uses (front ++ rest)) :
    ∀ x ∈ front, ∀ y ∈ rest, LastBefore uses x y :=
  (List.pairwise_append.mp h.ordered).2.2

/-- Passing over is a use. -/
theorem Evicts.byLastUse {β : Type} {pinned : β → Prop} {key : β → κ}
    {l passed evicted rest : List β} (h : Evicts pinned l passed evicted rest) {uses : List κ}
    (hl : ByLastUse uses (l.map key)) (hnodup : (l.map key).Nodup) :
    ByLastUse (uses ++ passed.map key) (rest.map key) := by
  induction h generalizing uses with
  | stop l =>
    rw [List.map_nil, List.append_nil]
    exact hl
  | @pass x l passed evicted rest _ _ ih =>
    rw [List.map_cons, List.append_cons]
    rw [List.map_cons, List.nodup_cons] at hnodup
    apply ih
    · rw [List.map_append, List.map_singleton]
      exact (hl.sublist (List.sublist_cons_self _ _)).use hnodup.1
    · rw [List.map_append, List.map_singleton, List.nodup_append]
      refine ⟨hnodup.2, List.nodup_singleton _, ?_⟩
      intro a ha b hb
      rw [List.mem_singleton.mp hb]
      exact fun hab => hnodup.1 (hab ▸ ha)
  | evict _ _ ih =>
    rw [List.map_cons, List.nodup_cons] at hnodup
    exact ih (hl.sublist (List.sublist_cons_self _ _)) hnodup.2

end Uses

end RtcMcu.Eviction
