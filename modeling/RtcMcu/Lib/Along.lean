import RtcMcu.Lib.Coupling

/-!
# Conditions along a run

A machine steps from call to call and may fault. `Along step P s l` says of a run that `P` holds of
every call where it is made. It is what a statement about runs assumes of the calls, and what an
invariant of the machine gives.
-/

namespace RtcMcu

open Coupling (Ends Exactly Leads)

variable {ε κ σ τ : Type}

/-- Every call of a run satisfies `P` where it is made. -/
def Along (step : σ → κ → Except ε σ) (P : σ → κ → Prop) : σ → List κ → Prop
  | _, [] => True
  | s, k :: ks => P s k ∧ ∀ s', step s k = .ok s' → Along step P s' ks

/-- `Along` as a computation. -/
def alongCheck (step : σ → κ → Except ε σ) (p : σ → κ → Bool) : σ → List κ → Bool
  | _, [] => true
  | s, k :: ks => p s k &&
      match step s k with
      | .ok s' => alongCheck step p s' ks
      | .error _ => true

namespace Along

variable {step : σ → κ → Except ε σ} {P : σ → κ → Prop} {E : ε → Prop} {s : σ}

theorem of_check {p : σ → κ → Bool} (hp : ∀ s k, p s k = true → P s k) (ks : List κ) :
    ∀ {s : σ}, alongCheck step p s ks = true → Along step P s ks := by
  induction ks with
  | nil => exact fun _ => trivial
  | cons k ks ih =>
    intro s h
    obtain ⟨hk, hrest⟩ := Bool.and_eq_true_iff.mp h
    refine ⟨hp s k hk, fun s' hstep => ih ?_⟩
    rw [hstep] at hrest
    exact hrest

/-- A condition on the calls alone. -/
theorem of_mem {Q : κ → Prop} {ks : List κ} (h : ∀ k ∈ ks, Q k) :
    Along step (fun _ k => Q k) s ks := by
  induction ks generalizing s with
  | nil => trivial
  | cons k ks ih =>
    exact ⟨h k List.mem_cons_self, fun s' _ => ih fun k' hk' => h k' (List.mem_cons_of_mem k hk')⟩

theorem append {ks ks' : List κ} (h : Along step P s ks)
    (h' : ∀ s', ks.foldlM step s = .ok s' → Along step P s' ks') :
    Along step P s (ks ++ ks') := by
  induction ks generalizing s with
  | nil => exact h' s rfl
  | cons k ks ih =>
    refine ⟨h.1, fun s₁ hs₁ => ih (h.2 s₁ hs₁) fun s' hs' => ?_⟩
    apply h'
    rw [List.foldlM_cons, hs₁]
    exact hs'

/-- The state a call meets is the one the calls before it lead to. -/
theorem at_call {ks pre post : List κ} {k : κ} (h : Along step P s ks)
    (hks : ks = pre ++ k :: post) {s' : σ} (hs' : pre.foldlM step s = .ok s') : P s' k := by
  subst hks
  induction pre generalizing s with
  | nil =>
    cases hs'
    exact h.1
  | cons p pre ih =>
    rw [List.foldlM_cons, bind_eq_ok] at hs'
    obtain ⟨s₁, hs₁, hrest⟩ := hs'
    exact ih hrest (h.2 s₁ hs₁)

/-- Two conditions along one run. -/
theorem and {Q : σ → κ → Prop} {ks : List κ} (h : Along step P s ks) (h' : Along step Q s ks) :
    Along step (fun s k => P s k ∧ Q s k) s ks := by
  induction ks generalizing s with
  | nil => trivial
  | cons k ks ih =>
    exact ⟨⟨h.1, h'.1⟩, fun s' hs' => ih (h.2 s' hs') (h'.2 s' hs')⟩

/-- Conditions that are the same for every call are the same along the run. -/
theorem congr {Q : σ → κ → Prop} (hPQ : ∀ s k, P s k ↔ Q s k) (ks : List κ) :
    Along step P s ks ↔ Along step Q s ks := by
  induction ks generalizing s with
  | nil => exact Iff.rfl
  | cons k ks ih => exact and_congr (hPQ s k) (forall_congr' fun s' => imp_congr_right fun _ => ih)

/-- What an invariant says of each call, it says along the run. -/
theorem of_invariant {I : σ → Prop} {ks : List κ} (hP : ∀ s, ∀ k ∈ ks, I s → P s k)
    (hstep : ∀ s, ∀ k ∈ ks, I s → Ends E I (step s k)) (hs : I s) : Along step P s ks := by
  induction ks generalizing s with
  | nil => trivial
  | cons k ks ih =>
    refine ⟨hP s k List.mem_cons_self hs, fun s' hs' => ?_⟩
    refine ih (fun s k' hk' => hP s k' (List.mem_cons_of_mem k hk'))
      (fun s k' hk' => hstep s k' (List.mem_cons_of_mem k hk')) ?_
    exact (hstep s k List.mem_cons_self hs).of_ok hs'

/-- A run whose calls satisfy what the steps need keeps the invariant. -/
theorem run {I : σ → Prop} (hstep : ∀ s k, I s → P s k → Ends E I (step s k)) {ks : List κ}
    (h : Along step P s ks) (hs : I s) : Ends E I (ks.foldlM step s) := by
  induction ks generalizing s with
  | nil => exact hs
  | cons k ks ih =>
    rw [List.foldlM_cons]
    exact Ends.bind (hstep s k hs h.1) fun s' hs' hI => ih (h.2 s' hs') hI

/-- So does every state on the way. -/
theorem prefix_run {I : σ → Prop} (hstep : ∀ s k, I s → P s k → Ends E I (step s k))
    {ks pre post : List κ} (h : Along step P s ks) (hks : ks = pre ++ post) (hs : I s) :
    Ends E I (pre.foldlM step s) := by
  subst hks
  induction pre generalizing s with
  | nil => exact hs
  | cons k pre ih =>
    rw [List.foldlM_cons]
    exact Ends.bind (hstep s k hs h.1) fun s' hs' hI => ih hI (h.2 s' hs')

/-- A run, and the one of the calls that satisfy `p`: they stay related if a call that satisfies `p`
goes alike in both and any other keeps the relation. -/
theorem filter {step' : τ → κ → Except ε τ} {R : σ → τ → Prop} {p : κ → Bool}
    (hboth : ∀ s t k, R s t → P s k → p k = true → Leads R (step s k) (step' t k))
    (hleft : ∀ s t k, R s t → P s k → p k = false → Ends E (R · t) (step s k)) {ks : List κ} {t : τ}
    (h : Along step P s ks) (hs : R s t) :
    Leads R (ks.foldlM step s) ((ks.filter p).foldlM step' t) := by
  induction ks generalizing s t with
  | nil =>
    intro s' hs'
    cases hs'
    exact ⟨t, rfl, hs⟩
  | cons k ks ih =>
    intro s' hs'
    rw [List.foldlM_cons, bind_eq_ok] at hs'
    obtain ⟨s₁, hs₁, hrest⟩ := hs'
    cases hk : p k with
    | true =>
      obtain ⟨t₁, ht₁, h₁⟩ := hboth s t k hs h.1 hk s₁ hs₁
      rw [List.filter_cons_of_pos hk, List.foldlM_cons, ht₁]
      exact ih (h.2 s₁ hs₁) h₁ s' hrest
    | false =>
      rw [List.filter_cons_of_neg (by rw [hk]; exact Bool.false_ne_true)]
      exact ih (h.2 s₁ hs₁) ((hleft s t k hs h.1 hk).of_ok hs₁) s' hrest

/-- If each step succeeds exactly if `P` holds of the call, a run succeeds exactly if `P` holds along
it. -/
theorem exactly {I : σ → Prop} (hstep : ∀ s k, Exactly (P s k) (fun s' => I s → I s') (step s k))
    (ks : List κ) : ∀ {s : σ}, Exactly (Along step P s ks) (fun s' => I s → I s')
      (ks.foldlM step s) := by
  induction ks with
  | nil => exact fun {_} => ⟨trivial, id⟩
  | cons k ks ih =>
    intro s
    have hk := hstep s k
    rw [List.foldlM_cons]
    cases hs : step s k with
    | error e =>
      rw [hs] at hk
      exact fun h => hk h.1
    | ok s₁ =>
      rw [hs] at hk
      have hsame : Along step P s₁ ks ↔ Along step P s (k :: ks) := by
        refine ⟨fun h => ⟨hk.1, fun s' hs' => ?_⟩, fun h => h.2 s₁ hs⟩
        cases hs.symm.trans hs'
        exact h
      exact (ih.congr hsame).mono fun s' hI hs => hI (hk.2 hs)

end Along

end RtcMcu
