import Mathlib.Tactic.Common

/-!
# Conditions along a run that cannot fail

The counterpart of `Along` for a machine whose steps always succeed: `Each step P s ks` says that
`P` holds of every call of a run in the state where it is made.
-/

namespace RtcMcu

variable {κ σ : Type}

/-- Every call of a run satisfies `P` where it is made. -/
def Each (step : σ → κ → σ) (P : σ → κ → Prop) : σ → List κ → Prop
  | _, [] => True
  | s, k :: ks => P s k ∧ Each step P (step s k) ks

namespace Each

variable {step : σ → κ → σ} {P Q : σ → κ → Prop} {I : σ → Prop} {s : σ} {ks ks' : List κ}

instance decidable [∀ s k, Decidable (P s k)] : ∀ s ks, Decidable (Each step P s ks)
  | _, [] => inferInstanceAs (Decidable True)
  | s, k :: ks =>
    have := decidable (step s k) ks
    inferInstanceAs (Decidable (P s k ∧ Each step P (step s k) ks))

theorem append_iff : Each step P s (ks ++ ks') ↔
    Each step P s ks ∧ Each step P (ks.foldl step s) ks' := by
  induction ks generalizing s with
  | nil => exact ⟨fun h => ⟨trivial, h⟩, fun h => h.2⟩
  | cons k ks ih =>
    rw [List.cons_append, Each, Each, List.foldl_cons, ih, and_assoc]

/-- The state a call meets is the one the calls before it lead to. -/
theorem at_call {pre post : List κ} {k : κ} (h : Each step P s ks) (hks : ks = pre ++ k :: post) :
    P (pre.foldl step s) k := by
  subst hks
  exact (append_iff.mp h).2.1

/-- A run whose calls satisfy what the steps need keeps the invariant. -/
theorem invariant (hstep : ∀ s k, I s → P s k → I (step s k)) (h : Each step P s ks) (hs : I s) :
    I (ks.foldl step s) := by
  induction ks generalizing s with
  | nil => exact hs
  | cons k ks ih => exact ih h.2 (hstep s k hs h.1)

/-- What each call gives where the invariant holds, a run gives at every call. -/
theorem imp (hstep : ∀ s k, I s → P s k → I (step s k)) (hcall : ∀ s k, I s → P s k → Q s k)
    (h : Each step P s ks) (hs : I s) : Each step Q s ks := by
  induction ks generalizing s with
  | nil => trivial
  | cons k ks ih => exact ⟨hcall s k hs h.1, ih h.2 (hstep s k hs h.1)⟩

end Each

end RtcMcu
