import Mathlib.Data.List.Basic
import RtcMcu.Lib.Coupling

/-!
# Bounded queues

A queue of at most `bound` items. Items go in behind the last one, many at a time or not at all, and
come out in front. A queue may be given more room. `Allows` says what a call may answer and leave
behind, `Runs` what a sequence of calls may.
-/

namespace RtcMcu.Fifo

open RtcMcu.Coupling

variable {α : Type}

/-- A queue and the room it has. -/
structure Queue (α : Type) where
  items : List α
  bound : Nat
  fits : items.length ≤ bound

/-- The calls: `take n` takes up to `n` items from the front, `reserve n` asks for room for `n` more,
`keep` leaves the items alone. -/
inductive Call (α : Type)
  | append (items : List α)
  | take (n : Nat)
  | keep
  | clear
  | reserve (n : Nat)

/-- What a call answers; `taken n` is how many items came out. -/
inductive Answer
  | done
  | refused
  | taken (n : Nat)
  deriving DecidableEq

/-- What a call may do. Only `reserve` may be refused for reasons of its own. -/
def Allows (q : Queue α) : Call α → Answer → Queue α → Prop
  | .append items, ans, q' =>
    (q.items.length + items.length ≤ q.bound ∧ ans = .done ∧ q'.items = q.items ++ items ∧
      q'.bound = q.bound) ∨
    (q.bound < q.items.length + items.length ∧ ans = .refused ∧ q' = q)
  | .take n, ans, q' =>
    ans = .taken (min n q.items.length) ∧ q'.items = q.items.drop n ∧ q'.bound = q.bound
  | .keep, ans, q' => ans = .done ∧ q' = q
  | .clear, ans, q' => ans = .done ∧ q'.items = [] ∧ q'.bound = q.bound
  | .reserve n, ans, q' =>
    (ans = .done ∧ q'.items = q.items ∧ q.bound ≤ q'.bound ∧ q.items.length + n ≤ q'.bound) ∨
    (ans = .refused ∧ q' = q)

/-- What a sequence of calls may do. -/
inductive Runs : Queue α → List (Call α × Answer) → Queue α → Prop
  | nil (q : Queue α) : Runs q [] q
  | cons {q₀ q₁ q₂ : Queue α} {call : Call α} {ans : Answer} {rest : List (Call α × Answer)}
      (first : Allows q₀ call ans q₁) (others : Runs q₁ rest q₂) : Runs q₀ ((call, ans) :: rest) q₂

/-- Two queues with the same items and room are one. -/
theorem Queue.ext_items {q q' : Queue α} (hitems : q.items = q'.items) (hbound : q.bound = q'.bound) :
    q = q' := by
  obtain ⟨items, bound, fits⟩ := q
  obtain ⟨items', bound', fits'⟩ := q'
  cases hitems
  cases hbound
  rfl

theorem Runs.append {q₀ q₁ q₂ : Queue α} {first second : List (Call α × Answer)}
    (h : Runs q₀ first q₁) (h' : Runs q₁ second q₂) : Runs q₀ (first ++ second) q₂ := by
  induction h with
  | nil => exact h'
  | cons hcall _ ih => exact .cons hcall (ih h')

/-- Room that was reserved is there. -/
theorem append_after_reserve {q q₁ q₂ : Queue α} {n : Nat} {items : List α} {ans : Answer}
    (hreserve : Allows q (.reserve n) .done q₁) (hn : items.length ≤ n)
    (happend : Allows q₁ (.append items) ans q₂) : ans = .done ∧ q₂.items = q.items ++ items := by
  rcases hreserve with ⟨-, hitems, -, hroom⟩ | ⟨hrefused, -⟩
  · rw [← hitems] at hroom ⊢
    rcases happend with ⟨-, hans, hitems₂, -⟩ | ⟨hfull, -, -⟩
    · exact ⟨hans, hitems₂⟩
    · omega
  · cases hrefused

/-! ## Machines that stand for a queue -/

section Machine

variable {σ γ ε : Type} (call : γ → Call α) (step : σ → γ → Except ε (σ × Answer))

/-- The steps of a machine one after the other, with the calls they stand for and the answers. -/
def runCalls (s : σ) (calls : List γ) : Except ε (σ × List (Call α × Answer)) :=
  calls.foldlM
    (fun (r : σ × List (Call α × Answer)) c => do
      let (s, ans) ← step r.1 c
      .ok (s, r.2 ++ [(call c, ans)]))
    (s, [])

/-- A run of a machine is a run of the queue it stands for, if each step is a step of the queue.
`stop` is how the machine may end early, `good` what its states keep. -/
theorem runCalls_allows {view : σ → Queue α} {good : σ → Prop} {stop : ε → Prop}
    {calls : List γ} (hstep : ∀ s, ∀ c ∈ calls, good s →
      Ends stop (fun r => good r.1 ∧ Allows (view s) (call c) r.2 (view r.1)) (step s c))
    {s : σ} (hs : good s) :
    Ends stop (fun r => good r.1 ∧ Runs (view s) r.2 (view r.1)) (runCalls call step s calls) := by
  apply Ends.foldlM (P := fun r : σ × List (Call α × Answer) =>
    good r.1 ∧ Runs (view s) r.2 (view r.1)) calls
  · rintro ⟨s₁, log⟩ c hc ⟨hgood, hruns⟩
    refine Ends.bind (hstep s₁ c hc hgood) ?_
    rintro ⟨s₂, ans⟩ - ⟨hgood₂, hallows⟩
    exact ⟨hgood₂, hruns.append (.cons hallows (.nil _))⟩
  · exact ⟨hs, .nil _⟩

end Machine

end RtcMcu.Fifo
