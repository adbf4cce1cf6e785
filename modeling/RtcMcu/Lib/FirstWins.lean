import Mathlib.Tactic.Common

/-!
# First-write-wins windows

A window over a set of keys holds at most one value for each key it covers. A put names a key and
a value, and says which keys the window covers afterwards; it may also start the window afresh.
While a key stays covered the first value put for it stays; a key that leaves the window, or a
fresh start, forgets it.

`Window` is the state, `Window.log` is the history it stands for: for each key, the values put
since the key entered the present window, oldest first. `slot_run` says that a run of puts leaves
in each slot the head of that log.
-/

namespace RtcMcu.FirstWins

variable {κ α : Type} [DecidableEq κ]

/-- The keys a window covers and what it holds for each. -/
structure Window (κ α : Type) where
  covers : κ → Bool
  slot : κ → Option α

/-- One put: `value` for `key`, with the coverage it leaves. `fresh` forgets all that was held. -/
structure Put (κ α : Type) where
  key : κ
  value : α
  fresh : Bool
  covers : κ → Bool

/-- The window that covers nothing. -/
def Window.empty : Window κ α := { covers := fun _ => false, slot := fun _ => none }

/-- What survives of a key's slot when a put moves the window. -/
def Window.kept (w : Window κ α) (p : Put κ α) (s : κ) : Option α :=
  if p.fresh then none else if w.covers s then w.slot s else none

/-- A put moves the window, keeps what it may keep and fills the key's slot if it is free. -/
def Window.put (w : Window κ α) (p : Put κ α) : Window κ α where
  covers := p.covers
  slot s :=
    if p.covers s then (w.kept p s).or (if p.key = s then some p.value else none) else none

def Window.run (ps : List (Put κ α)) : Window κ α := ps.foldl Window.put Window.empty

/-- The key of a put that the window then covers has a value, the put one or an older one. -/
theorem Window.put_key_isSome (w : Window κ α) (p : Put κ α) (hc : p.covers p.key = true) :
    ((w.put p).slot p.key).isSome = true := by
  simp only [Window.put, hc, ↓reduceIte, Option.isSome_or, Option.isSome_some, Bool.or_true]

/-- A put that keeps what is held fills its slot and changes no other. -/
theorem Window.put_slot {w : Window κ α} (p : Put κ α) (hfresh : p.fresh = false)
    (hown : ∀ s, w.covers s = false → w.slot s = none) (hkey : p.covers p.key = true)
    (hnew : w.slot p.key = none) {s : κ} (hkeeps : (w.slot s).isSome = true → p.covers s = true) :
    (w.put p).slot s = if s = p.key then some p.value else w.slot s := by
  have hkept : w.kept p s = w.slot s := by
    rw [Window.kept, hfresh, if_neg Bool.false_ne_true]
    split
    · rfl
    · next hc => exact (hown s (Bool.not_eq_true _ ▸ hc)).symm
  show (if p.covers s then (w.kept p s).or _ else none) = _
  rw [hkept]
  by_cases hs : s = p.key
  · simp only [hs, hkey, hnew, Option.none_or, ↓reduceIte]
  · have hother : ¬ p.key = s := fun h => hs h.symm
    rw [if_neg hs, if_neg hother, Option.or_none]
    split
    · rfl
    · next hc =>
      cases hslot : w.slot s with
      | none => rfl
      | some a => exact absurd (hkeeps (by rw [hslot]; rfl)) hc

/-- One put's effect on the log of a key. -/
def logPut (log : κ → List α) (p : Put κ α) (s : κ) : List α :=
  if p.covers s then
    (if p.fresh then [] else log s) ++ (if p.key = s then [p.value] else [])
  else []

/-- The values put for each key since it entered the present window, oldest first. -/
def log (ps : List (Put κ α)) : κ → List α := ps.foldl logPut (fun _ => [])

/-- A log and a window agree: an uncovered key has no log, a covered one holds its log's head. -/
def Agree (w : Window κ α) (l : κ → List α) : Prop :=
  ∀ s, (w.covers s = false → l s = []) ∧ w.slot s = (l s).head?

theorem agree_put {w : Window κ α} {l : κ → List α} (h : Agree w l) (p : Put κ α) :
    Agree (w.put p) (logPut l p) := by
  intro s
  obtain ⟨hout, hslot⟩ := h s
  refine ⟨fun hc => ?_, ?_⟩
  · have hp : p.covers s = false := hc
    simp only [logPut, hp, Bool.false_eq_true, ↓reduceIte]
  · have hkept : w.kept p s = (if p.fresh then [] else l s).head? := by
      unfold Window.kept
      cases p.fresh with
      | true => rfl
      | false =>
        cases hw : w.covers s with
        | true => simpa only [Bool.false_eq_true, ↓reduceIte] using hslot
        | false => simp only [Bool.false_eq_true, ↓reduceIte, hout hw, List.head?_nil]
    simp only [Window.put, logPut, hkept]
    cases p.covers s with
    | false => rfl
    | true =>
      simp only [↓reduceIte, List.head?_append]
      congr 1
      split <;> rfl

theorem agree_foldl (ps : List (Put κ α)) {w : Window κ α} {l : κ → List α} (h : Agree w l) :
    Agree (ps.foldl Window.put w) (ps.foldl logPut l) := by
  induction ps generalizing w l with
  | nil => exact h
  | cons p ps ih => exact ih (agree_put h p)

theorem agree_run (ps : List (Put κ α)) : Agree (Window.run ps) (log ps) :=
  agree_foldl ps fun _ => ⟨fun _ => rfl, rfl⟩

/-- After a run of puts each slot holds the first value put for its key since the key entered the
present window. -/
theorem slot_run (ps : List (Put κ α)) (s : κ) : (Window.run ps).slot s = (log ps s).head? :=
  (agree_run ps s).2

end RtcMcu.FirstWins
