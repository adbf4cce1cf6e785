import RtcMcu.Base

/-!
# Rules for fallible computations

A computation in `Except` ends with a result or with an error. `Ends E P` bounds both: results
satisfy `P`, errors satisfy `E`. `Coupled E R` compares two computations: they end alike, with
results related by `R` or with one and the same error, which satisfies `E`. `Leads R` asks this of
results only. The rules follow the structure of the code, `bind` for a sequence and `foldlM` for a
loop.
-/

namespace RtcMcu.Coupling

variable {ε α β γ δ : Type}

/-! ## One computation -/

/-- A result satisfies `P`, an error satisfies `E`. -/
def Ends (E : ε → Prop) (P : α → Prop) : Except ε α → Prop
  | .ok a => P a
  | .error e => E e

@[simp] theorem ends_ok {E : ε → Prop} {P : α → Prop} {a : α} :
    Ends E P (.ok a) ↔ P a := Iff.rfl

@[simp] theorem ends_error {E : ε → Prop} {P : α → Prop} {e : ε} :
    Ends E P (.error e) ↔ E e := Iff.rfl

theorem Ends.mono {E : ε → Prop} {P Q : α → Prop} {x : Except ε α} (h : Ends E P x)
    (hpq : ∀ a, x = .ok a → P a → Q a) : Ends E Q x := by
  cases x with
  | ok a => exact hpq a rfl h
  | error e => exact h

/-- Two bounds on one computation. -/
theorem Ends.and {E : ε → Prop} {P Q : α → Prop} {x : Except ε α} (h : Ends E P x)
    (h' : Ends E Q x) : Ends E (fun a => P a ∧ Q a) x := by
  cases x with
  | ok a => exact ⟨h, h'⟩
  | error e => exact h

theorem Ends.bind {E : ε → Prop} {P : α → Prop} {Q : β → Prop} {x : Except ε α}
    {f : α → Except ε β} (h : Ends E P x) (hf : ∀ a, x = .ok a → P a → Ends E Q (f a)) :
    Ends E Q (x >>= f) := by
  cases x with
  | ok a => exact hf a rfl h
  | error e => exact h

/-- An invariant of the rounds is one of the loop. -/
theorem Ends.foldlM {E : ε → Prop} {P : β → Prop} {f : β → α → Except ε β} (l : List α)
    (hf : ∀ b, ∀ a ∈ l, P b → Ends E P (f b a)) {b : β} (hb : P b) : Ends E P (l.foldlM f b) := by
  induction l generalizing b with
  | nil => exact hb
  | cons a l ih =>
    rw [List.foldlM_cons]
    refine Ends.bind (hf b a List.mem_cons_self hb) fun b' _ hb' => ?_
    exact ih (fun b a ha => hf b a (List.mem_cons_of_mem _ ha)) hb'

theorem Ends.of_ok {E : ε → Prop} {P : α → Prop} {x : Except ε α} {a : α} (h : Ends E P x)
    (hx : x = .ok a) : P a := by
  subst hx
  exact h

/-- A computation succeeds exactly if `p` holds, and then its result satisfies `Q`. -/
def Exactly (p : Prop) (Q : α → Prop) (x : Except ε α) : Prop :=
  Ends (fun _ => ¬ p) (fun a => p ∧ Q a) x

theorem Exactly.isOk {p : Prop} {Q : α → Prop} {x : Except ε α} (h : Exactly p Q x) :
    (∃ a, x = .ok a) ↔ p := by
  cases x with
  | ok a => exact iff_of_true ⟨a, rfl⟩ h.1
  | error e => exact iff_of_false (fun ⟨_, h⟩ => nomatch h) h

theorem Exactly.of_ok {p : Prop} {Q : α → Prop} {x : Except ε α} {a : α} (h : Exactly p Q x)
    (hx : x = .ok a) : Q a := (Ends.of_ok h hx).2

theorem Exactly.ok {p : Prop} {Q : α → Prop} {a : α} (hp : p) (hq : Q a) :
    Exactly p Q (.ok a : Except ε α) := ⟨hp, hq⟩

theorem Exactly.congr {p q : Prop} {Q : α → Prop} {x : Except ε α} (h : Exactly p Q x)
    (hpq : p ↔ q) : Exactly q Q x := by
  cases x with
  | ok a => exact ⟨hpq.mp h.1, h.2⟩
  | error e => exact fun hq => h (hpq.mpr hq)

theorem Exactly.mono {p : Prop} {Q R : α → Prop} {x : Except ε α} (h : Exactly p Q x)
    (hqr : ∀ a, Q a → R a) : Exactly p R x := Ends.mono h fun a _ ha => ⟨ha.1, hqr a ha.2⟩

/-! ## Two computations -/

/-- Two computations end alike. -/
def Coupled (E : ε → Prop) (R : α → β → Prop) : Except ε α → Except ε β → Prop
  | .ok a, .ok b => R a b
  | .error e, .error e' => e = e' ∧ E e
  | _, _ => False

@[simp] theorem coupled_ok {E : ε → Prop} {R : α → β → Prop} {a : α} {b : β} :
    Coupled E R (.ok a) (.ok b) ↔ R a b := Iff.rfl

theorem coupled_error {E : ε → Prop} {R : α → β → Prop} {e : ε} (h : E e) :
    Coupled E R (.error e) (.error e) := ⟨rfl, h⟩

theorem Coupled.mono {E : ε → Prop} {R S : α → β → Prop} {x : Except ε α} {y : Except ε β}
    (h : Coupled E R x y) (hrs : ∀ a b, R a b → S a b) : Coupled E S x y := by
  cases x with
  | ok a =>
    cases y with
    | ok b => exact hrs a b h
    | error e => exact h
  | error e =>
    cases y with
    | ok b => exact h
    | error e' => exact h

theorem Coupled.bind {E : ε → Prop} {R : α → β → Prop} {S : γ → δ → Prop} {x : Except ε α}
    {y : Except ε β} {f : α → Except ε γ} {g : β → Except ε δ} (h : Coupled E R x y)
    (hfg : ∀ a b, R a b → Coupled E S (f a) (g b)) : Coupled E S (x >>= f) (y >>= g) := by
  cases x with
  | ok a =>
    cases y with
    | ok b => exact hfg a b h
    | error e => exact h.elim
  | error e =>
    cases y with
    | ok b => exact h.elim
    | error e' => exact h

theorem Coupled.map {E : ε → Prop} {R : α → β → Prop} {S : γ → δ → Prop} {x : Except ε α}
    {y : Except ε β} {f : α → γ} {g : β → δ} (h : Coupled E R x y)
    (hfg : ∀ a b, R a b → S (f a) (g b)) : Coupled E S (x.map f) (y.map g) := by
  cases x with
  | ok a =>
    cases y with
    | ok b => exact hfg a b h
    | error e => exact h.elim
  | error e =>
    cases y with
    | ok b => exact h.elim
    | error e' => exact h

/-- Loops over one list whose rounds keep the relation. -/
theorem Coupled.foldlM {E : ε → Prop} {R : β → γ → Prop} {f : β → α → Except ε β}
    {g : γ → α → Except ε γ} (l : List α)
    (hfg : ∀ b c, ∀ a ∈ l, R b c → Coupled E R (f b a) (g c a)) {b : β} {c : γ} (hbc : R b c) :
    Coupled E R (l.foldlM f b) (l.foldlM g c) := by
  induction l generalizing b c with
  | nil => exact hbc
  | cons a l ih =>
    rw [List.foldlM_cons, List.foldlM_cons]
    refine Coupled.bind (hfg b c a List.mem_cons_self hbc) fun b' c' h' => ?_
    exact ih (fun b c a ha => hfg b c a (List.mem_cons_of_mem _ ha)) h'

/-- Two branches on one condition. -/
theorem Coupled.ite {E : ε → Prop} {R : α → β → Prop} {c : Prop} [Decidable c]
    {x x' : Except ε α} {y y' : Except ε β} (h : c → Coupled E R x y)
    (h' : ¬ c → Coupled E R x' y') :
    Coupled E R (if c then x else x') (if c then y else y') := by
  by_cases hc : c
  · rw [if_pos hc, if_pos hc]
    exact h hc
  · rw [if_neg hc, if_neg hc]
    exact h' hc

/-- One computation, whatever its faults. -/
theorem Coupled.same (x : Except ε α) : Coupled (fun _ => True) Eq x x := by
  cases x with
  | ok a => exact Eq.refl a
  | error e => exact ⟨rfl, trivial⟩

/-- A computation goes like itself. -/
theorem Ends.coupled {E : ε → Prop} {P : α → Prop} {x : Except ε α} (h : Ends E P x) :
    Coupled E (fun a b => a = b ∧ P a) x x := by
  cases x with
  | ok a => exact ⟨rfl, h⟩
  | error e => exact ⟨rfl, h⟩

theorem Coupled.ends {E : ε → Prop} {R : α → α → Prop} {x : Except ε α} (h : Coupled E R x x) :
    Ends E (fun a => R a a) x := by
  cases x with
  | ok a => exact h
  | error e => exact h.2

/-- What holds of the first result besides. -/
theorem Coupled.and_left {E : ε → Prop} {R : α → β → Prop} {P : α → Prop} {x : Except ε α}
    {y : Except ε β} (h : Coupled E R x y) (h' : Ends E P x) :
    Coupled E (fun a b => R a b ∧ P a) x y := by
  cases x with
  | ok a =>
    cases y with
    | ok b => exact ⟨h, h'⟩
    | error e => exact h
  | error e =>
    cases y with
    | ok b => exact h
    | error e' => exact h

/-- If the first succeeds, so does the second, with a related result. -/
def Leads (R : α → β → Prop) (x : Except ε α) (y : Except ε β) : Prop :=
  ∀ a, x = .ok a → ∃ b, y = .ok b ∧ R a b

theorem Leads.bind {R : α → β → Prop} {S : γ → δ → Prop} {x : Except ε α} {y : Except ε β}
    {f : α → Except ε γ} {g : β → Except ε δ} (h : Leads R x y)
    (hfg : ∀ a b, R a b → Leads S (f a) (g b)) : Leads S (x >>= f) (y >>= g) := by
  intro c hc
  cases hx : x with
  | error e =>
    rw [hx] at hc
    cases hc
  | ok a =>
    rw [hx] at hc
    obtain ⟨b, rfl, hab⟩ := h a hx
    exact hfg a b hab c hc

/-- If one of them succeeds, so does the other. -/
theorem Coupled.of_ok {E : ε → Prop} {R : α → β → Prop} {x : Except ε α} {y : Except ε β} {a : α}
    (h : Coupled E R x y) (hx : x = .ok a) : ∃ b, y = .ok b ∧ R a b := by
  subst hx
  cases y with
  | ok b => exact ⟨b, rfl, h⟩
  | error e => exact h.elim

theorem Coupled.leads {E : ε → Prop} {R : α → β → Prop} {x : Except ε α} {y : Except ε β}
    (h : Coupled E R x y) : Leads R x y := fun _ hx => h.of_ok hx

theorem Ends.leads {E : ε → Prop} {R : α → β → Prop} {x : Except ε α} {b : β}
    (h : Ends E (R · b) x) : Leads R x (.ok b) := fun _ hx => ⟨b, rfl, h.of_ok hx⟩

end RtcMcu.Coupling
