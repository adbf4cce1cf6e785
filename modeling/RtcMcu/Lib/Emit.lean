import RtcMcu.Lib.Along

/-!
# Programs that make calls

A program that calls another component and does not look at the answers is the list of its calls
and how it ends (`Emit`). A fault ends it after the calls it made before. Running the calls on a
state machine gives the machine's state at each call and when the program ends (`Emit.Drives`). Two
programs may make the same calls, or the same calls of one kind, and end alike (`Emit.Agrees`). The
rules follow the structure of the program, as those of `Ends` and `Coupled` do.
-/

namespace RtcMcu

open Coupling (Ends Coupled)

/-- The calls a program made, and its result. -/
structure Emit (ε κ α : Type) where
  calls : List κ
  result : Except ε α

namespace Emit

variable {ε κ α β σ : Type}

/-- A computation without calls. -/
def lift (r : Except ε α) : Emit ε κ α := { calls := [], result := r }

/-- A call. -/
def call (k : κ) : Emit ε κ Unit := { calls := [k], result := .ok () }

def bind (x : Emit ε κ α) (f : α → Emit ε κ β) : Emit ε κ β :=
  match x.result with
  | .error e => { calls := x.calls, result := .error e }
  | .ok a => { calls := x.calls ++ (f a).calls, result := (f a).result }

instance : Monad (Emit ε κ) where
  pure a := lift (.ok a)
  bind := bind

instance : LawfulMonad (Emit ε κ) := LawfulMonad.mk' (Emit ε κ)
  (by
    rintro α ⟨calls, result⟩
    show bind { calls := calls, result := result } (fun a => lift (.ok (id a))) = _
    cases result with
    | error e => rfl
    | ok a =>
      show ({ calls := calls ++ [], result := .ok a } : Emit ε κ α) = _
      rw [List.append_nil])
  (fun a f => rfl)
  (by
    rintro α β γ ⟨calls, result⟩ f g
    cases result with
    | error e => rfl
    | ok a =>
      show bind (bind { calls := calls, result := .ok a } f) g = _
      show bind { calls := calls ++ (f a).calls, result := (f a).result } g =
        { calls := calls ++ (bind (f a) g).calls, result := (bind (f a) g).result }
      unfold bind
      cases (f a).result with
      | error e => rfl
      | ok b =>
        dsimp only
        rw [List.append_assoc])

/-! ## Results -/

@[simp] theorem result_pure (a : α) : (pure a : Emit ε κ α).result = .ok a := rfl

@[simp] theorem result_lift (r : Except ε α) : (lift r : Emit ε κ α).result = r := rfl

/-- The result of a sequence is that of the results. -/
@[simp] theorem result_bind (x : Emit ε κ α) (f : α → Emit ε κ β) :
    (x >>= f).result = x.result >>= fun a => (f a).result := by
  show (x.bind f).result = _
  unfold bind
  cases x.result with
  | error e => rfl
  | ok a => rfl

@[simp] theorem lift_ok_bind (a : α) (f : α → Emit ε κ β) :
    (lift (.ok a) : Emit ε κ α) >>= f = f a := rfl

/-- The calls of a sequence are those of both programs, unless the first one ends in a fault. -/
theorem calls_bind_ok {x : Emit ε κ α} {a : α} (h : x.result = .ok a) (f : α → Emit ε κ β) :
    (x >>= f).calls = x.calls ++ (f a).calls := by
  show (x.bind f).calls = _
  unfold bind
  rw [h]

theorem calls_bind_error {x : Emit ε κ α} {e : ε} (h : x.result = .error e)
    (f : α → Emit ε κ β) : (x >>= f).calls = x.calls := by
  show (x.bind f).calls = _
  unfold bind
  rw [h]

/-- What follows matters only at the result that is passed on. -/
theorem bind_congr_ok {x : Emit ε κ α} {f g : α → Emit ε κ β}
    (h : ∀ a, x.result = .ok a → f a = g a) : x >>= f = x >>= g := by
  show x.bind f = x.bind g
  unfold bind
  cases hx : x.result with
  | error e => rfl
  | ok a =>
    dsimp only
    rw [h a hx]

/-! ## Runs -/

variable {step : σ → κ → Except ε σ} {ok : σ → κ → Prop} {E : ε → Prop} {s : σ}

/-- The calls made on a machine from `s` on each meet it in a state that satisfies `ok`, and lead to
one that satisfies `Q` with the result. The machine and the program may also end in a fault that `E`
allows. -/
def Drives (step : σ → κ → Except ε σ) (ok : σ → κ → Prop) (E : ε → Prop) (x : Emit ε κ α) (s : σ)
    (Q : α → σ → Prop) : Prop :=
  Along step ok s x.calls ∧
    Ends E (fun s' => Ends E (fun a => Q a s') x.result) (x.calls.foldlM step s)

theorem Drives.pure {Q : α → σ → Prop} {a : α} (h : Q a s) :
    Drives step ok E (pure a : Emit ε κ α) s Q := ⟨trivial, h⟩

theorem Drives.lift {Q : α → σ → Prop} {r : Except ε α} (h : Ends E (fun a => Q a s) r) :
    Drives step ok E (lift r : Emit ε κ α) s Q := ⟨trivial, h⟩

theorem Drives.call {Q : Unit → σ → Prop} {k : κ} (hok : ok s k)
    (h : Ends E (fun s' => Q () s') (step s k)) :
    Drives step ok E (call k : Emit ε κ Unit) s Q := by
  refine ⟨⟨hok, fun _ _ => trivial⟩, ?_⟩
  show Ends E _ ([k].foldlM step s)
  rw [List.foldlM_cons]
  refine Ends.bind h fun s' _ hs' => ?_
  exact hs'

/-- Calls alone, with a result, under an invariant of the machine. -/
theorem Drives.calls {P : σ → Prop} {Q : α → σ → Prop} {ks : List κ} {a : α}
    (hok : ∀ s, ∀ k ∈ ks, P s → ok s k) (hstep : ∀ s, ∀ k ∈ ks, P s → Ends E P (step s k))
    (hs : P s) (hq : ∀ s', P s' → Q a s') :
    Drives step ok E ({ calls := ks, result := .ok a } : Emit ε κ α) s Q := by
  refine ⟨Along.of_invariant hok hstep hs, ?_⟩
  exact Ends.mono (Ends.foldlM ks hstep hs) fun s' _ hs' => hq s' hs'

theorem Drives.bind {P : α → σ → Prop} {Q : β → σ → Prop} {x : Emit ε κ α} {f : α → Emit ε κ β}
    (h : Drives step ok E x s P) (hf : ∀ a s', P a s' → Drives step ok E (f a) s' Q) :
    Drives step ok E (x >>= f) s Q := by
  show Drives step ok E (x.bind f) s Q
  obtain ⟨calls, result⟩ := x
  obtain ⟨halong, hends⟩ := h
  cases result with
  | error e => exact ⟨halong, hends⟩
  | ok a =>
    have hrest : ∀ s', calls.foldlM step s = .ok s' → Drives step ok E (f a) s' Q := by
      intro s' hs'
      exact hf a s' (Ends.of_ok hends hs')
    refine ⟨halong.append fun s' hs' => (hrest s' hs').1, ?_⟩
    show Ends E _ ((calls ++ (f a).calls).foldlM step s)
    rw [List.foldlM_append]
    refine Ends.bind hends fun s' hs' _ => ?_
    exact (hrest s' hs').2

/-! ## Two programs -/

variable {γ δ τ : Type} {kind : κ → Option τ}

/-- Two programs make the same calls, as far as `kind` sees them, and end alike: with results related
by `R` or with one and the same fault. -/
def Agrees (kind : κ → Option τ) (R : α → β → Prop) (x : Emit ε κ α) (y : Emit ε κ β) : Prop :=
  x.calls.filterMap kind = y.calls.filterMap kind ∧ Coupled (fun _ => True) R x.result y.result

theorem Agrees.pure {R : α → β → Prop} {a : α} {b : β} (h : R a b) :
    Agrees kind R (pure a : Emit ε κ α) (pure b : Emit ε κ β) := ⟨rfl, h⟩

theorem Agrees.lift {R : α → β → Prop} {r : Except ε α} {r' : Except ε β}
    (h : Coupled (fun _ => True) R r r') :
    Agrees kind R (lift r : Emit ε κ α) (lift r' : Emit ε κ β) := ⟨rfl, h⟩

theorem Agrees.call {R : Unit → Unit → Prop} {k k' : κ} (h : kind k = kind k') (hR : R () ()) :
    Agrees kind R (call k : Emit ε κ Unit) (call k' : Emit ε κ Unit) := by
  refine ⟨?_, hR⟩
  show [k].filterMap kind = [k'].filterMap kind
  rw [List.filterMap_cons, List.filterMap_cons, h]

theorem Agrees.bind {R : α → β → Prop} {S : γ → δ → Prop} {x : Emit ε κ α} {y : Emit ε κ β}
    {f : α → Emit ε κ γ} {g : β → Emit ε κ δ} (h : Agrees kind R x y)
    (hfg : ∀ a b, R a b → Agrees kind S (f a) (g b)) : Agrees kind S (x >>= f) (y >>= g) := by
  show Agrees kind S (x.bind f) (y.bind g)
  obtain ⟨calls, result⟩ := x
  obtain ⟨calls', result'⟩ := y
  obtain ⟨hcalls, hresult⟩ := h
  cases result with
  | error e =>
    cases result' with
    | error e' => exact ⟨hcalls, hresult⟩
    | ok b => exact hresult.elim
  | ok a =>
    cases result' with
    | error e' => exact hresult.elim
    | ok b =>
      obtain ⟨hrest, hends⟩ := hfg a b hresult
      refine ⟨?_, hends⟩
      show (calls ++ (f a).calls).filterMap kind = (calls' ++ (g b).calls).filterMap kind
      have hcalls' : calls.filterMap kind = calls'.filterMap kind := hcalls
      rw [List.filterMap_append, List.filterMap_append, hcalls', hrest]

end Emit

end RtcMcu
