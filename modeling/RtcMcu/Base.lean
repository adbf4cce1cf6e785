import Mathlib.Algebra.Group.Int.Defs
import Mathlib.Algebra.GroupWithZero.Nat
import Mathlib.Tactic.Common

/-!
# Faults and bytes

The server is C++, so a call may end without a result: an `assert(0)`, a null dereference, an
access outside a buffer, an iterator used after its container changed, an object used after it was
destroyed, a loop that does not end. The model answers `Except Fault` and says which.
-/

namespace RtcMcu

/-- An octet of a packet or of a buffer. -/
abbrev Byte := BitVec 8

/-- A sequence number of an RTP packet. -/
abbrev Seq := BitVec 16

/-- The bytes of a text. -/
def ascii (text : String) : List Byte := text.toList.map fun c => BitVec.ofNat 8 c.toNat

/-- A value that is converted to `int32_t`, or to `int`. -/
def int32 (x : Int) : Int := x.bmod (2 ^ 32)

theorem int32_of_lt {x : Int} (hlow : 0 ≤ x) (hhigh : x < 2 ^ 31) : int32 x = x := by
  rw [int32, Int.bmod_def]
  omega

/-- How a call can end without a result. -/
inductive Fault
  /-- an `assert` that does not hold -/
  | assertFailed
  /-- a null pointer is dereferenced -/
  | nullDeref
  /-- memory outside an object is read or written -/
  | outOfBounds
  /-- an integer is divided by zero -/
  | divideByZero
  /-- a container is iterated after it was modified -/
  | staleIterator
  /-- a connection is used after `RtpConnection::Destroy` -/
  | usedAfterDestroy
  /-- an object is cast to a class it is not of -/
  | wrongClass
  /-- the fuel of a loop or of a recursion ran out -/
  | outOfFuel
  deriving DecidableEq, Repr

/-- A successful sequence of two calls is two successful calls. -/
theorem bind_eq_ok {ε α β : Type} {x : Except ε α} {f : α → Except ε β} {b : β} :
    (x >>= f) = .ok b ↔ ∃ a, x = .ok a ∧ f a = .ok b := by
  cases x with
  | error e =>
    constructor
    · intro h
      cases h
    · rintro ⟨_, h, _⟩
      cases h
  | ok a =>
    refine ⟨fun h => ⟨a, rfl, h⟩, ?_⟩
    rintro ⟨a', h, hf⟩
    cases h
    exact hf

@[simp] theorem ok_bind {ε α β : Type} (a : α) (f : α → Except ε β) :
    ((Except.ok a : Except ε α) >>= f) = f a := rfl

@[simp] theorem error_bind {ε α β : Type} (e : ε) (f : α → Except ε β) :
    ((Except.error e : Except ε α) >>= f) = .error e := rfl

/-- A loop whose every round succeeds is the pure loop. -/
theorem foldlM_ok {ε α β : Type} {f : β → α → Except ε β} {g : β → α → β} (l : List α)
    (h : ∀ x ∈ l, ∀ b, f b x = .ok (g b x)) (b : β) : l.foldlM f b = .ok (l.foldl g b) := by
  induction l generalizing b with
  | nil => rfl
  | cons x l ih =>
    rw [List.foldlM_cons, h x List.mem_cons_self b, ok_bind, List.foldl_cons]
    exact ih (fun y hy => h y (List.mem_cons_of_mem x hy)) (g b x)

end RtcMcu
