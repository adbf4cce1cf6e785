import Mathlib.Data.List.Nodup
import Mathlib.Logic.Function.Basic

/-!
# Queues of slots

A queue whose items lie in slots of memory. A slot that is done with goes to a list of free slots and
is written again for a later item; when that list is longer than `limit` it is given back. `fresh`
gives a new slot, which is none of those in use.

As long as no slot is in both lists, or in one of them twice, writing one does not touch an item that
is queued, and the queue is the list of its items (`contents_push`, `contents_drain`).
-/

namespace RtcMcu.SlotPool

variable {α : Type}

/-- The memory, the slots that are queued and those that are free. -/
structure Pool (α : Type) where
  mem : Nat → α
  queued : List Nat
  free : List Nat

namespace Pool

/-- No slot stands in two places. -/
def Distinct (p : Pool α) : Prop := (p.queued ++ p.free).Nodup

/-- The items that are queued. -/
def contents (p : Pool α) : List α := p.queued.map p.mem

/-- A slot to write: the first free one, or a new one. -/
def create (fresh : List Nat → Nat) (p : Pool α) : Nat × Pool α :=
  match p.free with
  | slot :: rest => (slot, { p with free := rest })
  | [] => (fresh p.queued, p)

/-- An item is written and queued. -/
def push (fresh : List Nat → Nat) (write : α → α) (p : Pool α) : Pool α :=
  let (slot, p) := p.create fresh
  { mem := Function.update p.mem slot (write (p.mem slot))
    queued := p.queued ++ [slot]
    free := p.free }

/-- A slot becomes free, or is given back. -/
def recycle (limit : Nat) (free : List Nat) (slot : Nat) : List Nat :=
  if limit < free.length then free else free ++ [slot]

/-- The items are taken out, from the first to the last. -/
def drainLoop (limit : Nat) (mem : Nat → α) : List Nat → List Nat → List α × List Nat
  | [], free => ([], free)
  | slot :: queued, free =>
    let (items, free) := drainLoop limit mem queued (recycle limit free slot)
    (mem slot :: items, free)

def drain (limit : Nat) (p : Pool α) : List α × Pool α :=
  let (items, free) := drainLoop limit p.mem p.queued p.free
  (items, { p with queued := [], free := free })

/-! ## The items -/

section Push

variable {fresh : List Nat → Nat} {p : Pool α}

/-- The slot that is written is not in use. -/
theorem create_distinct (hfresh : ∀ used, fresh used ∉ used) (h : p.Distinct) :
    ((p.create fresh).2.queued ++ (p.create fresh).1 :: (p.create fresh).2.free).Nodup ∧
      (p.create fresh).2.queued = p.queued ∧ (p.create fresh).2.mem = p.mem := by
  unfold create
  cases hfree : p.free with
  | nil =>
    refine ⟨?_, rfl, rfl⟩
    rw [Distinct, hfree, List.append_nil] at h
    dsimp only
    rw [hfree]
    exact List.nodup_append_comm.mp (List.nodup_cons.mpr ⟨hfresh p.queued, h⟩)
  | cons slot rest =>
    refine ⟨?_, rfl, rfl⟩
    rw [Distinct, hfree] at h
    exact h

/-- A queued slot is not the one that is written. -/
theorem create_not_queued (hfresh : ∀ used, fresh used ∉ used) (h : p.Distinct) :
    (p.create fresh).1 ∉ p.queued := by
  obtain ⟨hnodup, hqueued, -⟩ := create_distinct hfresh h
  rw [hqueued] at hnodup
  intro hmem
  exact (List.nodup_append.mp hnodup).2.2 _ hmem _ List.mem_cons_self rfl

theorem push_distinct (hfresh : ∀ used, fresh used ∉ used) (write : α → α) (h : p.Distinct) :
    (p.push fresh write).Distinct := by
  obtain ⟨hnodup, -, -⟩ := create_distinct hfresh h
  show ((p.create fresh).2.queued ++ [(p.create fresh).1] ++ (p.create fresh).2.free).Nodup
  rwa [List.append_assoc, List.singleton_append]

/-- An item goes behind the others, which stay as they are. -/
theorem contents_push (hfresh : ∀ used, fresh used ∉ used) (write : α → α) (h : p.Distinct) :
    (p.push fresh write).contents = p.contents ++ [write (p.mem (p.create fresh).1)] := by
  obtain ⟨-, hqueued, hmem⟩ := create_distinct hfresh h
  have hout := create_not_queued hfresh h
  show ((p.create fresh).2.queued ++ [(p.create fresh).1]).map (Function.update (p.create fresh).2.mem
    (p.create fresh).1 (write ((p.create fresh).2.mem (p.create fresh).1))) = _
  rw [hqueued, hmem, List.map_append, contents, List.map_singleton, Function.update_self]
  congr 1
  refine List.map_congr_left fun slot hslot => Function.update_of_ne ?_ _ _
  rintro rfl
  exact hout hslot

theorem push_free (write : α → α) : (p.push fresh write).free.length ≤ p.free.length := by
  show (p.create fresh).2.free.length ≤ p.free.length
  unfold create
  cases hfree : p.free with
  | nil => exact Nat.le_of_eq (congrArg List.length hfree)
  | cons slot rest => exact Nat.le_succ _

end Push

section Drain

variable {limit : Nat} {p : Pool α}

theorem drainLoop_spec (mem : Nat → α) (queued : List Nat) {free : List Nat}
    (h : (queued ++ free).Nodup) (hlimit : free.length ≤ limit + 1) :
    (drainLoop limit mem queued free).1 = queued.map mem ∧
      (drainLoop limit mem queued free).2.Nodup ∧
      (drainLoop limit mem queued free).2.length ≤ limit + 1 := by
  induction queued generalizing free with
  | nil => exact ⟨rfl, h, hlimit⟩
  | cons slot queued ih =>
    have hrest := (List.nodup_cons.mp h).2
    have hrecycled : (queued ++ recycle limit free slot).Nodup ∧
        (recycle limit free slot).length ≤ limit + 1 := by
      unfold recycle
      split
      · exact ⟨hrest, hlimit⟩
      · next hroom =>
        refine ⟨?_, ?_⟩
        · rw [← List.append_assoc]
          exact List.nodup_append_comm.mp h
        · rw [List.length_append, List.length_singleton]
          omega
    obtain ⟨hitems, hnodup, hlen⟩ := ih hrecycled.1 hrecycled.2
    exact ⟨congrArg (mem slot :: ·) hitems, hnodup, hlen⟩

/-- All items come out, in their order. -/
theorem contents_drain (h : p.Distinct) (hlimit : p.free.length ≤ limit + 1) :
    (p.drain limit).1 = p.contents ∧ (p.drain limit).2.contents = [] ∧
      (p.drain limit).2.Distinct ∧ (p.drain limit).2.free.length ≤ limit + 1 := by
  obtain ⟨hitems, hnodup, hlen⟩ := drainLoop_spec p.mem p.queued h hlimit
  exact ⟨hitems, rfl, hnodup, hlen⟩

end Drain

end Pool

end RtcMcu.SlotPool
