import Mathlib.Data.List.Nodup
import RtcMcu.Base
import RtcMcu.Lib.Eviction

/-!
# FIFOHashmap

`util/fifo_hash_map.h`: a list of nodes, the oldest in front, and a hash map from keys to iterators
into the list. A node has an address, which is what an iterator holds. List and map always agree, and
the list is in the order in which the keys were last set. `at`, which is to find the node of an index,
compares the index with smaller ones only and finds none.

What is released goes to `_destroy_event`; the values are noted in `released`. The callbacks do not
work on the map.
-/

namespace RtcMcu.Util

open RtcMcu.Eviction

/-- `CacheNodeType`, and where it lies. -/
structure CacheNodeType (K V : Type) where
  addr : Nat
  key : K
  value : V

/-- `FIFOHashmap`. `map` is in the order in which it is iterated, and `next` is where the next node
will lie. -/
structure FIFOHashmap (K V : Type) where
  list : List (CacheNodeType K V)
  map : List (K × Nat)
  next : Nat
  released : List V

/-- Where `hash_map` inserts an entry, and how it then orders the others. -/
structure HashOrder (K : Type) where
  insert : List (K × Nat) → K × Nat → List (K × Nat)
  perm : ∀ m e, (insert m e).Perm (e :: m)

namespace FIFOHashmap

variable {K V A : Type} [DecidableEq K]

def new : FIFOHashmap K V where
  list := []
  map := []
  next := 0
  released := []

/-- `_map.find`. -/
def find (s : FIFOHashmap K V) (key : K) : Option Nat :=
  (s.map.find? fun e => e.1 = key).map Prod.snd

/-- `_map[key] = it`. -/
def index (H : HashOrder K) (m : List (K × Nat)) (key : K) (it : Nat) : List (K × Nat) :=
  if m.any fun e => e.1 = key then m.map fun e => if e.1 = key then (key, it) else e
  else H.insert m (key, it)

/-- The node an iterator stands on. -/
def nodeAt (s : FIFOHashmap K V) (it : Nat) : Except Fault (CacheNodeType K V) :=
  match s.list.find? fun n => n.addr = it with
  | none => .error .staleIterator
  | some n => .ok n

/-- `free_memory`, `_list.erase` and `_map.erase` for one entry. -/
def release (s : FIFOHashmap K V) (key : K) (it : Nat) (value : V) : FIFOHashmap K V :=
  { s with
    released := s.released ++ [value]
    list := s.list.filter fun n => n.addr ≠ it
    map := s.map.filter fun e => e.1 ≠ key }

/-- `erase_by_key`. -/
def eraseByKey (s : FIFOHashmap K V) (key : K) : Except Fault (FIFOHashmap K V) :=
  match s.find key with
  | none => .ok s
  | some it => do
    let n ← s.nodeAt it
    .ok (s.release key it n.value)

/-- `set`. -/
def set (H : HashOrder K) (s : FIFOHashmap K V) (key : K) (value : V) :
    Except Fault (FIFOHashmap K V) := do
  let s ← s.eraseByKey key
  .ok { s with
        list := s.list ++ [{ addr := s.next, key := key, value := value }]
        map := index H s.map key s.next
        next := s.next + 1 }

/-- `get`. -/
def get (s : FIFOHashmap K V) (key : K) : Except Fault (Option V) :=
  match s.find key with
  | none => .ok none
  | some it => do
    let n ← s.nodeAt it
    .ok (some n.value)

/-- `at`. The iterator stays at the beginning. -/
def atIndex (s : FIFOHashmap K V) (index : Nat) : Option V :=
  if s.list.length < index then none
  else (List.range index).findSome? fun i =>
    if i = index then s.list.head?.map CacheNodeType.value else none

/-- The loop of `clear`. -/
def clearLoop : Nat → FIFOHashmap K V → Except Fault (FIFOHashmap K V)
  | 0, _ => .error .outOfFuel
  | fuel + 1, s =>
    if 0 < int32 s.list.length then
      match s.list.head? with
      | none => .error .outOfBounds
      | some front => do
        let s ← s.eraseByKey front.key
        clearLoop fuel s
    else .ok s

/-- `clear`. -/
def clear (s : FIFOHashmap K V) : Except Fault (FIFOHashmap K V) := clearLoop (s.list.length + 1) s

/-- A node's value is assigned. -/
def assign (s : FIFOHashmap K V) (it : Nat) (value : V) : FIFOHashmap K V :=
  { s with list := s.list.map fun n => if n.addr = it then { n with value := value } else n }

/-- The loop of `foreach_delete` over the entries that are left. `event_pfn` may change the value and
what `arg` points to, and says whether the entry goes. -/
def foreachDeleteLoop (event : A → V → A × V × BitVec 32) :
    List (K × Nat) → FIFOHashmap K V → A → Except Fault (FIFOHashmap K V × A)
  | [], s, arg => .ok (s, arg)
  | (key, it) :: rest, s, arg => do
    let n ← s.nodeAt it
    let (arg, value, isDestory) := event arg n.value
    let s := s.assign it value
    if isDestory ≠ 0 then foreachDeleteLoop event rest (s.release key it value) arg
    else foreachDeleteLoop event rest s arg

/-- `foreach_delete`. -/
def foreachDelete (s : FIFOHashmap K V) (event : A → V → A × V × BitVec 32) (arg : A) :
    Except Fault (FIFOHashmap K V) := do
  let (s, _) ← foreachDeleteLoop event s.map s arg
  .ok s

/-- `foreach_delete_all`. -/
def foreachDeleteAll (s : FIFOHashmap K V) : Except Fault (FIFOHashmap K V) :=
  s.foreachDelete (fun (_ : Unit) value => ((), value, 1)) ()

/-- The operations. -/
inductive Op (A K V : Type)
  | set (key : K) (value : V)
  | eraseByKey (key : K)
  | foreachDelete (event : A → V → A × V × BitVec 32) (arg : A)
  | foreachDeleteAll
  | clear

def step (H : HashOrder K) (s : FIFOHashmap K V) : Op A K V → Except Fault (FIFOHashmap K V)
  | .set key value => s.set H key value
  | .eraseByKey key => s.eraseByKey key
  | .foreachDelete event arg => s.foreachDelete event arg
  | .foreachDeleteAll => s.foreachDeleteAll
  | .clear => s.clear

/-- A run. -/
def run (H : HashOrder K) (s : FIFOHashmap K V) (ops : List (Op A K V)) :
    Except Fault (FIFOHashmap K V) :=
  ops.foldlM (step H) s

/-- The keys an operation sets. -/
def keysSet : Op A K V → List K
  | .set key _ => [key]
  | .eraseByKey _ | .foreachDelete _ _ | .foreachDeleteAll | .clear => []

/-- The keys and values in the list. -/
def entries (s : FIFOHashmap K V) : List (K × V) := s.list.map fun n => (n.key, n.value)

/-! ## List and map -/

/-- The list and the map hold the same keys, each once, and the map has the key's own node. -/
structure Linked (s : FIFOHashmap K V) : Prop where
  keys : (s.list.map CacheNodeType.key).Nodup
  addrs : (s.list.map CacheNodeType.addr).Nodup
  same : s.map.Perm (s.list.map fun n => (n.key, n.addr))
  fresh : ∀ n ∈ s.list, n.addr < s.next

namespace Linked

variable {s : FIFOHashmap K V} (h : Linked s)
include h

omit [DecidableEq K] in
theorem mem_map {key : K} {it : Nat} :
    (key, it) ∈ s.map ↔ ∃ n ∈ s.list, n.key = key ∧ n.addr = it := by
  rw [h.same.mem_iff, List.mem_map]
  simp only [Prod.mk.injEq]

omit [DecidableEq K] in
theorem map_keys : (s.map.map Prod.fst).Perm (s.list.map CacheNodeType.key) := by
  have hkeys := h.same.map Prod.fst
  rwa [List.map_map] at hkeys

omit [DecidableEq K] in
theorem eq_of_key {n m : CacheNodeType K V} (hn : n ∈ s.list) (hm : m ∈ s.list)
    (hkey : n.key = m.key) : n = m :=
  List.inj_on_of_nodup_map h.keys hn hm hkey

omit [DecidableEq K] in
theorem eq_of_addr {n m : CacheNodeType K V} (hn : n ∈ s.list) (hm : m ∈ s.list)
    (haddr : n.addr = m.addr) : n = m :=
  List.inj_on_of_nodup_map h.addrs hn hm haddr

omit [DecidableEq K] in
/-- The iterator of a node leads to it. -/
theorem nodeAt_eq {n : CacheNodeType K V} (hn : n ∈ s.list) : s.nodeAt n.addr = .ok n := by
  rw [nodeAt]
  cases hfind : s.list.find? fun m => m.addr = n.addr with
  | none => exact absurd (decide_eq_true rfl) (List.find?_eq_none.mp hfind n hn)
  | some m =>
    have haddr := List.find?_some hfind
    rw [decide_eq_true_eq] at haddr
    rw [h.eq_of_addr (List.mem_of_find?_eq_some hfind) hn haddr]

/-- The map finds the nodes of the list. -/
theorem find_eq {n : CacheNodeType K V} (hn : n ∈ s.list) : s.find n.key = some n.addr := by
  have hmem : (n.key, n.addr) ∈ s.map := h.mem_map.mpr ⟨n, hn, rfl, rfl⟩
  rw [find]
  cases hfind : s.map.find? fun e => e.1 = n.key with
  | none => exact absurd (decide_eq_true rfl) (List.find?_eq_none.mp hfind _ hmem)
  | some e =>
    obtain ⟨m, hm, hkey, haddr⟩ := h.mem_map.mp (List.mem_of_find?_eq_some hfind)
    have hsame := List.find?_some hfind
    rw [decide_eq_true_eq] at hsame
    rw [Option.map_some, ← haddr, h.eq_of_key hm hn (hkey.trans hsame)]

theorem find_eq_none {key : K} (hkey : key ∉ s.list.map CacheNodeType.key) :
    s.find key = none := by
  rw [find, Option.map_eq_none_iff, List.find?_eq_none]
  intro e he heq
  apply hkey
  rw [← h.map_keys.mem_iff, ← of_decide_eq_true heq]
  exact List.mem_map_of_mem he

/-- To cut a node out by its address is to cut it out by its key. -/
theorem filter_addr {n : CacheNodeType K V} (hn : n ∈ s.list) :
    s.list.filter (fun m => m.addr ≠ n.addr) = s.list.filter fun m => m.key ≠ n.key := by
  apply List.filter_congr
  intro m hm
  by_cases heq : m = n
  · rw [heq]
    simp
  · have haddr : m.addr ≠ n.addr := fun hsame => heq (h.eq_of_addr hm hn hsame)
    have hkey : m.key ≠ n.key := fun hsame => heq (h.eq_of_key hm hn hsame)
    rw [decide_eq_true haddr, decide_eq_true hkey]

/-- Without one node and its key. -/
theorem released {n : CacheNodeType K V} (hn : n ∈ s.list) (value : V) :
    Linked (s.release n.key n.addr value) := by
  have hsub : (s.list.filter fun m => m.addr ≠ n.addr).Sublist s.list := List.filter_sublist
  refine ⟨h.keys.sublist (hsub.map _), h.addrs.sublist (hsub.map _), ?_,
    fun m hm => h.fresh m (hsub.subset hm)⟩
  change (s.map.filter fun e => e.1 ≠ n.key).Perm
    ((s.list.filter fun m => m.addr ≠ n.addr).map fun n => (n.key, n.addr))
  rw [h.filter_addr hn]
  have hfilter := h.same.filter fun e => decide (e.1 ≠ n.key)
  rwa [List.filter_map] at hfilter

omit [DecidableEq K] in
/-- The values change. -/
theorem assigned (it : Nat) (value : V) :
    Linked (s.assign it value) ∧
      (s.assign it value).list.map CacheNodeType.key = s.list.map CacheNodeType.key := by
  have hkey : ∀ n : CacheNodeType K V,
      (if n.addr = it then { n with value := value } else n).key = n.key := by
    intro n
    split <;> rfl
  have haddr : ∀ n : CacheNodeType K V,
      (if n.addr = it then { n with value := value } else n).addr = n.addr := by
    intro n
    split <;> rfl
  have hkeys : (s.assign it value).list.map CacheNodeType.key = s.list.map CacheNodeType.key := by
    rw [assign, List.map_map]
    exact List.map_congr_left fun n _ => hkey n
  have haddrs : (s.assign it value).list.map CacheNodeType.addr =
      s.list.map CacheNodeType.addr := by
    rw [assign, List.map_map]
    exact List.map_congr_left fun n _ => haddr n
  refine ⟨⟨hkeys ▸ h.keys, haddrs ▸ h.addrs, ?_, ?_⟩, hkeys⟩
  · have hpairs : (s.assign it value).list.map (fun n => (n.key, n.addr)) =
        s.list.map fun n => (n.key, n.addr) := by
      rw [assign, List.map_map]
      exact List.map_congr_left fun n _ => Prod.ext (hkey n) (haddr n)
    rw [hpairs]
    exact h.same
  · intro n hn
    obtain ⟨m, hm, rfl⟩ := List.mem_map.mp hn
    rw [haddr m]
    exact h.fresh m hm

/-- A new node for a new key. -/
theorem pushed (H : HashOrder K) {key : K} (hkey : key ∉ s.list.map CacheNodeType.key) (value : V) :
    Linked
      { s with
        list := s.list ++ [{ addr := s.next, key := key, value := value }]
        map := index H s.map key s.next
        next := s.next + 1 } := by
  have haddr : s.next ∉ s.list.map CacheNodeType.addr := by
    intro hmem
    obtain ⟨n, hn, hnext⟩ := List.mem_map.mp hmem
    exact absurd (h.fresh n hn) (by rw [hnext]; exact Nat.lt_irrefl _)
  constructor
  · simp only [List.map_append, List.map_singleton]
    exact h.keys.append (List.nodup_singleton key) (by simpa using hkey)
  · simp only [List.map_append, List.map_singleton]
    exact h.addrs.append (List.nodup_singleton s.next) (by simpa using haddr)
  · have hnew : (s.map.any fun e => decide (e.1 = key)) = false := by
      rw [List.any_eq_false]
      intro e he heq
      apply hkey
      rw [← h.map_keys.mem_iff, ← of_decide_eq_true heq]
      exact List.mem_map_of_mem he
    simp only [index, hnew, Bool.false_eq_true, if_false, List.map_append, List.map_singleton]
    exact (H.perm s.map (key, s.next)).trans
      ((h.same.cons _).trans (List.perm_append_singleton _ _).symm)
  · intro n hn
    change n.addr < s.next + 1
    rcases List.mem_append.mp hn with hn | hn
    · exact Nat.lt_succ_of_lt (h.fresh n hn)
    · rw [List.mem_singleton.mp hn]
      exact Nat.lt_succ_self _

end Linked

/-! ## The operations -/

/-- What an erasure leaves: the other nodes, and the value of the key in `released`. -/
structure Erased (s : FIFOHashmap K V) (key : K) (s' : FIFOHashmap K V) : Prop where
  linked : Linked s'
  list : s'.list = s.list.filter fun n => n.key ≠ key
  once : ∀ n ∈ s.list, n.key = key → s'.released = s.released ++ [n.value]
  absent : key ∉ s.list.map CacheNodeType.key → s'.released = s.released

variable {s : FIFOHashmap K V}

theorem eraseByKey_erased (h : Linked s) (key : K) :
    ∃ s', s.eraseByKey key = .ok s' ∧ Erased s key s' := by
  by_cases hkey : key ∈ s.list.map CacheNodeType.key
  · obtain ⟨n, hn, rfl⟩ := List.mem_map.mp hkey
    refine ⟨s.release n.key n.addr n.value, ?_, h.released hn n.value, h.filter_addr hn, ?_,
      fun habsent => absurd hkey habsent⟩
    · simp only [eraseByKey, h.find_eq hn, h.nodeAt_eq hn, ok_bind]
    · intro m hm heq
      rw [h.eq_of_key hm hn heq]
      rfl
  · refine ⟨s, by simp only [eraseByKey, h.find_eq_none hkey], h, ?_, ?_, fun _ => rfl⟩
    · symm
      rw [List.filter_eq_self]
      intro n hn
      rw [decide_eq_true_eq]
      exact fun heq => hkey (heq ▸ List.mem_map_of_mem hn)
    · exact fun n hn heq => absurd (heq ▸ List.mem_map_of_mem hn) hkey

/-- What `set` leaves: the key is the newest, and its old value was released. -/
structure IsSet (s : FIFOHashmap K V) (key : K) (value : V) (s' : FIFOHashmap K V) : Prop where
  linked : Linked s'
  newest : s'.entries = (s.entries.filter fun e => e.1 ≠ key) ++ [(key, value)]
  once : ∀ n ∈ s.list, n.key = key → s'.released = s.released ++ [n.value]
  absent : key ∉ s.list.map CacheNodeType.key → s'.released = s.released

theorem set_isSet (H : HashOrder K) (h : Linked s) (key : K) (value : V) :
    ∃ s', s.set H key value = .ok s' ∧ IsSet s key value s' := by
  obtain ⟨s₁, herase, h₁⟩ := eraseByKey_erased h key
  have hkey : key ∉ s₁.list.map CacheNodeType.key := by
    intro hmem
    obtain ⟨n, hn, heq⟩ := List.mem_map.mp hmem
    rw [h₁.list] at hn
    exact of_decide_eq_true (List.mem_filter.mp hn).2 heq
  refine ⟨_, by rw [set, herase, ok_bind], h₁.linked.pushed H hkey value, ?_, h₁.once, h₁.absent⟩
  simp only [entries, List.map_append, List.map_singleton, h₁.list, List.filter_map]
  rfl

/-- The loop of `foreach_delete` over entries of the map. Each one is still there when its turn
comes, since what went before it went for other keys. -/
theorem foreachDeleteLoop_linked (event : A → V → A × V × BitVec 32) :
    ∀ (rest : List (K × Nat)) {s : FIFOHashmap K V} (arg : A), Linked s → rest ⊆ s.map →
      (rest.map Prod.fst).Nodup →
      ∃ s' arg', foreachDeleteLoop event rest s arg = .ok (s', arg') ∧ Linked s' ∧
        (s'.list.map CacheNodeType.key).Sublist (s.list.map CacheNodeType.key) := by
  intro rest
  induction rest with
  | nil => exact fun arg h _ _ => ⟨_, arg, rfl, h, List.Sublist.refl _⟩
  | cons e rest ih =>
    intro s arg h hsub hnodup
    obtain ⟨key, it⟩ := e
    rw [List.map_cons, List.nodup_cons] at hnodup
    have hmem := hsub List.mem_cons_self
    obtain ⟨n, hn, -, rfl⟩ := h.mem_map.mp hmem
    rw [foreachDeleteLoop, h.nodeAt_eq hn, ok_bind]
    generalize event arg n.value = answer
    obtain ⟨arg', value, isDestory⟩ := answer
    obtain ⟨hassigned, hkeys⟩ := h.assigned n.addr value
    dsimp only
    split
    · obtain ⟨m, hm, rfl, haddr⟩ := hassigned.mem_map.mp hmem
      have hreleased := hassigned.released hm value
      rw [haddr] at hreleased
      have hrest : rest ⊆ ((s.assign n.addr value).release m.key n.addr value).map := by
        intro e he
        refine List.mem_filter.mpr ⟨hsub (List.mem_cons_of_mem _ he), decide_eq_true fun heq => ?_⟩
        apply hnodup.1
        change m.key ∈ rest.map Prod.fst
        rw [← heq]
        exact List.mem_map_of_mem he
      obtain ⟨s', arg'', hrun, hlinked, hsublist⟩ := ih arg' hreleased hrest hnodup.2
      refine ⟨s', arg'', hrun, hlinked, hsublist.trans ?_⟩
      rw [← hkeys]
      exact List.filter_sublist.map _
    · obtain ⟨s', arg'', hrun, hlinked, hsublist⟩ :=
        ih arg' hassigned (fun e he => hsub (List.mem_cons_of_mem _ he)) hnodup.2
      exact ⟨s', arg'', hrun, hlinked, hkeys ▸ hsublist⟩

theorem foreachDelete_linked (h : Linked s) (event : A → V → A × V × BitVec 32) (arg : A) :
    ∃ s', s.foreachDelete event arg = .ok s' ∧ Linked s' ∧
      (s'.list.map CacheNodeType.key).Sublist (s.list.map CacheNodeType.key) := by
  have hnodup : (s.map.map Prod.fst).Nodup := h.map_keys.nodup_iff.mpr h.keys
  obtain ⟨s', arg', hrun, hs'⟩ :=
    foreachDeleteLoop_linked event s.map arg h (List.Subset.refl _) hnodup
  exact ⟨s', by rw [foreachDelete, hrun]; rfl, hs'⟩

theorem clearLoop_linked :
    ∀ (fuel : Nat) {s : FIFOHashmap K V}, Linked s → s.list.length < fuel →
      ∃ s', clearLoop fuel s = .ok s' ∧ Linked s' ∧
        (s'.list.map CacheNodeType.key).Sublist (s.list.map CacheNodeType.key) := by
  intro fuel
  induction fuel with
  | zero => exact fun _ hlen => absurd hlen (Nat.not_lt_zero _)
  | succ fuel ih =>
    intro s h hlen
    rw [clearLoop]
    split
    · cases hlist : s.list with
      | nil =>
        next hpos =>
        rw [hlist, List.length_nil] at hpos
        exact absurd hpos (by decide)
      | cons front l =>
        obtain ⟨s₁, herase, h₁⟩ := eraseByKey_erased h front.key
        have hshorter : s₁.list = l.filter fun n => n.key ≠ front.key := by
          rw [h₁.list, hlist, List.filter_cons_of_neg (by simp)]
        have hlen₁ : s₁.list.length < fuel := by
          have hle := List.length_filter_le (fun n => decide (n.key ≠ front.key)) l
          rw [hlist, List.length_cons] at hlen
          rw [hshorter]
          omega
        obtain ⟨s', hrun, hlinked, hsublist⟩ := ih h₁.linked hlen₁
        refine ⟨s', ?_, hlinked, hsublist.trans ?_⟩
        · simp only [List.head?_cons, herase, ok_bind, hrun]
        · rw [hshorter, List.map_cons]
          exact (List.filter_sublist.map _).cons _
    · exact ⟨s, rfl, h, List.Sublist.refl _⟩

/-! ## Runs -/

/-- List and map agree, and the list is in the order in which the keys were last set. -/
structure Ordered (s : FIFOHashmap K V) (used : List K) : Prop where
  linked : Linked s
  byLastUse : ByLastUse used (s.list.map CacheNodeType.key)

omit [DecidableEq K] in
/-- An operation that only takes keys away. -/
theorem Ordered.shrink {s' : FIFOHashmap K V} {used : List K} (h : Ordered s used)
    (hlinked : Linked s')
    (hsub : (s'.list.map CacheNodeType.key).Sublist (s.list.map CacheNodeType.key)) :
    Ordered s' (used ++ []) where
  linked := hlinked
  byLastUse := by
    rw [List.append_nil]
    exact h.byLastUse.sublist hsub

theorem step_ordered (H : HashOrder K) {used : List K} (h : Ordered s used) (op : Op A K V) :
    ∃ s', s.step H op = .ok s' ∧ Ordered s' (used ++ keysSet op) := by
  cases op with
  | set key value =>
    obtain ⟨s', hrun, hset⟩ := set_isSet H h.linked key value
    have hkeys : s'.list.map CacheNodeType.key =
        (s.list.filter fun n => n.key ≠ key).map CacheNodeType.key ++ [key] := by
      have hfst := congrArg (List.map Prod.fst) hset.newest
      simp only [entries, List.map_append, List.map_map, List.map_singleton,
        List.filter_map] at hfst
      exact hfst
    refine ⟨s', hrun, hset.linked, ?_⟩
    rw [hkeys]
    apply (h.byLastUse.sublist (List.filter_sublist.map _)).use
    intro hmem
    obtain ⟨n, hn, heq⟩ := List.mem_map.mp hmem
    exact of_decide_eq_true (List.mem_filter.mp hn).2 heq
  | eraseByKey key =>
    obtain ⟨s', hrun, herased⟩ := eraseByKey_erased h.linked key
    refine ⟨s', hrun, h.shrink herased.linked ?_⟩
    rw [herased.list]
    exact List.filter_sublist.map _
  | foreachDelete event arg =>
    obtain ⟨s', hrun, hlinked, hsub⟩ := foreachDelete_linked h.linked event arg
    exact ⟨s', hrun, h.shrink hlinked hsub⟩
  | foreachDeleteAll =>
    obtain ⟨s', hrun, hlinked, hsub⟩ :=
      foreachDelete_linked h.linked (fun (_ : Unit) value => ((), value, 1)) ()
    exact ⟨s', hrun, h.shrink hlinked hsub⟩
  | clear =>
    obtain ⟨s', hrun, hlinked, hsub⟩ := clearLoop_linked _ h.linked (Nat.lt_succ_self _)
    exact ⟨s', hrun, h.shrink hlinked hsub⟩

theorem run_ordered (H : HashOrder K) (ops : List (Op A K V)) :
    ∀ {s : FIFOHashmap K V} {used : List K}, Ordered s used →
      ∃ s', s.run H ops = .ok s' ∧ Ordered s' (used ++ ops.flatMap keysSet) := by
  induction ops with
  | nil =>
    intro s used h
    exact ⟨s, rfl, by rwa [List.flatMap_nil, List.append_nil]⟩
  | cons op ops ih =>
    intro s used h
    obtain ⟨s₁, hstep, h₁⟩ := step_ordered H h op
    obtain ⟨s', hrun, h'⟩ := ih h₁
    refine ⟨s', ?_, ?_⟩
    · rw [run, List.foldlM_cons, hstep, ok_bind]
      exact hrun
    · rwa [List.flatMap_cons, ← List.append_assoc]

omit [DecidableEq K] in
theorem new_ordered : Ordered (new : FIFOHashmap K V) [] where
  linked := ⟨List.nodup_nil, List.nodup_nil, List.Perm.refl _,
    fun _ hn => absurd hn List.not_mem_nil⟩
  byLastUse := ⟨fun _ hk => absurd hk List.not_mem_nil, List.Pairwise.nil⟩

/-! ## at -/

omit [DecidableEq K] in
/-- No index is equal to a smaller one. -/
theorem atIndex_eq_none (s : FIFOHashmap K V) (index : Nat) : s.atIndex index = none := by
  rw [atIndex]
  split
  · rfl
  · rw [List.findSome?_eq_none_iff]
    intro i hi
    exact if_neg (Nat.ne_of_lt (List.mem_range.mp hi))

/-- `at` finds the value of every index below the size. -/
def AtYields (s : FIFOHashmap K V) : Prop :=
  ∀ i (h : i < s.list.length), s.atIndex i = some s.list[i].value

/-- After every run list and map agree, in the order in which the keys were last set, and `set` moves
a key behind the others and releases its old value once. Only an empty map is one in which `at` finds
every index. -/
theorem fifo_hash_map_iff (H : HashOrder K) (ops : List (Op A K V)) :
    ∃ s, (new : FIFOHashmap K V).run H ops = .ok s ∧ Ordered s (ops.flatMap keysSet) ∧
      (∀ key value, ∃ s', s.set H key value = .ok s' ∧ IsSet s key value s') ∧
      (s.AtYields ↔ s.list = []) := by
  obtain ⟨s, hrun, hordered⟩ := run_ordered H ops new_ordered
  refine ⟨s, hrun, hordered, fun key value => set_isSet H hordered.linked key value, ?_⟩
  constructor
  · intro hyields
    by_contra hne
    have hpos := List.length_pos_iff.mpr hne
    have hfirst := hyields 0 hpos
    rw [atIndex_eq_none] at hfirst
    cases hfirst
  · intro hlist i hi
    rw [hlist] at hi
    exact absurd hi (Nat.not_lt_zero i)

/-- One key was set, and `at` does not find it. -/
theorem at_misses_first :
    ∃ s, (new : FIFOHashmap Nat Nat).run { insert := fun m e => e :: m, perm := fun _ _ => .refl _ }
        [(.set 1 10 : Op Unit Nat Nat)] = .ok s ∧
      s.entries = [(1, 10)] ∧ s.atIndex 0 = none ∧ ¬ s.AtYields := by
  refine ⟨_, rfl, rfl, rfl, fun hyields => ?_⟩
  cases hyields 0 (by decide)

end FIFOHashmap

end RtcMcu.Util
