import Mathlib.Data.List.Induction
import RtcMcu.Base
import RtcMcu.Lib.Eviction

/-!
# linked_hash_map

`util/linked_hash_map.h`: a list of nodes, the oldest in front, and a hash map from keys to iterators
into the list. A node has an address, which is what an iterator holds; to follow an iterator whose
node is not in the list is a fault. When the list grows above `_max_size`, `_cut_head` removes nodes
in front down to three quarters of that, and lets locked nodes pass to the back for once.

Next to the map the operations note what they used (`uses`: the keys that went to the back, in their
order) and what `_cut_head` removed (`evicted`), for the statements about them. `free_memory`, which
does nothing unless it is overridden, is left out.
-/

namespace RtcMcu.Util

open RtcMcu.Eviction

/-- `CacheNode`, and where it lies. -/
structure CacheNode (K V : Type) where
  addr : Nat
  key : K
  value : V
  locked : Bool

/-- `linked_hash_map`. `next` is where the next node will lie. -/
structure LinkedHashMap (K V : Type) where
  maxSize : Int
  accessOrderByGet : Bool
  list : List (CacheNode K V)
  hashMap : K → Option Nat
  next : Nat

/-- What an operation used and evicted. -/
structure Trace (K V : Type) where
  uses : List K
  evicted : List (CacheNode K V)

namespace LinkedHashMap

variable {K V : Type} [DecidableEq K]

/-- `_hash_map[key] = it`, or `_hash_map.erase`. -/
def index (m : K → Option Nat) (key : K) (it : Option Nat) : K → Option Nat :=
  fun k => if k = key then it else m k

/-- `(int)_list.size()`. -/
def size (s : LinkedHashMap K V) : Int := int32 s.list.length

/-- The node an iterator stands on. -/
def nodeAt (s : LinkedHashMap K V) (it : Nat) : Except Fault (CacheNode K V) :=
  match s.list.find? fun n => n.addr = it with
  | none => .error .staleIterator
  | some n => .ok n

/-- A member of the node an iterator stands on is assigned. -/
def modify (s : LinkedHashMap K V) (it : Nat) (f : CacheNode K V → CacheNode K V) :
    LinkedHashMap K V :=
  { s with list := s.list.map fun n => if n.addr = it then f n else n }

/-- `_adjust` with `change_seq`: the node is spliced to the end. `_hash_map[key]` would insert a null
iterator for a key that is not there. -/
def adjust (s : LinkedHashMap K V) (key : K) : Except Fault (LinkedHashMap K V) :=
  match s.hashMap key with
  | none => .error .staleIterator
  | some it => do
    let n ← s.nodeAt it
    .ok { s with
          list := s.list.filter (fun n => n.addr ≠ it) ++ [n]
          hashMap := index s.hashMap key (some n.addr) }

/-- `erase`. -/
def erase (s : LinkedHashMap K V) (key : K) : Except Fault (LinkedHashMap K V × Int) :=
  match s.hashMap key with
  | none => .ok (s, -1)
  | some it => do
    let _ ← s.nodeAt it
    let s : LinkedHashMap K V :=
      { s with list := s.list.filter (fun n => n.addr ≠ it), hashMap := index s.hashMap key none }
    .ok (s, s.size)

/-- The first loop of `_cut_head`, up to the node that was the last one. -/
def cutUnlocked (remain : Int) (backKey : K) :
    Nat → LinkedHashMap K V → Except Fault (LinkedHashMap K V × Trace K V)
  | 0, _ => .error .outOfFuel
  | fuel + 1, s =>
    if remain < s.size then
      match s.list.head? with
      | none => .error .outOfBounds
      | some front =>
        if backKey ≠ front.key then
          if front.locked then do
            let s ← s.adjust front.key
            let (s, t) ← cutUnlocked remain backKey fuel s
            .ok (s, { t with uses := front.key :: t.uses })
          else do
            let (s, _) ← s.erase front.key
            let (s, t) ← cutUnlocked remain backKey fuel s
            .ok (s, { t with evicted := front :: t.evicted })
        else .ok (s, { uses := [], evicted := [] })
    else .ok (s, { uses := [], evicted := [] })

/-- The second loop of `_cut_head`. -/
def cutLocked (remain : Int) :
    Nat → LinkedHashMap K V → Except Fault (LinkedHashMap K V × Trace K V)
  | 0, _ => .error .outOfFuel
  | fuel + 1, s =>
    if remain < s.size then
      match s.list.head? with
      | none => .error .outOfBounds
      | some front => do
        let (s, _) ← s.erase front.key
        let (s, t) ← cutLocked remain fuel s
        .ok (s, { t with evicted := front :: t.evicted })
    else .ok (s, { uses := [], evicted := [] })

/-- `remain_size`. -/
def remainSize (maxSize : Int) : Int := if maxSize < 4 then maxSize else maxSize - maxSize / 4

/-- `_cut_head`. -/
def cutHead (s : LinkedHashMap K V) : Except Fault (LinkedHashMap K V × Trace K V) :=
  if s.size ≤ s.maxSize then .ok (s, { uses := [], evicted := [] })
  else
    match s.list.getLast? with
    | none => .error .outOfBounds
    | some back => do
      let remain := remainSize s.maxSize
      let (s, t) ← cutUnlocked remain back.key (s.list.length + 1) s
      let (s, t') ← cutLocked remain (s.list.length + 1) s
      .ok (s, { uses := t.uses ++ t'.uses, evicted := t.evicted ++ t'.evicted })

/-- The limit that `reset_max_size` sets. -/
def limit (maxSize : BitVec 32) : Int := if maxSize.toInt < 1 then 1 else maxSize.toInt

/-- `reset_max_size`. -/
def resetMaxSize (s : LinkedHashMap K V) (maxSize : BitVec 32) :
    Except Fault (LinkedHashMap K V × Trace K V) :=
  cutHead { s with maxSize := limit maxSize }

/-- `set`. -/
def set (s : LinkedHashMap K V) (key : K) (value : V) :
    Except Fault (LinkedHashMap K V × Trace K V) :=
  match s.hashMap key with
  | some it => do
    let _ ← s.nodeAt it
    let s ← (s.modify it fun n => { n with value := value }).adjust key
    .ok (s, { uses := [key], evicted := [] })
  | none => do
    let (s, t) ← cutHead
      { s with
        list := s.list ++ [{ addr := s.next, key := key, value := value, locked := false }]
        hashMap := index s.hashMap key (some s.next)
        next := s.next + 1 }
    .ok (s, { t with uses := key :: t.uses })

/-- `get`: the value, or nothing for `_null_v`. -/
def get (s : LinkedHashMap K V) (key : K) :
    Except Fault (LinkedHashMap K V × Option V × Trace K V) :=
  match s.hashMap key with
  | some it => do
    let n ← s.nodeAt it
    if s.accessOrderByGet then do
      let s ← s.adjust key
      .ok (s, some n.value, { uses := [key], evicted := [] })
    else .ok (s, some n.value, { uses := [], evicted := [] })
  | none => .ok (s, none, { uses := [], evicted := [] })

/-- `lock` and `unlock`. -/
def setLocked (s : LinkedHashMap K V) (key : K) (locked : Bool) :
    Except Fault (LinkedHashMap K V × Bool) :=
  match s.hashMap key with
  | some it => do
    let _ ← s.nodeAt it
    .ok (s.modify it fun n => { n with locked := locked }, true)
  | none => .ok (s, false)

def lock (s : LinkedHashMap K V) (key : K) : Except Fault (LinkedHashMap K V × Bool) :=
  s.setLocked key true

def unlock (s : LinkedHashMap K V) (key : K) : Except Fault (LinkedHashMap K V × Bool) :=
  s.setLocked key false

/-- `linked_hash_map(max_size, access_order_by_get)`. The constructor without arguments sets
`INT_MAX` and `true`. -/
def new (maxSize : BitVec 32) (accessOrderByGet : Bool) : LinkedHashMap K V where
  maxSize := limit maxSize
  accessOrderByGet := accessOrderByGet
  list := []
  hashMap := fun _ => none
  next := 0

/-- The operations. -/
inductive Op (K V : Type)
  | set (key : K) (value : V)
  | get (key : K)
  | erase (key : K)
  | lock (key : K)
  | unlock (key : K)
  | resetMaxSize (maxSize : BitVec 32)

/-- One operation, with what it used and evicted. -/
def step (s : LinkedHashMap K V) : Op K V → Except Fault (LinkedHashMap K V × Trace K V)
  | .set key value => s.set key value
  | .get key => do
    let (s, _, t) ← s.get key
    .ok (s, t)
  | .erase key => do
    let (s, _) ← s.erase key
    .ok (s, { uses := [], evicted := [] })
  | .lock key => do
    let (s, _) ← s.lock key
    .ok (s, { uses := [], evicted := [] })
  | .unlock key => do
    let (s, _) ← s.unlock key
    .ok (s, { uses := [], evicted := [] })
  | .resetMaxSize maxSize => s.resetMaxSize maxSize

/-- A run, with all uses in their order. -/
def run (s : LinkedHashMap K V) (ops : List (Op K V)) :
    Except Fault (LinkedHashMap K V × List K) :=
  ops.foldlM
    (fun (r : LinkedHashMap K V × List K) op => do
      let (s, t) ← r.1.step op
      .ok (s, r.2 ++ t.uses))
    (s, [])

/-- What an operation uses by itself: the key it sets, and the key it gets in access order. -/
def uses (s : LinkedHashMap K V) : Op K V → List K
  | .set key _ => [key]
  | .get key => if s.accessOrderByGet ∧ (s.hashMap key).isSome then [key] else []
  | .erase _ | .lock _ | .unlock _ | .resetMaxSize _ => []

/-! ## List and index -/

/-- The list and the index hold the same keys, each once, and the index points at the key's own
node. -/
structure Linked (s : LinkedHashMap K V) : Prop where
  keys : (s.list.map CacheNode.key).Nodup
  addrs : (s.list.map CacheNode.addr).Nodup
  indexed : ∀ n ∈ s.list, s.hashMap n.key = some n.addr
  listed : ∀ key it, s.hashMap key = some it → ∃ n ∈ s.list, n.key = key ∧ n.addr = it
  fresh : ∀ n ∈ s.list, n.addr < s.next

omit [DecidableEq K] in
/-- A node is cut out of a list by its address. -/
theorem filter_addr {pre post : List (CacheNode K V)} {n : CacheNode K V}
    (h : ((pre ++ n :: post).map CacheNode.addr).Nodup) :
    (pre ++ n :: post).filter (fun m => m.addr ≠ n.addr) = pre ++ post := by
  rw [List.map_append, List.map_cons, List.nodup_append] at h
  obtain ⟨-, hpost, hdisj⟩ := h
  have hpre : ∀ m ∈ pre, m.addr ≠ n.addr := fun m hm =>
    hdisj m.addr (List.mem_map_of_mem hm) n.addr List.mem_cons_self
  have hafter : ∀ m ∈ post, m.addr ≠ n.addr := fun m hm heq =>
    (List.nodup_cons.mp hpost).1 (heq ▸ List.mem_map_of_mem hm)
  rw [List.filter_append, List.filter_cons_of_neg (by simp)]
  rw [List.filter_eq_self.mpr fun m hm => decide_eq_true (hpre m hm),
    List.filter_eq_self.mpr fun m hm => decide_eq_true (hafter m hm)]

omit [DecidableEq K] in
theorem modify_keys (s : LinkedHashMap K V) (it : Nat) {f : CacheNode K V → CacheNode K V}
    (hkey : ∀ n, (f n).key = n.key) :
    (s.modify it f).list.map CacheNode.key = s.list.map CacheNode.key := by
  rw [modify, List.map_map]
  apply List.map_congr_left
  intro n _
  rw [Function.comp_apply]
  split
  · exact hkey n
  · rfl

namespace Linked

variable {s : LinkedHashMap K V} (h : Linked s)
include h

omit [DecidableEq K] in
/-- A key of the index is the key of a node of the list. -/
theorem split {key : K} {it : Nat} (hit : s.hashMap key = some it) :
    ∃ pre n post, s.list = pre ++ n :: post ∧ n.key = key ∧ n.addr = it := by
  obtain ⟨n, hn, hkey, haddr⟩ := h.listed key it hit
  obtain ⟨pre, post, hlist⟩ := List.append_of_mem hn
  exact ⟨pre, n, post, hlist, hkey, haddr⟩

omit [DecidableEq K] in
theorem not_mem_of_none {key : K} (hnone : s.hashMap key = none) :
    key ∉ s.list.map CacheNode.key := by
  intro hmem
  obtain ⟨n, hn, rfl⟩ := List.mem_map.mp hmem
  rw [h.indexed n hn] at hnone
  cases hnone

omit [DecidableEq K] in
/-- The iterator of a node leads to it. -/
theorem nodeAt_eq {pre post : List (CacheNode K V)} {n : CacheNode K V}
    (hlist : s.list = pre ++ n :: post) : s.nodeAt n.addr = .ok n := by
  have haddrs := h.addrs
  rw [hlist, List.map_append, List.nodup_append] at haddrs
  have hpre : pre.find? (fun m => m.addr = n.addr) = none := by
    rw [List.find?_eq_none]
    intro m hm heq
    exact haddrs.2.2 m.addr (List.mem_map_of_mem hm) n.addr (by simp) (of_decide_eq_true heq)
  rw [nodeAt, hlist, List.find?_append, hpre, Option.none_or, List.find?_cons_of_pos (by simp)]

/-- A used node goes to the end. -/
theorem adjust_eq {pre post : List (CacheNode K V)} {n : CacheNode K V}
    (hlist : s.list = pre ++ n :: post) :
    s.adjust n.key = .ok { s with list := pre ++ post ++ [n] } := by
  have haddrs := h.addrs
  have hat := h.indexed n (by rw [hlist]; simp)
  have hsame : index s.hashMap n.key (some n.addr) = s.hashMap := by
    funext k
    rw [index]
    split
    · next hk => rw [hk, hat]
    · rfl
  rw [hlist] at haddrs
  simp only [adjust, hat, h.nodeAt_eq hlist, bind, Except.bind, hsame]
  rw [hlist, filter_addr haddrs]

/-- An erased node leaves list and index. -/
theorem erase_eq {pre post : List (CacheNode K V)} {n : CacheNode K V}
    (hlist : s.list = pre ++ n :: post) :
    s.erase n.key =
      .ok ({ s with list := pre ++ post, hashMap := index s.hashMap n.key none },
        int32 (pre ++ post).length) := by
  have haddrs := h.addrs
  have hat := h.indexed n (by rw [hlist]; simp)
  rw [hlist] at haddrs
  simp only [erase, hat, h.nodeAt_eq hlist, bind, Except.bind, size]
  rw [hlist, filter_addr haddrs]

omit [DecidableEq K] in
/-- The order of the list does not matter. -/
theorem perm {l : List (CacheNode K V)} (hl : s.list.Perm l) :
    Linked { s with list := l } where
  keys := (hl.map _).nodup_iff.mp h.keys
  addrs := (hl.map _).nodup_iff.mp h.addrs
  indexed n hn := h.indexed n (hl.mem_iff.mpr hn)
  listed key it hit := by
    obtain ⟨n, hn, hkey⟩ := h.listed key it hit
    exact ⟨n, hl.mem_iff.mp hn, hkey⟩
  fresh n hn := h.fresh n (hl.mem_iff.mpr hn)

omit [DecidableEq K] in
theorem maxSize (m : Int) : Linked { s with maxSize := m } where
  keys := h.keys
  addrs := h.addrs
  indexed := h.indexed
  listed := h.listed
  fresh := h.fresh

/-- Without one node and its key. -/
theorem erased {pre post : List (CacheNode K V)} {n : CacheNode K V}
    (hlist : s.list = pre ++ n :: post) :
    Linked { s with list := pre ++ post, hashMap := index s.hashMap n.key none } := by
  have hsub : (pre ++ post).Sublist s.list := by
    rw [hlist]
    exact (List.sublist_cons_self n post).append_left pre
  have hkeys := h.keys
  rw [hlist, List.map_append, List.map_cons, (List.perm_middle).nodup_iff, List.nodup_cons,
    ← List.map_append] at hkeys
  constructor
  · exact h.keys.sublist (hsub.map _)
  · exact h.addrs.sublist (hsub.map _)
  · intro m hm
    change index s.hashMap n.key none m.key = some m.addr
    have hne : m.key ≠ n.key := fun hkey => hkeys.1 (hkey ▸ List.mem_map_of_mem hm)
    rw [index, if_neg hne]
    exact h.indexed m (hsub.subset hm)
  · intro key it hit
    change index s.hashMap n.key none key = some it at hit
    rw [index] at hit
    split at hit
    · cases hit
    · next hne =>
      obtain ⟨m, hm, hkey, haddr⟩ := h.listed key it hit
      refine ⟨m, ?_, hkey, haddr⟩
      rw [hlist, List.mem_append, List.mem_cons] at hm
      rcases hm with hm | rfl | hm
      · exact List.mem_append_left _ hm
      · exact absurd hkey.symm hne
      · exact List.mem_append_right _ hm
  · exact fun m hm => h.fresh m (hsub.subset hm)

omit [DecidableEq K] in
/-- Values and locks do not matter. -/
theorem modified {it : Nat} {f : CacheNode K V → CacheNode K V} (hkey : ∀ n, (f n).key = n.key)
    (haddr : ∀ n, (f n).addr = n.addr) : Linked (s.modify it f) := by
  have haddrs : (s.modify it f).list.map CacheNode.addr = s.list.map CacheNode.addr := by
    rw [modify, List.map_map]
    apply List.map_congr_left
    intro n _
    rw [Function.comp_apply]
    split
    · exact haddr n
    · rfl
  have hmem : ∀ n ∈ (s.modify it f).list, ∃ m ∈ s.list, m.key = n.key ∧ m.addr = n.addr := by
    intro n hn
    obtain ⟨m, hm, rfl⟩ := List.mem_map.mp hn
    refine ⟨m, hm, ?_⟩
    split
    · exact ⟨(hkey m).symm, (haddr m).symm⟩
    · exact ⟨rfl, rfl⟩
  constructor
  · rw [modify_keys s it hkey]
    exact h.keys
  · rw [haddrs]
    exact h.addrs
  · intro n hn
    obtain ⟨m, hm, hk, ha⟩ := hmem n hn
    rw [← hk, ← ha]
    exact h.indexed m hm
  · intro key i hi
    obtain ⟨m, hm, hk, ha⟩ := h.listed key i hi
    refine ⟨_, List.mem_map_of_mem hm, ?_⟩
    split
    · exact ⟨(hkey m).trans hk, (haddr m).trans ha⟩
    · exact ⟨hk, ha⟩
  · intro n hn
    obtain ⟨m, hm, -, ha⟩ := hmem n hn
    rw [← ha]
    exact h.fresh m hm

/-- A new node for a new key. -/
theorem pushed {key : K} (hnew : s.hashMap key = none) (value : V) :
    Linked
      { s with
        list := s.list ++ [{ addr := s.next, key := key, value := value, locked := false }]
        hashMap := index s.hashMap key (some s.next)
        next := s.next + 1 } := by
  have hkey := h.not_mem_of_none hnew
  have haddr : s.next ∉ s.list.map CacheNode.addr := by
    intro hmem
    obtain ⟨n, hn, hnext⟩ := List.mem_map.mp hmem
    exact absurd (h.fresh n hn) (by rw [hnext]; exact Nat.lt_irrefl _)
  constructor
  · simp only [List.map_append, List.map_singleton]
    exact h.keys.append (List.nodup_singleton key) (by simpa using hkey)
  · simp only [List.map_append, List.map_singleton]
    exact h.addrs.append (List.nodup_singleton s.next) (by simpa using haddr)
  · intro n hn
    change index s.hashMap key (some s.next) n.key = some n.addr
    rw [index]
    rcases List.mem_append.mp hn with hn | hn
    · have hne : n.key ≠ key := fun heq => hkey (heq ▸ List.mem_map_of_mem hn)
      rw [if_neg hne]
      exact h.indexed n hn
    · rw [List.mem_singleton.mp hn, if_pos rfl]
  · intro k it hit
    change index s.hashMap key (some s.next) k = some it at hit
    rw [index] at hit
    split at hit
    · next hk =>
      cases hit
      exact ⟨_, List.mem_append_right _ List.mem_cons_self, hk.symm, rfl⟩
    · obtain ⟨n, hn, hat⟩ := h.listed k it hit
      exact ⟨n, List.mem_append_left _ hn, hat⟩
  · intro n hn
    change n.addr < s.next + 1
    rcases List.mem_append.mp hn with hn | hn
    · exact Nat.lt_succ_of_lt (h.fresh n hn)
    · rw [List.mem_singleton.mp hn]
      exact Nat.lt_succ_self _

end Linked

/-! ## Cutting -/

/-- What a cut of the list does: locked entries are passed over, and that is the use it notes. -/
structure Cut (s s' : LinkedHashMap K V) (t : Trace K V) : Prop where
  linked : Linked s'
  maxSize : s'.maxSize = s.maxSize
  access : s'.accessOrderByGet = s.accessOrderByGet
  evicts : ∃ passed, t.uses = passed.map CacheNode.key ∧
    Evicts (fun n => n.locked = true) s.list passed t.evicted s'.list

omit [DecidableEq K] in
theorem Cut.refl {s : LinkedHashMap K V} (h : Linked s) : Cut s s { uses := [], evicted := [] } where
  linked := h
  maxSize := rfl
  access := rfl
  evicts := ⟨[], rfl, .stop s.list⟩

omit [DecidableEq K] in
theorem Cut.append {s s' s'' : LinkedHashMap K V} {t t' : Trace K V} (h : Cut s s' t)
    (h' : Cut s' s'' t') :
    Cut s s'' { uses := t.uses ++ t'.uses, evicted := t.evicted ++ t'.evicted } where
  linked := h'.linked
  maxSize := h'.maxSize.trans h.maxSize
  access := h'.access.trans h.access
  evicts := by
    obtain ⟨passed, huses, hev⟩ := h.evicts
    obtain ⟨passed', huses', hev'⟩ := h'.evicts
    exact ⟨passed ++ passed', by rw [huses, huses', List.map_append], hev.append hev'⟩

omit [DecidableEq K] in
theorem size_nil {s : LinkedHashMap K V} (hlist : s.list = []) : s.size = 0 := by
  rw [size, hlist, List.length_nil]
  exact int32_of_lt (Int.le_refl 0) (by decide)

/-- The first loop comes to the node that was the last one after all before it: at the end either the
size fits or only locked nodes stand behind the front. -/
theorem cutUnlocked_cut (remain : Int) (back : CacheNode K V) :
    ∀ (fuel : Nat) {s : LinkedHashMap K V} {pre post : List (CacheNode K V)}, Linked s →
      s.list = pre ++ back :: post → (∀ n ∈ post, n.locked = true) → pre.length < fuel →
      ∃ s' t, cutUnlocked remain back.key fuel s = .ok (s', t) ∧ Cut s s' t ∧
        (remain < s'.size → ∀ n ∈ s'.list.tail, n.locked = true) := by
  intro fuel
  induction fuel with
  | zero => exact fun _ _ _ hfuel => absurd hfuel (Nat.not_lt_zero _)
  | succ fuel ih =>
    intro s pre post h hlist hpost hfuel
    rw [cutUnlocked]
    by_cases hsize : remain < s.size
    · rw [if_pos hsize]
      cases pre with
      | nil =>
        rw [List.nil_append] at hlist
        simp only [hlist, List.head?_cons, ne_eq, not_true_eq_false, if_false]
        refine ⟨s, _, rfl, Cut.refl h, ?_⟩
        intro _
        rw [hlist]
        exact hpost
      | cons front pre =>
        have hkeys := h.keys
        have hlist' : s.list = [] ++ front :: (pre ++ back :: post) := hlist
        rw [hlist, List.cons_append, List.map_cons, List.nodup_cons] at hkeys
        have hne : back.key ≠ front.key := by
          intro heq
          apply hkeys.1
          rw [← heq]
          exact List.mem_map_of_mem (by simp)
        rw [List.length_cons] at hfuel
        have hhead : s.list.head? = some front := by rw [hlist]; rfl
        simp only [hhead, ne_eq, hne, not_false_eq_true, if_true]
        split
        · next hlocked =>
          have hrotated : s.list.Perm ([] ++ (pre ++ back :: post) ++ [front]) := by
            rw [hlist']
            exact (List.perm_append_singleton _ _).symm
          obtain ⟨s', t, hrun, hcut, hend⟩ :=
            ih (h.perm hrotated)
              (show _ = pre ++ back :: (post ++ [front]) by
                simp only [List.nil_append, List.append_assoc, List.cons_append])
              (by
                intro n hn
                rcases List.mem_append.mp hn with hn | hn
                · exact hpost n hn
                · rw [List.mem_singleton.mp hn]
                  exact hlocked)
              (Nat.lt_of_succ_lt_succ hfuel)
          simp only [h.adjust_eq hlist', bind, Except.bind, hrun]
          refine ⟨s', _, rfl, ⟨hcut.linked, hcut.maxSize, hcut.access, ?_⟩, hend⟩
          obtain ⟨passed, huses, hev⟩ := hcut.evicts
          refine ⟨front :: passed, by rw [huses, List.map_cons], ?_⟩
          rw [hlist']
          exact .pass hlocked hev
        · next hfree =>
          obtain ⟨s', t, hrun, hcut, hend⟩ :=
            ih (h.erased hlist') (show _ = pre ++ back :: post from rfl) hpost
              (Nat.lt_of_succ_lt_succ hfuel)
          simp only [h.erase_eq hlist', bind, Except.bind, hrun]
          refine ⟨s', _, rfl, ⟨hcut.linked, hcut.maxSize, hcut.access, ?_⟩, hend⟩
          obtain ⟨passed, huses, hev⟩ := hcut.evicts
          refine ⟨passed, huses, ?_⟩
          rw [hlist']
          exact .evict (fun hlocked => absurd hlocked hfree) hev
    · rw [if_neg hsize]
      exact ⟨s, _, rfl, Cut.refl h, fun hlt => absurd hlt hsize⟩

/-- The second loop erases down to the size that remains. -/
theorem cutLocked_cut {remain : Int} (hremain : 1 ≤ remain) :
    ∀ (fuel : Nat) {s : LinkedHashMap K V}, Linked s →
      (remain < s.size → ∀ n ∈ s.list.tail, n.locked = true) → s.list.length < fuel →
      ∃ s' t, cutLocked remain fuel s = .ok (s', t) ∧ Cut s s' t ∧ s'.size ≤ remain := by
  intro fuel
  induction fuel with
  | zero => exact fun _ _ hfuel => absurd hfuel (Nat.not_lt_zero _)
  | succ fuel ih =>
    intro s h htail hfuel
    rw [cutLocked]
    by_cases hsize : remain < s.size
    · rw [if_pos hsize]
      have hlocked := htail hsize
      cases hlist : s.list with
      | nil =>
        rw [size_nil hlist] at hsize
        omega
      | cons front l =>
        rw [hlist, List.tail_cons] at hlocked
        rw [hlist, List.length_cons] at hfuel
        have hlist' : s.list = [] ++ front :: l := hlist
        obtain ⟨s', t, hrun, hcut, hend⟩ :=
          ih (h.erased hlist')
            (fun _ n hn => hlocked n (List.mem_of_mem_tail hn)) (Nat.lt_of_succ_lt_succ hfuel)
        simp only [List.head?_cons, h.erase_eq hlist', bind, Except.bind, hrun]
        refine ⟨s', _, rfl, ⟨hcut.linked, hcut.maxSize, hcut.access, ?_⟩, hend⟩
        obtain ⟨passed, huses, hev⟩ := hcut.evicts
        refine ⟨passed, huses, ?_⟩
        rw [hlist']
        exact .evict (fun _ => hlocked) hev
    · rw [if_neg hsize]
      exact ⟨s, _, rfl, Cut.refl h, Int.not_lt.mp hsize⟩

theorem remainSize_bounds {m : Int} (hm : 1 ≤ m) : 1 ≤ remainSize m ∧ remainSize m ≤ m := by
  rw [remainSize]
  split <;> omega

/-- `_cut_head` ends, and then the size fits. -/
theorem cutHead_cut {s : LinkedHashMap K V} (h : Linked s) (hmax : 1 ≤ s.maxSize) :
    ∃ s' t, s.cutHead = .ok (s', t) ∧ Cut s s' t ∧ s'.size ≤ s'.maxSize := by
  obtain ⟨hlow, hhigh⟩ := remainSize_bounds hmax
  rw [cutHead]
  by_cases hsize : s.size ≤ s.maxSize
  · rw [if_pos hsize]
    exact ⟨s, _, rfl, Cut.refl h, hsize⟩
  · rw [if_neg hsize]
    rcases List.eq_nil_or_concat s.list with hlist | ⟨pre, back, hlist⟩
    · rw [size_nil hlist] at hsize
      omega
    · rw [List.concat_eq_append] at hlist
      have hback : s.list.getLast? = some back := by rw [hlist, List.getLast?_concat]
      obtain ⟨s₁, t₁, hrun₁, hcut₁, hend₁⟩ :=
        cutUnlocked_cut (remainSize s.maxSize) back (s.list.length + 1) h hlist
          (fun n hn => absurd hn List.not_mem_nil)
          (by rw [hlist, List.length_append]; omega)
      obtain ⟨s₂, t₂, hrun₂, hcut₂, hend₂⟩ :=
        cutLocked_cut hlow (s₁.list.length + 1) hcut₁.linked hend₁ (Nat.lt_succ_self _)
      have hfst : (s₁, t₁).1 = s₁ := rfl
      simp only [hback]
      rw [hrun₁, ok_bind, hfst, hrun₂, ok_bind]
      refine ⟨s₂, _, rfl, hcut₁.append hcut₂, ?_⟩
      rw [(hcut₁.append hcut₂).maxSize]
      exact Int.le_trans hend₂ hhigh

/-! ## Runs -/

/-- The map is linked, its limit is an `int` of at least 1, and the list is in the order of last
use. -/
structure Ordered (s : LinkedHashMap K V) (used : List K) : Prop where
  linked : Linked s
  low : 1 ≤ s.maxSize
  high : s.maxSize < 2 ^ 31
  byLastUse : ByLastUse used (s.list.map CacheNode.key)

/-- The size is within the limit. -/
def Fits (s : LinkedHashMap K V) : Prop := (s.list.length : Int) ≤ s.maxSize

/-- What is said of an operation: nothing but the evicted nodes and the erased key leaves the map,
and what it uses beyond its own key are locked nodes that were passed over. -/
structure Stepped (s : LinkedHashMap K V) (used : List K) (op : Op K V) (s' : LinkedHashMap K V)
    (t : Trace K V) : Prop where
  fits : Fits s → s'.list.length < 2 ^ 31 → Fits s'
  kept : ∀ n ∈ s.list, n.key ∈ t.evicted.map CacheNode.key ∨
    n.key ∈ s'.list.map CacheNode.key ∨ op = .erase n.key
  passed : ∃ passed : List (CacheNode K V), t.uses = s.uses op ++ passed.map CacheNode.key ∧
    ∀ n ∈ passed, n ∈ s.list ∧ n.locked = true
  locked : ∀ n ∈ t.evicted, n.locked = true → ∀ m ∈ s'.list, m.locked = true
  oldest : (∀ n ∈ s.list, n.locked = false) →
    ∀ n ∈ t.evicted, ∀ m ∈ s'.list, LastBefore (used ++ t.uses) n.key m.key
  unlocked : (∀ key, op ≠ .lock key) → (∀ n ∈ s.list, n.locked = false) →
    ∀ n ∈ s'.list, n.locked = false

omit [DecidableEq K] in
theorem fits_of_size {s : LinkedHashMap K V} (hsize : s.size ≤ s.maxSize)
    (hlen : s.list.length < 2 ^ 31) : Fits s := by
  rw [size, int32_of_lt (by omega) (by omega)] at hsize
  exact hsize

theorem limit_bounds (maxSize : BitVec 32) : 1 ≤ limit maxSize ∧ limit maxSize < 2 ^ 31 := by
  have := BitVec.toInt_lt (x := maxSize)
  rw [limit]
  split <;> omega

omit [DecidableEq K] in
/-- An operation that evicts nothing. -/
theorem Stepped.of_perm {s s' : LinkedHashMap K V} {used : List K} {op : Op K V}
    (hmax : s'.maxSize = s.maxSize)
    (hkeys : (s'.list.map CacheNode.key).Perm (s.list.map CacheNode.key))
    (hlocks : ∀ n ∈ s'.list, (∃ m ∈ s.list, m.locked = n.locked) ∨ ∃ key, op = .lock key ∨
      n.locked = false) :
    Stepped s used op s' { uses := s.uses op, evicted := [] } where
  fits hfits _ := by
    have hlen := hkeys.length_eq
    rw [List.length_map, List.length_map] at hlen
    rw [Fits, hlen, hmax]
    exact hfits
  kept n hn := .inr (.inl (hkeys.mem_iff.mpr (List.mem_map_of_mem hn)))
  passed := ⟨[], by rw [List.map_nil, List.append_nil], fun n hn => absurd hn List.not_mem_nil⟩
  locked n hn := absurd hn List.not_mem_nil
  oldest _ n hn := absurd hn List.not_mem_nil
  unlocked hop hfree n hn := by
    rcases hlocks n hn with ⟨m, hm, hsame⟩ | ⟨key, hlock | hunlocked⟩
    · rw [← hsame]
      exact hfree m hm
    · exact absurd hlock (hop key)
    · exact hunlocked

omit [DecidableEq K] in
/-- An operation that leaves the map as it is. -/
theorem Stepped.unchanged {s : LinkedHashMap K V} {used : List K} {op : Op K V} :
    Stepped s used op s { uses := s.uses op, evicted := [] } :=
  .of_perm rfl (List.Perm.refl _) fun n hn => .inl ⟨n, hn, rfl⟩

/-- The node of a key goes to the end, and that is a use. -/
theorem Ordered.adjusted {s : LinkedHashMap K V} {used : List K} (h : Ordered s used) {key : K}
    {it : Nat} (hit : s.hashMap key = some it) :
    ∃ s', s.adjust key = .ok s' ∧ Ordered s' (used ++ [key]) ∧ s'.maxSize = s.maxSize ∧
      s'.list.Perm s.list := by
  obtain ⟨pre, n, post, hlist, rfl, -⟩ := h.linked.split hit
  have hperm : s.list.Perm (pre ++ post ++ [n]) := by
    rw [hlist]
    exact List.perm_middle.trans (List.perm_append_singleton _ _).symm
  have hkeys := h.linked.keys
  rw [hlist, List.map_append, List.map_cons, List.perm_middle.nodup_iff, List.nodup_cons,
    ← List.map_append] at hkeys
  refine ⟨_, h.linked.adjust_eq hlist, ⟨h.linked.perm hperm, h.low, h.high, ?_⟩, rfl,
    hperm.symm⟩
  have hbefore : ByLastUse used ((pre ++ post).map CacheNode.key) := by
    apply h.byLastUse.sublist
    rw [hlist]
    exact ((List.sublist_cons_self n post).append_left pre).map _
  rw [List.map_append, List.map_singleton]
  exact hbefore.use hkeys.1

/-- Evicting leaves the order of last use. -/
theorem Ordered.cutHead {s : LinkedHashMap K V} {used : List K} (h : Ordered s used) :
    ∃ s' t, s.cutHead = .ok (s', t) ∧ Cut s s' t ∧ Ordered s' (used ++ t.uses) ∧
      s'.size ≤ s'.maxSize := by
  obtain ⟨s', t, hrun, hcut, hsize⟩ := cutHead_cut h.linked h.low
  refine ⟨s', t, hrun, hcut, ⟨hcut.linked, ?_, ?_, ?_⟩, hsize⟩
  · rw [hcut.maxSize]
    exact h.low
  · rw [hcut.maxSize]
    exact h.high
  · obtain ⟨passed, huses, hev⟩ := hcut.evicts
    rw [huses]
    exact hev.byLastUse h.byLastUse h.linked.keys

omit [DecidableEq K] in
/-- When no node is locked, the evicted ones were used before those that stay. -/
theorem Cut.oldest {s s' : LinkedHashMap K V} {t : Trace K V} {used : List K} (h : Cut s s' t)
    (hs : Ordered s used) (hfree : ∀ n ∈ s.list, n.locked = false) :
    ∀ n ∈ t.evicted, ∀ m ∈ s'.list, LastBefore (used ++ t.uses) n.key m.key := by
  obtain ⟨passed, huses, hev⟩ := h.evicts
  obtain ⟨rfl, hlist⟩ := hev.of_unpinned fun n hn => by simp [hfree n hn]
  have horder := hs.byLastUse
  rw [hlist, List.map_append] at horder
  intro n hn m hm
  rw [huses, List.map_nil, List.append_nil]
  exact horder.front _ (List.mem_map_of_mem hn) _ (List.mem_map_of_mem hm)

omit [DecidableEq K] in
/-- A cut, possibly after a new node was put behind the others. -/
theorem Cut.stepped {s s₁ s' : LinkedHashMap K V} {t : Trace K V} {used : List K} {op : Op K V}
    (h : Cut s₁ s' t) (hs₁ : Ordered s₁ (used ++ s.uses op)) (hsize : s'.size ≤ s'.maxSize)
    (hsub : s.list ⊆ s₁.list) (hnew : ∀ n ∈ s₁.list, n ∈ s.list ∨ n.locked = false) :
    Stepped s used op s' { t with uses := s.uses op ++ t.uses } where
  fits _ hlen := fits_of_size hsize hlen
  kept n hn := by
    obtain ⟨passed, -, hev⟩ := h.evicts
    rcases List.mem_append.mp (hev.perm.mem_iff.mp (hsub hn)) with hmem | hmem
    · exact .inl (List.mem_map_of_mem hmem)
    · exact .inr (.inl (List.mem_map_of_mem hmem))
  passed := by
    obtain ⟨passed, huses, hev⟩ := h.evicts
    refine ⟨passed, by rw [huses], ?_⟩
    intro n hn
    have hlocked := hev.pinned_of_passed n hn
    rcases hnew n (hev.passed_subset hn) with hmem | hfree
    · exact ⟨hmem, hlocked⟩
    · rw [hfree] at hlocked
      cases hlocked
  locked n hn hlocked := by
    obtain ⟨passed, -, hev⟩ := h.evicts
    exact hev.pinned_of_pinned hn hlocked
  oldest hfree := by
    rw [← List.append_assoc]
    apply h.oldest hs₁
    intro n hn
    rcases hnew n hn with hmem | hunlocked
    · exact hfree n hmem
    · exact hunlocked
  unlocked _ hfree n hn := by
    obtain ⟨passed, -, hev⟩ := h.evicts
    rcases hnew n (hev.perm.mem_iff.mpr (List.mem_append_right _ hn)) with hmem | hunlocked
    · exact hfree n hmem
    · exact hunlocked

theorem set_step {s : LinkedHashMap K V} {used : List K} (h : Ordered s used) (key : K)
    (value : V) :
    ∃ s' t, s.set key value = .ok (s', t) ∧ Ordered s' (used ++ t.uses) ∧
      Stepped s used (.set key value) s' t := by
  cases hit : s.hashMap key with
  | some it =>
    obtain ⟨pre, n, post, hlist, -, rfl⟩ := h.linked.split hit
    have hkeys : (s.modify n.addr fun n => { n with value := value }).list.map CacheNode.key =
        s.list.map CacheNode.key := modify_keys s n.addr fun _ => rfl
    have hmodified : Ordered (s.modify n.addr fun n => { n with value := value }) used :=
      ⟨h.linked.modified (fun _ => rfl) (fun _ => rfl), h.low, h.high, by
        rw [hkeys]
        exact h.byLastUse⟩
    obtain ⟨s', hrun, hs', hmax, hperm⟩ := hmodified.adjusted (show _ = some n.addr from hit)
    simp only [set, hit, h.linked.nodeAt_eq hlist, hrun, ok_bind]
    refine ⟨s', _, rfl, hs', .of_perm hmax ?_ ?_⟩
    · rw [← hkeys]
      exact hperm.map _
    · intro m hm
      obtain ⟨m', hm', rfl⟩ := List.mem_map.mp (hperm.mem_iff.mp hm)
      refine .inl ⟨m', hm', ?_⟩
      split <;> rfl
  | none =>
    have hpushed : Ordered
        { s with
          list := s.list ++ [{ addr := s.next, key := key, value := value, locked := false }]
          hashMap := index s.hashMap key (some s.next)
          next := s.next + 1 }
        (used ++ s.uses (.set key value)) := by
      refine ⟨h.linked.pushed hit value, h.low, h.high, ?_⟩
      change ByLastUse (used ++ [key]) ((s.list ++ [_]).map CacheNode.key)
      rw [List.map_append, List.map_singleton]
      exact h.byLastUse.use (h.linked.not_mem_of_none hit)
    obtain ⟨s', t, hrun, hcut, hs', hsize⟩ := hpushed.cutHead
    simp only [set, hit, hrun, ok_bind]
    refine ⟨s', _, rfl, ?_, hcut.stepped hpushed hsize (List.subset_append_left _ _) ?_⟩
    · rw [List.append_assoc] at hs'
      exact hs'
    · intro n hn
      rcases List.mem_append.mp hn with hn | hn
      · exact .inl hn
      · rw [List.mem_singleton.mp hn]
        exact .inr rfl

theorem get_step {s : LinkedHashMap K V} {used : List K} (h : Ordered s used) (key : K) :
    ∃ s' t, s.step (.get key) = .ok (s', t) ∧ Ordered s' (used ++ t.uses) ∧
      Stepped s used (.get key) s' t := by
  rw [step, get]
  cases hit : s.hashMap key with
  | some it =>
    obtain ⟨pre, n, post, hlist, -, rfl⟩ := h.linked.split hit
    simp only [h.linked.nodeAt_eq hlist, ok_bind]
    cases hacc : s.accessOrderByGet with
    | true =>
      have huses : s.uses (.get key) = [key] := by rw [uses, hacc, hit]; rfl
      obtain ⟨s', hrun, hs', hmax, hperm⟩ := h.adjusted hit
      simp only [if_true, hrun, ok_bind]
      rw [← huses] at hs' ⊢
      exact ⟨s', _, rfl, hs', .of_perm hmax (hperm.map _)
        fun m hm => .inl ⟨m, hperm.mem_iff.mp hm, rfl⟩⟩
    | false =>
      have huses : s.uses (.get key) = [] := by rw [uses, hacc]; rfl
      simp only [Bool.false_eq_true, if_false, ok_bind]
      rw [← huses]
      refine ⟨s, _, rfl, ?_, .unchanged⟩
      rw [huses, List.append_nil]
      exact h
  | none =>
    have huses : s.uses (.get key) = [] := by simp [uses, hit]
    simp only [ok_bind]
    rw [← huses]
    refine ⟨s, _, rfl, ?_, .unchanged⟩
    rw [huses, List.append_nil]
    exact h

theorem erase_step {s : LinkedHashMap K V} {used : List K} (h : Ordered s used) (key : K) :
    ∃ s' t, s.step (.erase key) = .ok (s', t) ∧ Ordered s' (used ++ t.uses) ∧
      Stepped s used (.erase key) s' t := by
  rw [step]
  cases hit : s.hashMap key with
  | none =>
    simp only [erase, hit, ok_bind]
    refine ⟨s, _, rfl, ?_, .unchanged⟩
    rw [List.append_nil]
    exact h
  | some it =>
    obtain ⟨pre, n, post, hlist, rfl, -⟩ := h.linked.split hit
    have hsub : (pre ++ post).Sublist s.list := by
      rw [hlist]
      exact (List.sublist_cons_self n post).append_left pre
    simp only [h.linked.erase_eq hlist, ok_bind]
    refine ⟨_, _, rfl, ?_, ?_⟩
    · rw [List.append_nil]
      exact ⟨h.linked.erased hlist, h.low, h.high, h.byLastUse.sublist (hsub.map _)⟩
    · constructor
      · intro hfits _
        have hlen := hsub.length_le
        change ((pre ++ post).length : Int) ≤ s.maxSize
        rw [Fits] at hfits
        omega
      · intro m hm
        rw [hlist, List.mem_append, List.mem_cons] at hm
        rcases hm with hm | rfl | hm
        · exact .inr (.inl (List.mem_map_of_mem (List.mem_append_left _ hm)))
        · exact .inr (.inr rfl)
        · exact .inr (.inl (List.mem_map_of_mem (List.mem_append_right _ hm)))
      · exact ⟨[], rfl, fun m hm => absurd hm List.not_mem_nil⟩
      · exact fun m hm => absurd hm List.not_mem_nil
      · exact fun _ m hm => absurd hm List.not_mem_nil
      · exact fun _ hfree m hm => hfree m (hsub.subset hm)

omit [DecidableEq K] in
theorem setLocked_step {s : LinkedHashMap K V} {used : List K} (h : Ordered s used) (key : K)
    (locked : Bool) (op : Op K V) (hop : s.uses op = [])
    (hlock : (∃ key, op = .lock key) ∨ locked = false) :
    ∃ s' found, s.setLocked key locked = .ok (s', found) ∧ Ordered s' used ∧
      Stepped s used op s' { uses := [], evicted := [] } := by
  rw [setLocked, ← hop]
  cases hit : s.hashMap key with
  | none => exact ⟨s, _, rfl, h, .unchanged⟩
  | some it =>
    obtain ⟨pre, n, post, hlist, -, rfl⟩ := h.linked.split hit
    have hkeys : (s.modify n.addr fun n => { n with locked := locked }).list.map CacheNode.key =
        s.list.map CacheNode.key := modify_keys s n.addr fun _ => rfl
    simp only [h.linked.nodeAt_eq hlist, ok_bind]
    refine ⟨_, _, rfl, ⟨h.linked.modified (fun _ => rfl) (fun _ => rfl), h.low, h.high, ?_⟩, ?_⟩
    · rw [hkeys]
      exact h.byLastUse
    · refine .of_perm rfl (by rw [hkeys]) ?_
      intro m hm
      obtain ⟨m', hm', rfl⟩ := List.mem_map.mp hm
      split
      · refine .inr ?_
        rcases hlock with ⟨key, rfl⟩ | rfl
        · exact ⟨key, .inl rfl⟩
        · exact ⟨n.key, .inr rfl⟩
      · exact .inl ⟨m', hm', rfl⟩

/-- What one operation preserves. -/
theorem step_ordered {s : LinkedHashMap K V} {used : List K} (h : Ordered s used) (op : Op K V) :
    ∃ s' t, s.step op = .ok (s', t) ∧ Ordered s' (used ++ t.uses) ∧ Stepped s used op s' t := by
  cases op with
  | set key value => exact set_step h key value
  | get key => exact get_step h key
  | erase key => exact erase_step h key
  | lock key =>
    obtain ⟨s', found, hrun, hs', hstep⟩ :=
      setLocked_step h key true (.lock key) rfl (.inl ⟨key, rfl⟩)
    simp only [step, lock, hrun, ok_bind]
    exact ⟨s', _, rfl, by rwa [List.append_nil], hstep⟩
  | unlock key =>
    obtain ⟨s', found, hrun, hs', hstep⟩ :=
      setLocked_step h key false (.unlock key) rfl (.inr rfl)
    simp only [step, unlock, hrun, ok_bind]
    exact ⟨s', _, rfl, by rwa [List.append_nil], hstep⟩
  | resetMaxSize maxSize =>
    have hlimited : Ordered { s with maxSize := limit maxSize }
        (used ++ s.uses (.resetMaxSize maxSize)) := by
      rw [uses, List.append_nil]
      exact ⟨h.linked.maxSize _, (limit_bounds maxSize).1, (limit_bounds maxSize).2, h.byLastUse⟩
    obtain ⟨s', t, hrun, hcut, hs', hsize⟩ := hlimited.cutHead
    simp only [step, resetMaxSize, hrun]
    refine ⟨s', t, rfl, ?_, hcut.stepped hlimited hsize (List.Subset.refl _) fun _ => .inl⟩
    rw [uses, List.append_nil] at hs'
    exact hs'

omit [DecidableEq K] in
/-- A new map. -/
theorem new_ordered (maxSize : BitVec 32) (access : Bool) :
    Ordered (new maxSize access : LinkedHashMap K V) [] where
  linked :=
    { keys := List.nodup_nil
      addrs := List.nodup_nil
      indexed := fun _ hn => absurd hn List.not_mem_nil
      listed := fun _ _ hit => nomatch hit
      fresh := fun _ hn => absurd hn List.not_mem_nil }
  low := (limit_bounds maxSize).1
  high := (limit_bounds maxSize).2
  byLastUse := ⟨fun _ hk => absurd hk List.not_mem_nil, List.Pairwise.nil⟩

theorem run_append (s : LinkedHashMap K V) (ops : List (Op K V)) (op : Op K V) :
    s.run (ops ++ [op]) =
      s.run ops >>= fun r => r.1.step op >>= fun q => .ok (q.1, r.2 ++ q.2.uses) := by
  rw [run, List.foldlM_append, run]
  congr 1
  funext r
  rw [List.foldlM_cons]
  cases r.1.step op with
  | error e => rfl
  | ok q => rfl

/-- A run does not fault, and keeps list and index linked and the order of last use. -/
theorem run_ordered (maxSize : BitVec 32) (access : Bool) (ops : List (Op K V)) :
    ∃ s used, (new maxSize access).run ops = .ok (s, used) ∧ Ordered s used := by
  induction ops using List.reverseRecOn with
  | nil => exact ⟨_, _, rfl, new_ordered maxSize access⟩
  | append_singleton ops op ih =>
    obtain ⟨s, used, hrun, hs⟩ := ih
    obtain ⟨s', t, hstep, hs', -⟩ := step_ordered hs op
    rw [run_append, hrun, ok_bind, hstep, ok_bind]
    exact ⟨s', _, rfl, hs'⟩

/-- A run without `lock` locks nothing. -/
theorem run_unlocked (maxSize : BitVec 32) (access : Bool) (ops : List (Op K V))
    (hops : ∀ key, Op.lock key ∉ ops) {s : LinkedHashMap K V} {used : List K}
    (hrun : (new maxSize access).run ops = .ok (s, used)) : ∀ n ∈ s.list, n.locked = false := by
  induction ops using List.reverseRecOn generalizing s used with
  | nil =>
    cases hrun
    exact fun n hn => absurd hn List.not_mem_nil
  | append_singleton ops op ih =>
    obtain ⟨s₀, used₀, hrun₀, hs₀⟩ := run_ordered (K := K) (V := V) maxSize access ops
    obtain ⟨s', t, hstep, -, hstepped⟩ := step_ordered hs₀ op
    rw [run_append, hrun₀, ok_bind, hstep, ok_bind] at hrun
    cases hrun
    apply hstepped.unlocked
    · intro key heq
      exact hops key (List.mem_append_right _ (by rw [heq]; exact List.mem_cons_self))
    · exact ih (fun key hmem => hops key (List.mem_append_left _ hmem)) hrun₀

/-- As long as there are fewer than 2³¹ entries, which an `int` can count, there are never more than
the limit. -/
theorem run_fits (maxSize : BitVec 32) (access : Bool) (ops : List (Op K V))
    {s : LinkedHashMap K V} {used : List K} (hrun : (new maxSize access).run ops = .ok (s, used))
    (hlen : ∀ ops₁ ops₂ s₁ used₁, ops = ops₁ ++ ops₂ →
      (new maxSize access : LinkedHashMap K V).run ops₁ = .ok (s₁, used₁) →
      s₁.list.length < 2 ^ 31) :
    Fits s := by
  induction ops using List.reverseRecOn generalizing s used with
  | nil =>
    cases hrun
    exact Int.le_trans Int.one_nonneg (limit_bounds maxSize).1
  | append_singleton ops op ih =>
    obtain ⟨s₀, used₀, hrun₀, hs₀⟩ := run_ordered (K := K) (V := V) maxSize access ops
    obtain ⟨s', t, hstep, -, hstepped⟩ := step_ordered hs₀ op
    have hrun' := hrun
    rw [run_append, hrun₀, ok_bind, hstep, ok_bind] at hrun'
    cases hrun'
    apply hstepped.fits
    · apply ih hrun₀
      intro ops₁ ops₂ s₁ used₁ hops
      exact hlen ops₁ (ops₂ ++ [op]) s₁ used₁ (by rw [hops, List.append_assoc])
    · exact hlen (ops ++ [op]) [] _ _ (by rw [List.append_nil]) hrun

/-- The map over its runs. Whatever a run has done, list and index are linked, an operation comes to
its end, a locked node is evicted only when no other node is left, and when no node is locked the
nodes that were used least recently are evicted, where passing over a locked node counts as a use. -/
theorem run_evicts_oldest (maxSize : BitVec 32) (access : Bool) (ops : List (Op K V)) :
    ∃ s used, (new maxSize access).run ops = .ok (s, used) ∧ Linked s ∧
      ((∀ ops₁ ops₂ s₁ used₁, ops = ops₁ ++ ops₂ →
        (new maxSize access : LinkedHashMap K V).run ops₁ = .ok (s₁, used₁) →
        s₁.list.length < 2 ^ 31) → Fits s) ∧
      ((∀ key, Op.lock key ∉ ops) → ∀ n ∈ s.list, n.locked = false) ∧
      ∀ op, ∃ s' t, s.step op = .ok (s', t) ∧ Stepped s used op s' t := by
  obtain ⟨s, used, hrun, hs⟩ := run_ordered (K := K) (V := V) maxSize access ops
  refine ⟨s, used, hrun, hs.linked, run_fits maxSize access ops hrun,
    fun hops => run_unlocked maxSize access ops hops hrun, ?_⟩
  intro op
  obtain ⟨s', t, hstep, -, hstepped⟩ := step_ordered hs op
  exact ⟨s', t, hstep, hstepped⟩

/-- A node that was passed over while it was locked outlives one that was set after it: key 1 is set
first and no longer locked when 5 is set, and yet 3 is evicted and 1 stays. -/
theorem passed_over_outlives :
    ∃ s used s' t, (new 3#32 false : LinkedHashMap Nat Unit).run
        [.set 1 (), .lock 1, .set 2 (), .set 3 (), .set 4 (), .unlock 1] = .ok (s, used) ∧
      (∀ n ∈ s.list, n.locked = false) ∧ s.step (.set 5 ()) = .ok (s', t) ∧
      t.evicted.map CacheNode.key = [3] ∧ s'.list.map CacheNode.key = [4, 1, 5] := by
  refine ⟨_, _, _, _, rfl, ?_, rfl, rfl, rfl⟩
  decide

end LinkedHashMap

end RtcMcu.Util
