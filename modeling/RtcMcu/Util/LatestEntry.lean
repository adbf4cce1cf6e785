import RtcMcu.Util.LinkedHashMap

/-!
# The entry that was just set

`set` puts a new node behind the others and then calls `_cut_head`, which lets the locked nodes pass
behind it. When the nodes that are not locked do not suffice to come down to `remain_size`, the new
node stands in front of the locked ones, and the second loop begins with it: what was just set is
gone (`set_keeps_iff`). Every other entry keeps its value or is evicted.
-/

namespace RtcMcu.Util.LinkedHashMap

open RtcMcu.Eviction

variable {K V : Type} [DecidableEq K]

/-- `contains`. -/
def contains (s : LinkedHashMap K V) (key : K) : Bool := (s.hashMap key).isSome

/-- `reference`: the value, or nothing for `_null_v`. -/
def reference (s : LinkedHashMap K V) (key : K) : Except Fault (Option V) :=
  match s.hashMap key with
  | some it => do
    let n ← s.nodeAt it
    .ok (some n.value)
  | none => .ok none

/-- What a `set` is for: the value is there, and no other entry is touched unless it is evicted. -/
structure Keeps (s : LinkedHashMap K V) (key : K) (value : V) (s' : LinkedHashMap K V)
    (t : Trace K V) : Prop where
  contained : s'.contains key = true
  got : ∃ s'' u, s'.get key = .ok (s'', some value, u)
  others : ∀ k, k ≠ key → s'.reference k = s.reference k ∨
    (s'.contains k = false ∧ k ∈ t.evicted.map CacheNode.key)

/-- The nodes that are not locked. -/
def unlockedCount (l : List (CacheNode K V)) : Nat := l.countP fun n => !n.locked

/-- The key has its node, or the size with one more fits, or there are as many unlocked nodes as
must go to come down to `remain_size`. -/
def HasRoom (s : LinkedHashMap K V) (key : K) : Prop :=
  s.contains key = true ∨ int32 (s.list.length + 1) ≤ s.maxSize ∨
    int32 (s.list.length + 1) - remainSize s.maxSize ≤ unlockedCount s.list

/-! ## Reading an entry -/

namespace Linked

variable {s s' : LinkedHashMap K V} (h : Linked s)
include h

omit [DecidableEq K] in
theorem contains_iff (key : K) : s.contains key = true ↔ key ∈ s.list.map CacheNode.key := by
  constructor
  · intro hcontains
    obtain ⟨it, hit⟩ := Option.isSome_iff_exists.mp hcontains
    obtain ⟨n, hn, hkey, -⟩ := h.listed key it hit
    exact hkey ▸ List.mem_map_of_mem hn
  · intro hmem
    obtain ⟨n, hn, rfl⟩ := List.mem_map.mp hmem
    rw [contains, h.indexed n hn]
    rfl

omit [DecidableEq K] in
theorem nodeAt_of_mem {n : CacheNode K V} (hn : n ∈ s.list) : s.nodeAt n.addr = .ok n := by
  obtain ⟨pre, post, hlist⟩ := List.append_of_mem hn
  exact h.nodeAt_eq hlist

omit [DecidableEq K] in
theorem reference_of_mem {n : CacheNode K V} (hn : n ∈ s.list) :
    s.reference n.key = .ok (some n.value) := by
  simp only [reference, h.indexed n hn, h.nodeAt_of_mem hn, ok_bind]

omit [DecidableEq K] in
theorem reference_of_not_mem {key : K} (hkey : key ∉ s.list.map CacheNode.key) :
    s.reference key = .ok none := by
  have hnone : s.hashMap key = none := by
    have hfalse := mt (h.contains_iff key).mp hkey
    rw [contains, Bool.not_eq_true, Option.isSome_eq_false_iff, Option.isNone_iff_eq_none] at hfalse
    exact hfalse
  rw [reference, hnone]

/-- `get` finds the value of a node of the list. -/
theorem get_of_mem {n : CacheNode K V} (hn : n ∈ s.list) :
    ∃ s'' u, s.get n.key = .ok (s'', some n.value, u) := by
  obtain ⟨pre, post, hlist⟩ := List.append_of_mem hn
  simp only [get, h.indexed n hn, h.nodeAt_of_mem hn, ok_bind, h.adjust_eq hlist]
  split
  · exact ⟨_, _, rfl⟩
  · exact ⟨_, _, rfl⟩

omit [DecidableEq K] in
/-- The nodes of a key decide what is read of it. -/
theorem reference_congr (h' : Linked s') {k : K}
    (hsame : ∀ n, n.key = k → (n ∈ s'.list ↔ n ∈ s.list)) : s'.reference k = s.reference k := by
  by_cases hmem : k ∈ s.list.map CacheNode.key
  · obtain ⟨n, hn, rfl⟩ := List.mem_map.mp hmem
    rw [h.reference_of_mem hn, h'.reference_of_mem ((hsame n rfl).mpr hn)]
  · have hmem' : k ∉ s'.list.map CacheNode.key := by
      intro hin
      obtain ⟨n, hn, rfl⟩ := List.mem_map.mp hin
      exact hmem (List.mem_map_of_mem ((hsame n rfl).mp hn))
    rw [h.reference_of_not_mem hmem, h'.reference_of_not_mem hmem']

omit [DecidableEq K] in
/-- Two nodes do not lie at one place. -/
theorem eq_of_addr {n m : CacheNode K V} (hn : n ∈ s.list) (hm : m ∈ s.list)
    (haddr : n.addr = m.addr) : n = m :=
  List.inj_on_of_nodup_map h.addrs hn hm haddr

omit [DecidableEq K] in
/-- The other nodes are not modified. -/
theorem mem_modify {n : CacheNode K V} (hn : n ∈ s.list) {f : CacheNode K V → CacheNode K V}
    (hkey : ∀ n, (f n).key = n.key) {m : CacheNode K V} (hm : m.key ≠ n.key) :
    m ∈ (s.modify n.addr f).list ↔ m ∈ s.list := by
  constructor
  · intro hmem
    obtain ⟨m', hm', rfl⟩ := List.mem_map.mp hmem
    split at hm
    · next haddr =>
      rw [hkey, h.eq_of_addr hm' hn haddr] at hm
      exact absurd rfl hm
    · next haddr =>
      rw [if_neg haddr]
      exact hm'
  · intro hmem
    have haddr : m.addr ≠ n.addr := fun heq => hm (congrArg CacheNode.key (h.eq_of_addr hmem hn heq))
    exact List.mem_map.mpr ⟨m, hmem, if_neg haddr⟩

end Linked

omit [DecidableEq K] in
/-- A cut leaves an entry as it is, or evicts it. -/
theorem Cut.reference {s s' : LinkedHashMap K V} {t : Trace K V} (h : Cut s s' t) (hs : Linked s)
    (k : K) : s'.reference k = s.reference k ∨
      (s'.contains k = false ∧ k ∈ t.evicted.map CacheNode.key) := by
  obtain ⟨passed, -, hev⟩ := h.evicts
  by_cases hstays : k ∈ s'.list.map CacheNode.key
  · obtain ⟨n, hn, rfl⟩ := List.mem_map.mp hstays
    have hbefore : n ∈ s.list := hev.perm.mem_iff.mpr (List.mem_append_right _ hn)
    exact .inl (by rw [h.linked.reference_of_mem hn, hs.reference_of_mem hbefore])
  · by_cases hbefore : k ∈ s.list.map CacheNode.key
    · obtain ⟨n, hn, rfl⟩ := List.mem_map.mp hbefore
      refine .inr ⟨?_, ?_⟩
      · exact Bool.not_eq_true _ ▸ mt (h.linked.contains_iff n.key).mp hstays
      · rcases List.mem_append.mp (hev.perm.mem_iff.mp hn) with hout | hin
        · exact List.mem_map_of_mem hout
        · exact absurd (List.mem_map_of_mem hin) hstays
    · exact .inl (by rw [h.linked.reference_of_not_mem hstays, hs.reference_of_not_mem hbefore])

/-! ## What becomes of the last node -/

omit [DecidableEq K] in
/-- One node less. -/
theorem size_pred {s s' : LinkedHashMap K V} (hlen : s.list.length = s'.list.length + 1)
    (hpos : 0 < s.size) : s'.size = s.size - 1 := by
  rw [size, int32, Int.bmod_def] at hpos ⊢
  rw [size, int32, Int.bmod_def]
  omega

omit [DecidableEq K] in
theorem unlockedCount_locked {n : CacheNode K V} (hlocked : n.locked = true)
    (l : List (CacheNode K V)) : unlockedCount (n :: l) = unlockedCount l := by
  rw [unlockedCount, List.countP_cons_of_neg (by rw [hlocked]; decide), unlockedCount]

omit [DecidableEq K] in
theorem unlockedCount_free {n : CacheNode K V} (hfree : ¬ n.locked = true)
    (l : List (CacheNode K V)) : unlockedCount (n :: l) = unlockedCount l + 1 := by
  rw [unlockedCount, List.countP_cons_of_pos (by simpa using hfree), unlockedCount]

/-- The first loop reaches the last node exactly if the unlocked nodes before it are fewer than those
that must go. -/
theorem cutUnlocked_back {remain : Int} (hremain : 1 ≤ remain) (back : CacheNode K V) :
    ∀ (fuel : Nat) {s : LinkedHashMap K V} {pre post : List (CacheNode K V)}, Linked s →
      s.list = pre ++ back :: post → pre.length < fuel →
      ∃ s' t, cutUnlocked remain back.key fuel s = .ok (s', t) ∧
        (s.size - remain ≤ unlockedCount pre → back ∈ s'.list ∧ s'.size ≤ remain) ∧
        (unlockedCount pre < s.size - remain →
          ∃ l, s'.list = back :: l ∧ remain < s'.size) := by
  intro fuel
  induction fuel with
  | zero => exact fun _ _ hfuel => absurd hfuel (Nat.not_lt_zero _)
  | succ fuel ih =>
    intro s pre post h hlist hfuel
    rw [cutUnlocked]
    by_cases hsize : remain < s.size
    · rw [if_pos hsize]
      cases pre with
      | nil =>
        rw [List.nil_append] at hlist
        have hzero : unlockedCount ([] : List (CacheNode K V)) = 0 := rfl
        simp only [hlist, List.head?_cons, ne_eq, not_true_eq_false, if_false]
        refine ⟨s, _, rfl, fun hroom => ?_, fun _ => ⟨post, hlist, hsize⟩⟩
        rw [hzero] at hroom
        omega
      | cons front pre =>
        have hkeys := h.keys
        have hlist' : s.list = [] ++ front :: (pre ++ back :: post) := hlist
        rw [hlist, List.cons_append, List.map_cons, List.nodup_cons] at hkeys
        have hne : back.key ≠ front.key := by
          intro heq
          apply hkeys.1
          rw [← heq]
          exact List.mem_map_of_mem (by simp)
        rw [List.length_cons] at hfuel
        have hhead : s.list.head? = some front := by rw [hlist]; rfl
        simp only [hhead, ne_eq, hne, not_false_eq_true, if_true]
        split
        · next hlocked =>
          -- a locked node passes behind the last one, and the size stays
          have hrotated : s.list.Perm ([] ++ (pre ++ back :: post) ++ [front]) := by
            rw [hlist']
            exact (List.perm_append_singleton _ _).symm
          obtain ⟨s', t, hrun, hstays, hreached⟩ :=
            ih (h.perm hrotated)
              (show _ = pre ++ back :: (post ++ [front]) by
                simp only [List.nil_append, List.append_assoc, List.cons_append])
              (Nat.lt_of_succ_lt_succ hfuel)
          have hsame : size { s with list := [] ++ (pre ++ back :: post) ++ [front] } = s.size :=
            congrArg (fun n : Nat => int32 n) hrotated.length_eq.symm
          rw [hsame] at hstays hreached
          simp only [h.adjust_eq hlist', bind, Except.bind, hrun]
          rw [unlockedCount_locked hlocked]
          exact ⟨s', _, rfl, hstays, hreached⟩
        · next hfree =>
          -- an unlocked node goes, and the size is one less
          obtain ⟨s', t, hrun, hstays, hreached⟩ :=
            ih (h.erased hlist') (show _ = pre ++ back :: post from rfl)
              (Nat.lt_of_succ_lt_succ hfuel)
          have hless : size { s with
              list := [] ++ (pre ++ back :: post)
              hashMap := index s.hashMap front.key none } = s.size - 1 :=
            size_pred (congrArg List.length hlist) (by omega)
          rw [hless] at hstays hreached
          simp only [h.erase_eq hlist', bind, Except.bind, hrun]
          rw [unlockedCount_free hfree]
          refine ⟨s', _, rfl, fun hroom => hstays ?_, fun hfew => hreached ?_⟩ <;> omega
    · rw [if_neg hsize]
      refine ⟨s, _, rfl, fun _ => ⟨?_, Int.not_lt.mp hsize⟩, fun hfew => ?_⟩
      · rw [hlist]
        exact List.mem_append_right _ List.mem_cons_self
      · omega

/-- The second loop begins with the front. -/
theorem cutLocked_front {remain : Int} (hremain : 1 ≤ remain) {s : LinkedHashMap K V}
    {front : CacheNode K V} {l : List (CacheNode K V)} (h : Linked s) (hlist : s.list = front :: l)
    (hlocked : ∀ n ∈ l, n.locked = true) (hsize : remain < s.size) :
    ∃ s' t, cutLocked remain (s.list.length + 1) s = .ok (s', t) ∧ Linked s' ∧
      front.key ∉ s'.list.map CacheNode.key := by
  have hlist' : s.list = [] ++ front :: l := hlist
  have hkeys := h.keys
  rw [hlist, List.map_cons, List.nodup_cons] at hkeys
  obtain ⟨s', t, hrun, hcut, -⟩ := cutLocked_cut hremain s.list.length (h.erased hlist')
    (fun _ n hn => hlocked n (List.mem_of_mem_tail hn)) (by rw [hlist]; exact Nat.lt_succ_self _)
  have hhead : s.list.head? = some front := by rw [hlist]; rfl
  rw [cutLocked, if_pos hsize]
  simp only [hhead, h.erase_eq hlist', bind, Except.bind, hrun]
  refine ⟨s', _, rfl, hcut.linked, fun hmem => hkeys.1 ?_⟩
  obtain ⟨passed, -, hev⟩ := hcut.evicts
  obtain ⟨n, hn, hkey⟩ := List.mem_map.mp hmem
  rw [← hkey]
  exact List.mem_map_of_mem (hev.perm.mem_iff.mpr (List.mem_append_right _ hn))

/-- `_cut_head` leaves the last node exactly if as many unlocked nodes stand before it as must go. -/
theorem cutHead_back {s : LinkedHashMap K V} (h : Linked s) (hmax : 1 ≤ s.maxSize)
    {pre : List (CacheNode K V)} {back : CacheNode K V} (hlist : s.list = pre ++ [back]) :
    ∃ s' t, s.cutHead = .ok (s', t) ∧ Cut s s' t ∧
      (s'.contains back.key = true ↔ s.size ≤ s.maxSize ∨
        s.size - remainSize s.maxSize ≤ unlockedCount pre) := by
  obtain ⟨hlow, -⟩ := remainSize_bounds hmax
  obtain ⟨s', t, hrun, hcut, -⟩ := cutHead_cut h hmax
  refine ⟨s', t, hrun, hcut, ?_⟩
  have hmem : back ∈ s.list := by
    rw [hlist]
    exact List.mem_append_right _ List.mem_cons_self
  rw [cutHead] at hrun
  by_cases hsize : s.size ≤ s.maxSize
  · rw [if_pos hsize] at hrun
    cases hrun
    exact iff_of_true ((h.contains_iff _).mpr (List.mem_map_of_mem hmem)) (.inl hsize)
  · rw [if_neg hsize] at hrun
    have hback : s.list.getLast? = some back := by rw [hlist, List.getLast?_concat]
    have hfuel : pre.length < s.list.length + 1 := by
      rw [hlist, List.length_append]
      omega
    obtain ⟨s₁, t₁, hrun₁, hstays, hreached⟩ := cutUnlocked_back hlow back _ h hlist hfuel
    obtain ⟨s₁', t₁', hrun₁', hcut₁, hend₁⟩ := cutUnlocked_cut (remainSize s.maxSize) back _ h hlist
      (fun n hn => absurd hn List.not_mem_nil) hfuel
    obtain ⟨rfl, rfl⟩ := Prod.mk.inj (Except.ok.inj (hrun₁.symm.trans hrun₁'))
    have hfst : (s₁, t₁).1 = s₁ := rfl
    simp only [hback] at hrun
    rw [hrun₁, ok_bind, hfst] at hrun
    by_cases hroom : s.size - remainSize s.maxSize ≤ unlockedCount pre
    · obtain ⟨hin, hfits⟩ := hstays hroom
      rw [cutLocked, if_neg (Int.not_lt.mpr hfits), ok_bind] at hrun
      cases hrun
      exact iff_of_true ((hcut₁.linked.contains_iff _).mpr (List.mem_map_of_mem hin)) (.inr hroom)
    · obtain ⟨l, hfront, hmore⟩ := hreached (Int.not_le.mp hroom)
      have hlocked := hend₁ hmore
      rw [hfront, List.tail_cons] at hlocked
      obtain ⟨s₂, t₂, hrun₂, hlinked, hgone⟩ :=
        cutLocked_front hlow hcut₁.linked hfront hlocked hmore
      rw [hrun₂, ok_bind] at hrun
      cases hrun
      refine iff_of_false (mt (hlinked.contains_iff _).mp hgone) ?_
      rintro (hfits | hfits)
      · exact hsize hfits
      · exact hroom hfits

/-! ## `set` -/

/-- A key that has its node. -/
theorem set_present {s : LinkedHashMap K V} (h : Linked s) {key : K} {it : Nat}
    (hit : s.hashMap key = some it) (value : V) :
    ∃ s' t, s.set key value = .ok (s', t) ∧ Keeps s key value s' t := by
  obtain ⟨pre, n, post, hlist, rfl, rfl⟩ := h.split hit
  have hn : n ∈ s.list := by rw [hlist]; simp
  have hmodified : Linked (s.modify n.addr fun n => { n with value := value }) :=
    h.modified (fun _ => rfl) fun _ => rfl
  have hnew : CacheNode.mk n.addr n.key value n.locked ∈
      (s.modify n.addr fun n => { n with value := value }).list :=
    List.mem_map.mpr ⟨n, hn, if_pos rfl⟩
  obtain ⟨pre', post', hlist'⟩ := List.append_of_mem hnew
  have hmiddle : (pre' ++ CacheNode.mk n.addr n.key value n.locked :: post').Perm
      (CacheNode.mk n.addr n.key value n.locked :: (pre' ++ post')) := List.perm_middle
  have hperm := hmiddle.trans (List.perm_append_singleton _ _).symm
  rw [← hlist'] at hperm
  have hadjusted := hmodified.perm hperm
  have hadjust := hmodified.adjust_eq hlist'
  simp only [set, hit, h.nodeAt_of_mem hn, ok_bind, hadjust]
  have hin := hperm.mem_iff.mp hnew
  refine ⟨_, _, rfl, ?_, hadjusted.get_of_mem hin, fun k hk => .inl ?_⟩
  · exact (hadjusted.contains_iff _).mpr (List.mem_map.mpr ⟨_, hin, rfl⟩)
  · refine h.reference_congr hadjusted fun m hm => ?_
    have hne : m.key ≠ n.key := fun heq => hk (hm.symm.trans heq)
    have hkey : ∀ n : CacheNode K V, { n with value := value }.key = n.key := fun _ => rfl
    exact hperm.mem_iff.symm.trans (h.mem_modify hn hkey hne)

/-- A new key. -/
theorem set_absent {s : LinkedHashMap K V} (h : Linked s) (hmax : 1 ≤ s.maxSize) {key : K}
    (hnone : s.hashMap key = none) (value : V) :
    ∃ s' t, s.set key value = .ok (s', t) ∧
      (Keeps s key value s' t ↔ int32 (s.list.length + 1) ≤ s.maxSize ∨
        int32 (s.list.length + 1) - remainSize s.maxSize ≤ unlockedCount s.list) := by
  have hpushed := h.pushed hnone value
  obtain ⟨s', t, hrun, hcut, hiff⟩ := cutHead_back hpushed hmax rfl
  have hsize : size { s with
      list := s.list ++ [{ addr := s.next, key := key, value := value, locked := false }]
      hashMap := index s.hashMap key (some s.next)
      next := s.next + 1 } = int32 (s.list.length + 1) := by
    rw [size, List.length_append, List.length_singleton]
    rfl
  rw [hsize] at hiff
  simp only [set, hnone, hrun, ok_bind]
  refine ⟨s', _, rfl, fun hkeeps => hiff.mp hkeeps.contained, fun hroom => ?_⟩
  have hcontained := hiff.mpr hroom
  obtain ⟨n, hn, hkey⟩ := List.mem_map.mp ((hcut.linked.contains_iff key).mp hcontained)
  obtain ⟨passed, -, hev⟩ := hcut.evicts
  have hpast := hev.perm.mem_iff.mpr (List.mem_append_right _ hn)
  refine ⟨hcontained, ?_, fun k hk => ?_⟩
  · -- the only node of the key is the new one
    rcases List.mem_append.mp hpast with hold | hnew
    · exact absurd (hkey ▸ List.mem_map_of_mem hold) (h.not_mem_of_none hnone)
    · have hgot := hcut.linked.get_of_mem hn
      rw [List.mem_singleton.mp hnew] at hgot
      exact hgot
  · have hothers : reference { s with
        list := s.list ++ [{ addr := s.next, key := key, value := value, locked := false }]
        hashMap := index s.hashMap key (some s.next)
        next := s.next + 1 } k = s.reference k := by
      refine h.reference_congr hpushed fun m hm => ⟨fun hmem => ?_, List.mem_append_left _⟩
      rcases List.mem_append.mp hmem with hold | hnew
      · exact hold
      · rw [List.mem_singleton.mp hnew] at hm
        exact absurd hm.symm hk
    rw [← hothers]
    exact hcut.reference hpushed k

/-- What was just set is kept by a map of any history exactly if it has room for it. -/
theorem set_keeps_iff (maxSize : BitVec 32) (access : Bool) (ops : List (Op K V)) (key : K)
    (value : V) :
    ∃ s used s' t, (new maxSize access).run ops = .ok (s, used) ∧
      s.set key value = .ok (s', t) ∧ (Keeps s key value s' t ↔ HasRoom s key) := by
  obtain ⟨s, used, hrun, hs⟩ := run_ordered (K := K) (V := V) maxSize access ops
  cases hit : s.hashMap key with
  | some it =>
    have hcontains : s.contains key = true := by
      rw [contains, hit]
      rfl
    obtain ⟨s', t, hset, hkeeps⟩ := set_present hs.linked hit value
    exact ⟨s, used, s', t, hrun, hset, iff_of_true hkeeps (.inl hcontains)⟩
  | none =>
    have hmissing : ¬ s.contains key = true := by
      rw [contains, hit]
      decide
    obtain ⟨s', t, hset, hiff⟩ := set_absent hs.linked hs.low hit value
    exact ⟨s, used, s', t, hrun, hset, hiff.trans (or_iff_right hmissing).symm⟩

/-- Three locked entries in a map for three: the fourth is gone as soon as it is set. -/
theorem locked_entries_oust_new :
    ∃ s used s' t, (new 3#32 true : LinkedHashMap Nat Unit).run
        [.set 1 (), .lock 1, .set 2 (), .lock 2, .set 3 (), .lock 3] = .ok (s, used) ∧
      s.set 4 () = .ok (s', t) ∧ s'.contains 4 = false ∧ ¬ Keeps s 4 () s' t := by
  refine ⟨_, _, _, _, rfl, rfl, rfl, fun hkeeps => ?_⟩
  exact Bool.false_ne_true hkeeps.contained

end RtcMcu.Util.LinkedHashMap
