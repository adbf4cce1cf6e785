import Std.Data.TreeMap.Lemmas
import Mathlib.Tactic.Common

/-!
# A table that gives up its smallest keys

A table with room for so many entries, which makes room by giving up those with the smallest keys.
`dropSmallest` keeps what it keeps, and where the keys come in ascending order it is the oldest
entries that go: `Holds m ks` says that `ks`, the latest first, are the keys of the table.
-/

namespace RtcMcu

open Std

variable {α β : Type} [Ord α] {m : TreeMap α β}

/-- The entries without those of the `n` smallest keys. -/
def dropSmallest : Nat → TreeMap α β → TreeMap α β
  | 0, m => m
  | n + 1, m =>
    match m.minKey? with
    | none => m
    | some k => dropSmallest n (m.erase k)

/-- Nothing new comes into the table. -/
theorem getElem?_of_dropSmallest [TransOrd α] {k : α} {v : β} (n : Nat) :
    ∀ {m : TreeMap α β}, (dropSmallest n m)[k]? = some v → m[k]? = some v := by
  induction n with
  | zero => exact fun h => h
  | succ n ih =>
    intro m h
    rw [dropSmallest] at h
    cases hmin : m.minKey? with
    | none =>
      rw [hmin] at h
      exact h
    | some k' =>
      rw [hmin] at h
      have herase : (m.erase k')[k]? = some v := ih h
      rw [TreeMap.getElem?_erase] at herase
      split at herase
      · cases herase
      · exact herase

/-- The keys of a table, from the largest on. -/
structure Holds (m : TreeMap α β) (ks : List α) : Prop where
  descending : ks.Pairwise fun a b => compare b a = .lt
  mem_iff : ∀ k, k ∈ m ↔ k ∈ ks
  size_eq : m.size = ks.length

namespace Holds

variable {k : α} {ks : List α}

theorem empty : Holds (∅ : TreeMap α β) [] where
  descending := List.Pairwise.nil
  mem_iff _ := ⟨fun h => absurd h TreeMap.not_mem_emptyc, fun h => absurd h List.not_mem_nil⟩
  size_eq := TreeMap.size_emptyc

variable [TransOrd α] [LawfulEqOrd α]

/-- A key above all others. -/
theorem insert (h : Holds m ks) (hk : ∀ k' ∈ ks, compare k' k = .lt) (v : β) :
    Holds (m.insert k v) (k :: ks) where
  descending := List.pairwise_cons.mpr ⟨hk, h.descending⟩
  mem_iff k' := by
    rw [TreeMap.mem_insert, h.mem_iff, List.mem_cons, LawfulEqOrd.compare_eq_iff_eq]
    exact or_congr_left eq_comm
  size_eq := by
    have hnew : k ∉ m := fun hmem => by
      have hlt := hk k ((h.mem_iff k).mp hmem)
      rw [ReflOrd.compare_self] at hlt
      cases hlt
    rw [TreeMap.size_insert, if_neg fun hc => hnew (TreeMap.mem_iff_contains.mpr hc), h.size_eq,
      List.length_cons]

theorem minKey? (h : Holds m ks) : m.minKey? = ks.getLast? := by
  cases hlast : ks.getLast? with
  | none =>
    rw [List.getLast?_eq_none_iff] at hlast
    rw [TreeMap.minKey?_eq_none_iff, TreeMap.isEmpty_iff_forall_not_mem]
    intro k hk
    rw [h.mem_iff, hlast] at hk
    exact List.not_mem_nil hk
  | some k =>
    obtain ⟨front, rfl⟩ := List.getLast?_eq_some_iff.mp hlast
    rw [TreeMap.minKey?_eq_some_iff_mem_and_forall]
    refine ⟨(h.mem_iff k).mpr List.mem_concat_self, fun k' hk' => ?_⟩
    rcases List.mem_append.mp ((h.mem_iff k').mp hk') with hfront | hself
    · have hlt := (List.pairwise_append.mp h.descending).2.2 k' hfront k (List.mem_singleton_self k)
      rw [hlt]
      rfl
    · rw [List.mem_singleton.mp hself, ReflOrd.compare_self]
      rfl

theorem maxKey? (h : Holds m ks) : m.maxKey? = ks.head? := by
  cases ks with
  | nil =>
    rw [List.head?_nil, TreeMap.maxKey?_eq_none_iff, TreeMap.isEmpty_iff_forall_not_mem]
    intro k hk
    rw [h.mem_iff] at hk
    exact List.not_mem_nil hk
  | cons k ks =>
    rw [List.head?_cons, TreeMap.maxKey?_eq_some_iff_mem_and_forall]
    refine ⟨(h.mem_iff k).mpr List.mem_cons_self, fun k' hk' => ?_⟩
    rcases List.mem_cons.mp ((h.mem_iff k').mp hk') with hself | htail
    · rw [hself, ReflOrd.compare_self]
      rfl
    · rw [(List.pairwise_cons.mp h.descending).1 k' htail]
      rfl

/-- The smallest key goes. -/
theorem erase (h : Holds m (ks ++ [k])) : Holds (m.erase k) ks where
  descending := (List.pairwise_append.mp h.descending).1
  mem_iff k' := by
    rw [TreeMap.mem_erase, h.mem_iff, List.mem_append, List.mem_singleton, Ne,
      LawfulEqOrd.compare_eq_iff_eq]
    constructor
    · rintro ⟨hne, hks | rfl⟩
      · exact hks
      · exact absurd rfl hne
    · intro hks
      refine ⟨?_, .inl hks⟩
      rintro rfl
      have hlt := (List.pairwise_append.mp h.descending).2.2 k hks k (List.mem_singleton_self k)
      rw [ReflOrd.compare_self] at hlt
      cases hlt
  size_eq := by
    have hmem : k ∈ m := (h.mem_iff k).mpr List.mem_concat_self
    rw [TreeMap.size_erase, if_pos (TreeMap.mem_iff_contains.mp hmem), h.size_eq,
      List.length_append, List.length_singleton, Nat.add_sub_cancel]

/-- The keys that stay are the largest. -/
theorem dropSmallest (n : Nat) :
    ∀ {m : TreeMap α β} {ks : List α}, Holds m ks →
      Holds (dropSmallest n m) (ks.take (ks.length - n)) := by
  induction n with
  | zero =>
    intro m ks h
    rw [Nat.sub_zero, List.take_length]
    exact h
  | succ n ih =>
    intro m ks h
    rw [RtcMcu.dropSmallest, h.minKey?]
    rcases List.eq_nil_or_concat ks with rfl | ⟨front, k, rfl⟩
    · rw [List.take_nil]
      exact h
    · rw [List.concat_eq_append] at h ⊢
      rw [List.getLast?_concat]
      have hlen : (front ++ [k]).length - (n + 1) = front.length - n := by
        rw [List.length_append, List.length_singleton]
        omega
      rw [hlen, List.take_append_of_le_length (Nat.sub_le _ _)]
      exact ih h.erase

end Holds

end RtcMcu
