import RtcMcu.Lib.BinarySearch
import RtcMcu.MediaManager.FlvSequence

/-!
# Looking up a block

`push`, `pop_front`, `clear` and `get_by_seq` of `media_manager/circular_cache.cpp` with what they
return. The numbers in the store increase, with gaps. `get_by_seq` first looks at the index a store
without gaps would have the number at, then searches. Its indices are `int32_t`: `low + high` does
not fit from `2 ^ 30 + 1` blocks on, and the search then reads far outside the store.

`FLVMiniBlockCircularCache.getBySeq` is the lookup of a store in which that cannot happen
(`getBySeq_short`).
-/

namespace RtcMcu.MediaManager

open RtcMcu.Avformat RtcMcu.BinarySearch

/-! ## media_manager_state.h -/

def STATUS_SUCCESS : Int := 0
def STATUS_NO_DATA : Int := -300
def STATUS_TOO_SMALL : Int := -305
def STATUS_TOO_LARGE : Int := -306

/-! ## Operations -/

namespace FLVMiniBlockCircularCache

/-- What `push` returns. -/
def pushResult (c : FLVMiniBlockCircularCache) (b : FLVMiniBlock) : Int :=
  match c.blockStore.getLast? with
  | some back => if b.seq ≤ back.seq then -1 else int32 (c.blockStore.length + 1)
  | none => int32 (c.blockStore.length + 1)

/-- `CircularCache::pop_front`. -/
def popFront (c : FLVMiniBlockCircularCache) : FLVMiniBlockCircularCache × Int :=
  match c.blockStore with
  | [] => (c, -1)
  | _ :: rest => ({ c with blockStore := rest }, int32 rest.length)

theorem popFront_blockStore (c : FLVMiniBlockCircularCache) :
    c.popFront.1.blockStore = c.blockStore.tail := by
  unfold popFront
  split
  · next hempty =>
    rw [hempty]
    rfl
  · next hcons =>
    rw [hcons]
    rfl

/-- `clear`. -/
def clear (_ : FLVMiniBlockCircularCache) : FLVMiniBlockCircularCache :=
  { flvHeader := none, blockStore := [] }

end FLVMiniBlockCircularCache

namespace CircularCache

/-- `_block_store[idx]`. -/
def blockAt (store : List FLVMiniBlock) (idx : Int) : Except Fault FLVMiniBlock :=
  if idx < 0 then .error .outOfBounds
  else
    match store[idx.toNat]? with
    | none => .error .outOfBounds
    | some b => .ok b

/-- The loop of the binary search in `get_by_seq`: the index it ends at. -/
def search (store : List FLVMiniBlock) (seq : BitVec 32) : Nat → Int → Int → Int → Except Fault Int
  | 0, _, _, _ => .error .outOfFuel
  | fuel + 1, low, high, mid =>
    if low ≤ high then do
      let mid := int32 (low + high) / 2
      let b ← blockAt store mid
      if b.seq < seq then search store seq fuel (mid + 1) high mid
      else if seq < b.seq then search store seq fuel low (mid - 1) mid
      else .ok mid
    else .ok mid

/-- The block the whole store is searched for. -/
def searched (store : List FLVMiniBlock) (seq : BitVec 32) : Except Fault (Option FLVMiniBlock) := do
  let mid ← search store seq (store.length + 1) 0 (int32 (store.length - 1)) 0
  let b ← blockAt store mid
  .ok (if b.seq = seq then some b else none)

/-- The block at the index `seq` would have in a store without gaps, if it is the one. -/
def direct (store : List FLVMiniBlock) (front : FLVMiniBlock) (seq : BitVec 32) :
    Except Fault (Option FLVMiniBlock) :=
  let idx := (seq - front.seq).toInt
  if int32 store.length ≤ idx then .ok none
  else do
    let b ← blockAt store idx
    .ok (if b.seq = seq then some b else none)

/-- `CircularCache::get_by_seq`: the block, or null, and the status. -/
def getBySeq (store : List FLVMiniBlock) (seq : BitVec 32) :
    Except Fault (Option FLVMiniBlock × Int) :=
  match store.head?, store.getLast? with
  | some front, some back =>
    if seq < front.seq then .ok (none, STATUS_TOO_SMALL)
    else if back.seq < seq then .ok (none, STATUS_TOO_LARGE)
    else do
      match ← direct store front seq with
      | some b => .ok (some b, STATUS_SUCCESS)
      | none =>
        match ← searched store seq with
        | some b => .ok (some b, STATUS_SUCCESS)
        | none => .ok (none, STATUS_NO_DATA)
  | _, _ => .ok (none, STATUS_NO_DATA)

/-! ## What a lookup is for -/

/-- The numbers of the store increase. -/
def Increasing (store : List FLVMiniBlock) : Prop :=
  store.Pairwise fun b b' => b.seq.toNat < b'.seq.toNat

/-- The status for a number that is not in the store, by its position. -/
def missStatus (store : List FLVMiniBlock) (seq : BitVec 32) : Int :=
  match store.head?, store.getLast? with
  | some front, some back =>
    if seq < front.seq then STATUS_TOO_SMALL
    else if back.seq < seq then STATUS_TOO_LARGE
    else STATUS_NO_DATA
  | _, _ => STATUS_NO_DATA

/-- A lookup gives the block with the number, or says where the number is missing, and the index and
the search give the same block. -/
structure LooksUp (store : List FLVMiniBlock) : Prop where
  present : ∀ b ∈ store, getBySeq store b.seq = .ok (some b, STATUS_SUCCESS)
  absent : ∀ seq, (∀ b ∈ store, b.seq ≠ seq) → getBySeq store seq = .ok (none, missStatus store seq)
  agree : ∀ front seq b, store.head? = some front → direct store front seq = .ok (some b) →
    searched store seq = .ok (some b)

/-! ## Stores with increasing numbers -/

namespace Increasing

variable {store : List FLVMiniBlock} (h : Increasing store)
include h

/-- Later blocks have larger numbers. -/
theorem lt_of_getElem? {i j : Nat} {b b' : FLVMiniBlock} (hi : store[i]? = some b)
    (hj : store[j]? = some b') (hij : i < j) : b.seq.toNat < b'.seq.toNat := by
  obtain ⟨hil, rfl⟩ := List.getElem?_eq_some_iff.mp hi
  obtain ⟨hjl, rfl⟩ := List.getElem?_eq_some_iff.mp hj
  exact List.pairwise_iff_getElem.mp h i j hil hjl hij

theorem le_of_getElem? {i j : Nat} {b b' : FLVMiniBlock} (hi : store[i]? = some b)
    (hj : store[j]? = some b') (hij : i ≤ j) : b.seq.toNat ≤ b'.seq.toNat := by
  rcases Nat.lt_or_eq_of_le hij with hlt | rfl
  · exact Nat.le_of_lt (h.lt_of_getElem? hi hj hlt)
  · rw [hi] at hj
    rw [Option.some.inj hj]

/-- A number is at least as large as its index. -/
theorem index_le_seq {i : Nat} {b : FLVMiniBlock} (hi : store[i]? = some b) : i ≤ b.seq.toNat := by
  induction i generalizing b with
  | zero => exact Nat.zero_le _
  | succ i ih =>
    obtain ⟨hil, -⟩ := List.getElem?_eq_some_iff.mp hi
    have hprev : store[i]? = some store[i] := List.getElem?_eq_getElem (by omega)
    have hlt := h.lt_of_getElem? hprev hi (Nat.lt_succ_self i)
    have hle := ih hprev
    omega

/-- A block of the store is known by its number. -/
theorem eq_of_seq {b b' : FLVMiniBlock} (hb : b ∈ store) (hb' : b' ∈ store) (hseq : b.seq = b'.seq) :
    b = b' := by
  obtain ⟨i, hi⟩ := List.mem_iff_getElem?.mp hb
  obtain ⟨j, hj⟩ := List.mem_iff_getElem?.mp hb'
  rcases Nat.lt_trichotomy i j with hlt | rfl | hgt
  · have := h.lt_of_getElem? hi hj hlt
    rw [hseq] at this
    omega
  · rw [hi] at hj
    exact Option.some.inj hj
  · have := h.lt_of_getElem? hj hi hgt
    rw [hseq] at this
    omega

/-- Numbers below `2 ^ 31` make a store of at most `2 ^ 31` blocks. -/
theorem length_le (hsmall : ∀ b ∈ store, b.seq.toNat < 2 ^ 31) : store.length ≤ 2 ^ 31 := by
  by_contra hlong
  have hlast : store[2 ^ 31]? = some store[2 ^ 31] := List.getElem?_eq_getElem (by omega)
  have hle := h.index_le_seq hlast
  have hlt := hsmall _ (List.mem_of_getElem? hlast)
  omega

end Increasing

/-! ## The search -/

theorem blockAt_ofNat {store : List FLVMiniBlock} {i : Nat} {b : FLVMiniBlock}
    (hi : store[i]? = some b) : blockAt store i = .ok b := by
  rw [blockAt, if_neg (by omega), Int.toNat_natCast, hi]

/-- How the number at an index compares with the one looked for. -/
def cmpSeq (store : List FLVMiniBlock) (seq : BitVec 32) (i : Int) : Ordering :=
  match store[i.toNat]? with
  | none => .eq
  | some b => if b.seq < seq then .lt else if seq < b.seq then .gt else .eq

/-- In a store of at most `2 ^ 30` blocks no index leaves `int32_t`. -/
theorem search_eq_bisect {store : List FLVMiniBlock} (hlen : store.length ≤ 2 ^ 30)
    (seq : BitVec 32) (fuel : Nat) {low high mid : Int} (hlow : 0 ≤ low)
    (hhigh : high < store.length) (hfuel : high - low + 1 < fuel) (hpos : 0 < fuel) :
    search store seq fuel low high mid = .ok (bisect (cmpSeq store seq) fuel low high mid) := by
  induction fuel generalizing low high mid with
  | zero => omega
  | succ fuel ih =>
    rw [search, bisect]
    by_cases hle : low ≤ high
    · rw [if_pos hle, if_pos hle]
      have hint : int32 (low + high) = low + high := int32_of_lt (by omega) (by omega)
      obtain ⟨i, hi⟩ : ∃ i : Nat, (low + high) / 2 = i := ⟨((low + high) / 2).toNat, by omega⟩
      have hget : store[i]? = some store[i] := List.getElem?_eq_getElem (by omega)
      rw [hint, hi]
      dsimp only
      rw [blockAt_ofNat hget, ok_bind, cmpSeq, Int.toNat_natCast, hget]
      dsimp only
      by_cases hlt : store[i].seq < seq
      · rw [if_pos hlt, if_pos hlt]
        exact ih (by omega) hhigh (by omega) (by omega)
      · rw [if_neg hlt, if_neg hlt]
        by_cases hgt : seq < store[i].seq
        · rw [if_pos hgt, if_pos hgt]
          exact ih hlow (by omega) (by omega) (by omega)
        · rw [if_neg hgt, if_neg hgt]
    · rw [if_neg hle, if_neg hle]

/-- In a longer store the search for the last block comes to an index that does not fit. -/
theorem search_overflows {store : List FLVMiniBlock} (h : Increasing store) {back : FLVMiniBlock}
    (hback : store[store.length - 1]? = some back) (hlong : 2 ^ 30 < store.length)
    (hlen : store.length ≤ 2 ^ 31) (fuel : Nat) {low mid : Int} (hlow : 0 ≤ low)
    (hhigh : low < store.length) (hfuel : store.length - low < fuel) :
    search store back.seq fuel low (store.length - 1) mid = .error .outOfBounds := by
  induction fuel generalizing low mid with
  | zero => omega
  | succ fuel ih =>
    rw [search, if_pos (by omega)]
    by_cases hfits : low + (store.length - 1) < 2 ^ 31
    · -- the middle is in front of the last block
      have hint : int32 (low + (store.length - 1)) = low + (store.length - 1) :=
        int32_of_lt (by omega) hfits
      obtain ⟨i, hi⟩ : ∃ i : Nat, (low + (store.length - 1)) / 2 = i :=
        ⟨((low + (store.length - 1)) / 2).toNat, by omega⟩
      have hget : store[i]? = some store[i] := List.getElem?_eq_getElem (by omega)
      have hlt := h.lt_of_getElem? hget hback (by omega)
      rw [hint, hi]
      dsimp only
      rw [blockAt_ofNat hget, ok_bind, if_pos (BitVec.lt_def.mpr hlt)]
      exact ih (by omega) (by omega) (by omega)
    · have hneg : int32 (low + (store.length - 1)) / 2 < 0 := by
        rw [int32, Int.bmod_def]
        omega
      dsimp only
      rw [blockAt, if_pos hneg, error_bind]

section Short

variable {store : List FLVMiniBlock} (hlen : store.length ≤ 2 ^ 30)
include hlen

/-- Where the whole store is searched from. -/
theorem search_short (hne : store ≠ []) (seq : BitVec 32) :
    search store seq (store.length + 1) 0 (int32 (store.length - 1)) 0 =
      .ok (bisect (cmpSeq store seq) (store.length + 1) 0 (store.length - 1) 0) := by
  have hpos := List.length_pos_iff.mpr hne
  rw [int32_of_lt (by omega) (by omega)]
  exact search_eq_bisect hlen seq _ (by omega) (by omega) (by omega) (by omega)

/-- A search ends at a block of the store. -/
theorem searched_eq (hne : store ≠ []) (seq : BitVec 32) :
    ∃ b ∈ store, searched store seq = .ok (if b.seq = seq then some b else none) := by
  have hpos := List.length_pos_iff.mpr hne
  obtain ⟨hlow, hhigh⟩ :
      0 ≤ bisect (cmpSeq store seq) (store.length + 1) 0 (store.length - 1) 0 ∧
        bisect (cmpSeq store seq) (store.length + 1) 0 (store.length - 1) 0 ≤ store.length - 1 :=
    bisect_mem (store.length + 1) (Int.le_refl 0) (Int.le_refl _) (by omega)
  rw [searched, search_short hlen hne seq, ok_bind]
  generalize bisect (cmpSeq store seq) (store.length + 1) 0 (store.length - 1) 0 = mid at *
  obtain ⟨i, rfl⟩ : ∃ i : Nat, mid = i := ⟨mid.toNat, by omega⟩
  have hget : store[i]? = some store[i] := List.getElem?_eq_getElem (by omega)
  rw [blockAt_ofNat hget]
  exact ⟨store[i], List.mem_of_getElem? hget, rfl⟩

theorem searched_of_absent (hne : store ≠ []) {seq : BitVec 32} (habsent : ∀ b ∈ store, b.seq ≠ seq) :
    searched store seq = .ok none := by
  obtain ⟨b, hb, heq⟩ := searched_eq hlen hne seq
  rw [heq, if_neg (habsent b hb)]

/-- What is in the store is found by the search. -/
theorem searched_of_mem (h : Increasing store) {b : FLVMiniBlock} (hb : b ∈ store) :
    searched store b.seq = .ok (some b) := by
  have hne : store ≠ [] := List.ne_nil_of_mem hb
  obtain ⟨k, hk⟩ := List.mem_iff_getElem?.mp hb
  obtain ⟨hkl, -⟩ := List.getElem?_eq_some_iff.mp hk
  have hfind : bisect (cmpSeq store b.seq) (store.length + 1) 0 (store.length - 1) 0 = k := by
    apply bisect_eq
    · omega
    · omega
    · omega
    · intro i hi hik
      have hget : store[i.toNat]? = some store[i.toNat] := List.getElem?_eq_getElem (by omega)
      have hlt := h.lt_of_getElem? hget hk (by omega)
      rw [cmpSeq, hget]
      exact if_pos (BitVec.lt_def.mpr hlt)
    · rw [cmpSeq, Int.toNat_natCast, hk]
      dsimp only
      rw [if_neg (BitVec.lt_irrefl _), if_neg (BitVec.lt_irrefl _)]
    · intro i hki hi
      have hget : store[i.toNat]? = some store[i.toNat] := List.getElem?_eq_getElem (by omega)
      have hlt := h.lt_of_getElem? hk hget (by omega)
      rw [cmpSeq, hget]
      dsimp only
      rw [if_neg (fun hle => by rw [BitVec.lt_def] at hle; omega), if_pos (BitVec.lt_def.mpr hlt)]
  rw [searched, search_short hlen hne b.seq, ok_bind, hfind, blockAt_ofNat hk, ok_bind, if_pos rfl]

end Short

/-! ## The index -/

/-- What stands at the index and has the number is a block of the store. -/
theorem mem_of_direct {store : List FLVMiniBlock} {front b : FLVMiniBlock} {seq : BitVec 32}
    (h : direct store front seq = .ok (some b)) : b ∈ store ∧ b.seq = seq := by
  unfold direct at h
  dsimp only at h
  split at h
  · cases h
  · obtain ⟨b', hat, h⟩ := bind_eq_ok.mp h
    split at h
    · next hseq =>
      cases h
      refine ⟨?_, hseq⟩
      unfold blockAt at hat
      split at hat
      · cases hat
      · split at hat
        · cases hat
        · next hget =>
          cases hat
          exact List.mem_of_getElem? hget
    · cases h

/-- Between the first and the last number the index is inside the store, or not looked at. -/
theorem direct_cases {store : List FLVMiniBlock} (hlen : store.length ≤ 2 ^ 30)
    {front : FLVMiniBlock} {seq : BitVec 32} (hfront : front.seq ≤ seq) (hsmall : seq.toNat < 2 ^ 31) :
    direct store front seq = .ok none ∨ ∃ b, direct store front seq = .ok (some b) := by
  have hidx : (seq - front.seq).toInt = (seq.toNat - front.seq.toNat : Nat) := by
    have hsub := BitVec.toNat_sub_of_le hfront
    rw [BitVec.toInt_eq_toNat_of_lt (by omega), hsub]
  unfold direct
  dsimp only
  rw [hidx, int32_of_lt (by omega) (by omega)]
  by_cases hle : (store.length : Int) ≤ (seq.toNat - front.seq.toNat : Nat)
  · rw [if_pos hle]
    exact Or.inl rfl
  · have hget : store[seq.toNat - front.seq.toNat]? = some store[seq.toNat - front.seq.toNat] :=
      List.getElem?_eq_getElem (by omega)
    rw [if_neg hle, blockAt_ofNat hget, ok_bind]
    split
    · exact Or.inr ⟨_, rfl⟩
    · exact Or.inl rfl

/-! ## Lookups -/

/-- What `get_by_seq` does with a number between the first and the last. -/
theorem getBySeq_inside {store : List FLVMiniBlock} {front back : FLVMiniBlock} {seq : BitVec 32}
    (hhead : store.head? = some front) (hlast : store.getLast? = some back)
    (hfront : front.seq ≤ seq) (hback : seq ≤ back.seq) :
    getBySeq store seq = (do
      match ← direct store front seq with
      | some b => .ok (some b, STATUS_SUCCESS)
      | none =>
        match ← searched store seq with
        | some b => .ok (some b, STATUS_SUCCESS)
        | none => .ok (none, STATUS_NO_DATA)) := by
  rw [BitVec.le_def] at hfront hback
  have hnotSmall : ¬ seq < front.seq := by
    rw [BitVec.lt_def]
    omega
  have hnotLarge : ¬ back.seq < seq := by
    rw [BitVec.lt_def]
    omega
  rw [getBySeq, hhead, hlast]
  dsimp only
  rw [if_neg hnotSmall, if_neg hnotLarge]

section Lookups

variable {store : List FLVMiniBlock} (h : Increasing store)
  (hsmall : ∀ b ∈ store, b.seq.toNat < 2 ^ 31)
include h hsmall

theorem getBySeq_of_mem (hlen : store.length ≤ 2 ^ 30) {b : FLVMiniBlock} (hb : b ∈ store) :
    getBySeq store b.seq = .ok (some b, STATUS_SUCCESS) := by
  obtain ⟨k, hk⟩ := List.mem_iff_getElem?.mp hb
  obtain ⟨hkl, -⟩ := List.getElem?_eq_some_iff.mp hk
  have hhead : store[0]? = some store[0] := List.getElem?_eq_getElem (by omega)
  have hlast : store[store.length - 1]? = some store[store.length - 1] :=
    List.getElem?_eq_getElem (by omega)
  have hfront := h.le_of_getElem? hhead hk (Nat.zero_le k)
  have hback := h.le_of_getElem? hk hlast (by omega)
  rw [getBySeq_inside (List.head?_eq_getElem?.trans hhead)
    (List.getLast?_eq_getElem?.trans hlast) (BitVec.le_def.mpr hfront) (BitVec.le_def.mpr hback)]
  rcases direct_cases hlen (BitVec.le_def.mpr hfront) (hsmall b hb) with hnone | ⟨b', hsome⟩
  · rw [hnone, ok_bind]
    dsimp only
    rw [searched_of_mem hlen h hb, ok_bind]
  · obtain ⟨hb', hseq⟩ := mem_of_direct hsome
    rw [hsome, ok_bind, h.eq_of_seq hb' hb hseq]

omit h in
theorem getBySeq_of_absent (hlen : store.length ≤ 2 ^ 30) {seq : BitVec 32}
    (habsent : ∀ b ∈ store, b.seq ≠ seq) : getBySeq store seq = .ok (none, missStatus store seq) := by
  rcases hhead : store.head? with _ | front
  · rw [getBySeq, missStatus, hhead]
  · rcases hlast : store.getLast? with _ | back
    · rw [getBySeq, missStatus, hhead, hlast]
    · have hne : store ≠ [] := List.ne_nil_of_mem (List.mem_of_getLast? hlast)
      by_cases hlow : seq < front.seq
      · rw [getBySeq, missStatus, hhead, hlast]
        dsimp only
        rw [if_pos hlow, if_pos hlow]
      · by_cases hhigh : back.seq < seq
        · rw [getBySeq, missStatus, hhead, hlast]
          dsimp only
          rw [if_neg hlow, if_neg hlow, if_pos hhigh, if_pos hhigh]
        · have hbackSmall := hsmall back (List.mem_of_getLast? hlast)
          rw [BitVec.lt_def] at hlow hhigh
          have hfront : front.seq ≤ seq := BitVec.le_def.mpr (by omega)
          have hback : seq ≤ back.seq := BitVec.le_def.mpr (by omega)
          rw [getBySeq_inside hhead hlast hfront hback, missStatus, hhead, hlast]
          dsimp only
          rw [if_neg (by rw [BitVec.lt_def]; exact hlow), if_neg (by rw [BitVec.lt_def]; exact hhigh)]
          rcases direct_cases hlen hfront (by omega) with hnone | ⟨b, hsome⟩
          · rw [hnone, ok_bind]
            dsimp only
            rw [searched_of_absent hlen hne habsent, ok_bind]
          · obtain ⟨hb, hseq⟩ := mem_of_direct hsome
            exact absurd hseq (habsent b hb)

/-- The search for the last block of a long store leaves the store. -/
theorem searched_back (hlong : 2 ^ 30 < store.length) {back : FLVMiniBlock}
    (hlast : store.getLast? = some back) : searched store back.seq = .error .outOfBounds := by
  have hlen := h.length_le hsmall
  rw [List.getLast?_eq_getElem?] at hlast
  rw [searched, int32_of_lt (by omega) (by omega), search_overflows h hlast hlong hlen
    (store.length + 1) (by omega) (by omega) (by omega), error_bind]

/-- Lookups are right exactly in a store of at most `2 ^ 30` blocks. -/
theorem looksUp_iff : LooksUp store ↔ store.length ≤ 2 ^ 30 := by
  constructor
  · intro hright
    by_contra hlong
    have hlast : store.getLast? = some (store.getLast (List.ne_nil_of_length_pos (by omega))) :=
      List.getLast?_eq_some_getLast _
    have hhead : store.head? = some (store.head (List.ne_nil_of_length_pos (by omega))) :=
      List.head?_eq_some_head _
    generalize store.getLast _ = back at hlast
    generalize store.head _ = front at hhead
    have hmem : back ∈ store := List.mem_of_getLast? hlast
    have hfault := searched_back h hsmall (by omega) hlast
    have hfront : front.seq ≤ back.seq := by
      rw [List.getLast?_eq_getElem?] at hlast
      rw [List.head?_eq_getElem?] at hhead
      exact BitVec.le_def.mpr (h.le_of_getElem? hhead hlast (Nat.zero_le _))
    have hpresent := hright.present back hmem
    rw [getBySeq_inside hhead hlast hfront (BitVec.le_refl _)] at hpresent
    rcases hdirect : direct store front back.seq with e | _ | b
    · rw [hdirect, error_bind] at hpresent
      cases hpresent
    · rw [hdirect, ok_bind] at hpresent
      dsimp only at hpresent
      rw [hfault, error_bind] at hpresent
      cases hpresent
    · have hagree := hright.agree front back.seq b hhead hdirect
      rw [hfault] at hagree
      cases hagree
  · intro hlen
    refine ⟨fun b hb => getBySeq_of_mem h hsmall hlen hb,
      fun seq habsent => getBySeq_of_absent hsmall hlen habsent, ?_⟩
    intro front seq b _ hdirect
    obtain ⟨hb, rfl⟩ := mem_of_direct hdirect
    exact searched_of_mem hlen h hb

end Lookups

/-- In a short store the lookup of `FLVMiniBlockCircularCache` is the one of the code. -/
theorem getBySeq_short {c : FLVMiniBlockCircularCache} (h : Increasing c.blockStore)
    (hsmall : ∀ b ∈ c.blockStore, b.seq.toNat < 2 ^ 31) (hlen : c.blockStore.length ≤ 2 ^ 30)
    {seq : BitVec 32} {b : FLVMiniBlock} (hfound : c.getBySeq seq = some b) :
    getBySeq c.blockStore seq = .ok (some b, STATUS_SUCCESS) := by
  obtain ⟨hmem, rfl⟩ := FLVMiniBlockCircularCache.mem_of_getBySeq hfound
  exact getBySeq_of_mem h hsmall hlen hmem

/-! ## Runs -/

/-- The operations that change a store. -/
inductive Op
  | push (block : FLVMiniBlock)
  | popFront
  | clear

def Op.apply (c : FLVMiniBlockCircularCache) : Op → FLVMiniBlockCircularCache
  | .push block => c.push block
  | .popFront => c.popFront.1
  | .clear => c.clear

/-- The store after a run of operations. -/
def stored (ops : List Op) : List FLVMiniBlock :=
  (ops.foldl Op.apply FLVMiniBlockCircularCache.new).blockStore

/-- Behind the last block there is room for one with a larger number. -/
theorem Increasing.append {store : List FLVMiniBlock} (h : Increasing store) {b : FLVMiniBlock}
    (hb : ∀ back, store.getLast? = some back → back.seq.toNat < b.seq.toNat) :
    Increasing (store ++ [b]) := by
  apply List.pairwise_append.mpr
  refine ⟨h, List.pairwise_singleton _ _, ?_⟩
  intro b₁ hb₁ b₂ hb₂
  rw [List.mem_singleton.mp hb₂]
  obtain ⟨i, hi⟩ := List.mem_iff_getElem?.mp hb₁
  obtain ⟨hil, -⟩ := List.getElem?_eq_some_iff.mp hi
  have hlast : store[store.length - 1]? = some store[store.length - 1] :=
    List.getElem?_eq_getElem (by omega)
  have hle := h.le_of_getElem? hi hlast (by omega)
  have hlt := hb _ (List.getLast?_eq_getElem?.trans hlast)
  omega

/-- The store takes no block that is not newer than the last one. -/
theorem push_increasing {c : FLVMiniBlockCircularCache} (h : Increasing c.blockStore)
    (b : FLVMiniBlock) : Increasing (c.push b).blockStore := by
  unfold FLVMiniBlockCircularCache.push
  split
  · next back hback =>
    split
    · exact h
    · next hnewer =>
      apply h.append
      intro back' hback'
      rw [hback] at hback'
      rw [← Option.some.inj hback']
      rw [BitVec.le_def] at hnewer
      omega
  · next hnone =>
    apply h.append
    intro back hback
    rw [hnone] at hback
    cases hback

theorem Op.apply_blockStore (c : FLVMiniBlockCircularCache) (op : Op) :
    (Increasing c.blockStore → Increasing (op.apply c).blockStore) ∧
      ∀ b ∈ (op.apply c).blockStore, b ∈ c.blockStore ∨ op = .push b := by
  cases op with
  | push block =>
    refine ⟨fun h => push_increasing h block, fun b hb => ?_⟩
    rcases c.push_blockStore block with heq | heq
    · rw [Op.apply, heq] at hb
      exact Or.inl hb
    · rw [Op.apply, heq] at hb
      rcases List.mem_append.mp hb with hb | hb
      · exact Or.inl hb
      · rw [List.mem_singleton.mp hb]
        exact Or.inr rfl
  | popFront =>
    rw [Op.apply, c.popFront_blockStore]
    exact ⟨fun h => h.sublist (List.tail_sublist _),
      fun b hb => Or.inl (List.mem_of_mem_tail hb)⟩
  | clear =>
    refine ⟨fun _ => List.Pairwise.nil, fun b hb => ?_⟩
    cases hb

/-- After any run the numbers increase, and are numbers that were pushed. -/
theorem stored_increasing (ops : List Op) :
    Increasing (stored ops) ∧ ∀ b ∈ stored ops, Op.push b ∈ ops := by
  induction ops using List.reverseRecOn with
  | nil => exact ⟨List.Pairwise.nil, fun b hb => by cases hb⟩
  | append_singleton ops op ih =>
    obtain ⟨hincreasing, hpushed⟩ := ih
    rw [stored, List.foldl_append]
    obtain ⟨hkeeps, hfrom⟩ := Op.apply_blockStore
      (ops.foldl Op.apply FLVMiniBlockCircularCache.new) op
    refine ⟨hkeeps hincreasing, fun b hb => ?_⟩
    rcases hfrom b hb with hold | rfl
    · exact List.mem_append_left _ (hpushed b hold)
    · exact List.mem_append_right _ List.mem_cons_self

/-- After any run of operations with numbers below `2 ^ 31` the numbers in the store increase, and
`get_by_seq` is right for all numbers exactly if there are at most `2 ^ 30` blocks. -/
theorem block_lookup (ops : List Op) (hsmall : ∀ b, Op.push b ∈ ops → b.seq.toNat < 2 ^ 31) :
    Increasing (stored ops) ∧ (LooksUp (stored ops) ↔ (stored ops).length ≤ 2 ^ 30) := by
  obtain ⟨hincreasing, hpushed⟩ := stored_increasing ops
  exact ⟨hincreasing, looksUp_iff hincreasing fun b hb => hsmall b (hpushed b hb)⟩

/-- A block with a number. -/
def numbered (seq : Nat) : FLVMiniBlock where
  seq := BitVec.ofNat 32 seq
  timestamp := 0
  isKey := false
  tag :=
    { type := FLV_TAG_VIDEO, datasize := 0, timestamp := 0, streamid := 0, data := [],
      pretagsize := 11 }

/-- A run that leaves the numbers 7 and 9. -/
def withGap : List Op := [.push (numbered 3), .push (numbered 7), .popFront, .push (numbered 9)]

theorem block_lookup_gap :
    (∀ b, Op.push b ∈ withGap → b.seq.toNat < 2 ^ 31) ∧ LooksUp (stored withGap) := by
  have hsmall : ∀ b, Op.push b ∈ withGap → b.seq.toNat < 2 ^ 31 := by
    intro b hb
    simp only [withGap, List.mem_cons, Op.push.injEq, reduceCtorEq, List.not_mem_nil, or_false,
      false_or] at hb
    rcases hb with rfl | rfl | rfl
    · decide
    · decide
    · decide
  exact ⟨hsmall, (block_lookup withGap hsmall).2.mpr (by decide)⟩

/-- The number 0 and then `n` numbers from 2 on. -/
def gapped (n : Nat) : List FLVMiniBlock :=
  numbered 0 :: (List.range n).map fun i => numbered (i + 2)

/-- Blocks in increasing order are all taken. -/
theorem foldl_push {blocks : List FLVMiniBlock} (c : FLVMiniBlockCircularCache)
    (h : Increasing (c.blockStore ++ blocks)) :
    ((blocks.map Op.push).foldl Op.apply c).blockStore = c.blockStore ++ blocks := by
  induction blocks generalizing c with
  | nil => rw [List.append_nil, List.map_nil, List.foldl_nil]
  | cons b blocks ih =>
    have hpush : (c.push b).blockStore = c.blockStore ++ [b] := by
      unfold FLVMiniBlockCircularCache.push
      split
      · next back hback =>
        have hlt := (List.pairwise_append.mp h).2.2 back (List.mem_of_getLast? hback) b
          List.mem_cons_self
        rw [if_neg (fun hle => by rw [BitVec.le_def] at hle; omega)]
      · rfl
    have hassoc : c.blockStore ++ b :: blocks = (c.push b).blockStore ++ blocks := by
      rw [hpush, List.append_assoc, List.singleton_append]
    rw [hassoc] at h ⊢
    exact ih (c.push b) h

theorem gapped_increasing {n : Nat} (hn : n < 2 ^ 31) : Increasing (gapped n) := by
  apply List.pairwise_cons.mpr
  constructor
  · intro b hb
    obtain ⟨i, hi, rfl⟩ := List.mem_map.mp hb
    have hlt := List.mem_range.mp hi
    simp only [numbered, BitVec.toNat_ofNat]
    omega
  · apply List.pairwise_map.mpr
    apply List.pairwise_lt_range.imp_of_mem
    intro i j hi hj hij
    have hlt := List.mem_range.mp hj
    simp only [numbered, BitVec.toNat_ofNat]
    omega

/-- A gapped store of more than `2 ^ 30` blocks does not find its last block. -/
theorem gapped_overflows {n : Nat} (hlong : 2 ^ 30 ≤ n) (hn : n + 2 < 2 ^ 31) :
    stored ((gapped n).map Op.push) = gapped n ∧
      getBySeq (gapped n) (numbered (n + 1)).seq = .error .outOfBounds := by
  have hincreasing := gapped_increasing (n := n) (by omega)
  have hlength : (gapped n).length = n + 1 := by
    rw [gapped, List.length_cons, List.length_map, List.length_range]
  have hsmall : ∀ b ∈ gapped n, b.seq.toNat < 2 ^ 31 := by
    intro b hb
    rcases List.mem_cons.mp hb with rfl | hb
    · decide
    · obtain ⟨i, hi, rfl⟩ := List.mem_map.mp hb
      have hlt := List.mem_range.mp hi
      simp only [numbered, BitVec.toNat_ofNat]
      omega
  have hlast : (gapped n).getLast? = some (numbered (n + 1)) := by
    obtain ⟨m, rfl⟩ : ∃ m, n = m + 1 := ⟨n - 1, by omega⟩
    rw [gapped, List.range_succ, List.map_append, ← List.cons_append, List.map_singleton,
      List.getLast?_append, List.getLast?_singleton]
    rfl
  have hseq : (numbered (n + 1)).seq.toNat = n + 1 := by
    simp only [numbered, BitVec.toNat_ofNat]
    omega
  have hzero : (numbered 0).seq.toNat = 0 := rfl
  refine ⟨foldl_push FLVMiniBlockCircularCache.new hincreasing, ?_⟩
  have hfront : (numbered 0).seq ≤ (numbered (n + 1)).seq := by
    rw [BitVec.le_def]
    omega
  -- the index of the last block lies behind the store
  have hdirect : direct (gapped n) (numbered 0) (numbered (n + 1)).seq = .ok none := by
    have hidx : ((numbered (n + 1)).seq - (numbered 0).seq).toInt = (n + 1 : Nat) := by
      have hsub := BitVec.toNat_sub_of_le hfront
      rw [BitVec.toInt_eq_toNat_of_lt (by omega), hsub, hseq, hzero]
      rfl
    unfold direct
    dsimp only
    rw [hidx, hlength, int32_of_lt (by omega) (by omega), if_pos (Int.le_refl _)]
  rw [getBySeq_inside rfl hlast hfront (BitVec.le_refl _), hdirect, ok_bind]
  dsimp only
  rw [searched_back hincreasing hsmall (by omega) hlast, error_bind]

/-- With `2 ^ 30 + 1` blocks and a gap behind the first one, the last block is not found. -/
theorem long_store_overflows :
    ¬ LooksUp (stored ((gapped (2 ^ 30)).map Op.push)) := by
  obtain ⟨hstored, hfault⟩ := gapped_overflows (n := 2 ^ 30) (Nat.le_refl _) (by decide)
  rw [hstored]
  intro h
  have hmem : numbered (2 ^ 30 + 1) ∈ gapped (2 ^ 30) := by
    apply List.mem_cons_of_mem
    exact List.mem_map.mpr ⟨2 ^ 30 - 1, List.mem_range.mpr (by decide), rfl⟩
  have hpresent := h.present _ hmem
  rw [hfault] at hpresent
  cases hpresent

end CircularCache

end RtcMcu.MediaManager
