import Mathlib.Data.List.Chain
import RtcMcu.Lib.Coupling
import RtcMcu.MediaManager.FlvCacheManager

/-!
# The numbers of the blocks in a cache

The generator numbers the blocks of a stream one by one, the cache takes them in order and is cut at
its front only, so the numbers in a cache follow each other without a gap (`StreamStore.Numbered`).
In such a cache `get_by_seq` finds a block by its index and never has to search.
-/

namespace RtcMcu.MediaManager

open RtcMcu.Avformat RtcMcu.Coupling

/-- Each block has the number behind that of the block before it. -/
def Consecutive (store : List FLVMiniBlock) : Prop :=
  store.IsChain fun b b' => b'.seq.toNat = b.seq.toNat + 1

namespace Consecutive

variable {store : List FLVMiniBlock}

theorem seq_of_getElem? : ∀ {store : List FLVMiniBlock} {front b : FLVMiniBlock} {i : Nat},
    Consecutive (front :: store) → (front :: store)[i]? = some b →
      b.seq.toNat = front.seq.toNat + i := by
  intro store
  induction store with
  | nil =>
    intro front b i _ hb
    cases i with
    | zero =>
      cases hb
      rfl
    | succ i => cases hb
  | cons second store ih =>
    intro front b i h hb
    obtain ⟨hnext, hrest⟩ := List.isChain_cons_cons.mp h
    cases i with
    | zero =>
      cases hb
      rfl
    | succ i =>
      have hseq := ih hrest hb
      omega

/-- A number is that of one place only. -/
theorem index_unique (h : Consecutive store) {b b' : FLVMiniBlock} {i i' : Nat}
    (hi : store[i]? = some b) (hi' : store[i']? = some b') (hseq : b.seq = b'.seq) : i = i' := by
  cases store with
  | nil => cases hi
  | cons front store =>
    have h₁ := h.seq_of_getElem? hi
    have h₂ := h.seq_of_getElem? hi'
    rw [hseq] at h₁
    omega

/-- From the block with a number on. -/
theorem dropWhile_seq {pre post : List FLVMiniBlock} {b : FLVMiniBlock}
    (h : Consecutive (pre ++ b :: post)) :
    (pre ++ b :: post).dropWhile (fun b' => b'.seq != b.seq) = b :: post := by
  have hpre : ∀ b' ∈ pre, (b'.seq != b.seq) = true := by
    intro b' hb'
    obtain ⟨i, hi⟩ := List.mem_iff_getElem?.mp hb'
    have hil : i < pre.length := (List.getElem?_eq_some_iff.mp hi).1
    apply bne_iff_ne.mpr
    intro hseq
    have hfront : (pre ++ b :: post)[i]? = some b' := by
      rw [List.getElem?_append_left hil]
      exact hi
    have hback : (pre ++ b :: post)[pre.length]? = some b := by simp
    have hsame := h.index_unique hfront hback hseq
    omega
  rw [List.dropWhile_append_of_pos hpre, List.dropWhile_cons_of_neg]
  simp

/-- Behind the number of the last block comes no other, unless every number there is is taken. -/
theorem next_of_last (h : Consecutive store) (hlen : store.length < 2 ^ 32) {back : FLVMiniBlock}
    (hback : store.getLast? = some back) : ∀ b ∈ store, b.seq ≠ back.seq + 1 := by
  intro b hb hseq
  obtain ⟨i, hi⟩ := List.mem_iff_getElem?.mp hb
  cases store with
  | nil => cases hb
  | cons front store =>
    have hbsq := h.seq_of_getElem? hi
    rw [List.getLast?_eq_getElem?] at hback
    have hlast := h.seq_of_getElem? hback
    have hil : i < (front :: store).length := (List.getElem?_eq_some_iff.mp hi).1
    have hnat : b.seq.toNat = (back.seq.toNat + 1) % 2 ^ 32 := by
      rw [hseq, BitVec.toNat_add]
      rfl
    have hlt := back.seq.isLt
    by_cases hwrap : back.seq.toNat + 1 < 2 ^ 32
    · rw [Nat.mod_eq_of_lt hwrap] at hnat
      omega
    · have hfull : back.seq.toNat + 1 = 2 ^ 32 := by omega
      rw [hfull, Nat.mod_self] at hnat
      omega

/-- The block behind another one has the number behind it. -/
theorem succ_seq {pre post : List FLVMiniBlock} {b b' : FLVMiniBlock}
    (h : Consecutive (pre ++ b :: b' :: post)) : b'.seq = b.seq + 1 := by
  have hright := (List.isChain_append.mp h).2.1
  have hnat := (List.isChain_cons_cons.mp hright).1
  apply BitVec.eq_of_toNat_eq
  have hlt := b'.seq.isLt
  rw [BitVec.toNat_add]
  show b'.seq.toNat = (b.seq.toNat + 1) % 2 ^ 32
  rw [Nat.mod_eq_of_lt (by omega)]
  exact hnat

/-- What is left of a store whose front was cut. -/
theorem suffix {rest : List FLVMiniBlock} (h : Consecutive store) (hrest : rest <:+ store) :
    Consecutive rest := by
  obtain ⟨pre, rfl⟩ := hrest
  exact (List.isChain_append.mp h).2.1

end Consecutive

/-! ## Lookups -/

namespace FLVMiniBlockCircularCache

variable {c : FLVMiniBlockCircularCache} {seq : BitVec 32} {b : FLVMiniBlock}

theorem mem_of_found (h : c.found seq = some b) : b ∈ c.blockStore ∧ b.seq = seq := by
  unfold found at h
  obtain ⟨hget, hseq⟩ := Option.filter_eq_some_iff.mp h
  exact ⟨List.mem_of_getElem? hget, beq_iff_eq.mp hseq⟩

/-- What is found is in the store and has the number. -/
theorem mem_of_getBySeq (h : c.getBySeq seq = some b) : b ∈ c.blockStore ∧ b.seq = seq := by
  unfold getBySeq at h
  split at h
  · split at h
    · cases h
    · split at h
      · rename_i b' hget
        split at h
        · rename_i hseq
          cases h
          exact ⟨List.mem_of_getElem? hget, hseq⟩
        · exact mem_of_found h
      · exact mem_of_found h
  · cases h

/-- In a store without gaps every block is found by its number. -/
theorem getBySeq_of_mem (h : Consecutive c.blockStore) (hb : b ∈ c.blockStore) :
    c.getBySeq b.seq = some b := by
  obtain ⟨i, hi⟩ := List.mem_iff_getElem?.mp hb
  unfold getBySeq
  cases hstore : c.blockStore with
  | nil =>
    rw [hstore] at hb
    cases hb
  | cons front rest =>
    rw [hstore] at h hi
    have hseq := h.seq_of_getElem? hi
    have hil : i < (front :: rest).length := (List.getElem?_eq_some_iff.mp hi).1
    obtain ⟨back, hback⟩ : ∃ back, (front :: rest).getLast? = some back :=
      ⟨_, List.getLast?_cons⟩
    have hlast := hback
    rw [List.getLast?_eq_getElem?] at hlast
    have hbackseq := h.seq_of_getElem? hlast
    have hin : ¬ (b.seq < front.seq ∨ back.seq < b.seq) := by
      rw [BitVec.lt_def, BitVec.lt_def]
      omega
    have hindex : (b.seq - front.seq).toNat = i := by
      have hlt := b.seq.isLt
      rw [BitVec.toNat_sub_of_le (by rw [BitVec.le_def]; omega)]
      omega
    rw [hback, List.head?_cons]
    dsimp only
    rw [if_neg hin, hindex, hi]
    dsimp only
    rw [if_pos rfl]

theorem getBySeq_eq_some_iff (h : Consecutive c.blockStore) :
    c.getBySeq seq = some b ↔ b ∈ c.blockStore ∧ b.seq = seq := by
  refine ⟨mem_of_getBySeq, fun hb => ?_⟩
  obtain ⟨hmem, rfl⟩ := hb
  exact getBySeq_of_mem h hmem

theorem setFlvHeader_blockStore (c : FLVMiniBlockCircularCache) (header : List Byte) :
    (c.setFlvHeader header).blockStore = c.blockStore := by
  unfold setFlvHeader
  split
  · rfl
  · rfl

theorem push_blockStore (c : FLVMiniBlockCircularCache) (b : FLVMiniBlock) :
    (c.push b).blockStore = c.blockStore ∨ (c.push b).blockStore = c.blockStore ++ [b] := by
  unfold push
  split
  · split
    · exact .inl rfl
    · exact .inr rfl
  · exact .inr rfl

theorem mem_of_getLatestKey (h : c.getLatestKey = some b) : b ∈ c.blockStore ∧ b.isKey = true := by
  unfold getLatestKey at h
  exact ⟨List.mem_reverse.mp (List.mem_of_find?_eq_some h), List.find?_some h⟩

theorem adjust_suffix (durationSec : BitVec 32) (store : List FLVMiniBlock) :
    adjust durationSec store <:+ store := by
  induction store with
  | nil => exact List.suffix_refl _
  | cons front store ih =>
    unfold adjust
    split
    · exact List.IsSuffix.trans ih (List.suffix_cons front store)
    · exact List.suffix_refl _

end FLVMiniBlockCircularCache

/-! ## The store -/

namespace StreamStore

/-- The blocks are consecutive, and the last one has the number the generator gave out last, or the
largest number there is. The generator counts the tags it took from the first one on. -/
structure Numbered (s : StreamStore) : Prop where
  consecutive : Consecutive s.cache.blockStore
  last : ∀ b, s.cache.blockStore.getLast? = some b →
    b.seq = s.generator.lastGlobalSeq ∨ b.seq = -1
  counted : s.generator.lastGlobalSeq = s.generator.inputTagNum - 1 ∨
    s.generator.inputTagNum = 0 ∧ s.cache.blockStore = []

theorem new_numbered : new.Numbered where
  consecutive := List.IsChain.nil
  last := fun _ h => by cases h
  counted := .inr ⟨rfl, rfl⟩

theorem Numbered.adjust {s : StreamStore} (h : s.Numbered) (durationSec : BitVec 32) :
    Numbered { s with cache := { s.cache with
      blockStore := FLVMiniBlockCircularCache.adjust durationSec s.cache.blockStore } } := by
  have hsuffix := FLVMiniBlockCircularCache.adjust_suffix durationSec s.cache.blockStore
  refine ⟨h.consecutive.suffix hsuffix, fun b hb => ?_, ?_⟩
  · obtain ⟨pre, hpre⟩ := hsuffix
    apply h.last
    rw [← hpre, List.getLast?_append]
    have hb' : (FLVMiniBlockCircularCache.adjust durationSec s.cache.blockStore).getLast? =
      some b := hb
    rw [hb']
    rfl
  · rcases h.counted with hcount | ⟨hzero, hnil⟩
    · exact .inl hcount
    · refine .inr ⟨hzero, ?_⟩
      rw [hnil] at hsuffix
      show FLVMiniBlockCircularCache.adjust durationSec s.cache.blockStore = []
      rw [hnil]
      exact List.suffix_nil.mp hsuffix

/-- A header changes nothing in the blocks and their numbers. -/
theorem Numbered.setFlvHeader {s : Option StreamStore} (h : ∀ st, s = some st → st.Numbered)
    (header : List Byte) :
    Ends (fun _ => True)
      (fun st => st.Numbered ∧ st.cache.blockStore = (s.getD new).cache.blockStore)
      (setFlvHeader s header) := by
  have hstore : (s.getD new).Numbered := by
    cases s with
    | none => exact new_numbered
    | some st => exact h st rfl
  unfold StreamStore.setFlvHeader FLVMiniBlockGenerator.setFlvHeader
  generalize s.getD new = st at hstore ⊢
  have hcache := st.cache.setFlvHeader_blockStore header
  have hkeeps : ∀ g : FLVMiniBlockGenerator, g.lastGlobalSeq = st.generator.lastGlobalSeq →
      g.inputTagNum = st.generator.inputTagNum →
      Numbered { generator := g, cache := st.cache.setFlvHeader header } := by
    intro g hlast hcount
    refine ⟨?_, fun b hb => ?_, ?_⟩
    · show Consecutive (st.cache.setFlvHeader header).blockStore
      rw [hcache]
      exact hstore.consecutive
    · show b.seq = g.lastGlobalSeq ∨ _
      rw [hlast]
      apply hstore.last
      rw [← hcache]
      exact hb
    · show g.lastGlobalSeq = g.inputTagNum - 1 ∨
        g.inputTagNum = 0 ∧ (st.cache.setFlvHeader header).blockStore = []
      rw [hlast, hcount, hcache]
      exact hstore.counted
  dsimp only
  cases readByte header 4 with
  | error e => trivial
  | ok flags =>
    simp only [ok_bind]
    split
    · exact ⟨hkeeps _ rfl rfl, hcache⟩
    · split
      · exact ⟨hkeeps _ rfl rfl, hcache⟩
      · trivial

/-- A tag gives no block and changes nothing, or it gives the block with the next number. -/
theorem setFlvTag_ok {g g' : FLVMiniBlockGenerator} {tag : FlvTag} {o : Option FLVMiniBlock}
    (h : g.setFlvTag tag = .ok (g', o)) :
    (o = none ∧ g' = g) ∨
      ∃ b, o = some b ∧ b.tag = tag ∧
        b.seq = (if g.inputTagNum = 0 then -1 else g.lastGlobalSeq) + 1 ∧
        g'.lastGlobalSeq = b.seq ∧ g'.inputTagNum = g.inputTagNum + 1 := by
  unfold FLVMiniBlockGenerator.setFlvTag at h
  split at h
  · cases h
    exact .inl ⟨rfl, rfl⟩
  · dsimp only at h
    rw [bind_eq_ok] at h
    obtain ⟨⟨g₁, b⟩, hgen, hrest⟩ := h
    cases hrest
    refine .inr ⟨b, rfl, ?_⟩
    have hgenerate : ∀ {g₀ : FLVMiniBlockGenerator}, g₀.generate tag = .ok (g₁, b) →
        b.tag = tag ∧ b.seq = g₀.lastGlobalSeq + 1 ∧ g₁.lastGlobalSeq = b.seq ∧
          g₁.inputTagNum = g₀.inputTagNum := by
      intro g₀ hg₀
      unfold FLVMiniBlockGenerator.generate at hg₀
      split at hg₀
      · cases hg₀
      · cases hg₀
        exact ⟨rfl, rfl, rfl, rfl⟩
    obtain ⟨htag, hseq, hlast, hnum⟩ := hgenerate hgen
    refine ⟨htag, ?_, hlast, ?_⟩
    · rw [hseq]
      split
      · rfl
      · rfl
    · show g₁.inputTagNum + 1 = g.inputTagNum + 1
      rw [hnum]
      split
      · rfl
      · rfl

/-- A block is taken behind the last one, or the numbers are used up. -/
theorem Numbered.push {s : StreamStore} (h : s.Numbered) {g : FLVMiniBlockGenerator}
    {b : FLVMiniBlock}
    (hseq : b.seq = (if s.generator.inputTagNum = 0 then -1 else s.generator.lastGlobalSeq) + 1)
    (hlast : g.lastGlobalSeq = b.seq) (hnum : g.inputTagNum = s.generator.inputTagNum + 1) :
    Numbered { generator := g, cache := s.cache.push b } := by
  have hcounted : g.lastGlobalSeq = g.inputTagNum - 1 := by
    rw [hlast, hnum, hseq]
    rcases h.counted with hcount | ⟨hzero, -⟩
    · rw [hcount]
      by_cases hzero : s.generator.inputTagNum = 0
      · rw [if_pos hzero, hzero]
        decide
      · rw [if_neg hzero, BitVec.sub_add_cancel, BitVec.add_sub_cancel]
    · rw [if_pos hzero, hzero]
      decide
  cases hback : s.cache.blockStore.getLast? with
  | none =>
    have hnil := List.getLast?_eq_none_iff.mp hback
    have hpush : (s.cache.push b).blockStore = [b] := by
      unfold FLVMiniBlockCircularCache.push
      rw [hback, hnil]
      rfl
    refine ⟨?_, fun b' hb' => ?_, .inl hcounted⟩
    · show Consecutive (s.cache.push b).blockStore
      rw [hpush]
      exact List.IsChain.singleton b
    · have hb'' : (s.cache.push b).blockStore.getLast? = some b' := hb'
      rw [hpush] at hb''
      cases hb''
      exact .inl hlast.symm
  | some back =>
    have hgen : b.seq = s.generator.lastGlobalSeq + 1 := by
      rw [hseq]
      rcases h.counted with hcount | ⟨-, hnil⟩
      · by_cases hzero : s.generator.inputTagNum = 0
        · rw [if_pos hzero, hcount, hzero]
          decide
        · rw [if_neg hzero]
      · rw [hnil] at hback
        cases hback
    by_cases hle : b.seq ≤ back.seq
    · have hpush : s.cache.push b = s.cache := by
        unfold FLVMiniBlockCircularCache.push
        rw [hback]
        exact if_pos hle
      rw [hpush]
      refine ⟨h.consecutive, fun b' hb' => ?_, .inl hcounted⟩
      have hsame : back = b' := Option.some.inj (hback.symm.trans hb')
      subst hsame
      rcases h.last back hback with hlast' | hmax
      · right
        rw [hgen, ← hlast'] at hle
        bv_omega
      · exact .inr hmax
    · have hpush : (s.cache.push b).blockStore = s.cache.blockStore ++ [b] := by
        unfold FLVMiniBlockCircularCache.push
        rw [hback]
        dsimp only
        rw [if_neg hle]
      refine ⟨?_, fun b' hb' => ?_, .inl hcounted⟩
      · show Consecutive (s.cache.push b).blockStore
        rw [hpush]
        refine List.isChain_append.mpr ⟨h.consecutive, List.IsChain.singleton b, ?_⟩
        intro x hx y hy
        cases hback.symm.trans (Option.mem_def.mp hx)
        cases hy
        rcases h.last back hback with hlast' | hmax
        · rw [hgen, ← hlast'] at hle ⊢
          bv_omega
        · rw [hmax] at hle
          bv_omega
      · have hb'' : (s.cache.push b).blockStore.getLast? = some b' := hb'
        rw [hpush, List.getLast?_concat] at hb''
        cases hb''
        exact .inl hlast.symm

/-- A tag leaves the blocks as they are or adds its own behind them. -/
theorem Numbered.setFlvTag {s s' : StreamStore} {tag : FlvTag} (h : s.Numbered)
    (hok : StreamStore.setFlvTag (some s) tag = .ok s') :
    s'.Numbered ∧ (s'.cache.blockStore = s.cache.blockStore ∨
      ∃ b, b.tag = tag ∧ s'.cache.blockStore = s.cache.blockStore ++ [b]) := by
  unfold StreamStore.setFlvTag at hok
  dsimp only at hok
  rw [bind_eq_ok] at hok
  obtain ⟨⟨g, o⟩, hgen, hrest⟩ := hok
  rcases setFlvTag_ok hgen with ⟨rfl, rfl⟩ | ⟨b, rfl, htag, hseq, hlast, hnum⟩
  · cases hrest
    exact ⟨h, .inl rfl⟩
  · cases hrest
    refine ⟨h.push hseq hlast hnum, ?_⟩
    rcases s.cache.push_blockStore b with hsame | hadd
    · exact .inl hsame
    · exact .inr ⟨b, htag, hadd⟩

end StreamStore

end RtcMcu.MediaManager
