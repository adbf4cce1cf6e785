import RtcMcu.Lib.Serial

/-!
# Serial numbers within half a turn

The order of `Lib.Serial` is an order only on numbers that lie within half a turn of one origin
(`HalfTurn`): three numbers a third of a turn apart are each newer than the next. Within half a turn
it is the order of the distances from the origin (`newer_iff_ahead`), so it is transitive and total,
and a list in that order (`Ordered`, from the oldest on) stays in order when a number is put in its
place (`Ordered.insert`) and when numbers go from its front.
-/

namespace RtcMcu.Serial

variable {w : Nat} {keys keys' : List (BitVec w)} {a b c s base : BitVec w}

/-- The numbers lie within half a turn of one origin. -/
def HalfTurn (keys : List (BitVec w)) : Prop :=
  ∃ base, ∀ k ∈ keys, ahead base k < 2 ^ (w - 1)

/-- The numbers stand from the oldest on. -/
def Ordered (keys : List (BitVec w)) : Prop := keys.Pairwise fun a b => newer b a = true

theorem HalfTurn.mono (h : HalfTurn keys) (hsub : ∀ k ∈ keys', k ∈ keys) : HalfTurn keys' := by
  obtain ⟨base, hbase⟩ := h
  exact ⟨base, fun k hk => hbase k (hsub k hk)⟩

theorem Ordered.sublist (h : Ordered keys) (hsub : keys'.Sublist keys) : Ordered keys' :=
  List.Pairwise.sublist hsub h

theorem Ordered.nodup (h : Ordered keys) : keys.Nodup :=
  List.Pairwise.imp (S := fun a b => a ≠ b) (fun hnewer => (newer_iff.mp hnewer).1.symm) h

/-! ## The order -/

/-- Within half a turn of an origin the newer number is the one farther ahead. -/
theorem newer_iff_ahead (ha : ahead base a < 2 ^ (w - 1)) (hb : ahead base b < 2 ^ (w - 1)) :
    newer b a = true ↔ ahead base a < ahead base b := by
  constructor
  · intro h
    by_contra hle
    rw [not_newer_of_le ha (Nat.le_of_not_lt hle)] at h
    cases h
  · intro h
    refine newer_iff.mpr ⟨?_, ?_⟩
    · rintro rfl
      exact Nat.lt_irrefl _ h
    · rw [ahead_sub (Nat.le_of_lt h)]
      omega

theorem HalfTurn.newer_trans (h : HalfTurn keys) (ha : a ∈ keys) (hb : b ∈ keys) (hc : c ∈ keys)
    (hba : newer b a = true) (hcb : newer c b = true) : newer c a = true := by
  obtain ⟨base, hbase⟩ := h
  rw [newer_iff_ahead (hbase a ha) (hbase b hb)] at hba
  rw [newer_iff_ahead (hbase b hb) (hbase c hc)] at hcb
  rw [newer_iff_ahead (hbase a ha) (hbase c hc)]
  exact Nat.lt_trans hba hcb

/-- Of two different numbers within half a turn one is newer. -/
theorem HalfTurn.newer_total (h : HalfTurn keys) (ha : a ∈ keys) (hb : b ∈ keys) (hne : a ≠ b) :
    newer b a = true ∨ newer a b = true := by
  obtain ⟨base, hbase⟩ := h
  rw [newer_iff_ahead (hbase a ha) (hbase b hb), newer_iff_ahead (hbase b hb) (hbase a ha)]
  have hdist : ahead base a ≠ ahead base b := fun heq => hne (ahead_inj.mp heq)
  omega

/-! ## Numbers behind a latest one -/

/-- The numbers lie at most `d` behind the latest one. -/
def Behind (d : Nat) (latest : BitVec w) (keys : List (BitVec w)) : Prop :=
  ∀ k ∈ keys, ahead k latest ≤ d

theorem Behind.mono {d d' : Nat} {latest : BitVec w} (h : Behind d latest keys) (hd : d ≤ d')
    (hsub : ∀ k ∈ keys', k ∈ keys) : Behind d' latest keys' :=
  fun k hk => Nat.le_trans (h k (hsub k hk)) hd

/-- What lies less than half a turn behind a number lies within half a turn. -/
theorem Behind.halfTurn {d : Nat} {latest : BitVec w} (h : Behind d latest keys)
    (hd : d < 2 ^ (w - 1)) (hw : 0 < w) : HalfTurn keys := by
  have hpow : 2 ^ w = 2 * 2 ^ (w - 1) := by
    cases w with
    | zero => exact absurd hw (Nat.lt_irrefl 0)
    | succ w => rw [Nat.add_sub_cancel, Nat.pow_succ']
  refine ⟨latest - BitVec.ofNat w d, fun k hk => ?_⟩
  have hbase : ahead (latest - BitVec.ofNat w d) latest = d := by
    have hstep := ahead_add_ofNat (latest - BitVec.ofNat w d) (i := d) (by omega)
    rwa [BitVec.sub_add_cancel] at hstep
  have hle := h k hk
  by_contra hfar
  rw [Nat.not_lt] at hfar
  have hlt := ahead_lt (latest - BitVec.ofNat w d) k
  have hrest : ahead k latest = 2 ^ w + ahead (latest - BitVec.ofNat w d) latest -
      ahead (latest - BitVec.ofNat w d) k := ahead_sub_of_lt (by omega)
  omega

/-- A newer number lies less far behind. -/
theorem Behind.lt_of_newer {d : Nat} {latest : BitVec w} (h : Behind d latest keys)
    (hd : d < 2 ^ (w - 1)) (ha : a ∈ keys) (hnewer : newer b a = true) (hb : b ∈ keys) :
    ahead b latest < ahead a latest := by
  obtain ⟨hne, hlt⟩ := newer_iff.mp hnewer
  have hpos : 0 < ahead a b := Nat.pos_of_ne_zero fun hzero => hne (ahead_eq_zero.mp hzero).symm
  have hle := h b hb
  have hpow : 2 ^ (w - 1) + 2 ^ (w - 1) ≤ 2 ^ w := by
    cases w with
    | zero => exact absurd (BitVec.eq_of_toNat_eq (by omega)) hne
    | succ w =>
      rw [Nat.add_sub_cancel, Nat.pow_succ]
      omega
  rw [ahead_trans (a := a) (b := b) (c := latest) (by omega)]
  omega

/-! ## Putting a number in its place -/

/-- The numbers before the first that is not older, the number, and the rest. -/
def insertKey (keys : List (BitVec w)) (s : BitVec w) : List (BitVec w) :=
  keys.takeWhile (fun k => newer s k) ++ s :: keys.dropWhile fun k => newer s k

theorem mem_insertKey : a ∈ insertKey keys s ↔ a = s ∨ a ∈ keys := by
  have hsplit := List.takeWhile_append_dropWhile (p := fun k => newer s k) (l := keys)
  rw [insertKey, List.mem_append, List.mem_cons]
  constructor
  · rintro (h | h | h)
    · exact .inr ((List.takeWhile_sublist _).mem h)
    · exact .inl h
    · exact .inr ((List.dropWhile_sublist _).mem h)
  · rintro (h | h)
    · exact .inr (.inl h)
    · rw [← hsplit, List.mem_append] at h
      exact h.elim .inl fun h => .inr (.inr h)

/-- Of an ordered list the numbers from the first one that is not older on are newer. -/
theorem Ordered.newer_of_mem_dropWhile (h : Ordered keys) (hturn : HalfTurn (s :: keys))
    (hs : s ∉ keys) (ha : a ∈ keys.dropWhile fun k => newer s k) : newer a s = true := by
  have hmem : ∀ x ∈ keys.dropWhile (fun k => newer s k), x ∈ keys := fun x hx =>
    (List.dropWhile_sublist _).mem hx
  cases hdrop : keys.dropWhile (fun k => newer s k) with
  | nil =>
    rw [hdrop] at ha
    cases ha
  | cons first rest =>
    have hfirst : newer s first = false := by
      have hhead := List.head?_dropWhile_not (fun k => newer s k) keys
      rw [hdrop] at hhead
      exact hhead
    have hin : first ∈ keys := hmem first (hdrop ▸ List.mem_cons_self)
    have hnewer : newer first s = true := by
      have hne : first ≠ s := fun heq => hs (heq ▸ hin)
      rcases hturn.newer_total (List.mem_cons_of_mem s hin) List.mem_cons_self hne with h' | h'
      · rw [hfirst] at h'
        cases h'
      · exact h'
    have hord : Ordered (first :: rest) := hdrop ▸ h.sublist (List.dropWhile_sublist _)
    rw [hdrop] at ha
    rcases List.mem_cons.mp ha with rfl | ha
    · exact hnewer
    · have hafirst := List.rel_of_pairwise_cons hord ha
      exact hturn.newer_trans List.mem_cons_self (List.mem_cons_of_mem s hin)
        (List.mem_cons_of_mem s (hmem a (hdrop ▸ List.mem_cons_of_mem first ha))) hnewer hafirst

/-- A new number goes in its place. -/
theorem Ordered.insert (h : Ordered keys) (hturn : HalfTurn (s :: keys)) (hs : s ∉ keys) :
    Ordered (insertKey keys s) := by
  have hsplit := List.takeWhile_append_dropWhile (p := fun k => newer s k) (l := keys)
  have hparts : Ordered (keys.takeWhile (fun k => newer s k) ++
      keys.dropWhile fun k => newer s k) := hsplit.symm ▸ h
  obtain ⟨hold, hnew, hbetween⟩ := List.pairwise_append.mp hparts
  refine List.pairwise_append.mpr ⟨hold, ?_, ?_⟩
  · exact List.pairwise_cons.mpr ⟨fun x hx => h.newer_of_mem_dropWhile hturn hs hx, hnew⟩
  · intro x hx y hy
    rcases List.mem_cons.mp hy with rfl | hy
    · exact List.all_eq_true.mp List.all_takeWhile x hx
    · exact hbetween x hx y hy

/-! ## Taking numbers from the front -/

/-- What does not satisfy the test is not dropped. -/
theorem mem_dropWhile_of_not {α : Type} {p : α → Bool} {l : List α} {x : α} (hx : x ∈ l)
    (hp : p x = false) : x ∈ l.dropWhile p := by
  rw [← List.takeWhile_append_dropWhile (p := p) (l := l), List.mem_append] at hx
  refine hx.resolve_left fun htake => ?_
  rw [List.all_eq_true.mp List.all_takeWhile x htake] at hp
  cases hp

/-- The oldest number of an ordered list is older than every other. -/
theorem Ordered.head_le (h : Ordered (s :: keys)) (ha : a ∈ s :: keys) :
    a = s ∨ newer a s = true := by
  rcases List.mem_cons.mp ha with rfl | ha
  · exact .inl rfl
  · exact .inr (List.rel_of_pairwise_cons h ha)

/-! ## Numbers in order behind a latest one -/

/-- The numbers stand in order and lie at most `d` behind the latest one. -/
structure OrderedWithin (d : Nat) (latest : BitVec w) (keys : List (BitVec w)) : Prop where
  ordered : Ordered keys
  behind : Behind d latest keys

namespace OrderedWithin

variable {d d' : Nat} {latest : BitVec w}

theorem nil (d : Nat) (latest : BitVec w) : OrderedWithin d latest [] :=
  ⟨List.Pairwise.nil, fun _ hk => absurd hk List.not_mem_nil⟩

theorem sublist (h : OrderedWithin d latest keys) (hsub : keys'.Sublist keys) :
    OrderedWithin d latest keys' :=
  ⟨h.ordered.sublist hsub, h.behind.mono (Nat.le_refl d) fun _ hk => hsub.mem hk⟩

theorem mono (h : OrderedWithin d latest keys) (hd : d ≤ d') : OrderedWithin d' latest keys :=
  ⟨h.ordered, h.behind.mono hd fun _ hk => hk⟩

theorem halfTurn (h : OrderedWithin d latest keys) (hd : d < 2 ^ (w - 1)) (hw : 0 < w)
    (hs : ahead s latest ≤ d) : HalfTurn (s :: keys) := by
  have hall : Behind d latest (s :: keys) := fun k hk =>
    (List.mem_cons.mp hk).elim (fun heq => heq ▸ hs) (h.behind k)
  exact hall.halfTurn hd hw

theorem insertKey (h : OrderedWithin d latest keys) (hd : d < 2 ^ (w - 1)) (hw : 0 < w)
    (hs : ahead s latest ≤ d) (hnew : s ∉ keys) : OrderedWithin d latest (insertKey keys s) :=
  ⟨h.ordered.insert (h.halfTurn hd hw hs) hnew, fun k hk =>
    (mem_insertKey.mp hk).elim (fun heq => heq ▸ hs) (h.behind k)⟩

end OrderedWithin

end RtcMcu.Serial
