import RtcMcu.Lib.Fifo
import RtcMcu.Util.Buffer

/-!
# Buffer as a queue

The calls of `util/buffer.hpp` that the network paths put together in any order, with what they
return and with the arithmetic of `size_t`. Five of them move the queued bytes or the offsets around
them, each by a rule of its own; to the caller the buffer is a bounded queue of bytes
(`buffer_refines_queue`).

`alloc` says which sizes `realloc` has room for. A block of `2 ^ 63` bytes it never has.
-/

namespace RtcMcu.Util

open RtcMcu.Coupling RtcMcu.Fifo

def BUFFER_OVER_SIZE : Int := -4
def BUFFER_CAPACITY_ERROR : Int := -3

/-- How a call ends without a result. -/
inductive BufferFault
  /-- `realloc` gives no block -/
  | allocationFailed
  /-- bytes are written behind the block -/
  | outOfBounds
  deriving DecidableEq

/-- A sum of two `size_t`. -/
def addSize (a b : Nat) : Nat := (a + b) % 2 ^ 64

theorem addSize_of_lt {a b : Nat} (h : a + b < 2 ^ 64) : addSize a b = a + b := Nat.mod_eq_of_lt h

namespace Buffer

/-! ## Calls -/

/-- `buffer_append_ptr`. -/
def appendPtr (b : Buffer) (src : List Byte) : Except BufferFault (Buffer × Int) :=
  if b.size < addSize b.dataLen src.length then .ok (b, BUFFER_OVER_SIZE)
  else
    let b := if b.capacity < src.length then b.adjust else b
    if room : b.stop + src.length ≤ b.size then .ok (b.put src room, 0) else .error .outOfBounds

/-- `buffer_eat`: only the cursor moves. -/
def eat (b : Buffer) (bytes : Nat) : Buffer × Nat :=
  ({ ptr := b.ptr
     start := b.start + min bytes b.dataLen
     stop := b.stop
     max := b.max
     start_le := by
      have hle := b.start_le
      unfold dataLen
      omega
     stop_le := b.stop_le }, min bytes b.dataLen)

/-- What `buffer_ignore` returns. -/
def ignoreResult (b : Buffer) (bytes : Nat) : Nat :=
  if bytes = 0 then bytes else if b.dataLen ≤ bytes then b.dataLen else bytes

/-- `buffer_try_adjust`. -/
def tryAdjust (b : Buffer) : Buffer :=
  if b.start = b.stop then b.reset
  else if 128 * 1024 ≤ b.size ∨ b.size / 2 ≤ b.start then b.adjust
  else b

section Expand

variable (alloc : Nat → Bool)

/-- `buffer_expand`. `_size` is rounded up before `realloc`, and set to the size asked for after. -/
def expand (b : Buffer) (size : Nat) : Except BufferFault (Buffer × Int) :=
  if b.max ≤ size then .ok (b, BUFFER_CAPACITY_ERROR)
  else if b.size < size then
    if alloc size then .ok (b.realloc size, 0) else .error .allocationFailed
  else .ok (b, 0)

/-- `buffer_expand_capacity` with what it returns. -/
def bufferExpandCapacity (b : Buffer) (cap : Nat) : Except BufferFault (Buffer × Int) :=
  if cap ≤ b.capacity then .ok (b, 0)
  else if b.max ≤ addSize b.dataLen cap then .ok (b, BUFFER_CAPACITY_ERROR)
  else if addSize b.dataLen cap ≤ b.size then .ok (b.adjust, 0)
  else do
    let (b, ret) ← b.expand alloc (addSize b.dataLen cap)
    if ret ≠ 0 then .ok (b, ret) else .ok (b.adjust, 0)

/-- The calls. -/
inductive Op
  | appendPtr (src : List Byte)
  | eat (bytes : Nat)
  | ignore (bytes : Nat)
  | adjust
  | tryAdjust
  | expandCapacity (cap : Nat)
  | reset

/-- The length a call is given is below `2 ^ 62`. -/
def Op.Small : Op → Prop
  | .appendPtr src => src.length < 2 ^ 62
  | .eat bytes => bytes < 2 ^ 62
  | .ignore bytes => bytes < 2 ^ 62
  | .expandCapacity cap => cap < 2 ^ 62
  | _ => True

/-- What a call is to a queue. -/
def Op.call : Op → Call Byte
  | .appendPtr src => .append src
  | .eat bytes => .take bytes
  | .ignore bytes => .take bytes
  | .adjust => .keep
  | .tryAdjust => .keep
  | .expandCapacity cap => .reserve cap
  | .reset => .clear

/-- An `int` that is returned: 0, or an error. -/
def answer (ret : Int) : Answer := if ret = 0 then .done else .refused

/-- One call. -/
def step (b : Buffer) : Op → Except BufferFault (Buffer × Answer)
  | .appendPtr src => do
    let (b, ret) ← b.appendPtr src
    .ok (b, answer ret)
  | .eat bytes => .ok ((b.eat bytes).1, .taken (b.eat bytes).2)
  | .ignore bytes => .ok (b.ignore bytes, .taken (b.ignoreResult bytes))
  | .adjust => .ok (b.adjust, .done)
  | .tryAdjust => .ok (b.tryAdjust, .done)
  | .expandCapacity cap => do
    let (b, ret) ← b.bufferExpandCapacity alloc cap
    .ok (b, answer ret)
  | .reset => .ok (b.reset, .done)

end Expand

/-- The queue a buffer stands for. -/
def queue (b : Buffer) : Queue Byte where
  items := b.data
  bound := b.size
  fits := by
    have hstop := b.stop_le
    rw [b.length_data]
    unfold dataLen size
    omega

/-! ## What each call does to the queue -/

@[simp] theorem queue_items (b : Buffer) : b.queue.items = b.data := rfl

@[simp] theorem queue_bound (b : Buffer) : b.queue.bound = b.size := rfl

theorem dataLen_le_size (b : Buffer) : b.dataLen ≤ b.size := by
  have hstop := b.stop_le
  unfold dataLen size
  omega

@[simp] theorem size_adjust (b : Buffer) : b.adjust.size = b.size := by
  have hle := b.dataLen_le_size
  have hdata := b.length_data
  unfold size at *
  simp only [adjust, List.length_append, List.length_drop, hdata]
  omega

@[simp] theorem size_put (b : Buffer) (src : List Byte) (h : b.stop + src.length ≤ b.size) :
    (b.put src h).size = b.size := by
  unfold size at *
  simp only [put, List.length_append, List.length_take, List.length_drop]
  omega

theorem size_realloc (b : Buffer) {size : Nat} (h : b.size ≤ size) : (b.realloc size).size = size := by
  unfold Buffer.size at *
  simp only [realloc, Buffer.size, List.length_append, List.length_replicate]
  omega

@[simp] theorem size_ignore (b : Buffer) (bytes : Nat) : (b.ignore bytes).size = b.size := by
  have hle := b.dataLen_le_size
  have hdata := b.length_data
  unfold ignore
  split
  · rfl
  · split
    · rfl
    · unfold size at *
      simp only [List.length_append, List.length_drop, hdata]
      omega

theorem queue_adjust (b : Buffer) : b.adjust.queue = b.queue :=
  Queue.ext_items b.data_adjust b.size_adjust

theorem data_eat (b : Buffer) (bytes : Nat) : (b.eat bytes).1.data = b.data.drop bytes := by
  simp only [eat, data, List.drop_drop]
  by_cases hle : bytes ≤ b.dataLen
  · rw [Nat.min_eq_left hle]
  · have hall : b.start + min bytes b.dataLen = b.stop := by
      have hstart := b.start_le
      unfold dataLen at hle ⊢
      omega
    rw [hall, List.drop_eq_nil_of_le (List.length_take_le _ _),
      List.drop_eq_nil_of_le (Nat.le_trans (List.length_take_le _ _) (by
        unfold dataLen at hle
        omega))]

theorem ignoreResult_eq (b : Buffer) (bytes : Nat) :
    b.ignoreResult bytes = min bytes b.dataLen := by
  rw [ignoreResult, Nat.min_def]
  split
  · next hzero =>
    rw [hzero, if_pos (Nat.zero_le _)]
  · split
    · split
      · omega
      · rfl
    · rw [if_pos (by omega)]

theorem queue_tryAdjust (b : Buffer) : b.tryAdjust.queue = b.queue := by
  unfold tryAdjust
  split
  · next hempty =>
    apply Queue.ext_items
    · have hnil : b.data = [] := by
        apply List.eq_nil_of_length_eq_zero
        rw [b.length_data, dataLen, hempty, Nat.sub_self]
      exact hnil.symm
    · rfl
  · split
    · exact b.queue_adjust
    · rfl

/-- Appending takes all bytes or none. -/
theorem appendPtr_allows (b : Buffer) (src : List Byte) (hsize : b.size < 2 ^ 63)
    (hsrc : src.length < 2 ^ 62) :
    ∃ b' ret, b.appendPtr src = .ok (b', ret) ∧ b'.size = b.size ∧
      Allows b.queue (.append src) (answer ret) b'.queue := by
  have hlen := b.dataLen_le_size
  have hdata := b.length_data
  rw [appendPtr, addSize_of_lt (by omega)]
  by_cases hfull : b.size < b.dataLen + src.length
  · rw [if_pos hfull]
    refine ⟨b, _, rfl, rfl, Or.inr ⟨?_, by decide, rfl⟩⟩
    rw [queue_items, hdata]
    exact hfull
  · rw [if_neg hfull]
    dsimp only
    -- the bytes that are queued already stand in front of the room, moved or not
    obtain ⟨b₁, hb₁, hroom, hsame, hsize₁⟩ : ∃ b₁,
        (if b.capacity < src.length then b.adjust else b) = b₁ ∧
        b₁.stop + src.length ≤ b₁.size ∧ b₁.data = b.data ∧ b₁.size = b.size := by
      by_cases hcap : b.capacity < src.length
      · refine ⟨b.adjust, if_pos hcap, ?_, b.data_adjust, b.size_adjust⟩
        rw [size_adjust]
        change b.dataLen + src.length ≤ b.size
        omega
      · refine ⟨b, if_neg hcap, ?_, rfl, rfl⟩
        have hstop : b.stop ≤ b.size := b.stop_le
        unfold capacity at hcap
        omega
    rw [hb₁, dif_pos hroom]
    refine ⟨_, 0, rfl, ?_, Or.inl ⟨?_, by decide, ?_, ?_⟩⟩
    · rw [size_put, hsize₁]
    · rw [queue_items, hdata]
      exact Nat.le_of_not_lt hfull
    · rw [queue_items, data_put, hsame]
      rfl
    · rw [queue_bound, size_put, hsize₁]
      rfl

/-- Making room does not touch the bytes. -/
theorem expandCapacity_allows {alloc : Nat → Bool} (b : Buffer) {cap : Nat} (hsize : b.size < 2 ^ 63)
    (hgood : alloc b.size = true) (hcap : cap < 2 ^ 62) :
    Ends (· = .allocationFailed)
      (fun r => alloc r.1.size = true ∧ Allows b.queue (.reserve cap) (answer r.2) r.1.queue)
      (b.bufferExpandCapacity alloc cap) := by
  have hlen := b.dataLen_le_size
  have hdata := b.length_data
  have hstop : b.stop ≤ b.size := b.stop_le
  rw [bufferExpandCapacity, addSize_of_lt (by omega)]
  by_cases henough : cap ≤ b.capacity
  · rw [if_pos henough]
    refine ⟨hgood, Or.inl ⟨rfl, rfl, Nat.le_refl _, ?_⟩⟩
    simp only [queue_items, queue_bound, hdata]
    unfold capacity at henough
    unfold dataLen
    omega
  · rw [if_neg henough]
    by_cases hmax : b.max ≤ b.dataLen + cap
    · rw [if_pos hmax]
      exact ⟨hgood, Or.inr ⟨rfl, rfl⟩⟩
    · rw [if_neg hmax]
      by_cases hfits : b.dataLen + cap ≤ b.size
      · rw [if_pos hfits, ends_ok]
        dsimp only
        rw [size_adjust, queue_adjust]
        refine ⟨hgood, Or.inl ⟨by decide, rfl, Nat.le_refl _, ?_⟩⟩
        simp only [queue_items, queue_bound, hdata]
        exact hfits
      · rw [if_neg hfits, expand, if_neg hmax, if_pos (by omega)]
        by_cases halloc : alloc (b.dataLen + cap) = true
        · have hgrown : (b.realloc (b.dataLen + cap)).size = b.dataLen + cap :=
            b.size_realloc (by omega)
          rw [if_pos halloc, ok_bind]
          dsimp only
          rw [if_neg (by decide), ends_ok]
          dsimp only
          rw [size_adjust, queue_adjust, hgrown]
          refine ⟨halloc, Or.inl ⟨by decide, b.data_realloc _, ?_, ?_⟩⟩
          · simp only [queue_bound, hgrown]
            omega
          · simp only [queue_items, queue_bound, hgrown, hdata]
            exact Nat.le_refl _
        · rw [if_neg halloc]
          rfl

/-- Each call is a call of the queue. -/
theorem step_allows {alloc : Nat → Bool} (halloc : ∀ n, alloc n = true → n < 2 ^ 63) (b : Buffer)
    (op : Op) (hop : op.Small) (hgood : alloc b.size = true) :
    Ends (· = .allocationFailed)
      (fun r => alloc r.1.size = true ∧ Allows b.queue op.call r.2 r.1.queue) (b.step alloc op) := by
  have hsize := halloc b.size hgood
  cases op with
  | appendPtr src =>
    obtain ⟨b', ret, heq, hsame, hallows⟩ := b.appendPtr_allows _ hsize hop
    rw [step, heq, ok_bind]
    refine ⟨?_, hallows⟩
    rw [hsame]
    exact hgood
  | eat bytes =>
    refine ⟨hgood, ?_, b.data_eat bytes, rfl⟩
    rw [queue_items, b.length_data]
    rfl
  | ignore bytes =>
    refine ⟨?_, ?_, b.data_ignore bytes, b.size_ignore bytes⟩
    · dsimp only
      rw [b.size_ignore]
      exact hgood
    · rw [queue_items, b.length_data, b.ignoreResult_eq]
  | adjust =>
    refine ⟨?_, rfl, b.queue_adjust⟩
    dsimp only
    rw [b.size_adjust]
    exact hgood
  | tryAdjust =>
    have hqueue := b.queue_tryAdjust
    refine ⟨?_, rfl, hqueue⟩
    dsimp only
    rw [← queue_bound, hqueue]
    exact hgood
  | expandCapacity cap =>
    refine Ends.bind (b.expandCapacity_allows hsize hgood hop) ?_
    rintro ⟨b', ret⟩ - hallows
    exact hallows
  | reset => exact ⟨hgood, rfl, rfl, rfl⟩

/-- Room that was made is there for the next append. -/
theorem append_after_expand {alloc : Nat → Bool} (halloc : ∀ n, alloc n = true → n < 2 ^ 63)
    {b b₁ : Buffer} {cap : Nat} (hgood : alloc b.size = true) (hcap : cap < 2 ^ 62)
    (hexpand : b.bufferExpandCapacity alloc cap = .ok (b₁, 0)) {src : List Byte}
    (hsrc : src.length = cap) :
    b₁.data = b.data ∧ ∃ b₂, b₁.appendPtr src = .ok (b₂, 0) ∧ b₂.data = b.data ++ src := by
  have hallows := b.expandCapacity_allows (halloc _ hgood) hgood hcap
  rw [hexpand] at hallows
  obtain ⟨hgood₁, hreserve⟩ := hallows
  have hdata : b₁.data = b.data := by
    rcases hreserve with ⟨-, hitems, -⟩ | ⟨hrefused, -⟩
    · exact hitems
    · cases hrefused
  obtain ⟨b₂, ret, heq, -, happend⟩ := b₁.appendPtr_allows src (halloc _ hgood₁) (by omega)
  obtain ⟨hdone, hitems⟩ := append_after_reserve hreserve (by omega) happend
  have hret : ret = 0 := by
    unfold answer at hdone
    split at hdone
    · assumption
    · cases hdone
  rw [hret] at heq
  exact ⟨hdata, b₂, heq, hitems⟩

/-- Any sequence of calls does to a buffer what it does to a bounded queue of bytes, as long as
`realloc` has room; the offsets stay in order; and after room was made for `cap` bytes, `cap` bytes
can be appended. -/
theorem buffer_refines_queue {alloc : Nat → Bool} (halloc : ∀ n, alloc n = true → n < 2 ^ 63)
    (b : Buffer) (hb : alloc b.size = true) (ops : List Op) (hops : ∀ op ∈ ops, op.Small) :
    Ends (· = .allocationFailed)
      (fun r => Runs b.queue r.2 r.1.queue ∧ r.1.start ≤ r.1.stop ∧ r.1.stop ≤ r.1.size ∧
        ∀ cap b₁, cap < 2 ^ 62 → r.1.bufferExpandCapacity alloc cap = .ok (b₁, 0) →
          b₁.data = r.1.data ∧ ∀ src : List Byte, src.length = cap →
            ∃ b₂, b₁.appendPtr src = .ok (b₂, 0) ∧ b₂.data = r.1.data ++ src)
      (runCalls Op.call (step alloc) b ops) := by
  have hruns : Ends (· = .allocationFailed)
      (fun r => alloc r.1.size = true ∧ Runs b.queue r.2 r.1.queue)
      (runCalls Op.call (step alloc) b ops) :=
    runCalls_allows Op.call (step alloc)
      (fun b op hop hgood => b.step_allows halloc op (hops op hop) hgood) hb
  refine hruns.mono ?_
  rintro ⟨b', log⟩ - ⟨hgood, hlog⟩
  refine ⟨hlog, b'.start_le, b'.stop_le, fun cap b₁ hcap hexpand => ?_⟩
  refine ⟨?_, fun src hsrc => (append_after_expand halloc hgood hcap hexpand hsrc).2⟩
  have hzeros : (List.replicate cap (0 : Byte)).length = cap := List.length_replicate
  exact (append_after_expand halloc hgood hcap hexpand hzeros).1

/-- A heap that gives out every block below `2 ^ 63` bytes. -/
def heap (n : Nat) : Bool := decide (n < 2 ^ 63)

theorem buffer_refines_queue_grown :
    Ends (· = .allocationFailed)
      (fun r => Runs (init 1 200).queue r.2 r.1.queue)
      (runCalls Op.call (step heap) (init 1 200)
        [.appendPtr [1, 2, 3], .eat 1, .expandCapacity 100, .ignore 1, .tryAdjust]) := by
  have halloc : ∀ n, heap n = true → n < 2 ^ 63 := fun n hn => of_decide_eq_true hn
  refine (buffer_refines_queue halloc (init 1 200) (by decide) _ ?_).mono fun r _ hr => hr.1
  intro op hop
  simp only [List.mem_cons, List.not_mem_nil, or_false] at hop
  rcases hop with rfl | rfl | rfl | rfl | rfl
  all_goals simp [Op.Small]

end Buffer

end RtcMcu.Util
