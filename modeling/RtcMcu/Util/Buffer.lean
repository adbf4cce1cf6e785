import RtcMcu.Base

/-!
# Buffer

`util/buffer.cpp`: a byte queue in one block of memory. The bytes from `_start` to `_end` are queued;
they are moved to the front of the block when room is needed behind them, and the block grows up to
`_max`. It is assumed that `realloc` does not fail.
-/

namespace RtcMcu.Util

/-- `Buffer`. `_size` is the length of the block. -/
structure Buffer where
  ptr : List Byte
  start : Nat
  stop : Nat
  max : Nat
  start_le : start ≤ stop
  stop_le : stop ≤ ptr.length

namespace Buffer

def size (b : Buffer) : Nat := b.ptr.length

/-- `buffer_data_len`. -/
def dataLen (b : Buffer) : Nat := b.stop - b.start

/-- `buffer_capacity`. -/
def capacity (b : Buffer) : Nat := b.size - b.stop

/-- The bytes that are queued. -/
def data (b : Buffer) : List Byte := (b.ptr.take b.stop).drop b.start

theorem length_data (b : Buffer) : b.data.length = b.dataLen := by
  have := b.stop_le
  simp only [data, dataLen, List.length_drop, List.length_take]
  omega

/-- `buffer_init`: the size is rounded up to whole pieces of 64 bytes. -/
def init (size max : Nat) : Buffer where
  ptr := List.replicate (size + (63 - (size + 63) % 64)) 0
  start := 0
  stop := 0
  max := max
  start_le := Nat.le_refl 0
  stop_le := Nat.zero_le _

/-- `buffer_reset`. -/
def reset (b : Buffer) : Buffer where
  ptr := b.ptr
  start := 0
  stop := 0
  max := b.max
  start_le := Nat.le_refl 0
  stop_le := Nat.zero_le _

/-- `buffer_adjust`: the queued bytes move to the front of the block. -/
def adjust (b : Buffer) : Buffer where
  ptr := b.data ++ b.ptr.drop b.dataLen
  start := 0
  stop := b.dataLen
  max := b.max
  start_le := Nat.zero_le _
  stop_le := by
    rw [List.length_append, b.length_data]
    exact Nat.le_add_right _ _

/-- Bytes are written behind the queued ones. -/
def put (b : Buffer) (src : List Byte) (_room : b.stop + src.length ≤ b.size) : Buffer where
  ptr := b.ptr.take b.stop ++ src ++ b.ptr.drop (b.stop + src.length)
  start := b.start
  stop := b.stop + src.length
  max := b.max
  start_le := Nat.le_trans b.start_le (Nat.le_add_right _ _)
  stop_le := by
    have := b.stop_le
    simp only [List.length_append, List.length_take, List.length_drop]
    omega

/-- `realloc` to a larger block. -/
def realloc (b : Buffer) (size : Nat) : Buffer where
  ptr := b.ptr ++ List.replicate (size - b.size) 0
  start := b.start
  stop := b.stop
  max := b.max
  start_le := b.start_le
  stop_le := by
    rw [List.length_append]
    exact Nat.le_trans b.stop_le (Nat.le_add_right _ _)

/-- `buffer_expand_capacity`, or `none` for `BUFFER_CAPACITY_ERROR`. -/
def expandCapacity (b : Buffer) (cap : Nat) : Option Buffer :=
  if cap ≤ b.capacity then some b
  else if b.max ≤ b.dataLen + cap then none
  else if b.dataLen + cap ≤ b.size then some b.adjust
  else some (b.realloc (b.dataLen + cap)).adjust

/-- `buffer_ignore`: bytes are taken from the front of the queue. -/
def ignore (b : Buffer) (bytes : Nat) : Buffer :=
  if bytes = 0 then b
  else if h : b.dataLen ≤ bytes then
    { ptr := b.ptr, start := 0, stop := 0, max := b.max,
      start_le := Nat.le_refl 0, stop_le := Nat.zero_le _ }
  else
    { ptr := b.data.drop bytes ++ b.ptr.drop (b.dataLen - bytes)
      start := 0
      stop := b.dataLen - bytes
      max := b.max
      start_le := Nat.zero_le _
      stop_le := by
        rw [List.length_append, List.length_drop, b.length_data]
        exact Nat.le_add_right _ _ }

/-- How many bytes `buffer_read_fd_max` asks for when `waiting` bytes can be read, before it looks
for room. -/
def toRead (b : Buffer) (limit waiting : Nat) : Nat :=
  Nat.min (Nat.min (if waiting = 0 then 1 else waiting) limit) (b.max - b.dataLen)

/-- The room `buffer_read_fd_max` makes. -/
def makeRoom (b : Buffer) (toread : Nat) : Option Buffer :=
  if toread < b.capacity then some b
  else if toread < b.adjust.capacity then some b.adjust
  else b.adjust.expandCapacity toread

theorem room_of_capacity (b : Buffer) (bytes : List Byte) (toread : Nat) :
    b.stop + (bytes.take (Nat.min toread b.capacity)).length ≤ b.size := by
  have hstop : b.stop ≤ b.size := b.stop_le
  have htake : (bytes.take (Nat.min toread b.capacity)).length ≤ b.capacity :=
    Nat.le_trans (List.length_take_le _ _) (Nat.min_le_right _ _)
  unfold capacity at htake ⊢
  omega

/-- `buffer_read_fd_max`, when `FIONREAD` says `waiting` and `read` has the bytes `incoming` to give:
the bytes that were read with it, or `none` where the source returns 0 or less. -/
def readFdMax (b : Buffer) (limit waiting : Nat) (incoming : List Byte) :
    Option (Buffer × List Byte) :=
  match b.makeRoom (b.toRead limit waiting) with
  | none => none
  | some b' =>
    let toread := b.toRead limit waiting
    let r := incoming.take (Nat.min toread b'.capacity)
    if r = [] then none else some (b'.put r (b'.room_of_capacity incoming toread), r)

/-! ## What is queued -/

theorem data_adjust (b : Buffer) : b.adjust.data = b.data := by
  simp only [data, adjust, List.drop_zero]
  exact List.take_left' (b.length_data)

theorem data_put (b : Buffer) (src : List Byte) (h : b.stop + src.length ≤ b.size) :
    (b.put src h).data = b.data ++ src := by
  have hstart := b.start_le
  have hstop := b.stop_le
  have htake : (b.ptr.take b.stop ++ src).length = b.stop + src.length := by
    rw [List.length_append, List.length_take, Nat.min_eq_left hstop]
  simp only [data, put]
  rw [List.take_left' htake, List.drop_append_of_le_length]
  rw [List.length_take, Nat.min_eq_left hstop]
  exact hstart

theorem data_realloc (b : Buffer) (size : Nat) : (b.realloc size).data = b.data := by
  simp only [data, realloc]
  rw [List.take_append_of_le_length b.stop_le]

theorem data_expandCapacity {b b' : Buffer} {cap : Nat} (h : b.expandCapacity cap = some b') :
    b'.data = b.data := by
  unfold expandCapacity at h
  split at h
  · cases h
    rfl
  · split at h
    · cases h
    · split at h
      · cases h
        exact b.data_adjust
      · cases h
        rw [data_adjust, data_realloc]

theorem data_makeRoom {b b' : Buffer} {toread : Nat} (h : b.makeRoom toread = some b') :
    b'.data = b.data := by
  unfold makeRoom at h
  split at h
  · cases h
    rfl
  · split at h
    · cases h
      exact b.data_adjust
    · rw [data_expandCapacity h, data_adjust]

/-- What is read is queued behind what was there. -/
theorem data_readFdMax {b b' : Buffer} {limit waiting : Nat} {incoming r : List Byte}
    (h : b.readFdMax limit waiting incoming = some (b', r)) : b'.data = b.data ++ r := by
  unfold readFdMax at h
  cases hroom : b.makeRoom (b.toRead limit waiting) with
  | none =>
    rw [hroom] at h
    cases h
  | some b₁ =>
    rw [hroom] at h
    dsimp only at h
    split at h
    · cases h
    · cases h
      rw [data_put, data_makeRoom hroom]

theorem data_ignore (b : Buffer) (bytes : Nat) : (b.ignore bytes).data = b.data.drop bytes := by
  unfold ignore
  split
  · rename_i h
    rw [h, List.drop_zero]
  · split
    · rename_i h
      rw [List.drop_eq_nil_of_le (by rw [b.length_data]; exact h)]
      rfl
    · simp only [data, List.drop_zero]
      apply List.take_left'
      rw [List.length_drop]
      exact congrArg (· - bytes) b.length_data

end Buffer

end RtcMcu.Util
