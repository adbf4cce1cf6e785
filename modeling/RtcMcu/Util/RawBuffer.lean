import RtcMcu.Lib.Along
import RtcMcu.Util.BufferQueue

/-!
# The fields of a buffer

`util/buffer.cpp` keeps `_size` beside the block it stands for, and checks its accesses against
`_size`. A `Buffer` has a size that is the length of its block. Here `_size` is a field of its own,
every access is checked against the block itself, and `realloc` and `calloc` may fail. As long as no
growth fails on a size that is not a whole number of pieces and nothing is copied to a buffer that is
in use, the fields are those of a `Buffer` (`run_sound`); these are also exactly the calls that keep
what they should (`preserves_iff`).

The calls on sockets are made of those here: what is read is appended to the room there is, what is
written is eaten. That a buffer is copied or appended to itself is left out.
-/

namespace RtcMcu.Util

open RtcMcu.Coupling

def BUFFER_MALLOC_ERROR : Int := -2

/-- A difference of two `size_t`. -/
def subSize (a b : Nat) : Nat := (a + 2 ^ 64 - b) % 2 ^ 64

theorem subSize_of_le {a b : Nat} (h : b ≤ a) (ha : a < 2 ^ 64) : subSize a b = a - b := by
  rw [subSize]
  omega

/-- A size is rounded up to whole pieces of 64 bytes. -/
def roundUp (size : Nat) : Nat := addSize size (63 - addSize size 63 % 64)

theorem roundUp_eq_iff {size : Nat} (h : size < 2 ^ 63) : roundUp size = size ↔ size % 64 = 0 := by
  rw [roundUp, addSize, addSize]
  omega

/-- Whether there is a block of this size. Of `PTRDIFF_MAX` and more bytes there never is one. -/
def allocated (size : Nat) (granted : Bool) : Bool := granted && decide (size < 2 ^ 63)

/-- Bytes that lie somewhere in memory. -/
structure Memory where
  bytes : List Byte
  lt : bytes.length < 2 ^ 63

/-- `buffer`. The block is `ptr`. -/
structure RawBuffer where
  ptr : List Byte
  start : Nat
  stop : Nat
  size : Nat
  max : Nat

namespace RawBuffer

/-- `buffer_data_len`. -/
def dataLen (b : RawBuffer) : Nat := subSize b.stop b.start

/-- `buffer_capacity`. -/
def capacity (b : RawBuffer) : Nat := subSize b.size b.stop

/-- Bytes of the block are read. -/
def read (b : RawBuffer) (pos len : Nat) : Except Fault (List Byte) :=
  if pos + len ≤ b.ptr.length then .ok ((b.ptr.drop pos).take len) else .error .outOfBounds

/-- Bytes of the block are written. -/
def write (b : RawBuffer) (pos : Nat) (bytes : List Byte) : Except Fault RawBuffer :=
  if pos + bytes.length ≤ b.ptr.length then
    .ok { b with ptr := b.ptr.take pos ++ bytes ++ b.ptr.drop (pos + bytes.length) }
  else .error .outOfBounds

/-- `buffer_init`, or nothing for a null pointer. -/
def init (size : Nat) (granted : Bool) : Option RawBuffer :=
  if allocated (roundUp size) granted then
    some
      { ptr := List.replicate (roundUp size) 0
        start := 0
        stop := 0
        size := roundUp size
        max := roundUp size }
  else none

/-- `buffer_create_max`. -/
def createMax (size max : Nat) (granted : Bool) : Except Fault (Option RawBuffer) :=
  if max < size then .ok none
  else
    match init size granted with
    | none => .ok none
    | some b => if b.size ≤ max then .ok (some { b with max := max }) else .error .assertFailed

/-- `buffer_reset`. -/
def reset (b : RawBuffer) : RawBuffer := { b with start := 0, stop := 0 }

/-- `buffer_adjust`. -/
def adjust (b : RawBuffer) : Except Fault RawBuffer := do
  let bytes ← b.read b.start b.dataLen
  let moved ← b.write 0 bytes
  .ok { moved with start := 0, stop := b.dataLen }

/-- `buffer_try_adjust`. -/
def tryAdjust (b : RawBuffer) : Except Fault RawBuffer :=
  if b.start = b.stop then .ok b.reset
  else if 128 * 1024 ≤ b.size ∨ b.size / 2 ≤ b.start then b.adjust
  else .ok b

/-- Bytes are written at `_end`, which moves behind them. -/
def fill (b : RawBuffer) (src : List Byte) : Except Fault (RawBuffer × Int) := do
  let written ← b.write b.stop src
  .ok ({ written with stop := addSize b.stop src.length }, 0)

/-- `buffer_append_ptr`. -/
def appendPtr (b : RawBuffer) (src : List Byte) : Except Fault (RawBuffer × Int) :=
  if b.size < addSize b.dataLen src.length then .ok (b, BUFFER_OVER_SIZE)
  else do
    let b ← if b.capacity < src.length then b.adjust else .ok b
    b.fill src

/-- `buffer_append`. -/
def append (dst src : RawBuffer) : Except Fault (RawBuffer × Int) := do
  let bytes ← src.read src.start src.dataLen
  dst.appendPtr bytes

/-- `buffer_copy`. -/
def copy (dst src : RawBuffer) : Except Fault (RawBuffer × Int) :=
  if src.dataLen = 0 then .ok (dst, 0)
  else if dst.size < src.dataLen then .ok (dst, BUFFER_OVER_SIZE)
  else do
    let bytes ← src.read src.start src.dataLen
    let written ← dst.write 0 bytes
    .ok ({ written with stop := src.dataLen }, 0)

/-- `buffer_eat`. -/
def eat (b : RawBuffer) (bytes : Nat) : RawBuffer × Nat :=
  let len := if bytes < b.dataLen then bytes else b.dataLen
  ({ b with start := addSize b.start len }, len)

/-- `buffer_ignore`. -/
def ignore (b : RawBuffer) (bytes : Nat) : Except Fault (RawBuffer × Nat) :=
  if bytes = 0 then .ok (b, bytes)
  else if b.dataLen ≤ bytes then .ok (b.reset, b.dataLen)
  else do
    let rest ← b.read (addSize b.start bytes) (subSize b.dataLen bytes)
    let moved ← b.write 0 rest
    .ok ({ moved with start := 0, stop := subSize b.stop (addSize b.start bytes) }, bytes)

/-- `buffer_expand`. Before `realloc` the size is rounded up. -/
def expand (b : RawBuffer) (size : Nat) (granted : Bool) : RawBuffer × Int :=
  if b.max ≤ size then (b, BUFFER_CAPACITY_ERROR)
  else if b.size < size then
    if allocated size granted then
      ({ b with
          ptr := (b.ptr ++ List.replicate (size - b.ptr.length) 0).take size
          size := size }, 0)
    else ({ b with size := roundUp b.size }, BUFFER_MALLOC_ERROR)
  else (b, 0)

/-- `buffer_expand_capacity`. -/
def expandCapacity (b : RawBuffer) (cap : Nat) (granted : Bool) :
    Except Fault (RawBuffer × Int) :=
  if cap ≤ b.capacity then .ok (b, 0)
  else if b.max ≤ addSize b.dataLen cap then .ok (b, BUFFER_CAPACITY_ERROR)
  else if addSize b.dataLen cap ≤ b.size then do
    let b ← b.adjust
    .ok (b, 0)
  else
    let r := b.expand (addSize b.dataLen cap) granted
    if r.2 ≠ 0 then .ok (r.1, r.2)
    else do
      let b ← r.1.adjust
      .ok (b, 0)

/-- The calls on one buffer. `granted` says whether `realloc` finds a block. -/
inductive Op
  | appendPtr (src : Memory)
  | eat (bytes : BitVec 64)
  | ignore (bytes : BitVec 64)
  | adjust
  | tryAdjust
  | reset
  | expand (size : BitVec 64) (granted : Bool)
  | expandCapacity (cap : BitVec 64) (granted : Bool)

/-- A call on one buffer, with what it returns. -/
def step (b : RawBuffer) : Op → Except Fault (RawBuffer × Int)
  | .appendPtr src => b.appendPtr src.bytes
  | .eat bytes => .ok ((b.eat bytes.toNat).1, (b.eat bytes.toNat).2)
  | .ignore bytes => do
    let (b, n) ← b.ignore bytes.toNat
    .ok (b, n)
  | .adjust => do
    let b ← b.adjust
    .ok (b, 0)
  | .tryAdjust => do
    let b ← b.tryAdjust
    .ok (b, 0)
  | .reset => .ok (b.reset, 0)
  | .expand size granted => .ok (b.expand size.toNat granted)
  | .expandCapacity cap granted => b.expandCapacity cap.toNat granted

/-- What can be read: the bytes from `_start` to `_end`, if they are in this order in the block. -/
def readable (b : RawBuffer) : Option (List Byte) :=
  if b.start ≤ b.stop ∧ b.stop ≤ b.ptr.length then some ((b.ptr.take b.stop).drop b.start) else none

theorem read_of_le {b : RawBuffer} {pos len : Nat} (h : pos + len ≤ b.ptr.length) :
    b.read pos len = .ok ((b.ptr.drop pos).take len) := if_pos h

theorem write_of_le {b : RawBuffer} {pos : Nat} {bytes : List Byte}
    (h : pos + bytes.length ≤ b.ptr.length) :
    b.write pos bytes =
      .ok { b with ptr := b.ptr.take pos ++ bytes ++ b.ptr.drop (pos + bytes.length) } := if_pos h

/-! ## The fields of a `Buffer` -/

/-- The fields of a `Buffer`. -/
def ofBuffer (b : Buffer) : RawBuffer where
  ptr := b.ptr
  start := b.start
  stop := b.stop
  size := b.size
  max := b.max

section OfBuffer

variable {b : Buffer} (hsize : b.size < 2 ^ 63)
include hsize

theorem dataLen_ofBuffer : (ofBuffer b).dataLen = b.dataLen := by
  have hstop : b.stop ≤ b.size := b.stop_le
  exact subSize_of_le b.start_le (show b.stop < 2 ^ 64 by omega)

theorem capacity_ofBuffer : (ofBuffer b).capacity = b.capacity :=
  subSize_of_le b.stop_le (show b.size < 2 ^ 64 by omega)

/-- The queued bytes are read. -/
theorem read_ofBuffer : (ofBuffer b).read b.start (ofBuffer b).dataLen = .ok b.data := by
  have hstart := b.start_le
  have hstop := b.stop_le
  have hlen : b.dataLen = b.stop - b.start := rfl
  have hin : b.start + b.dataLen ≤ (ofBuffer b).ptr.length :=
    show b.start + b.dataLen ≤ b.ptr.length by omega
  rw [dataLen_ofBuffer hsize, read_of_le hin, Buffer.data, List.drop_take]
  rfl

omit hsize in
theorem readable_ofBuffer : (ofBuffer b).readable = some b.data :=
  if_pos ⟨b.start_le, b.stop_le⟩

theorem adjust_ofBuffer : (ofBuffer b).adjust = .ok (ofBuffer b.adjust) := by
  have hle : 0 + b.data.length ≤ (ofBuffer b).ptr.length := by
    rw [b.length_data, Nat.zero_add]
    exact b.dataLen_le_size
  have hread : (ofBuffer b).read (ofBuffer b).start (ofBuffer b).dataLen = .ok b.data :=
    read_ofBuffer hsize
  rw [adjust, hread, ok_bind, write_of_le hle, ok_bind, dataLen_ofBuffer hsize]
  have hptr : b.ptr.take 0 ++ b.data ++ b.ptr.drop (0 + b.data.length) =
      b.data ++ b.ptr.drop b.dataLen := by
    rw [List.take_zero, List.nil_append, Nat.zero_add, b.length_data]
  have hsame : b.adjust.size = b.size := b.size_adjust
  show Except.ok (RawBuffer.mk (b.ptr.take 0 ++ b.data ++ b.ptr.drop (0 + b.data.length)) 0
    b.dataLen b.size b.max) = _
  rw [hptr, ← hsame]
  rfl

theorem tryAdjust_ofBuffer : (ofBuffer b).tryAdjust = .ok (ofBuffer b.tryAdjust) := by
  rw [tryAdjust, Buffer.tryAdjust]
  by_cases hempty : b.start = b.stop
  · have hempty' : (ofBuffer b).start = (ofBuffer b).stop := hempty
    rw [if_pos hempty, if_pos hempty']
    rfl
  · have hempty' : ¬ (ofBuffer b).start = (ofBuffer b).stop := hempty
    rw [if_neg hempty, if_neg hempty']
    by_cases hmove : 128 * 1024 ≤ b.size ∨ b.size / 2 ≤ b.start
    · have hmove' : 128 * 1024 ≤ (ofBuffer b).size ∨ (ofBuffer b).size / 2 ≤ (ofBuffer b).start :=
        hmove
      rw [if_pos hmove, if_pos hmove', adjust_ofBuffer hsize]
    · have hmove' : ¬ (128 * 1024 ≤ (ofBuffer b).size ∨
          (ofBuffer b).size / 2 ≤ (ofBuffer b).start) := hmove
      rw [if_neg hmove, if_neg hmove']

/-- Bytes for which there is room behind the queued ones. -/
theorem fill_ofBuffer {src : List Byte} (room : b.stop + src.length ≤ b.size) :
    (ofBuffer b).fill src = .ok (ofBuffer (b.put src room), 0) := by
  have hsum : addSize (ofBuffer b).stop src.length = b.stop + src.length :=
    addSize_of_lt (show b.stop + src.length < 2 ^ 64 by omega)
  have hsame := b.size_put src room
  have hin : (ofBuffer b).stop + src.length ≤ (ofBuffer b).ptr.length := room
  rw [fill, write_of_le hin, ok_bind, hsum]
  show Except.ok (RawBuffer.mk (b.ptr.take b.stop ++ src ++ b.ptr.drop (b.stop + src.length))
    b.start (b.stop + src.length) b.size b.max, (0 : Int)) = _
  rw [← hsame]
  rfl

theorem appendPtr_ofBuffer {src : List Byte} (hsrc : src.length < 2 ^ 63) :
    ∃ b' ret, (ofBuffer b).appendPtr src = .ok (ofBuffer b', ret) ∧ b'.size = b.size := by
  have hlen := b.dataLen_le_size
  have hstop : b.stop ≤ b.size := b.stop_le
  have hsum : addSize (ofBuffer b).dataLen src.length = b.dataLen + src.length := by
    rw [dataLen_ofBuffer hsize]
    exact addSize_of_lt (by omega)
  rw [appendPtr, hsum]
  by_cases hfull : b.size < b.dataLen + src.length
  · have hfull' : (ofBuffer b).size < b.dataLen + src.length := hfull
    rw [if_pos hfull']
    exact ⟨b, _, rfl, rfl⟩
  · have hfull' : ¬ (ofBuffer b).size < b.dataLen + src.length := hfull
    rw [if_neg hfull', capacity_ofBuffer hsize]
    by_cases hcap : b.capacity < src.length
    · have hsize' : b.adjust.size < 2 ^ 63 := by rwa [b.size_adjust]
      have room : b.adjust.stop + src.length ≤ b.adjust.size := by
        rw [b.size_adjust]
        exact Nat.le_of_not_lt hfull
      rw [if_pos hcap, adjust_ofBuffer hsize, ok_bind]
      dsimp only
      rw [fill_ofBuffer hsize' room]
      exact ⟨_, _, rfl, by rw [Buffer.size_put, b.size_adjust]⟩
    · have room : b.stop + src.length ≤ b.size := by
        unfold Buffer.capacity at hcap
        omega
      rw [if_neg hcap, ok_bind]
      dsimp only
      rw [fill_ofBuffer hsize room]
      exact ⟨_, _, rfl, b.size_put src room⟩

theorem eat_ofBuffer (bytes : Nat) :
    (ofBuffer b).eat bytes = (ofBuffer (b.eat bytes).1, (b.eat bytes).2) := by
  have hstart := b.start_le
  have hstop : b.stop ≤ b.size := b.stop_le
  have hlen : (if bytes < b.dataLen then bytes else b.dataLen) = min bytes b.dataLen := by
    rw [Nat.min_def]
    split <;> split <;> omega
  have hle : min bytes b.dataLen ≤ b.stop - b.start := Nat.min_le_right _ _
  have hsum : addSize b.start (min bytes b.dataLen) = b.start + min bytes b.dataLen :=
    addSize_of_lt (by omega)
  rw [eat, dataLen_ofBuffer hsize, hlen]
  show (RawBuffer.mk b.ptr (addSize b.start (min bytes b.dataLen)) b.stop b.size b.max, _) = _
  rw [hsum]
  rfl

theorem ignore_ofBuffer (bytes : Nat) :
    (ofBuffer b).ignore bytes = .ok (ofBuffer (b.ignore bytes), b.ignoreResult bytes) := by
  rw [ignore, dataLen_ofBuffer hsize, Buffer.ignoreResult]
  have hsame := b.size_ignore bytes
  unfold Buffer.ignore at hsame ⊢
  by_cases hzero : bytes = 0
  · rw [if_pos hzero, if_pos hzero, if_pos hzero]
  · rw [if_neg hzero] at hsame ⊢
    rw [if_neg hzero, if_neg hzero]
    by_cases hall : b.dataLen ≤ bytes
    · rw [if_pos hall, if_pos hall, dif_pos hall]
      rfl
    · rw [dif_neg hall] at hsame
      rw [if_neg hall, if_neg hall, dif_neg hall]
      have hstart := b.start_le
      have hstop : b.stop ≤ b.size := b.stop_le
      have hlen : b.dataLen = b.stop - b.start := rfl
      have hsum : addSize (ofBuffer b).start bytes = b.start + bytes :=
        addSize_of_lt (show b.start + bytes < 2 ^ 64 by omega)
      have hrest : subSize b.dataLen bytes = b.dataLen - bytes :=
        subSize_of_le (by omega) (by omega)
      have hend : subSize (ofBuffer b).stop (b.start + bytes) = b.stop - (b.start + bytes) :=
        subSize_of_le (show b.start + bytes ≤ b.stop by omega) (show b.stop < 2 ^ 64 by omega)
      have hin : b.start + bytes + (b.dataLen - bytes) ≤ (ofBuffer b).ptr.length :=
        show _ ≤ b.size by omega
      have hbytes : ((ofBuffer b).ptr.drop (b.start + bytes)).take (b.dataLen - bytes) =
          b.data.drop bytes := by
        rw [Buffer.data, List.drop_drop, List.drop_take, hlen, Nat.sub_sub]
        rfl
      have hlength : (b.data.drop bytes).length = b.dataLen - bytes := by
        rw [List.length_drop, b.length_data]
      have hout : 0 + (b.data.drop bytes).length ≤ (ofBuffer b).ptr.length := by
        rw [hlength]
        exact show _ ≤ b.size by omega
      rw [hsum, hrest, read_of_le hin, ok_bind, hbytes, write_of_le hout, ok_bind, hend,
        Nat.zero_add, hlength]
      have hmoved : b.stop - (b.start + bytes) = b.dataLen - bytes := by omega
      rw [hmoved]
      show Except.ok (RawBuffer.mk (b.ptr.take 0 ++ b.data.drop bytes ++
        b.ptr.drop (b.dataLen - bytes)) 0 (b.dataLen - bytes) b.size b.max, bytes) = _
      rw [List.take_zero, List.nil_append, ← hsame]
      rfl

theorem append_ofBuffer {src : Buffer} (hsrc : src.size < 2 ^ 63) :
    ∃ b' ret, (ofBuffer b).append (ofBuffer src) = .ok (ofBuffer b', ret) ∧ b'.size = b.size := by
  have hread : (ofBuffer src).read (ofBuffer src).start (ofBuffer src).dataLen = .ok src.data :=
    read_ofBuffer hsrc
  have hlen : src.data.length < 2 ^ 63 := by
    rw [src.length_data]
    exact Nat.lt_of_le_of_lt src.dataLen_le_size hsrc
  rw [append, hread, ok_bind]
  exact appendPtr_ofBuffer hsize hlen

end OfBuffer

/-! ## Growth -/

/-- The size for which a call asks `realloc`, if it does. -/
def asks (b : RawBuffer) : Op → Option (Nat × Bool)
  | .expand size granted =>
    if size.toNat < b.max ∧ b.size < size.toNat then some (size.toNat, granted) else none
  | .expandCapacity cap granted =>
    if b.capacity < cap.toNat ∧ addSize b.dataLen cap.toNat < b.max ∧
        b.size < addSize b.dataLen cap.toNat then
      some (addSize b.dataLen cap.toNat, granted)
    else none
  | _ => none

/-- `realloc` is asked and has no block. -/
def Fails (b : RawBuffer) (op : Op) : Prop :=
  ∃ n granted, b.asks op = some (n, granted) ∧ allocated n granted = false

/-- The calls that are to make a buffer grow. -/
def Op.Grows : Op → Prop
  | .expand _ _ | .expandCapacity _ _ => True
  | _ => False

/-- A growth that fails for want of memory has rounded the size up. -/
theorem step_fails {b : RawBuffer} {op : Op} (h : b.Fails op) :
    op.Grows ∧ b.step op = .ok ({ b with size := roundUp b.size }, BUFFER_MALLOC_ERROR) := by
  obtain ⟨n, granted, hasks, hnone⟩ := h
  have hexpand : n < b.max → b.size < n →
      b.expand n granted = ({ b with size := roundUp b.size }, BUFFER_MALLOC_ERROR) := by
    intro hmax hmore
    rw [expand, if_neg (Nat.not_le.mpr hmax), if_pos hmore, hnone, if_neg Bool.false_ne_true]
  cases op with
  | expand size granted' =>
    rw [asks] at hasks
    split at hasks
    · next hgrow =>
      cases hasks
      exact ⟨trivial, congrArg _ (hexpand hgrow.1 hgrow.2)⟩
    · cases hasks
  | expandCapacity cap granted' =>
    rw [asks] at hasks
    split at hasks
    · next hgrow =>
      cases hasks
      obtain ⟨hcap, hmax, hmore⟩ := hgrow
      refine ⟨trivial, ?_⟩
      rw [step, expandCapacity, if_neg (Nat.not_le.mpr hcap), if_neg (Nat.not_le.mpr hmax),
        if_neg (Nat.not_le.mpr hmore), hexpand hmax hmore]
      rfl
    · cases hasks
  | appendPtr src => cases hasks
  | eat bytes => cases hasks
  | ignore bytes => cases hasks
  | adjust => cases hasks
  | tryAdjust => cases hasks
  | reset => cases hasks

section Growth

variable {b : Buffer} (hsize : b.size < 2 ^ 63)
include hsize

omit hsize in
/-- A larger block. -/
theorem expand_granted {size : Nat} {granted : Bool} (hmax : size < b.max) (hmore : b.size < size)
    (hgranted : allocated size granted = true) :
    (ofBuffer b).expand size granted = (ofBuffer (b.realloc size), 0) := by
  have hmax' : ¬ (ofBuffer b).max ≤ size := Nat.not_le.mpr hmax
  have hmore' : (ofBuffer b).size < size := hmore
  have hlength : (b.ptr ++ List.replicate (size - b.size) 0).length = size := by
    rw [List.length_append, List.length_replicate]
    exact Nat.add_sub_of_le (Nat.le_of_lt hmore)
  have hgrown : (b.realloc size).size = size := b.size_realloc (Nat.le_of_lt hmore)
  rw [expand, if_neg hmax', if_pos hmore', if_pos hgranted]
  show (RawBuffer.mk ((b.ptr ++ List.replicate (size - b.size) 0).take size) b.start b.stop size
    b.max, (0 : Int)) = _
  rw [List.take_of_length_le (Nat.le_of_eq hlength)]
  refine congrArg (·, (0 : Int)) ?_
  rw [ofBuffer, hgrown]
  rfl

theorem expand_kept {size : BitVec 64} {granted : Bool}
    (h : ¬ (ofBuffer b).Fails (.expand size granted)) :
    ∃ b' ret, (ofBuffer b).expand size.toNat granted = (ofBuffer b', ret) ∧ b'.size < 2 ^ 63 ∧
      (ret ≠ 0 → b' = b) := by
  by_cases hmax : b.max ≤ size.toNat
  · have hmax' : (ofBuffer b).max ≤ size.toNat := hmax
    rw [expand, if_pos hmax']
    exact ⟨b, _, rfl, hsize, fun _ => rfl⟩
  · by_cases hmore : b.size < size.toNat
    · have hasks : (ofBuffer b).asks (.expand size granted) = some (size.toNat, granted) :=
        if_pos ⟨Nat.not_le.mp hmax, hmore⟩
      cases hgranted : allocated size.toNat granted with
      | false => exact absurd ⟨_, _, hasks, hgranted⟩ h
      | true =>
        have hfits := of_decide_eq_true (Bool.and_eq_true_iff.mp hgranted).2
        refine ⟨_, 0, expand_granted (Nat.not_le.mp hmax) hmore hgranted, ?_,
          fun hne => absurd rfl hne⟩
        rw [b.size_realloc (Nat.le_of_lt hmore)]
        exact hfits
    · have hmax' : ¬ (ofBuffer b).max ≤ size.toNat := hmax
      have hmore' : ¬ (ofBuffer b).size < size.toNat := hmore
      rw [expand, if_neg hmax', if_neg hmore']
      exact ⟨b, 0, rfl, hsize, fun _ => rfl⟩

theorem expandCapacity_kept {cap : BitVec 64} {granted : Bool}
    (h : ¬ (ofBuffer b).Fails (.expandCapacity cap granted)) :
    ∃ b' ret, (ofBuffer b).expandCapacity cap.toNat granted = .ok (ofBuffer b', ret) ∧
      b'.size < 2 ^ 63 ∧ (ret ≠ 0 → b' = b) := by
  rw [expandCapacity]
  by_cases henough : cap.toNat ≤ (ofBuffer b).capacity
  · rw [if_pos henough]
    exact ⟨b, 0, rfl, hsize, fun _ => rfl⟩
  · rw [if_neg henough]
    by_cases hmax : (ofBuffer b).max ≤ addSize (ofBuffer b).dataLen cap.toNat
    · rw [if_pos hmax]
      exact ⟨b, _, rfl, hsize, fun _ => rfl⟩
    · rw [if_neg hmax]
      by_cases hfits : addSize (ofBuffer b).dataLen cap.toNat ≤ (ofBuffer b).size
      · rw [if_pos hfits, adjust_ofBuffer hsize, ok_bind]
        refine ⟨b.adjust, 0, rfl, ?_, fun hne => absurd rfl hne⟩
        rwa [b.size_adjust]
      · rw [if_neg hfits]
        have hasks : (ofBuffer b).asks (.expandCapacity cap granted) =
            some (addSize (ofBuffer b).dataLen cap.toNat, granted) :=
          if_pos ⟨Nat.not_le.mp henough, Nat.not_le.mp hmax, Nat.not_le.mp hfits⟩
        cases hgranted : allocated (addSize (ofBuffer b).dataLen cap.toNat) granted with
        | false => exact absurd ⟨_, _, hasks, hgranted⟩ h
        | true =>
          have hbelow := of_decide_eq_true (Bool.and_eq_true_iff.mp hgranted).2
          have hgrown : (b.realloc (addSize (ofBuffer b).dataLen cap.toNat)).size =
              addSize (ofBuffer b).dataLen cap.toNat :=
            b.size_realloc (Nat.le_of_lt (Nat.not_le.mp hfits))
          rw [expand_granted (Nat.not_le.mp hmax) (Nat.not_le.mp hfits) hgranted]
          dsimp only
          rw [if_neg (by decide), adjust_ofBuffer (by rwa [hgrown]), ok_bind]
          refine ⟨_, 0, rfl, ?_, fun hne => absurd rfl hne⟩
          rw [Buffer.size_adjust, hgrown]
          exact hbelow

/-- A call that does not fail for want of memory is a call on a `Buffer`. -/
theorem step_ofBuffer {op : Op} (h : ¬ (ofBuffer b).Fails op) :
    ∃ b' ret, (ofBuffer b).step op = .ok (ofBuffer b', ret) ∧ b'.size < 2 ^ 63 ∧
      (op.Grows → ret ≠ 0 → b' = b) := by
  cases op with
  | appendPtr src =>
    obtain ⟨b', ret, heq, hsame⟩ := appendPtr_ofBuffer hsize src.lt
    exact ⟨b', ret, heq, by rwa [hsame], fun hgrows => hgrows.elim⟩
  | eat bytes =>
    refine ⟨(b.eat bytes.toNat).1, (b.eat bytes.toNat).2, ?_, hsize, fun hgrows => hgrows.elim⟩
    rw [step, eat_ofBuffer hsize]
  | ignore bytes =>
    refine ⟨b.ignore bytes.toNat, b.ignoreResult bytes.toNat, ?_, ?_, fun hgrows => hgrows.elim⟩
    · rw [step, ignore_ofBuffer hsize]
      rfl
    · rwa [b.size_ignore]
  | adjust =>
    refine ⟨b.adjust, 0, ?_, ?_, fun hgrows => hgrows.elim⟩
    · rw [step, adjust_ofBuffer hsize]
      rfl
    · rwa [b.size_adjust]
  | tryAdjust =>
    refine ⟨b.tryAdjust, 0, ?_, ?_, fun hgrows => hgrows.elim⟩
    · rw [step, tryAdjust_ofBuffer hsize]
      rfl
    · have hqueue := congrArg (fun q => q.bound) b.queue_tryAdjust
      exact lt_of_eq_of_lt hqueue hsize
  | reset => exact ⟨b.reset, 0, rfl, hsize, fun hgrows => hgrows.elim⟩
  | expand size granted =>
    obtain ⟨b', ret, heq, hb', hsame⟩ := expand_kept hsize h
    exact ⟨b', ret, congrArg _ heq, hb', fun _ => hsame⟩
  | expandCapacity cap granted =>
    obtain ⟨b', ret, heq, hb', hsame⟩ := expandCapacity_kept hsize h
    exact ⟨b', ret, heq, hb', fun _ => hsame⟩

end Growth

/-! ## Copying -/

/-- A copy leaves what the source holds: one has the other's emptiness, or it is refused, or the
target begins at the front of its block. -/
def Copies (dst src : RawBuffer) : Prop :=
  if src.dataLen = 0 then dst.dataLen = 0 else dst.size < src.dataLen ∨ dst.start = 0

section Copy

variable {d s : Buffer}

theorem data_eq_nil_iff (hs : s.size < 2 ^ 63) : (ofBuffer s).dataLen = 0 ↔ s.data = [] := by
  rw [dataLen_ofBuffer hs, ← s.length_data, List.length_eq_zero_iff]

/-- The target of a copy that is neither empty nor refused. -/
def copied (d s : Buffer) : RawBuffer :=
  { ofBuffer d with ptr := s.data ++ d.ptr.drop s.dataLen, stop := s.dataLen }

theorem copy_fits (hs : s.size < 2 ^ 63) (hne : (ofBuffer s).dataLen ≠ 0)
    (hfits : s.dataLen ≤ d.size) : (ofBuffer d).copy (ofBuffer s) = .ok (copied d s, 0) := by
  have hread : (ofBuffer s).read (ofBuffer s).start (ofBuffer s).dataLen = .ok s.data :=
    read_ofBuffer hs
  have hfits' : ¬ (ofBuffer d).size < s.dataLen := Nat.not_lt.mpr hfits
  have hin : 0 + s.data.length ≤ (ofBuffer d).ptr.length := by
    rw [Nat.zero_add, s.length_data]
    exact hfits
  rw [copy, if_neg hne]
  rw [dataLen_ofBuffer hs] at hread ⊢
  rw [if_neg hfits', hread, ok_bind, write_of_le hin, ok_bind, Nat.zero_add, s.length_data]
  rfl

/-- The bytes of the source stand at the front of the block. -/
theorem readable_copied (hfits : s.dataLen ≤ d.size) :
    (copied d s).readable = some s.data ↔ d.start = 0 := by
  have hlength : (s.data ++ d.ptr.drop s.dataLen).length = d.ptr.length := by
    rw [List.length_append, s.length_data, List.length_drop]
    exact Nat.add_sub_of_le hfits
  have hreadable : (copied d s).readable =
      if d.start ≤ s.dataLen ∧ s.dataLen ≤ d.ptr.length then some (s.data.drop d.start)
      else none := by
    show (if d.start ≤ s.dataLen ∧ s.dataLen ≤ (s.data ++ d.ptr.drop s.dataLen).length then
      some (((s.data ++ d.ptr.drop s.dataLen).take s.dataLen).drop d.start) else none) = _
    rw [hlength, List.take_left' s.length_data]
  rw [hreadable]
  constructor
  · -- bytes that begin behind the front are fewer than those that were copied
    intro hread
    split at hread
    · have hbytes := congrArg List.length (Option.some.inj hread)
      rw [List.length_drop, s.length_data] at hbytes
      omega
    · cases hread
  · intro hzero
    rw [hzero, if_pos ⟨Nat.zero_le _, hfits⟩, List.drop_zero]

/-- Where the target begins at the front, the copy is that of a `Buffer`. -/
theorem copied_eq (hzero : d.start = 0) (room : d.reset.stop + s.data.length ≤ d.reset.size) :
    copied d s = ofBuffer (d.reset.put s.data room) := by
  have hptr : (d.reset.put s.data room).ptr = s.data ++ d.ptr.drop s.dataLen := by
    show d.ptr.take 0 ++ s.data ++ d.ptr.drop (0 + s.data.length) = _
    rw [List.take_zero, List.nil_append, Nat.zero_add, s.length_data]
  have hstop : (d.reset.put s.data room).stop = s.dataLen := by
    show 0 + s.data.length = _
    rw [Nat.zero_add, s.length_data]
  have hsame : (d.reset.put s.data room).size = d.size := d.reset.size_put s.data room
  show RawBuffer.mk (s.data ++ d.ptr.drop s.dataLen) d.start s.dataLen d.size d.max =
    RawBuffer.mk (d.reset.put s.data room).ptr 0 (d.reset.put s.data room).stop
      (d.reset.put s.data room).size d.max
  rw [hptr, hstop, hsame, hzero]

/-- After a copy that returns 0 the bytes are those of the source, under `Copies` and in no other
case. -/
theorem copy_ofBuffer (hd : d.size < 2 ^ 63) (hs : s.size < 2 ^ 63) :
    ∃ d' ret, (ofBuffer d).copy (ofBuffer s) = .ok (d', ret) ∧
      ((ret = 0 → d'.readable = some s.data) ↔ Copies (ofBuffer d) (ofBuffer s)) ∧
      (Copies (ofBuffer d) (ofBuffer s) → ∃ c, d' = ofBuffer c ∧ c.size < 2 ^ 63) := by
  rw [Copies]
  by_cases hempty : (ofBuffer s).dataLen = 0
  · have hnil := (data_eq_nil_iff hs).mp hempty
    refine ⟨ofBuffer d, 0, if_pos hempty, ?_, fun _ => ⟨d, rfl, hd⟩⟩
    rw [if_pos hempty, data_eq_nil_iff hd, readable_ofBuffer, hnil]
    constructor
    · exact fun hsame => Option.some.inj (hsame rfl)
    · exact fun hdst _ => congrArg some hdst
  · rw [if_neg hempty]
    by_cases hfull : (ofBuffer d).size < (ofBuffer s).dataLen
    · refine ⟨ofBuffer d, BUFFER_OVER_SIZE, ?_, ?_, fun _ => ⟨d, rfl, hd⟩⟩
      · rw [copy, if_neg hempty, if_pos hfull]
      · exact iff_of_true (fun hzero => absurd hzero (by decide)) (.inl hfull)
    · have hfits : s.dataLen ≤ d.size := by
        rw [dataLen_ofBuffer hs] at hfull
        exact Nat.le_of_not_lt hfull
      refine ⟨copied d s, 0, copy_fits hs hempty hfits, ?_, fun hcopies => ?_⟩
      · rw [or_iff_right hfull]
        exact (imp_iff_right rfl).trans (readable_copied hfits)
      · have hzero : d.start = 0 := hcopies.resolve_left hfull
        have room : d.reset.stop + s.data.length ≤ d.reset.size := by
          show 0 + s.data.length ≤ d.size
          rw [s.length_data, Nat.zero_add]
          exact hfits
        exact ⟨_, copied_eq hzero room, lt_of_eq_of_lt (d.reset.size_put s.data room) hd⟩

end Copy

/-! ## Several buffers -/

/-- The buffers there are. -/
abbrev Pool := Nat → Option RawBuffer

namespace Pool

def empty : Pool := fun _ => none

/-- A pointer to a buffer is set. -/
def assign (pool : Pool) (i : Nat) (b : Option RawBuffer) : Pool :=
  fun j => if j = i then b else pool j

/-- A pointer is asserted not to be null. -/
def buffer (pool : Pool) (i : Nat) : Except Fault RawBuffer :=
  match pool i with
  | none => .error .assertFailed
  | some b => .ok b

end Pool

/-- The calls. -/
inductive Call
  | init (i : Nat) (size : BitVec 64) (granted : Bool)
  | createMax (i : Nat) (size max : BitVec 64) (granted : Bool)
  | op (i : Nat) (op : Op)
  | append (dst src : Nat) (ne : dst ≠ src)
  | copy (dst src : Nat) (ne : dst ≠ src)

/-- One call, with what it returns. -/
def call (pool : Pool) : Call → Except Fault (Pool × Int)
  | .init i size granted => .ok (pool.assign i (init size.toNat granted), 0)
  | .createMax i size max granted => do
    let b ← createMax size.toNat max.toNat granted
    .ok (pool.assign i b, 0)
  | .op i op => do
    let b ← pool.buffer i
    let (b, ret) ← b.step op
    .ok (pool.assign i (some b), ret)
  | .append dst src _ => do
    let d ← pool.buffer dst
    let s ← pool.buffer src
    let (d, ret) ← d.append s
    .ok (pool.assign dst (some d), ret)
  | .copy dst src _ => do
    let d ← pool.buffer dst
    let s ← pool.buffer src
    let (d, ret) ← d.copy s
    .ok (pool.assign dst (some d), ret)

/-- The state after a call. -/
def next (pool : Pool) (c : Call) : Except Fault Pool := do
  let (pool, _) ← call pool c
  .ok pool

/-- What a call has to keep: a growth that fails leaves the buffer as it is, and a copy that returns
0 has the bytes of its source. -/
def Kept (pool : Pool) (c : Call) (pool' : Pool) (ret : Int) : Prop :=
  match c with
  | .op i op => op.Grows → ret ≠ 0 → pool' i = pool i
  | .copy dst src _ => ret = 0 → (pool' dst).bind readable = (pool src).bind readable
  | _ => True

/-- A call keeps what it should, and it does not leave its block. -/
def Preserves (pool : Pool) (c : Call) : Prop :=
  Ends (· = .assertFailed) (fun r => Kept pool c r.1 r.2) (call pool c)

/-- No growth fails for want of memory while the size is not a whole number of pieces, and nothing is
copied to a buffer that is in use. -/
def Meets (pool : Pool) : Call → Prop
  | .op i op => ∀ b, pool i = some b → b.Fails op → b.size % 64 = 0
  | .copy dst src _ => ∀ d s, pool dst = some d → pool src = some s → Copies d s
  | _ => True

/-- Every buffer has the fields of a `Buffer`. -/
def Sound (pool : Pool) : Prop :=
  ∀ i b, pool i = some b → ∃ c, b = ofBuffer c ∧ c.size < 2 ^ 63

theorem Sound.assign {pool : Pool} (h : Sound pool) (i : Nat) {b : Option RawBuffer}
    (hb : ∀ r, b = some r → ∃ c, r = ofBuffer c ∧ c.size < 2 ^ 63) : Sound (pool.assign i b) := by
  intro j r hr
  rw [Pool.assign] at hr
  split at hr
  · exact hb r hr
  · exact h j r hr

theorem assign_self (pool : Pool) (i : Nat) (b : Option RawBuffer) : pool.assign i b i = b :=
  if_pos rfl

theorem buffer_eq {pool : Pool} {i : Nat} {b : RawBuffer} (h : pool i = some b) :
    pool.buffer i = .ok b := by
  rw [Pool.buffer, h]

theorem buffer_none {pool : Pool} {i : Nat} (h : pool i = none) :
    pool.buffer i = .error .assertFailed := by
  rw [Pool.buffer, h]

/-- A new buffer. -/
theorem init_sound {size : Nat} {granted : Bool} {b : RawBuffer} (h : init size granted = some b)
    (max : Nat) : ∃ c, { b with max := max } = ofBuffer c ∧ c.size < 2 ^ 63 := by
  rw [init] at h
  split at h
  · next hgranted =>
    cases h
    have hlength : (List.replicate (roundUp size) (0 : Byte)).length = roundUp size :=
      List.length_replicate
    refine ⟨⟨List.replicate (roundUp size) 0, 0, 0, max, Nat.le_refl 0, Nat.zero_le _⟩, ?_, ?_⟩
    · show RawBuffer.mk (List.replicate (roundUp size) 0) 0 0 (roundUp size) max =
        RawBuffer.mk (List.replicate (roundUp size) 0) 0 0
          (List.replicate (roundUp size) (0 : Byte)).length max
      rw [hlength]
    · rw [Buffer.size, hlength]
      exact of_decide_eq_true (Bool.and_eq_true_iff.mp hgranted).2
  · cases h

theorem createMax_sound (size max : Nat) (granted : Bool) :
    Ends (· = .assertFailed)
      (fun b => ∀ r, b = some r → ∃ c, r = ofBuffer c ∧ c.size < 2 ^ 63)
      (createMax size max granted) := by
  rw [createMax]
  split
  · intro r hr
    cases hr
  · cases hinit : init size granted with
    | none =>
      intro r hr
      cases hr
    | some b =>
      dsimp only
      split
      · intro r hr
        cases hr
        exact init_sound hinit max
      · rfl

/-- A call on one buffer keeps what it should, under `Meets` and in no other case. -/
theorem op_preserves {pool : Pool} (h : Sound pool) (i : Nat) (op : Op) :
    (Preserves pool (.op i op) ↔ Meets pool (.op i op)) ∧
      (Meets pool (.op i op) →
        Ends (· = .assertFailed) (fun r => Sound r.1) (call pool (.op i op))) := by
  rw [Preserves, call]
  cases hb : pool i with
  | none =>
    rw [buffer_none hb, error_bind]
    have hmeets : Meets pool (.op i op) := by
      intro b hb'
      rw [hb] at hb'
      cases hb'
    exact ⟨iff_of_true rfl hmeets, fun _ => rfl⟩
  | some b =>
    obtain ⟨c, rfl, hsize⟩ := h i b hb
    rw [buffer_eq hb, ok_bind]
    have hmeets : Meets pool (.op i op) ↔ ((ofBuffer c).Fails op → c.size % 64 = 0) := by
      constructor
      · exact fun hall => hall _ hb
      · intro hone b hb'
        rw [hb] at hb'
        cases hb'
        exact hone
    rw [hmeets]
    by_cases hfails : (ofBuffer c).Fails op
    · -- the size is rounded up, and that leaves it as it was if it is a whole number of pieces
      obtain ⟨hgrows, hstep⟩ := step_fails hfails
      rw [hstep, ok_bind, ends_ok, ends_ok]
      have hround := roundUp_eq_iff hsize
      rw [imp_iff_right hfails]
      refine ⟨⟨fun hkept => ?_, fun hwhole => ?_⟩, fun hwhole => ?_⟩
      · have hsame := hkept hgrows (show BUFFER_MALLOC_ERROR ≠ 0 by decide)
        dsimp only at hsame
        rw [assign_self, hb] at hsame
        exact hround.mp (congrArg size (Option.some.inj hsame))
      · intro _ _
        dsimp only
        rw [assign_self, hb]
        exact congrArg (fun n => some { ofBuffer c with size := n }) (hround.mpr hwhole)
      · refine h.assign i ?_
        intro r hr
        cases hr
        exact ⟨c, congrArg (fun n => { ofBuffer c with size := n }) (hround.mpr hwhole), hsize⟩
    · obtain ⟨c', ret, hstep, hsize', hsame⟩ := step_ofBuffer hsize hfails
      rw [hstep, ok_bind, ends_ok, ends_ok]
      refine ⟨iff_of_true ?_ fun hfail => absurd hfail hfails, fun _ => ?_⟩
      · intro hgrows hne
        dsimp only
        rw [assign_self, hb, hsame hgrows hne]
      · refine h.assign i ?_
        intro r hr
        cases hr
        exact ⟨c', rfl, hsize'⟩

/-- A copy keeps what it should, under `Meets` and in no other case. -/
theorem copy_preserves {pool : Pool} (h : Sound pool) (dst src : Nat) (ne : dst ≠ src) :
    (Preserves pool (.copy dst src ne) ↔ Meets pool (.copy dst src ne)) ∧
      (Meets pool (.copy dst src ne) →
        Ends (· = .assertFailed) (fun r => Sound r.1) (call pool (.copy dst src ne))) := by
  rw [Preserves, call]
  cases hd : pool dst with
  | none =>
    rw [buffer_none hd, error_bind]
    have hmeets : Meets pool (.copy dst src ne) := by
      intro d s hd'
      rw [hd] at hd'
      cases hd'
    exact ⟨iff_of_true rfl hmeets, fun _ => rfl⟩
  | some d =>
    rw [buffer_eq hd, ok_bind]
    cases hs : pool src with
    | none =>
      rw [buffer_none hs, error_bind]
      have hmeets : Meets pool (.copy dst src ne) := by
        intro d s _ hs'
        rw [hs] at hs'
        cases hs'
      exact ⟨iff_of_true rfl hmeets, fun _ => rfl⟩
    | some s =>
      obtain ⟨d, rfl, hdsize⟩ := h dst d hd
      obtain ⟨s, rfl, hssize⟩ := h src s hs
      have hmeets : Meets pool (.copy dst src ne) ↔ Copies (ofBuffer d) (ofBuffer s) := by
        constructor
        · exact fun hall => hall _ _ hd hs
        · intro hone d' s' hd' hs'
          rw [hd] at hd'
          rw [hs] at hs'
          cases hd'
          cases hs'
          exact hone
      obtain ⟨d', ret, hcopy, hiff, hsound⟩ := copy_ofBuffer hdsize hssize
      rw [buffer_eq hs, ok_bind, hcopy, ok_bind, ends_ok, ends_ok, hmeets, ← hiff]
      refine ⟨?_, fun hread => ?_⟩
      · have hkept : Kept pool (.copy dst src ne) (pool.assign dst (some d')) ret ↔
            (ret = 0 → (pool.assign dst (some d') dst).bind readable =
              (pool src).bind readable) := Iff.rfl
        rw [hkept, assign_self, hs, Option.bind_some, Option.bind_some, readable_ofBuffer]
      · refine h.assign dst ?_
        intro r hr
        cases hr
        exact hsound (hiff.mp hread)

/-- Every call keeps what it should, under `Meets` and in no other case, and under `Meets` the fields
stay those of a `Buffer`. -/
theorem call_preserves {pool : Pool} (h : Sound pool) (c : Call) :
    (Preserves pool c ↔ Meets pool c) ∧
      (Meets pool c → Ends (· = .assertFailed) (fun r => Sound r.1) (call pool c)) := by
  cases c with
  | init i size granted =>
    refine ⟨iff_of_true trivial trivial, fun _ => h.assign i ?_⟩
    exact fun r hr => init_sound hr r.max
  | createMax i size max granted =>
    have hcreate := createMax_sound size.toNat max.toNat granted
    refine ⟨iff_of_true ?_ trivial, fun _ => hcreate.bind fun b _ hb => h.assign i hb⟩
    exact hcreate.bind fun b _ _ => trivial
  | op i op => exact op_preserves h i op
  | append dst src ne =>
    have happend : Ends (· = .assertFailed) (fun r => Sound r.1) (call pool (.append dst src ne)) := by
      rw [call]
      cases hd : pool dst with
      | none =>
        rw [buffer_none hd]
        rfl
      | some d =>
        rw [buffer_eq hd, ok_bind]
        cases hs : pool src with
        | none =>
          rw [buffer_none hs]
          rfl
        | some s =>
          obtain ⟨d, rfl, hdsize⟩ := h dst d hd
          obtain ⟨s, rfl, hssize⟩ := h src s hs
          obtain ⟨d', ret, heq, hsame⟩ := append_ofBuffer hdsize hssize
          rw [buffer_eq hs, ok_bind, heq, ok_bind]
          refine h.assign dst ?_
          intro r hr
          cases hr
          exact ⟨d', rfl, lt_of_eq_of_lt hsame hdsize⟩
    exact ⟨iff_of_true (happend.mono fun _ _ _ => trivial) trivial, fun _ => happend⟩
  | copy dst src ne => exact copy_preserves h dst src ne

/-! ## Runs -/

theorem empty_sound : Sound Pool.empty := fun _ _ hb => nomatch hb

/-- A run whose calls meet the condition keeps the fields those of a `Buffer`. -/
theorem run_sound {calls : List Call} (h : Along next Meets Pool.empty calls) :
    Ends (· = .assertFailed) Sound (calls.foldlM next Pool.empty) := by
  refine Along.run ?_ h empty_sound
  intro pool c hpool hmeets
  refine Ends.bind ((call_preserves hpool c).2 hmeets) ?_
  exact fun r _ hr => hr

/-- So every call of the run keeps what it should. -/
theorem preserves_along {calls : List Call} :
    ∀ {pool : Pool}, Along next Meets pool calls → Sound pool → Along next Preserves pool calls := by
  induction calls with
  | nil => exact fun _ _ => trivial
  | cons c calls ih =>
    intro pool h hpool
    obtain ⟨hiff, hsound⟩ := call_preserves hpool c
    refine ⟨hiff.mpr h.1, fun pool' hnext => ih (h.2 pool' hnext) ?_⟩
    have hends : Ends (· = .assertFailed) Sound (next pool c) :=
      Ends.bind (hsound h.1) fun r _ hr => hr
    exact hends.of_ok hnext

/-- In a run whose calls meet the condition every call keeps what it should; and after it a further
call does so exactly if it meets the condition as well. -/
theorem preserves_iff {calls : List Call} (h : Along next Meets Pool.empty calls) :
    Along next Preserves Pool.empty calls ∧
      Ends (· = .assertFailed) (fun pool => ∀ c, Preserves pool c ↔ Meets pool c)
        (calls.foldlM next Pool.empty) := by
  refine ⟨preserves_along h empty_sound, ?_⟩
  exact (run_sound h).mono fun pool _ hpool c => (call_preserves hpool c).1

/-- `Meets` as a computation. -/
def meetsCheck (pool : Pool) : Call → Bool
  | .op i op =>
    match pool i with
    | none => true
    | some b =>
      match b.asks op with
      | none => true
      | some (n, granted) => allocated n granted || b.size % 64 == 0
  | .copy dst src _ =>
    match pool dst, pool src with
    | some d, some s =>
      if s.dataLen = 0 then d.dataLen == 0 else decide (d.size < s.dataLen) || d.start == 0
    | _, _ => true
  | _ => true

theorem meets_of_check (pool : Pool) (c : Call) (h : meetsCheck pool c = true) : Meets pool c := by
  cases c with
  | init i size granted => trivial
  | createMax i size max granted => trivial
  | append dst src ne => trivial
  | op i op =>
    rintro b hb ⟨n, granted, hasks, hnone⟩
    simp only [meetsCheck, hb, hasks, hnone, Bool.false_or, beq_iff_eq] at h
    exact h
  | copy dst src ne =>
    intro d s hd hs
    simp only [meetsCheck, hd, hs] at h
    rw [Copies]
    split at h
    · next hempty =>
      rw [if_pos hempty]
      exact beq_iff_eq.mp h
    · next hempty =>
      rw [if_neg hempty]
      exact (Bool.or_eq_true_iff.mp h).imp of_decide_eq_true beq_iff_eq.mp

/-- A buffer grows, is filled and is copied to a new one. -/
theorem preserves_grown :
    Along next Preserves Pool.empty
      [.createMax 0 0 1000 true, .op 0 (.expandCapacity 3 true),
        .op 0 (.appendPtr ⟨[1, 2, 3], by decide⟩), .op 0 (.eat 1), .init 1 64 true,
        .copy 1 0 (by decide)] :=
  (preserves_iff (Along.of_check meets_of_check _ (by decide +kernel))).1

/-- A copy to a buffer of which one byte was eaten begins one byte too late, and after a growth that
failed an append leaves the block. -/
theorem copy_and_growth_break :
    (do
      let pool ← [Call.createMax 0 0 100 true, .op 0 (.expand 3 true),
        .op 0 (.appendPtr ⟨[1, 2, 3], by decide⟩), .op 0 (.eat 1), .createMax 1 0 100 true,
        .op 1 (.expand 2 true), .op 1 (.appendPtr ⟨[9, 8], by decide⟩)].foldlM next Pool.empty
      let (pool', ret) ← call pool (.copy 0 1 (by decide))
      .ok (ret, (pool' 0).bind readable, (pool 1).bind readable)) =
        (.ok (0, some [8], some [9, 8]) : Except Fault _) ∧
    (do
      let pool ← [Call.createMax 0 0 100 true, .op 0 (.expand 3 true)].foldlM next Pool.empty
      let (pool', ret) ← call pool (.op 0 (.expand 90 false))
      .ok (ret, (pool 0).map size, (pool' 0).map size)) =
        (.ok (BUFFER_MALLOC_ERROR, some 3, some 64) : Except Fault _) ∧
    (do
      let _ ← [Call.createMax 0 0 100 true, .op 0 (.expand 3 true), .op 0 (.expand 90 false),
        .op 0 (.appendPtr ⟨[1, 2, 3, 4], by decide⟩)].foldlM next Pool.empty
      .ok ()) = (.error .outOfBounds : Except Fault Unit) :=
  ⟨by decide +kernel, by decide +kernel, by decide +kernel⟩

end RawBuffer

end RtcMcu.Util
