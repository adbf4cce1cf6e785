import RtcMcu.Lib.Turns
import RtcMcu.MediaManager.TimeBases

/-!
# The timestamps of video frames

A video frame has a 32-bit RTP timestamp, which wraps, and its FLV tag a timestamp in milliseconds.
`_put_video_frame` takes every step back of the RTP timestamp for a wrap, and
`_first_video_ts == 0` for "no frame yet", after which audio packets rewrite the offset. So the
tags tell the time that has passed in the runs in which no frame steps back and the first timestamp
was not 0 (`video_clock`).

What carries the result is the shift between the milliseconds of a frame and its tag (`InTime`): it
grows with each turn by what the turn takes, and is short by less than two milliseconds each time.
-/

namespace RtcMcu.MediaManager

open RtcMcu.Avformat RtcMcu.Avcodec RtcMcu.Fragment
open RtcMcu.Coupling
open RtcMcu.Turns

/-- What the floating point numbers give for a rate that is a multiple of 1000: a `float` holds it
exactly, as it does every one below 2^27, and the quotient is cut to whole milliseconds. -/
def RemuxerEnv.ExactMs (env : RemuxerEnv) (timeBase : BitVec 32) : Prop :=
  1000 ∣ timeBase.toNat →
    ∀ ts, (env.toMs ts timeBase).toNat = ts.toNat / (timeBase.toNat / 1000)

/-- `k` ticks are a millisecond. -/
def RemuxerEnv.CutsMs (env : RemuxerEnv) (timeBase : BitVec 32) (k : Nat) : Prop :=
  ∀ ts, (env.toMs ts timeBase).toNat = ts.toNat / k

theorem RemuxerEnv.ExactMs.cutsMs {env : RemuxerEnv} {timeBase : BitVec 32} {k : Nat}
    (h : env.ExactMs timeBase) (hrate : timeBase.toNat = 1000 * k) : env.CutsMs timeBase k := by
  intro ts
  rw [h ⟨k, hrate⟩ ts, hrate, Nat.mul_div_cancel_left k (by decide)]

namespace Rtp2FlvTransformInfo

/-! ## Runs -/

/-- A call that makes up `set_rtp`: a packet's payload is appended to the frame, the frame sampled at
`time` is put out, an audio packet is read, tags are passed on, a jitter buffer is changed. -/
inductive ClockCall
  | append (pkt : Rtp) (len offset : Nat) (indicator : Byte)
  | put (time : Nat)
  | audio (pkt : Rtp) (len : Nat) (start : BitVec 32)
  | pass
  | buffer (j : JitterBuffer) (track : Track)

/-- What a call does to the stream. -/
def applyCall (env : RemuxerEnv) (info : Rtp2FlvTransformInfo) :
    ClockCall → Except Fault Rtp2FlvTransformInfo
  | .append pkt len offset indicator =>
    if indicator &&& 0x1f ≠ 28 then info.appendUnit pkt len offset
    else info.appendFragment pkt len offset indicator
  | .put _ => (info.putFrameIf env true).result
  | .audio pkt len start => (setAudio env pkt len (pkt.data.length + 1) info start).result
  | .pass => info.setFlvToMm.result
  | .buffer j track => .ok (info.setBuffer j track)

/-- A frame for which a tag was made: the time it was sampled at, the timestamp of its tag, and the
offset behind it. -/
structure VideoFrame where
  time : Nat
  timestamp : BitVec 32
  offset : BitVec 32
  deriving DecidableEq

/-- The frames a call makes tags for. -/
def ClockCall.tagged (info after : Rtp2FlvTransformInfo) : ClockCall → List VideoFrame
  | .put time => (after.videoOutQueue.drop info.videoOutQueue.length).map fun tag =>
      { time := time, timestamp := tag.timestamp, offset := after.videoOffset }
  | _ => []

/-- A stream with the frames that were put out, the latest first. -/
structure Timeline where
  info : Rtp2FlvTransformInfo
  frames : List VideoFrame

namespace Timeline

def step (env : RemuxerEnv) (d : Timeline) (call : ClockCall) : Except Fault Timeline :=
  (d.info.applyCall env call).map fun after =>
    { info := after, frames := call.tagged d.info after ++ d.frames }

def run (env : RemuxerEnv) (d : Timeline) (calls : List ClockCall) : Except Fault Timeline :=
  calls.foldlM (step env) d

/-- The RTP timestamp of a frame that is put out is the low half of the time it was sampled at. -/
def Stamped (d : Timeline) : ClockCall → Prop
  | .put time => d.info.videoFrameTs = BitVec.ofNat 32 time
  | _ => True

/-- Two frames in succession are less than half a turn apart. -/
def Near (d : Timeline) : ClockCall → Prop
  | .put time => ∀ f ∈ d.frames.head?, f.time < time + 2 ^ 31 ∧ time < f.time + 2 ^ 31
  | _ => True

/-- A frame behind the first one does not step back, by less than a turn forward, and the first
timestamps were noted. -/
def Forward (d : Timeline) : ClockCall → Prop
  | .put time => ∀ f ∈ d.frames.head?, (f.time ≤ time ∧ time < f.time + 2 ^ 32) ∧
      d.info.firstVideoTs ≠ 0 ∧ d.info.flv.initialVideoTs ≠ -1
  | _ => True

end Timeline

/-- The tag is as many milliseconds behind that of the first frame as the frame itself, rounded, and
up to two milliseconds for each turn between them. `k` ticks are a millisecond. -/
def VideoFrame.Follows (k : Nat) (f first : VideoFrame) : Prop :=
  ∃ ms : Int, f.timestamp - first.timestamp = BitVec.ofInt 32 ms ∧
    (k * ms - ((f.time : Int) - first.time)).natAbs <
      k * (1 + 2 * ((turn 32 f.time : Int) - turn 32 first.time).natAbs)

/-- The tags tell the time that has passed, and a step back adds nothing to the offset. -/
structure Timeline.Unwrapped (k : Nat) (d : Timeline) : Prop where
  follows : ∀ f ∈ d.frames, ∀ first ∈ d.frames.getLast?, f.Follows k first
  steady : d.frames.IsChain fun later earlier =>
    later.time < earlier.time → later.offset = earlier.offset

/-! ## What leaves the clock alone -/

/-- What the timestamps of the tags are made with. -/
structure ClockPart where
  initial : BitVec 32
  first : BitVec 32
  offset : BitVec 32
  last : BitVec 32
  timeBase : BitVec 32

def clockPart (info : Rtp2FlvTransformInfo) : ClockPart where
  initial := info.flv.initialVideoTs
  first := info.firstVideoTs
  offset := info.videoOffset
  last := info.lastRtpVideoTs
  timeBase := info.videoTimeBase

/-- The clock is left as it is. -/
def KeepsClock (info : Rtp2FlvTransformInfo) (x : Except Fault Rtp2FlvTransformInfo) : Prop :=
  Ends (fun _ => True) (fun i => i.clockPart = info.clockPart) x

/-- The clock, the timestamp of the frame and the tags that wait are left as they are. -/
def KeepsFrame (info : Rtp2FlvTransformInfo) (x : Except Fault Rtp2FlvTransformInfo) : Prop :=
  Ends (fun _ => True) (fun i => i.clockPart = info.clockPart ∧
    i.videoFrameTs = info.videoFrameTs ∧ i.videoOutQueue = info.videoOutQueue) x

variable {env : RemuxerEnv} {info : Rtp2FlvTransformInfo}

theorem KeepsClock.refl (info : Rtp2FlvTransformInfo) : KeepsClock info (.ok info) :=
  Eq.refl info.clockPart

theorem KeepsClock.bind {x : Except Fault Rtp2FlvTransformInfo}
    {f : Rtp2FlvTransformInfo → Except Fault Rtp2FlvTransformInfo} (hx : KeepsClock info x)
    (hf : ∀ i, KeepsClock i (f i)) : KeepsClock info (x >>= f) := by
  refine Ends.bind hx fun i _ hi => ?_
  exact Ends.mono (hf i) fun i' _ hi' => hi'.trans hi

theorem KeepsFrame.refl (info : Rtp2FlvTransformInfo) : KeepsFrame info (.ok info) :=
  ⟨rfl, rfl, rfl⟩

theorem KeepsFrame.trans {i : Rtp2FlvTransformInfo} {x : Except Fault Rtp2FlvTransformInfo}
    (hi : i.clockPart = info.clockPart ∧ i.videoFrameTs = info.videoFrameTs ∧
      i.videoOutQueue = info.videoOutQueue) (hx : KeepsFrame i x) : KeepsFrame info x :=
  Ends.mono hx fun _ _ hi' =>
    ⟨hi'.1.trans hi.1, hi'.2.1.trans hi.2.1, hi'.2.2.trans hi.2.2⟩

/-- Any computation, whatever it comes to. -/
theorem ends_any {α : Type} (x : Except Fault α) : Ends (fun _ => True) (fun _ => True) x := by
  cases x with
  | ok a => trivial
  | error e => trivial

/-! ### Video -/

theorem writeHeader_keepsFrame (info : Rtp2FlvTransformInfo) :
    KeepsFrame info (info.writeHeader env).result := by
  unfold writeHeader
  split
  · exact ⟨rfl, rfl, rfl⟩
  · exact KeepsFrame.refl info

theorem takeParameterSet_keepsFrame (info : Rtp2FlvTransformInfo) (nal : NalUnit) :
    KeepsFrame info (info.takeParameterSet nal) := by
  unfold takeParameterSet
  split
  · exact Ends.bind (ends_any _) fun _ _ _ => ⟨rfl, rfl, rfl⟩
  · split
    · exact Ends.bind (ends_any _) fun _ _ _ => ⟨rfl, rfl, rfl⟩
    · exact KeepsFrame.refl info

theorem findParameterSets_keepsFrame (info : Rtp2FlvTransformInfo) :
    KeepsFrame info (info.findParameterSets env).result := by
  unfold findParameterSets
  split
  · exact KeepsFrame.refl info
  · simp only [Emit.result_bind, Emit.result_lift]
    have hscan : KeepsFrame info
        (scanNals info.videoFrameBuffer takeParameterSet hasParameterSets info) :=
      scanNals_ends trivial
        (fun i nal _ hi => KeepsFrame.trans hi (takeParameterSet_keepsFrame i nal)) _
        ⟨rfl, rfl, rfl⟩
    exact Ends.bind hscan fun i _ hi => KeepsFrame.trans hi (writeHeader_keepsFrame i)

theorem sizeFrame_keepsFrame (info : Rtp2FlvTransformInfo) : KeepsFrame info info.sizeFrame := by
  unfold sizeFrame
  split
  · exact KeepsFrame.refl info
  · exact Ends.bind (ends_any _) fun _ _ _ => ⟨rfl, rfl, rfl⟩

theorem appendPayload_keepsClock (info : Rtp2FlvTransformInfo) (pkt : Rtp) (len offset : Nat) :
    KeepsClock info (info.appendPayload pkt len offset) := by
  unfold appendPayload
  exact Ends.bind (ends_any _) fun _ _ _ => Eq.refl info.clockPart

theorem checkFragment_clockPart (info : Rtp2FlvTransformInfo) (seq : Seq) :
    (info.checkFragment seq).clockPart = info.clockPart := by
  unfold checkFragment
  split
  · rfl
  · rfl

theorem append_keepsClock (info : Rtp2FlvTransformInfo) (pkt : Rtp) (len offset : Nat)
    (indicator : Byte) : KeepsClock info (info.applyCall env (.append pkt len offset indicator)) := by
  unfold applyCall
  dsimp only
  split
  · unfold appendUnit
    refine Ends.bind (appendPayload_keepsClock info.markUnit pkt len offset) fun i _ hi => ?_
    exact hi
  · have hcheck := info.checkFragment_clockPart pkt.seq
    unfold appendFragment
    refine Ends.bind (ends_any _) fun fragment _ _ => ?_
    dsimp only
    split
    · exact Ends.mono (appendPayload_keepsClock _ pkt len (offset + 2)) fun i _ hi => hi.trans hcheck
    · exact Ends.mono (appendPayload_keepsClock _ pkt len (offset + 2)) fun i _ hi => hi.trans hcheck

/-! ### Audio -/

/-- Once there is a first timestamp, audio packets leave the clock alone; without one they rewrite
the offset only. -/
def KeepsFirst (info : Rtp2FlvTransformInfo) (x : Except Fault Rtp2FlvTransformInfo) : Prop :=
  Ends (fun _ => True) (fun i => i.clockPart = { info.clockPart with offset := i.videoOffset } ∧
    (info.firstVideoTs ≠ 0 → i.videoOffset = info.videoOffset)) x

theorem KeepsClock.keepsFirst {x : Except Fault Rtp2FlvTransformInfo} (h : KeepsClock info x) :
    KeepsFirst info x :=
  Ends.mono h fun i _ hi => by
    have hoffset : i.videoOffset = info.videoOffset := congrArg ClockPart.offset hi
    refine ⟨?_, fun _ => hoffset⟩
    rw [hi, hoffset]
    rfl

theorem KeepsFirst.trans {i : Rtp2FlvTransformInfo} {x : Except Fault Rtp2FlvTransformInfo}
    (hi : i.clockPart = { info.clockPart with offset := i.videoOffset } ∧
      (info.firstVideoTs ≠ 0 → i.videoOffset = info.videoOffset)) (hx : KeepsFirst i x) :
    KeepsFirst info x :=
  Ends.mono hx fun i' _ hi' => by
    have hfirst : i.firstVideoTs = info.firstVideoTs := congrArg ClockPart.first hi.1
    refine ⟨?_, fun hne => (hi'.2 (hfirst ▸ hne)).trans (hi.2 hne)⟩
    rw [hi'.1, hi.1]

theorem reachAdts_keepsClock (info : Rtp2FlvTransformInfo) (config : AACConfig) :
    KeepsClock info (info.reachAdts env config).result := by
  unfold reachAdts
  split
  · exact KeepsClock.refl info
  · exact Ends.mono (writeHeader_keepsFrame _) fun i _ hi => hi.1

theorem audioHeader_keepsClock (info : Rtp2FlvTransformInfo) (pkt : Rtp) (len : Nat)
    (offset : BitVec 32) :
    Ends (fun _ => True) (fun r => r.1.clockPart = info.clockPart)
      (info.audioHeader env pkt len offset).result := by
  unfold audioHeader
  simp only [Emit.result_bind, Emit.result_lift]
  refine Ends.bind (ends_any _) fun first _ _ => ?_
  split
  · simp only [Emit.result_bind]
    exact Ends.bind (reachAdts_keepsClock _ _) fun i _ hi => hi
  · simp only [Emit.result_bind]
    exact Ends.bind (reachAdts_keepsClock _ _) fun i _ hi => hi

theorem passAudio_keepsClock (info : Rtp2FlvTransformInfo) (tag : FlvTag) :
    KeepsClock info (info.passAudio tag).result := by
  unfold passAudio
  split
  · exact Eq.refl info.clockPart
  · exact Eq.refl info.clockPart

theorem audioTag_keepsFirst (info : Rtp2FlvTransformInfo) (pkt : Rtp) (offset len : BitVec 32) :
    KeepsFirst info (info.audioTag env pkt offset len).result := by
  unfold audioTag
  split
  · simp only [Emit.result_bind, Emit.result_lift]
    refine Ends.bind (ends_any _) fun payload _ _ => ?_
    refine KeepsFirst.trans ?_ (passAudio_keepsClock _ _).keepsFirst
    refine ⟨rfl, fun hne => ?_⟩
    exact if_neg hne
  · exact (KeepsClock.refl info).keepsFirst

theorem setAudio_keepsFirst (pkt : Rtp) (len fuel : Nat) :
    ∀ (info : Rtp2FlvTransformInfo) (offset : BitVec 32),
      KeepsFirst info (setAudio env pkt len fuel info offset).result := by
  induction fuel with
  | zero => exact fun _ _ => trivial
  | succ fuel ih =>
    intro info offset
    unfold setAudio
    split
    · simp only [Emit.result_bind]
      refine Ends.bind (audioHeader_keepsClock info pkt len offset) fun r _ hr => ?_
      have hheader : KeepsFirst info (.ok r.1) := KeepsClock.keepsFirst hr
      refine Ends.bind (KeepsFirst.trans hheader (audioTag_keepsFirst r.1 pkt r.2.1 r.2.2))
        fun i _ hi => ?_
      exact KeepsFirst.trans hi (ih i (r.2.1 + r.2.2))
    · exact (KeepsClock.refl info).keepsFirst

/-! ## A frame is put out -/

/-- The clock behind a frame with this RTP timestamp. -/
def ClockPart.next (env : RemuxerEnv) (c : ClockPart) (ts : BitVec 32) : ClockPart :=
  let initial := if c.initial = -1 then env.toMs ts c.timeBase else c.initial
  { c with
    initial := initial
    first := if c.first = 0 then env.toMs ts c.timeBase - initial else c.first
    offset := if ts < c.last then c.offset + turnMs env c.last c.timeBase else c.offset
    last := ts }

/-- The timestamp of the tag, by the clock behind the frame. -/
def ClockPart.stamp (c : ClockPart) (ms : BitVec 32) : BitVec 32 :=
  ms - c.initial - c.first + c.offset

/-- A tag was made. -/
structure Puts (env : RemuxerEnv) (info i : Rtp2FlvTransformInfo) (tag : FlvTag) : Prop where
  clock : i.clockPart = info.clockPart.next env info.videoFrameTs
  queue : i.videoOutQueue = info.videoOutQueue ++ [tag]
  timestamp : tag.timestamp =
    i.clockPart.stamp (env.toMs info.videoFrameTs info.videoTimeBase)

/-- A tag is made, or nothing happens to the clock and the tags. -/
def PutsOrKeeps (env : RemuxerEnv) (info i : Rtp2FlvTransformInfo) : Prop :=
  (∃ tag, Puts env info i tag) ∨
    i.clockPart = info.clockPart ∧ i.videoOutQueue = info.videoOutQueue

/-- A tag that is made empty keeps its timestamp. -/
theorem timestamp_of_emptied (invalid : Bool) (tag : FlvTag) :
    (if invalid = true then tag.setDatasize 0 else tag).timestamp = tag.timestamp := by
  cases invalid with
  | true => rfl
  | false => rfl

theorem queueVideoTag_puts (info : Rtp2FlvTransformInfo) :
    Ends (fun _ => True) (PutsOrKeeps env info) (info.queueVideoTag env) := by
  unfold queueVideoTag
  split
  case isFalse => exact .inr ⟨rfl, rfl⟩
  case isTrue =>
    unfold FLV.generateVideoTag
    dsimp only
    cases FLV.generateVideoTagData (info.videoClock env).flv.tempData
        (info.videoClock env).videoFrameBuffer with
    | error e => trivial
    | ok data =>
      exact .inl ⟨_, rfl, rfl, timestamp_of_emptied _ _⟩

theorem put_puts (info : Rtp2FlvTransformInfo) (time : Nat) :
    Ends (fun _ => True) (PutsOrKeeps env info) (info.applyCall env (.put time)) := by
  unfold applyCall putFrameIf
  dsimp only
  split
  case isFalse => exact .inr ⟨rfl, rfl⟩
  case isTrue =>
    unfold putVideoFrame
    simp only [Emit.result_bind, Emit.result_lift, Emit.result_pure]
    refine Ends.bind (sizeFrame_keepsFrame info) fun i₁ _ h₁ => ?_
    refine Ends.bind (KeepsFrame.trans h₁ (findParameterSets_keepsFrame i₁)) fun i₂ _ h₂ => ?_
    refine Ends.bind (queueVideoTag_puts i₂) fun i₃ _ h₃ => ?_
    obtain ⟨hclock, hts, hqueue⟩ := h₂
    have hbase : i₂.videoTimeBase = info.videoTimeBase := congrArg ClockPart.timeBase hclock
    rcases h₃ with ⟨tag, hputs⟩ | ⟨hsame, hsameQueue⟩
    · refine .inl ⟨tag, ?_, ?_, ?_⟩
      · show i₃.clockPart = _
        rw [hputs.clock, hclock, hts]
      · show i₃.videoOutQueue = _
        rw [hputs.queue, hqueue]
      · show _ = i₃.clockPart.stamp _
        rw [hputs.timestamp, hts, hbase]
    · exact .inr ⟨hsame.trans hclock, hsameQueue.trans hqueue⟩

/-! ## The shift between the milliseconds and the tags -/

/-- The whole milliseconds of a time. -/
def millis (k time : Nat) : Nat := time % 2 ^ 32 / k

/-- Since the first frame the shift has grown by what the turns up to `f` take, short by less than two
milliseconds for each. -/
def Grown (k : Nat) (c : ClockPart) (first f : VideoFrame) : Prop :=
  ∃ grown : Nat,
    c.stamp (BitVec.ofNat 32 (millis k first.time)) = first.timestamp + BitVec.ofNat 32 grown ∧
    k * grown ≤ 2 ^ 32 * (turn 32 f.time - turn 32 first.time) ∧
    2 ^ 32 * (turn 32 f.time - turn 32 first.time) ≤
      k * grown + 2 * (k * (turn 32 f.time - turn 32 first.time))

theorem toMs_ofNat {timeBase : BitVec 32} {k : Nat} (hms : env.CutsMs timeBase k) (time : Nat) :
    env.toMs (BitVec.ofNat 32 time) timeBase = BitVec.ofNat 32 (millis k time) := by
  have hval := hms (BitVec.ofNat 32 time)
  rw [BitVec.toNat_ofNat] at hval
  rw [millis, ← hval, BitVec.ofNat_toNat, BitVec.setWidth_eq]

theorem turnMs_eq {timeBase : BitVec 32} {k : Nat} (hms : env.CutsMs timeBase k)
    (last : BitVec 32) :
    turnMs env last timeBase = BitVec.ofNat 32 (parts k (2 ^ 32) last.toNat) := by
  have hbehind : (0xFFFFFFFF - last : BitVec 32).toNat = 2 ^ 32 - 1 - last.toNat := by
    have hlt := last.isLt
    rw [BitVec.toNat_sub_of_le (by rw [BitVec.le_def]; exact Nat.le_of_lt_succ hlt)]
    rfl
  have hbefore : env.toMs last timeBase = BitVec.ofNat 32 (last.toNat / k) := by
    rw [← hms last, BitVec.ofNat_toNat, BitVec.setWidth_eq]
  have hrest : env.toMs (0xFFFFFFFF - last) timeBase =
      BitVec.ofNat 32 ((2 ^ 32 - 1 - last.toNat) / k) := by
    rw [← hbehind, ← hms, BitVec.ofNat_toNat, BitVec.setWidth_eq]
  rw [turnMs, hbefore, hrest, parts, BitVec.ofNat_add]

/-- A tag made with the shift follows the first one. -/
theorem Grown.follows {k : Nat} {c : ClockPart} {first f : VideoFrame} (hk : 0 < k)
    (h : Grown k c first f) (hle : first.time ≤ f.time)
    (hstamp : f.timestamp = c.stamp (BitVec.ofNat 32 (millis k f.time))) : f.Follows k first := by
  obtain ⟨grown, hshift, hlow, hhigh⟩ := h
  refine ⟨(millis k f.time : Int) + grown - millis k first.time, ?_, ?_⟩
  · have hsum : BitVec.ofInt 32 ((millis k f.time : Int) + grown - millis k first.time) =
        BitVec.ofNat 32 (millis k f.time) + BitVec.ofNat 32 grown -
          BitVec.ofNat 32 (millis k first.time) := by
      rw [Int.sub_eq_add_neg, BitVec.ofInt_add, BitVec.ofInt_add, BitVec.ofInt_neg,
        BitVec.ofInt_natCast, BitVec.ofInt_natCast, BitVec.ofInt_natCast, BitVec.sub_eq_add_neg]
    rw [hsum, hstamp]
    unfold ClockPart.stamp at hshift ⊢
    grind
  · have hturn : turn 32 first.time ≤ turn 32 f.time := turn_mono hle
    have htime := turn_add_mod 32 f.time
    have htime' := turn_add_mod 32 first.time
    have hcut := Nat.div_add_mod (f.time % 2 ^ 32) k
    have hcut' := Nat.div_add_mod (first.time % 2 ^ 32) k
    have hrem := Nat.mod_lt (f.time % 2 ^ 32) hk
    have hrem' := Nat.mod_lt (first.time % 2 ^ 32) hk
    have hmul : (k : Int) * ((millis k f.time : Int) + grown - millis k first.time) =
        (k * millis k f.time : Nat) + (k * grown : Nat) - (k * millis k first.time : Nat) := by
      rw [Int.mul_sub, Int.mul_add, Int.natCast_mul, Int.natCast_mul, Int.natCast_mul]
    have hbound : k * (1 + 2 * ((turn 32 f.time : Int) - turn 32 first.time).natAbs) =
        k + 2 * (k * (turn 32 f.time - turn 32 first.time)) := by
      have habs : ((turn 32 f.time : Int) - turn 32 first.time).natAbs =
          turn 32 f.time - turn 32 first.time := by omega
      rw [habs, Nat.mul_add, Nat.mul_one, Nat.mul_left_comm]
    rw [hmul, hbound]
    unfold millis
    omega

/-- The next frame that does not step back: a turn is added just when the timestamp wraps. -/
theorem Grown.next {k : Nat} {c : ClockPart} {first f : VideoFrame} (hk : 0 < k)
    (h : Grown k c first f) (hms : env.CutsMs c.timeBase k)
    (hlast : c.last = BitVec.ofNat 32 f.time) (hfirst : c.first ≠ 0) (hinitial : c.initial ≠ -1)
    (hbehind : first.time ≤ f.time) {f' : VideoFrame} (hle : f.time ≤ f'.time)
    (hlt : f'.time < f.time + 2 ^ 32) :
    Grown k (c.next env (BitVec.ofNat 32 f'.time)) first f' := by
  obtain ⟨grown, hshift, hlow, hhigh⟩ := h
  have hturn : turn 32 first.time ≤ turn 32 f.time := turn_mono hbehind
  unfold Grown ClockPart.next ClockPart.stamp
  unfold ClockPart.stamp at hshift
  dsimp only
  rw [if_neg hinitial, if_neg hfirst, hlast]
  by_cases hwrap : BitVec.ofNat 32 f'.time < BitVec.ofNat 32 f.time
  case pos =>
    have hnext := (ofNat_lt_iff hle hlt).mp hwrap
    have hcount : turn 32 f'.time - turn 32 first.time =
        turn 32 f.time - turn 32 first.time + 1 := by omega
    obtain ⟨hlow', hhigh'⟩ := parts_bounds hk (BitVec.ofNat 32 f.time).isLt
    rw [if_pos hwrap, turnMs_eq hms, hcount]
    refine ⟨grown + parts k (2 ^ 32) (BitVec.ofNat 32 f.time).toNat, ?_, ?_, ?_⟩
    · rw [BitVec.ofNat_add, ← BitVec.add_assoc, ← BitVec.add_assoc, hshift]
    · rw [Nat.mul_add, Nat.mul_add, Nat.mul_one]
      exact Nat.add_le_add hlow hlow'
    · rw [Nat.mul_add, Nat.mul_add, Nat.mul_add, Nat.mul_one, Nat.mul_one, Nat.mul_add]
      omega
  case neg =>
    have hsame := turn_eq_of_not_lt hle hlt hwrap
    rw [if_neg hwrap, hsame]
    exact ⟨grown, hshift, hlow, hhigh⟩

/-! ## The run -/

/-- The clock tells the time since the first frame. -/
structure InTime (k : Nat) (timeBase : BitVec 32) (d : Timeline) : Prop where
  base : d.info.videoTimeBase = timeBase
  last : ∀ f ∈ d.frames.head?, d.info.lastRtpVideoTs = BitVec.ofNat 32 f.time
  forward : d.frames.Pairwise fun later earlier => earlier.time ≤ later.time
  grown : ∀ f ∈ d.frames.head?, ∀ first ∈ d.frames.getLast?, d.info.firstVideoTs ≠ 0 →
    d.info.flv.initialVideoTs ≠ -1 → Grown k d.info.clockPart first f
  follows : ∀ f ∈ d.frames, ∀ first ∈ d.frames.getLast?, f.Follows k first

variable {k : Nat} {timeBase : BitVec 32} {d : Timeline}

/-- A call that makes no tag and keeps the offset once there is a first timestamp. -/
theorem InTime.kept (h : InTime k timeBase d) {x : Except Fault Rtp2FlvTransformInfo}
    (hx : KeepsFirst d.info x) :
    Ends (fun _ => True) (fun i => InTime k timeBase { info := i, frames := d.frames }) x := by
  refine Ends.mono hx fun i _ hi => ?_
  obtain ⟨hclock, hoffset⟩ := hi
  have hfirst : i.firstVideoTs = d.info.firstVideoTs := congrArg ClockPart.first hclock
  have hinitial : i.flv.initialVideoTs = d.info.flv.initialVideoTs :=
    congrArg ClockPart.initial hclock
  exact
    { base := (congrArg ClockPart.timeBase hclock).trans h.base
      last := fun f hf => (congrArg ClockPart.last hclock).trans (h.last f hf)
      forward := h.forward
      grown := fun f hf first hl hne hne' => by
        have hne₀ : d.info.firstVideoTs ≠ 0 := hfirst ▸ hne
        have hsame : i.clockPart = d.info.clockPart := by
          rw [hclock, hoffset hne₀]
          rfl
        show Grown k i.clockPart first f
        rw [hsame]
        exact h.grown f hf first hl hne₀ (hinitial ▸ hne')
      follows := h.follows }

/-- The first frame. -/
theorem InTime.putFirst (h : InTime k timeBase d) (hk : 0 < k) (hms : env.CutsMs timeBase k)
    {f : VideoFrame} (hstamp : d.info.videoFrameTs = BitVec.ofNat 32 f.time)
    {i : Rtp2FlvTransformInfo} (hclock : i.clockPart = d.info.clockPart.next env d.info.videoFrameTs)
    (htag : f.timestamp = i.clockPart.stamp (env.toMs d.info.videoFrameTs d.info.videoTimeBase)) :
    InTime k timeBase { info := i, frames := [f] } := by
  have hstamped : f.timestamp = i.clockPart.stamp (BitVec.ofNat 32 (millis k f.time)) := by
    rw [htag, hstamp, h.base, toMs_ofNat hms]
  have hgrown : Grown k i.clockPart f f := by
    refine ⟨0, ?_, ?_, ?_⟩
    · rw [hstamped]
      exact (BitVec.add_zero _).symm
    · exact Nat.zero_le _
    · rw [Nat.sub_self]
      exact Nat.zero_le _
  exact
    { base := (congrArg ClockPart.timeBase hclock).trans h.base
      last := fun g hg => by
        cases hg
        exact (congrArg ClockPart.last hclock).trans hstamp
      forward := List.pairwise_singleton _ _
      grown := fun g hg first hl _ _ => by
        cases hg
        cases hl
        exact hgrown
      follows := fun g hg first hl => by
        cases hl
        rw [List.mem_singleton.mp hg]
        exact hgrown.follows hk (Nat.le_refl _) hstamped }

/-- A frame behind the first one. -/
theorem InTime.putNext (h : InTime k timeBase d) (hk : 0 < k) (hms : env.CutsMs timeBase k)
    {f f' : VideoFrame} {rest : List VideoFrame} (hframes : d.frames = f :: rest)
    (hstamp : d.info.videoFrameTs = BitVec.ofNat 32 f'.time)
    (hle : f.time ≤ f'.time) (hlt : f'.time < f.time + 2 ^ 32) (hfirst : d.info.firstVideoTs ≠ 0)
    (hinitial : d.info.flv.initialVideoTs ≠ -1)
    {i : Rtp2FlvTransformInfo} (hclock : i.clockPart = d.info.clockPart.next env d.info.videoFrameTs)
    (htag : f'.timestamp = i.clockPart.stamp (env.toMs d.info.videoFrameTs d.info.videoTimeBase)) :
    InTime k timeBase { info := i, frames := f' :: d.frames } := by
  have hhead : f ∈ d.frames.head? := by
    rw [hframes]
    rfl
  have hbehind : ∀ g ∈ d.frames, g.time ≤ f.time := by
    intro g hg
    have hforward := h.forward
    rw [hframes] at hg hforward
    rcases List.mem_cons.mp hg with rfl | hg
    · exact Nat.le_refl _
    · exact (List.pairwise_cons.mp hforward).1 g hg
  have hlast : (f' :: d.frames).getLast? = d.frames.getLast? := by
    rw [hframes, List.getLast?_cons_cons]
  have hstamped : f'.timestamp = i.clockPart.stamp (BitVec.ofNat 32 (millis k f'.time)) := by
    rw [htag, hstamp, h.base, toMs_ofNat hms]
  have hgrown : ∀ first ∈ d.frames.getLast?, Grown k i.clockPart first f' := by
    intro first hl
    have hms' : env.CutsMs d.info.clockPart.timeBase k := by
      show env.CutsMs d.info.videoTimeBase k
      rw [h.base]
      exact hms
    rw [hclock, hstamp]
    exact (h.grown f hhead first hl hfirst hinitial).next hk hms' (h.last f hhead) hfirst hinitial
      (hbehind first (List.mem_of_getLast? hl)) hle hlt
  exact
    { base := (congrArg ClockPart.timeBase hclock).trans h.base
      last := fun g hg => by
        cases hg
        exact (congrArg ClockPart.last hclock).trans hstamp
      forward := List.pairwise_cons.mpr
        ⟨fun g hg => Nat.le_trans (hbehind g hg) hle, h.forward⟩
      grown := fun g hg first hl _ _ => by
        cases hg
        exact hgrown first (hlast ▸ hl)
      follows := fun g hg first hl => by
        have hl' : first ∈ d.frames.getLast? := hlast ▸ hl
        rcases List.mem_cons.mp hg with rfl | hg
        · refine (hgrown first hl').follows hk ?_ hstamped
          exact Nat.le_trans (hbehind first (List.mem_of_getLast? hl')) hle
        · exact h.follows g hg first hl' }

/-- One call. -/
theorem InTime.step (h : InTime k timeBase d) (hk : 0 < k) (hms : env.CutsMs timeBase k)
    {call : ClockCall} (hstamped : d.Stamped call) (hforward : d.Forward call) :
    Ends (fun _ => True) (InTime k timeBase) (d.step env call) := by
  have hkept : ∀ {x : Except Fault Rtp2FlvTransformInfo}, KeepsFirst d.info x →
      Ends (fun _ => True) (InTime k timeBase)
        (x.map fun i => { info := i, frames := d.frames }) := by
    intro x hx
    have hends := h.kept hx
    cases x with
    | error e => trivial
    | ok i => exact hends
  cases call with
  | append pkt len offset indicator =>
    exact hkept (append_keepsClock d.info pkt len offset indicator).keepsFirst
  | audio pkt len start => exact hkept (setAudio_keepsFirst pkt len _ d.info start)
  | pass => exact hkept (KeepsClock.keepsFirst (Eq.refl d.info.clockPart))
  | buffer j track =>
    refine hkept (KeepsClock.keepsFirst ?_)
    cases track with
    | audio => exact Eq.refl d.info.clockPart
    | video => exact Eq.refl d.info.clockPart
  | put time =>
    have hputs : Ends (fun _ => True) (PutsOrKeeps env d.info)
        (d.info.applyCall env (.put time)) := put_puts d.info time
    unfold Timeline.step
    cases happly : d.info.applyCall env (.put time) with
    | error e => trivial
    | ok i =>
      show InTime k timeBase
        { info := i, frames := ClockCall.tagged d.info i (.put time) ++ d.frames }
      unfold ClockCall.tagged
      dsimp only
      rcases hputs.of_ok happly with ⟨tag, hputs⟩ | ⟨hclock, hqueue⟩
      · have hstamp : d.info.videoFrameTs =
            BitVec.ofNat 32 (VideoFrame.mk time tag.timestamp i.videoOffset).time := hstamped
        rw [hputs.queue, List.drop_left]
        cases hframes : d.frames with
        | nil => exact h.putFirst hk hms hstamp hputs.clock hputs.timestamp
        | cons f rest =>
          have hhead : f ∈ d.frames.head? := by
            rw [hframes]
            rfl
          obtain ⟨⟨hle, hlt⟩, hfirst, hinitial⟩ := hforward f hhead
          rw [← hframes]
          exact h.putNext hk hms hframes hstamp hle hlt hfirst hinitial hputs.clock
            hputs.timestamp
      · rw [hqueue, List.drop_length]
        have hsame : KeepsClock d.info (.ok i) := hclock
        exact h.kept hsame.keepsFirst

theorem InTime.unwrapped (h : InTime k timeBase d) : d.Unwrapped k where
  follows := h.follows
  steady := by
    refine List.Pairwise.isChain (h.forward.imp fun hle hlt => ?_)
    exact absurd hlt (Nat.not_lt.mpr hle)

/-- From any state on, the tags of a stream tell the time that has passed since the first frame, as
long as no frame steps back and the first timestamps were noted. -/
theorem video_clock (env : RemuxerEnv) (info : Rtp2FlvTransformInfo) (k : Nat) (hk : 0 < k)
    (hrate : info.videoTimeBase.toNat = 1000 * k) (hms : env.ExactMs info.videoTimeBase)
    (calls : List ClockCall)
    (hstamped : Along (Timeline.step env) Timeline.Stamped { info := info, frames := [] } calls)
    (hforward : Along (Timeline.step env) Timeline.Forward { info := info, frames := [] } calls) :
    ∀ d, Timeline.run env { info := info, frames := [] } calls = .ok d → d.Unwrapped k := by
  intro d hrun
  have hstart : InTime k info.videoTimeBase { info := info, frames := [] } :=
    { base := rfl
      last := fun f hf => by cases hf
      forward := List.Pairwise.nil
      grown := fun f hf => by cases hf
      follows := fun f hf => by cases hf }
  have hends := (hstamped.and hforward).run
    (fun d call h hcall => InTime.step h hk (hms.cutsMs hrate) hcall.1 hcall.2) hstart
  exact (hends.of_ok hrun).unwrapped

/-! ## What `set_rtp` is made of -/

/-- One state leads to the other by calls. -/
def Reaches (env : RemuxerEnv) (info i : Rtp2FlvTransformInfo) : Prop :=
  ∃ calls : List ClockCall, calls.foldlM (applyCall env) info = .ok i

theorem Reaches.refl (info : Rtp2FlvTransformInfo) : Reaches env info info := ⟨[], rfl⟩

theorem Reaches.trans {i j : Rtp2FlvTransformInfo} (h : Reaches env info i)
    (h' : Reaches env i j) : Reaches env info j := by
  obtain ⟨calls, hcalls⟩ := h
  obtain ⟨calls', hcalls'⟩ := h'
  refine ⟨calls ++ calls', ?_⟩
  rw [List.foldlM_append, hcalls]
  exact hcalls'

/-- A computation that is made of calls, if it ends without a fault. -/
def MadeOfCalls (env : RemuxerEnv) (info : Rtp2FlvTransformInfo)
    (x : Except Fault Rtp2FlvTransformInfo) : Prop :=
  Ends (fun _ => True) (Reaches env info) x

theorem MadeOfCalls.of_call (call : ClockCall) : MadeOfCalls env info (info.applyCall env call) := by
  cases happly : info.applyCall env call with
  | error e => trivial
  | ok i =>
    refine ⟨[call], ?_⟩
    rw [List.foldlM_cons, happly]
    rfl

theorem MadeOfCalls.bind {x : Except Fault Rtp2FlvTransformInfo}
    {f : Rtp2FlvTransformInfo → Except Fault Rtp2FlvTransformInfo} (hx : MadeOfCalls env info x)
    (hf : ∀ i, MadeOfCalls env i (f i)) : MadeOfCalls env info (x >>= f) := by
  refine Ends.bind hx fun i _ hi => ?_
  exact Ends.mono (hf i) fun j _ hj => hi.trans hj

theorem putFrameIf_made (cond : Bool) (info : Rtp2FlvTransformInfo) :
    MadeOfCalls env info (info.putFrameIf env cond).result := by
  cases cond with
  | false => exact Reaches.refl info
  | true => exact MadeOfCalls.of_call (.put info.videoFrameTs.toNat)

theorem setRtpToBuffer_made (info : Rtp2FlvTransformInfo) (pkt : Rtp) (len : Nat) :
    MadeOfCalls env info (info.setRtpToBuffer env pkt len).result := by
  unfold setRtpToBuffer
  simp only [Emit.result_bind, Emit.result_lift]
  refine Ends.bind (ends_any _) fun offset _ _ => ?_
  split
  · unfold setVideo
    simp only [Emit.result_bind, Emit.result_lift]
    refine Ends.bind (ends_any _) fun indicator _ _ => ?_
    refine (putFrameIf_made _ info).bind fun i => ?_
    refine MadeOfCalls.bind ?_ fun i => putFrameIf_made _ i
    exact MadeOfCalls.of_call (.append pkt len offset indicator)
  · split
    · exact MadeOfCalls.of_call (.audio pkt len (BitVec.ofNat 32 offset))
    · exact Reaches.refl info

theorem drain_made (track : Track) (fuel : Nat) :
    ∀ info : Rtp2FlvTransformInfo, MadeOfCalls env info (drain env track fuel info).result := by
  induction fuel with
  | zero => exact fun _ => trivial
  | succ fuel ih =>
    intro info
    unfold drain
    simp only [Emit.result_bind, Emit.result_lift]
    refine Ends.bind (ends_any _) fun r _ _ => ?_
    obtain ⟨block, j⟩ := r
    have hset : Reaches env info (info.setBuffer j track) := ⟨[.buffer j track], rfl⟩
    cases block with
    | none => exact hset
    | some b =>
      simp only [Emit.result_bind]
      refine Ends.mono ((setRtpToBuffer_made (info.setBuffer j track) b.rtp b.block.rtpLen).bind ih)
        fun i _ hi => ?_
      exact hset.trans hi

theorem setTrack_made (info : Rtp2FlvTransformInfo) (track : Track) (pkt : Rtp) (len : Nat) :
    MadeOfCalls env info (info.setTrack env track pkt len).result := by
  unfold setTrack
  simp only [Emit.result_bind, Emit.result_lift]
  refine MadeOfCalls.bind ?_ fun i => drain_made track _ i
  unfold setBlock
  split
  · exact Ends.bind (ends_any _) fun j _ _ => ⟨[.buffer j track], rfl⟩
  · exact Reaches.refl info

/-- Whatever `set_rtp` does to a stream, it does by calls. -/
theorem setRtp_made (env : RemuxerEnv) (info : Rtp2FlvTransformInfo) (pkt : Rtp) (len : Nat) :
    MadeOfCalls env info (info.setRtp env pkt len).result := by
  have hpass : ∀ i : Rtp2FlvTransformInfo, MadeOfCalls env i
      (if i.isAudioOnly = true then pure i else i.setFlvToMm : Remux Rtp2FlvTransformInfo).result := by
    intro i
    split
    · exact Reaches.refl i
    · exact MadeOfCalls.of_call .pass
  unfold setRtp
  split
  · simp only [Emit.result_bind]
    exact (setTrack_made info .video pkt len).bind hpass
  · split
    · simp only [Emit.result_bind]
      exact (setTrack_made info .audio pkt len).bind hpass
    · exact hpass info

/-! ## Two streams -/

/-- A stream whose header is out, at 90 kHz. -/
def readyInfo (env : RemuxerEnv) (flv : FLV) : Rtp2FlvTransformInfo :=
  { new env with
    flv := flv
    videoTimeBase := 90000
    isSpsReach := true
    isPpsReach := true
    isAdtsReach := true }

/-- A picture of one packet. -/
def picturePacket (timestamp : BitVec 32) : Rtp :=
  { Rtp.zero with payload := RTP_AV_H264, timestamp := timestamp, data := [0x65, 1] }

/-- The calls that a picture sampled at `time` comes to. -/
def pictureCalls (time : Nat) : List ClockCall :=
  [.append (picturePacket (BitVec.ofNat 32 time)) (rtpHeaderLen + 2) 0 0x65, .put time]

theorem frameEnv_exactMs (timeBase : BitVec 32) : frameEnv.ExactMs timeBase := by
  intro _ ts
  show (ts / (timeBase / 1000)).toNat = _
  rw [BitVec.toNat_udiv, BitVec.toNat_udiv]
  rfl

namespace Timeline

/-- `Stamped` as a computation. -/
def stamps (d : Timeline) : ClockCall → Bool
  | .put time => d.info.videoFrameTs == BitVec.ofNat 32 time
  | _ => true

theorem stamped_of_stamps (d : Timeline) (call : ClockCall) (h : d.stamps call = true) :
    d.Stamped call := by
  cases call with
  | put time => exact eq_of_beq h
  | append pkt len offset indicator => trivial
  | audio pkt len start => trivial
  | pass => trivial
  | buffer j track => trivial

/-- `Forward` as a computation. -/
def advances (d : Timeline) : ClockCall → Bool
  | .put time => d.frames.head?.all fun f =>
      (decide (f.time ≤ time) && decide (time < f.time + 2 ^ 32)) &&
        (d.info.firstVideoTs != 0 && d.info.flv.initialVideoTs != -1)
  | _ => true

theorem forward_of_advances (d : Timeline) (call : ClockCall) (h : d.advances call = true) :
    d.Forward call := by
  cases call with
  | put time =>
    intro f hf
    unfold advances at h
    dsimp only at h
    rw [Option.mem_def.mp hf, Option.all_some] at h
    obtain ⟨htimes, hnoted⟩ := Bool.and_eq_true_iff.mp h
    obtain ⟨hle, hlt⟩ := Bool.and_eq_true_iff.mp htimes
    obtain ⟨hfirst, hinitial⟩ := Bool.and_eq_true_iff.mp hnoted
    exact ⟨⟨of_decide_eq_true hle, of_decide_eq_true hlt⟩, bne_iff_ne.mp hfirst,
      bne_iff_ne.mp hinitial⟩
  | append pkt len offset indicator => trivial
  | audio pkt len start => trivial
  | pass => trivial
  | buffer j track => trivial

/-- `Near` as a computation. -/
def nears (d : Timeline) : ClockCall → Bool
  | .put time => d.frames.head?.all fun f =>
      decide (f.time < time + 2 ^ 31) && decide (time < f.time + 2 ^ 31)
  | _ => true

theorem near_of_nears (d : Timeline) (call : ClockCall) (h : d.nears call = true) :
    d.Near call := by
  cases call with
  | put time =>
    intro f hf
    unfold nears at h
    dsimp only at h
    rw [Option.mem_def.mp hf, Option.all_some] at h
    obtain ⟨hback, hon⟩ := Bool.and_eq_true_iff.mp h
    exact ⟨of_decide_eq_true hback, of_decide_eq_true hon⟩
  | append pkt len offset indicator => trivial
  | audio pkt len start => trivial
  | pass => trivial
  | buffer j track => trivial

end Timeline

/-- A stream that goes on after a second description, so that its first tag has another time than 0. -/
def resumedInfo : Rtp2FlvTransformInfo :=
  readyInfo frameEnv { FLV.new [] with initialVideoTs := 5 }

/-- Three frames a second apart, the RTP timestamp wraps before the second one. -/
def wrappedFrames : List ClockCall :=
  [4294900000, 4294990000, 4295080000].flatMap pictureCalls

theorem video_clock_wrapped :
    0 < 90 ∧ resumedInfo.videoTimeBase.toNat = 1000 * 90 ∧
    frameEnv.ExactMs resumedInfo.videoTimeBase ∧
    Along (Timeline.step frameEnv) Timeline.Stamped { info := resumedInfo, frames := [] }
      wrappedFrames ∧
    Along (Timeline.step frameEnv) Timeline.Forward { info := resumedInfo, frames := [] }
      wrappedFrames ∧
    ∀ d, Timeline.run frameEnv { info := resumedInfo, frames := [] } wrappedFrames = .ok d →
      d.Unwrapped 90 :=
  have hstamped : Along (Timeline.step frameEnv) Timeline.Stamped
      { info := resumedInfo, frames := [] } wrappedFrames :=
    Along.of_check Timeline.stamped_of_stamps wrappedFrames (by decide +kernel)
  have hforward : Along (Timeline.step frameEnv) Timeline.Forward
      { info := resumedInfo, frames := [] } wrappedFrames :=
    Along.of_check Timeline.forward_of_advances wrappedFrames (by decide +kernel)
  ⟨by decide, rfl, frameEnv_exactMs _, hstamped, hforward,
    video_clock frameEnv resumedInfo 90 (by decide) rfl (frameEnv_exactMs _) wrappedFrames hstamped
      hforward⟩

/-- Two frames, the second of them a second earlier. -/
def reorderedFrames : List ClockCall := [900000, 810000].flatMap pictureCalls

/-- The tag of the earlier frame is a turn behind that of the later one. -/
theorem reordered_frame_adds_turn :
    ¬ ∀ (env : RemuxerEnv) (info : Rtp2FlvTransformInfo) (k : Nat), 0 < k →
      info.videoTimeBase.toNat = 1000 * k → env.ExactMs info.videoTimeBase →
      ∀ calls : List ClockCall,
        Along (Timeline.step env) Timeline.Stamped { info := info, frames := [] } calls →
        Along (Timeline.step env) Timeline.Near { info := info, frames := [] } calls →
        ∀ d, Timeline.run env { info := info, frames := [] } calls = .ok d → d.Unwrapped k := by
  intro hclaim
  have hstamped : Along (Timeline.step frameEnv) Timeline.Stamped
      { info := readyInfo frameEnv (FLV.new []), frames := [] } reorderedFrames :=
    Along.of_check Timeline.stamped_of_stamps reorderedFrames (by decide +kernel)
  have hnear : Along (Timeline.step frameEnv) Timeline.Near
      { info := readyInfo frameEnv (FLV.new []), frames := [] } reorderedFrames :=
    Along.of_check Timeline.near_of_nears reorderedFrames (by decide +kernel)
  have hframes : (Timeline.run frameEnv { info := readyInfo frameEnv (FLV.new []), frames := [] }
      reorderedFrames).toOption.any (fun d => d.frames ==
        [{ time := 810000, timestamp := 47721858, offset := 47721858 },
          { time := 900000, timestamp := 0, offset := 0 }]) = true := by
    decide +kernel
  cases hrun : Timeline.run frameEnv { info := readyInfo frameEnv (FLV.new []), frames := [] }
      reorderedFrames with
  | error e =>
    rw [hrun] at hframes
    cases hframes
  | ok d =>
    rw [hrun] at hframes
    have hlist : d.frames = [{ time := 810000, timestamp := 47721858, offset := 47721858 },
        { time := 900000, timestamp := 0, offset := 0 }] := eq_of_beq hframes
    have hunwrapped := hclaim frameEnv (readyInfo frameEnv (FLV.new [])) 90 (by decide) rfl
      (frameEnv_exactMs _) reorderedFrames hstamped hnear d hrun
    have hsteady := hunwrapped.steady
    rw [hlist] at hsteady
    have hoffset := (List.isChain_cons_cons.mp hsteady).1 (by decide)
    exact absurd hoffset (by decide)

end Rtp2FlvTransformInfo

end RtcMcu.MediaManager
