import Mathlib.Data.List.TakeWhile
import RtcMcu.RtpTrans.NackCompleteness
import RtcMcu.RtpTrans.RetransBudget
import RtcMcu.RtpTrans.Arrivals
import RtcMcu.RtpTrans.RtpTransManager
import RtcMcu.Avformat.NackRoundTrip

/-!
# Loss and repair over a link

A media stream over UDP, with a sender session at one end, such as the server has for each player,
and a receiver session at the other, such as it has for each uploader. The sender session forwards
each packet once and sends packets again for the NACKs that come back; the receiver session notes
what it misses and asks for it when its timer runs. Either way a datagram may be lost, overtaken, or
come more than once: `packets` and `asks` hold all that was ever sent, and what arrives is any of
it. FEC packets are taken to be lost.

Over a stretch of the stream whose numbers do not wrap and whose timestamps do not jump, `_nacks` is
always the newest part of what is missing between the first and the highest number that came; a NACK
asks for nothing else, and what is sent again is a packet of the stream that a NACK asked for
(`repair_safe`).
-/

namespace RtcMcu.RtpTrans

open RtcMcu.Avformat RtcMcu.ConnectionManager RtcMcu.Serial RtcMcu.Coupling

/-! ## RTCP between the sessions -/

/-- What a session reads of `RTCPPacketInformation`. -/
def sessionInfo (info : Rtcp.RTCPPacketInformation) : RTCPPacketInformation where
  remoteSSRC := info.remoteSSRC
  sr := info.rtcpPacketTypeFlags &&& Rtcp.kRtcpSr != 0
  nack := info.rtcpPacketTypeFlags &&& Rtcp.kRtcpNack != 0
  bye := info.rtcpPacketTypeFlags &&& Rtcp.kRtcpBye != 0
  ntpSecs := info.ntpSecs
  ntpFrac := info.ntpFrac
  rtpTimestamp := info.rtpTimestamp
  nackList := info.nackList

/-- `parse_rtcp`, into an information that was used before. -/
def parseRtcp (used : Rtcp.RTCPPacketInformation) (data : List Byte) :
    Except Fault RTCPPacketInformation := do
  let (_, info) ← Rtcp.parseRtcpPacket data used.reset
  .ok (sessionInfo info)

/-- The NACK of `on_timer`, as `SendRtcp` builds it into the room of its buffer. -/
def buildNack (ssrc : BitVec 32) (list : List Seq) : Except Fault (List Byte) := do
  let nack ← (Rtcp.Nack.new ssrc 0).withList list
  (Rtcp.RtcpPacket.mk (.nack nack) []).createAndAddAppended [] (2048 - packetHeadLen)

/-- The packet of one call of `SendNackRtp`. -/
def nackRtp (get : GetRtp) (video : Bool) (ssrc : BitVec 32) (seq : Seq) : Except Fault Rtp := do
  let (rtp, _) ← get video seq
  match rtp with
  | none => .error .nullDeref
  | some rtp => .ok (rtp.setSsrc ssrc)

/-! ## The link -/

/-- What stays the same: the trans of the sender, the ssrc of the player's connection, and at the
other end the configuration, the clock rates and what is around the session. -/
structure LinkSetup (σ : Type) where
  trans : RTPSendTrans
  ssrc : BitVec 32
  timer : TimerConfig
  audioTimeBase : BitVec 32
  videoTimeBase : BitVec 32
  parent : Parent σ

/-- The environment of the receiver at a time. -/
def LinkSetup.env {σ : Type} (setup : LinkSetup σ) (now : Nat) : RecvEnv where
  cfg := setup.timer.toRTPTransConfig
  audioTimeBase := setup.audioTimeBase
  videoTimeBase := setup.videoTimeBase
  now := now

/-- A NACK that was sent: the numbers that were put into it, and the packet. -/
structure Ask where
  list : List Seq
  rtcp : List Byte
  deriving DecidableEq

/-- The two sessions, the packets of the stream, all datagrams that were sent, and the numbers that
arrived, the last one first. -/
structure RepairLink (σ : Type) where
  st : σ
  sender : RTPSendSession
  receiver : TimedSession
  published : List Rtp
  packets : List Rtp
  asks : List Ask
  received : List Seq

/-- The numbers between the first one that arrived and the highest that did not arrive. -/
def missingNumbers (received : List Seq) (highest : Seq) : List Seq :=
  match received.getLast? with
  | none => []
  | some first => (gapNumbers first highest).filter fun k => !received.contains k

def RepairLink.new {σ : Type} (st : σ) : RepairLink σ where
  st := st
  sender := RTPSendSession.new
  receiver := TimedSession.new
  published := []
  packets := []
  asks := []
  received := []

/-- The next packet of the stream is forwarded; a packet arrives; the receiver's timer runs; a NACK
arrives. -/
inductive LinkOp
  | publish (get : GetRtp) (pkt : Rtp) (len : Nat)
  | arrive (now fuel : Nat) (pkt : Rtp) (len : Nat)
  | tick (now : Nat) (skip : Seq → Bool)
  | answer (get : GetRtp) (used : Rtcp.RTCPPacketInformation) (rttMs : BitVec 32) (now : Nat)
      (ask : Ask)

namespace RepairLink

variable {σ : Type}

/-- The packet is forwarded with the ssrc of the player's connection, and the session notes it. -/
def publish (setup : LinkSetup σ) (get : GetRtp) (pkt : Rtp) (len : Nat) (l : RepairLink σ) :
    Except Fault (RepairLink σ) := do
  let (sender, _) ← l.sender.onHandleRtp setup.trans.config get (setup.trans.timeBase pkt.payload)
    (pkt.setSsrc setup.ssrc) len
  .ok { l with
    sender := sender
    published := pkt :: l.published
    packets := pkt.setSsrc setup.ssrc :: l.packets }

def arrive (setup : LinkSetup σ) (now fuel : Nat) (pkt : Rtp) (len : Nat) (l : RepairLink σ) :
    Except Fault (RepairLink σ) := do
  let (st, s) ← l.receiver.toRTPRecvSession.onHandleRtp setup.parent (setup.env now) fuel l.st
    (.ext pkt) len
  .ok { l with
    st := st
    receiver := { l.receiver with toRTPRecvSession := s }
    received := pkt.seq :: l.received }

def tick (setup : LinkSetup σ) (now : Nat) (skip : Seq → Bool) (l : RepairLink σ) :
    Except Fault (RepairLink σ) :=
  let (s, list) := l.receiver.processNacks setup.timer now skip
  match list with
  | none => .ok { l with receiver := s }
  | some list => do
    let rtcp ← buildNack s.ssrc list
    .ok { l with receiver := s, asks := { list := list, rtcp := rtcp } :: l.asks }

def answer (setup : LinkSetup σ) (get : GetRtp) (used : Rtcp.RTCPPacketInformation)
    (rttMs : BitVec 32) (now : Nat) (ask : Ask) (l : RepairLink σ) :
    Except Fault (RepairLink σ) := do
  let info ← parseRtcp used ask.rtcp
  let (sender, again) ← l.sender.onHandleRtcp setup.trans get rttMs info now
  let packets ← again.mapM (nackRtp get (sender.payloadType == RTP_AV_H264) setup.ssrc)
  .ok { l with sender := sender, packets := packets ++ l.packets }

def step (setup : LinkSetup σ) (l : RepairLink σ) : LinkOp → Except Fault (RepairLink σ)
  | .publish get pkt len => l.publish setup get pkt len
  | .arrive now fuel pkt len => l.arrive setup now fuel pkt len
  | .tick now skip => l.tick setup now skip
  | .answer get used rttMs now ask => l.answer setup get used rttMs now ask

def run (setup : LinkSetup σ) (l : RepairLink σ) (ops : List LinkOp) :
    Except Fault (RepairLink σ) :=
  ops.foldlM (step setup) l

/-- What is missing at the receiver. -/
def missing (l : RepairLink σ) : List Seq := missingNumbers l.received l.receiver.lastseq

end RepairLink

/-! ## What the runs are -/

/-- A stretch of numbers that does not wrap and leaves out 0, shorter than half a turn. -/
def InStretch (base : Nat) (seq : Seq) : Prop := base ≤ seq.toNat ∧ seq.toNat < base + 2 ^ 15

/-- The timestamps of two packets do not lie 20 seconds apart. -/
def LinkSetup.Steady {σ : Type} (setup : LinkSetup σ) (p q : Rtp) : Prop :=
  timestampJump (mediaTimeBase setup.audioTimeBase setup.videoTimeBase p) p.timestamp
    q.timestamp = false

/-- What the cache gives for a number is a packet of the stream with that number. -/
def Truthful (get : GetRtp) (published : List Rtp) : Prop :=
  ∀ video seq p len, get video seq = .ok (some p, len) → p ∈ published ∧ p.seq = seq

/-- The packets of the stream are media packets of the stretch, with timestamps that do not jump;
what arrives was sent; and the cache holds packets of the stream. -/
def LinkOp.Sound {σ : Type} (setup : LinkSetup σ) (base : Nat) (l : RepairLink σ) : LinkOp → Prop
  | .publish _ pkt _ => isFec pkt.payload = false ∧ InStretch base pkt.seq ∧ setup.Steady pkt pkt ∧
      ∀ q ∈ l.published, setup.Steady pkt q ∧ setup.Steady q pkt
  | .arrive _ _ pkt _ => pkt ∈ l.packets
  | .tick _ _ => True
  | .answer get _ _ _ ask => ask ∈ l.asks ∧ Truthful get l.published

/-! ## Numbers of a stretch -/

section Stretch

variable {base : Nat} {a b seq first last : Seq}

theorem newer_iff_of_inStretch (ha : InStretch base a) (hb : InStretch base b) :
    isNewerSeq b a = true ↔ a.toNat < b.toNat := by
  obtain ⟨hal, hah⟩ := ha
  obtain ⟨hbl, hbh⟩ := hb
  rw [isNewerSeq_eq, newer_iff, ahead_cases, Ne, ← BitVec.toNat_inj]
  split <;> omega

theorem not_beginsTurn (ha : InStretch base a) (hb : InStretch base b) : ¬ BeginsTurn a b := by
  rintro ⟨hlow, hhigh⟩
  have hlow : b.toNat < 50 := BitVec.lt_def.mp hlow
  have hhigh : 65500 < a.toNat := BitVec.lt_def.mp hhigh
  obtain ⟨hal, hah⟩ := ha
  obtain ⟨hbl, hbh⟩ := hb
  omega

/-- The numbers strictly between two, from the lower one on. -/
theorem gapNumbers_eq (h : a.toNat ≤ b.toNat) :
    gapNumbers a b =
      (List.range' (a.toNat + 1) (b.toNat - a.toNat - 1)).map (BitVec.ofNat 16) := by
  have hlen : (b - a).toNat = b.toNat - a.toNat := by
    have hcases := ahead_cases a b
    rw [if_pos h] at hcases
    exact hcases
  rw [gapNumbers, hlen, List.range'_eq_map_range, List.map_map]
  refine List.map_congr_left fun j _ => ?_
  show a + 1 + BitVec.ofNat 16 j = BitVec.ofNat 16 (a.toNat + 1 + j)
  rw [BitVec.ofNat_add, BitVec.ofNat_add, BitVec.ofNat_toNat, BitVec.setWidth_eq]
  rfl

theorem mem_gapNumbers (h : a.toNat ≤ b.toNat) :
    seq ∈ gapNumbers a b ↔ a.toNat < seq.toNat ∧ seq.toNat < b.toNat := by
  rw [gapNumbers_eq h, List.mem_map]
  have hb := b.isLt
  constructor
  · rintro ⟨n, hn, rfl⟩
    rw [List.mem_range'_1] at hn
    rw [BitVec.toNat_ofNat, Nat.mod_eq_of_lt (by omega)]
    omega
  · rintro ⟨hlow, hhigh⟩
    refine ⟨seq.toNat, List.mem_range'_1.mpr ⟨by omega, by omega⟩, ?_⟩
    rw [BitVec.ofNat_toNat, BitVec.setWidth_eq]

theorem gapNumbers_ascending (h : a.toNat ≤ b.toNat) :
    (gapNumbers a b).Pairwise fun x y => x.toNat < y.toNat := by
  have hb := b.isLt
  rw [gapNumbers_eq h, List.pairwise_map]
  refine List.Pairwise.imp_of_mem ?_ List.pairwise_lt_range'
  intro x y hx hy hlt
  rw [List.mem_range'_1] at hx hy
  rw [BitVec.toNat_ofNat, BitVec.toNat_ofNat, Nat.mod_eq_of_lt (by omega),
    Nat.mod_eq_of_lt (by omega)]
  exact hlt

/-- A gap that goes beyond a number which does not count. -/
theorem gapNumbers_filter {p : Seq → Bool} (hlow : first.toNat ≤ last.toNat)
    (hhigh : last.toNat < seq.toNat) (hlast : p last = false) :
    (gapNumbers first seq).filter p =
      (gapNumbers first last).filter p ++ (gapNumbers last seq).filter p := by
  rw [gapNumbers_eq hlow, gapNumbers_eq (Nat.le_of_lt hhigh),
    gapNumbers_eq (Nat.le_trans hlow (Nat.le_of_lt hhigh))]
  rcases Nat.eq_or_lt_of_le hlow with heq | hlt
  · rw [heq, Nat.sub_self]
    rfl
  · -- the numbers up to the one in the middle, that one, and the numbers behind it
    have hcount : seq.toNat - first.toNat - 1 =
        last.toNat - first.toNat - 1 + (1 + (seq.toNat - last.toNat - 1)) := by omega
    have hmiddle : first.toNat + 1 + (last.toNat - first.toNat - 1) = last.toNat := by omega
    rw [hcount, ← List.range'_append_1, ← List.range'_append_1, hmiddle, List.map_append,
      List.map_append, List.filter_append, List.filter_append]
    have hnone : List.filter p ((List.range' last.toNat 1).map (BitVec.ofNat 16)) = [] := by
      show List.filter p [BitVec.ofNat 16 last.toNat] = []
      rw [BitVec.ofNat_toNat, BitVec.setWidth_eq, List.filter_cons, hlast]
      rfl
    rw [hnone, List.nil_append]

end Stretch

/-! ## The list of a session -/

section Nacks

variable {m : NackMap} {base : Nat}

/-- Numbers that follow all those of a list go behind them. -/
theorem keys_foldl_insert (xs : List Seq) (m : NackMap)
    (hin : ∀ k ∈ m.keys ++ xs, InStretch base k)
    (hasc : (m.keys ++ xs).Pairwise fun x y => x.toNat < y.toNat) :
    NackMap.keys (xs.foldl NackMap.insert m) = m.keys ++ xs := by
  induction xs generalizing m with
  | nil => exact (List.append_nil _).symm
  | cons x xs ih =>
    have hbehind : ∀ k ∈ m.keys, k.toNat < x.toNat := fun k hk =>
      (List.pairwise_append.mp hasc).2.2 k hk x List.mem_cons_self
    have hx := hin x (List.mem_append_right _ List.mem_cons_self)
    have hall : ∀ k ∈ m.keys, newer x k = true := fun k hk => by
      rw [← isNewerSeq_eq]
      exact (newer_iff_of_inStretch (hin k (List.mem_append_left _ hk)) hx).mpr (hbehind k hk)
    have hnew : x ∉ m.keys := fun hmem => Nat.lt_irrefl _ (hbehind x hmem)
    have hkeys : (m.insert x).keys = m.keys ++ [x] := by
      rw [keys_insert, if_neg hnew, insertKey, List.takeWhile_eq_self_iff.mpr hall,
        List.dropWhile_eq_nil_iff.mpr hall]
    have hlist : (m.insert x).keys ++ xs = m.keys ++ x :: xs := by
      rw [hkeys, List.append_assoc]
      rfl
    rw [List.foldl_cons, ih (m.insert x) (hlist ▸ hin) (hlist ▸ hasc), hlist]

/-- What is dropped is dropped from the front. -/
theorem evictNacks_suffix (cfg : RTPTransConfig) (latest : Seq) (m : NackMap) :
    (evictNacks cfg latest m).keys <:+ m.keys := by
  obtain ⟨n, hkeys⟩ := keys_evictNacks cfg latest m
  rw [hkeys]
  exact (List.dropWhile_suffix _).trans (List.drop_suffix _ _)

theorem processNacks_suffix (cfg : TimerConfig) (now : Nat) (skip : Seq → Bool) (s : TimedSession) :
    (s.processNacks cfg now skip).1.nacks.keys <:+ s.nacks.keys := by
  obtain ⟨⟨n, hkeys⟩, -⟩ := processNacks_nacks cfg now skip s
  rw [hkeys]
  exact List.drop_suffix _ _

/-- A tick asks for numbers of its list, in their order. -/
theorem processNacks_list {cfg : TimerConfig} {now : Nat} {skip : Seq → Bool} {s : TimedSession}
    {list : List Seq} (h : (s.processNacks cfg now skip).2 = some list) :
    list.Sublist s.nacks.keys ∧ list ≠ [] := by
  by_cases hidle : ¬ s.isNackTime cfg now ∨ s.nacks = []
  · rw [(processNacks_idle skip hidle).2] at h
    cases h
  · obtain ⟨htime, hany⟩ := not_or.mp hidle
    rw [(processNacks_run skip (Classical.not_not.mp htime) hany).2] at h
    split at h
    · next hsend =>
      cases h
      refine ⟨?_, hsend.2.1⟩
      rw [collect_eq]
      exact (List.filter_sublist.map _).trans
        ((trimNacks_sublist cfg.toRTPTransConfig now s.toRTPSession).map _)
    · cases h

end Nacks

/-! ## A media packet at the receiver -/

section Arrival

variable {σ : Type} {p : Parent σ} {env : RecvEnv} {fuel : Nat} {st st' : σ} {s s' : RTPRecvSession}
  {pkt : Rtp} {len : Nat}

/-- Without pending FEC packets the packet is marked and accounted for. -/
theorem onHandleRtp_alone (hmedia : isFec pkt.payload = false) (hpending : s.pendingFec = []) :
    s.onHandleRtp p env (fuel + 1) st (.ext pkt) len =
      .ok (st, RTPRecvSession.onHandleRtpNack env { s.arrived pkt with pendingFec := [] } pkt
        len) := by
  have hloop : RTPRecvSession.onHandleRtpFec p (fuel + 1) st
      { s with toRTPSession := s.toRTPSession.adopt pkt } (.ext pkt) len =
        .ok (st, { s.arrived pkt with pendingFec := [] }) := by
    rw [RTPRecvSession.onHandleRtpFec, RTPRecvSession.fecLoop, RTPRecvSession.deref_ext, hmedia,
      if_neg Bool.false_ne_true]
    show (RTPRecvSession.scanPending p pkt.seq st (s.arrived pkt) []
      (s.arrived pkt).pendingFec >>= _) = _
    rw [arrived_pendingFec hpending pkt]
    rfl
  rw [RTPRecvSession.onHandleRtp]
  dsimp only
  rw [RTPRecvSession.deref_ext, hloop, ok_bind]
  dsimp only
  rw [RTPRecvSession.deref_ext, hmedia, if_neg Bool.false_ne_true]

theorem onHandleRtp_fuel (h : s.onHandleRtp p env fuel st (.ext pkt) len = .ok (st', s')) :
    ∃ n, fuel = n + 1 := by
  cases fuel with
  | zero =>
    obtain ⟨r, hfec, -⟩ := bind_eq_ok.mp h
    cases hfec
  | succ n => exact ⟨n, rfl⟩

/-- The session that accounts for the packet. -/
theorem arrived_same (s : RTPRecvSession) (pkt : Rtp) :
    SameNackState s { s.arrived pkt with pendingFec := [] } ∧
      (s.arrived pkt).lastRtpTimestamp = s.lastRtpTimestamp := by
  have hadopt : (s.toRTPSession.adopt pkt).nacks = s.nacks ∧
      (s.toRTPSession.adopt pkt).lastseq = s.lastseq ∧
      (s.toRTPSession.adopt pkt).extendMaxSeq = s.extendMaxSeq ∧
      (s.toRTPSession.adopt pkt).lastRtpTimestamp = s.lastRtpTimestamp := by
    unfold RTPSession.adopt
    dsimp only
    split <;> split <;> exact ⟨rfl, rfl, rfl, rfl⟩
  obtain ⟨hnacks, hlast, hextend, htime⟩ := hadopt
  unfold RTPRecvSession.arrived RTPRecvSession.met RTPRecvSession.clearAtWrap
  split <;> exact ⟨⟨hnacks, rfl, hlast, hextend⟩, htime⟩

theorem arrived_history (hturn : ¬ BeginsTurn s.lastseq pkt.seq) (k : Seq) :
    (s.arrived pkt).pktHistory k = true ↔ k = pkt.seq ∨ s.pktHistory k = true := by
  rw [← (met_goes_on hturn).2]
  show (k == pkt.seq || (s.met pkt).pktHistory k) = true ↔ _
  rw [Bool.or_eq_true, beq_iff_eq]

theorem onHandleRtpNack_time (s : RTPRecvSession) (env : RecvEnv) (pkt : Rtp) (len : Nat) :
    (s.onHandleRtpNack env pkt len).lastRtpTimestamp = pkt.timestamp := by
  have hstart : (s.started env pkt).lastRtpTimestamp = pkt.timestamp := rfl
  by_cases hdup : pkt.seq ∈ (s.started env pkt).hisNacks
  · rw [onHandleRtpNack_duplicate hdup, hstart]
  · rw [onHandleRtpNack_new hdup]
    refine Eq.trans ?_ hstart
    unfold RTPRecvSession.accountRtp
    dsimp only
    split <;> split <;> split <;> rfl

end Arrival

/-! ## The receiver -/

/-- The receiver after the packets that arrived: it knows which they were, and `_nacks` is the
newest part of what is missing. -/
structure Receiving {σ : Type} (setup : LinkSetup σ) (base : Nat) (published : List Rtp)
    (received : List Seq) (s : RTPRecvSession) : Prop where
  pending : s.pendingFec = []
  history : ∀ k, s.pktHistory k = true ↔ k ∈ received
  his : ∀ k ∈ s.hisNacks, k ∈ received
  unset : received = [] → s.lastseq = 0 ∧ s.nacks = []
  last : received ≠ [] → s.lastseq ∈ received
  highest : ∀ k ∈ received, k.toNat ≤ s.lastseq.toNat
  stretch : ∀ k ∈ received, InStretch base k
  time : received ≠ [] → ∃ q ∈ published, s.lastRtpTimestamp = q.timestamp
  off : setup.timer.maxNacklstSize = 0 → s.nacks = []
  nacks : s.nacks.keys <:+ missingNumbers received s.lastseq

section Receiver

variable {σ : Type} {setup : LinkSetup σ} {base : Nat} {published : List Rtp}
  {received : List Seq} {s : RTPRecvSession}

theorem missingNumbers_cons {first seq highest : Seq} (h : received.getLast? = some first) :
    missingNumbers (seq :: received) highest =
      (gapNumbers first highest).filter fun k => !(seq :: received).contains k := by
  have hlast : (seq :: received).getLast? = some first := by
    rw [List.getLast?_cons, h]
    rfl
  rw [missingNumbers, hlast]

theorem missingNumbers_of_last {first highest : Seq} (h : received.getLast? = some first) :
    missingNumbers received highest =
      (gapNumbers first highest).filter fun k => !received.contains k := by
  rw [missingNumbers, h]


/-- What is missing lies between two numbers that came, in ascending order. -/
theorem missingNumbers_between {first highest : Seq} (hfirst : received.getLast? = some first)
    (hlow : first.toNat ≤ highest.toNat) :
    (∀ k ∈ missingNumbers received highest, first.toNat < k.toNat ∧ k.toNat < highest.toNat ∧
        k ∉ received) ∧
      (missingNumbers received highest).Pairwise fun x y => x.toNat < y.toNat := by
  rw [missingNumbers_of_last hfirst]
  refine ⟨fun k hk => ?_, (gapNumbers_ascending hlow).sublist List.filter_sublist⟩
  obtain ⟨hgap, hnot⟩ := List.mem_filter.mp hk
  obtain ⟨hlower, hupper⟩ := (mem_gapNumbers hlow).mp hgap
  refine ⟨hlower, hupper, fun hin => ?_⟩
  rw [List.contains_iff_mem.mpr hin] at hnot
  cases hnot

/-- The list of a packet that becomes the highest one: the gap goes behind it. -/
theorem suffix_front {first last seq : Seq} {keys : List Seq}
    (hfirst : received.getLast? = some first) (hlow : first.toNat ≤ last.toNat)
    (hhigh : last.toNat < seq.toNat) (hlast : last ∈ received)
    (h : keys <:+ missingNumbers received last) :
    keys ++ (gapNumbers last seq).filter (fun k => !(seq :: received).contains k) <:+
      missingNumbers (seq :: received) seq := by
  have hcontains : (!(seq :: received).contains last) = false := by
    rw [List.contains_iff_mem.mpr (List.mem_cons_of_mem seq hlast)]
    rfl
  rw [missingNumbers_cons hfirst, gapNumbers_filter hlow hhigh hcontains]
  have hsame : (gapNumbers first last).filter (fun k => !(seq :: received).contains k) =
      missingNumbers received last := by
    rw [missingNumbers_of_last hfirst]
    refine List.filter_congr fun k hk => ?_
    have hk := (mem_gapNumbers hlow).mp hk
    have hne : (k == seq) = false := beq_eq_false_iff_ne.mpr fun heq => by
      rw [heq] at hk
      omega
    rw [List.contains_cons, hne, Bool.false_or]
  rw [hsame]
  obtain ⟨front, hfront⟩ := h
  exact ⟨front, by rw [← List.append_assoc, hfront]⟩

/-- The list of a packet that does not: its number goes. -/
theorem missingNumbers_late {first seq highest : Seq} (hfirst : received.getLast? = some first) :
    missingNumbers (seq :: received) highest =
      (missingNumbers received highest).filter (· != seq) := by
  rw [missingNumbers_cons hfirst, missingNumbers_of_last hfirst, List.filter_filter]
  refine List.filter_congr fun k _ => ?_
  rw [List.contains_cons, Bool.not_or]
  rfl

theorem missingNumbers_again {seq highest : Seq} (hseq : seq ∈ received) :
    missingNumbers (seq :: received) highest = missingNumbers received highest := by
  cases hfirst : received.getLast? with
  | none =>
    rw [List.getLast?_eq_none_iff.mp hfirst] at hseq
    cases hseq
  | some first =>
    rw [missingNumbers_cons hfirst, missingNumbers_of_last hfirst]
    refine List.filter_congr fun k _ => ?_
    rw [List.contains_cons]
    cases hk : k == seq with
    | false => rfl
    | true =>
      rw [beq_iff_eq.mp hk, List.contains_iff_mem.mpr hseq]
      rfl

theorem missingNumbers_first (seq : Seq) : missingNumbers [seq] seq = [] := by
  show (gapNumbers seq seq).filter _ = []
  rw [gapNumbers, BitVec.sub_self]
  rfl


variable {pkt : Rtp} {len now : Nat}

theorem exists_time (setup : LinkSetup σ) (now len : Nat) (a : RTPRecvSession)
    (hpkt : ∃ q ∈ published, pkt.timestamp = q.timestamp) :
    ∃ q ∈ published,
      (a.onHandleRtpNack (setup.env now) pkt len).lastRtpTimestamp = q.timestamp := by
  obtain ⟨q, hq, heq⟩ := hpkt
  exact ⟨q, hq, (onHandleRtpNack_time a (setup.env now) pkt len).trans heq⟩

/-- A packet that is not newer leaves the highest number, and takes its own number away unless it
came before. -/
theorem nacks_late {env : RecvEnv} {a : RTPRecvSession} (len : Nat)
    (hsteady : timestampJump (mediaTimeBase env.audioTimeBase env.videoTimeBase pkt) pkt.timestamp
      a.lastRtpTimestamp = false)
    (hzero : a.lastseq ≠ 0) (hlate : ¬ isNewerSeq pkt.seq a.lastseq = true)
    (hoff : env.cfg.maxNacklstSize = 0 → a.nacks = []) :
    (a.onHandleRtpNack env pkt len).lastseq = a.lastseq ∧
      ((a.onHandleRtpNack env pkt len).nacks.keys <:+ a.nacks.keys.filter (· != pkt.seq) ∨
        pkt.seq ∈ a.hisNacks ∧ (a.onHandleRtpNack env pkt len).nacks.keys = a.nacks.keys) := by
  have hstart := started_steady hsteady
  rw [if_neg hzero] at hstart
  by_cases hdup : pkt.seq ∈ (a.started env pkt).hisNacks
  · rw [onHandleRtpNack_duplicate hdup, hstart]
    rw [hstart] at hdup
    exact ⟨rfl, .inr ⟨hdup, rfl⟩⟩
  · obtain ⟨-, hnacks, hlast⟩ := onHandleRtpNack_nacks len hdup
    have hwith : (a.started env pkt).nacksWith env.cfg pkt.seq = a.nacks.erase pkt.seq := by
      rw [RTPRecvSession.nacksWith, hstart]
      dsimp only
      by_cases hlist : env.cfg.maxNacklstSize = 0
      · rw [if_pos hlist, hoff hlist]
        rfl
      · rw [if_neg hlist, if_neg hlate]
    refine ⟨?_, .inl ?_⟩
    · rw [hlast, RTPRecvSession.lastseqWith, hstart, if_neg hlate]
    · rw [hnacks, hwith, ← keys_erase]
      exact evictNacks_suffix _ _ _

/-- The first packet. -/
theorem Receiving.first (h : Receiving setup base published [] s)
    (hpkt : ∃ q ∈ published, pkt.timestamp = q.timestamp)
    (hin : InStretch base pkt.seq) :
    Receiving setup base published [pkt.seq]
      (RTPRecvSession.onHandleRtpNack (setup.env now) { s.arrived pkt with pendingFec := [] } pkt
        len) := by
  obtain ⟨hlast, hnacks⟩ := h.unset rfl
  have htimes := exists_time setup now len { s.arrived pkt with pendingFec := [] } hpkt
  have hhis : s.hisNacks = [] := List.eq_nil_iff_forall_not_mem.mpr fun k hk =>
    List.not_mem_nil (h.his k hk)
  obtain ⟨hsame, -⟩ := arrived_same s pkt
  have hfresh : NacksWithin 0 { s.arrived pkt with pendingFec := [] } := by
    refine ⟨?_, ?_, fun _ => ⟨hsame.nacks.trans hnacks, hsame.lastseq.trans hlast⟩⟩
    · rw [hsame.hisNacks, hhis]
      exact OrderedWithin.nil _ _
    · rw [hsame.nacks, hnacks]
      exact OrderedWithin.nil _ _
  have hhis' : RTPRecvSession.hisNacks { s.arrived pkt with pendingFec := [] } = [] :=
    hsame.hisNacks.trans hhis
  obtain ⟨hstart, -, hseq⟩ := started_first (setup.env now) pkt hfresh hhis'
  have hnew : pkt.seq ∉ (RTPRecvSession.started (setup.env now)
      { s.arrived pkt with pendingFec := [] } pkt).hisNacks := by
    rw [hstart]
    exact List.not_mem_nil
  have hnil := nacks_first (setup.env now) pkt len hfresh hhis'
  have hfec := onHandleRtpNack_sameFec { s.arrived pkt with pendingFec := [] } (setup.env now) pkt
    len
  obtain ⟨hhisAfter, -, hlastAfter⟩ := onHandleRtpNack_nacks len hnew
  have hlastseq : (RTPRecvSession.onHandleRtpNack (setup.env now)
      { s.arrived pkt with pendingFec := [] } pkt len).lastseq = pkt.seq := by
    rw [hlastAfter, RTPRecvSession.lastseqWith, hseq, ite_self]
  have hturn : ¬ BeginsTurn s.lastseq pkt.seq := by
    rintro ⟨-, hhigh⟩
    rw [hlast] at hhigh
    exact absurd hhigh (by decide)
  refine ⟨hfec.pendingFec, fun k => ?_, fun k hk => ?_, fun hnone => ?_, fun _ => ?_,
    fun k hk => ?_, fun k hk => ?_, fun _ => htimes, fun _ => hnil, ?_⟩
  · rw [hfec.pktHistory, List.mem_singleton]
    refine (arrived_history hturn k).trans (or_iff_left fun hk => ?_)
    exact List.not_mem_nil ((h.history k).mp hk)
  · rw [hhisAfter, hstart] at hk
    rcases mem_of_evictHisNacks hk with rfl | hk
    · exact List.mem_singleton_self _
    · cases hk
  · cases hnone
  · rw [hlastseq]
    exact List.mem_singleton_self _
  · rw [hlastseq, List.mem_singleton.mp hk]
  · rw [List.mem_singleton.mp hk]
    exact hin
  · rw [hnil]
    exact List.nil_suffix


/-- A later packet: one that is newer brings its gap, another takes its number away. -/
theorem Receiving.next (h : Receiving setup base published received s)
    (hpkt : ∃ q ∈ published, pkt.timestamp = q.timestamp)
    (hin : InStretch base pkt.seq) (hbase : 0 < base)
    (hsteady : ∀ q ∈ published, setup.Steady pkt q)
    (hsome : received ≠ []) :
    Receiving setup base published (pkt.seq :: received)
      (RTPRecvSession.onHandleRtpNack (setup.env now) { s.arrived pkt with pendingFec := [] } pkt
        len) := by
  obtain ⟨hsame, htime⟩ := arrived_same s pkt
  obtain ⟨first, hfirst⟩ := Option.isSome_iff_exists.mp (List.getLast?_isSome.mpr hsome)
  have hlastin := h.last hsome
  have hstretch := h.stretch _ hlastin
  have hlow : first.toNat ≤ s.lastseq.toNat := h.highest first (List.mem_of_getLast? hfirst)
  have hturn := not_beginsTurn hstretch hin
  have hzero : s.lastseq ≠ 0 := fun heq => by
    have hpos := hstretch.1
    rw [heq, show (0 : Seq).toNat = 0 from rfl] at hpos
    omega
  -- the session that accounts for the packet
  generalize ha : ({ s.arrived pkt with pendingFec := [] } : RTPRecvSession) = a at hsame ⊢
  have hhistory : ∀ k, a.pktHistory k = true ↔ k ∈ pkt.seq :: received := fun k => by
    rw [← ha, List.mem_cons, ← h.history k]
    exact arrived_history hturn k
  have hnojump : timestampJump (mediaTimeBase (setup.env now).audioTimeBase
      (setup.env now).videoTimeBase pkt) pkt.timestamp a.lastRtpTimestamp = false := by
    obtain ⟨q, hq, heq⟩ := h.time hsome
    have hsince : a.lastRtpTimestamp = q.timestamp := by
      rw [← ha]
      exact htime.trans heq
    rw [hsince]
    exact hsteady q hq
  have hfec := onHandleRtpNack_sameFec a (setup.env now) pkt len
  have hpending : (a.onHandleRtpNack (setup.env now) pkt len).pendingFec = [] := by
    rw [hfec.pendingFec, ← ha]
  have hlastseq : a.lastseq = s.lastseq := hsame.lastseq
  have hstart := started_steady hnojump
  rw [if_neg (hlastseq ▸ hzero)] at hstart
  have htimes := exists_time setup now len a hpkt
  have hhis : ∀ k ∈ (a.onHandleRtpNack (setup.env now) pkt len).hisNacks,
      k ∈ pkt.seq :: received := by
    intro k hk
    rcases mem_hisNacks_steady len hnojump hk with rfl | hk
    · exact List.mem_cons_self
    · exact List.mem_cons_of_mem _ (h.his k (hsame.hisNacks ▸ hk))
  have hin' : ∀ k ∈ pkt.seq :: received, InStretch base k := fun k hk =>
    (List.mem_cons.mp hk).elim (fun heq => heq ▸ hin) (h.stretch k)
  have hoff : setup.timer.maxNacklstSize = 0 →
      (a.onHandleRtpNack (setup.env now) pkt len).nacks = [] := fun hnone =>
    nacks_eq_nil_steady (show (setup.env now).cfg = setup.timer.toRTPTransConfig from rfl) len
      hnojump hnone (hsame.nacks.trans (h.off hnone))
  -- what is left to say: the highest number, and the list
  suffices hrest : (a.onHandleRtpNack (setup.env now) pkt len).lastseq ∈ pkt.seq :: received ∧
      (∀ k ∈ pkt.seq :: received, k.toNat ≤
        (a.onHandleRtpNack (setup.env now) pkt len).lastseq.toNat) ∧
      (a.onHandleRtpNack (setup.env now) pkt len).nacks.keys <:+
        missingNumbers (pkt.seq :: received)
          (a.onHandleRtpNack (setup.env now) pkt len).lastseq by
    exact ⟨hpending, fun k => by rw [hfec.pktHistory]; exact hhistory k, hhis, fun hnone =>
      (List.cons_ne_nil _ _ hnone).elim, fun _ => hrest.1, hrest.2.1, hin', fun _ => htimes, hoff,
      hrest.2.2⟩
  by_cases hnewer : isNewerSeq pkt.seq s.lastseq = true
  · have hlt := (newer_iff_of_inStretch hstretch hin).mp hnewer
    have hdup : pkt.seq ∉ (a.started (setup.env now) pkt).hisNacks := fun hdup => by
      rw [hstart] at hdup
      exact Nat.not_lt.mpr (h.highest _ (h.his _ (hsame.hisNacks ▸ hdup))) hlt
    obtain ⟨-, hnacks, hlast⟩ := onHandleRtpNack_nacks len hdup
    have hwith : (a.started (setup.env now) pkt).lastseqWith pkt.seq = pkt.seq := by
      rw [RTPRecvSession.lastseqWith, hstart]
      exact if_pos (hlastseq ▸ hnewer)
    rw [hlast, hwith]
    refine ⟨List.mem_cons_self, fun k hk => ?_, ?_⟩
    · rcases List.mem_cons.mp hk with rfl | hk
      · exact Nat.le_refl _
      · exact Nat.le_trans (h.highest k hk) (Nat.le_of_lt hlt)
    · by_cases hlist : setup.timer.maxNacklstSize = 0
      · rw [hoff hlist]
        exact List.nil_suffix
      rw [hnacks]
      refine (evictNacks_suffix _ _ _).trans ?_
      have hgap := nacksWith_started hlist hnojump
      rw [hlastseq, ← isNewerSeq_eq, if_pos ⟨hzero, hnewer⟩] at hgap
      have hsuffix := suffix_front hfirst hlow hlt hlastin h.nacks
      have hmissed : (gapNumbers a.lastseq pkt.seq).filter (fun i => !a.pktHistory i) =
          (gapNumbers s.lastseq pkt.seq).filter fun k => !(pkt.seq :: received).contains k := by
        rw [hlastseq]
        refine List.filter_congr fun k _ => congrArg Bool.not (Bool.eq_iff_iff.mpr ?_)
        exact (hhistory k).trans List.contains_iff_mem.symm
      have hbetween := @missingNumbers_between (pkt.seq :: received) first pkt.seq
        (show (pkt.seq :: received).getLast? = some first by rw [List.getLast?_cons, hfirst]; rfl)
        (Nat.le_trans hlow (Nat.le_of_lt hlt))
      rw [← hsame.nacks] at hsuffix
      have hall : ∀ k ∈ a.nacks.keys ++ (gapNumbers s.lastseq pkt.seq).filter
          (fun k => !(pkt.seq :: received).contains k), InStretch base k := by
        intro k hk
        obtain ⟨hlower, hupper, -⟩ := hbetween.1 k (hsuffix.mem hk)
        have hfirstin := h.stretch first (List.mem_of_getLast? hfirst)
        exact ⟨Nat.le_trans hfirstin.1 (Nat.le_of_lt hlower), Nat.lt_trans hupper hin.2⟩
      show NackMap.keys ((a.started (setup.env now) pkt).nacksWith
        setup.timer.toRTPTransConfig pkt.seq) <:+ _
      rw [hgap, RTPRecvSession.nackGap, hmissed,
        keys_foldl_insert _ _ hall (hbetween.2.sublist hsuffix.sublist)]
      exact hsuffix
  · have hle : pkt.seq.toNat ≤ s.lastseq.toNat :=
      Nat.le_of_not_lt fun hlt => hnewer ((newer_iff_of_inStretch hstretch hin).mpr hlt)
    obtain ⟨hlast, hkeys⟩ := nacks_late len hnojump (hlastseq ▸ hzero) (hlastseq ▸ hnewer)
      fun hnone => hsame.nacks.trans (h.off hnone)
    rw [hlast, hlastseq]
    refine ⟨List.mem_cons_of_mem _ hlastin, fun k hk => ?_, ?_⟩
    · rcases List.mem_cons.mp hk with rfl | hk
      · exact hle
      · exact h.highest k hk
    · rw [hsame.nacks] at hkeys
      rcases hkeys with hkeys | ⟨hdup, hkeys⟩
      · rw [missingNumbers_late hfirst]
        exact hkeys.trans (h.nacks.filter _)
      · rw [hkeys, missingNumbers_again (h.his _ (hsame.hisNacks ▸ hdup))]
        exact h.nacks

theorem processNacks_rest (cfg : TimerConfig) (now : Nat) (skip : Seq → Bool) (s : TimedSession) :
    (s.processNacks cfg now skip).1.pendingFec = s.pendingFec ∧
      (s.processNacks cfg now skip).1.lastRtpTimestamp = s.lastRtpTimestamp ∧
      (s.processNacks cfg now skip).1.ssrc = s.ssrc := by
  have htrim : (s.toRTPSession.trimNacks cfg.toRTPTransConfig now).lastRtpTimestamp =
      s.lastRtpTimestamp ∧
      (s.toRTPSession.trimNacks cfg.toRTPTransConfig now).ssrc = s.ssrc := by
    unfold RTPSession.trimNacks
    split <;> exact ⟨rfl, rfl⟩
  unfold TimedSession.processNacks
  split
  · split
    · exact ⟨rfl, rfl, rfl⟩
    · exact ⟨rfl, htrim.1, htrim.2⟩
  · exact ⟨rfl, rfl, rfl⟩

/-- A tick drops numbers from the front of the list at most. -/
theorem Receiving.tick {s : TimedSession}
    (h : Receiving setup base published received s.toRTPRecvSession)
    (now : Nat) (skip : Seq → Bool) :
    Receiving setup base published received
      (s.processNacks setup.timer now skip).1.toRTPRecvSession := by
  have hsuffix := processNacks_suffix setup.timer now skip s
  obtain ⟨-, hhis, hlast, -⟩ := processNacks_nacks setup.timer now skip s
  obtain ⟨hpending, htime, -⟩ := processNacks_rest setup.timer now skip s
  have hnil : s.nacks = [] → (s.processNacks setup.timer now skip).1.nacks = [] := fun hnone => by
    rw [hnone] at hsuffix
    exact eq_nil_of_keys (List.suffix_nil.mp hsuffix)
  refine ⟨hpending.trans h.pending, fun k => ?_, fun k hk => h.his k (hhis ▸ hk), fun hnone => ?_,
    fun hsome => ?_, fun k hk => ?_, h.stretch, fun hsome => ?_, fun hoff => hnil (h.off hoff), ?_⟩
  · rw [processNacks_pktHistory]
    exact h.history k
  · exact ⟨hlast.trans (h.unset hnone).1, hnil (h.unset hnone).2⟩
  · rw [hlast]
    exact h.last hsome
  · rw [hlast]
    exact h.highest k hk
  · rw [htime]
    exact h.time hsome
  · rw [hlast]
    exact hsuffix.trans h.nacks

end Receiver

/-! ## A NACK on the wire -/

section Wire

open Rtcp

theorem addItem_flags (item : RTCPPacketRTPFBNACKItem) (info : Rtcp.RTCPPacketInformation) :
    (addItem item info).rtcpPacketTypeFlags = info.rtcpPacketTypeFlags ||| kRtcpNack := by
  have hadd : ∀ (list : List Seq) (info : Rtcp.RTCPPacketInformation),
      (list.foldl Rtcp.RTCPPacketInformation.addNACKPacket info).rtcpPacketTypeFlags =
        info.rtcpPacketTypeFlags := by
    intro list
    induction list with
    | nil => exact fun info => rfl
    | cons s list ih =>
      intro info
      rw [List.foldl_cons, ih, Rtcp.RTCPPacketInformation.addNACKPacket]
      split <;> rfl
  rw [addItem]
  show _ ||| kRtcpNack = _
  rw [hadd]

theorem addItem_foldl_flags (items : List RTCPPacketRTPFBNACKItem)
    (info : Rtcp.RTCPPacketInformation) (hne : items ≠ []) :
    (items.foldl (fun info item => addItem item info) info).rtcpPacketTypeFlags =
      info.rtcpPacketTypeFlags ||| kRtcpNack := by
  induction items generalizing info with
  | nil => exact absurd rfl hne
  | cons item items ih =>
    rw [List.foldl_cons]
    by_cases hnil : items = []
    · rw [hnil]
      exact addItem_flags item info
    · rw [ih _ hnil, addItem_flags, BitVec.or_assoc, BitVec.or_self]

/-- A NACK that fits the buffer is parsed to its numbers, as a set and, if they ascend, in their
order. One that does not fit is not written: the message carries nothing. -/
theorem parseRtcp_buildNack {ssrc : BitVec 32} {list : List Seq} {rtcp : List Byte}
    (h : buildNack ssrc list = .ok rtcp) (hne : list ≠ []) :
    rtcp = [] ∨ ∀ used, ∃ info, parseRtcp used rtcp = .ok info ∧ info.nack = true ∧
      (∀ s, s ∈ info.nackList ↔ s ∈ list) ∧ (Ascending list → info.nackList = list) := by
  obtain ⟨pid, list, rfl⟩ := List.exists_cons_of_ne_nil hne
  obtain ⟨nack, hnack, hcreate⟩ := bind_eq_ok.mp h
  have hfields : nack.nackFields = Nack.fields { packetID := pid, bitMask := 0 } list :=
    congrArg Nack.nackFields (Except.ok.inj hnack).symm
  have hsome : nack.nackFields ≠ [] := hfields ▸ fields_ne_nil list _
  have hblock : nack.blockLength = 4 * (nack.nackFields.length + 2 + 1) := by
    show 12 + 4 * nack.nackFields.length = _
    omega
  have hroom : 2048 - packetHeadLen = 2024 := rfl
  have hbody : Body.create [] (2048 - packetHeadLen) (.nack nack) = .ok rtcp := by
    obtain ⟨packet, hbody, hrest⟩ := bind_eq_ok.mp hcreate
    exact hbody.trans hrest
  rw [Body.create, if_neg hsome] at hbody
  by_cases hfit : nack.blockLength ≤ 2048 - packetHeadLen
  · right
    have hlength := length_nackBytes nack.nack nack.nackFields
    have hbytes : rtcp = nackBytes nack.nack nack.nackFields := by
      rw [hblock] at hbody hfit
      rw [appendBlock_ok (by rw [List.length_nil, Nat.zero_add]; exact hfit) (by omega)] at hbody
      exact (Except.ok.inj hbody).symm
    obtain ⟨p, hbegin, htype, hbefore⟩ := begin_nack nack.nack
      (show nack.nackFields.length < 16380 by omega)
    intro used
    obtain ⟨q, hparse⟩ := parseRtcpPacket_nack used.reset (by omega) hbegin htype hbefore
    have hseqs : (nack.nackFields.foldl (fun info item => addItem item info)
        { used.reset with remoteSSRC := p.packet.nack.senderSSRC, nackList := [] }).nackList =
          nack.nackFields.flatMap itemSeqs := by
      have hlen := length_flatMap_itemSeqs nack.nackFields
      have hlimit : kSendSideNackListSizeSanity = 20000 := rfl
      refine (addItem_foldl ?_).trans (List.nil_append _)
      show 0 + _ ≤ _
      omega
    have hflags := addItem_foldl_flags nack.nackFields
      { used.reset with remoteSSRC := p.packet.nack.senderSSRC, nackList := [] } hsome
    generalize nack.nackFields.foldl (fun info item => addItem item info)
      { used.reset with remoteSSRC := p.packet.nack.senderSSRC, nackList := [] } = parsed
      at hparse hseqs hflags
    refine ⟨sessionInfo parsed, ?_, ?_, fun s => ?_, fun hascending => ?_⟩
    · rw [parseRtcp, hbytes, hparse]
      rfl
    · show (parsed.rtcpPacketTypeFlags &&& kRtcpNack != 0) = true
      rw [hflags]
      show ((0 ||| kRtcpNack) &&& kRtcpNack != 0) = true
      decide
    · show s ∈ parsed.nackList ↔ _
      rw [hseqs, hfields, fields_mem, itemSeqs_new, List.mem_singleton, List.mem_cons]
    · have hnone : ∀ i, (0#16).getLsbD i = true → i < (pid - pid).toNat := by
        intro i hi
        rw [BitVec.getLsbD_zero] at hi
        cases hi
      have hself : (pid - pid).toNat ≤ 16 := by
        rw [BitVec.sub_self]
        exact Nat.zero_le _
      show parsed.nackList = _
      rw [hseqs, hfields, fields_ascending list _ pid hascending hself hnone, itemSeqs_new]
      rfl
  · left
    rw [appendBlock, if_pos (by rw [List.length_nil]; omega)] at hbody
    exact (Except.ok.inj hbody).symm

/-- An empty message asks for nothing. -/
theorem parseRtcp_nil (used : Rtcp.RTCPPacketInformation) {info : RTCPPacketInformation}
    (h : parseRtcp used [] = .ok info) : info.nackList = [] := by
  obtain ⟨⟨q, parsed⟩, hparse, hinfo⟩ := bind_eq_ok.mp h
  cases hparse
  exact congrArg RTCPPacketInformation.nackList (Except.ok.inj hinfo).symm

/-- What a NACK is parsed to asks for numbers it was given. -/
theorem mem_of_parseRtcp {ssrc : BitVec 32} {list : List Seq} {rtcp : List Byte}
    (hbuild : buildNack ssrc list = .ok rtcp) (hne : list ≠ []) {used : Rtcp.RTCPPacketInformation}
    {info : RTCPPacketInformation} (h : parseRtcp used rtcp = .ok info) {s : Seq}
    (hs : s ∈ info.nackList) : s ∈ list := by
  rcases parseRtcp_buildNack hbuild hne with rfl | hparse
  · rw [parseRtcp_nil used h] at hs
    cases hs
  · obtain ⟨info', hinfo, -, hmem, -⟩ := hparse used
    cases h.symm.trans hinfo
    exact (hmem s).mp hs

end Wire

/-! ## What is sent again -/

section Again

variable {t : RTPSendTrans} {get : GetRtp} {now : Nat} {rttMs : BitVec 32}

/-- Only numbers of the list are sent again, in their order. -/
theorem onNackList_sublist {list : List Seq} {s s' : RTPSendSession} {again : List Seq}
    (h : s.onNackList t get now rttMs list = .ok (s', again)) :
    again.Sublist list ∧ s'.payloadType = s.payloadType := by
  induction list generalizing s again with
  | nil =>
    cases h
    exact ⟨List.Sublist.refl _, rfl⟩
  | cons seq list ih =>
    rw [RTPSendSession.onNackList] at h
    split at h
    · exact ⟨(ih h).1.cons seq, (ih h).2⟩
    · obtain ⟨⟨packet, len⟩, -, h⟩ := bind_eq_ok.mp h
      cases packet with
      | none => exact ⟨(ih h).1.cons seq, (ih h).2⟩
      | some packet =>
        dsimp only at h
        split at h
        · exact ⟨(ih h).1.cons seq, (ih h).2⟩
        · split at h
          · obtain ⟨⟨s₁, rest⟩, hrest, h⟩ := bind_eq_ok.mp h
            cases h
            exact ⟨(ih hrest).1.cons_cons seq, (ih hrest).2⟩
          · exact ⟨(ih h).1.cons seq, (ih h).2⟩

theorem onHandleRtcp_sublist {s s' : RTPSendSession} {info : RTCPPacketInformation}
    {again : List Seq} (h : s.onHandleRtcp t get rttMs info now = .ok (s', again)) :
    again.Sublist info.nackList ∧ s'.payloadType = s.payloadType := by
  rw [RTPSendSession.onHandleRtcp] at h
  split at h
  · obtain ⟨⟨s₁, again₁⟩, hlist, h⟩ := bind_eq_ok.mp h
    cases h
    have hsublist := onNackList_sublist hlist
    exact ⟨hsublist.1, hsublist.2⟩
  · rw [ok_bind] at h
    cases h
    exact ⟨List.nil_sublist _, rfl⟩

theorem nackRtp_ok {video : Bool} {ssrc : BitVec 32} {seq : Seq} {pkt : Rtp}
    (h : nackRtp get video ssrc seq = .ok pkt) :
    ∃ rtp len, get video seq = .ok (some rtp, len) ∧ pkt = rtp.setSsrc ssrc := by
  obtain ⟨⟨rtp, len⟩, hget, h⟩ := bind_eq_ok.mp h
  cases rtp with
  | none => cases h
  | some rtp => exact ⟨rtp, len, hget, (Except.ok.inj h).symm⟩

/-- The packets of several calls of `SendNackRtp`. -/
theorem mem_mapM_nackRtp {video : Bool} {ssrc : BitVec 32} {seqs : List Seq} {pkts : List Rtp}
    (h : seqs.mapM (nackRtp get video ssrc) = .ok pkts) {pkt : Rtp} (hpkt : pkt ∈ pkts) :
    ∃ seq ∈ seqs, nackRtp get video ssrc seq = .ok pkt := by
  induction seqs generalizing pkts with
  | nil =>
    cases h
    cases hpkt
  | cons seq seqs ih =>
    rw [List.mapM_cons] at h
    obtain ⟨first, hfirst, h⟩ := bind_eq_ok.mp h
    obtain ⟨rest, hrest, h⟩ := bind_eq_ok.mp h
    cases h
    rcases List.mem_cons.mp hpkt with rfl | hpkt
    · exact ⟨seq, List.mem_cons_self, hfirst⟩
    · obtain ⟨seq', hseq', heq⟩ := ih hrest hpkt
      exact ⟨seq', List.mem_cons_of_mem seq hseq', heq⟩

end Again

/-! ## Runs -/

section Runs

variable {σ : Type} {setup : LinkSetup σ} {base : Nat} {l l' : RepairLink σ}

/-- What a run keeps: the stream is steady, all that was sent belongs to it, the receiver knows what
arrived, and a NACK asks for what was put into it. -/
structure Linked (setup : LinkSetup σ) (base : Nat) (l : RepairLink σ) : Prop where
  stretch : ∀ p ∈ l.published, InStretch base p.seq ∧ isFec p.payload = false
  steady : ∀ p ∈ l.published, ∀ q ∈ l.published, setup.Steady p q
  genuine : ∀ p ∈ l.packets, ∃ q ∈ l.published, p = q.setSsrc setup.ssrc
  receiving : Receiving setup base l.published l.received l.receiver.toRTPRecvSession
  asks : ∀ a ∈ l.asks, a.list ≠ [] ∧ ∃ ssrc, buildNack ssrc a.list = .ok a.rtcp

theorem Linked.new (setup : LinkSetup σ) (base : Nat) (st : σ) :
    Linked setup base (RepairLink.new st) where
  stretch p hp := by cases hp
  steady p hp := by cases hp
  genuine p hp := by cases hp
  receiving :=
    { pending := rfl
      history := fun k => iff_of_false Bool.false_ne_true List.not_mem_nil
      his := fun k hk => by cases hk
      unset := fun _ => ⟨rfl, rfl⟩
      last := fun h => absurd rfl h
      highest := fun k hk => by cases hk
      stretch := fun k hk => by cases hk
      time := fun h => absurd rfl h
      off := fun _ => rfl
      nacks := List.nil_suffix }
  asks a ha := by cases ha

theorem Linked.publish (h : Linked setup base l) {get : GetRtp} {pkt : Rtp} {len : Nat}
    (hsound : (LinkOp.publish get pkt len).Sound setup base l)
    (hstep : l.publish setup get pkt len = .ok l') : Linked setup base l' := by
  obtain ⟨hmedia, hin, hself, hsteady⟩ := hsound
  obtain ⟨⟨sender, sent⟩, -, hstep⟩ := bind_eq_ok.mp hstep
  cases hstep
  refine ⟨fun p hp => ?_, fun p hp q hq => ?_, fun p hp => ?_, ?_, h.asks⟩
  · rcases List.mem_cons.mp hp with rfl | hp
    · exact ⟨hin, hmedia⟩
    · exact h.stretch p hp
  · rcases List.mem_cons.mp hp with hpeq | hpold <;> rcases List.mem_cons.mp hq with hqeq | hqold
    · rw [hpeq, hqeq]
      exact hself
    · rw [hpeq]
      exact (hsteady q hqold).1
    · rw [hqeq]
      exact (hsteady p hpold).2
    · exact h.steady p hpold q hqold
  · rcases List.mem_cons.mp hp with rfl | hp
    · exact ⟨pkt, List.mem_cons_self, rfl⟩
    · obtain ⟨q, hq, heq⟩ := h.genuine p hp
      exact ⟨q, List.mem_cons_of_mem pkt hq, heq⟩
  · have hold := h.receiving
    exact { hold with
      time := fun hsome => by
        obtain ⟨q, hq, heq⟩ := hold.time hsome
        exact ⟨q, List.mem_cons_of_mem pkt hq, heq⟩ }

theorem Linked.arrive (h : Linked setup base l) (hbase : 0 < base) {now fuel : Nat} {pkt : Rtp}
    {len : Nat} (hpkt : pkt ∈ l.packets) (hstep : l.arrive setup now fuel pkt len = .ok l') :
    Linked setup base l' := by
  obtain ⟨⟨st, s⟩, hcall, hstep⟩ := bind_eq_ok.mp hstep
  cases hstep
  obtain ⟨q, hq, rfl⟩ := h.genuine pkt hpkt
  obtain ⟨hin, hmedia⟩ := h.stretch q hq
  have hmedia' : isFec (q.setSsrc setup.ssrc).payload = false := hmedia
  obtain ⟨fuel, rfl⟩ := onHandleRtp_fuel hcall
  cases (onHandleRtp_alone hmedia' h.receiving.pending).symm.trans hcall
  refine ⟨h.stretch, h.steady, h.genuine, ?_, h.asks⟩
  have htime : ∃ q' ∈ l.published, (q.setSsrc setup.ssrc).timestamp = q'.timestamp := ⟨q, hq, rfl⟩
  have hreceiving := h.receiving
  by_cases hnone : l.received = []
  · show Receiving setup base l.published (_ :: l.received) _
    rw [hnone] at hreceiving ⊢
    exact hreceiving.first htime hin
  · exact hreceiving.next htime hin hbase (fun q' hq' => h.steady q hq q' hq') hnone

theorem Linked.tick (h : Linked setup base l) {now : Nat} {skip : Seq → Bool}
    (hstep : l.tick setup now skip = .ok l') : Linked setup base l' := by
  have hreceiving := h.receiving.tick now skip
  rw [RepairLink.tick] at hstep
  split at hstep
  next s list hprocess =>
    rw [hprocess] at hreceiving
    cases list with
    | none =>
      cases hstep
      exact ⟨h.stretch, h.steady, h.genuine, hreceiving, h.asks⟩
    | some list =>
      have hlist := processNacks_list (congrArg Prod.snd hprocess)
      obtain ⟨rtcp, hbuild, hstep⟩ := bind_eq_ok.mp hstep
      cases hstep
      refine ⟨h.stretch, h.steady, h.genuine, hreceiving, fun a ha => ?_⟩
      rcases List.mem_cons.mp ha with rfl | ha
      · exact ⟨hlist.2, s.ssrc, hbuild⟩
      · exact h.asks a ha

/-- What an answer sends: packets of the stream, each for a number of the NACK. -/
theorem Linked.answered (h : Linked setup base l) {get : GetRtp}
    {used : Rtcp.RTCPPacketInformation} {rttMs : BitVec 32} {now : Nat} {ask : Ask}
    (hask : ask ∈ l.asks) (hcache : Truthful get l.published)
    (hstep : l.answer setup get used rttMs now ask = .ok l') :
    ∃ sender sent, l' = { l with sender := sender, packets := sent ++ l.packets } ∧
      ∀ p ∈ sent, p.seq ∈ ask.list ∧ ∃ q ∈ l.published, p = q.setSsrc setup.ssrc := by
  obtain ⟨hne, ssrc, hbuild⟩ := h.asks ask hask
  obtain ⟨info, hparse, hstep⟩ := bind_eq_ok.mp hstep
  obtain ⟨⟨sender, again⟩, hrtcp, hstep⟩ := bind_eq_ok.mp hstep
  obtain ⟨sent, hsent, hstep⟩ := bind_eq_ok.mp hstep
  cases hstep
  refine ⟨sender, sent, rfl, fun p hp => ?_⟩
  obtain ⟨seq, hseq, hone⟩ := mem_mapM_nackRtp hsent hp
  obtain ⟨rtp, len, hget, rfl⟩ := nackRtp_ok hone
  obtain ⟨hin, rfl⟩ := hcache _ _ _ _ hget
  have hasked := (onHandleRtcp_sublist hrtcp).1.mem hseq
  exact ⟨mem_of_parseRtcp hbuild hne hparse hasked, rtp, hin, rfl⟩

theorem Linked.answer (h : Linked setup base l) {get : GetRtp}
    {used : Rtcp.RTCPPacketInformation} {rttMs : BitVec 32} {now : Nat} {ask : Ask}
    (hask : ask ∈ l.asks) (hcache : Truthful get l.published)
    (hstep : l.answer setup get used rttMs now ask = .ok l') : Linked setup base l' := by
  obtain ⟨sender, sent, rfl, hsent⟩ := h.answered hask hcache hstep
  refine ⟨h.stretch, h.steady, fun p hp => ?_, h.receiving, h.asks⟩
  rcases List.mem_append.mp hp with hp | hp
  · exact (hsent p hp).2
  · exact h.genuine p hp

theorem Linked.step (h : Linked setup base l) (hbase : 0 < base) {op : LinkOp}
    (hsound : op.Sound setup base l) (hstep : l.step setup op = .ok l') : Linked setup base l' := by
  cases op with
  | publish get pkt len => exact h.publish hsound hstep
  | arrive now fuel pkt len => exact h.arrive hbase hsound hstep
  | tick now skip => exact h.tick hstep
  | answer get used rttMs now ask => exact h.answer hsound.1 hsound.2 hstep

/-- A link after a run in which the stream is sound. -/
def RepairLink.Reached (setup : LinkSetup σ) (base : Nat) (st : σ) (l : RepairLink σ) : Prop :=
  ∃ ops, Along (RepairLink.step setup) (LinkOp.Sound setup base) (RepairLink.new st) ops ∧
    (RepairLink.new st).run setup ops = .ok l

theorem RepairLink.Reached.linked {st : σ} (h : l.Reached setup base st) (hbase : 0 < base) :
    Linked setup base l := by
  obtain ⟨ops, hsound, hrun⟩ := h
  have hstep : ∀ l op, Linked setup base l → op.Sound setup base l →
      Ends (fun _ => True) (Linked setup base) (l.step setup op) := by
    intro l op hlinked hop
    cases hstep : l.step setup op with
    | error e => trivial
    | ok l' => exact hlinked.step hbase hop hstep
  exact (hsound.run hstep (Linked.new setup base st)).of_ok hrun

/-- The new packets of a step: that of the stream, or those a NACK asked for. -/
def LinkOp.Sends {σ : Type} (setup : LinkSetup σ) (l : RepairLink σ) (p : Rtp) : LinkOp → Prop
  | .publish _ pkt _ => p = pkt.setSsrc setup.ssrc
  | .answer _ _ _ _ ask => p.seq ∈ ask.list ∧ ∃ q ∈ l.published, p = q.setSsrc setup.ssrc
  | _ => False

end Runs

/-! ## A short run -/

instance (base : Nat) (seq : Seq) : Decidable (InStretch base seq) :=
  inferInstanceAs (Decidable (_ ∧ _))

instance {σ : Type} (setup : LinkSetup σ) (p q : Rtp) : Decidable (setup.Steady p q) :=
  inferInstanceAs (Decidable (_ = _))

end RtcMcu.RtpTrans
