import RtcMcu.Avformat.PacketSizes
import RtcMcu.Avformat.RembRoundTrip
import RtcMcu.Avformat.RtcpWalk
import RtcMcu.ConnectionManager.MessageBounds
import RtcMcu.ConnectionManager.RecoveredPackets
import RtcMcu.ConnectionManager.PlayersAgree
import RtcMcu.ConnectionManager.StreamIsolation
import RtcMcu.Fragment.FlvBlock
import RtcMcu.Fragment.FragmentGenerator
import RtcMcu.MediaManager.CacheAnswers
import RtcMcu.MediaManager.CircularCache
import RtcMcu.MediaManager.FlvMerge
import RtcMcu.MediaManager.JitterOrder
import RtcMcu.MediaManager.PassThrough
import RtcMcu.MediaManager.LostSet
import RtcMcu.MediaManager.VideoClock
import RtcMcu.MediaManager.Republish
import RtcMcu.RtpTrans.MaskFec
import RtcMcu.RtpTrans.RowColumnFec
import RtcMcu.ConnectionManager.Framing
import RtcMcu.ConnectionManager.RequestDecoding
import RtcMcu.ConnectionManager.FlvLivePlayer
import RtcMcu.ConnectionManager.FecLoop
import RtcMcu.MediaManager.BlockLookup
import RtcMcu.Util.BufferQueue
import RtcMcu.Util.RawBuffer
import RtcMcu.Util.LatestEntry
import RtcMcu.Util.LinkedHashMap
import RtcMcu.RtpTrans.FecCoverage
import RtcMcu.Relay.PullLifetime
import RtcMcu.MediaManager.AacRoundTrip
import RtcMcu.MediaManager.H264RoundTrip
import RtcMcu.Avcodec.NalUnits
import RtcMcu.MediaManager.FrameCheck
import RtcMcu.MediaManager.FrameUnits
import RtcMcu.MediaManager.VideoTagData
import RtcMcu.MediaManager.ParameterSets
import RtcMcu.MediaManager.TimeBases
import RtcMcu.Avformat.NackRoundTrip
import RtcMcu.Avformat.ReportRoundTrip
import RtcMcu.RtpTrans.VideoDrop
import RtcMcu.Avformat.SdpBounds
import RtcMcu.RtpTrans.PacketAge
import RtcMcu.RtpTrans.LossReport
import RtcMcu.RtpTrans.ArrivalOrder
import RtcMcu.RtpTrans.Duplicates
import RtcMcu.RtpTrans.NackAccount
import RtcMcu.RtpTrans.RetransBudget
import RtcMcu.RtpTrans.NackCompleteness
import RtcMcu.RtpTrans.NackOrder
import RtcMcu.RtpTrans.NackSets
import RtcMcu.RtpTrans.SessionOps
import RtcMcu.Streamid
import RtcMcu.RtpTrans.FecXor
import RtcMcu.Util.FifoHashMap
import RtcMcu.Util.KetamaHash
import RtcMcu.Relay.PullRetry
import RtcMcu.CmdProtocol.Proto
import RtcMcu.ConnectionManager.TcpLink
import RtcMcu.Network.RtpSendQueue
import RtcMcu.RtpTrans.RepairRound
import RtcMcu.RtpTrans.RoundTripTime
import RtcMcu.Avcodec.SequenceParameterSet
