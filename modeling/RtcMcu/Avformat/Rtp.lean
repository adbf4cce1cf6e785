import RtcMcu.Base

/-!
# RTP and FEC headers

The structures of `avformat/rtp.h`. A C structure laid over a byte buffer is here a record of its
bit fields with a reader and a writer of its bytes, in the layout the compiler gives it on the
little-endian machine the server runs on: the first bit field of a byte takes its low bits.
`get_seq`, `get_rtp_timestamp` and their like convert from network order, so a record holds the
value these accessors return. The `length_recovery` fields are stored without a conversion, in
host order.
-/

namespace RtcMcu.Avformat

/-! ## Payload types -/

/-- `RTPAVType`. The code casts the seven-bit payload field to it, whatever the value. -/
abbrev RTPAVType := BitVec 7

def RTP_AV_NULL : RTPAVType := 0
def RTP_AV_MP3 : RTPAVType := 14
def RTP_AV_H264 : RTPAVType := 96
def RTP_AV_AAC : RTPAVType := 97
def RTP_AV_F_FEC : RTPAVType := 126
def RTP_AV_FEC : RTPAVType := 127

/-- The payload is a FEC packet of one of the two kinds. -/
def isFec (payload : RTPAVType) : Bool := payload == RTP_AV_FEC || payload == RTP_AV_F_FEC

/-! ## Integers in byte order -/

def be16 (x : BitVec 16) : List Byte := [x.extractLsb' 8 8, x.extractLsb' 0 8]

def le16 (x : BitVec 16) : List Byte := [x.extractLsb' 0 8, x.extractLsb' 8 8]

def be32 (x : BitVec 32) : List Byte :=
  [x.extractLsb' 24 8, x.extractLsb' 16 8, x.extractLsb' 8 8, x.extractLsb' 0 8]

/-- Byte `i` of a memory image, zero past its end. -/
def byteAt (m : List Byte) (i : Nat) : Byte := m.getD i 0

def rdBe16 (m : List Byte) (i : Nat) : BitVec 16 := byteAt m i ++ byteAt m (i + 1)

def rdLe16 (m : List Byte) (i : Nat) : BitVec 16 := byteAt m (i + 1) ++ byteAt m i

def rdBe32 (m : List Byte) (i : Nat) : BitVec 32 :=
  byteAt m i ++ byteAt m (i + 1) ++ byteAt m (i + 2) ++ byteAt m (i + 3)

/-! ## RTP_FIXED_HEADER -/

/-- `RTP_FIXED_HEADER`, twelve bytes. -/
structure RtpFixedHeader where
  csrcLen : BitVec 4
  extension : BitVec 1
  padding : BitVec 1
  version : BitVec 2
  payload : RTPAVType
  marker : BitVec 1
  seq : Seq
  timestamp : BitVec 32
  ssrc : BitVec 32
  deriving DecidableEq, Repr

/-- `sizeof(RTP_FIXED_HEADER)`. -/
def rtpHeaderLen : Nat := 12

/-- The first byte of the header, as `*((uint8_t*)pkt)` reads it. -/
def RtpFixedHeader.byte0 (h : RtpFixedHeader) : Byte :=
  h.version ++ h.padding ++ h.extension ++ h.csrcLen

def RtpFixedHeader.byte1 (h : RtpFixedHeader) : Byte := h.marker ++ h.payload

def RtpFixedHeader.bytes (h : RtpFixedHeader) : List Byte :=
  h.byte0 :: h.byte1 :: (be16 h.seq ++ (be32 h.timestamp ++ be32 h.ssrc))

def RtpFixedHeader.read (m : List Byte) : RtpFixedHeader where
  csrcLen := (byteAt m 0).extractLsb' 0 4
  extension := (byteAt m 0).extractLsb' 4 1
  padding := (byteAt m 0).extractLsb' 5 1
  version := (byteAt m 0).extractLsb' 6 2
  payload := (byteAt m 1).extractLsb' 0 7
  marker := (byteAt m 1).extractLsb' 7 1
  seq := rdBe16 m 2
  timestamp := rdBe32 m 4
  ssrc := rdBe32 m 8

/-- The memory an `RTP_FIXED_HEADER*` points to: the header and the bytes of `data[]` after it. -/
structure Rtp extends RtpFixedHeader where
  data : List Byte
  deriving DecidableEq, Repr

/-- The length of a packet whose memory is exactly the packet. -/
def Rtp.len (p : Rtp) : Nat := rtpHeaderLen + p.data.length

def Rtp.bytes (p : Rtp) : List Byte := p.toRtpFixedHeader.bytes ++ p.data

/-- The packet at the head of a memory image. -/
def Rtp.read (m : List Byte) : Rtp :=
  { RtpFixedHeader.read m with data := m.drop rtpHeaderLen }

/-- The first `len` bytes of the memory at a packet pointer, which `memcpy` copies. -/
def Rtp.copy (p : Rtp) (len : Nat) : Rtp := { p with data := p.data.take (len - rtpHeaderLen) }

def Rtp.setSsrc (p : Rtp) (ssrc : BitVec 32) : Rtp := { p with ssrc := ssrc }

/-- `memset(_pkt_data, 0, 2048)`. -/
def Rtp.zero : Rtp where
  csrcLen := 0
  extension := 0
  padding := 0
  version := 0
  payload := 0
  marker := 0
  seq := 0
  timestamp := 0
  ssrc := 0
  data := List.replicate (2048 - rtpHeaderLen) 0

/-! ## FEC_HEADER and FEC_EXTEND_HEADER -/

/-- `FEC_HEADER`, twelve bytes: the header of a mask-FEC packet. -/
structure FecHeader where
  snBase : Seq
  lengthRecovery : BitVec 16
  payload : RTPAVType
  e : BitVec 1
  mask : BitVec 24
  timestamp : BitVec 32
  deriving DecidableEq, Repr

def fecHeaderLen : Nat := 12

def FecHeader.byte4 (h : FecHeader) : Byte := h.e ++ h.payload

def FecHeader.bytes (h : FecHeader) : List Byte :=
  be16 h.snBase ++ (le16 h.lengthRecovery ++ (h.byte4 ::
    h.mask.extractLsb' 16 8 :: h.mask.extractLsb' 8 8 :: h.mask.extractLsb' 0 8 ::
      be32 h.timestamp))

def FecHeader.read (m : List Byte) : FecHeader where
  snBase := rdBe16 m 0
  lengthRecovery := rdLe16 m 2
  payload := (byteAt m 4).extractLsb' 0 7
  e := (byteAt m 4).extractLsb' 7 1
  mask := byteAt m 5 ++ byteAt m 6 ++ byteAt m 7
  timestamp := rdBe32 m 8

/-- `FEC_EXTEND_HEADER`, one byte. Where it is written as the xor of first bytes of RTP headers,
the version bits fall on `marker` and `flags`. -/
structure FecExtendHeader where
  csrcLen : BitVec 4
  extension : BitVec 1
  padding : BitVec 1
  marker : BitVec 1
  flags : BitVec 1
  deriving DecidableEq, Repr

def fecExtendHeaderLen : Nat := 1

def FecExtendHeader.byte (h : FecExtendHeader) : Byte :=
  h.flags ++ h.marker ++ h.padding ++ h.extension ++ h.csrcLen

def FecExtendHeader.read (b : Byte) : FecExtendHeader where
  csrcLen := b.extractLsb' 0 4
  extension := b.extractLsb' 4 1
  padding := b.extractLsb' 5 1
  marker := b.extractLsb' 6 1
  flags := b.extractLsb' 7 1

/-! ## F_FEC_HEADER -/

/-- `F_FEC_HEADER`, twenty bytes: the header of a row/column-FEC packet. The fields `ssrc_count`,
`reserved` and `ssrc` are left at zero by the sender and not read by the receiver. -/
structure FFecHeader where
  csrcLen : BitVec 4
  extension : BitVec 1
  padding : BitVec 1
  msk : BitVec 2
  payload : RTPAVType
  marker : BitVec 1
  lengthRecovery : BitVec 16
  timestamp : BitVec 32
  snBase : Seq
  m : BitVec 8
  n : BitVec 8
  deriving DecidableEq, Repr

def fFecHeaderLen : Nat := 20

def FFecHeader.byte0 (h : FFecHeader) : Byte := h.msk ++ h.padding ++ h.extension ++ h.csrcLen

def FFecHeader.byte1 (h : FFecHeader) : Byte := h.marker ++ h.payload

def FFecHeader.bytes (h : FFecHeader) : List Byte :=
  h.byte0 :: h.byte1 :: (le16 h.lengthRecovery ++ (be32 h.timestamp ++
    (List.replicate 8 0 ++ (be16 h.snBase ++ [h.m, h.n]))))

def FFecHeader.read (m : List Byte) : FFecHeader where
  csrcLen := (byteAt m 0).extractLsb' 0 4
  extension := (byteAt m 0).extractLsb' 4 1
  padding := (byteAt m 0).extractLsb' 5 1
  msk := (byteAt m 0).extractLsb' 6 2
  payload := (byteAt m 1).extractLsb' 0 7
  marker := (byteAt m 1).extractLsb' 7 1
  lengthRecovery := rdLe16 m 2
  timestamp := rdBe32 m 4
  snBase := rdBe16 m 16
  m := byteAt m 18
  n := byteAt m 19

/-! ## Reading back what was written -/

@[simp] theorem byteAt_cons_zero (b : Byte) (m : List Byte) : byteAt (b :: m) 0 = b := rfl

@[simp] theorem byteAt_cons_succ (b : Byte) (m : List Byte) (i : Nat) :
    byteAt (b :: m) (i + 1) = byteAt m i := rfl

/-- The two halves of a 16-bit value. -/
theorem join16 (x : BitVec 16) : x.extractLsb' 8 8 ++ x.extractLsb' 0 8 = x :=
  BitVec.extractLsb'_append_extractLsb'

/-- The four bytes of a 32-bit value. -/
theorem join32 (x : BitVec 32) :
    x.extractLsb' 24 8 ++ x.extractLsb' 16 8 ++ x.extractLsb' 8 8 ++ x.extractLsb' 0 8 = x := by
  rw [BitVec.extractLsb'_append_extractLsb'_eq_extractLsb' (by decide),
    BitVec.extractLsb'_append_extractLsb'_eq_extractLsb' (by decide)]
  exact BitVec.extractLsb'_append_extractLsb'

/-- The three bytes of a 24-bit mask. -/
theorem join24 (x : BitVec 24) :
    x.extractLsb' 16 8 ++ x.extractLsb' 8 8 ++ x.extractLsb' 0 8 = x := by
  rw [BitVec.extractLsb'_append_extractLsb'_eq_extractLsb' (by decide)]
  exact BitVec.extractLsb'_append_extractLsb'

/-! ### Bit fields of the packed bytes -/

section Fields

variable (h : RtpFixedHeader)

@[simp] theorem RtpFixedHeader.byte0_csrcLen : h.byte0.extractLsb' 0 4 = h.csrcLen :=
  BitVec.extractLsb'_append_eq_right

@[simp] theorem RtpFixedHeader.byte0_extension : h.byte0.extractLsb' 4 1 = h.extension :=
  (BitVec.extractLsb'_append_eq_of_le (by decide)).trans BitVec.extractLsb'_append_eq_right

@[simp] theorem RtpFixedHeader.byte0_padding : h.byte0.extractLsb' 5 1 = h.padding :=
  (BitVec.extractLsb'_append_eq_of_le (by decide)).trans
    ((BitVec.extractLsb'_append_eq_of_le (by decide)).trans BitVec.extractLsb'_append_eq_right)

@[simp] theorem RtpFixedHeader.byte0_version : h.byte0.extractLsb' 6 2 = h.version :=
  (BitVec.extractLsb'_append_eq_of_le (by decide)).trans
    ((BitVec.extractLsb'_append_eq_of_le (by decide)).trans BitVec.extractLsb'_append_eq_left)

@[simp] theorem RtpFixedHeader.byte1_payload : h.byte1.extractLsb' 0 7 = h.payload :=
  BitVec.extractLsb'_append_eq_right

@[simp] theorem RtpFixedHeader.byte1_marker : h.byte1.extractLsb' 7 1 = h.marker :=
  BitVec.extractLsb'_append_eq_left

end Fields

section Fields

variable (h : FecExtendHeader)

@[simp] theorem FecExtendHeader.byte_csrcLen : h.byte.extractLsb' 0 4 = h.csrcLen :=
  BitVec.extractLsb'_append_eq_right

@[simp] theorem FecExtendHeader.byte_extension : h.byte.extractLsb' 4 1 = h.extension :=
  (BitVec.extractLsb'_append_eq_of_le (by decide)).trans BitVec.extractLsb'_append_eq_right

@[simp] theorem FecExtendHeader.byte_padding : h.byte.extractLsb' 5 1 = h.padding :=
  (BitVec.extractLsb'_append_eq_of_le (by decide)).trans
    ((BitVec.extractLsb'_append_eq_of_le (by decide)).trans BitVec.extractLsb'_append_eq_right)

@[simp] theorem FecExtendHeader.byte_marker : h.byte.extractLsb' 6 1 = h.marker :=
  (BitVec.extractLsb'_append_eq_of_le (by decide)).trans
    ((BitVec.extractLsb'_append_eq_of_le (by decide)).trans
      ((BitVec.extractLsb'_append_eq_of_le (by decide)).trans BitVec.extractLsb'_append_eq_right))

@[simp] theorem FecExtendHeader.byte_flags : h.byte.extractLsb' 7 1 = h.flags :=
  (BitVec.extractLsb'_append_eq_of_le (by decide)).trans
    ((BitVec.extractLsb'_append_eq_of_le (by decide)).trans
      ((BitVec.extractLsb'_append_eq_of_le (by decide)).trans BitVec.extractLsb'_append_eq_left))

end Fields

section Fields

variable (h : FFecHeader)

@[simp] theorem FFecHeader.byte0_csrcLen : h.byte0.extractLsb' 0 4 = h.csrcLen :=
  BitVec.extractLsb'_append_eq_right

@[simp] theorem FFecHeader.byte0_extension : h.byte0.extractLsb' 4 1 = h.extension :=
  (BitVec.extractLsb'_append_eq_of_le (by decide)).trans BitVec.extractLsb'_append_eq_right

@[simp] theorem FFecHeader.byte0_padding : h.byte0.extractLsb' 5 1 = h.padding :=
  (BitVec.extractLsb'_append_eq_of_le (by decide)).trans
    ((BitVec.extractLsb'_append_eq_of_le (by decide)).trans BitVec.extractLsb'_append_eq_right)

@[simp] theorem FFecHeader.byte0_msk : h.byte0.extractLsb' 6 2 = h.msk :=
  (BitVec.extractLsb'_append_eq_of_le (by decide)).trans
    ((BitVec.extractLsb'_append_eq_of_le (by decide)).trans BitVec.extractLsb'_append_eq_left)

@[simp] theorem FFecHeader.byte1_payload : h.byte1.extractLsb' 0 7 = h.payload :=
  BitVec.extractLsb'_append_eq_right

@[simp] theorem FFecHeader.byte1_marker : h.byte1.extractLsb' 7 1 = h.marker :=
  BitVec.extractLsb'_append_eq_left

end Fields

@[simp] theorem FecHeader.byte4_payload (h : FecHeader) : h.byte4.extractLsb' 0 7 = h.payload :=
  BitVec.extractLsb'_append_eq_right

@[simp] theorem FecHeader.byte4_e (h : FecHeader) : h.byte4.extractLsb' 7 1 = h.e :=
  BitVec.extractLsb'_append_eq_left

/-! ### Whole headers -/

@[simp] theorem RtpFixedHeader.read_bytes (h : RtpFixedHeader) (rest : List Byte) :
    RtpFixedHeader.read (h.bytes ++ rest) = h := by
  simp only [RtpFixedHeader.read, RtpFixedHeader.bytes, be16, be32, rdBe16, rdBe32,
    List.cons_append, List.nil_append, byteAt_cons_zero, byteAt_cons_succ, Nat.reduceAdd,
    RtpFixedHeader.byte0_csrcLen, RtpFixedHeader.byte0_extension, RtpFixedHeader.byte0_padding,
    RtpFixedHeader.byte0_version, RtpFixedHeader.byte1_payload, RtpFixedHeader.byte1_marker,
    join16, join32]

/-- A packet's bytes read back as the packet. -/
theorem Rtp.read_bytes (p : Rtp) : Rtp.read p.bytes = p := by
  have hdrop : p.bytes.drop rtpHeaderLen = p.data := rfl
  simp only [Rtp.read, hdrop]
  simp only [Rtp.bytes, RtpFixedHeader.read_bytes]

theorem Rtp.bytes_length (p : Rtp) : p.bytes.length = p.len := by
  simp only [Rtp.bytes, RtpFixedHeader.bytes, be16, be32, Rtp.len, rtpHeaderLen,
    List.cons_append, List.nil_append, List.length_cons]
  omega

@[simp] theorem FecHeader.read_bytes (h : FecHeader) (rest : List Byte) :
    FecHeader.read (h.bytes ++ rest) = h := by
  simp only [FecHeader.read, FecHeader.bytes, be16, be32, le16, rdBe16, rdBe32, rdLe16,
    List.cons_append, List.nil_append, byteAt_cons_zero, byteAt_cons_succ, Nat.reduceAdd,
    FecHeader.byte4_payload, FecHeader.byte4_e, join16, join24, join32]

@[simp] theorem FecHeader.bytes_length (h : FecHeader) : h.bytes.length = fecHeaderLen := rfl

@[simp] theorem FecExtendHeader.read_byte (h : FecExtendHeader) :
    FecExtendHeader.read h.byte = h := by
  simp only [FecExtendHeader.read, FecExtendHeader.byte_csrcLen, FecExtendHeader.byte_extension,
    FecExtendHeader.byte_padding, FecExtendHeader.byte_marker, FecExtendHeader.byte_flags]

@[simp] theorem FFecHeader.read_bytes (h : FFecHeader) (rest : List Byte) :
    FFecHeader.read (h.bytes ++ rest) = h := by
  simp only [FFecHeader.read, FFecHeader.bytes, be16, be32, le16, rdBe16, rdBe32, rdLe16,
    List.replicate_succ, List.replicate_zero, List.cons_append, List.nil_append,
    byteAt_cons_zero, byteAt_cons_succ, Nat.reduceAdd,
    FFecHeader.byte0_csrcLen, FFecHeader.byte0_extension, FFecHeader.byte0_padding,
    FFecHeader.byte0_msk, FFecHeader.byte1_payload, FFecHeader.byte1_marker, join16, join32]

@[simp] theorem FFecHeader.bytes_length (h : FFecHeader) : h.bytes.length = fFecHeaderLen := rfl

end RtcMcu.Avformat
