import Ns3Rmcat.Header.Rtcp

/-! The RTP header: its flags, the fields of a media packet, and the contributing sources, which
are a set that is written in increasing order. -/
namespace Ns3Rmcat.Header
open Lib

structure RtpHeader where
  padding : Bool
  extension : Bool
  marker : Bool
  payloadType : UInt8
  sequence : UInt16
  timestamp : UInt32
  ssrc : UInt32
  csrcs : Std.ExtTreeSet UInt32
  deriving DecidableEq

namespace RtpHeader

def ofPayloadType (payloadType : UInt8) : RtpHeader where
  padding := false
  extension := false
  marker := false
  payloadType := payloadType
  sequence := 0
  timestamp := 0
  ssrc := 0
  csrcs := ∅

def fresh : RtpHeader := ofPayloadType 0

def getSerializedSize (h : RtpHeader) : Checked UInt32 := do
  check (h.csrcs.size ≤ 0x0f)
  return 2 + 2 + 4 + 4 + (UInt32.ofNat h.csrcs.size &&& 0x0f) * 4

/-- Version, padding and extension bits, and the number of contributing sources. -/
def firstOctet (h : RtpHeader) : UInt8 :=
  rtpHdrSetBit (rtpHdrSetBit ((0 : UInt8) ||| (rtpVersion <<< 6)) 5 h.padding) 4 h.extension |||
    (UInt8.ofNat h.csrcs.size &&& 0x0f)

def secondOctet (h : RtpHeader) : UInt8 := rtpHdrSetBit 0 7 h.marker ||| (h.payloadType &&& 0x7f)

def serialize (h : RtpHeader) : Checked Octets := do
  check (h.csrcs.size ≤ 0x0f)
  check (h.payloadType ≤ 0x7f)
  return writeU8 h.firstOctet ++ (writeU8 h.secondOctet ++ (writeHtonU16 h.sequence ++ (writeHtonU32 h.timestamp ++
    (writeHtonU32 h.ssrc ++ h.csrcs.toList.flatMap writeHtonU32))))

/-- So many contributing sources; one that has been read already is a fault. -/
def deserializeCsrcs : Nat → Std.ExtTreeSet UInt32 → Octets → Checked (Std.ExtTreeSet UInt32 × Octets)
  | 0, csrcs, start => .ok (csrcs, start)
  | count + 1, csrcs, start => do
    let (csrc, start) ← readNtohU32 start
    check (csrcs.contains csrc = false)
    deserializeCsrcs count (csrcs.insert csrc) start

/-- The number of bytes that is returned, the header, and the octets that were not read. -/
def deserialize (h : RtpHeader) (start : Octets) : Checked (UInt32 × RtpHeader × Octets) := do
  let (octet1, start) ← readU8 start
  let version := octet1 >>> 6
  let h := { h with padding := rtpHdrGetBit octet1 5, extension := rtpHdrGetBit octet1 4 }
  let csrcCount := octet1 &&& 0x0f
  let (octet2, start) ← readU8 start
  let h := { h with marker := rtpHdrGetBit octet2 7, payloadType := octet2 &&& 0x7f }
  let (sequence, start) ← readNtohU16 start
  let (timestamp, start) ← readNtohU32 start
  let (ssrc, start) ← readNtohU32 start
  let h := { h with sequence, timestamp, ssrc, csrcs := ∅ }
  let (csrcs, start) ← deserializeCsrcs csrcCount.toNat h.csrcs start
  let h := { h with csrcs }
  check (version = rtpVersion)
  return (← h.getSerializedSize, h, start)

end RtpHeader

end Ns3Rmcat.Header
