import Ns3Rmcat.Header.Rtcp
import Ns3Rmcat.Lib.SerialNumber

/-! The congestion control feedback header: report blocks by SSRC and sequence number,
each sent as the shortest window that has all its numbers, and arrival times as offsets. -/
namespace Ns3Rmcat.Header
open Lib

namespace CCFeedback

def overrange : UInt16 := 0x1FFE
def unavailable : UInt16 := 0x1FFF

/-- What is recorded about one packet; the offset is used while reading only. -/
structure MetricBlock where
  ecn : UInt8
  timestampUs : UInt64
  ato : UInt16 := 0
  deriving DecidableEq, Repr

abbrev ReportBlock := Std.ExtTreeMap UInt16 MetricBlock

instance : LawfulBEq ReportBlock := inferInstance

inductive RejectReason where
  | none
  | duplicate
  | badEcn
  | tooLong
  deriving DecidableEq, Repr

/-- The difference of two words, as the numbers that they are. -/
def gap (low high : UInt16) : Int := (high.toNat : Int) - low.toNat

/-- The loop over all numbers but the first two: the last number, and the two neighbours that
are farthest apart. -/
def widestGap (high maxLo maxHi : UInt16) : List UInt16 → Checked (UInt16 × UInt16 × UInt16)
  | [] => .ok (high, maxLo, maxHi)
  | seq :: seqs => do
    let low := high
    let high := seq
    check (low < high)
    check (maxLo < maxHi)
    if gap maxLo maxHi < gap low high then widestGap high low high seqs
    else widestGap high maxLo maxHi seqs

/-- The window begins behind the widest gap between neighbours, and stops before it. -/
def calculateBeginStopSeq (rb : ReportBlock) : Checked (UInt16 × UInt16) :=
  match rb.keys with
  | [] => .error .assertion
  | [first] => .ok (first, first + 1)
  | first :: second :: seqs => do
    let (high, maxLo, maxHi) ← widestGap second first second seqs
    check (maxLo < maxHi)
    let (maxLo, maxHi) := if gap maxLo maxHi < (first - high).toNat then (high, first) else (maxLo, maxHi)
    let maxLo := maxLo + 1
    check (maxHi ≠ maxLo)
    return (maxHi, maxLo)

/-- Time in seconds times 0x10000, as a word. -/
def usToNtp (tsUs : UInt64) : UInt32 :=
  let tsSeconds : ℚ := tsUs.toNat / 1000 / 1000
  UInt32.ofNat (tsSeconds * 0x10000).floor.toNat

def ntpToUs (ntp : UInt32) : UInt64 :=
  let tsSeconds : ℚ := ntp.toNat / 0x10000
  UInt64.ofNat (tsSeconds * 1000 * 1000).floor.toNat

def ntpToAto (ntp ntpRef : UInt32) : Checked UInt16 := do
  check (ntp ≤ ntpRef)
  let atoNtp := ntpRef - ntp
  let atoNtpRounded := atoNtp + ((1 : UInt32) <<< 5)
  let ato := (atoNtpRounded >>> 6).toUInt16
  return min ato overrange

def atoToNtp (ato : UInt16) (ntpRef : UInt32) : Checked UInt32 := do
  check (ato < unavailable)
  let atoNtp := ato.toUInt32 <<< 6
  check (atoNtp ≤ ntpRef)
  return ntpRef - atoNtp

end CCFeedback

open CCFeedback

structure CCFeedbackHeader where
  common : RtcpHeader
  reportBlocks : Std.ExtTreeMap UInt32 ReportBlock
  latestTsUs : UInt64
  deriving DecidableEq

namespace CCFeedbackHeader

def fresh : CCFeedbackHeader where
  common := { packetType := rtpFb, typeOrCnt := rtcpRtpfbCc, length := 1 + 1 }
  reportBlocks := ∅
  latestTsUs := 0

def clear (_ : CCFeedbackHeader) : CCFeedbackHeader where
  common := { packetType := rtpFb, typeOrCnt := rtcpRtpfbCc, length := 1 + 1 }
  reportBlocks := ∅
  latestTsUs := 0

def setSendSsrc (h : CCFeedbackHeader) (sendSsrc : UInt32) : CCFeedbackHeader :=
  { h with common := h.common.setSendSsrc sendSsrc }

/-- Words of some report blocks, added to those counted before. -/
def addBlockWords (len : Nat) : List (UInt32 × ReportBlock) → Checked Nat
  | [] => .ok len
  | (_, rb) :: blocks => do
    let (beginSeq, stopSeq) ← calculateBeginStopSeq rb
    let nMetricBlocks := stopSeq - beginSeq
    let nPaddingBlocks := nMetricBlocks % 2
    addBlockWords (len + 2 + (nMetricBlocks.toNat + nPaddingBlocks.toNat) / 2) blocks

/-- The length is computed anew; one that is too large is not stored. -/
def updateLength (h : CCFeedbackHeader) : Checked (Bool × CCFeedbackHeader) := do
  let len ← addBlockWords 1 h.reportBlocks.toList
  let len := len + 1
  if 0xffff < len then
    return (false, h)
  return (true, { h with common := { h.common with length := UInt16.ofNat len } })

/-- The block of an SSRC is made when it is missing, and the entry is removed again when
there is no room for it. -/
def addFeedback (h : CCFeedbackHeader) (ssrc : UInt32) (seq : UInt16) (timestampUs : UInt64) (ecn : UInt8) :
    Checked (RejectReason × CCFeedbackHeader) := do
  if 0x03 < ecn then
    return (.badEcn, h)
  let rb := h.reportBlocks.getD ssrc ∅
  let h := { h with reportBlocks := h.reportBlocks.insert ssrc rb }
  if rb.contains seq then
    return (.duplicate, h)
  let rb := rb.insert seq { ecn, timestampUs }
  let h := { h with reportBlocks := h.reportBlocks.insert ssrc rb }
  let (updated, h) ← h.updateLength
  if !updated then
    let rb := rb.erase seq
    let reportBlocks := h.reportBlocks.insert ssrc rb
    return (.tooLong, { h with reportBlocks := if rb.isEmpty then reportBlocks.erase ssrc else reportBlocks })
  return (.none, { h with latestTsUs := max h.latestTsUs timestampUs })

def empty (h : CCFeedbackHeader) : Bool := h.reportBlocks.isEmpty

def getSsrcList (h : CCFeedbackHeader) : List UInt32 := h.reportBlocks.keys

def windowSeqs (beginStop : UInt16 × UInt16) : List UInt16 :=
  consecutive beginStop.1 (beginStop.2 - beginStop.1).toNat

def getMetricList (h : CCFeedbackHeader) (ssrc : UInt32) : Checked (Option (List (UInt16 × MetricBlock))) :=
  match h.reportBlocks[ssrc]? with
  | none => .ok none
  | some rb => do
    check (rb ≠ ∅)
    let beginStop ← calculateBeginStopSeq rb
    return some ((windowSeqs beginStop).filterMap fun seq => rb[seq]?.map fun mb => (seq, mb))

def getSerializedSize (h : CCFeedbackHeader) : Checked UInt32 := do
  check (2 ≤ h.common.length)
  let commonHdrSize := 8
  return commonHdrSize + (h.common.length.toUInt32 - 1) * 4

/-- What is sent about a packet that was received, if it was. -/
def metricOf (h : CCFeedbackHeader) : Option MetricBlock → Checked (Option (UInt8 × UInt16))
  | none => .ok none
  | some mb => do
    check (mb.ecn ≤ 0x03)
    let ntp := usToNtp mb.timestampUs
    let ntpRef := usToNtp h.latestTsUs
    let ato ← ntpToAto ntp ntpRef
    check (ato ≤ 0x1fff)
    return some (mb.ecn, ato)

def serializeBlocks (h : CCFeedbackHeader) : List (UInt32 × ReportBlock) → Checked Octets
  | [] => .ok []
  | (ssrc, rb) :: blocks => do
    let (beginSeq, stopSeq) ← calculateBeginStopSeq rb
    check (rb ≠ ∅)
    let metrics ← writeMetrics h.metricOf rb (windowSeqs (beginSeq, stopSeq))
    let rest ← h.serializeBlocks blocks
    return writeHtonU32 ssrc ++ (writeHtonU16 beginSeq ++ (writeHtonU16 (stopSeq - 1) ++
      (metrics ++ (paddingOf (stopSeq - beginSeq) ++ rest))))

def serialize (h : CCFeedbackHeader) : Checked Octets := do
  check (2 ≤ h.common.length)
  let common ← h.common.serializeCommon
  check (h.reportBlocks ≠ ∅)
  let blocks ← h.serializeBlocks h.reportBlocks.toList
  return common ++ (blocks ++ writeHtonU32 (usToNtp h.latestTsUs))

/-- The metric blocks for some numbers, read into a report block. An offset that is not
available is taken for a packet that was not received. -/
def deserializeMetrics : List UInt16 → ReportBlock → Octets → Checked (ReportBlock × Octets)
  | [], rb, start => .ok (rb, start)
  | seq :: seqs, rb, start => do
    let (octet1, start) ← readU8 start
    let (octet2, start) ← readU8 start
    match parseMetric octet1 octet2 with
    | none => deserializeMetrics seqs rb start
    | some (ecn, ato) =>
      if ato ≠ unavailable then
        let timestampUs := (rb[seq]?.map MetricBlock.timestampUs).getD 0
        deserializeMetrics seqs (rb.insert seq { ecn, timestampUs, ato }) start
      else deserializeMetrics seqs rb start

/-- The loop over the report blocks; the length that is left is in 16-bit words. Each round
reads at least eight octets, so that there are fewer rounds than octets. -/
def deserializeBlocks : Nat → UInt64 → Std.ExtTreeMap UInt32 ReportBlock → Octets →
    Checked (Std.ExtTreeMap UInt32 ReportBlock × Octets)
  | 0, _, _, _ => .error .outOfFuel
  | rounds + 1, lenLeft, reportBlocks, start => do
    if lenLeft = 0 then
      return (reportBlocks, start)
    check (4 ≤ lenLeft)
    let (ssrc, start) ← readNtohU32 start
    let rb := reportBlocks.getD ssrc ∅
    let (beginSeq, start) ← readNtohU16 start
    let (endSeq, start) ← readNtohU16 start
    let lenLeft := lenLeft - 4
    let diff := endSeq - beginSeq
    let nMetricBlocks := diff.toUInt32 + 1
    check (nMetricBlocks ≤ 0xffff)
    let nPaddingBlocks := nMetricBlocks % 2
    check ((nMetricBlocks + nPaddingBlocks).toUInt64 ≤ lenLeft)
    let (rb, start) ← deserializeMetrics (consecutive beginSeq nMetricBlocks.toNat) rb start
    let reportBlocks := reportBlocks.insert ssrc rb
    let lenLeft := lenLeft - nMetricBlocks.toUInt64
    if nPaddingBlocks = 1 then
      let (_, start) ← readNtohU16 start
      deserializeBlocks rounds (lenLeft - 1) reportBlocks start
    else deserializeBlocks rounds lenLeft reportBlocks start

/-- The times of the metric blocks that have been read, from their offsets. -/
def populateTimestamps (ntpRef : UInt32) : List (UInt16 × MetricBlock) → ReportBlock → Checked ReportBlock
  | [], rb => .ok rb
  | (seq, mb) :: mbs, rb => do
    let ntp ← atoToNtp mb.ato ntpRef
    populateTimestamps ntpRef mbs (rb.insert seq { mb with timestampUs := ntpToUs ntp })

def populateBlocks (ntpRef : UInt32) : List (UInt32 × ReportBlock) → Std.ExtTreeMap UInt32 ReportBlock →
    Checked (Std.ExtTreeMap UInt32 ReportBlock)
  | [], reportBlocks => .ok reportBlocks
  | (ssrc, rb) :: blocks, reportBlocks => do
    let rb ← populateTimestamps ntpRef rb.toList rb
    populateBlocks ntpRef blocks (reportBlocks.insert ssrc rb)

/-- The number of bytes that is returned, the header, and the octets that were not read. -/
def deserialize (h : CCFeedbackHeader) (start : Octets) : Checked (UInt32 × CCFeedbackHeader × Octets) := do
  check (2 ≤ h.common.length)
  let (common, start) ← RtcpHeader.deserializeCommon
    (fun common => { h with common : CCFeedbackHeader }.getSerializedSize) start
  check (common.packetType = rtpFb)
  check (common.typeOrCnt = rtcpRtpfbCc)
  let lenLeft : UInt64 := (common.length.toUInt64 - 2) * 2
  let (reportBlocks, start) ← deserializeBlocks (start.length + 1) lenLeft h.reportBlocks start
  let (ntpRef, start) ← readNtohU32 start
  let reportBlocks ← populateBlocks ntpRef reportBlocks.toList reportBlocks
  let h : CCFeedbackHeader := { common, reportBlocks, latestTsUs := ntpToUs ntpRef }
  check (h.reportBlocks ≠ ∅)
  return (← h.getSerializedSize, h, start)

end CCFeedbackHeader

end Ns3Rmcat.Header
