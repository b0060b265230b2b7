import Ns3Rmcat.Header.Rtcp
import Ns3Rmcat.Lib.SerialNumber

/-! The RTP feedback header of CCFS: report blocks by SSRC and sequence number, each
sent as a window of metric blocks that is given by its count and its last number. -/
namespace Ns3Rmcat.Header
open Lib

/-- What is recorded about one packet that was received. -/
structure RfbMetricBlock where
  ecn : UInt8
  timestampMs : UInt64
  deriving DecidableEq, Repr

abbrev RfbReportBlock := Std.ExtTreeMap UInt16 RfbMetricBlock

inductive RfbAddResult where
  | addSrc
  | addOne
  | addDuplicate
  | addFailBadEcn
  | addFailTooLong
  deriving DecidableEq, Repr

structure RfbHeader where
  common : RtcpHeader
  reportBlocks : Std.ExtTreeMap UInt32 RfbReportBlock
  countEndSeq : Std.ExtTreeMap UInt32 (UInt16 × UInt16)
  reportTimeMs : UInt64
  fbSeq : UInt16
  monitoredMs : UInt16
  deriving DecidableEq

/-- Lowest, highest and number of the sequence numbers in one half of the range. -/
structure SeqHalf where
  lo : Int := 65536
  hi : Int := -1
  count : Nat := 0
  deriving DecidableEq, Repr

namespace SeqHalf

def update (half : SeqHalf) (seq : UInt16) : SeqHalf where
  lo := if seq.toNat < half.lo then seq.toNat else half.lo
  hi := if half.hi < seq.toNat then seq.toNat else half.hi
  count := half.count + 1

end SeqHalf

/-- The sequence numbers up to the middle of the range, and those after it. -/
def splitHalves (seqs : List UInt16) : SeqHalf × SeqHalf :=
  seqs.foldl (fun halves seq =>
    if seq.toNat ≤ 65536 / 2 then (halves.1.update seq, halves.2) else (halves.1, halves.2.update seq))
    ({}, {})

/-- The lowest and the highest number of the window, which ends past the range when
both halves have numbers and the front ones begin below 100. -/
def windowBounds (seqs : List UInt16) : Int × Int :=
  let (front, rear) := splitHalves seqs
  if front.count = 0 then (rear.lo, rear.hi)
  else if rear.count = 0 then (front.lo, front.hi)
  else if front.lo < 100 then (rear.lo, front.hi + 65536)
  else (front.lo, rear.hi)

def calcCountEndSeq (rb : RfbReportBlock) : UInt16 × UInt16 :=
  match rb.keys with
  | [] => (0, 0)
  | [seq] => (1, seq)
  | seqs =>
    let (lo, hi) := windowBounds seqs
    (UInt16.ofInt (hi - lo + 1), UInt16.ofInt hi)

namespace RfbHeader

def fresh : RfbHeader where
  common := { typeOrCnt := rtcpRtpfbRfb, packetType := rtpFb, length := 1 + 1 + 1 }
  reportBlocks := ∅
  countEndSeq := ∅
  reportTimeMs := 0
  fbSeq := 0
  monitoredMs := 0

def getCountEndSeq (h : RfbHeader) (ssrc : UInt32) : UInt16 × UInt16 :=
  h.countEndSeq.getD ssrc (0, 0)

/-- The windows and the length are computed anew; a length that is too large is not stored. -/
def update (h : RfbHeader) : Bool × RfbHeader :=
  let countEndSeq := h.reportBlocks.toList.foldl
    (fun countEndSeq rb => countEndSeq.insert rb.1 (calcCountEndSeq rb.2)) h.countEndSeq
  let len := h.reportBlocks.toList.foldl
    (fun len rb =>
      let count := (calcCountEndSeq rb.2).1
      let padding := count % 2
      len + 8 + (count.toNat + padding.toNat) * 2) 20
  let h := { h with countEndSeq }
  if 0xffff < len then (false, h)
  else (true, { h with common := { h.common with length := UInt16.ofNat ((len - 4) / 4) } })

def addFeedback (h : RfbHeader) (ssrc : UInt32) (seq : UInt16) (currentTimeMs : UInt64)
    (ecn : UInt8) : RfbAddResult × RfbHeader :=
  if 0x03 < ecn then (.addFailBadEcn, h)
  else
    match h.reportBlocks[ssrc]? with
    | none =>
      let h := { h with
        reportBlocks := h.reportBlocks.insert ssrc ((∅ : RfbReportBlock).insert seq ⟨ecn, currentTimeMs⟩) }
      (.addSrc, h.update.2)
    | some rbmap =>
      if rbmap.contains seq then (.addDuplicate, h)
      else
        let h := { h with
          reportBlocks := h.reportBlocks.insert ssrc (rbmap.insert seq ⟨ecn, currentTimeMs⟩) }
        (.addOne, h.update.2)

def getSsrcList (h : RfbHeader) : List UInt32 := h.reportBlocks.keys

def cleanReportBlocks (h : RfbHeader) : RfbHeader :=
  let h := { h with reportBlocks := ∅, countEndSeq := ∅ }
  h.update.2

def increaseFbSeq (h : RfbHeader) : RfbHeader := { h with fbSeq := h.fbSeq + 1 }

def setReportTime (h : RfbHeader) (currentTimeMs : UInt64) : RfbHeader :=
  { h with reportTimeMs := currentTimeMs }

def setMonitoredTime (h : RfbHeader) (duration : UInt16) : RfbHeader := { h with monitoredMs := duration }

def getTotalReportCount (h : RfbHeader) : Checked UInt32 := do
  check (3 ≤ h.common.length)
  return h.reportBlocks.keys.foldl (fun count ssrc => count + (h.getCountEndSeq ssrc).1.toUInt32) 0

def getEndSeqInSsrc (h : RfbHeader) (ssrc : UInt32) : UInt16 := (h.getCountEndSeq ssrc).2

def getReportTime (h : RfbHeader) : UInt32 := h.reportTimeMs.toUInt32

def windowSeqs (countEnd : UInt16 × UInt16) : List UInt16 :=
  consecutive (countEnd.2 - countEnd.1 + 1) countEnd.1.toNat

def getMetricList (h : RfbHeader) (ssrc : UInt32) : List (UInt16 × RfbMetricBlock) :=
  match h.reportBlocks[ssrc]? with
  | none => []
  | some rb =>
    (windowSeqs (h.getCountEndSeq ssrc)).filterMap fun seq => rb[seq]?.map fun mb => (seq, mb)

def getSerializedSize (h : RfbHeader) : Checked UInt32 := do
  check (3 ≤ h.common.length)
  return 4 * (h.common.length.toUInt32 + 1)

def tsToAto (h : RfbHeader) (tsMs : UInt64) : Checked UInt16 := do
  check (tsMs ≤ h.reportTimeMs)
  return (h.reportTimeMs - tsMs).toUInt16

def atoToTs (h : RfbHeader) (ato : UInt16) : Checked UInt64 := do
  check (ato.toUInt64 ≤ h.reportTimeMs)
  return h.reportTimeMs - ato.toUInt64

/-- What is sent about a packet that was received, if it was. -/
def metricOf (h : RfbHeader) : Option RfbMetricBlock → Checked (Option (UInt8 × UInt16))
  | none => .ok none
  | some mb => do
    check (mb.ecn ≤ 0x03)
    let ato ← h.tsToAto mb.timestampMs
    check (ato ≤ 0x1fff)
    return some (mb.ecn, ato)

def serializeMetrics (h : RfbHeader) (rb : RfbReportBlock) : List UInt16 → Checked Octets :=
  writeMetrics h.metricOf rb

def serializeBlocks (h : RfbHeader) : List (UInt32 × RfbReportBlock) → Checked Octets
  | [] => .ok []
  | (ssrc, rb) :: blocks => do
    let countEnd := h.getCountEndSeq ssrc
    let beginSeq := countEnd.2 - countEnd.1 + 1
    let metrics ← h.serializeMetrics rb (windowSeqs countEnd)
    let rest ← h.serializeBlocks blocks
    return writeHtonU32 ssrc ++ (writeHtonU16 countEnd.1 ++ (writeHtonU16 countEnd.2 ++
      (metrics ++ (paddingOf (countEnd.2 - beginSeq + 1) ++ rest))))

def serialize (h : RfbHeader) : Checked Octets := do
  check (3 ≤ h.common.length)
  let common ← h.common.serializeCommon
  let blocks ← h.serializeBlocks h.reportBlocks.toList
  return common ++ (writeHtonU32 0 ++ (writeHtonU32 h.reportTimeMs.toUInt32 ++
    (writeHtonU16 h.fbSeq ++ (writeHtonU16 h.monitoredMs ++ blocks))))

/-- The metric blocks for some numbers; each that was received is added as feedback. -/
def deserializeMetrics (ssrc : UInt32) : List UInt16 → RfbHeader → Octets → Checked (RfbHeader × Octets)
  | [], h, start => .ok (h, start)
  | seq :: seqs, h, start => do
    let (octet1, start) ← readU8 start
    let (octet2, start) ← readU8 start
    match parseMetric octet1 octet2 with
    | none => deserializeMetrics ssrc seqs h start
    | some (ecn, ato) =>
      let ts ← h.atoToTs ato
      deserializeMetrics ssrc seqs (h.addFeedback ssrc seq ts ecn).2 start

/-- The loop over the report blocks. A padding block is counted but not read. Each round
reads at least eight octets, so that there are fewer rounds than octets. -/
def deserializeBlocks : Nat → UInt64 → RfbHeader → Octets → Checked (RfbHeader × Octets)
  | 0, _, _, _ => .error .outOfFuel
  | rounds + 1, lenLeft, h, start => do
    if lenLeft = 0 then
      return (h, start)
    check (8 ≤ lenLeft)
    let (ssrc, start) ← readNtohU32 start
    let (count, start) ← readNtohU16 start
    let padding := count % 2
    let (endSeq, start) ← readNtohU16 start
    let lenLeft := lenLeft - 8
    if count = 0 then
      deserializeBlocks rounds lenLeft h start
    else
      let (h, start) ← deserializeMetrics ssrc (windowSeqs (count, endSeq)) h start
      let lenLeft := lenLeft - count.toUInt64 * 2
      deserializeBlocks rounds (if padding ≠ 0 then lenLeft - 2 else lenLeft) h start

/-- The number of bytes that is returned, the header, and the octets that were not read. -/
def deserialize (h : RfbHeader) (start : Octets) : Checked (UInt32 × RfbHeader × Octets) := do
  check (3 ≤ h.common.length)
  let (common, start) ← RtcpHeader.deserializeCommon
    (fun common => { h with common : RfbHeader }.getSerializedSize) start
  check (common.packetType = rtpFb)
  check (common.typeOrCnt = rtcpRtpfbRfb)
  let (hdrSsrc, start) ← readNtohU32 start
  check (hdrSsrc = 0)
  let (reportTimeMs, start) ← readNtohU32 start
  let (fbSeq, start) ← readNtohU16 start
  let (monitoredMs, start) ← readNtohU16 start
  let h := { h with common, reportTimeMs := reportTimeMs.toUInt64, fbSeq, monitoredMs }
  let lenLeft : UInt64 := 4 * (common.length.toUInt64 + 1) - 20
  let (h, start) ← deserializeBlocks (start.length + 1) lenLeft h start
  return (← h.getSerializedSize, h, start)

end RfbHeader

end Ns3Rmcat.Header
