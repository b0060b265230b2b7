import Ns3Rmcat.Controller.SenderBased
import Ns3Rmcat.Header.Rfb
import Ns3Rmcat.Lib.OrderedMap

/-! The CCFS controller, first part: the packets that were sent, what a report tells about
them, the period that a report is about, and the fraction of the bytes that arrived. Rates
and fractions are rational numbers; everything else has the code's words. -/
namespace Ns3Rmcat.Controller
open Lib Header

def kCcfsBrFractionWindowTimeMs : UInt64 := 500
def kCcfsTargetQDelayMs : Int := 50
def kCcfsSentRtpKeepTimeMs : UInt64 := 10000

structure SentRtpRecord where
  localTimestampUs : UInt64 := 0
  size : UInt32 := 0
  totSentBytes : UInt64 := 0
  deriving DecidableEq, Repr

abbrev SentRtpStream := Std.ExtTreeMap UInt16 SentRtpRecord

/-- A packet that was sent and has been reported. -/
structure QDelayData where
  ssrc : UInt32
  seq : UInt16
  localSentUs : UInt64
  rcvdMs : UInt64
  pktSize : UInt32
  deriving DecidableEq, Repr

structure ParsedFBData where
  rxedBytes : UInt64 := 0
  rxedSentBytes : UInt64 := 0
  txedBytes : UInt64 := 0
  lastAddedBytes : UInt64 := 0
  lossCount : UInt32 := 0
  vq : List QDelayData := []
  deriving DecidableEq, Repr

structure BrFractionData where
  beginTimeMs : UInt64
  sentBytes : UInt64
  rcvdBytes : UInt64
  deriving DecidableEq, Repr

/-- The quotient of two totals as a floating-point division gives it: without sent bytes it
is infinite, or no number. -/
structure BrFraction where
  rcvdBytes : UInt64
  sentBytes : UInt64
  deriving DecidableEq, Repr

namespace BrFraction

def Below (fraction : BrFraction) (bound : ℚ) : Prop :=
  (fraction.rcvdBytes.toNat : ℚ) < bound * fraction.sentBytes.toNat

def AtLeast (fraction : BrFraction) (bound : ℚ) : Prop :=
  0 < fraction.rcvdBytes ∧ bound * fraction.sentBytes.toNat ≤ (fraction.rcvdBytes.toNat : ℚ)

instance (fraction : BrFraction) (bound : ℚ) : Decidable (fraction.Below bound) :=
  inferInstanceAs (Decidable (_ < _))

instance (fraction : BrFraction) (bound : ℚ) : Decidable (fraction.AtLeast bound) :=
  inferInstanceAs (Decidable (_ ∧ _))

end BrFraction

/-- A period that a report has been parsed for. -/
structure ParsedPeriod where
  beginMs : UInt32
  endMs : UInt32
  parsed : ParsedFBData
  brFraction : BrFraction
  deriving DecidableEq, Repr

inductive SenderStatus where
  | default
  | competing
  | probing
  | throttled
  deriving DecidableEq, Repr

structure CcfsController where
  base : SenderBasedController ℚ
  rxedFbmCount : UInt32
  lossRate : ℚ
  ecnRate : ℚ
  sentRtpSsrcMap : Std.ExtTreeMap UInt32 SentRtpStream
  lastSentRtpMap : Std.ExtTreeMap UInt32 UInt16
  inflightPktCount : UInt32
  estFwdBwBps : ℚ
  lastReceivedBps : ℚ
  brFractionWindow : List BrFractionData
  totSentBytes : UInt64
  totRcvdBytes : UInt64
  qdelayWindow : List (Int × UInt64)
  minQDelay : Int
  lastQDelay : Int
  minQPktSize : UInt32
  targetQDelay : Int
  maXQDelay : ℚ
  ivqMinQptUs : Int
  ivqQptUs : Int
  ivqStUs : UInt64
  ivqDelayUs : Int
  incrCount : Int
  incrLastMinQDelay : Int
  incrStartTime : UInt64
  status : SenderStatus
  targetSendBps : ℚ
  probingStartTime : UInt64
  throEstFwdBwBps : ℚ
  lastCompeteTime : UInt64
  ccfsStartTime : UInt64

namespace CcfsController

/-- A controller that has been constructed. What the constructor leaves unset is zero here. -/
def constructed : CcfsController where
  base := .fresh
  rxedFbmCount := 0
  lossRate := 0
  ecnRate := 0
  sentRtpSsrcMap := ∅
  lastSentRtpMap := ∅
  inflightPktCount := 0
  estFwdBwBps := 0
  lastReceivedBps := 0
  brFractionWindow := []
  totSentBytes := 0
  totRcvdBytes := 0
  qdelayWindow := []
  minQDelay := 100000
  lastQDelay := 0
  minQPktSize := 0
  targetQDelay := kCcfsTargetQDelayMs
  maXQDelay := 0
  ivqMinQptUs := 0
  ivqQptUs := 0
  ivqStUs := 0
  ivqDelayUs := 0
  incrCount := 0
  incrLastMinQDelay := 0
  incrStartTime := 0
  status := .default
  targetSendBps := (SenderBasedController.fresh : SenderBasedController ℚ).initBw / 8
  probingStartTime := 0
  throEstFwdBwBps := 0
  lastCompeteTime := 0
  ccfsStartTime := 0

/-- The packets that were sent, the rates of loss and ECN marks and the time of the last
probing are not reset. The target is assigned before the base controller is reset. -/
def reset (s : CcfsController) : CcfsController :=
  { s with
    base := s.base.reset
    rxedFbmCount := 0
    targetSendBps := s.base.initBw / 8
    inflightPktCount := 0
    minQDelay := 10000
    lastQDelay := 0
    minQPktSize := 0
    qdelayWindow := []
    targetQDelay := kCcfsTargetQDelayMs
    maXQDelay := 0
    ivqMinQptUs := 10000000
    ivqQptUs := 0
    ivqStUs := 0
    ivqDelayUs := 0
    incrCount := 0
    incrLastMinQDelay := 0
    incrStartTime := 0
    status := .default
    estFwdBwBps := 0
    lastReceivedBps := 0
    throEstFwdBwBps := 0
    totSentBytes := 0
    totRcvdBytes := 0
    brFractionWindow := []
    lastCompeteTime := 0
    ccfsStartTime := 0 }

/-- The total of the stream goes on from its last packet, whose record is made when it is
missing. Records that are too old are removed. -/
def processSendPacket2 (s : CcfsController) (ssrc : UInt32) (localTimestampUs : UInt64) (sequence : UInt16)
    (size : UInt32) : Checked (Bool × CcfsController) := do
  let stream := s.sentRtpSsrcMap.getD ssrc ∅
  let lastSequence := s.lastSentRtpMap.getD ssrc 0
  let lastSentRtp : SentRtpRecord := if s.base.firstSend then {} else stream.getD lastSequence {}
  let stream := if s.base.firstSend then stream else stream.insertIfNew lastSequence {}
  let ccfsStartTime := if s.base.firstSend then localTimestampUs else s.ccfsStartTime
  let (_, base) ← s.base.processSendPacket (localTimestampUs / 1000) sequence size
  let sentRtp : SentRtpRecord := ⟨localTimestampUs, size, lastSentRtp.totSentBytes + size.toUInt64⟩
  let stream := stream.insert sequence sentRtp
  let stream := stream.filter fun _ record =>
    !(record.localTimestampUs / 1000 + kCcfsSentRtpKeepTimeMs < localTimestampUs / 1000)
  return (true, { s with
    base
    ccfsStartTime
    lastSentRtpMap := s.lastSentRtpMap.insert ssrc sequence
    sentRtpSsrcMap := s.sentRtpSsrcMap.insert ssrc stream
    inflightPktCount := s.inflightPktCount + 1 })

def findEndSequences (feedback : RfbHeader) : List (UInt32 × UInt16) :=
  feedback.getSsrcList.map fun ssrc => (ssrc, feedback.getEndSeqInSsrc ssrc)

/-- The bytes sent up to some packets; a record that is missing is made. -/
def sumSentBytes : List (UInt32 × UInt16) → UInt64 → Std.ExtTreeMap UInt32 SentRtpStream →
    UInt64 × Std.ExtTreeMap UInt32 SentRtpStream
  | [], tot, sent => (tot, sent)
  | (ssrc, seq) :: ssrcSeqs, tot, sent =>
    let stream := sent.getD ssrc ∅
    sumSentBytes ssrcSeqs (tot + (stream.getD seq {}).totSentBytes)
      (sent.insert ssrc (stream.insertIfNew seq {}))

/-- How many packets, and how many bytes, are still on their way. -/
def getNetRemains (s : CcfsController) (feedback : RfbHeader) (ssrcSeqs : List (UInt32 × UInt16)) :
    Checked ((UInt32 × UInt64) × CcfsController) := do
  let (totRxedBytes, sent) := sumSentBytes ssrcSeqs 0 s.sentRtpSsrcMap
  let lastSeqs := sent.keys.map fun ssrc => (ssrc, s.lastSentRtpMap.getD ssrc 0)
  let (totSentBytes, sent) := sumSentBytes lastSeqs 0 sent
  let lastSent := lastSeqs.foldl (fun lastSent e => lastSent.insert e.1 e.2) s.lastSentRtpMap
  let reportedPktCount ← feedback.getTotalReportCount
  check (totRxedBytes ≤ totSentBytes)
  check (reportedPktCount ≤ s.inflightPktCount)
  let inflightPktCount := s.inflightPktCount - reportedPktCount
  return ((inflightPktCount, totSentBytes - totRxedBytes),
    { s with sentRtpSsrcMap := sent, lastSentRtpMap := lastSent, inflightPktCount })

def validateFeedback (s : CcfsController) (feedback : RfbHeader) : Checked (Bool × CcfsController) := do
  let ssrcEndSeqs := findEndSequences feedback
  if ssrcEndSeqs = [] then
    return (false, s)
  let (_, s) ← s.getNetRemains feedback ssrcEndSeqs
  return ((← feedback.getTotalReportCount) ≠ 0, s)

/-- The latest arrival time that is reported, and the first packet that has it. -/
def findLatestRtp (feedback : RfbHeader) : UInt64 × UInt32 × UInt16 :=
  feedback.getSsrcList.foldl (fun latest ssrc =>
    (feedback.getMetricList ssrc).foldl (fun latest item =>
      if latest.1 < item.2.timestampMs then (item.2.timestampMs, ssrc, item.1) else latest) latest) (0, 0, 0)

def getSentRtp (s : CcfsController) (ssrc : UInt32) (seq : UInt16) : Option SentRtpRecord :=
  lookup? s.sentRtpSsrcMap ssrc seq

/-- Begin and end of the period of a report, on the sender's clock; they are equal when the
period cannot be told. -/
def getLastPeriodMs (s : CcfsController) (feedback : RfbHeader) : UInt32 × UInt32 :=
  let (rxTimeMs, ssrc, seq) := findLatestRtp feedback
  if rxTimeMs = 0 then (0, 0)
  else match s.getSentRtp ssrc seq with
    | none => (0, 0)
    | some rtp =>
      let offset := feedback.getReportTime.toUInt64 - rxTimeMs
      let sentLatestRtpMs := rtp.localTimestampUs / 1000
      let endMs := sentLatestRtpMs + offset
      ((endMs - feedback.monitoredMs.toUInt64).toUInt32, endMs.toUInt32)

def SentWithin (beginMs endMs : UInt32) (record : SentRtpRecord) : Prop :=
  beginMs.toUInt64 ≤ record.localTimestampUs / 1000 ∧ record.localTimestampUs / 1000 < endMs.toUInt64

instance (beginMs endMs : UInt32) (record : SentRtpRecord) : Decidable (SentWithin beginMs endMs record) :=
  inferInstanceAs (Decidable (_ ∧ _))

/-- The packets of the window of an SSRC, one after the other: those that were sent have
arrived when they are in the list, and are lost when not. -/
def parsePackets (s : CcfsController) (beginMs endMs ssrc : UInt32) :
    List UInt16 → List (UInt16 × RfbMetricBlock) → ParsedFBData → ParsedFBData
  | [], _, parsed => parsed
  | seq :: seqs, rv, parsed =>
    let parsed := match s.getSentRtp ssrc seq, rv.find? (seq = ·.1) with
      | some record, some item =>
        { parsed with
          rxedBytes := parsed.rxedBytes + record.size.toUInt64
          rxedSentBytes :=
            if SentWithin beginMs endMs record then parsed.rxedSentBytes + record.size.toUInt64
            else parsed.rxedSentBytes
          vq := parsed.vq ++ [⟨ssrc, seq, record.localTimestampUs, item.2.timestampMs, record.size⟩] }
      | some _, none => { parsed with lossCount := parsed.lossCount + 1 }
      | none, _ => parsed
    s.parsePackets beginMs endMs ssrc seqs (rv.eraseP (seq = ·.1)) parsed

/-- The bytes of a stream that were sent in a period, with the time and the number of the
packet that was sent last. -/
def sumTxedBytes (beginMs endMs : UInt32) (stream : SentRtpStream) (txedBytes : UInt64) :
    UInt64 × UInt64 × UInt16 :=
  stream.toList.foldl (fun acc e =>
    if SentWithin beginMs endMs e.2 then
      let sentMs := e.2.localTimestampUs / 1000
      (acc.1 + e.2.size.toUInt64, if acc.2.1 < sentMs then (sentMs, e.1) else acc.2)
    else acc) (txedBytes, 0, 0)

def parseSsrc (s : CcfsController) (feedback : RfbHeader) (beginMs endMs ssrc : UInt32) (parsed : ParsedFBData) :
    ParsedFBData :=
  let countEnd := feedback.getCountEndSeq ssrc
  let parsed := s.parsePackets beginMs endMs ssrc (RfbHeader.windowSeqs countEnd) (feedback.getMetricList ssrc) parsed
  let (txedBytes, _, maxSeq) := sumTxedBytes beginMs endMs (s.sentRtpSsrcMap.getD ssrc ∅) parsed.txedBytes
  let lastAddedBytes := match s.getSentRtp ssrc countEnd.2, s.getSentRtp ssrc maxSeq with
    | some recordRxedEnd, some recordTxedEnd => recordTxedEnd.totSentBytes - recordRxedEnd.totSentBytes
    | _, _ => parsed.lastAddedBytes
  { parsed with txedBytes, lastAddedBytes }

/-- What a report tells. A stream is made for each SSRC in it. -/
def parseFeedback (s : CcfsController) (feedback : RfbHeader) (beginMs endMs : UInt32) :
    ParsedFBData × CcfsController :=
  feedback.getSsrcList.foldl (fun acc ssrc =>
    let s := acc.2
    (s.parseSsrc feedback beginMs endMs ssrc acc.1,
      { s with sentRtpSsrcMap := s.sentRtpSsrcMap.insert ssrc (s.sentRtpSsrcMap.getD ssrc ∅) })) ({}, s)

/-- The entries that began too long ago are removed from the front, and from the totals. -/
def evictBrFractions (endMs : UInt32) : List BrFractionData → UInt64 → UInt64 → List BrFractionData × UInt64 × UInt64
  | [], totSentBytes, totRcvdBytes => ([], totSentBytes, totRcvdBytes)
  | front :: rest, totSentBytes, totRcvdBytes =>
    if front.beginTimeMs + kCcfsBrFractionWindowTimeMs < endMs.toUInt64 then
      evictBrFractions endMs rest (totSentBytes - front.sentBytes) (totRcvdBytes - front.rcvdBytes)
    else (front :: rest, totSentBytes, totRcvdBytes)

def updateBrFractionWindow (s : CcfsController) (beginMs endMs : UInt32) (rxedBytes txedBytes : UInt64) :
    BrFraction × CcfsController :=
  let brData : BrFractionData := ⟨beginMs.toUInt64, txedBytes, rxedBytes⟩
  let (brFractionWindow, totSentBytes, totRcvdBytes) := evictBrFractions endMs (s.brFractionWindow ++ [brData])
    (s.totSentBytes + txedBytes) (s.totRcvdBytes + rxedBytes)
  (⟨totRcvdBytes, totSentBytes⟩, { s with brFractionWindow, totSentBytes, totRcvdBytes })

/-- The first part of processing a report, up to the bitrate fraction. A report that is not
used has the result of the whole instead of a period. -/
def startFeedback2 (s : CcfsController) (feedback : RfbHeader) : Checked (Except Bool ParsedPeriod × CcfsController) := do
  let (valid, s) ← s.validateFeedback feedback
  if !valid then
    return (.error true, s)
  let s := { s with rxedFbmCount := s.rxedFbmCount + 1 }
  let (beginMs, endMs) := s.getLastPeriodMs feedback
  if beginMs = endMs then
    return (.error false, s)
  let (parsed, s) := s.parseFeedback feedback beginMs endMs
  let (brFraction, s) := s.updateBrFractionWindow beginMs endMs parsed.rxedBytes parsed.txedBytes
  return (.ok ⟨beginMs, endMs, parsed, brFraction⟩, s)

end CcfsController

end Ns3Rmcat.Controller
