import Ns3Rmcat.Controller.Ccfs

/-! The CCFS controller, second part: the estimates of bandwidth and queuing delay, the
virtual queue with its loop over the bandwidth, the control of the rate, and the whole
processing of a report. -/
namespace Ns3Rmcat.Controller
open Lib Header

def kCcfsQDelayWindowTimeMs : UInt64 := 4000
def kCcfsTargetQDelayMsMin : Int := 0
def kCcfsTargetQDelayMsMax : Int := 250
def kCcfsCrossTrafficTargetQDelayMs : Int := 50
def kCcfsCompeteTargetQDelayMs : Int := kCcfsCrossTrafficTargetQDelayMs + kCcfsTargetQDelayMs
def kCcfsCompeteMaintainMs : UInt64 := 4000
def kCcfsInitWaitToProbeMs : UInt64 := kCcfsQDelayWindowTimeMs
def kCcfsTrigCompQIncrTimeMs : UInt64 := 2000
def kCcfsTrigThroQDFractMin : ℚ := 3 / 2
def kCcfsTrigThroBrFractMax : ℚ := 9 / 10
def kCcfsTrigCompQMRangeMin : Int := 150
def kCcfsTrigCompQDelayMin : Int := kCcfsTrigCompQMRangeMin
def kCcfsTrigStopCompQDelayMax : Int := 50
def kCcfsTrigStopCompQMRangeMax : Int := 20
def kCcfsTrigProbQDelayMax : Int := 20
def kCcfsTrigProbBrFractMin : ℚ := 1
def kCcfsTrigProbQMRangeMax : Int := 15
def kCcfsTrigProbLossRtMax : ℚ := 1 / 1000
def kCcfsTrigProbECNRtMax : ℚ := 1 / 1000
def kCcfsTrigStopProbQDFractMin : ℚ := 13 / 10
def kCcfsTrigStopProbBrFractMax : ℚ := 8 / 10
def kCcfsTrigStopProbLossRtMax : ℚ := 3 / 100
def kCcfsTrigStopProbECNRtMax : ℚ := 1 / 1000
def kCcfsCompTargetBrUpRate : ℚ := 13 / 10
def kCcfsThroTargetBrRate : ℚ := 1 / 2
def kCcfsFwdBwdEstMAFactor : ℚ := 9 / 10
def kCcfsFwdBwdRoom : ℚ := 1 / 10
def kCcfsQIncrDetectorMinDurationMs : UInt64 := 500
def kCcfsProbingTimeoutMs : UInt64 := 4000
def kCcfsDfltBrCtrlQDFractLow : ℚ := 1 / 2
def kCcfsDfltBrCtrlQDFractHi : ℚ := 105 / 100
def kCcfsDfltBrCtrlIncrRate : ℚ := 1005 / 1000
def kCcfsDfltBrCtrlDecrRate : ℚ := 98 / 100
def kCcfsCompBrCtrlDecrRate : ℚ := 95 / 100
def kCcfsCompBrCtrlIncrRate : ℚ := 102 / 100
def kCcfsVqBaseDelayUs : Int := 20000

/-- The cast of a number to a 32-bit signed one. -/
def castInt32 (x : Int) : Int := x.bmod (2 ^ 32)

/-- The cast of a floating-point number to an integer, which cuts its fraction off. -/
def truncate (x : ℚ) : Int := x.num.tdiv x.den

structure EstiQDelay where
  wndMinQDelay : Int
  wndMinQRange : Int
  latestQDelay : Int
  currXQDelay : Int
  deriving DecidableEq, Repr

inductive SendControlEvent where
  | nothing
  | startCompete
  | startProbing
  | detectThrottle
  | stopCompete
  | stopProbing
  | resolvThrottle
  deriving DecidableEq, Repr

structure ControlSend where
  evt : SendControlEvent
  qdFraction : ℚ
  xqFraction : ℚ
  brFraction : BrFraction
  deriving DecidableEq, Repr

namespace CcfsController

def updateTargetQDelay (s : CcfsController) (newTargetQDelay : Int) : CcfsController :=
  if s.targetQDelay = newTargetQDelay then s
  else
    let newTargetQDelay :=
      if kCcfsTargetQDelayMsMax < newTargetQDelay then kCcfsTargetQDelayMsMax else newTargetQDelay
    let newTargetQDelay :=
      if newTargetQDelay < kCcfsTargetQDelayMsMin then kCcfsTargetQDelayMsMin else newTargetQDelay
    { s with targetQDelay := newTargetQDelay }

def updateSendRate (s : CcfsController) (newTargetBps : ℚ) : CcfsController :=
  let applyBps := newTargetBps
  let applyBps := if applyBps < s.base.minBw / 8 then s.base.minBw / 8 else applyBps
  let applyBps := if s.base.maxBw / 8 < applyBps then s.base.maxBw / 8 else applyBps
  { s with targetSendBps := applyBps }

def setFwdBw (s : CcfsController) (roomedInputBwBps : ℚ) : CcfsController :=
  if s.estFwdBwBps < s.base.minBw / 8 then
    { s with estFwdBwBps := roomedInputBwBps / (1 - kCcfsFwdBwdRoom) }
  else
    let newFwdBwBps := kCcfsFwdBwdEstMAFactor * s.estFwdBwBps + (1 - kCcfsFwdBwdEstMAFactor) * roomedInputBwBps
    { s with estFwdBwBps := if s.base.maxBw / 8 < newFwdBwBps then s.base.maxBw / 8 else newFwdBwBps }

/-- The first estimate of the forward bandwidth; what is returned is its change. -/
def estiFwdBwPre (s : CcfsController) (parsed : ParsedFBData) (periodMs : Int) : ℚ × CcfsController :=
  let old := s.estFwdBwBps
  let lastRxedBps : ℚ := 1000 * parsed.rxedBytes.toNat / periodMs
  let roomedLastRxedBps := lastRxedBps * (1 - kCcfsFwdBwdRoom)
  let s := if s.status ≠ .throttled ∧
      (parsed.rxedSentBytes < parsed.txedBytes ∨
        (parsed.txedBytes = parsed.rxedSentBytes ∧ s.targetSendBps < lastRxedBps)) ∧
      (s.status ≠ .competing ∨ (s.estFwdBwBps < roomedLastRxedBps ∧ parsed.lossCount = 0)) then
    s.setFwdBw roomedLastRxedBps else s
  (s.estFwdBwBps - old, { s with lastReceivedBps := lastRxedBps })

/-- The virtual queue: each packet leaves it after those before it, and after the time that
its own transmission takes. -/
def serveQueue (transmissionUs : UInt32 → Int) :
    List QDelayData → UInt64 → UInt64 → Int → List Int → UInt64 × Int × List Int
  | [], _, currSt, currQpt, vqdelays => (currSt, currQpt, vqdelays)
  | packet :: vq, preQdt, _, _, vqdelays =>
    let currSt := packet.localSentUs
    let currQpt := transmissionUs packet.pktSize
    let currQpt := if currSt < preQdt then currQpt + (preQdt - currSt).toInt64.toInt else currQpt
    serveQueue transmissionUs vq (currSt + UInt64.ofInt currQpt) currSt currQpt (vqdelays ++ [currQpt.tdiv 1000])

/-- The time at which the last packet of the last report leaves the virtual queue. Its delay is computed in 32 bits. -/
def carriedQdt (s : CcfsController) : UInt64 :=
  if s.lastQDelay = 0 then 0
  else s.ivqStUs + UInt64.ofInt (castInt32 (s.lastQDelay * 1000 + kCcfsVqBaseDelayUs))

/-- The time in microseconds in which a packet is transmitted. The source casts it to int64_t, which is not
defined from 2^63 on. -/
def transmissionUs (fwdbw : ℚ) (pktSize : UInt32) : Int := truncate (1000000 * pktSize.toNat / fwdbw)

/-- The send time and the virtual delay of the last packet, and the virtual delays of all. -/
def calcIVQDelay (s : CcfsController) (vq : List QDelayData) (fwdbw : ℚ) : UInt64 × Int × List Int :=
  serveQueue (transmissionUs fwdbw) vq s.carriedQdt 0 0 []

/-- The part of a virtual delay that is more than the base delay. -/
def xqptUs (qpt : Int) : Int := if kCcfsVqBaseDelayUs < qpt then qpt - kCcfsVqBaseDelayUs else 0

/-- The loop: the bandwidth goes up until the virtual delay is not above the delay that was measured. -/
def compensateBw (s : CcfsController) (vq : List QDelayData) (qdelay : Int) : Nat → ℚ → Checked CcfsController
  | 0, _ => .error .outOfFuel
  | rounds + 1, fwdbw =>
    let (st, qpt, _) := s.calcIVQDelay vq fwdbw
    if qdelay < (xqptUs qpt).tdiv 1000 then s.compensateBw vq qdelay rounds (fwdbw + 12500)
    else .ok { s with ivqQptUs := qpt, ivqDelayUs := xqptUs qpt, ivqStUs := st }

def updateInternalVQDelay (s : CcfsController) (rounds : Nat) (vq : List QDelayData) (qdelay : Int) :
    Checked CcfsController :=
  if s.estFwdBwBps = 0 then .ok s
  else
    let fwdbw := s.estFwdBwBps / (1 - kCcfsFwdBwdRoom)
    if qdelay = 0 then .ok { s with ivqQptUs := 0, ivqDelayUs := 0, ivqStUs := 0 }
    else s.compensateBw vq qdelay rounds fwdbw

/-- The smallest of some delays, and the base delay, which becomes smaller with them. -/
def measurePackets : List QDelayData → Int → Int → UInt32 → Int × Int × UInt32
  | [], mindelay, minQDelay, minQPktSize => (mindelay, minQDelay, minQPktSize)
  | packet :: vq, mindelay, minQDelay, minQPktSize =>
    let qdelayDiff := (packet.rcvdMs - packet.localSentUs / 1000).toUInt32.toInt32.toInt
    let (minQDelay, minQPktSize) :=
      if qdelayDiff < minQDelay then (qdelayDiff, packet.pktSize) else (minQDelay, minQPktSize)
    let newQDelay := castInt32 (qdelayDiff - minQDelay)
    measurePackets vq (if newQDelay < mindelay then newQDelay else mindelay) minQDelay minQPktSize

/-- The estimate of the queuing delay before the virtual queue is looked at. -/
def measureQDelay (s : CcfsController) (periodEndMs : UInt32) (vq : List QDelayData) : EstiQDelay × CcfsController :=
  let qdelayWindow := s.qdelayWindow.dropWhile fun sample => sample.2 + kCcfsQDelayWindowTimeMs < periodEndMs.toUInt64
  let wndMinQDelay := qdelayWindow.foldl (fun least sample => if sample.1 < least then sample.1 else least) 10000
  let wndMaxQDelay := qdelayWindow.foldl (fun most sample => if most < sample.1 then sample.1 else most) (-1)
  if vq = [] then
    (⟨wndMinQDelay, wndMaxQDelay - wndMinQDelay, wndMinQDelay, 0⟩, { s with qdelayWindow })
  else
    let (latestQDelay, minQDelay, minQPktSize) := measurePackets vq 9000 s.minQDelay s.minQPktSize
    let wndMinQDelay := if latestQDelay < wndMinQDelay then latestQDelay else wndMinQDelay
    let wndMaxQDelay := if wndMaxQDelay < latestQDelay then latestQDelay else wndMaxQDelay
    let qdelayWindow := qdelayWindow ++ [(latestQDelay, periodEndMs.toUInt64)]
    (⟨wndMinQDelay, wndMaxQDelay - wndMinQDelay, latestQDelay, 0⟩, { s with qdelayWindow, minQDelay, minQPktSize })

def estiQDelay (s : CcfsController) (rounds : Nat) (periodEndMs : UInt32) (vq : List QDelayData) :
    Checked (EstiQDelay × CcfsController) := do
  let (qdelay, s) := s.measureQDelay periodEndMs vq
  let s ← s.updateInternalVQDelay rounds vq qdelay.latestQDelay
  let currXQDelay := castInt32 (qdelay.latestQDelay - s.ivqQptUs.tdiv 1000)
  let maXQDelay : ℚ :=
    if 0 < currXQDelay then
      if s.maXQDelay = 0 then currXQDelay else 9 / 10 * s.maXQDelay + 1 / 10 * currXQDelay
    else 0
  return ({ qdelay with currXQDelay }, { s with maXQDelay })

def getIncreasingQTime (s : CcfsController) (minQDelay : Int) (periodEndMs : UInt64) : UInt64 × CcfsController :=
  if s.incrLastMinQDelay < minQDelay then
    let incrCount := s.incrCount + 1
    let incrStartTime := if incrCount = 1 then periodEndMs else s.incrStartTime
    let incrLastMinQDelay := (s.incrLastMinQDelay * 85 + minQDelay * 15).tdiv 100
    let s := { s with incrCount, incrStartTime, incrLastMinQDelay }
    let duration := periodEndMs - incrStartTime
    if 3 ≤ incrCount ∧ kCcfsQIncrDetectorMinDurationMs ≤ duration then (duration, s) else (0, s)
  else (0, { s with incrCount := 0, incrStartTime := 0, incrLastMinQDelay := minQDelay })

def controlEvent (s : CcfsController) (nowUs : UInt64) (eq : EstiQDelay) (periodEndMs : UInt32) (increasingMs : UInt64)
    (qdFraction : ℚ) (brFraction : BrFraction) : SendControlEvent :=
  if s.status = .throttled ∧ qdFraction < 1 then .resolvThrottle
  else if 0 < increasingMs ∧ kCcfsTrigThroQDFractMin ≤ qdFraction ∧ brFraction.Below kCcfsTrigThroBrFractMax then
    .detectThrottle
  else if (kCcfsTrigCompQMRangeMin < eq.wndMinQRange ∧ kCcfsTrigCompQIncrTimeMs < increasingMs) ∨
      (kCcfsTrigCompQDelayMin < eq.latestQDelay ∧ kCcfsTrigCompQIncrTimeMs < increasingMs) then .startCompete
  else if s.status = .competing ∧ kCcfsCompeteMaintainMs < periodEndMs.toUInt64 - s.lastCompeteTime ∧
      eq.latestQDelay < kCcfsTrigStopCompQDelayMax ∧ eq.wndMinQRange < kCcfsTrigStopCompQMRangeMax then .stopCompete
  else if kCcfsInitWaitToProbeMs < (nowUs - s.ccfsStartTime) / 1000 ∧ s.status ≠ .probing ∧
      eq.latestQDelay < kCcfsTrigProbQDelayMax ∧ brFraction.AtLeast kCcfsTrigProbBrFractMin ∧
      eq.wndMinQRange < kCcfsTrigProbQMRangeMax ∧ s.ecnRate < kCcfsTrigProbECNRtMax ∧
      s.lossRate < kCcfsTrigProbLossRtMax then .startProbing
  else if s.status = .probing ∧ (0 < increasingMs ∨ kCcfsTrigStopProbQDFractMin < qdFraction ∨
      brFraction.Below kCcfsTrigStopProbBrFractMax ∨ kCcfsTrigStopProbECNRtMax < s.ecnRate ∨
      kCcfsTrigStopProbLossRtMax < s.lossRate) then .stopProbing
  else .nothing

def getControlSend (s : CcfsController) (nowUs : UInt64) (eq : EstiQDelay) (periodEndMs : UInt32)
    (brFraction : BrFraction) : ControlSend × CcfsController :=
  let (increasingMs, s) := s.getIncreasingQTime eq.latestQDelay periodEndMs.toUInt64
  if s.estFwdBwBps = 0 then (⟨.nothing, 1, 0, brFraction⟩, s)
  else
    let qdFraction : ℚ := eq.latestQDelay / s.targetQDelay
    let xqFraction : ℚ := if 0 < eq.currXQDelay then eq.currXQDelay / kCcfsCrossTrafficTargetQDelayMs else 0
    (⟨s.controlEvent nowUs eq periodEndMs increasingMs qdFraction brFraction, qdFraction, xqFraction, brFraction⟩, s)

/-- The second estimate of the forward bandwidth takes its last change back. -/
def estiFwdBwPost (s : CcfsController) (difference : ℚ) (ctrl : ControlSend) : CcfsController :=
  if s.status = .competing ∧ 3 / 2 ≤ ctrl.qdFraction ∧ 0 < difference then
    { s with estFwdBwBps := s.estFwdBwBps - difference }
  else s

def getBpsForProbing : ℚ := 200000 / 8

def handleEvtStartCompete (s : CcfsController) (nowUs : UInt64) : CcfsController :=
  let s := s.updateSendRate (s.targetSendBps * kCcfsCompTargetBrUpRate)
  let s := { s with status := .competing }
  let s := s.updateTargetQDelay kCcfsCompeteTargetQDelayMs
  { s with lastCompeteTime := nowUs / 1000 }

def handleEvtStartProbing (s : CcfsController) (nowUs : UInt64) : CcfsController :=
  let s := s.updateSendRate (s.estFwdBwBps + getBpsForProbing)
  { s with probingStartTime := nowUs / 1000, status := .probing }

def handleDefault (s : CcfsController) (nowUs : UInt64) (ctrl : ControlSend) : CcfsController :=
  match ctrl.evt with
  | .nothing =>
    if ctrl.qdFraction < kCcfsDfltBrCtrlQDFractLow ∧ s.targetSendBps < s.estFwdBwBps then
      s.updateSendRate (s.targetSendBps * kCcfsDfltBrCtrlIncrRate)
    else if kCcfsDfltBrCtrlQDFractHi < ctrl.qdFraction then
      s.updateSendRate (s.targetSendBps * kCcfsDfltBrCtrlDecrRate)
    else s
  | .startProbing => s.handleEvtStartProbing nowUs
  | .startCompete => s.handleEvtStartCompete nowUs
  | .detectThrottle =>
    let s := s.updateSendRate (s.targetSendBps * kCcfsThroTargetBrRate)
    { s with throEstFwdBwBps := s.estFwdBwBps, status := .throttled }
  | _ => s

def handleCompeting (s : CcfsController) (nowUs : UInt64) (ctrl : ControlSend) : CcfsController :=
  match ctrl.evt with
  | .nothing =>
    let s := if s.targetSendBps < s.estFwdBwBps * (95 / 100) then
      s.updateSendRate (s.targetSendBps * kCcfsCompBrCtrlIncrRate) else s
    if s.estFwdBwBps * (105 / 100) < s.targetSendBps then
      s.updateSendRate (s.targetSendBps * kCcfsCompBrCtrlDecrRate)
    else s
  | .startCompete => { s with lastCompeteTime := nowUs / 1000 }
  | .stopCompete =>
    let s := s.updateTargetQDelay kCcfsTargetQDelayMs
    { s with lastCompeteTime := 0, status := .default }
  | _ => s

def handleProbing (s : CcfsController) (nowUs : UInt64) (ctrl : ControlSend) : CcfsController :=
  match ctrl.evt with
  | .nothing =>
    if s.probingStartTime + kCcfsProbingTimeoutMs < nowUs / 1000 then { s with status := .default } else s
  | .stopProbing =>
    let s := { s with status := .default }
    s.updateSendRate s.estFwdBwBps
  | .startCompete => s.handleEvtStartCompete nowUs
  | .detectThrottle =>
    let s := s.updateSendRate (s.estFwdBwBps * kCcfsThroTargetBrRate)
    { s with throEstFwdBwBps := s.estFwdBwBps, status := .throttled }
  | _ => s

def handleThrottled (s : CcfsController) (nowUs : UInt64) (ctrl : ControlSend) : CcfsController :=
  match ctrl.evt with
  | .resolvThrottle =>
    let s := s.updateSendRate s.throEstFwdBwBps
    { s with status := .default }
  | .startCompete =>
    let s := s.updateSendRate s.throEstFwdBwBps
    s.handleEvtStartCompete nowUs
  | .detectThrottle => { s with throEstFwdBwBps := s.estFwdBwBps }
  | _ => s

def handleSendControl (s : CcfsController) (nowUs : UInt64) (ctrl : ControlSend) : CcfsController :=
  match s.status with
  | .default => s.handleDefault nowUs ctrl
  | .competing => s.handleCompeting nowUs ctrl
  | .probing => s.handleProbing nowUs ctrl
  | .throttled => s.handleThrottled nowUs ctrl

/-- The second part of processing a report, from the estimate of the bandwidth on. -/
def controlFeedback2 (s : CcfsController) (rounds : Nat) (nowUs : UInt64) (period : ParsedPeriod) :
    Checked CcfsController := do
  let s := { s with lossRate := 0, ecnRate := 0 }
  let (diffEstBw, s) := s.estiFwdBwPre period.parsed (period.endMs - period.beginMs).toInt32.toInt
  let (qdelay, s) ← s.estiQDelay rounds period.endMs period.parsed.vq
  let (ctrlSend, s) := s.getControlSend nowUs qdelay period.endMs period.brFraction
  let s := s.estiFwdBwPost diffEstBw ctrlSend
  let s := s.handleSendControl nowUs ctrlSend
  return { s with lastQDelay := qdelay.latestQDelay }

/-- The rounds bound the loop over the bandwidth. -/
def processFeedback2 (s : CcfsController) (rounds : Nat) (nowUs : UInt64) (feedback : RfbHeader) :
    Checked (Bool × CcfsController) := do
  let (period, s) ← s.startFeedback2 feedback
  match period with
  | .error result => return (result, s)
  | .ok period => return (true, ← s.controlFeedback2 rounds nowUs period)

end CcfsController

end Ns3Rmcat.Controller
