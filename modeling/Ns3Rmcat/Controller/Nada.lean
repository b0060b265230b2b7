import Ns3Rmcat.Controller.SenderBased

/-! The NADA controller: delay, loss and rate metrics of the base controller are
turned into a congestion signal, and the signal into a reference rate. The
exponential function of the delay warping is a parameter. -/
namespace Ns3Rmcat.Controller
open Lib

/-- The numeral that turns microseconds into milliseconds, here and in the modules that import this one. -/
instance atLeastTwo_thousand : Nat.AtLeastTwo 1000 := ⟨by decide⟩

/-- Target interval between two rate calculations, in microseconds. -/
def nadaParamDeltaUs : UInt64 := 100 * 1000

/-- Threshold, in microseconds, for queuing delay build up in accelerated ramp-up mode. -/
def nadaParamQepsUs : UInt64 := 10 * 1000

/-- Bound on filtering delay, in microseconds. -/
def nadaParamDfiltUs : UInt64 := 120 * 1000

section Parameters
variable {K : Type} [Field K]

def nadaParamPrio : K := 1
def nadaParamXref : K := 10
def nadaParamKappa : K := 1 / 2
def nadaParamEta : K := 2
def nadaParamTau : K := 500
def nadaParamGammaMax : K := 1 / 2
def nadaParamQbound : K := 50
def nadaParamMultiloss : K := 7
def nadaParamQth : K := 50
def nadaParamLambda : K := 1 / 2
def nadaParamDloss : K := 10
def nadaParamPlrref : K := 1 / 100
def nadaParamXmax : K := 500
def nadaParamAlpha : K := 1 / 10

end Parameters

structure NadaController (K : Type) where
  base : SenderBasedController K
  ploss : UInt32
  plr : K
  warpMode : Bool
  lastTimeCalcUs : UInt64
  lastTimeCalcValid : Bool
  currBw : K
  qdelayUs : UInt64
  rttUs : UInt64
  xcurr : K
  xprev : K
  recvR : K
  avgInt : K
  currInt : UInt16
  lossesSeen : Bool
  deriving DecidableEq

namespace NadaController
variable {K : Type} [Field K]

/-- Every field of NADA's own is assigned its first value, and the rate restarts from
the initial one that the base controller has at that moment. -/
def restart (base : SenderBasedController K) : NadaController K where
  base := base
  ploss := 0
  plr := 0
  warpMode := false
  lastTimeCalcUs := 0
  lastTimeCalcValid := false
  currBw := base.initBw
  qdelayUs := 0
  rttUs := 0
  xcurr := 0
  xprev := 0
  recvR := 0
  avgInt := 0
  currInt := 0
  lossesSeen := false

def fresh : NadaController K := restart SenderBasedController.fresh

def setCurrentBw (s : NadaController K) (newBw : K) : NadaController K := { s with currBw := newBw }

/-- The rate is assigned before the base controller is reset. -/
def reset (s : NadaController K) : NadaController K := { restart s.base with base := s.base.reset }

def processSendPacket (s : NadaController K) (txTimestampUs : UInt64) (sequence : UInt16)
    (size : UInt32) : Checked (Bool × NadaController K) := do
  let (ok, base) ← s.base.processSendPacket txTimestampUs sequence size
  let s := { s with base }
  if ok = false then
    return (false, s)
  if s.lastTimeCalcValid = false then
    return (true, { s with lastTimeCalcUs := txTimestampUs, lastTimeCalcValid := true })
  return (true, s)

def getBandwidth (s : NadaController K) (_nowUs : UInt64) : K := s.currBw

variable [LinearOrder K] (exp : K → K)

def calcDtilde (s : NadaController K) : K :=
  let qDelay := (s.qdelayUs.toNat : K) / 1000
  if nadaParamQth < (((s.qdelayUs / 1000).toNat : ℕ) : K) then
    let ratio := nadaParamLambda * ((qDelay - nadaParamQth) / nadaParamQth)
    nadaParamQth * exp (-ratio)
  else qDelay

def delayMs (s : NadaController K) : K := (s.qdelayUs.toNat : K) / 1000

/-- A loss was seen within the average intervals that can be missed. -/
def LossRecent (s : NadaController K) : Prop :=
  s.lossesSeen = true ∧ (s.currInt.toNat : K) < nadaParamMultiloss * s.avgInt

/-- The transition period after a loss, in which the delays are blended. -/
def InTransition (s : NadaController K) : Prop :=
  s.lossesSeen = true ∧ ¬ (s.currInt.toNat : K) < nadaParamMultiloss * s.avgInt ∧
    (s.currInt.toNat : K) < (nadaParamMultiloss + 1) * s.avgInt

instance (s : NadaController K) : Decidable s.LossRecent := inferInstanceAs (Decidable (_ ∧ _))

instance (s : NadaController K) : Decidable s.InTransition := inferInstanceAs (Decidable (_ ∧ _ ∧ _))

/-- The factor by which the delay and the warped delay are blended. -/
def alpha (s : NadaController K) : K := ((s.currInt.toNat : K) - nadaParamMultiloss * s.avgInt) / s.avgInt

def updateXcurr (s : NadaController K) : NadaController K :=
  let xdel := s.delayMs
  let xtilde := s.calcDtilde exp
  let s :=
    if s.LossRecent then { s with xcurr := xtilde, warpMode := true }
    else if s.InTransition then { s with xcurr := s.alpha * xdel + (1 - s.alpha) * xtilde }
    -- The same is done after the transition period and when no loss has been seen.
    else { s with xcurr := xdel, warpMode := false }
  let plr0 := s.plr / nadaParamPlrref
  let xcurr := s.xcurr + nadaParamDloss * plr0 * plr0
  { s with xcurr := if nadaParamXmax < xcurr then nadaParamXmax else xcurr }

/-- New estimates of delay, loss and receiving rate, each kept when there is no new one. -/
def updateMetrics (s : NadaController K) : Checked (NadaController K) := do
  let qdelay := s.base.getCurrentQdelay
  let s := { s with qdelayUs := qdelay.getD s.qdelayUs }
  let s := { s with rttUs := s.base.getCurrentRTT.getD s.rttUs }
  let s := { s with recvR := (← s.base.getCurrentRecvRate).getD s.recvR }
  let s := match ← s.base.getPktLossInfo with
    | some (nLoss, plr) => { s with ploss := nLoss, plr := s.plr + nadaParamAlpha * (plr - s.plr) }
    | none => s
  let s := match ← s.base.getLossIntervalInfo with
    | some (avgInt, currInt) => { s with lossesSeen := true, avgInt, currInt }
    | none => { s with lossesSeen := false }
  let s := { s with xprev := s.xcurr }
  return if qdelay.isSome then s.updateXcurr exp else s

def calcGradualRateUpdate (s : NadaController K) (deltaUs : UInt64) : NadaController K :=
  let xOffset := s.xcurr - nadaParamPrio * nadaParamXref * s.base.maxBw / s.currBw
  let xDiff := s.xcurr - s.xprev
  let delta := (deltaUs.toNat : K) / 1000
  let rOffset := s.currBw * nadaParamKappa * (delta / nadaParamTau) * (xOffset / nadaParamTau)
  let rDiff := s.currBw * nadaParamKappa * nadaParamEta * (xDiff / nadaParamTau)
  { s with currBw := s.currBw - rOffset - rDiff }

/-- The time in milliseconds that the queue bound is divided by. -/
def rampUpDenom (s : NadaController K) : UInt64 := (s.rttUs + nadaParamDeltaUs + nadaParamDfiltUs) / 1000

def calcAcceleratedRampUp (s : NadaController K) : NadaController K :=
  -- A sum that wraps to nothing makes the quotient infinite, which the bound replaces.
  let gamma : K := if s.rampUpDenom = 0 then nadaParamGammaMax
    else min (nadaParamQbound / (s.rampUpDenom.toNat : K)) nadaParamGammaMax
  let rnew := (1 + gamma) * s.recvR
  if s.currBw < rnew then { s with currBw := rnew } else s

/-- Zero is the accelerated ramp-up mode: no losses and no queuing delay build up. -/
def getRampUpMode (s : NadaController K) : Nat :=
  if 0 < s.ploss then 1
  else if s.base.packetHistory.reverse.any fun p => nadaParamQepsUs < p.owdUs - s.base.baseDelayUs then 1
  else 0

/-- The rate is updated in its mode and clipped within range. -/
def updateBw (s : NadaController K) (deltaUs : UInt64) : NadaController K :=
  let s := if s.getRampUpMode = 0 then s.calcAcceleratedRampUp else s.calcGradualRateUpdate deltaUs
  let s := { s with currBw := min s.currBw s.base.maxBw }
  { s with currBw := max s.currBw s.base.minBw }

/-- One calculation of the reference rate, which both feedback functions make. -/
def updateRate (s : NadaController K) (nowUs : UInt64) : Checked (NadaController K) := do
  let deltaUs := nowUs - s.lastTimeCalcUs
  let s ← s.updateMetrics exp
  return { s.updateBw deltaUs with lastTimeCalcUs := nowUs }

def processFeedback (s : NadaController K) (nowUs : UInt64) (sequence : UInt16)
    (rxTimestampUs : UInt64) (ecn : UInt8) : Checked (Bool × NadaController K) := do
  let (ok, base) ← s.base.processFeedback nowUs sequence rxTimestampUs ecn
  let s := { s with base }
  if ok = false then
    return (false, s)
  if s.lastTimeCalcValid = false then
    return (true, { s with lastTimeCalcUs := nowUs, lastTimeCalcValid := true })
  check (lessThan s.lastTimeCalcUs (nowUs + 1) = true)
  if nadaParamDeltaUs ≤ nowUs - s.lastTimeCalcUs then
    return (true, ← s.updateRate exp nowUs)
  return (true, s)

def processFeedbackBatch (s : NadaController K) (nowUs : UInt64) (feedbackBatch : List FeedbackItem) :
    Checked (Bool × NadaController K) := do
  let (ok, s) ← Controller.processFeedbackBatch (processFeedback exp) nowUs s feedbackBatch
  if ok = false then
    return (false, s)
  if s.lastTimeCalcValid = false then
    return (true, { s with lastTimeCalcUs := nowUs, lastTimeCalcValid := true })
  check (lessThan s.lastTimeCalcUs (nowUs + 1) = true)
  -- Half of the interval, so that most batches come with a calculation.
  if nowUs - s.lastTimeCalcUs < nadaParamDeltaUs / 2 then
    return (true, s)
  return (true, ← s.updateRate exp nowUs)

/-- What a calculation reads but never writes: the base controller and the timing. -/
def frame (s : NadaController K) : SenderBasedController K × UInt64 × Bool :=
  (s.base, s.lastTimeCalcUs, s.lastTimeCalcValid)

variable {exp}

omit [LinearOrder K] in
@[simp] theorem calcGradualRateUpdate_frame (s : NadaController K) (deltaUs : UInt64) :
    (s.calcGradualRateUpdate deltaUs).frame = s.frame := rfl

@[simp] theorem calcAcceleratedRampUp_frame (s : NadaController K) :
    s.calcAcceleratedRampUp.frame = s.frame := by
  simp only [calcAcceleratedRampUp]
  split <;> split <;> rfl

private theorem updateXcurr_frame (s : NadaController K) : (s.updateXcurr exp).frame = s.frame := by
  simp only [updateXcurr]
  split
  · rfl
  · split <;> rfl

theorem updateMetrics_frame {s s' : NadaController K} (h : s.updateMetrics exp = .ok s') :
    s'.frame = s.frame := by
  simp only [updateMetrics, bind_eq_ok, pure_eq_ok, Except.ok.injEq] at h
  obtain ⟨rrate, -, loss, -, interval, -, rfl⟩ := h
  cases loss <;> cases interval <;> (split; · rw [updateXcurr_frame]; rfl) <;> rfl

private theorem updateBw_frame (s : NadaController K) (deltaUs : UInt64) :
    (s.updateBw deltaUs).frame = s.frame := by
  have hmode : (if s.getRampUpMode = 0 then s.calcAcceleratedRampUp
      else s.calcGradualRateUpdate deltaUs).frame = s.frame := by
    split <;> simp
  exact hmode

/-- A calculation records its time, and keeps the rest of the frame. -/
theorem updateRate_frame {s s' : NadaController K} {nowUs : UInt64}
    (h : s.updateRate exp nowUs = .ok s') : s'.frame = (s.base, nowUs, s.lastTimeCalcValid) := by
  simp only [updateRate, bind_eq_ok, pure_eq_ok, Except.ok.injEq] at h
  obtain ⟨mid, hmid, rfl⟩ := h
  have hframe := (updateBw_frame mid (nowUs - s.lastTimeCalcUs)).trans (updateMetrics_frame hmid)
  simp only [frame, Prod.mk.injEq] at hframe ⊢
  exact ⟨hframe.1, trivial, hframe.2.2⟩

end NadaController

end Ns3Rmcat.Controller
