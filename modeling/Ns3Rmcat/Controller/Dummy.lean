import Ns3Rmcat.Controller.SenderBasedSteps

/-! The dummy controller: it measures what the base controller sees, and has a constant rate. -/
namespace Ns3Rmcat.Controller
open Lib

structure DummyController (K : Type) where
  base : SenderBasedController K
  lastTimeCalcUs : UInt64
  lastTimeCalcValid : Bool
  qdelayUs : UInt64
  ploss : UInt32
  plr : K
  recvR : K
  deriving DecidableEq

namespace DummyController
variable {K : Type} [Field K]

def fresh : DummyController K where
  base := .fresh
  lastTimeCalcUs := 0
  lastTimeCalcValid := false
  qdelayUs := 0
  ploss := 0
  plr := 0
  recvR := 0

/-- The current rate is the initial one of the base controller. -/
def setCurrentBw (s : DummyController K) (newBw : K) : DummyController K := { s with base := s.base.setInitBw newBw }

def reset (s : DummyController K) : DummyController K := { fresh with base := s.base.reset }

/-- Sending is inherited from the base controller. -/
def processSendPacket (s : DummyController K) (txTimestampUs : UInt64) (sequence : UInt16) (size : UInt32) :
    Checked (Bool × DummyController K) := do
  let (ok, base) ← s.base.processSendPacket txTimestampUs sequence size
  return (ok, { s with base })

def getBandwidth (s : DummyController K) (_nowUs : UInt64) : K := s.base.initBw

def updateMetrics (s : DummyController K) : Checked (DummyController K) := do
  let s := { s with qdelayUs := s.base.getCurrentQdelay.getD s.qdelayUs }
  let s := { s with recvR := (← s.base.getCurrentRecvRate).getD s.recvR }
  return match ← s.base.getPktLossInfo with
    | some (nLoss, plr) => { s with ploss := nLoss, plr }
    | none => s

/-- The metrics are updated every 200 milliseconds, whatever the base controller answers. -/
def processFeedback (s : DummyController K) (nowUs : UInt64) (sequence : UInt16) (rxTimestampUs : UInt64)
    (ecn : UInt8) : Checked (Bool × DummyController K) := do
  let (res, base) ← s.base.processFeedback nowUs sequence rxTimestampUs ecn
  let s := { s with base }
  let calcIntervalUs : UInt64 := 200 * 1000
  if s.lastTimeCalcValid = false then
    return (res, { s with lastTimeCalcUs := nowUs, lastTimeCalcValid := true })
  check (lessThan s.lastTimeCalcUs (nowUs + 1) = true)
  if nowUs - s.lastTimeCalcUs < calcIntervalUs then
    return (res, s)
  let s ← s.updateMetrics
  return (res, { s with lastTimeCalcUs := nowUs })

variable {s s' : DummyController K}

private theorem updateMetrics_base (h : s.updateMetrics = .ok s') : s'.base = s.base := by
  obtain ⟨rate, -, h⟩ := bind_eq_ok.mp h
  obtain ⟨info, -, h⟩ := bind_eq_ok.mp h
  cases info <;> cases h <;> rfl

/-- Feedback does to the base controller what its own function does. -/
theorem processFeedback_base {nowUs rxTimestampUs : UInt64} {sequence : UInt16} {ecn : UInt8} {res : Bool}
    (h : s.processFeedback nowUs sequence rxTimestampUs ecn = .ok (res, s')) :
    s.base.processFeedback nowUs sequence rxTimestampUs ecn = .ok (res, s'.base) := by
  obtain ⟨⟨res', base⟩, hbase, h⟩ := bind_eq_ok.mp h
  dsimp only at h
  split at h
  · cases h
    exact hbase
  · obtain ⟨-, h⟩ := check_bind_eq_ok.mp h
    split at h
    · cases h
      exact hbase
    · obtain ⟨next, hnext, h⟩ := bind_eq_ok.mp h
      cases h
      rw [hbase, updateMetrics_base hnext]

end DummyController

end Ns3Rmcat.Controller
