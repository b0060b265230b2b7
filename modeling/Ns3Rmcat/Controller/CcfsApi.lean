import Ns3Rmcat.Controller.CcfsRun

/-! Everything that a program can call on a CCFS controller: besides sends and reports, the
setters of the rates, and the reset. -/
namespace Ns3Rmcat.Controller
open Lib Header

inductive CcfsApiCall where
  | setInitBw (initBw : ℚ)
  | setMinBw (minBw : ℚ)
  | setMaxBw (maxBw : ℚ)
  | reset
  | call (call : CcfsCall)

namespace CcfsController

def setInitBw (s : CcfsController) (initBw : ℚ) : CcfsController := { s with base := s.base.setInitBw initBw }

def setMinBw (s : CcfsController) (minBw : ℚ) : CcfsController := { s with base := s.base.setMinBw minBw }

def setMaxBw (s : CcfsController) (maxBw : ℚ) : CcfsController := { s with base := s.base.setMaxBw maxBw }

def getBandwidth (s : CcfsController) (_now : UInt64) : ℚ := 8 * s.targetSendBps

def apiStep (rounds : Nat) (s : CcfsController) : CcfsApiCall → Checked CcfsController
  | .setInitBw initBw => .ok (s.setInitBw initBw)
  | .setMinBw minBw => .ok (s.setMinBw minBw)
  | .setMaxBw maxBw => .ok (s.setMaxBw maxBw)
  | .reset => .ok s.reset
  | .call call => s.step rounds call

end CcfsController

end Ns3Rmcat.Controller
