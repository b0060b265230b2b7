import Ns3Rmcat.Controller.NadaApi
import Ns3Rmcat.Controller.CcfsApi

/-! What a reset leaves of the past. Both controllers take their rate from the base controller
before it is reset, and the CCFS controller does not touch some of its fields. -/
namespace Ns3Rmcat.Controller
open Lib Header

/-- Two states give the same rate after every continuation, or fail in the same way. -/
def SameRates {S C R : Type} (step : S → C → Checked S) (getBandwidth : S → UInt64 → R) (s s' : S) : Prop :=
  ∀ calls nowUs, (run step s calls).map (getBandwidth · nowUs) = (run step s' calls).map (getBandwidth · nowUs)

private theorem SameRates.of_eq {S C R : Type} {step : S → C → Checked S} {getBandwidth : S → UInt64 → R} {s s' : S}
    (h : s = s') : SameRates step getBandwidth s s' := by
  intro calls nowUs
  rw [h]

namespace NadaApiCall
variable {K : Type} [Field K]

def initBwAfter (initBw : K) : NadaApiCall K → K
  | .setInitBw newBw => newBw
  | .reset => (SenderBasedController.fresh : SenderBasedController K).initBw
  | _ => initBw

/-- The initial rate that is in force after a history of calls. -/
def initBwInForce (history : List (NadaApiCall K)) : K :=
  history.foldl initBwAfter (SenderBasedController.fresh : SenderBasedController K).initBw

end NadaApiCall

namespace NadaController
variable {K : Type} [Field K]

private theorem reset_eq_iff {s s' : NadaController K} : s.reset = s'.reset ↔ s.base.initBw = s'.base.initBw := by
  constructor
  · intro h
    exact congrArg currBw h
  · intro h
    simp only [reset, restart, h]
    rfl

variable [LinearOrder K] {exp : K → K}

private theorem apiStep_initBw {s s' : NadaController K} {call : NadaApiCall K} (h : s.apiStep exp call = .ok s') :
    s'.base.initBw = call.initBwAfter s.base.initBw := by
  cases call with
  | call call => exact congrArg SenderBasedController.Settings.initBw (step_advanced h).settings
  | setInitBw initBw | setMinBw minBw | setMaxBw maxBw | setCurrentBw newBw | reset =>
    cases h
    rfl

private theorem run_initBw {s : NadaController K} {history : List (NadaApiCall K)}
    (hrun : run (apiStep exp) fresh history = .ok s) : s.base.initBw = NadaApiCall.initBwInForce history := by
  apply run_foldl (apiStep exp) (f := fun s => s.base.initBw) _ hrun
  intro s call next hstep
  exact apiStep_initBw hstep

end NadaController

namespace CcfsApiCall

def initBwAfter (initBw : ℚ) : CcfsApiCall → ℚ
  | .setInitBw newBw => newBw
  | .reset => (SenderBasedController.fresh : SenderBasedController ℚ).initBw
  | _ => initBw

def initBwInForce (history : List CcfsApiCall) : ℚ :=
  history.foldl initBwAfter (SenderBasedController.fresh : SenderBasedController ℚ).initBw

end CcfsApiCall

namespace CcfsController

/-- The fields that a reset does not assign. -/
structure Leftovers where
  sentRtpSsrcMap : Std.ExtTreeMap UInt32 SentRtpStream
  lastSentRtpMap : Std.ExtTreeMap UInt32 UInt16
  lossRate : ℚ
  ecnRate : ℚ
  probingStartTime : UInt64

def leftovers (s : CcfsController) : Leftovers :=
  ⟨s.sentRtpSsrcMap, s.lastSentRtpMap, s.lossRate, s.ecnRate, s.probingStartTime⟩

private theorem reset_eq_iff {s s' : CcfsController} :
    s.reset = s'.reset ↔ s.base.initBw = s'.base.initBw ∧ s.leftovers = s'.leftovers := by
  constructor
  · intro h
    have htarget : s.base.initBw / 8 = s'.base.initBw / 8 := congrArg targetSendBps h
    have hleft : s.reset.leftovers = s'.reset.leftovers := congrArg leftovers h
    exact ⟨(div_left_inj' (by norm_num)).mp htarget, hleft⟩
  · rintro ⟨hinit, hleft⟩
    simp only [leftovers, Leftovers.mk.injEq] at hleft
    obtain ⟨hsent, hlast, hloss, hecn, hprobing⟩ := hleft
    simp only [reset, hinit, hsent, hlast, hloss, hecn, hprobing]
    rfl

private theorem apiStep_initBw {rounds : Nat} {s s' : CcfsController} {call : CcfsApiCall}
    (h : s.apiStep rounds call = .ok s') : s'.base.initBw = call.initBwAfter s.base.initBw := by
  cases call with
  | call call =>
    rcases step_base h with hsame | ⟨nowMs, sequence, size, ok, hsend⟩
    · rw [hsame]
      rfl
    · exact congrArg SenderBasedController.Settings.initBw (SenderBasedController.processSendPacket_settings hsend)
  | setInitBw initBw | setMinBw minBw | setMaxBw maxBw | reset =>
    cases h
    rfl

private theorem run_initBw {rounds : Nat} {s : CcfsController} {history : List CcfsApiCall}
    (hrun : run (apiStep rounds) constructed history = .ok s) :
    s.base.initBw = CcfsApiCall.initBwInForce history := by
  apply run_foldl (apiStep rounds) (f := fun s => s.base.initBw) _ hrun
  intro s call next hstep
  exact apiStep_initBw hstep

end CcfsController

/-- After any two histories, a reset makes the two objects the same, with the same rates after
every continuation, exactly when the same initial rate was in force and, for the CCFS
controller, the fields that it does not assign had the same values. -/
theorem reset_erases_iff {K : Type} [Field K] [LinearOrder K] (exp : K → K) (rounds : Nat) :
    (∀ (history history' : List (NadaApiCall K)) (s s' : NadaController K),
      run (NadaController.apiStep exp) NadaController.fresh history = .ok s →
      run (NadaController.apiStep exp) NadaController.fresh history' = .ok s' →
      ((s.reset = s'.reset ∧ SameRates (NadaController.apiStep exp) NadaController.getBandwidth s.reset s'.reset) ↔
        NadaApiCall.initBwInForce history = NadaApiCall.initBwInForce history')) ∧
    (∀ (history history' : List CcfsApiCall) (s s' : CcfsController),
      run (CcfsController.apiStep rounds) CcfsController.constructed history = .ok s →
      run (CcfsController.apiStep rounds) CcfsController.constructed history' = .ok s' →
      ((s.reset = s'.reset ∧ SameRates (CcfsController.apiStep rounds) CcfsController.getBandwidth s.reset s'.reset) ↔
        CcfsApiCall.initBwInForce history = CcfsApiCall.initBwInForce history' ∧ s.leftovers = s'.leftovers)) := by
  constructor
  · intro history history' s s' hrun hrun'
    rw [← NadaController.run_initBw hrun, ← NadaController.run_initBw hrun', ← NadaController.reset_eq_iff]
    exact and_iff_left_of_imp SameRates.of_eq
  · intro history history' s s' hrun hrun'
    rw [← CcfsController.run_initBw hrun, ← CcfsController.run_initBw hrun', ← CcfsController.reset_eq_iff]
    exact and_iff_left_of_imp SameRates.of_eq

/-- Nothing is left of the packets of a NADA controller. The two CCFS controllers have sent the same one. -/
theorem reset_erases_iff_send :
    (∃ s : NadaController ℚ, run (NadaController.apiStep fun x => 1 + x) NadaController.fresh
        [.setMaxBw 900000, .call (.processSendPacket 1000 5 1200)] = .ok s ∧
      s.reset = (NadaController.fresh : NadaController ℚ).reset) ∧
    (∃ s s', run (CcfsController.apiStep 1) CcfsController.constructed
        [.setMaxBw 900000, .call (.processSendPacket2 1 1000000 7 1200)] = .ok s ∧
      run (CcfsController.apiStep 1) CcfsController.constructed [.call (.processSendPacket2 1 1000000 7 1200)] =
        .ok s' ∧ s.reset = s'.reset) := by
  have h := reset_erases_iff (fun x : ℚ => 1 + x) 1
  refine ⟨?_, ?_⟩
  · have hrun : run (NadaController.apiStep fun x : ℚ => 1 + x) NadaController.fresh
        [.setMaxBw 900000, .call (.processSendPacket 1000 5 1200)] = .ok _ := rfl
    exact ⟨_, hrun, ((h.1 _ [] _ _ hrun rfl).mpr rfl).1⟩
  · have hrun : run (CcfsController.apiStep 1) CcfsController.constructed
        [.setMaxBw 900000, .call (.processSendPacket2 1 1000000 7 1200)] = .ok _ := rfl
    have hrun' : run (CcfsController.apiStep 1) CcfsController.constructed
        [.call (.processSendPacket2 1 1000000 7 1200)] = .ok _ := rfl
    exact ⟨_, _, hrun, hrun', ((h.2 _ _ _ _ hrun hrun').mpr ⟨rfl, rfl⟩).1⟩

/-- Two histories that differ in the initial rate, and two that differ in a packet sent. -/
theorem reset_keeps_history :
    (∃ s : NadaController ℚ, run (NadaController.apiStep fun x => 1 + x) NadaController.fresh [.setInitBw 300000] =
        .ok s ∧ s.reset ≠ (NadaController.fresh : NadaController ℚ).reset ∧
      s.reset.getBandwidth 0 = 300000 ∧ (NadaController.fresh : NadaController ℚ).reset.getBandwidth 0 = 150000) ∧
    (∃ s, run (CcfsController.apiStep 1) CcfsController.constructed
        [.setInitBw 300000, .call (.processSendPacket2 1 1000000 7 1200)] = .ok s ∧
      s.reset ≠ CcfsController.constructed.reset ∧ s.reset.getBandwidth 0 = 300000 ∧
      CcfsController.constructed.reset.getBandwidth 0 = 150000 ∧
      s.reset.sentRtpSsrcMap.keys = [1] ∧ CcfsController.constructed.reset.sentRtpSsrcMap.keys = []) := by
  refine ⟨⟨_, rfl, by decide, by decide +kernel, rfl⟩, ⟨_, rfl, ?_, ?_, ?_, ?_, ?_⟩⟩
  · intro h
    have hinit := (CcfsController.reset_eq_iff.mp h).1
    exact absurd hinit (by decide +kernel)
  · decide +kernel
  · decide +kernel
  · decide +kernel
  · decide +kernel

end Ns3Rmcat.Controller
