import Ns3Rmcat.Controller.NadaApi
import Ns3Rmcat.Controller.CcfsStatus

/-! The bounds of the rate. The setters do not touch the current rate, which keeps the value that
the reset gave it until the first update: when that one is within the bounds, all are. -/
namespace Ns3Rmcat.Controller
open Lib Header

namespace NadaApiCall

/-- The calls that configure the rates. -/
def IsSetter {K : Type} : NadaApiCall K → Prop
  | .setInitBw _ | .setMinBw _ | .setMaxBw _ => True
  | _ => False

end NadaApiCall

namespace NadaController
variable {K : Type} [Field K] [LinearOrder K] {exp : K → K} {s s' : NadaController K}

private theorem setters_currBw {config : List (NadaApiCall K)} (hconfig : ∀ call ∈ config, call.IsSetter)
    (hrun : run (apiStep exp) s config = .ok s') : s'.currBw = s.currBw := by
  apply run_frame (apiStep exp) _ hconfig hrun
  intro s call next hsetter hnext
  cases call with
  | setInitBw initBw | setMinBw minBw | setMaxBw maxBw =>
    cases hnext
    rfl
  | setCurrentBw newBw | reset | call call => exact hsetter.elim

omit [Field K] in
private theorem Advanced.inBounds (h : Advanced s s') (hbounds : s.base.minBw ≤ s.base.maxBw)
    (hrate : s.base.minBw ≤ s.currBw ∧ s.currBw ≤ s.base.maxBw) :
    s.base.minBw ≤ s'.currBw ∧ s'.currBw ≤ s.base.maxBw := by
  rcases h.currBw with hsame | ⟨bw, hclipped⟩
  · rw [hsame]
    exact hrate
  · rw [hclipped]
    exact ⟨le_max_right _ _, max_le (min_le_right _ _) hbounds⟩

end NadaController

namespace CcfsApiCall

def IsSetter : CcfsApiCall → Prop
  | .setInitBw _ | .setMinBw _ | .setMaxBw _ => True
  | _ => False

end CcfsApiCall

namespace CcfsController
variable {s s' : CcfsController} {rounds : Nat}

private theorem setters_targetSendBps {config : List CcfsApiCall} (hconfig : ∀ call ∈ config, call.IsSetter)
    (hrun : run (apiStep rounds) s config = .ok s') : s'.targetSendBps = s.targetSendBps := by
  apply run_frame (apiStep rounds) _ hconfig hrun
  intro s call next hsetter hnext
  cases call with
  | setInitBw initBw | setMinBw minBw | setMaxBw maxBw =>
    cases hnext
    rfl
  | reset | call call => exact hsetter.elim

private theorem controlFeedback2_inBounds {nowUs : UInt64} {period : ParsedPeriod}
    (hbounds : s.base.minBw ≤ s.base.maxBw) (hrate : s.controls.InBounds s.targetSendBps)
    (h : s.controlFeedback2 rounds nowUs period = .ok s') :
    s'.base = s.base ∧ s'.controls.InBounds s'.targetSendBps := by
  have hbase : s'.base = s.base := congrArg Records.base (controlFeedback2_records h)
  refine ⟨hbase, ?_⟩
  obtain ⟨diffEstBw, s0, ctrlSend, window, least, pktSize, qpt, delay, st, excess, count, last, start, lastQDelay,
    hpre, rfl⟩ := controlFeedback2_ok h
  obtain ⟨est, received, he⟩ := ({ s with lossRate := 0, ecnRate := 0 } : CcfsController).estiFwdBwPre_eq
    period.parsed (period.endMs - period.beginMs).toInt32.toInt
  rw [hpre] at he
  dsimp only at he
  subst he
  obtain ⟨post, hpost⟩ := estiFwdBwPost_eq _ diffEstBw ctrlSend
  rw [hpost]
  exact (handleSendControl_transition (by exact hbounds) nowUs ctrlSend).inBounds hrate

private theorem step_keeps_bounds {call : CcfsCall} (hbounds : s.base.minBw ≤ s.base.maxBw)
    (hrate : s.controls.InBounds s.targetSendBps) (h : s.step rounds call = .ok s') :
    s'.base.settings = s.base.settings ∧ s'.controls.InBounds s'.targetSendBps := by
  cases step_cases h with
  | @send ssrc localTimestampUs sequence size ok base sent lastSent start hbase =>
    have hsettings := SenderBasedController.processSendPacket_settings hbase
    have hmin : base.minBw = s.base.minBw := congrArg SenderBasedController.Settings.minBw hsettings
    have hmax : base.maxBw = s.base.maxBw := congrArg SenderBasedController.Settings.maxBw hsettings
    refine ⟨hsettings, ?_⟩
    rw [Controls.InBounds, controls, hmin, hmax]
    exact hrate
  | unused hunused =>
    obtain ⟨sent, lastSent, inflight, count, window, totSent, totRcvd, rfl⟩ := startFeedback2_frame hunused
    exact ⟨rfl, hrate⟩
  | used hstart hcontrol =>
    obtain ⟨sent, lastSent, inflight, count, window, totSent, totRcvd, rfl⟩ := startFeedback2_frame hstart
    obtain ⟨hbase, hin⟩ := controlFeedback2_inBounds (s := { s with
      sentRtpSsrcMap := sent, lastSentRtpMap := lastSent, inflightPktCount := inflight, rxedFbmCount := count,
      brFractionWindow := window, totSentBytes := totSent, totRcvdBytes := totRcvd }) hbounds hrate hcontrol
    exact ⟨congrArg SenderBasedController.settings hbase, hin⟩

private theorem run_keeps_bounds {calls : List CcfsCall} (hbounds : s.base.minBw ≤ s.base.maxBw)
    (hrate : s.controls.InBounds s.targetSendBps) (hrun : run (step rounds) s calls = .ok s') :
    s'.base.settings = s.base.settings ∧ s'.controls.InBounds s'.targetSendBps := by
  apply run_keeps (step rounds) (motive := fun next => next.base.settings = s.base.settings ∧
    next.controls.InBounds next.targetSendBps) (p := fun _ => True) _ (fun _ _ => trivial) ⟨rfl, hrate⟩ hrun
  intro mid call next _ hmid hnext
  have hmin : mid.base.minBw = s.base.minBw := congrArg SenderBasedController.Settings.minBw hmid.1
  have hmax : mid.base.maxBw = s.base.maxBw := congrArg SenderBasedController.Settings.maxBw hmid.1
  obtain ⟨hsettings, hin⟩ := step_keeps_bounds (by rw [hmin, hmax]; exact hbounds) hmid.2 hnext
  exact ⟨hsettings.trans hmid.1, hin⟩

end CcfsController

/-- After a reset and a configuration, all rates of all runs are within the bounds exactly when
the initial rate that was in force before the reset is. -/
theorem rates_in_bounds_iff {K : Type} [Field K] [LinearOrder K] (exp : K → K) (rounds : Nat) :
    (∀ (s0 s : NadaController K) (config : List (NadaApiCall K)), (∀ call ∈ config, call.IsSetter) →
      run (NadaController.apiStep exp) s0.reset config = .ok s →
      0 < s.base.minBw → s.base.minBw ≤ s.base.initBw → s.base.initBw ≤ s.base.maxBw →
      ((∀ calls s' nowUs, run (NadaController.step exp) s calls = .ok s' →
          s.base.minBw ≤ s'.getBandwidth nowUs ∧ s'.getBandwidth nowUs ≤ s.base.maxBw) ↔
        s.base.minBw ≤ s0.base.initBw ∧ s0.base.initBw ≤ s.base.maxBw)) ∧
    (∀ (s0 s : CcfsController) (config : List CcfsApiCall), (∀ call ∈ config, call.IsSetter) →
      run (CcfsController.apiStep rounds) s0.reset config = .ok s →
      0 < s.base.minBw → s.base.minBw ≤ s.base.initBw → s.base.initBw ≤ s.base.maxBw →
      ((∀ calls s' nowUs, run (CcfsController.step rounds) s calls = .ok s' →
          s.base.minBw ≤ s'.getBandwidth nowUs ∧ s'.getBandwidth nowUs ≤ s.base.maxBw) ↔
        s.base.minBw ≤ s0.base.initBw ∧ s0.base.initBw ≤ s.base.maxBw)) := by
  constructor
  · intro s0 s config hconfig hsetters _ hmin hmax
    have hcurrent : s.currBw = s0.base.initBw := NadaController.setters_currBw hconfig hsetters
    constructor
    · intro h
      rw [← hcurrent]
      exact h [] s 0 rfl
    · intro h calls s' nowUs hrun
      rw [← hcurrent] at h
      exact (NadaController.run_advanced hrun).inBounds (hmin.trans hmax) h
  · intro s0 s config hconfig hsetters _ hmin hmax
    have htarget : s.targetSendBps = s0.base.initBw / 8 := CcfsController.setters_targetSendBps hconfig hsetters
    constructor
    · intro h
      have hfirst := h [] s 0 rfl
      rw [CcfsController.getBandwidth, htarget, mul_div_cancel₀ _ (by norm_num)] at hfirst
      exact hfirst
    · intro h calls s' nowUs hrun
      have hrate : s.controls.InBounds s.targetSendBps := by
        rw [htarget, Controls.InBounds]
        exact ⟨div_le_div_of_nonneg_right h.1 (by norm_num), div_le_div_of_nonneg_right h.2 (by norm_num)⟩
      obtain ⟨hsettings, hin⟩ := CcfsController.run_keeps_bounds (hmin.trans hmax) hrate hrun
      have hmin' : s'.base.minBw = s.base.minBw := congrArg SenderBasedController.Settings.minBw hsettings
      have hmax' : s'.base.maxBw = s.base.maxBw := congrArg SenderBasedController.Settings.maxBw hsettings
      have hin : s.base.minBw / 8 ≤ s'.targetSendBps ∧ s'.targetSendBps ≤ s.base.maxBw / 8 := by
        rw [← hmin', ← hmax']
        exact hin
      rw [CcfsController.getBandwidth]
      constructor <;> linarith [hin.1, hin.2]

/-- The usual initial rate is within these bounds. -/
theorem rates_in_bounds_iff_usual :
    (∃ s : NadaController ℚ, run (NadaController.apiStep fun x => 1 + x) NadaController.fresh.reset
        [.setMaxBw 900000, .setInitBw 200000, .setMinBw 100000] = .ok s ∧
      ∀ calls s' nowUs, run (NadaController.step fun x => 1 + x) s calls = .ok s' →
        100000 ≤ s'.getBandwidth nowUs ∧ s'.getBandwidth nowUs ≤ 900000) ∧
    (∃ s, run (CcfsController.apiStep 1) CcfsController.constructed.reset
        [.setMaxBw 900000, .setInitBw 200000, .setMinBw 100000] = .ok s ∧
      ∀ calls s' nowUs, run (CcfsController.step 1) s calls = .ok s' →
        100000 ≤ s'.getBandwidth nowUs ∧ s'.getBandwidth nowUs ≤ 900000) := by
  have h := rates_in_bounds_iff (fun x : ℚ => 1 + x) 1
  constructor
  · have hrun : run (NadaController.apiStep fun x : ℚ => 1 + x) NadaController.fresh.reset
        [.setMaxBw 900000, .setInitBw 200000, .setMinBw 100000] = .ok _ := rfl
    exact ⟨_, hrun, (h.1 NadaController.fresh _ _ (by simp [NadaApiCall.IsSetter]) hrun (by decide +kernel)
      (by decide +kernel) (by decide +kernel)).mpr (by decide +kernel)⟩
  · have hrun : run (CcfsController.apiStep 1) CcfsController.constructed.reset
        [.setMaxBw 900000, .setInitBw 200000, .setMinBw 100000] = .ok _ := rfl
    exact ⟨_, hrun, (h.2 CcfsController.constructed _ _ (by simp [CcfsApiCall.IsSetter]) hrun (by decide +kernel)
      (by decide +kernel) (by decide +kernel)).mpr (by decide +kernel)⟩

/-- A new object that is configured with a larger smallest rate gives a smaller one at first. -/
theorem rate_below_bounds :
    (∃ s : NadaController ℚ, run (NadaController.apiStep fun x => 1 + x) NadaController.fresh.reset
        [.setMinBw 200000, .setInitBw 300000, .setMaxBw 900000] = .ok s ∧
      s.base.minBw = 200000 ∧ s.base.initBw = 300000 ∧ s.base.maxBw = 900000 ∧ s.getBandwidth 0 = 150000) ∧
    (∃ s, run (CcfsController.apiStep 1) CcfsController.constructed.reset
        [.setMinBw 200000, .setInitBw 300000, .setMaxBw 900000] = .ok s ∧
      s.base.minBw = 200000 ∧ s.base.initBw = 300000 ∧ s.base.maxBw = 900000 ∧ s.getBandwidth 0 = 150000) := by
  refine ⟨⟨_, rfl, rfl, rfl, rfl, rfl⟩, ⟨_, rfl, rfl, rfl, rfl, ?_⟩⟩
  decide +kernel

end Ns3Rmcat.Controller
