import Ns3Rmcat.Controller.CcfsApi
import Ns3Rmcat.Controller.CcfsDelay
import Ns3Rmcat.Controller.CcfsEvents
import Ns3Rmcat.Controller.CcfsStatus

/-! How long the CCFS controller goes on competing. The time since competing was last started is a
difference of 64-bit words: the end of a period by the send times, minus the time at which an earlier
report was processed. -/
namespace Ns3Rmcat.Controller
open Lib Header

namespace CcfsController
variable {s s1 s' : CcfsController} {nowUs : UInt64} {rounds : Nat} {period : ParsedPeriod} {feedback : RfbHeader}

/-- The test of the time holds after more than four seconds, and also when the period ends before
competing was started. -/
private theorem maintained_iff (endMs : UInt32) (startMs : UInt64) :
    kCcfsCompeteMaintainMs < endMs.toUInt64 - startMs ↔ startMs.toNat + 4000 < endMs.toNat ∨
      (endMs.toNat < startMs.toNat ∧ startMs.toNat + 4000 < endMs.toNat + 2 ^ 64) := by
  have hend := endMs.toNat_lt
  have hstart := startMs.toNat_lt
  have hlong : kCcfsCompeteMaintainMs.toNat = 4000 := rfl
  rw [UInt64.lt_iff_toNat_lt, UInt64.toNat_sub, UInt32.toNat_toUInt64, hlong]
  omega

/-- All that ends competing, apart from the time. -/
structure CallsForStop (s : CcfsController) (period : ParsedPeriod) : Prop where
  fwdBw : s.newFwdBw period ≠ 0
  latestQDelay : (s.measured period).latestQDelay < kCcfsTrigStopCompQDelayMax
  wndMinQRange : (s.measured period).wndMinQRange < kCcfsTrigStopCompQMRangeMax
  unthrottled : ¬ (0 < (s.getIncreasingQTime (s.measured period).latestQDelay period.endMs.toUInt64).1 ∧
    kCcfsTrigThroQDFractMin ≤ ((s.measured period).latestQDelay : ℚ) / s.targetQDelay ∧
    period.brFraction.Below kCcfsTrigThroBrFractMax)

/-- The period ends before competing was started, and all the rest ends competing. -/
structure StopsEarly (s : CcfsController) (period : ParsedPeriod) : Prop where
  before : period.endMs.toNat < s.lastCompeteTime.toNat
  wraps : s.lastCompeteTime.toNat + 4000 < period.endMs.toNat + 2 ^ 64
  calls : s.CallsForStop period

section Events

private theorem controlEvent_stop_iff (hstatus : s.status = .competing) (nowUs : UInt64) (eq : EstiQDelay)
    (endMs : UInt32) (increasingMs : UInt64) (qdFraction : ℚ) (brFraction : BrFraction) :
    s.controlEvent nowUs eq endMs increasingMs qdFraction brFraction = .stopCompete ↔
      kCcfsCompeteMaintainMs < endMs.toUInt64 - s.lastCompeteTime ∧ eq.latestQDelay < kCcfsTrigStopCompQDelayMax ∧
        eq.wndMinQRange < kCcfsTrigStopCompQMRangeMax ∧
        ¬ (0 < increasingMs ∧ kCcfsTrigThroQDFractMin ≤ qdFraction ∧ brFraction.Below kCcfsTrigThroBrFractMax) := by
  have hresolved : ¬ (s.status = .throttled ∧ qdFraction < 1) := by simp [hstatus]
  rw [controlEvent, if_neg hresolved]
  split
  · rename_i hthrottled
    constructor
    · intro hevt
      cases hevt
    · exact fun h => absurd hthrottled h.2.2.2
  rename_i hthrottled
  split
  · rename_i hstart
    constructor
    · intro hevt
      cases hevt
    · rintro ⟨-, hlatest, hrange, -⟩
      have hlatest : eq.latestQDelay < 50 := hlatest
      have hrange : eq.wndMinQRange < 20 := hrange
      rcases hstart with ⟨hwide, -⟩ | ⟨hlong, -⟩
      · have hwide : 150 < eq.wndMinQRange := hwide
        omega
      · have hlong : 150 < eq.latestQDelay := hlong
        omega
  split
  · rename_i hstop
    exact ⟨fun _ => ⟨hstop.2.1, hstop.2.2.1, hstop.2.2.2, hthrottled⟩, fun _ => rfl⟩
  · rename_i hstop
    have hother : ¬ (kCcfsCompeteMaintainMs < endMs.toUInt64 - s.lastCompeteTime ∧
        eq.latestQDelay < kCcfsTrigStopCompQDelayMax ∧ eq.wndMinQRange < kCcfsTrigStopCompQMRangeMax ∧
        ¬ (0 < increasingMs ∧ kCcfsTrigThroQDFractMin ≤ qdFraction ∧ brFraction.Below kCcfsTrigThroBrFractMax)) :=
      fun h => hstop ⟨hstatus, h.1, h.2.1, h.2.2.1⟩
    refine ⟨fun h => ?_, fun h => absurd h hother⟩
    split at h
    · cases h
    split at h <;> cases h

private theorem getControlSend_stop_iff (hstatus : s.status = .competing) (nowUs : UInt64) (eq : EstiQDelay)
    (endMs : UInt32) (brFraction : BrFraction) :
    (s.getControlSend nowUs eq endMs brFraction).1.evt = .stopCompete ↔
      s.estFwdBwBps ≠ 0 ∧ kCcfsCompeteMaintainMs < endMs.toUInt64 - s.lastCompeteTime ∧
        eq.latestQDelay < kCcfsTrigStopCompQDelayMax ∧ eq.wndMinQRange < kCcfsTrigStopCompQMRangeMax ∧
        ¬ (0 < (s.getIncreasingQTime eq.latestQDelay endMs.toUInt64).1 ∧
          kCcfsTrigThroQDFractMin ≤ (eq.latestQDelay : ℚ) / s.targetQDelay ∧
          brFraction.Below kCcfsTrigThroBrFractMax) := by
  obtain ⟨count, least, start, hs⟩ := s.getIncreasingQTime_eq eq.latestQDelay endMs.toUInt64
  rw [getControlSend]
  dsimp only
  rw [hs]
  split
  · rename_i hzero
    constructor
    · intro hevt
      cases hevt
    · exact fun h => absurd hzero h.1
  · rename_i hnonzero
    exact (controlEvent_stop_iff (by exact hstatus) nowUs eq endMs _ _ brFraction).trans
      ⟨fun h => ⟨hnonzero, h⟩, And.right⟩

private theorem handleEvtStartCompete_time (s : CcfsController) (nowUs : UInt64) :
    (s.handleEvtStartCompete nowUs).lastCompeteTime = nowUs / 1000 :=
  congrArg Controls.lastCompeteTime (s.handleEvtStartCompete_controls nowUs)

private theorem handleSendControl_start {ctrl : ControlSend} (hevt : ctrl.evt = .startCompete) :
    (s.handleSendControl nowUs ctrl).status = .competing ∧
      (s.handleSendControl nowUs ctrl).lastCompeteTime = nowUs / 1000 := by
  rw [handleSendControl]
  cases hstatus : s.status with
  | default =>
    simp only [handleDefault, hevt]
    exact ⟨handleEvtStartCompete_status _ nowUs, handleEvtStartCompete_time _ nowUs⟩
  | competing =>
    simp only [handleCompeting, hevt]
    exact ⟨hstatus, trivial⟩
  | probing =>
    simp only [handleProbing, hevt]
    exact ⟨handleEvtStartCompete_status _ nowUs, handleEvtStartCompete_time _ nowUs⟩
  | throttled =>
    simp only [handleThrottled, hevt]
    exact ⟨handleEvtStartCompete_status _ nowUs, handleEvtStartCompete_time _ nowUs⟩

private theorem handleSendControl_other {ctrl : ControlSend} (hstatus : s.status ≠ .competing)
    (hevt : ctrl.evt ≠ .startCompete) : (s.handleSendControl nowUs ctrl).status ≠ .competing := by
  rw [handleSendControl]
  cases hother : s.status with
  | competing => exact absurd hother hstatus
  | default =>
    dsimp only
    rw [handleDefault]
    cases hctrl : ctrl.evt with
    | startCompete => exact absurd hctrl hevt
    | startProbing | detectThrottle =>
      intro hcompeting
      cases hcompeting
    | nothing =>
      dsimp only
      split
      · exact hstatus
      · split <;> exact hstatus
    | stopCompete | stopProbing | resolvThrottle => exact hstatus
  | probing =>
    dsimp only
    rw [handleProbing]
    cases hctrl : ctrl.evt with
    | startCompete => exact absurd hctrl hevt
    | stopProbing | detectThrottle =>
      intro hcompeting
      cases hcompeting
    | nothing =>
      dsimp only
      split
      · intro hcompeting
        cases hcompeting
      · exact hstatus
    | startProbing | stopCompete | resolvThrottle => exact hstatus
  | throttled =>
    dsimp only
    rw [handleThrottled]
    cases hctrl : ctrl.evt with
    | startCompete => exact absurd hctrl hevt
    | resolvThrottle =>
      intro hcompeting
      cases hcompeting
    | nothing | startProbing | detectThrottle | stopCompete | stopProbing => exact hstatus

/-- While competing, the event that stops it is the only one that leads to another status, and only
the start of competing changes the time that is kept. -/
private theorem handleSendControl_competing {ctrl : ControlSend} (hstatus : s.status = .competing) :
    ((s.handleSendControl nowUs ctrl).status = .default ↔ ctrl.evt = .stopCompete) ∧
      (ctrl.evt ≠ .startCompete → (s.handleSendControl nowUs ctrl).status = .competing →
        (s.handleSendControl nowUs ctrl).lastCompeteTime = s.lastCompeteTime) := by
  rw [handleSendControl, hstatus]
  dsimp only
  rw [handleCompeting]
  cases hctrl : ctrl.evt with
  | stopCompete =>
    refine ⟨⟨fun _ => rfl, fun _ => rfl⟩, fun _ hcompeting => ?_⟩
    cases hcompeting
  | startCompete => exact ⟨by simp [hstatus], fun h => absurd rfl h⟩
  | nothing =>
    dsimp only
    have hrate (rate : ℚ) : (s.updateSendRate rate).status = s.status := rfl
    have htwice (first second : ℚ) : ((s.updateSendRate first).updateSendRate second).status = s.status := rfl
    split
    · split
      · exact ⟨by simp [htwice, hstatus], fun _ _ => rfl⟩
      · exact ⟨by simp [hrate, hstatus], fun _ _ => rfl⟩
    · split
      · exact ⟨by simp [hrate, hstatus], fun _ _ => rfl⟩
      · exact ⟨by simp [hstatus], fun _ _ => rfl⟩
  | startProbing | detectThrottle | stopProbing | resolvThrottle => exact ⟨by simp [hstatus], fun _ _ => rfl⟩

end Events

section Reports

private theorem getIncreasingQTime_congr (hcount : s'.incrCount = s.incrCount)
    (hstart : s'.incrStartTime = s.incrStartTime)
    (hlast : s'.incrLastMinQDelay = s.incrLastMinQDelay) (minQDelay : Int) (endMs : UInt64) :
    (s'.getIncreasingQTime minQDelay endMs).1 = (s.getIncreasingQTime minQDelay endMs).1 := by
  unfold getIncreasingQTime
  dsimp only
  rw [hcount, hstart, hlast]
  generalize (if s.incrCount + 1 = 1 then endMs else s.incrStartTime) = start
  split
  · split <;> rfl
  · rfl

private theorem controlSendOf_stop_iff (hstatus : s.status = .competing) {ctrlSend : ControlSend}
    (hstart : s.startFeedback2 feedback = .ok (.ok period, s1))
    (h : s1.controlSendOf rounds nowUs period = .ok ctrlSend) :
    ctrlSend.evt = .stopCompete ↔
      kCcfsCompeteMaintainMs < period.endMs.toUInt64 - s.lastCompeteTime ∧ s.CallsForStop period := by
  have hsame : s1.estimates = s.estimates := (startFeedback2_ok hstart).2.1
  have hsame' : ({ s1 with lossRate := 0, ecnRate := 0 } : CcfsController).estimates = s.estimates := hsame
  have hbw : (({ s1 with lossRate := 0, ecnRate := 0 } : CcfsController).estiFwdBwPre period.parsed
      (period.endMs - period.beginMs).toInt32.toInt).2.estFwdBwBps = s.newFwdBw period :=
    estiFwdBwPre_congr hsame' period.parsed (period.endMs - period.beginMs).toInt32.toInt
  obtain ⟨est, received, he⟩ := ({ s1 with lossRate := 0, ecnRate := 0 } : CcfsController).estiFwdBwPre_eq
    period.parsed (period.endMs - period.beginMs).toInt32.toInt
  rw [controlSendOf] at h
  dsimp only at h
  generalize hpre : ({ s1 with lossRate := 0, ecnRate := 0 } : CcfsController).estiFwdBwPre period.parsed
    (period.endMs - period.beginMs).toInt32.toInt = pre at h hbw he
  obtain ⟨difference, s2⟩ := pre
  obtain ⟨⟨qdelay, s3⟩, hs3, h⟩ := bind_eq_ok.mp h
  cases h
  dsimp only at hbw he ⊢
  obtain ⟨hwindow, hmin, hsize⟩ := estiFwdBwPre_measure hsame period difference hpre
  have hqdelay := (estiQDelay_measured hs3).1
  rw [(measureQDelay_congr hwindow hmin hsize period.endMs period.parsed.vq).1, ← measured] at hqdelay
  have hlatest : qdelay.latestQDelay = (s.measured period).latestQDelay := by rw [hqdelay]
  have hrange : qdelay.wndMinQRange = (s.measured period).wndMinQRange := by rw [hqdelay]
  obtain ⟨sent, lastSent, inflight, count, brFractions, totSent, totRcvd, hs1⟩ := startFeedback2_frame hstart
  obtain ⟨window, least, pktSize, qpt, delay, st, excess, hs3⟩ := estiQDelay_ok hs3
  have hincreasing : (s3.getIncreasingQTime (s.measured period).latestQDelay period.endMs.toUInt64).1 =
      (s.getIncreasingQTime (s.measured period).latestQDelay period.endMs.toUInt64).1 := by
    apply getIncreasingQTime_congr <;> rw [hs3, he, hs1]
  have hstatus3 : s3.status = s.status := by rw [hs3, he, hs1]
  have htime : s3.lastCompeteTime = s.lastCompeteTime := by rw [hs3, he, hs1]
  have htarget : s3.targetQDelay = s.targetQDelay := by rw [hs3, he, hs1]
  have hbw3 : s3.estFwdBwBps = s.newFwdBw period := by
    rw [hs3]
    exact hbw
  rw [getControlSend_stop_iff (hstatus3.trans hstatus), hlatest, hrange, hincreasing, htime, htarget, hbw3]
  exact ⟨fun hstop => ⟨hstop.2.1, hstop.1, hstop.2.2.1, hstop.2.2.2.1, hstop.2.2.2.2⟩, fun hstop =>
    ⟨hstop.2.fwdBw, hstop.1, hstop.2.latestQDelay, hstop.2.wndMinQRange, hstop.2.unthrottled⟩⟩

private theorem stops_iff (hstatus : s.status = .competing) {result : Bool}
    (h : s.processFeedback2 rounds nowUs feedback = .ok (result, s')) :
    s'.status = .default ↔ ∃ period s1, s.startFeedback2 feedback = .ok (.ok period, s1) ∧
      kCcfsCompeteMaintainMs < period.endMs.toUInt64 - s.lastCompeteTime ∧ s.CallsForStop period := by
  rcases processFeedback2_ok h with hunused | ⟨period, s1, hstart, hcontrol⟩
  · obtain ⟨sent, lastSent, inflight, count, window, totSent, totRcvd, rfl⟩ := startFeedback2_frame hunused
    constructor
    · intro hdefault
      cases hstatus.symm.trans hdefault
    · rintro ⟨period, s1, hstart, -⟩
      cases hstart.symm.trans hunused
  · obtain ⟨s2, ctrlSend, lastQDelay, hsend, -, hs2, -, -, rfl⟩ := controlFeedback2_send hcontrol
    obtain ⟨sent, lastSent, inflight, count, window, totSent, totRcvd, hs1⟩ := startFeedback2_frame hstart
    have hcompeting : s2.status = .competing := by
      rw [hs2, hs1]
      exact hstatus
    refine (handleSendControl_competing hcompeting).1.trans ((controlSendOf_stop_iff hstatus hstart hsend).trans ?_)
    constructor
    · intro hstop
      exact ⟨period, s1, hstart, hstop⟩
    · rintro ⟨period', s1', hstart', hstop⟩
      cases hstart.symm.trans hstart'
      exact hstop

end Reports

section Runs
variable {call : CcfsApiCall} {s0 : CcfsController} {calls : List CcfsApiCall}

/-- The time of the event that starts competing, when a call leads to it. -/
def startedAt (rounds : Nat) (s : CcfsController) : CcfsApiCall → List UInt64
  | .call (.processFeedback2 nowUs feedback) => match s.startFeedback2 feedback with
    | .ok (.ok period, s1) => match s1.controlSendOf rounds nowUs period with
      | .ok ctrlSend => if ctrlSend.evt = .startCompete then [nowUs / 1000] else []
      | .error _ => []
    | _ => []
  | _ => []

private theorem apiStep_competing (h : s.apiStep rounds call = .ok s') (hcompeting : s'.status = .competing) :
    (s.startedAt rounds call = [] ∧ s.status = .competing ∧ s'.lastCompeteTime = s.lastCompeteTime) ∨
      s.startedAt rounds call = [s'.lastCompeteTime] := by
  cases call with
  | setInitBw initBw | setMinBw minBw | setMaxBw maxBw =>
    cases h
    exact .inl ⟨rfl, hcompeting, rfl⟩
  | reset =>
    cases h
    cases hcompeting
  | call call =>
    cases step_cases h with
    | send hbase => exact .inl ⟨rfl, hcompeting, rfl⟩
    | unused hunused =>
      obtain ⟨sent, lastSent, inflight, count, window, totSent, totRcvd, rfl⟩ := startFeedback2_frame hunused
      exact .inl ⟨by rw [startedAt, hunused], hcompeting, rfl⟩
    | @used nowUs feedback period s1 s' hstart hcontrol =>
      obtain ⟨s2, ctrlSend, lastQDelay, hsend, -, hs2, -, htime, rfl⟩ := controlFeedback2_send hcontrol
      obtain ⟨sent, lastSent, inflight, count, window, totSent, totRcvd, hs1⟩ := startFeedback2_frame hstart
      have hstarted : s.startedAt rounds (.call (.processFeedback2 nowUs feedback)) =
          if ctrlSend.evt = .startCompete then [nowUs / 1000] else [] := by
        simp only [startedAt, hstart, hsend]
      rw [hstarted]
      by_cases hevt : ctrlSend.evt = .startCompete
      · rw [if_pos hevt]
        exact .inr (by rw [(handleSendControl_start hevt).2])
      · rw [if_neg hevt]
        have hbefore : s2.status = .competing := by
          by_contra hother
          exact handleSendControl_other hother hevt hcompeting
        refine .inl ⟨rfl, ?_, ?_⟩
        · rw [hs2, hs1] at hbefore
          exact hbefore
        · refine ((handleSendControl_competing hbefore).2 hevt hcompeting).trans (htime.trans ?_)
          rw [hs1]

/-- In every run from a controller that does not compete, the time that is kept while competing is
that of the last event that has started it. -/
private theorem lastCompeteTime_run (hquiet : s0.status ≠ .competing) (hrun : run (apiStep rounds) s0 calls = .ok s)
    (hcompeting : s.status = .competing) :
    (observed (apiStep rounds) (startedAt rounds) s0 calls).getLast? = some s.lastCompeteTime := by
  revert hcompeting
  refine run_induction (apiStep rounds) (motive := fun calls s => s.status = .competing →
    (observed (apiStep rounds) (startedAt rounds) s0 calls).getLast? = some s.lastCompeteTime) ?_ ?_ hrun
  · exact fun hcompeting => absurd hcompeting hquiet
  · intro cs c mid s' hmid ih hstep hcompeting
    rw [observed_snoc (apiStep rounds) (startedAt rounds) hmid]
    rcases apiStep_competing hstep hcompeting with ⟨hnone, hbefore, htime⟩ | hstarted
    · rw [hnone, List.append_nil, htime]
      exact ih hbefore
    · rw [hstarted]
      exact List.getLast?_concat

end Runs

/-- A competing controller returns to the default status only after the time for competing, exactly
when the report does not stop it early; and the time that it counts from is that of the last event that
has started competing, in every run of calls from a controller that does not compete. -/
theorem competing_held_iff (hstatus : s.status = .competing) :
    (∀ (s' : CcfsController) (rounds : Nat) (nowUs : UInt64) (feedback : RfbHeader) (result : Bool),
      s.processFeedback2 rounds nowUs feedback = .ok (result, s') →
      ((s'.status = .default → ∃ period s1, s.startFeedback2 feedback = .ok (.ok period, s1) ∧
          s.lastCompeteTime.toNat + 4000 < period.endMs.toNat) ↔
        ∀ period s1, s.startFeedback2 feedback = .ok (.ok period, s1) → ¬ s.StopsEarly period)) ∧
    ∀ (s0 : CcfsController) (rounds : Nat) (calls : List CcfsApiCall), s0.status ≠ .competing →
      run (apiStep rounds) s0 calls = .ok s →
      (observed (apiStep rounds) (startedAt rounds) s0 calls).getLast? = some s.lastCompeteTime := by
  refine ⟨?_, fun s0 rounds calls hquiet hrun => lastCompeteTime_run hquiet hrun hstatus⟩
  intro s' rounds nowUs feedback result hprocess
  rw [stops_iff hstatus hprocess]
  constructor
  · intro hheld period s1 hstart hearly
    have hwrapped : kCcfsCompeteMaintainMs < period.endMs.toUInt64 - s.lastCompeteTime :=
      (maintained_iff _ _).mpr (.inr ⟨hearly.before, hearly.wraps⟩)
    obtain ⟨period', s1', hstart', hlong⟩ := hheld ⟨period, s1, hstart, hwrapped, hearly.calls⟩
    cases hstart.symm.trans hstart'
    have hbefore := hearly.before
    omega
  · rintro hnever ⟨period, s1, hstart, hmaintained, hcalls⟩
    refine ⟨period, s1, hstart, ?_⟩
    rcases (maintained_iff _ _).mp hmaintained with hlong | ⟨hbefore, hwraps⟩
    · exact hlong
    · exact absurd ⟨hbefore, hwraps, hcalls⟩ (hnever period s1 hstart)

/-- A packet each second, each with a longer delay than the one before it, and their reports. -/
def congested (count : Nat) : List CcfsApiCall :=
  (List.range count).flatMap fun i =>
    [.call (.processSendPacket2 7 (1000000 + 1000000 * UInt64.ofNat i) (UInt16.ofNat i) 3000),
     .call (.processFeedback2 (1900000 + 1000000 * UInt64.ofNat i)
       (reportOf [(7, UInt16.ofNat i, 1050 + 1100 * UInt64.ofNat i)] (1060 + 1100 * UInt64.ofNat i)))]

def reported (calls : List CcfsApiCall) (nowUs : UInt64) (feedback : RfbHeader) :
    Checked (CcfsController × (Except Bool ParsedPeriod × CcfsController) × Bool × CcfsController) := do
  let s ← run (apiStep 2) constructed calls
  return (s, ← s.startFeedback2 feedback, ← s.processFeedback2 2 nowUs feedback)

private theorem reported_ok {calls : List CcfsApiCall} {result : Bool}
    {started : Except Bool ParsedPeriod × CcfsController}
    (h : reported calls nowUs feedback = .ok (s, started, result, s')) :
    run (apiStep 2) constructed calls = .ok s ∧ s.startFeedback2 feedback = .ok started ∧
      s.processFeedback2 2 nowUs feedback = .ok (result, s') := by
  obtain ⟨s0, hrun, h⟩ := bind_eq_ok.mp h
  obtain ⟨started0, hstart, h⟩ := bind_eq_ok.mp h
  obtain ⟨processed, hprocess, h⟩ := bind_eq_ok.mp h
  cases h
  exact ⟨hrun, hstart, hprocess⟩

/-- Competing was started at 5900 milliseconds. A packet that is sent at 10 seconds arrives without any delay. -/
theorem competing_held_iff_congested :
    let calls := congested 5 ++ [.call (.processSendPacket2 7 10000000 5 3000)]
    ∃ s s', run (apiStep 2) constructed calls = .ok s ∧ s.status = .competing ∧
      (observed (apiStep 2) (startedAt 2) constructed calls).getLast? = some s.lastCompeteTime ∧
      s.processFeedback2 2 10050000 (reportOf [(7, 5, 10050)] 10060) = .ok (true, s') ∧ s'.status = .default ∧
      ∃ period s1, s.startFeedback2 (reportOf [(7, 5, 10050)] 10060) = .ok (.ok period, s1) ∧
        s.lastCompeteTime.toNat + 4000 < period.endMs.toNat := by
  intro calls
  have hfacts : (reported calls 10050000 (reportOf [(7, 5, 10050)] 10060)).map (fun r =>
      decide (r.1.status = .competing ∧ r.1.lastCompeteTime = 5900 ∧ r.2.2.1 = true ∧ r.2.2.2.status = .default) &&
      r.2.1.1.toOption.any fun period => period.endMs = 10010) = .ok true := by
    decide +kernel
  obtain ⟨⟨s, ⟨started, s1⟩, result, s'⟩, hresult, hdecided⟩ := map_eq_ok.mp hfacts
  obtain ⟨hrun, hstart, hprocess⟩ := reported_ok hresult
  obtain ⟨hstatuses, hparsed⟩ := Bool.and_eq_true_iff.mp hdecided
  obtain ⟨hstatus, htime, rfl, hdefault⟩ := of_decide_eq_true hstatuses
  dsimp only at hstatus htime hdefault
  obtain ⟨hreport, hevent⟩ := competing_held_iff hstatus
  refine ⟨s, s', hrun, hstatus, hevent constructed 2 calls (by decide) hrun, hprocess, hdefault,
    (hreport s' 2 10050000 _ true hprocess).mpr ?_ hdefault⟩
  intro period s1' hstart' hearly
  cases hstart.symm.trans hstart'
  have hend : period.endMs = 10010 := of_decide_eq_true hparsed
  have hbefore := hearly.before
  rw [hend, htime] at hbefore
  exact absurd hbefore (by decide)

/-- The fifth report is processed at 12 seconds, and starts competing. The next report is about a
packet that was sent at 10 seconds: competing ends at once. -/
theorem competing_cut_short :
    ∃ s period s1 s',
      run (apiStep 2) constructed (congested 4 ++ [.call (.processSendPacket2 7 5000000 4 3000),
        .call (.processSendPacket2 7 10000000 5 3000),
        .call (.processFeedback2 12000000 (reportOf [(7, 4, 5450)] 5460))]) = .ok s ∧
      s.status = .competing ∧ s.lastCompeteTime = 12000 ∧
      s.startFeedback2 (reportOf [(7, 5, 10050)] 10060) = .ok (.ok period, s1) ∧ period.endMs = 10010 ∧
      s.processFeedback2 2 12050000 (reportOf [(7, 5, 10050)] 10060) = .ok (true, s') ∧ s'.status = .default ∧
      ¬ s.lastCompeteTime.toNat + 4000 < period.endMs.toNat := by
  have hfacts : (reported (congested 4 ++ [.call (.processSendPacket2 7 5000000 4 3000),
      .call (.processSendPacket2 7 10000000 5 3000),
      .call (.processFeedback2 12000000 (reportOf [(7, 4, 5450)] 5460))]) 12050000
      (reportOf [(7, 5, 10050)] 10060)).map (fun r =>
      decide (r.1.status = .competing ∧ r.1.lastCompeteTime = 12000 ∧ r.2.2.1 = true ∧ r.2.2.2.status = .default) &&
      r.2.1.1.toOption.any fun period => period.endMs = 10010) = .ok true := by
    decide +kernel
  obtain ⟨⟨s, ⟨started, s1⟩, result, s'⟩, hresult, hdecided⟩ := map_eq_ok.mp hfacts
  obtain ⟨hrun, hstart, hprocess⟩ := reported_ok hresult
  obtain ⟨hstatuses, hparsed⟩ := Bool.and_eq_true_iff.mp hdecided
  obtain ⟨hstatus, htime, rfl, hdefault⟩ := of_decide_eq_true hstatuses
  dsimp only at hstatus htime hdefault
  cases started with
  | error b => cases hparsed
  | ok period =>
    have hend : period.endMs = 10010 := of_decide_eq_true hparsed
    refine ⟨s, period, s1, s', hrun, hstatus, htime, hstart, hend, hprocess, hdefault, ?_⟩
    rw [htime, hend]
    decide

end CcfsController

end Ns3Rmcat.Controller
