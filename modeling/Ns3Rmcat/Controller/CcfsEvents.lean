import Ns3Rmcat.Controller.CcfsRun

/-! The events of the CCFS controller: which of them a status allows, and which status they lead to.
Probing lasts no longer than its timeout. -/
namespace Ns3Rmcat.Controller
open Lib Header

/-- The events that end or begin a status belong to that status. -/
def SendControlEvent.AllowedIn (status : SenderStatus) : SendControlEvent → Prop
  | .resolvThrottle => status = .throttled
  | .stopCompete => status = .competing
  | .startProbing => status ≠ .probing
  | .stopProbing => status = .probing
  | .nothing | .startCompete | .detectThrottle => True

namespace CcfsController
variable {s s1 s' : CcfsController} {nowUs : UInt64}

private theorem controlEvent_allowed (s : CcfsController) (nowUs : UInt64) (eq : EstiQDelay) (periodEndMs : UInt32)
    (increasingMs : UInt64) (qdFraction : ℚ) (brFraction : BrFraction) :
    (s.controlEvent nowUs eq periodEndMs increasingMs qdFraction brFraction).AllowedIn s.status := by
  rw [controlEvent]
  split
  · rename_i hresolv
    exact hresolv.1
  split
  · trivial
  split
  · trivial
  split
  · rename_i hstop
    exact hstop.1
  split
  · rename_i hstart
    exact hstart.2.1
  split
  · rename_i hstop
    exact hstop.1
  · trivial

private theorem getControlSend_allowed (s : CcfsController) (nowUs : UInt64) (eq : EstiQDelay) (periodEndMs : UInt32)
    (brFraction : BrFraction) :
    (s.getControlSend nowUs eq periodEndMs brFraction).1.evt.AllowedIn s.status := by
  obtain ⟨count, least, start, hs⟩ := s.getIncreasingQTime_eq eq.latestQDelay periodEndMs.toUInt64
  rw [getControlSend]
  dsimp only
  rw [hs]
  split
  · trivial
  · exact controlEvent_allowed _ nowUs eq periodEndMs _ _ brFraction

theorem handleEvtStartCompete_status (s : CcfsController) (nowUs : UInt64) :
    (s.handleEvtStartCompete nowUs).status = .competing := by
  rw [handleEvtStartCompete, updateTargetQDelay]
  dsimp only
  split <;> rfl

private theorem handleSendControl_late (hstatus : s.status = .probing)
    (hlate : s.probingStartTime + kCcfsProbingTimeoutMs < nowUs / 1000) {ctrl : ControlSend}
    (hallowed : ctrl.evt.AllowedIn .probing) : (s.handleSendControl nowUs ctrl).status ≠ .probing := by
  rw [handleSendControl, hstatus]
  dsimp only
  rw [handleProbing]
  cases hctrl : ctrl.evt with
  | nothing =>
    dsimp only
    rw [if_pos hlate]
    intro hprobing
    cases hprobing
  | detectThrottle | stopProbing =>
    intro hprobing
    cases hprobing
  | startCompete =>
    dsimp only
    rw [handleEvtStartCompete_status]
    decide
  | startProbing | stopCompete | resolvThrottle =>
    rw [hctrl] at hallowed
    first | exact absurd rfl hallowed | cases hallowed

def controlSendOf (s : CcfsController) (rounds : Nat) (nowUs : UInt64) (period : ParsedPeriod) :
    Checked ControlSend := do
  let s := { s with lossRate := 0, ecnRate := 0 }
  let (_, s) := s.estiFwdBwPre period.parsed (period.endMs - period.beginMs).toInt32.toInt
  let (qdelay, s) ← s.estiQDelay rounds period.endMs period.parsed.vq
  return (s.getControlSend nowUs qdelay period.endMs period.brFraction).1

/-- What is measured before the transition leaves the status and the times that belong to it alone. -/
theorem controlFeedback2_send {rounds : Nat} {period : ParsedPeriod}
    (h : s.controlFeedback2 rounds nowUs period = .ok s') :
    ∃ (s2 : CcfsController) (ctrlSend : ControlSend) (lastQDelay : Int),
      s.controlSendOf rounds nowUs period = .ok ctrlSend ∧ ctrlSend.evt.AllowedIn s.status ∧
      s2.status = s.status ∧ s2.probingStartTime = s.probingStartTime ∧ s2.lastCompeteTime = s.lastCompeteTime ∧
      s' = { s2.handleSendControl nowUs ctrlSend with lastQDelay := lastQDelay } := by
  obtain ⟨diffEstBw, s0, qdelay, s1, ctrlSend, s2, hpre, hs1, hs2, rfl⟩ := controlFeedback2_parts h
  have hsend : s.controlSendOf rounds nowUs period = .ok ctrlSend := by
    rw [controlSendOf]
    dsimp only
    rw [hpre]
    dsimp only
    rw [hs1, ok_bind]
    dsimp only
    rw [hs2]
    rfl
  have hmeasured : s1.status = s.status ∧ s1.probingStartTime = s.probingStartTime ∧
      s1.lastCompeteTime = s.lastCompeteTime := by
    obtain ⟨est, received, he⟩ := ({ s with lossRate := 0, ecnRate := 0 } : CcfsController).estiFwdBwPre_eq
      period.parsed (period.endMs - period.beginMs).toInt32.toInt
    obtain ⟨window, least, pktSize, qpt, delay, st, excess, rfl⟩ := estiQDelay_ok hs1
    rw [hpre] at he
    dsimp only at he
    rw [he]
    exact ⟨rfl, rfl, rfl⟩
  have hallowed := s1.getControlSend_allowed nowUs qdelay period.endMs period.brFraction
  rw [hs2, hmeasured.1] at hallowed
  obtain ⟨count, last, start, hcontrol⟩ := s1.getControlSend_eq nowUs qdelay period.endMs period.brFraction
  rw [hs2] at hcontrol
  dsimp only at hcontrol
  obtain ⟨est, hpost⟩ := s2.estiFwdBwPost_eq diffEstBw ctrlSend
  refine ⟨s2.estiFwdBwPost diffEstBw ctrlSend, ctrlSend, qdelay.latestQDelay, hsend, hallowed, ?_, ?_, ?_, rfl⟩
  · rw [hpost, hcontrol]
    exact hmeasured.1
  · rw [hpost, hcontrol]
    exact hmeasured.2.1
  · rw [hpost, hcontrol]
    exact hmeasured.2.2

/-- While probing, a report that is carried through to the control of the rate after the timeout
ends the probing; and so does every event that a probing controller can have. -/
theorem probing_ends (hstatus : s.status = .probing)
    (hlate : s.probingStartTime + kCcfsProbingTimeoutMs < nowUs / 1000) :
    (∀ rounds feedback period s1 result s', s.startFeedback2 feedback = .ok (.ok period, s1) →
      s.processFeedback2 rounds nowUs feedback = .ok (result, s') → s'.status ≠ .probing) ∧
    ∀ eq periodEndMs brFraction difference, ∀ ctrl s1, s.getControlSend nowUs eq periodEndMs brFraction = (ctrl, s1) →
      ((s1.estiFwdBwPost difference ctrl).handleSendControl nowUs ctrl).status ≠ .probing := by
  constructor
  · intro rounds feedback period s1 result s' hstart hprocess
    rcases processFeedback2_ok hprocess with hunused | ⟨period', s1', hstart', hcontrol⟩
    · cases hstart.symm.trans hunused
    · obtain ⟨s2, ctrlSend, lastQDelay, -, hallowed, hs2, htime, -, rfl⟩ := controlFeedback2_send hcontrol
      obtain ⟨sent, lastSent, inflight, count, window, totSent, totRcvd, rfl⟩ := startFeedback2_frame hstart'
      rw [hstatus] at hallowed
      exact handleSendControl_late (hs2.trans hstatus) (by rw [htime]; exact hlate) hallowed
  · intro eq periodEndMs brFraction difference ctrl s1 hcontrol
    have hallowed := s.getControlSend_allowed nowUs eq periodEndMs brFraction
    obtain ⟨count, last, start, hs1⟩ := s.getControlSend_eq nowUs eq periodEndMs brFraction
    rw [hcontrol] at hallowed hs1
    dsimp only at hallowed hs1
    subst hs1
    obtain ⟨est, hpost⟩ := estiFwdBwPost_eq _ difference ctrl
    rw [hpost]
    rw [hstatus] at hallowed
    refine handleSendControl_late ?_ ?_ hallowed
    · exact hstatus
    · exact hlate

/-- A packet each five seconds, reported without any delay: the second report starts the probing. -/
def probes : List CcfsCall :=
  [.processSendPacket2 7 1000000 1 3000, .processFeedback2 1040000 (reportOf [(7, 1, 1010)] 1030),
    .processSendPacket2 7 6000000 2 3000, .processFeedback2 6040000 (reportOf [(7, 2, 6010)] 6030),
    .processSendPacket2 7 11000000 3 3000]

theorem probing_ends_third :
    ∃ s s', run (step 2) constructed.reset probes = .ok s ∧ s.status = .probing ∧
      s.processFeedback2 2 11040000 (reportOf [(7, 3, 11010)] 11030) = .ok (true, s') ∧ s'.status ≠ .probing := by
  have hfacts : (run (step 2) constructed.reset probes >>= fun s => do
      let started ← s.startFeedback2 (reportOf [(7, 3, 11010)] 11030)
      let processed ← s.processFeedback2 2 11040000 (reportOf [(7, 3, 11010)] 11030)
      return (s, started, processed)).map (fun r => decide (r.1.status = .probing ∧ r.1.probingStartTime = 6040 ∧
        r.2.2.1 = true ∧ r.2.1.1.toOption ≠ none)) = .ok true := by
    decide +kernel
  obtain ⟨⟨s, ⟨started, s1⟩, result, s'⟩, hresult, hdecided⟩ := map_eq_ok.mp hfacts
  obtain ⟨hstatus, htime, htrue, hparsed⟩ := of_decide_eq_true hdecided
  dsimp only at hstatus htime htrue hparsed
  subst htrue
  obtain ⟨s0, hrun, hresult⟩ := bind_eq_ok.mp hresult
  obtain ⟨start, hstart, hresult⟩ := bind_eq_ok.mp hresult
  obtain ⟨processed, hprocess, hresult⟩ := bind_eq_ok.mp hresult
  cases hresult
  cases started with
  | error r => exact absurd rfl hparsed
  | ok period =>
    have hlate : s.probingStartTime + kCcfsProbingTimeoutMs < (11040000 : UInt64) / 1000 := by
      rw [htime]
      decide
    exact ⟨s, s', hrun, hstatus, hprocess,
      (probing_ends hstatus hlate).1 2 _ period s1 true s' hstart hprocess⟩

end CcfsController

end Ns3Rmcat.Controller
