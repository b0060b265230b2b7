import Ns3Rmcat.Controller.CcfsApi

/-! The status of the CCFS controller as a state machine of its own: which transitions there
are, that the control of the rate makes no others, and how the status is linked to the target
delay, the time of competing and the two estimates in every state that calls reach. -/
namespace Ns3Rmcat.Controller
open Lib Header

/-- What the state machine is about, and the bounds of the rate. -/
structure Controls where
  minBw : ℚ
  maxBw : ℚ
  status : SenderStatus
  targetQDelay : Int
  lastCompeteTime : UInt64
  throEstFwdBwBps : ℚ
  estFwdBwBps : ℚ
  targetSendBps : ℚ

namespace Controls

/-- A rate in bytes per second that is within the bounds, which are in bits per second. -/
def InBounds (c : Controls) (rate : ℚ) : Prop := c.minBw / 8 ≤ rate ∧ rate ≤ c.maxBw / 8

/-- A new target: the old one, or one within the bounds. -/
def Target (c : Controls) (rate : ℚ) : Prop := rate = c.targetSendBps ∨ c.InBounds rate

/-- The transitions between the four statuses, each with the fields that it assigns. -/
inductive Transition (nowUs : UInt64) (c : Controls) : Controls → Prop where
  | stay {rate : ℚ} (hrate : c.Target rate) : Transition nowUs c { c with targetSendBps := rate }
  | startCompete {rate : ℚ} (hrate : c.Target rate) : Transition nowUs c
      { c with targetSendBps := rate, status := .competing, targetQDelay := kCcfsCompeteTargetQDelayMs,
               lastCompeteTime := nowUs / 1000 }
  | goOnCompeting (hstatus : c.status = .competing) : Transition nowUs c { c with lastCompeteTime := nowUs / 1000 }
  | stopCompete (hstatus : c.status = .competing) : Transition nowUs c
      { c with targetQDelay := kCcfsTargetQDelayMs, lastCompeteTime := 0, status := .default }
  | startProbing {rate : ℚ} (hrate : c.Target rate) (hstatus : c.status = .default) : Transition nowUs c
      { c with targetSendBps := rate, status := .probing }
  | toDefault {rate : ℚ} (hrate : c.Target rate) (hstatus : c.status = .probing ∨ c.status = .throttled) :
      Transition nowUs c { c with targetSendBps := rate, status := .default }
  | throttle {rate : ℚ} (hrate : c.Target rate) (hstatus : c.status ≠ .competing) : Transition nowUs c
      { c with targetSendBps := rate, throEstFwdBwBps := c.estFwdBwBps, status := .throttled }

/-- The links between the status and the other fields. -/
structure Linked (c : Controls) : Prop where
  targetQDelay : c.targetQDelay =
    if c.status = .competing then kCcfsCompeteTargetQDelayMs else kCcfsTargetQDelayMs
  lastCompeteTime : c.lastCompeteTime ≠ 0 ↔ c.status = .competing
  throEstFwdBwBps : c.status = .throttled → c.throEstFwdBwBps = c.estFwdBwBps
  estFwdBwBps : 0 ≤ c.estFwdBwBps

section Transitions
variable {c d : Controls} {nowUs : UInt64}

private theorem Target.inBounds {rate : ℚ} (h : c.Target rate) (hc : c.InBounds c.targetSendBps) : c.InBounds rate := by
  rcases h with rfl | h
  · exact hc
  · exact h

private theorem Transition.linked (h : Transition nowUs c d) (hnow : 1000 ≤ nowUs) (hc : c.Linked) : d.Linked := by
  have hnonzero : nowUs / 1000 ≠ 0 := by
    intro hzero
    have htime := congrArg UInt64.toNat hzero
    rw [UInt64.le_iff_toNat_le] at hnow
    simp only [UInt64.toNat_div, UInt64.reduceToNat] at htime hnow
    omega
  have hquiet (hstatus : c.status ≠ .competing) :
      c.targetQDelay = kCcfsTargetQDelayMs ∧ c.lastCompeteTime = 0 := by
    refine ⟨?_, not_not.mp (mt hc.lastCompeteTime.mp hstatus)⟩
    rw [hc.targetQDelay, if_neg hstatus]
  cases h with
  | stay hrate => exact ⟨hc.targetQDelay, hc.lastCompeteTime, hc.throEstFwdBwBps, hc.estFwdBwBps⟩
  | startCompete hrate => exact ⟨rfl, by simp [hnonzero], by simp, hc.estFwdBwBps⟩
  | goOnCompeting hstatus =>
    exact ⟨hc.targetQDelay, by simp [hnonzero, hstatus], hc.throEstFwdBwBps, hc.estFwdBwBps⟩
  | stopCompete hstatus => exact ⟨rfl, by simp, by simp, hc.estFwdBwBps⟩
  | startProbing hrate hstatus =>
    obtain ⟨hdelay, htime⟩ := hquiet (by simp [hstatus])
    exact ⟨hdelay, by simp [htime], by simp, hc.estFwdBwBps⟩
  | toDefault hrate hstatus =>
    obtain ⟨hdelay, htime⟩ := hquiet (by rcases hstatus with hstatus | hstatus <;> simp [hstatus])
    exact ⟨hdelay, by simp [htime], by simp, hc.estFwdBwBps⟩
  | throttle hrate hstatus =>
    obtain ⟨hdelay, htime⟩ := hquiet hstatus
    exact ⟨hdelay, by simp [htime], fun _ => rfl, hc.estFwdBwBps⟩

theorem Transition.estFwdBwBps (h : Transition nowUs c d) : d.estFwdBwBps = c.estFwdBwBps := by
  cases h <;> rfl

private theorem Transition.throEstFwdBwBps (h : Transition nowUs c d) (hc : c.Linked)
    (hstatus : c.status = .throttled) :
    d.throEstFwdBwBps = c.throEstFwdBwBps := by
  cases h with
  | throttle hrate hother => exact (hc.throEstFwdBwBps hstatus).symm
  | _ => rfl

private theorem Transition.bounds (h : Transition nowUs c d) : d.minBw = c.minBw ∧ d.maxBw = c.maxBw := by
  cases h <;> exact ⟨rfl, rfl⟩

theorem Transition.inBounds (h : Transition nowUs c d) (hc : c.InBounds c.targetSendBps) :
    d.InBounds d.targetSendBps := by
  cases h with
  | stay hrate => exact hrate.inBounds hc
  | startCompete hrate => exact hrate.inBounds hc
  | goOnCompeting hstatus => exact hc
  | stopCompete hstatus => exact hc
  | startProbing hrate hstatus => exact hrate.inBounds hc
  | toDefault hrate hstatus => exact hrate.inBounds hc
  | throttle hrate hstatus => exact hrate.inBounds hc

end Transitions

end Controls

namespace CcfsController

def controls (s : CcfsController) : Controls where
  minBw := s.base.minBw
  maxBw := s.base.maxBw
  status := s.status
  targetQDelay := s.targetQDelay
  lastCompeteTime := s.lastCompeteTime
  throEstFwdBwBps := s.throEstFwdBwBps
  estFwdBwBps := s.estFwdBwBps
  targetSendBps := s.targetSendBps

section Rates
variable {s : CcfsController}

private theorem updateSendRate_inBounds (hbounds : s.base.minBw ≤ s.base.maxBw) (newTargetBps : ℚ) :
    s.controls.InBounds (s.updateSendRate newTargetBps).targetSendBps := by
  have hbounds : s.base.minBw / 8 ≤ s.base.maxBw / 8 := by linarith
  rw [Controls.InBounds, updateSendRate]
  dsimp only [controls]
  split
  · rw [if_neg (not_lt.mpr hbounds)]
    exact ⟨le_rfl, hbounds⟩
  · rename_i hmin
    split
    · exact ⟨hbounds, le_rfl⟩
    · rename_i hmax
      exact ⟨not_lt.mp hmin, not_lt.mp hmax⟩

private theorem updateTargetQDelay_eq {newTargetQDelay : Int} (hmin : 0 ≤ newTargetQDelay)
    (hmax : newTargetQDelay ≤ 250) :
    s.updateTargetQDelay newTargetQDelay = { s with targetQDelay := newTargetQDelay } := by
  rw [updateTargetQDelay]
  split
  · rename_i hsame
    rw [← hsame]
  · have hlow : ¬ newTargetQDelay < kCcfsTargetQDelayMsMin := not_lt.mpr hmin
    have hhigh : ¬ kCcfsTargetQDelayMsMax < newTargetQDelay := not_lt.mpr hmax
    simp only [hlow, hhigh, if_false]

theorem handleEvtStartCompete_controls (nowUs : UInt64) :
    (s.handleEvtStartCompete nowUs).controls = { s.controls with
      targetSendBps := (s.updateSendRate (s.targetSendBps * kCcfsCompTargetBrUpRate)).targetSendBps
      status := .competing
      targetQDelay := kCcfsCompeteTargetQDelayMs
      lastCompeteTime := nowUs / 1000 } := by
  rw [handleEvtStartCompete]
  dsimp only
  rw [updateTargetQDelay_eq (by decide) (by decide)]
  rfl

/-- The control of the rate makes one of the transitions, whatever the event is. -/
theorem handleSendControl_transition (hbounds : s.controls.minBw ≤ s.controls.maxBw) (nowUs : UInt64)
    (ctrl : ControlSend) : s.controls.Transition nowUs (s.handleSendControl nowUs ctrl).controls := by
  have hrate (rate : ℚ) : s.controls.Target (s.updateSendRate rate).targetSendBps :=
    .inr (updateSendRate_inBounds hbounds rate)
  have hignored : s.controls.Transition nowUs s.controls := .stay (.inl rfl)
  have hstart (rate : ℚ) (hrate : s.controls.Target rate) :
      s.controls.Transition nowUs
        (({ s with targetSendBps := rate } : CcfsController).handleEvtStartCompete nowUs).controls := by
    rw [handleEvtStartCompete_controls]
    exact .startCompete (.inr (updateSendRate_inBounds (s := { s with targetSendBps := rate }) hbounds _))
  rw [handleSendControl]
  cases hstatus : s.status with
  | default =>
    rw [handleDefault]
    cases ctrl.evt with
    | nothing =>
      dsimp only
      split
      · exact .stay (hrate _)
      · split
        · exact .stay (hrate _)
        · exact hignored
    | startProbing => exact .startProbing (hrate _) hstatus
    | startCompete => exact hstart s.targetSendBps (.inl rfl)
    | detectThrottle => exact .throttle (hrate _) (by simp [controls, hstatus])
    | stopCompete => exact hignored
    | stopProbing => exact hignored
    | resolvThrottle => exact hignored
  | competing =>
    rw [handleCompeting]
    cases ctrl.evt with
    | nothing =>
      -- The rate may go up and then down again in one pass, and is clipped both times.
      dsimp only
      split
      · split
        · exact .stay (.inr (updateSendRate_inBounds (s := s.updateSendRate _) hbounds _))
        · exact .stay (hrate _)
      · split
        · exact .stay (hrate _)
        · exact hignored
    | startCompete => exact .goOnCompeting hstatus
    | stopCompete =>
      dsimp only
      rw [updateTargetQDelay_eq (by decide) (by decide)]
      exact .stopCompete hstatus
    | startProbing => exact hignored
    | detectThrottle => exact hignored
    | stopProbing => exact hignored
    | resolvThrottle => exact hignored
  | probing =>
    rw [handleProbing]
    cases ctrl.evt with
    | nothing =>
      dsimp only
      split
      · exact .toDefault (.inl rfl) (.inl hstatus)
      · exact hignored
    | stopProbing => exact .toDefault (hrate _) (.inl hstatus)
    | startCompete => exact hstart s.targetSendBps (.inl rfl)
    | detectThrottle => exact .throttle (hrate _) (by simp [controls, hstatus])
    | startProbing => exact hignored
    | stopCompete => exact hignored
    | resolvThrottle => exact hignored
  | throttled =>
    rw [handleThrottled]
    cases ctrl.evt with
    | resolvThrottle => exact .toDefault (hrate _) (.inr hstatus)
    | startCompete => exact hstart _ (hrate s.throEstFwdBwBps)
    | detectThrottle =>
      have hagain : s.controls.Transition nowUs
          { s.controls with throEstFwdBwBps := s.estFwdBwBps, status := .throttled } :=
        .throttle (.inl rfl) (by simp [controls, hstatus])
      rw [← hstatus] at hagain
      exact hagain
    | nothing => exact hignored
    | startProbing => exact hignored
    | stopCompete => exact hignored
    | stopProbing => exact hignored

end Rates

section Estimates
variable {s s' : CcfsController}

/-- The first estimate leaves a throttled controller's alone. What is returned is its change. -/
theorem estiFwdBwPre_spec {parsed : ParsedFBData} {periodMs : Int} {diffEstBw : ℚ}
    (h : s.estiFwdBwPre parsed periodMs = (diffEstBw, s')) :
    diffEstBw = s'.estFwdBwBps - s.estFwdBwBps ∧ (s.status = .throttled → s'.estFwdBwBps = s.estFwdBwBps) ∧
      s'.controls = { s.controls with estFwdBwBps := s'.estFwdBwBps } := by
  have hcontrols : s'.controls = { s.controls with estFwdBwBps := s'.estFwdBwBps } := by
    obtain ⟨est, received, he⟩ := s.estiFwdBwPre_eq parsed periodMs
    rw [h] at he
    dsimp only at he
    rw [he]
    rfl
  rw [estiFwdBwPre] at h
  cases h
  refine ⟨rfl, fun hstatus => ?_, hcontrols⟩
  dsimp only
  rw [if_neg (fun hopen => hopen.1 hstatus)]

private theorem estiFwdBwPost_spec (old : ℚ) (hold : 0 ≤ old) (hest : 0 ≤ s.estFwdBwBps) (ctrl : ControlSend) :
    0 ≤ (s.estiFwdBwPost (s.estFwdBwBps - old) ctrl).estFwdBwBps ∧
      (s.status = .throttled → s.estiFwdBwPost (s.estFwdBwBps - old) ctrl = s) := by
  rw [estiFwdBwPost]
  split
  · rename_i hback
    refine ⟨?_, fun hstatus => ?_⟩
    · dsimp only
      linarith
    · simp [hstatus] at hback
  · exact ⟨hest, fun _ => rfl⟩

private theorem controlFeedback2_transition (hmin : 0 < s.base.minBw) (hbounds : s.base.minBw ≤ s.base.maxBw)
    {rounds : Nat}
    {nowUs : UInt64} {period : ParsedPeriod} (hperiod : 0 ≤ (period.endMs - period.beginMs).toInt32.toInt)
    (hest : 0 ≤ s.estFwdBwBps) (h : s.controlFeedback2 rounds nowUs period = .ok s') :
    ∃ est, 0 ≤ est ∧ (s.status = .throttled → est = s.estFwdBwBps) ∧
      ({ s.controls with estFwdBwBps := est } : Controls).Transition nowUs s'.controls := by
  obtain ⟨diffEstBw, s0, ctrlSend, window, least, pktSize, qpt, delay, st, excess, count, last, start, lastQDelay,
    hpre, rfl⟩ := controlFeedback2_ok h
  have hpos := estiFwdBwPre_nonneg (s := { s with lossRate := 0, ecnRate := 0 }) (hmin.le.trans hbounds) hest
    period.parsed hperiod
  rw [hpre] at hpos
  obtain ⟨rfl, hsame, hcontrols⟩ := estiFwdBwPre_spec hpre
  have hcontrols : s0.controls = { s.controls with estFwdBwBps := s0.estFwdBwBps } := hcontrols
  generalize hmeasured : ({ s0 with
      qdelayWindow := window, minQDelay := least, minQPktSize := pktSize, ivqQptUs := qpt, ivqDelayUs := delay,
      ivqStUs := st, maXQDelay := excess, incrCount := count, incrLastMinQDelay := last,
      incrStartTime := start } : CcfsController) = measured
  have hs0 : measured.controls = s0.controls := by
    rw [← hmeasured]
    rfl
  have he : measured.estFwdBwBps = s0.estFwdBwBps := congrArg Controls.estFwdBwBps hs0
  have hstatus : measured.status = s.status := congrArg Controls.status (hs0.trans hcontrols)
  obtain ⟨hpost, hthrottled⟩ := estiFwdBwPost_spec (s := measured) s.estFwdBwBps hest
    (he.symm ▸ hpos) ctrlSend
  rw [he] at hpost hthrottled
  obtain ⟨est, hchanged⟩ := measured.estiFwdBwPost_eq (s0.estFwdBwBps - s.estFwdBwBps) ctrlSend
  refine ⟨est, ?_, fun hs => ?_, ?_⟩
  · rw [hchanged] at hpost
    exact hpost
  · have hunchanged := hthrottled (hstatus.trans hs)
    rw [hchanged] at hunchanged
    exact (congrArg CcfsController.estFwdBwBps hunchanged).trans (he.trans (hsame hs))
  · have hsecond : (measured.estiFwdBwPost (s0.estFwdBwBps - s.estFwdBwBps) ctrlSend).controls =
        { s.controls with estFwdBwBps := est } := by
      rw [hchanged]
      show { measured.controls with estFwdBwBps := est } = _
      rw [hs0, hcontrols]
    have htransition := handleSendControl_transition
      (s := measured.estiFwdBwPost (s0.estFwdBwBps - s.estFwdBwBps) ctrlSend) (by rw [hsecond]; exact hbounds)
      nowUs ctrlSend
    rw [hsecond] at htransition
    exact htransition

private theorem step_controls (hmin : 0 < s.base.minBw) (hbounds : s.base.minBw ≤ s.base.maxBw) {rounds : Nat}
    {call : CcfsCall} (hest : 0 ≤ s.estFwdBwBps) (h : s.step rounds call = .ok s') :
    s'.controls = s.controls ∨ ∃ nowUs feedback est, call = .processFeedback2 nowUs feedback ∧ 0 ≤ est ∧
      (s.status = .throttled → est = s.estFwdBwBps) ∧
      ({ s.controls with estFwdBwBps := est } : Controls).Transition nowUs s'.controls := by
  cases step_cases h with
  | send hbase =>
    obtain ⟨hminBw, hmaxBw⟩ := processSendPacket_bounds hbase
    left
    simp only [controls, hminBw, hmaxBw]
  | unused hunused =>
    obtain ⟨sent, lastSent, inflight, count, window, totSent, totRcvd, rfl⟩ := startFeedback2_frame hunused
    exact .inl rfl
  | @used nowUs feedback period s1 s' hstart hcontrol =>
    have hlength := startFeedback2_periodMs hstart
    obtain ⟨sent, lastSent, inflight, count, window, totSent, totRcvd, rfl⟩ := startFeedback2_frame hstart
    obtain ⟨est, htransition⟩ := controlFeedback2_transition
      (s := { s with sentRtpSsrcMap := sent, lastSentRtpMap := lastSent, inflightPktCount := inflight,
                     rxedFbmCount := count, brFractionWindow := window, totSentBytes := totSent,
                     totRcvdBytes := totRcvd }) hmin hbounds (by omega) hest hcontrol
    exact .inr ⟨nowUs, feedback, est, rfl, htransition⟩

end Estimates

/-- No report comes in the first millisecond of the clock. -/
def Clocked (calls : List CcfsCall) : Prop :=
  ∀ nowUs feedback, CcfsCall.processFeedback2 nowUs feedback ∈ calls → 1000 ≤ nowUs

private theorem Clocked.one {call : CcfsCall} {calls : List CcfsCall} (h : Clocked calls) (hcall : call ∈ calls) :
    Clocked [call] := by
  intro nowUs feedback hmem
  exact h nowUs feedback (List.mem_singleton.mp hmem ▸ hcall)

/-- The bounds of the rate, and the links. -/
structure Steady (minBw maxBw : ℚ) (s : CcfsController) : Prop where
  minBw : s.base.minBw = minBw
  maxBw : s.base.maxBw = maxBw
  linked : s.controls.Linked

section Runs
variable {s s' : CcfsController} {minBw maxBw : ℚ} {rounds : Nat} {call : CcfsCall}

private theorem Steady.step_controls (h : Steady minBw maxBw s) (hmin : 0 < minBw) (hbounds : minBw ≤ maxBw)
    (hstep : s.step rounds call = .ok s') :
    s'.controls = s.controls ∨ ∃ nowUs feedback est, call = .processFeedback2 nowUs feedback ∧ 0 ≤ est ∧
      (s.status = .throttled → est = s.estFwdBwBps) ∧
      ({ s.controls with estFwdBwBps := est } : Controls).Transition nowUs s'.controls :=
  CcfsController.step_controls (h.minBw ▸ hmin) (by rw [h.minBw, h.maxBw]; exact hbounds) h.linked.estFwdBwBps hstep

private theorem Steady.linked_estimate (h : Steady minBw maxBw s) {est : ℚ} (hest : 0 ≤ est)
    (hthrottled : s.status = .throttled → est = s.estFwdBwBps) :
    ({ s.controls with estFwdBwBps := est } : Controls).Linked where
  targetQDelay := h.linked.targetQDelay
  lastCompeteTime := h.linked.lastCompeteTime
  throEstFwdBwBps hstatus := (h.linked.throEstFwdBwBps hstatus).trans (hthrottled hstatus).symm
  estFwdBwBps := hest

private theorem step_steady (h : Steady minBw maxBw s) (hmin : 0 < minBw) (hbounds : minBw ≤ maxBw)
    (hclock : Clocked [call]) (hstep : s.step rounds call = .ok s') : Steady minBw maxBw s' := by
  rcases h.step_controls hmin hbounds hstep with hsame | ⟨nowUs, feedback, est, rfl, hest, hthrottled, htransition⟩
  · exact ⟨(congrArg Controls.minBw hsame).trans h.minBw, (congrArg Controls.maxBw hsame).trans h.maxBw,
      hsame ▸ h.linked⟩
  · have hnow := hclock nowUs feedback (by simp)
    exact ⟨htransition.bounds.1.trans h.minBw, htransition.bounds.2.trans h.maxBw,
      htransition.linked hnow (h.linked_estimate hest hthrottled)⟩

private theorem step_throttled (h : Steady minBw maxBw s) (hmin : 0 < minBw) (hbounds : minBw ≤ maxBw)
    (hstatus : s.status = .throttled) (hstep : s.step rounds call = .ok s') :
    s'.estFwdBwBps = s.estFwdBwBps ∧ s'.throEstFwdBwBps = s.throEstFwdBwBps := by
  rcases h.step_controls hmin hbounds hstep with hsame | ⟨nowUs, feedback, est, -, hest, hthrottled, htransition⟩
  · exact ⟨congrArg Controls.estFwdBwBps hsame, congrArg Controls.throEstFwdBwBps hsame⟩
  · exact ⟨htransition.estFwdBwBps.trans (hthrottled hstatus),
      htransition.throEstFwdBwBps (h.linked_estimate hest hthrottled) hstatus⟩

private theorem step_inBounds (h : Steady minBw maxBw s) (hmin : 0 < minBw) (hbounds : minBw ≤ maxBw)
    (hrate : s.controls.InBounds s.targetSendBps) (hstep : s.step rounds call = .ok s') :
    s'.controls.InBounds s'.targetSendBps := by
  rcases h.step_controls hmin hbounds hstep with hsame | ⟨nowUs, feedback, est, -, -, -, htransition⟩
  · rw [show s'.targetSendBps = s.targetSendBps from congrArg Controls.targetSendBps hsame, hsame]
    exact hrate
  · exact htransition.inBounds hrate

private theorem run_steady {calls : List CcfsCall} (h : Steady minBw maxBw s) (hmin : 0 < minBw)
    (hbounds : minBw ≤ maxBw)
    (hclock : Clocked calls) (hrun : run (step rounds) s calls = .ok s') : Steady minBw maxBw s' := by
  apply run_keeps (step rounds) _ (fun _ => hclock.one) h hrun
  intro mid call next hone hmid hnext
  exact step_steady hmid hmin hbounds hone hnext

private theorem run_inBounds {calls : List CcfsCall} (h : Steady minBw maxBw s) (hmin : 0 < minBw)
    (hbounds : minBw ≤ maxBw) (hclock : Clocked calls) (hrate : s.controls.InBounds s.targetSendBps)
    (hrun : run (step rounds) s calls = .ok s') : s'.controls.InBounds s'.targetSendBps := by
  have hkept : Steady minBw maxBw s' ∧ s'.controls.InBounds s'.targetSendBps := by
    apply run_keeps (step rounds) (motive := fun s => Steady minBw maxBw s ∧ s.controls.InBounds s.targetSendBps)
      _ (fun _ => hclock.one) ⟨h, hrate⟩ hrun
    intro mid call next hone hmid hnext
    exact ⟨step_steady hmid.1 hmin hbounds hone hnext, step_inBounds hmid.1 hmin hbounds hmid.2 hnext⟩
  exact hkept.2

private theorem steady_reset (s : CcfsController) (initBw minBw maxBw : ℚ) :
    Steady minBw maxBw (((s.reset.setInitBw initBw).setMinBw minBw).setMaxBw maxBw) :=
  ⟨rfl, rfl, rfl, ⟨fun h => absurd rfl h, nofun⟩, nofun, le_rfl⟩

end Runs

/-- In every state that sends and reports reach from a reset, with any bounds of the rate: the
status determines the target delay and whether there is a time of competing, a throttled
controller keeps its estimate, and the estimate is a bandwidth. A target within the bounds
stays within them. -/
theorem run_status {s0 s : CcfsController} {initBw minBw maxBw : ℚ} {rounds : Nat} {calls : List CcfsCall}
    (hmin : 0 < minBw) (hbounds : minBw ≤ maxBw) (hclock : Clocked calls)
    (hrun : run (step rounds) (((s0.reset.setInitBw initBw).setMinBw minBw).setMaxBw maxBw) calls = .ok s) :
    s.targetQDelay = (if s.status = .competing then 100 else 50) ∧
    (s.lastCompeteTime ≠ 0 ↔ s.status = .competing) ∧
    (s.status = .throttled → s.throEstFwdBwBps = s.estFwdBwBps ∧ ∀ call next, s.step rounds call = .ok next →
      next.estFwdBwBps = s.estFwdBwBps ∧ next.throEstFwdBwBps = s.throEstFwdBwBps) ∧
    0 ≤ s.estFwdBwBps ∧
    (minBw / 8 ≤ s.targetSendBps ∧ s.targetSendBps ≤ maxBw / 8 → ∀ later next, Clocked later →
      run (step rounds) s later = .ok next → minBw / 8 ≤ next.targetSendBps ∧ next.targetSendBps ≤ maxBw / 8) := by
  have h := run_steady (steady_reset s0 initBw minBw maxBw) hmin hbounds hclock hrun
  refine ⟨h.linked.targetQDelay, h.linked.lastCompeteTime, fun hstatus => ⟨h.linked.throEstFwdBwBps hstatus, ?_⟩,
    h.linked.estFwdBwBps, ?_⟩
  · intro call next hstep
    exact step_throttled h hmin hbounds hstatus hstep
  · intro hrate later next hlater hnext
    have hin : s.controls.InBounds s.targetSendBps := by
      rw [← h.minBw, ← h.maxBw] at hrate
      exact hrate
    have hsteady := run_steady h hmin hbounds hlater hnext
    have hstays := run_inBounds h hmin hbounds hlater hin hnext
    rw [← hsteady.minBw, ← hsteady.maxBw]
    exact hstays

/-- The queuing delay goes up from report to report, until the controller competes. -/
theorem run_status_competing :
    let calls : List CcfsCall := (List.range 5).flatMap fun i =>
      [.processSendPacket2 7 (1000000 + 1000000 * UInt64.ofNat i) (UInt16.ofNat i) 3000,
       .processFeedback2 (1900000 + 1000000 * UInt64.ofNat i)
         (reportOf [(7, UInt16.ofNat i, 1050 + 1100 * UInt64.ofNat i)] (1060 + 1100 * UInt64.ofNat i))]
    ∃ s, run (step 2) (((constructed.reset.setInitBw 200000).setMinBw 160000).setMaxBw 900000) calls = .ok s ∧
      s.status = .competing ∧ s.targetQDelay = 100 ∧ s.lastCompeteTime = 5900 := by
  intro calls
  have hfacts : (run (step 2) (((constructed.reset.setInitBw 200000).setMinBw 160000).setMaxBw 900000) calls).map
      (fun s => decide (s.status = .competing ∧ s.lastCompeteTime = 5900)) = .ok true := by
    decide +kernel
  obtain ⟨s, hrun, hdecided⟩ := map_eq_ok.mp hfacts
  obtain ⟨hstatus, htime⟩ := of_decide_eq_true hdecided
  have hclock : Clocked calls := by
    intro nowUs feedback hmem
    obtain ⟨i, hi, hmem⟩ := List.mem_flatMap.mp hmem
    have htimes : ∀ i ∈ List.range 5, (1000 : UInt64) ≤ 1900000 + 1000000 * UInt64.ofNat i := by decide
    simp only [List.mem_cons, List.not_mem_nil, or_false, reduceCtorEq, false_or,
      CcfsCall.processFeedback2.injEq] at hmem
    rw [hmem.1]
    exact htimes i hi
  have h := run_status (by norm_num) (by norm_num) hclock hrun
  rw [if_pos hstatus] at h
  exact ⟨s, hrun, hstatus, h.1, htime⟩

end CcfsController

end Ns3Rmcat.Controller
