import Ns3Rmcat.Controller.CcfsStatus

/-! The estimate of the forward bandwidth against the upper bound of the rate. An estimate that
is made from an older one is clipped; the first one is not. -/
namespace Ns3Rmcat.Controller
open Lib Header

namespace CcfsController

/-- What was received in a parsed period, in bytes per second. -/
def rxedBps (parsed : ParsedFBData) (periodMs : Int) : ℚ := 1000 * parsed.rxedBytes.toNat / periodMs

/-- The estimate is changed: not when throttled, nor when all that was sent has arrived and is no
more than the target, nor when competing unless more arrived than estimated, without a loss. -/
def TakesInput (s : CcfsController) (parsed : ParsedFBData) (lastRxedBps : ℚ) : Prop :=
  s.status ≠ .throttled ∧
    (parsed.rxedSentBytes < parsed.txedBytes ∨
      (parsed.txedBytes = parsed.rxedSentBytes ∧ s.targetSendBps < lastRxedBps)) ∧
    (s.status ≠ .competing ∨ (s.estFwdBwBps < lastRxedBps * (1 - kCcfsFwdBwdRoom) ∧ parsed.lossCount = 0))

instance (s : CcfsController) (parsed : ParsedFBData) (lastRxedBps : ℚ) : Decidable (s.TakesInput parsed lastRxedBps) :=
  inferInstanceAs (Decidable (_ ∧ _))

/-- A report that makes a first estimate, or one below the lower bound anew, brings no more than
the upper bound. -/
def FirstEstimateFits (s : CcfsController) : CcfsCall → Prop
  | .processSendPacket2 .. => True
  | .processFeedback2 _ feedback => ∀ period s1, s.startFeedback2 feedback = .ok (.ok period, s1) →
    s.TakesInput period.parsed (rxedBps period.parsed feedback.monitoredMs.toNat) →
    s.estFwdBwBps < s.base.minBw / 8 →
    rxedBps period.parsed feedback.monitoredMs.toNat ≤ s.base.maxBw / 8

instance (s : CcfsController) : DecidablePred s.FirstEstimateFits
  | .processSendPacket2 .. => .isTrue trivial
  | .processFeedback2 _ feedback =>
    match h : s.startFeedback2 feedback with
    | .ok (.ok period, s1) =>
      decidable_of_iff (s.TakesInput period.parsed (rxedBps period.parsed feedback.monitoredMs.toNat) →
        s.estFwdBwBps < s.base.minBw / 8 → rxedBps period.parsed feedback.monitoredMs.toNat ≤ s.base.maxBw / 8)
        ⟨fun hfits _ _ h' => by cases h.symm.trans h'; exact hfits, fun hfits => hfits period s1 h⟩
    | .ok (.error _, _) => .isTrue fun _ _ h' => nomatch h.symm.trans h'
    | .error _ => .isTrue fun _ _ h' => nomatch h.symm.trans h'

/-- The estimate is within the upper bound when a call is made; and in a report, after the first
estimate and after the correction while competing. -/
def EstimatesBounded (rounds : Nat) (maxBw : ℚ) (s : CcfsController) : CcfsCall → Prop
  | .processSendPacket2 .. => s.estFwdBwBps ≤ maxBw / 8
  | .processFeedback2 nowUs feedback => s.estFwdBwBps ≤ maxBw / 8 ∧
    ∀ period s1 difference s2, s.startFeedback2 feedback = .ok (.ok period, s1) →
      ({ s1 with lossRate := 0, ecnRate := 0 } : CcfsController).estiFwdBwPre period.parsed
        (period.endMs - period.beginMs).toInt32.toInt = (difference, s2) →
      s2.estFwdBwBps ≤ maxBw / 8 ∧
        ∀ qdelay s3 ctrl s4, s2.estiQDelay rounds period.endMs period.parsed.vq = .ok (qdelay, s3) →
          s3.getControlSend nowUs qdelay period.endMs period.brFraction = (ctrl, s4) →
          (s4.estiFwdBwPost difference ctrl).estFwdBwBps ≤ maxBw / 8

section Estimate
variable {s s' : CcfsController} {parsed : ParsedFBData} {periodMs : Int} {difference : ℚ}

private theorem estiFwdBwPre_estimate (h : s.estiFwdBwPre parsed periodMs = (difference, s')) :
    (s.TakesInput parsed (rxedBps parsed periodMs) ∧
      s'.estFwdBwBps = (s.setFwdBw (rxedBps parsed periodMs * (1 - kCcfsFwdBwdRoom))).estFwdBwBps) ∨
    (¬ s.TakesInput parsed (rxedBps parsed periodMs) ∧ s'.estFwdBwBps = s.estFwdBwBps) := by
  rw [estiFwdBwPre] at h
  cases h
  by_cases htakes : s.TakesInput parsed (rxedBps parsed periodMs)
  · refine .inl ⟨htakes, ?_⟩
    rw [TakesInput, rxedBps] at htakes
    dsimp only
    rw [if_pos htakes]
    rfl
  · refine .inr ⟨htakes, ?_⟩
    rw [TakesInput, rxedBps] at htakes
    dsimp only
    rw [if_neg htakes]

private theorem setFwdBw_first (hlow : s.estFwdBwBps < s.base.minBw / 8) (lastRxedBps : ℚ) :
    (s.setFwdBw (lastRxedBps * (1 - kCcfsFwdBwdRoom))).estFwdBwBps = lastRxedBps := by
  have hroom : (1 - kCcfsFwdBwdRoom : ℚ) ≠ 0 := by norm_num [kCcfsFwdBwdRoom]
  rw [setFwdBw, if_pos hlow]
  exact mul_div_cancel_right₀ lastRxedBps hroom

private theorem setFwdBw_clipped (hhigh : ¬ s.estFwdBwBps < s.base.minBw / 8) (roomedInputBwBps : ℚ) :
    (s.setFwdBw roomedInputBwBps).estFwdBwBps ≤ s.base.maxBw / 8 := by
  rw [setFwdBw, if_neg hhigh]
  dsimp only
  split
  · exact le_rfl
  · rename_i hle
    exact not_lt.mp hle

private theorem estiFwdBwPre_bounded (hest : s.estFwdBwBps ≤ s.base.maxBw / 8)
    (h : s.estiFwdBwPre parsed periodMs = (difference, s')) :
    s'.estFwdBwBps ≤ s.base.maxBw / 8 ↔ (s.TakesInput parsed (rxedBps parsed periodMs) →
      s.estFwdBwBps < s.base.minBw / 8 → rxedBps parsed periodMs ≤ s.base.maxBw / 8) := by
  rcases estiFwdBwPre_estimate h with ⟨htakes, hs'⟩ | ⟨hnot, hs'⟩
  · rw [hs']
    by_cases hlow : s.estFwdBwBps < s.base.minBw / 8
    · rw [setFwdBw_first hlow]
      exact ⟨fun hle _ _ => hle, fun himp => himp htakes hlow⟩
    · exact ⟨fun _ _ hlow' => absurd hlow' hlow, fun _ => setFwdBw_clipped hlow _⟩
  · rw [hs']
    exact ⟨fun _ htakes => absurd htakes hnot, fun _ => hest⟩

private theorem estiFwdBwPre_bounded_of {s1 : CcfsController} (hsame : s1.estimates = s.estimates)
    (hest : s.estFwdBwBps ≤ s.base.maxBw / 8) (h : s1.estiFwdBwPre parsed periodMs = (difference, s')) :
    s'.estFwdBwBps ≤ s.base.maxBw / 8 ↔ (s.TakesInput parsed (rxedBps parsed periodMs) →
      s.estFwdBwBps < s.base.minBw / 8 → rxedBps parsed periodMs ≤ s.base.maxBw / 8) := by
  have hbase : s1.base = s.base := congrArg Estimates.base hsame
  have hestimate : s1.estFwdBwBps = s.estFwdBwBps := congrArg Estimates.estFwdBwBps hsame
  have hstatus : s1.status = s.status := congrArg Estimates.status hsame
  have htarget : s1.targetSendBps = s.targetSendBps := congrArg Estimates.targetSendBps hsame
  have hiff := estiFwdBwPre_bounded (s := s1) (by rw [hbase, hestimate]; exact hest) h
  rwa [TakesInput, hbase, hestimate, hstatus, htarget] at hiff

private theorem estiFwdBwPost_le {bound : ℚ} (hest : s.estFwdBwBps ≤ bound) (hback : s.estFwdBwBps - difference ≤ bound)
    (ctrl : ControlSend) : (s.estiFwdBwPost difference ctrl).estFwdBwBps ≤ bound := by
  rw [estiFwdBwPost]
  split
  · exact hback
  · exact hest

end Estimate

section Runs
variable {s s' : CcfsController} {rounds : Nat} {call : CcfsCall}

private theorem estimatesBounded_iff (hest : s.estFwdBwBps ≤ s.base.maxBw / 8) :
    s.EstimatesBounded rounds s.base.maxBw call ↔ s.FirstEstimateFits call := by
  cases call with
  | processSendPacket2 ssrc localTimestampUs sequence size => exact ⟨fun _ => trivial, fun _ => hest⟩
  | processFeedback2 nowUs feedback =>
    have hpre {period : ParsedPeriod} {s1 s2 : CcfsController} {difference : ℚ}
        (hstart : s.startFeedback2 feedback = .ok (.ok period, s1))
        (h : ({ s1 with lossRate := 0, ecnRate := 0 } : CcfsController).estiFwdBwPre period.parsed
          (period.endMs - period.beginMs).toInt32.toInt = (difference, s2)) :
        s2.estFwdBwBps ≤ s.base.maxBw / 8 ↔
          (s.TakesInput period.parsed (rxedBps period.parsed feedback.monitoredMs.toNat) →
            s.estFwdBwBps < s.base.minBw / 8 →
            rxedBps period.parsed feedback.monitoredMs.toNat ≤ s.base.maxBw / 8) := by
      rw [startFeedback2_periodMs hstart] at h
      have hsame : ({ s1 with lossRate := 0, ecnRate := 0 } : CcfsController).estimates = s.estimates :=
        (startFeedback2_ok hstart).2.1
      exact estiFwdBwPre_bounded_of hsame hest h
    constructor
    · intro hbounded period s1 hstart
      exact (hpre hstart rfl).mp (hbounded.2 period s1 _ _ hstart rfl).1
    · intro hfits
      refine ⟨hest, fun period s1 difference s2 hstart h => ?_⟩
      have hs2 := (hpre hstart h).mpr (hfits period s1 hstart)
      refine ⟨hs2, fun qdelay s3 ctrl s4 hqdelay hcontrol => ?_⟩
      have hestimate : s1.estFwdBwBps = s.estFwdBwBps :=
        congrArg Estimates.estFwdBwBps (startFeedback2_ok hstart).2.1
      have hback : s2.estFwdBwBps - difference = s.estFwdBwBps := by
        rw [(estiFwdBwPre_spec h).1, sub_sub_cancel]
        exact hestimate
      have hs4 : s4.estFwdBwBps = s2.estFwdBwBps := by
        obtain ⟨window, least, pktSize, qpt, delay, st, excess, rfl⟩ := estiQDelay_ok hqdelay
        obtain ⟨count, last, start, hcontrol'⟩ := getControlSend_eq _ nowUs qdelay period.endMs period.brFraction
        rw [hcontrol] at hcontrol'
        dsimp only at hcontrol'
        rw [hcontrol']
      exact estiFwdBwPost_le (by rw [hs4]; exact hs2) (by rw [hs4, hback]; exact hest) ctrl

private theorem step_estimate (hbounds : s.base.minBw ≤ s.base.maxBw)
    (hbounded : s.EstimatesBounded rounds s.base.maxBw call) (hstep : s.step rounds call = .ok s') :
    s'.estFwdBwBps ≤ s.base.maxBw / 8 := by
  cases step_cases hstep with
  | send hbase => exact hbounded
  | unused hunused =>
    obtain ⟨sent, lastSent, inflight, count, window, totSent, totRcvd, rfl⟩ := startFeedback2_frame hunused
    exact hbounded.1
  | @used nowUs feedback period s1 s' hstart hcontrol =>
    obtain ⟨difference, s2, qdelay, s3, ctrl, s4, hpre, hqdelay, hsend, rfl⟩ := controlFeedback2_parts hcontrol
    have hpost := (hbounded.2 period s1 difference s2 hstart hpre).2 qdelay s3 ctrl s4 hqdelay hsend
    have hbase : (s4.estiFwdBwPost difference ctrl).base = s.base :=
      (congrArg Records.base (handleSendControl_records _ nowUs ctrl)).symm.trans
        ((congrArg Records.base (controlFeedback2_records hcontrol)).trans
          (congrArg Estimates.base (startFeedback2_ok hstart).2.1))
    have htransition := handleSendControl_transition (s := s4.estiFwdBwPost difference ctrl)
      (by rw [controls, hbase]; exact hbounds) nowUs ctrl
    exact htransition.estFwdBwBps.trans_le hpost

private theorem step_bounds (h : s.step rounds call = .ok s') :
    s'.base.minBw = s.base.minBw ∧ s'.base.maxBw = s.base.maxBw := by
  rcases step_base h with hsame | ⟨nowMs, sequence, size, ok, hsend⟩
  · rw [hsame]
    exact ⟨rfl, rfl⟩
  · exact processSendPacket_bounds hsend

private theorem estimate_run {s0 : CcfsController} {minBw maxBw : ℚ} {calls : List CcfsCall} (hbounds : minBw ≤ maxBw)
    (hmin : s0.base.minBw = minBw) (hmax : s0.base.maxBw = maxBw) (hest : s0.estFwdBwBps ≤ maxBw / 8)
    (hrun : run (step rounds) s0 calls = .ok s) :
    (Along (step rounds) (EstimatesBounded rounds maxBw) s0 calls ∧ s.estFwdBwBps ≤ maxBw / 8) ↔
      Along (step rounds) FirstEstimateFits s0 calls := by
  induction calls generalizing s0 with
  | nil =>
    cases hrun
    exact ⟨fun _ => along_nil _ _, fun _ => ⟨along_nil _ _, hest⟩⟩
  | cons call calls ih =>
    obtain ⟨next, hnext, hrun⟩ := bind_eq_ok.mp hrun
    have hcall : s0.EstimatesBounded rounds s0.base.maxBw call ↔ s0.FirstEstimateFits call :=
      estimatesBounded_iff (hmax.symm ▸ hest)
    rw [hmax] at hcall
    obtain ⟨hmin', hmax'⟩ := step_bounds hnext
    have hrest (hbounded : s0.EstimatesBounded rounds maxBw call) :=
      ih (hmin'.trans hmin) (hmax'.trans hmax) (hmax ▸ step_estimate (by rw [hmin, hmax]; exact hbounds)
        (hmax.symm ▸ hbounded) hnext) hrun
    rw [along_cons, along_cons, hcall]
    constructor
    · rintro ⟨⟨hfits, hafter⟩, hs⟩
      refine ⟨hfits, fun other hother => ?_⟩
      cases hnext.symm.trans hother
      exact (hrest (hcall.mpr hfits)).mp ⟨hafter next hnext, hs⟩
    · rintro ⟨hfits, hafter⟩
      obtain ⟨hbounded, hs⟩ := (hrest (hcall.mpr hfits)).mpr (hafter next hnext)
      refine ⟨⟨hfits, fun other hother => ?_⟩, hs⟩
      cases hnext.symm.trans hother
      exact hbounded

/-- In every run from a reset the estimate is within the upper bound, also between the two
estimates of each report, exactly when every first estimate fits. -/
theorem estimate_bounded_iff {s0 : CcfsController} {initBw minBw maxBw : ℚ} {calls : List CcfsCall}
    (hmin : 0 < minBw) (hbounds : minBw ≤ maxBw)
    (hrun : run (step rounds) (((s0.reset.setInitBw initBw).setMinBw minBw).setMaxBw maxBw) calls = .ok s) :
    (Along (step rounds) (EstimatesBounded rounds maxBw)
        (((s0.reset.setInitBw initBw).setMinBw minBw).setMaxBw maxBw) calls ∧ s.estFwdBwBps ≤ maxBw / 8) ↔
      Along (step rounds) FirstEstimateFits (((s0.reset.setInitBw initBw).setMinBw minBw).setMaxBw maxBw) calls := by
  refine estimate_run hbounds rfl rfl ?_ hrun
  exact div_nonneg (hmin.le.trans hbounds) (by norm_num)

/-- Two packets at once, and the report of both. -/
def pair : List CcfsCall :=
  [.processSendPacket2 7 1000000 1 1500, .processSendPacket2 7 1001000 2 1500,
    .processFeedback2 1040000 (reportOf [(7, 1, 1020), (7, 2, 1021)] 1030)]

theorem estimate_bounded_iff_pair :
    ∃ s, run (step 2) (((constructed.reset.setInitBw 200000).setMinBw 160000).setMaxBw 900000) pair = .ok s ∧
      0 < s.estFwdBwBps ∧ s.estFwdBwBps ≤ 900000 / 8 := by
  have hfacts : (run (step 2) (((constructed.reset.setInitBw 200000).setMinBw 160000).setMaxBw 900000) pair).map
      (fun s => decide (0 < s.estFwdBwBps)) = .ok true := by
    decide +kernel
  have hfits : Along (step 2) FirstEstimateFits
      (((constructed.reset.setInitBw 200000).setMinBw 160000).setMaxBw 900000) pair := by
    decide +kernel
  obtain ⟨s, hrun, hpos⟩ := map_eq_ok.mp hfacts
  exact ⟨s, hrun, of_decide_eq_true hpos,
    ((estimate_bounded_iff (by norm_num) (by norm_num) hrun).mpr hfits).2⟩

/-- With a lower upper bound the same report makes a first estimate above it. -/
theorem first_estimate_above_bound :
    ∃ s, run (step 2) (((constructed.reset.setInitBw 200000).setMinBw 160000).setMaxBw 200000) pair = .ok s ∧
      s.estFwdBwBps = 30000 ∧ ¬ s.estFwdBwBps ≤ 200000 / 8 := by
  have hfacts : (run (step 2) (((constructed.reset.setInitBw 200000).setMinBw 160000).setMaxBw 200000) pair).map
      (fun s => decide (s.estFwdBwBps = 30000)) = .ok true := by
    decide +kernel
  obtain ⟨s, hrun, hdecided⟩ := map_eq_ok.mp hfacts
  have hest := of_decide_eq_true hdecided
  exact ⟨s, hrun, hest, by rw [hest]; norm_num⟩

end Runs

end CcfsController

end Ns3Rmcat.Controller
