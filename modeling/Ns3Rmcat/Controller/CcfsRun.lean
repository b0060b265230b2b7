import Ns3Rmcat.Controller.CcfsControl
import Ns3Rmcat.Controller.SenderBasedSteps

/-! Runs of the CCFS controller: sends and reports in any order. What each part of them
changes and leaves alone is stated once here. -/
namespace Ns3Rmcat.Controller
open Lib Header

inductive CcfsCall where
  | processSendPacket2 (ssrc : UInt32) (localTimestampUs : UInt64) (sequence : UInt16) (size : UInt32)
  | processFeedback2 (nowUs : UInt64) (feedback : RfbHeader)

namespace CcfsController

def step (rounds : Nat) (s : CcfsController) : CcfsCall → Checked CcfsController
  | .processSendPacket2 ssrc localTimestampUs sequence size => do
    let (_, s) ← s.processSendPacket2 ssrc localTimestampUs sequence size
    return s
  | .processFeedback2 nowUs feedback => do
    let (_, s) ← s.processFeedback2 rounds nowUs feedback
    return s

/-- A report of 100 milliseconds: the packets that arrived, each with its arrival time. -/
def reportOf (arrivals : List (UInt32 × UInt16 × UInt64)) (reportTimeMs : UInt64) : RfbHeader :=
  let feedback := arrivals.foldl (fun feedback a => (feedback.addFeedback a.1 a.2.1 a.2.2 0).2) RfbHeader.fresh
  (feedback.setMonitoredTime 100).setReportTime reportTimeMs

/-- The records of packets and periods. -/
structure Records where
  base : SenderBasedController ℚ
  sentRtpSsrcMap : Std.ExtTreeMap UInt32 SentRtpStream
  lastSentRtpMap : Std.ExtTreeMap UInt32 UInt16
  inflightPktCount : UInt32
  brFractionWindow : List BrFractionData
  totSentBytes : UInt64
  totRcvdBytes : UInt64

def records (s : CcfsController) : Records :=
  ⟨s.base, s.sentRtpSsrcMap, s.lastSentRtpMap, s.inflightPktCount, s.brFractionWindow, s.totSentBytes, s.totRcvdBytes⟩

/-- What the estimates of bandwidth and delay are made from. -/
structure Estimates where
  base : SenderBasedController ℚ
  estFwdBwBps : ℚ
  qdelayWindow : List (Int × UInt64)
  minQDelay : Int
  minQPktSize : UInt32
  lastQDelay : Int
  ivqStUs : UInt64
  status : SenderStatus
  targetSendBps : ℚ

def estimates (s : CcfsController) : Estimates :=
  ⟨s.base, s.estFwdBwBps, s.qdelayWindow, s.minQDelay, s.minQPktSize, s.lastQDelay, s.ivqStUs, s.status,
    s.targetSendBps⟩

private theorem validateFeedback_ok {s s' : CcfsController} {feedback : RfbHeader} {valid : Bool}
    (h : s.validateFeedback feedback = .ok (valid, s')) :
    ∃ sent lastSent inflight,
      s' = { s with sentRtpSsrcMap := sent, lastSentRtpMap := lastSent, inflightPktCount := inflight } := by
  rw [validateFeedback] at h
  dsimp only at h
  split at h
  · cases h
    exact ⟨_, _, _, rfl⟩
  · obtain ⟨⟨remains, s1⟩, hremains, h⟩ := bind_eq_ok.mp h
    obtain ⟨count, -, h⟩ := bind_eq_ok.mp h
    cases h
    obtain ⟨reported, -, hremains⟩ := bind_eq_ok.mp hremains
    obtain ⟨-, hremains⟩ := check_bind_eq_ok.mp hremains
    obtain ⟨-, hremains⟩ := check_bind_eq_ok.mp hremains
    cases hremains
    exact ⟨_, _, _, rfl⟩

theorem parseFeedback_ok {s s' : CcfsController} {feedback : RfbHeader} {beginMs endMs : UInt32}
    {parsed : ParsedFBData} (h : s.parseFeedback feedback beginMs endMs = (parsed, s')) :
    ∃ sent, s' = { s with sentRtpSsrcMap := sent } := by
  rw [parseFeedback] at h
  generalize ({} : ParsedFBData) = start at h
  generalize feedback.getSsrcList = ssrcs at h
  induction ssrcs generalizing s start with
  | nil =>
    cases h
    exact ⟨_, rfl⟩
  | cons ssrc ssrcs ih =>
    obtain ⟨sent, hsent⟩ := ih _ h
    exact ⟨sent, hsent⟩

/-- How long a period is can be told from its end and its begin, though the begin may wrap. -/
theorem period_length (endMs : UInt64) (monitoredMs : UInt16) :
    endMs.toUInt32 - (endMs - monitoredMs.toUInt64).toUInt32 = monitoredMs.toUInt32 := by
  have hend := endMs.toUInt32.toNat_lt
  have hmonitored := monitoredMs.toNat_lt
  have hcast : monitoredMs.toUInt64.toUInt32 = monitoredMs.toUInt32 := by
    apply UInt32.toNat_inj.mp
    simp
  rw [UInt64.toUInt32_sub, hcast]
  apply UInt32.toNat_inj.mp
  rw [UInt32.toNat_sub, UInt32.toNat_sub, UInt16.toNat_toUInt32]
  omega

private theorem getLastPeriodMs_length {s : CcfsController} {feedback : RfbHeader}
    (hne : (s.getLastPeriodMs feedback).1 ≠ (s.getLastPeriodMs feedback).2) :
    (s.getLastPeriodMs feedback).2 - (s.getLastPeriodMs feedback).1 = feedback.monitoredMs.toUInt32 := by
  revert hne
  rw [getLastPeriodMs]
  dsimp only
  split
  · simp
  · split
    · simp
    · exact fun _ => period_length _ _

/-- The first part of processing a report changes the records of packets and periods only. -/
theorem startFeedback2_frame {s s' : CcfsController} {feedback : RfbHeader} {period : Except Bool ParsedPeriod}
    (h : s.startFeedback2 feedback = .ok (period, s')) :
    ∃ sent lastSent inflight count window totSent totRcvd, s' =
      { s with sentRtpSsrcMap := sent, lastSentRtpMap := lastSent, inflightPktCount := inflight,
               rxedFbmCount := count, brFractionWindow := window, totSentBytes := totSent, totRcvdBytes := totRcvd } := by
  obtain ⟨⟨valid, s1⟩, hvalid, h⟩ := bind_eq_ok.mp h
  obtain ⟨sent, lastSent, inflight, rfl⟩ := validateFeedback_ok hvalid
  dsimp only at h
  split at h
  · cases h
    exact ⟨_, _, _, _, _, _, _, rfl⟩
  · split at h
    · cases h
      exact ⟨_, _, _, _, _, _, _, rfl⟩
    · generalize hparse : parseFeedback _ feedback _ _ = result at h
      obtain ⟨parsed, s2⟩ := result
      obtain ⟨sent', rfl⟩ := parseFeedback_ok hparse
      cases h
      exact ⟨_, _, _, _, _, _, _, rfl⟩

/-- A report that a period has been parsed for: how long the period is, and that nothing has
been changed but the records. -/
theorem startFeedback2_ok {s s' : CcfsController} {feedback : RfbHeader} {period : ParsedPeriod}
    (h : s.startFeedback2 feedback = .ok (.ok period, s')) :
    period.endMs - period.beginMs = feedback.monitoredMs.toUInt32 ∧ s'.estimates = s.estimates ∧
      (s'.brFractionWindow, s'.totSentBytes, s'.totRcvdBytes) =
        evictBrFractions period.endMs
          (s.brFractionWindow ++ [⟨period.beginMs.toUInt64, period.parsed.txedBytes, period.parsed.rxedBytes⟩])
          (s.totSentBytes + period.parsed.txedBytes) (s.totRcvdBytes + period.parsed.rxedBytes) ∧
      period.brFraction = ⟨s'.totRcvdBytes, s'.totSentBytes⟩ := by
  obtain ⟨⟨valid, s1⟩, hvalid, h⟩ := bind_eq_ok.mp h
  obtain ⟨sent, lastSent, inflight, rfl⟩ := validateFeedback_ok hvalid
  dsimp only at h
  split at h
  · cases h
  · split at h
    · cases h
    · rename_i hne
      generalize hparse : parseFeedback _ feedback _ _ = result at h
      obtain ⟨parsed, s2⟩ := result
      obtain ⟨sent', rfl⟩ := parseFeedback_ok hparse
      cases h
      exact ⟨getLastPeriodMs_length hne, rfl, rfl, rfl⟩

/-- The signed length of a parsed period is the time that the report is about. -/
theorem startFeedback2_periodMs {s s' : CcfsController} {feedback : RfbHeader} {period : ParsedPeriod}
    (h : s.startFeedback2 feedback = .ok (.ok period, s')) :
    (period.endMs - period.beginMs).toInt32.toInt = feedback.monitoredMs.toNat := by
  have hlt := feedback.monitoredMs.toNat_lt
  rw [(startFeedback2_ok h).1]
  refine (BitVec.toInt_eq_toNat_cond feedback.monitoredMs.toUInt32.toBitVec).trans ?_
  rw [UInt32.toNat_toBitVec, UInt16.toNat_toUInt32, if_pos (by omega)]

/-- A report that is not used leaves the window of bitrate fractions alone. -/
theorem startFeedback2_unused {s s' : CcfsController} {feedback : RfbHeader} {result : Bool}
    (h : s.startFeedback2 feedback = .ok (.error result, s')) :
    s'.base = s.base ∧ s'.brFractionWindow = s.brFractionWindow ∧ s'.totSentBytes = s.totSentBytes ∧
      s'.totRcvdBytes = s.totRcvdBytes := by
  obtain ⟨⟨valid, s1⟩, hvalid, h⟩ := bind_eq_ok.mp h
  obtain ⟨sent, lastSent, inflight, rfl⟩ := validateFeedback_ok hvalid
  dsimp only at h
  split at h
  · cases h
    exact ⟨rfl, rfl, rfl, rfl⟩
  · split at h
    · cases h
      exact ⟨rfl, rfl, rfl, rfl⟩
    · cases h

private theorem setFwdBw_eq (s : CcfsController) (roomedInputBwBps : ℚ) :
    ∃ est, s.setFwdBw roomedInputBwBps = { s with estFwdBwBps := est } := by
  rw [setFwdBw]
  split <;> exact ⟨_, rfl⟩

theorem estiFwdBwPre_eq (s : CcfsController) (parsed : ParsedFBData) (periodMs : Int) :
    ∃ est received, (s.estiFwdBwPre parsed periodMs).2 =
      { s with estFwdBwBps := est, lastReceivedBps := received } := by
  rw [estiFwdBwPre]
  dsimp only
  split
  · obtain ⟨est, he⟩ := s.setFwdBw_eq (1000 * parsed.rxedBytes.toNat / periodMs * (1 - kCcfsFwdBwdRoom))
    rw [he]
    exact ⟨_, _, rfl⟩
  · exact ⟨s.estFwdBwBps, _, rfl⟩

private theorem setFwdBw_nonneg {s : CcfsController} (hmax : 0 ≤ s.base.maxBw) (hest : 0 ≤ s.estFwdBwBps)
    {roomedInputBwBps : ℚ} (hinput : 0 ≤ roomedInputBwBps) : 0 ≤ (s.setFwdBw roomedInputBwBps).estFwdBwBps := by
  rw [setFwdBw]
  split
  · exact div_nonneg hinput (by norm_num [kCcfsFwdBwdRoom])
  · dsimp only
    split
    · exact div_nonneg hmax (by norm_num)
    · have hold : (0 : ℚ) ≤ kCcfsFwdBwdEstMAFactor := by norm_num [kCcfsFwdBwdEstMAFactor]
      have hnew : (0 : ℚ) ≤ 1 - kCcfsFwdBwdEstMAFactor := by norm_num [kCcfsFwdBwdEstMAFactor]
      positivity

theorem estiFwdBwPre_nonneg {s : CcfsController} (hmax : 0 ≤ s.base.maxBw) (hest : 0 ≤ s.estFwdBwBps)
    (parsed : ParsedFBData) {periodMs : Int} (hperiod : 0 ≤ periodMs) :
    0 ≤ (s.estiFwdBwPre parsed periodMs).2.estFwdBwBps := by
  have hroom : (0 : ℚ) ≤ 1 - kCcfsFwdBwdRoom := by norm_num [kCcfsFwdBwdRoom]
  have hlength : (0 : ℚ) ≤ periodMs := by exact_mod_cast hperiod
  rw [estiFwdBwPre]
  dsimp only
  split
  · exact setFwdBw_nonneg hmax hest (by positivity)
  · exact hest

private theorem measureQDelay_eq (s : CcfsController) (periodEndMs : UInt32) (vq : List QDelayData) :
    ∃ window least pktSize, (s.measureQDelay periodEndMs vq).2 =
      { s with qdelayWindow := window, minQDelay := least, minQPktSize := pktSize } := by
  rw [measureQDelay]
  dsimp only
  split <;> exact ⟨_, _, _, rfl⟩

private theorem compensateBw_ok {s s' : CcfsController} {vq : List QDelayData} {qdelay : Int} {rounds : Nat} {fwdbw : ℚ}
    (h : s.compensateBw vq qdelay rounds fwdbw = .ok s') :
    ∃ qpt delay st, s' = { s with ivqQptUs := qpt, ivqDelayUs := delay, ivqStUs := st } := by
  induction rounds generalizing fwdbw with
  | zero => cases h
  | succ rounds ih =>
    rw [compensateBw] at h
    dsimp only at h
    split at h
    · exact ih h
    · cases h
      exact ⟨_, _, _, rfl⟩

theorem updateInternalVQDelay_ok {s s' : CcfsController} {rounds : Nat} {vq : List QDelayData} {qdelay : Int}
    (h : s.updateInternalVQDelay rounds vq qdelay = .ok s') :
    ∃ qpt delay st, s' = { s with ivqQptUs := qpt, ivqDelayUs := delay, ivqStUs := st } := by
  rw [updateInternalVQDelay] at h
  dsimp only at h
  split at h
  · cases h
    exact ⟨_, _, _, rfl⟩
  · split at h
    · cases h
      exact ⟨_, _, _, rfl⟩
    · exact compensateBw_ok h

/-- The estimate of the queuing delay changes the window of delays and the virtual queue only. -/
theorem estiQDelay_ok {s s' : CcfsController} {rounds : Nat} {periodEndMs : UInt32} {vq : List QDelayData}
    {qdelay : EstiQDelay} (h : s.estiQDelay rounds periodEndMs vq = .ok (qdelay, s')) :
    ∃ window least pktSize qpt delay st excess, s' =
      { s with qdelayWindow := window, minQDelay := least, minQPktSize := pktSize,
               ivqQptUs := qpt, ivqDelayUs := delay, ivqStUs := st, maXQDelay := excess } := by
  obtain ⟨window, least, pktSize, hmeasure⟩ := s.measureQDelay_eq periodEndMs vq
  rw [estiQDelay] at h
  generalize s.measureQDelay periodEndMs vq = measured at h hmeasure
  obtain ⟨qdelay, s0⟩ := measured
  subst hmeasure
  obtain ⟨s1, hs1, h⟩ := bind_eq_ok.mp h
  obtain ⟨qpt, delay, st, rfl⟩ := updateInternalVQDelay_ok hs1
  cases h
  exact ⟨window, least, pktSize, qpt, delay, st, _, rfl⟩

theorem getIncreasingQTime_eq (s : CcfsController) (minQDelay : Int) (periodEndMs : UInt64) :
    ∃ count least start, (s.getIncreasingQTime minQDelay periodEndMs).2 =
      { s with incrCount := count, incrLastMinQDelay := least, incrStartTime := start } := by
  rw [getIncreasingQTime]
  dsimp only
  split
  · generalize (if s.incrCount + 1 = 1 then periodEndMs else s.incrStartTime) = start
    split <;> exact ⟨_, _, start, rfl⟩
  · exact ⟨_, _, _, rfl⟩

/-- What calls for an event changes only for how long the delay has been increasing. -/
theorem getControlSend_eq (s : CcfsController) (nowUs : UInt64) (eq : EstiQDelay) (periodEndMs : UInt32)
    (brFraction : BrFraction) :
    ∃ count least start, (s.getControlSend nowUs eq periodEndMs brFraction).2 =
      { s with incrCount := count, incrLastMinQDelay := least, incrStartTime := start } := by
  obtain ⟨count, least, start, he⟩ := s.getIncreasingQTime_eq eq.latestQDelay periodEndMs.toUInt64
  refine ⟨count, least, start, ?_⟩
  rw [getControlSend]
  dsimp only
  split <;> exact he

theorem estiFwdBwPost_eq (s : CcfsController) (difference : ℚ) (ctrl : ControlSend) :
    ∃ est, s.estiFwdBwPost difference ctrl = { s with estFwdBwBps := est } := by
  rw [estiFwdBwPost]
  split
  · exact ⟨_, rfl⟩
  · exact ⟨s.estFwdBwBps, rfl⟩

/-- A state without what the control of the rate changes. -/
def uncontrolled (s : CcfsController) : CcfsController :=
  { s with
    targetQDelay := 0
    targetSendBps := 0
    status := .default
    probingStartTime := 0
    throEstFwdBwBps := 0
    lastCompeteTime := 0 }

private theorem updateTargetQDelay_uncontrolled (s : CcfsController) (newTargetQDelay : Int) :
    (s.updateTargetQDelay newTargetQDelay).uncontrolled = s.uncontrolled := by
  rw [updateTargetQDelay]
  split <;> rfl

private theorem handleEvtStartCompete_uncontrolled (s : CcfsController) (nowUs : UInt64) :
    (s.handleEvtStartCompete nowUs).uncontrolled = s.uncontrolled :=
  updateTargetQDelay_uncontrolled _ kCcfsCompeteTargetQDelayMs

theorem handleSendControl_uncontrolled (s : CcfsController) (nowUs : UInt64) (ctrl : ControlSend) :
    (s.handleSendControl nowUs ctrl).uncontrolled = s.uncontrolled := by
  rw [handleSendControl]
  cases s.status with
  | default =>
    rw [handleDefault]
    cases ctrl.evt with
    | nothing =>
      dsimp only
      split
      · rfl
      · split <;> rfl
    | startCompete => exact s.handleEvtStartCompete_uncontrolled nowUs
    | _ => rfl
  | competing =>
    rw [handleCompeting]
    cases ctrl.evt with
    | nothing =>
      dsimp only
      split <;> split <;> rfl
    | stopCompete => exact s.updateTargetQDelay_uncontrolled kCcfsTargetQDelayMs
    | _ => rfl
  | probing =>
    rw [handleProbing]
    cases ctrl.evt with
    | nothing =>
      dsimp only
      split <;> rfl
    | startCompete => exact s.handleEvtStartCompete_uncontrolled nowUs
    | _ => rfl
  | throttled =>
    rw [handleThrottled]
    cases ctrl.evt with
    | startCompete => exact handleEvtStartCompete_uncontrolled _ nowUs
    | _ => rfl

theorem handleSendControl_records (s : CcfsController) (nowUs : UInt64) (ctrl : ControlSend) :
    (s.handleSendControl nowUs ctrl).records = s.records := by
  have h := congrArg records (s.handleSendControl_uncontrolled nowUs ctrl)
  exact h

/-- The parts of the control in their order: the first estimate of the bandwidth, the estimate of
the delay, the event, the second estimate, and the transition. -/
theorem controlFeedback2_parts {s s' : CcfsController} {rounds : Nat} {nowUs : UInt64} {period : ParsedPeriod}
    (h : s.controlFeedback2 rounds nowUs period = .ok s') :
    ∃ diffEstBw s0 qdelay s1 ctrlSend s2,
      ({ s with lossRate := 0, ecnRate := 0 } : CcfsController).estiFwdBwPre period.parsed
        (period.endMs - period.beginMs).toInt32.toInt = (diffEstBw, s0) ∧
      s0.estiQDelay rounds period.endMs period.parsed.vq = .ok (qdelay, s1) ∧
      s1.getControlSend nowUs qdelay period.endMs period.brFraction = (ctrlSend, s2) ∧
      s' = { (s2.estiFwdBwPost diffEstBw ctrlSend).handleSendControl nowUs ctrlSend with
        lastQDelay := qdelay.latestQDelay } := by
  rw [controlFeedback2] at h
  dsimp only at h
  generalize estiFwdBwPre _ _ _ = pre at h
  obtain ⟨diffEstBw, s0⟩ := pre
  obtain ⟨⟨qdelay, s1⟩, hs1, h⟩ := bind_eq_ok.mp h
  exact ⟨diffEstBw, s0, qdelay, s1, _, _, rfl, hs1, rfl, (Except.ok.inj h).symm⟩

/-- What the control of a report changes between the two estimates of the bandwidth. -/
theorem controlFeedback2_ok {s s' : CcfsController} {rounds : Nat} {nowUs : UInt64} {period : ParsedPeriod}
    (h : s.controlFeedback2 rounds nowUs period = .ok s') :
    ∃ diffEstBw s0 ctrlSend window least pktSize qpt delay st excess count last start lastQDelay,
      ({ s with lossRate := 0, ecnRate := 0 } : CcfsController).estiFwdBwPre period.parsed
        (period.endMs - period.beginMs).toInt32.toInt = (diffEstBw, s0) ∧
      s' = { (({ s0 with
          qdelayWindow := window, minQDelay := least, minQPktSize := pktSize, ivqQptUs := qpt, ivqDelayUs := delay,
          ivqStUs := st, maXQDelay := excess, incrCount := count, incrLastMinQDelay := last,
          incrStartTime := start } : CcfsController).estiFwdBwPost diffEstBw ctrlSend).handleSendControl nowUs ctrlSend
        with lastQDelay := lastQDelay } := by
  obtain ⟨diffEstBw, s0, qdelay, s1, ctrlSend, s2, hpre, hs1, hs2, rfl⟩ := controlFeedback2_parts h
  obtain ⟨window, least, pktSize, qpt, delay, st, excess, rfl⟩ := estiQDelay_ok hs1
  obtain ⟨count, last, start, hcontrol⟩ := getControlSend_eq _ nowUs qdelay period.endMs period.brFraction
  rw [hs2] at hcontrol
  dsimp only at hcontrol
  subst hcontrol
  exact ⟨diffEstBw, s0, ctrlSend, window, least, pktSize, qpt, delay, st, excess, count, last, start,
    qdelay.latestQDelay, hpre, rfl⟩

/-- After its period has been parsed, a report changes estimates and rates only. -/
theorem controlFeedback2_records {s s' : CcfsController} {rounds : Nat} {nowUs : UInt64} {period : ParsedPeriod}
    (h : s.controlFeedback2 rounds nowUs period = .ok s') : s'.records = s.records := by
  obtain ⟨diffEstBw, s0, ctrlSend, window, least, pktSize, qpt, delay, st, excess, count, last, start, lastQDelay,
    hpre, rfl⟩ := controlFeedback2_ok h
  obtain ⟨est, received, he⟩ := ({ s with lossRate := 0, ecnRate := 0 } : CcfsController).estiFwdBwPre_eq
    period.parsed (period.endMs - period.beginMs).toInt32.toInt
  rw [hpre] at he
  dsimp only at he
  subst he
  refine (handleSendControl_records _ nowUs ctrlSend).trans ?_
  obtain ⟨post, hpost⟩ := estiFwdBwPost_eq _ diffEstBw ctrlSend
  rw [hpost]
  rfl

theorem processSendPacket2_ok {s s' : CcfsController} {ssrc : UInt32} {localTimestampUs : UInt64}
    {sequence : UInt16} {size : UInt32} {result : Bool}
    (h : s.processSendPacket2 ssrc localTimestampUs sequence size = .ok (result, s')) :
    ∃ ok base sent lastSent start, s.base.processSendPacket (localTimestampUs / 1000) sequence size = .ok (ok, base) ∧
      s' = { s with base, ccfsStartTime := start, lastSentRtpMap := lastSent, sentRtpSsrcMap := sent,
                    inflightPktCount := s.inflightPktCount + 1 } := by
  obtain ⟨⟨ok, base⟩, hbase, h⟩ := bind_eq_ok.mp h
  cases h
  exact ⟨ok, base, _, _, _, hbase, rfl⟩

/-- What a report does: it is not used, or a period is parsed and the rates are controlled. -/
theorem processFeedback2_ok {s s' : CcfsController} {rounds : Nat} {nowUs : UInt64} {feedback : RfbHeader}
    {result : Bool} (h : s.processFeedback2 rounds nowUs feedback = .ok (result, s')) :
    s.startFeedback2 feedback = .ok (.error result, s') ∨
      ∃ period s1, s.startFeedback2 feedback = .ok (.ok period, s1) ∧ s1.controlFeedback2 rounds nowUs period = .ok s' := by
  obtain ⟨⟨period, s1⟩, hstart, h⟩ := bind_eq_ok.mp h
  cases period with
  | error r =>
    cases h
    exact .inl hstart
  | ok period =>
    obtain ⟨s2, hs2, h⟩ := bind_eq_ok.mp h
    cases h
    exact .inr ⟨period, s1, hstart, hs2⟩

theorem processFeedback2_base {s s' : CcfsController} {rounds : Nat} {nowUs : UInt64} {feedback : RfbHeader}
    {result : Bool} (h : s.processFeedback2 rounds nowUs feedback = .ok (result, s')) : s'.base = s.base := by
  rcases processFeedback2_ok h with hunused | ⟨period, s1, hstart, hcontrol⟩
  · exact (startFeedback2_unused hunused).1
  · obtain ⟨-, hsame, -⟩ := startFeedback2_ok hstart
    exact (congrArg Records.base (controlFeedback2_records hcontrol)).trans (congrArg Estimates.base hsame)

theorem processSendPacket2_returns (s : CcfsController) (ssrc : UInt32) (localTimestampUs : UInt64)
    (sequence : UInt16) (size : UInt32) : Returns (s.processSendPacket2 ssrc localTimestampUs sequence size) := by
  obtain ⟨sent, hsent⟩ := SenderBasedController.processSendPacket_returns (s := s.base) (localTimestampUs / 1000)
    sequence size
  rw [processSendPacket2]
  dsimp only
  rw [hsent]
  exact ⟨_, rfl⟩

/-- What one call does: a send, a report that is not used, and a report whose period is parsed and
that controls the rates. -/
inductive StepTo (rounds : Nat) (s : CcfsController) : CcfsCall → CcfsController → Prop where
  | send {ssrc : UInt32} {localTimestampUs : UInt64} {sequence : UInt16} {size : UInt32} {ok : Bool}
      {base : SenderBasedController ℚ} {sent : Std.ExtTreeMap UInt32 SentRtpStream}
      {lastSent : Std.ExtTreeMap UInt32 UInt16} {start : UInt64}
      (hbase : s.base.processSendPacket (localTimestampUs / 1000) sequence size = .ok (ok, base)) :
      StepTo rounds s (.processSendPacket2 ssrc localTimestampUs sequence size)
        { s with base, ccfsStartTime := start, lastSentRtpMap := lastSent, sentRtpSsrcMap := sent,
                 inflightPktCount := s.inflightPktCount + 1 }
  | unused {nowUs : UInt64} {feedback : RfbHeader} {result : Bool} {s' : CcfsController}
      (hunused : s.startFeedback2 feedback = .ok (.error result, s')) :
      StepTo rounds s (.processFeedback2 nowUs feedback) s'
  | used {nowUs : UInt64} {feedback : RfbHeader} {period : ParsedPeriod} {s1 s' : CcfsController}
      (hstart : s.startFeedback2 feedback = .ok (.ok period, s1))
      (hcontrol : s1.controlFeedback2 rounds nowUs period = .ok s') :
      StepTo rounds s (.processFeedback2 nowUs feedback) s'

theorem step_cases {s s' : CcfsController} {rounds : Nat} {call : CcfsCall} (h : s.step rounds call = .ok s') :
    StepTo rounds s call s' := by
  cases call with
  | processSendPacket2 ssrc localTimestampUs sequence size =>
    obtain ⟨⟨result, s1⟩, hsend, h⟩ := bind_eq_ok.mp h
    cases h
    obtain ⟨ok, base, sent, lastSent, start, hbase, rfl⟩ := processSendPacket2_ok hsend
    exact .send hbase
  | processFeedback2 nowUs feedback =>
    obtain ⟨⟨result, s1⟩, hfeedback, h⟩ := bind_eq_ok.mp h
    cases h
    rcases processFeedback2_ok hfeedback with hunused | ⟨period, s1, hstart, hcontrol⟩
    · exact .unused hunused
    · exact .used hstart hcontrol

/-- What is left of the base controller by a call: it is the same, or has one more packet. -/
theorem step_base {s s' : CcfsController} {rounds : Nat} {call : CcfsCall} (h : s.step rounds call = .ok s') :
    s'.base = s.base ∨ ∃ nowMs sequence size ok, s.base.processSendPacket nowMs sequence size = .ok (ok, s'.base) := by
  cases step_cases h with
  | send hbase => exact .inr ⟨_, _, _, _, hbase⟩
  | unused hunused => exact .inl (startFeedback2_unused hunused).1
  | used hstart hcontrol =>
    exact .inl ((congrArg Records.base (controlFeedback2_records hcontrol)).trans
      (congrArg Estimates.base (startFeedback2_ok hstart).2.1))

theorem processSendPacket_bounds {base base' : SenderBasedController ℚ} {txTimestampUs : UInt64} {sequence : UInt16}
    {size : UInt32} {ok : Bool} (h : base.processSendPacket txTimestampUs sequence size = .ok (ok, base')) :
    base'.minBw = base.minBw ∧ base'.maxBw = base.maxBw := by
  obtain ⟨lastSequence, queue, rfl⟩ := SenderBasedController.processSendPacket_frame h
  exact ⟨rfl, rfl⟩

/-- The bounds of the rate are the ones that a reset gives, in every state that calls reach. -/
theorem bounds_run {s0 s : CcfsController} {rounds : Nat} {calls : List CcfsCall}
    (hrun : run (step rounds) s0.reset calls = .ok s) : s.base.minBw = 150000 ∧ s.base.maxBw = 1500000 := by
  refine run_induction (step rounds) (motive := fun _ s => s.base.minBw = 150000 ∧ s.base.maxBw = 1500000)
    ⟨rfl, rfl⟩ ?_ hrun
  intro cs c mid s' hmid ih hstep
  rcases step_base hstep with hsame | ⟨nowMs, sequence, size, ok, hsend⟩
  · rw [hsame]
    exact ih
  · obtain ⟨hmin, hmax⟩ := processSendPacket_bounds hsend
    exact ⟨hmin.trans ih.1, hmax.trans ih.2⟩

end CcfsController

end Ns3Rmcat.Controller
