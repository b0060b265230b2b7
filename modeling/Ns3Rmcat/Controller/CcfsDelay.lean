import Ns3Rmcat.Controller.CcfsAccounting
import Ns3Rmcat.Controller.CcfsWindow
import Ns3Rmcat.Controller.CcfsVirtualQueue
import Ns3Rmcat.Header.RfbReading

/-! The queuing delay of the CCFS controller: it is measured on packets that are reported, from
the smallest difference of the clocks so far, and the smallest delay of the last four seconds is
that of the reports of these. -/
namespace Ns3Rmcat.Controller
open Lib Header

/-- Both times of a packet are below 2^30 milliseconds. -/
def QDelayData.Timely (packet : QDelayData) : Prop :=
  packet.rcvdMs.toNat < 2 ^ 30 ∧ (packet.localSentUs / 1000).toNat < 2 ^ 30

namespace CcfsController

/-- For how long a packet seems to have been on its way, as its two clocks tell it. -/
def qdelayDiff (packet : QDelayData) : Int := (packet.rcvdMs - packet.localSentUs / 1000).toUInt32.toInt32.toInt

/-- The delay of each packet, above the smallest difference up to it. -/
def packetDelays : List QDelayData → Int → List Int
  | [], _ => []
  | packet :: vq, minQDelay =>
    let minQDelay := if qdelayDiff packet < minQDelay then qdelayDiff packet else minQDelay
    castInt32 (qdelayDiff packet - minQDelay) :: packetDelays vq minQDelay

section Packets
variable {packet : QDelayData} {vq : List QDelayData} {minQDelay : Int}

private theorem qdelayDiff_eq (h : packet.Timely) :
    qdelayDiff packet = packet.rcvdMs.toNat - (packet.localSentUs / 1000).toNat := by
  obtain ⟨hrcvd, hsent⟩ := h
  have hword : (packet.rcvdMs - packet.localSentUs / 1000).toUInt32.toNat =
      (2 ^ 64 - (packet.localSentUs / 1000).toNat + packet.rcvdMs.toNat) % 2 ^ 64 % 2 ^ 32 := by
    rw [UInt64.toNat_toUInt32, UInt64.toNat_sub]
  refine (BitVec.toInt_eq_toNat_cond (packet.rcvdMs - packet.localSentUs / 1000).toUInt32.toBitVec).trans ?_
  rw [UInt32.toNat_toBitVec, hword]
  split <;> omega

private theorem measurePackets_cons (packet : QDelayData) (vq : List QDelayData) (mindelay minQDelay : Int)
    (minQPktSize : UInt32) :
    let base := if qdelayDiff packet < minQDelay then qdelayDiff packet else minQDelay
    let delay := castInt32 (qdelayDiff packet - base)
    measurePackets (packet :: vq) mindelay minQDelay minQPktSize =
      measurePackets vq (if delay < mindelay then delay else mindelay) base
        (if qdelayDiff packet < minQDelay then packet.pktSize else minQPktSize) := by
  dsimp only
  rw [measurePackets, ← qdelayDiff]
  by_cases hlt : qdelayDiff packet < minQDelay
  · rw [if_pos hlt, if_pos hlt, if_pos hlt]
  · rw [if_neg hlt, if_neg hlt, if_neg hlt]

private theorem measurePackets_fst (vq : List QDelayData) (mindelay minQDelay : Int) (minQPktSize : UInt32) :
    (measurePackets vq mindelay minQDelay minQPktSize).1 =
      (packetDelays vq minQDelay).foldl (fun least delay => if delay < least then delay else least) mindelay := by
  induction vq generalizing mindelay minQDelay minQPktSize with
  | nil => rfl
  | cons packet vq ih => exact (congrArg Prod.fst (measurePackets_cons _ _ _ _ _)).trans (ih _ _ _)

private theorem measurePackets_base {bound : Int} (hbase : bound < minQDelay)
    (hvq : ∀ packet ∈ vq, bound < qdelayDiff packet)
    (mindelay : Int) (minQPktSize : UInt32) : bound < (measurePackets vq mindelay minQDelay minQPktSize).2.1 := by
  induction vq generalizing mindelay minQDelay minQPktSize with
  | nil => exact hbase
  | cons packet vq ih =>
    have hpacket := hvq packet List.mem_cons_self
    rw [measurePackets_cons]
    apply ih _ fun p hp => hvq p (List.mem_cons_of_mem packet hp)
    split
    · exact hpacket
    · exact hbase

private theorem packetDelays_nonneg (hbase : -2 ^ 30 < minQDelay) (hvq : ∀ packet ∈ vq, packet.Timely) :
    ∀ delay ∈ packetDelays vq minQDelay, 0 ≤ delay := by
  induction vq generalizing minQDelay with
  | nil => exact fun _ h => absurd h List.not_mem_nil
  | cons packet vq ih =>
    have htimely := hvq packet List.mem_cons_self
    have hdiff := qdelayDiff_eq htimely
    obtain ⟨hrcvd, hsent⟩ := htimely
    have hlow : -2 ^ 30 < (if qdelayDiff packet < minQDelay then qdelayDiff packet else minQDelay) ∧
        (if qdelayDiff packet < minQDelay then qdelayDiff packet else minQDelay) ≤ qdelayDiff packet := by
      split <;> omega
    intro delay hdelay
    rcases List.mem_cons.mp hdelay with rfl | hdelay
    · have hsame : castInt32 (qdelayDiff packet -
          (if qdelayDiff packet < minQDelay then qdelayDiff packet else minQDelay)) = qdelayDiff packet -
            (if qdelayDiff packet < minQDelay then qdelayDiff packet else minQDelay) := by
        refine Int.bmod_eq_of_le ?_ ?_ <;> omega
      rw [hsame]
      omega
    · exact ih hlow.1 (fun p hp => hvq p (List.mem_cons_of_mem packet hp)) delay hdelay

end Packets

section Window
variable {s s' : CcfsController} {feedback : RfbHeader} {period : ParsedPeriod}

/-- A sample of the window is too old at some time. -/
def oldSample (endMs : UInt32) (sample : Int × UInt64) : Bool := sample.2 + kCcfsQDelayWindowTimeMs < endMs.toUInt64

/-- The samples that are still in the window at some time. -/
def keptSamples (s : CcfsController) (endMs : UInt32) : List (Int × UInt64) := s.qdelayWindow.dropWhile (oldSample endMs)

private theorem measureQDelay_sample {vq : List QDelayData} (hvq : vq ≠ []) (s : CcfsController) (endMs : UInt32) :
    let measured := measurePackets vq 9000 s.minQDelay s.minQPktSize
    let window := s.keptSamples endMs ++ [(measured.1, endMs.toUInt64)]
    let qdelay := (s.measureQDelay endMs vq).1
    qdelay.latestQDelay = measured.1 ∧
      qdelay.wndMinQDelay = window.foldl (fun least sample => if sample.1 < least then sample.1 else least) 10000 ∧
      (∃ wndMaxQDelay, measured.1 ≤ wndMaxQDelay ∧ qdelay.wndMinQRange = wndMaxQDelay - qdelay.wndMinQDelay) ∧
      (s.measureQDelay endMs vq).2.qdelayWindow = window ∧ (s.measureQDelay endMs vq).2.minQDelay = measured.2.1 := by
  intro measured window qdelay
  have hmeasure : s.measureQDelay endMs vq = if vq = [] then _ else _ := rfl
  rw [if_neg hvq] at hmeasure
  simp only [window, qdelay, hmeasure, List.foldl_append, List.foldl_cons, List.foldl_nil]
  refine ⟨rfl, rfl, ⟨_, ?_, rfl⟩, rfl, rfl⟩
  change measured.1 ≤ if _ < measured.1 then measured.1 else _
  split
  · exact le_rfl
  · rename_i hge
    exact not_lt.mp hge

private theorem measureQDelay_state_congr (hwindow : s'.qdelayWindow = s.qdelayWindow)
    (hmin : s'.minQDelay = s.minQDelay)
    (hsize : s'.minQPktSize = s.minQPktSize) (endMs : UInt32) (vq : List QDelayData) :
    (s'.measureQDelay endMs vq).2.qdelayWindow = (s.measureQDelay endMs vq).2.qdelayWindow ∧
      (s'.measureQDelay endMs vq).2.minQDelay = (s.measureQDelay endMs vq).2.minQDelay := by
  unfold measureQDelay
  dsimp only
  rw [hwindow, hmin, hsize]
  split <;> exact ⟨rfl, rfl⟩

/-- The estimate before the virtual queue is looked at. -/
def measured (s : CcfsController) (period : ParsedPeriod) : EstiQDelay :=
  (s.measureQDelay period.endMs period.parsed.vq).1

/-- The first estimate of the bandwidth leaves alone what the delay is measured from. -/
theorem estiFwdBwPre_measure (hsame : s'.estimates = s.estimates) (period : ParsedPeriod) (difference : ℚ)
    {s0 : CcfsController} (hpre : ({ s' with lossRate := 0, ecnRate := 0 } : CcfsController).estiFwdBwPre period.parsed
      (period.endMs - period.beginMs).toInt32.toInt = (difference, s0)) :
    s0.qdelayWindow = s.qdelayWindow ∧ s0.minQDelay = s.minQDelay ∧ s0.minQPktSize = s.minQPktSize := by
  have hestimates := ({ s' with lossRate := 0, ecnRate := 0 } : CcfsController).estiFwdBwPre_estimates period.parsed
    (period.endMs - period.beginMs).toInt32.toInt
  rw [hpre] at hestimates
  have hsame' : ({ s' with lossRate := 0, ecnRate := 0 } : CcfsController).estimates = s.estimates := hsame
  rw [hsame'] at hestimates
  exact ⟨congrArg Estimates.qdelayWindow hestimates, congrArg Estimates.minQDelay hestimates,
    congrArg Estimates.minQPktSize hestimates⟩

/-- The estimate that is returned is the one that was measured, but for the excess over the virtual queue. -/
theorem estiQDelay_measured {rounds : Nat} {endMs : UInt32} {vq : List QDelayData} {qdelay : EstiQDelay}
    (h : s.estiQDelay rounds endMs vq = .ok (qdelay, s')) :
    qdelay = { (s.measureQDelay endMs vq).1 with currXQDelay := qdelay.currXQDelay } ∧
      s'.qdelayWindow = (s.measureQDelay endMs vq).2.qdelayWindow ∧
      s'.minQDelay = (s.measureQDelay endMs vq).2.minQDelay := by
  obtain ⟨s1, hs1, h⟩ := bind_eq_ok.mp h
  obtain ⟨qpt, delay, st, rfl⟩ := updateInternalVQDelay_ok hs1
  cases h
  exact ⟨rfl, rfl, rfl⟩

private theorem controlFeedback2_delays {rounds : Nat} {nowUs : UInt64} {s1 : CcfsController}
    (hsame : s1.estimates = s.estimates) (h : s1.controlFeedback2 rounds nowUs period = .ok s') :
    s'.qdelayWindow = (s.measureQDelay period.endMs period.parsed.vq).2.qdelayWindow ∧
      s'.minQDelay = (s.measureQDelay period.endMs period.parsed.vq).2.minQDelay := by
  obtain ⟨diffEstBw, s2, qdelay, s3, ctrlSend, s4, hpre, hs3, hs4, rfl⟩ := controlFeedback2_parts h
  obtain ⟨hwindow, hmin, hsize⟩ := estiFwdBwPre_measure hsame period diffEstBw hpre
  obtain ⟨-, hwindow3, hmin3⟩ := estiQDelay_measured hs3
  obtain ⟨hwindow', hmin'⟩ := measureQDelay_state_congr hwindow hmin hsize period.endMs period.parsed.vq
  have hcontrol : s4.qdelayWindow = s3.qdelayWindow ∧ s4.minQDelay = s3.minQDelay := by
    obtain ⟨count, least, start, he⟩ := s3.getControlSend_eq nowUs qdelay period.endMs period.brFraction
    rw [hs4] at he
    dsimp only at he
    rw [he]
    exact ⟨rfl, rfl⟩
  have hpost := handleSendControl_uncontrolled (s4.estiFwdBwPost diffEstBw ctrlSend) nowUs ctrlSend
  obtain ⟨est, hest⟩ := estiFwdBwPost_eq s4 diffEstBw ctrlSend
  rw [hest] at hpost
  have hpostWindow := congrArg CcfsController.qdelayWindow hpost
  have hpostMin := congrArg CcfsController.minQDelay hpost
  rw [hest]
  exact ⟨hpostWindow.trans (hcontrol.1.trans (hwindow3.trans hwindow')),
    hpostMin.trans (hcontrol.2.trans (hmin3.trans hmin'))⟩

private theorem startFeedback2_parsed (h : s.startFeedback2 feedback = .ok (.ok period, s')) :
    ∃ s1 : CcfsController, s1.sentRtpSsrcMap = s.storeAfter feedback ∧
      s1.getLastPeriodMs feedback = (period.beginMs, period.endMs) ∧ period.beginMs ≠ period.endMs ∧
      period.parsed = (s1.parseFeedback feedback period.beginMs period.endMs).1 := by
  obtain ⟨⟨valid, s1⟩, hvalid, h⟩ := bind_eq_ok.mp h
  have hstore := validateFeedback_store hvalid
  dsimp only at h
  split at h
  · cases h
  · split at h
    · cases h
    · rename_i hne
      generalize hparse : parseFeedback _ feedback _ _ = result at h
      obtain ⟨parsed, s2⟩ := result
      cases h
      exact ⟨{ s1 with rxedFbmCount := s1.rxedFbmCount + 1 }, hstore.1, rfl, hne, (congrArg Prod.fst hparse).symm⟩

end Window

/-- All packets of a store were sent below 2^30 milliseconds. -/
def SentBelow (s : CcfsController) : Prop :=
  ∀ (ssrc : UInt32) (seq : UInt16) (record : SentRtpRecord), s.getSentRtp ssrc seq = some record →
    (record.localTimestampUs / 1000).toNat < 2 ^ 30

/-- The times of a call are below 2^30 milliseconds: those that a packet is sent at, and those
that a report tells. -/
def TimesBelow : CcfsCall → Prop
  | .processSendPacket2 _ localTimestampUs _ _ => (localTimestampUs / 1000).toNat < 2 ^ 30
  | .processFeedback2 _ feedback => ∀ (ssrc : UInt32) (seq : UInt16) (mb : RfbMetricBlock),
    lookup? feedback.reportBlocks ssrc seq = some mb → mb.timestampMs.toNat < 2 ^ 30

/-- In a report that has been read, the time of the report is above all others. -/
theorem timesBelow_of_deserialize {start rest : Octets} {size : UInt32} {feedback : RfbHeader} (nowUs : UInt64)
    (hread : RfbHeader.fresh.deserialize start = .ok (size, feedback, rest))
    (hreport : feedback.reportTimeMs.toNat < 2 ^ 30) : TimesBelow (.processFeedback2 nowUs feedback) := by
  intro ssrc seq mb hmb
  have hle := RfbHeader.arrived_of_deserialize hread ssrc seq mb hmb
  rw [UInt64.le_iff_toNat_le] at hle
  omega

section Samples
variable {s s' : CcfsController} {feedback : RfbHeader} {period : ParsedPeriod}

private theorem SentBelow.storeAfter (h : s.SentBelow) (hstore : s'.sentRtpSsrcMap = s.storeAfter feedback) :
    s'.SentBelow := by
  intro ssrc seq record hrecord
  cases hsent : s.getSentRtp ssrc seq with
  | some record' =>
    cases hrecord.symm.trans (getSentRtp_storeAfter hstore hsent)
    exact h ssrc seq record hsent
  | none =>
    have hdefault : record = {} := by
      rw [getSentRtp] at hrecord hsent
      rw [hstore, CcfsController.storeAfter] at hrecord
      split at hrecord
      · rw [hsent] at hrecord
        cases hrecord
      · simp only [lookup?_touchAll, hsent] at hrecord
        split at hrecord <;> split at hrecord <;> cases hrecord <;> rfl
    rw [hdefault]
    decide

private theorem SentBelow.send {ssrc : UInt32} {localTimestampUs : UInt64} {sequence : UInt16} {size : UInt32}
    {result : Bool} (h : s.SentBelow) (htime : (localTimestampUs / 1000).toNat < 2 ^ 30)
    (hsend : s.processSendPacket2 ssrc localTimestampUs sequence size = .ok (result, s')) : s'.SentBelow := by
  intro ssrc' seq' record hrecord
  rw [processSendPacket2_lookup hsend] at hrecord
  split at hrecord
  · exact h ssrc' seq' record hrecord
  · split at hrecord
    · cases hrecord
      exact htime
    · split at hrecord
      · obtain ⟨hdefault, -⟩ := Option.filter_eq_some_iff.mp hrecord
        cases hdefault
        decide
      · exact h ssrc seq' record (Option.filter_eq_some_iff.mp hrecord).1

private theorem timely_of_parsed {nowUs : UInt64} (hsent : s.SentBelow)
    (htimes : TimesBelow (.processFeedback2 nowUs feedback))
    (hstart : s.startFeedback2 feedback = .ok (.ok period, s')) : ∀ packet ∈ period.parsed.vq, packet.Timely := by
  obtain ⟨s1, hstore, -, -, hparsed⟩ := startFeedback2_parsed hstart
  intro packet hpacket
  rw [hparsed, (parseFeedback_told s1 feedback period.beginMs period.endMs).vq] at hpacket
  obtain ⟨record, mb, hlisted, hrecord, hpacket⟩ := mem_arrivals.mp hpacket
  rw [hpacket]
  exact ⟨htimes _ _ mb (RfbHeader.mem_getMetricList.mp hlisted).2, hsent.storeAfter hstore _ _ record hrecord⟩

private theorem parsed_ne_nil (hstart : s.startFeedback2 feedback = .ok (.ok period, s')) : period.parsed.vq ≠ [] := by
  obtain ⟨s1, -, hperiod, hne, hparsed⟩ := startFeedback2_parsed hstart
  rw [getLastPeriodMs] at hperiod
  generalize hlatest : findLatestRtp feedback = latest at hperiod
  obtain ⟨rxTimeMs, ssrc, seq⟩ := latest
  dsimp only at hperiod
  split at hperiod
  · obtain ⟨hbegin, hend⟩ := Prod.mk.inj hperiod
    exact absurd (hbegin.symm.trans hend) hne
  · rename_i hrx
    split at hperiod
    · obtain ⟨hbegin, hend⟩ := Prod.mk.inj hperiod
      exact absurd (hbegin.symm.trans hend) hne
    · rename_i record hrecord
      obtain ⟨mb, hargmax, -, -⟩ := findLatestRtp_found hlatest hrx
      obtain ⟨-, hlisted⟩ := RfbHeader.mem_listed (List.argmax_mem hargmax)
      have hmem : (⟨ssrc, seq, record.localTimestampUs, mb.timestampMs, record.size⟩ : QDelayData) ∈ period.parsed.vq := by
        rw [hparsed, (parseFeedback_told s1 feedback period.beginMs period.endMs).vq]
        exact mem_arrivals.mpr ⟨record, mb, hlisted, hrecord, rfl⟩
      exact List.ne_nil_of_mem hmem

/-- The delay that a report leads to is that of packets that it tells of, and is in order with the
smallest and the largest one of the window. -/
structure RealSamples (s : CcfsController) (period : ParsedPeriod) : Prop where
  sampled : period.parsed.vq ≠ []
  delays : ∀ delay ∈ packetDelays period.parsed.vq s.minQDelay, 0 ≤ delay
  least : IsLeast (insert 9000 {delay | delay ∈ packetDelays period.parsed.vq s.minQDelay})
    (s.measured period).latestQDelay
  bounds : 0 ≤ (s.measured period).latestQDelay ∧ (s.measured period).latestQDelay ≤ 9000
  wndMin : (s.measured period).wndMinQDelay ≤ (s.measured period).latestQDelay
  wndRange : 0 ≤ (s.measured period).wndMinQRange
  estimated : ∀ s1 feedback rounds difference s2 qdelay s3, s.startFeedback2 feedback = .ok (.ok period, s1) →
    ({ s1 with lossRate := 0, ecnRate := 0 } : CcfsController).estiFwdBwPre period.parsed
      (period.endMs - period.beginMs).toInt32.toInt = (difference, s2) →
    s2.estiQDelay rounds period.endMs period.parsed.vq = .ok (qdelay, s3) →
    qdelay = { s.measured period with currXQDelay := qdelay.currXQDelay }

/-- The base of the delays and the stored packets are late enough for the next samples. -/
structure Measurable (s : CcfsController) : Prop where
  base : -2 ^ 30 < s.minQDelay
  sent : s.SentBelow

private theorem Measurable.realSamples {nowUs : UInt64} (h : s.Measurable)
    (htimes : TimesBelow (.processFeedback2 nowUs feedback)) (hstart : s.startFeedback2 feedback = .ok (.ok period, s')) :
    RealSamples s period := by
  have hsampled := parsed_ne_nil hstart
  have hdelays := packetDelays_nonneg h.base (timely_of_parsed h.sent htimes hstart)
  obtain ⟨hlatest, hmin, ⟨wndMaxQDelay, hmax, hrange⟩, -, -⟩ := measureQDelay_sample hsampled s period.endMs
  have hleast : IsLeast (insert 9000 {delay | delay ∈ packetDelays period.parsed.vq s.minQDelay})
      (s.measured period).latestQDelay := by
    rw [measured, hlatest, measurePackets_fst]
    simpa using foldl_isLeast id 9000 (packetDelays period.parsed.vq s.minQDelay)
  have hbounds : 0 ≤ (s.measured period).latestQDelay ∧ (s.measured period).latestQDelay ≤ 9000 := by
    refine ⟨?_, hleast.2 (Set.mem_insert _ _)⟩
    rcases hleast.1 with hplaceholder | hmem
    · rw [hplaceholder]
      decide
    · exact hdelays _ hmem
  have hwndMin : (s.measured period).wndMinQDelay ≤ (s.measured period).latestQDelay := by
    rw [measured, hmin, hlatest]
    exact (foldl_isLeast Prod.fst 10000 _).2 (.inr ⟨_, List.mem_append_right _ (List.mem_singleton_self _), rfl⟩)
  refine ⟨hsampled, hdelays, hleast, hbounds, hwndMin, ?_, ?_⟩
  · rw [measured] at hwndMin ⊢
    rw [hrange]
    rw [hlatest] at hwndMin
    omega
  · intro s1 feedback' rounds difference s2 qdelay s3 hs1 hpre hs3
    obtain ⟨hwindow, hmin, hsize⟩ := estiFwdBwPre_measure (startFeedback2_ok hs1).2.1 period difference hpre
    rw [measured, ← (measureQDelay_congr hwindow hmin hsize period.endMs period.parsed.vq).1]
    exact (estiQDelay_measured hs3).1

/-- The period that a call parses, with the delay that it leads to. -/
def delaysOf (s : CcfsController) : CcfsCall → List (ParsedPeriod × Int)
  | .processSendPacket2 .. => []
  | .processFeedback2 _ feedback => match s.startFeedback2 feedback with
    | .ok (.ok period, _) => [(period, (s.measured period).latestQDelay)]
    | _ => []

def sampleOf (report : ParsedPeriod × Int) : Int × UInt64 := (report.2, report.1.endMs.toUInt64)

private theorem step_delays {rounds : Nat} {call : CcfsCall} (h : s.step rounds call = .ok s') :
    (s.delaysOf call = [] ∧ s'.qdelayWindow = s.qdelayWindow ∧ s'.minQDelay = s.minQDelay) ∨
    ∃ nowUs feedback period s1, call = .processFeedback2 nowUs feedback ∧
      s.startFeedback2 feedback = .ok (.ok period, s1) ∧
      s.delaysOf call = [(period, (s.measured period).latestQDelay)] ∧
      s'.qdelayWindow = s.keptSamples period.endMs ++ [sampleOf (period, (s.measured period).latestQDelay)] ∧
      s'.minQDelay = (measurePackets period.parsed.vq 9000 s.minQDelay s.minQPktSize).2.1 := by
  cases step_cases h with
  | send hbase => exact .inl ⟨rfl, rfl, rfl⟩
  | unused hunused =>
    obtain ⟨sent, lastSent, inflight, count, window, totSent, totRcvd, rfl⟩ := startFeedback2_frame hunused
    exact .inl ⟨by rw [delaysOf, hunused], rfl, rfl⟩
  | @used nowUs feedback period s1 s' hstart hcontrol =>
    obtain ⟨hwindow, hmin⟩ := controlFeedback2_delays (startFeedback2_ok hstart).2.1 hcontrol
    obtain ⟨hlatest, -, -, hwindow', hmin'⟩ := measureQDelay_sample (parsed_ne_nil hstart) s period.endMs
    refine .inr ⟨nowUs, feedback, period, s1, rfl, hstart, by rw [delaysOf, hstart], ?_, hmin.trans hmin'⟩
    rw [hwindow, hwindow', sampleOf, measured, hlatest]

private theorem Measurable.step {rounds : Nat} {call : CcfsCall} (h : s.Measurable) (htimes : TimesBelow call)
    (hstep : s.step rounds call = .ok s') : s'.Measurable := by
  constructor
  · rcases step_delays hstep with ⟨-, -, hmin⟩ | ⟨nowUs, feedback, period, s1, rfl, hstart, -, -, hmin⟩
    · rw [hmin]
      exact h.base
    · rw [hmin]
      refine measurePackets_base h.base (fun packet hpacket => ?_) _ _
      have htimely := timely_of_parsed h.sent htimes hstart packet hpacket
      rw [qdelayDiff_eq htimely]
      obtain ⟨-, hsent⟩ := htimely
      omega
  · cases call with
    | processSendPacket2 ssrc localTimestampUs sequence size =>
      obtain ⟨⟨result, s1⟩, hsend, hstep⟩ := bind_eq_ok.mp hstep
      cases hstep
      exact h.sent.send htimes hsend
    | processFeedback2 nowUs feedback =>
      obtain ⟨⟨result, s1⟩, hfeedback, hstep⟩ := bind_eq_ok.mp hstep
      cases hstep
      exact h.sent.storeAfter (processFeedback2_store hfeedback).1

end Samples

section Runs
variable {s0 s s' : CcfsController} {feedback : RfbHeader} {period : ParsedPeriod} {rounds : Nat}
  {calls : List CcfsCall} {reports : List (ParsedPeriod × Int)}

/-- The test of the loop that removes samples. -/
def oldReport (endMs : UInt32) (report : ParsedPeriod × Int) : Bool := oldSample endMs (sampleOf report)

private theorem oldReport_iff {endMs : UInt32} {report : ParsedPeriod × Int} :
    oldReport endMs report = true ↔ report.1.endMs.toNat + 4000 < endMs.toNat := by
  have hend := report.1.endMs.toNat_lt
  rw [oldReport, oldSample, decide_eq_true_iff, UInt64.lt_iff_toNat_lt, UInt64.toNat_add, sampleOf,
    UInt32.toNat_toUInt64, UInt32.toNat_toUInt64]
  simp only [kCcfsQDelayWindowTimeMs, UInt64.reduceToNat]
  omega

/-- The window has the samples of the reports that are left when old ones have been removed from the front. -/
def SamplesFrom (s : CcfsController) (endMs : UInt32) (reports : List (ParsedPeriod × Int)) : Prop :=
  s.qdelayWindow = (reports.dropWhile (oldReport endMs)).map sampleOf

private theorem SamplesFrom.kept {endMs : UInt32} (h : s.SamplesFrom endMs reports) (hle : endMs ≤ period.endMs) :
    s.keptSamples period.endMs = (reports.dropWhile (oldReport period.endMs)).map sampleOf := by
  have holder (report : ParsedPeriod × Int) (hold : oldReport endMs report = true) :
      oldReport period.endMs report = true := by
    rw [UInt32.le_iff_toNat_le] at hle
    rw [oldReport_iff] at hold ⊢
    omega
  have hdrop := dropWhile_dropWhile_append holder reports []
  rw [List.append_nil, List.append_nil] at hdrop
  rw [keptSamples, h, List.dropWhile_map, ← hdrop]
  rfl

private theorem SamplesFrom.append {endMs : UInt32} (h : s.SamplesFrom endMs reports) (hle : endMs ≤ period.endMs)
    (delay : Int) :
    s.keptSamples period.endMs ++ [sampleOf (period, delay)] =
      ((reports ++ [(period, delay)]).dropWhile (oldReport period.endMs)).map sampleOf := by
  have hnew : ¬ oldReport period.endMs (period, delay) = true := by
    rw [oldReport_iff]
    exact not_lt.mpr (Nat.le_add_right _ _)
  rw [h.kept hle, List.dropWhile_append, List.dropWhile_cons_of_neg hnew]
  split
  · rename_i hempty
    rw [List.isEmpty_iff.mp hempty]
    rfl
  · rw [List.map_append]
    rfl

private theorem measurable_run (hsent : s0.SentBelow) (htimes : ∀ call ∈ calls, TimesBelow call)
    (hrun : run (step rounds) s0.reset calls = .ok s) : s.Measurable := by
  have hstart : s0.reset.Measurable := by
    have hbase : s0.reset.minQDelay = 10000 := rfl
    refine ⟨?_, hsent⟩
    rw [hbase]
    decide
  apply run_keeps (step rounds) _ htimes hstart hrun
  intro mid call next htimes hmid hstep
  exact hmid.step htimes hstep

private theorem samplesFrom_run (hrun : run (step rounds) s0.reset calls = .ok s)
    (hends : (observed (step rounds) delaysOf s0.reset calls).Pairwise fun p q => p.1.endMs ≤ q.1.endMs) :
    ∃ endMs, (endMs = 0 ∨ ∃ p ∈ observed (step rounds) delaysOf s0.reset calls, p.1.endMs = endMs) ∧
      s.SamplesFrom endMs (observed (step rounds) delaysOf s0.reset calls) := by
  revert hends
  refine run_induction (step rounds) (motive := fun calls s =>
    (observed (step rounds) delaysOf s0.reset calls).Pairwise (fun p q => p.1.endMs ≤ q.1.endMs) →
    ∃ endMs, (endMs = 0 ∨ ∃ p ∈ observed (step rounds) delaysOf s0.reset calls, p.1.endMs = endMs) ∧
      s.SamplesFrom endMs (observed (step rounds) delaysOf s0.reset calls)) ?_ ?_ hrun
  · exact fun _ => ⟨0, .inl rfl, rfl⟩
  · intro cs c mid s' hmid ih hstep hends
    rw [observed_snoc (step rounds) delaysOf hmid] at hends ⊢
    obtain ⟨hearlier, -, hlater⟩ := List.pairwise_append.mp hends
    obtain ⟨endMs, hendMs, hmids⟩ := ih hearlier
    rcases step_delays hstep with ⟨hnone, hwindow, -⟩ | ⟨nowUs, feedback, period, s1, rfl, hstart, hone, hwindow, -⟩
    · rw [hnone, List.append_nil]
      exact ⟨endMs, hendMs, hwindow.trans hmids⟩
    · have hle : endMs ≤ period.endMs := by
        rcases hendMs with rfl | ⟨p, hp, rfl⟩
        · exact UInt32.zero_le
        · exact hlater p hp _ (by rw [hone]; exact List.mem_singleton_self _)
      rw [hone]
      exact ⟨period.endMs, .inr ⟨_, List.mem_append_right _ (List.mem_singleton_self _), rfl⟩,
        hwindow.trans (hmids.append hle _)⟩

private theorem dropWhile_oldReport (hends : reports.Pairwise fun p q => p.1.endMs ≤ q.1.endMs) (endMs : UInt32) :
    reports.dropWhile (oldReport endMs) = reports.filter fun report => !oldReport endMs report := by
  refine (dropWhile_eq_filter_iff fun _ _ => id).mpr ⟨fun _ _ => id, hends.imp fun hle hold => ?_⟩
  rw [UInt32.le_iff_toNat_le] at hle
  rw [oldReport_iff] at hold ⊢
  omega

/-- In every run with times below 2^30 milliseconds, a report whose delay is estimated has packets to
measure it on. The estimates are in order; and when the periods end one after the other, the
smallest delay is that of the reports of the last four seconds. -/
theorem samples_run (nowUs : UInt64) (hsent : s0.SentBelow) (htimes : ∀ call ∈ calls, TimesBelow call)
    (hrun : run (step rounds) s0.reset calls = .ok s) (hlast : TimesBelow (.processFeedback2 nowUs feedback))
    (hstart : s.startFeedback2 feedback = .ok (.ok period, s')) :
    RealSamples s period ∧
      ((observed (step rounds) delaysOf s0.reset calls ++ [(period, (s.measured period).latestQDelay)]).Pairwise
          (fun p q => p.1.endMs ≤ q.1.endMs) →
        IsLeast {delay | ∃ report ∈ observed (step rounds) delaysOf s0.reset calls ++
            [(period, (s.measured period).latestQDelay)],
          period.endMs.toNat ≤ report.1.endMs.toNat + 4000 ∧ report.2 = delay} (s.measured period).wndMinQDelay) := by
  have hreal := (measurable_run hsent htimes hrun).realSamples hlast hstart
  refine ⟨hreal, fun hends => ?_⟩
  obtain ⟨hearlier, -, hlater⟩ := List.pairwise_append.mp hends
  obtain ⟨endMs, hendMs, hs⟩ := samplesFrom_run hrun hearlier
  generalize observed (step rounds) delaysOf s0.reset calls = reports at hends hearlier hlater hendMs hs ⊢
  have hle : endMs ≤ period.endMs := by
    rcases hendMs with rfl | ⟨p, hp, rfl⟩
    · exact UInt32.zero_le
    · exact hlater p hp _ (List.mem_singleton_self _)
  obtain ⟨hlatest, hmin, -, -, -⟩ := measureQDelay_sample hreal.sampled s period.endMs
  have hwindow : s.keptSamples period.endMs ++ [sampleOf (period, (s.measured period).latestQDelay)] =
      ((reports ++ [(period, (s.measured period).latestQDelay)]).filter fun report =>
        !oldReport period.endMs report).map sampleOf := by
    rw [← dropWhile_oldReport hends]
    exact hs.append hle _
  have hleast := foldl_isLeast Prod.fst 10000
    (s.keptSamples period.endMs ++ [sampleOf (period, (s.measured period).latestQDelay)])
  have hfold : (s.keptSamples period.endMs ++ [sampleOf (period, (s.measured period).latestQDelay)]).foldl
      (fun least sample => if sample.1 < least then sample.1 else least) 10000 = (s.measured period).wndMinQDelay := by
    rw [measured, hmin, hlatest, sampleOf]
  rw [hfold, hwindow] at hleast
  constructor
  · rcases hleast.1 with hplaceholder | ⟨sample, hsample, he⟩
    · have hwndMin := hreal.wndMin
      have hbounds := hreal.bounds
      omega
    · obtain ⟨report, hreport, rfl⟩ := List.mem_map.mp hsample
      obtain ⟨hmem, hfresh⟩ := List.mem_filter.mp hreport
      rw [Bool.not_eq_true', ← Bool.not_eq_true, oldReport_iff] at hfresh
      exact ⟨report, hmem, not_lt.mp hfresh, he⟩
  · rintro delay ⟨report, hreport, hwithin, rfl⟩
    refine hleast.2 (.inr ⟨sampleOf report, List.mem_map_of_mem (List.mem_filter.mpr ⟨hreport, ?_⟩), rfl⟩)
    rw [Bool.not_eq_true', ← Bool.not_eq_true, oldReport_iff]
    exact not_lt.mpr hwithin

private theorem timesBelow_reportOf (nowUs : UInt64) (ssrc : UInt32) (seq : UInt16) {ts reportTimeMs : UInt64}
    (hts : ts.toNat < 2 ^ 30) : TimesBelow (.processFeedback2 nowUs (reportOf [(ssrc, seq, ts)] reportTimeMs)) := by
  intro ssrc' seq' mb hmb
  have hblocks : (reportOf [(ssrc, seq, ts)] reportTimeMs).reportBlocks = recordEntry ∅ ssrc seq ⟨0, ts⟩ := rfl
  rw [hblocks, lookup?_recordEntry] at hmb
  split at hmb
  · cases hmb
    exact hts
  · simp [lookup?] at hmb

/-- A packet that is reported after 10 milliseconds, and another one. -/
def delayed : List CcfsCall :=
  [.processSendPacket2 7 1000000 1 1000, .processFeedback2 1040000 (reportOf [(7, 1, 1010)] 1030),
    .processSendPacket2 7 1100000 2 1000]

/-- The other one takes 30 milliseconds longer. -/
theorem samples_run_delayed :
    ∃ s period s', run (step 2) constructed.reset delayed = .ok s ∧
      s.startFeedback2 (reportOf [(7, 2, 1140)] 1150) = .ok (.ok period, s') ∧
      (s.measured period).latestQDelay = 30 ∧ RealSamples s period ∧
      IsLeast {delay | ∃ report ∈ observed (step 2) delaysOf constructed.reset delayed ++
          [(period, (s.measured period).latestQDelay)],
        period.endMs.toNat ≤ report.1.endMs.toNat + 4000 ∧ report.2 = delay} (s.measured period).wndMinQDelay := by
  have hfacts : (run (step 2) constructed.reset delayed >>= fun s => do
      let started ← s.startFeedback2 (reportOf [(7, 2, 1140)] 1150)
      return (s, started)).map (fun r => r.2.1.toOption.map fun period => decide (
        (r.1.measured period).latestQDelay = 30 ∧
        (observed (step 2) delaysOf constructed.reset delayed ++
          [(period, (r.1.measured period).latestQDelay)]).Pairwise (fun p q => p.1.endMs ≤ q.1.endMs))) =
      .ok (some true) := by
    decide +kernel
  obtain ⟨⟨s, result, s'⟩, hresult, hdecided⟩ := map_eq_ok.mp hfacts
  obtain ⟨s0, hrun, hresult⟩ := bind_eq_ok.mp hresult
  obtain ⟨start, hstart, hresult⟩ := bind_eq_ok.mp hresult
  cases hresult
  cases result with
  | error r => cases hdecided
  | ok period =>
    obtain ⟨hdelay, hends⟩ := of_decide_eq_true (Option.some.inj hdecided)
    have hsent : constructed.SentBelow := by
      intro ssrc seq record hrecord
      simp [getSentRtp, lookup?, constructed] at hrecord
    have htimes : ∀ call ∈ delayed, TimesBelow call := by
      intro call hcall
      simp only [delayed, List.mem_cons, List.not_mem_nil, or_false] at hcall
      rcases hcall with rfl | rfl | rfl
      · exact (by decide : ((1000000 : UInt64) / 1000).toNat < 2 ^ 30)
      · exact timesBelow_reportOf _ _ _ (by decide)
      · exact (by decide : ((1100000 : UInt64) / 1000).toNat < 2 ^ 30)
    obtain ⟨hreal, hleast⟩ := samples_run 1160000 hsent htimes hrun
      (timesBelow_reportOf _ _ _ (by decide)) hstart
    exact ⟨s, period, s', hrun, hstart, hdelay, hreal, hleast hends⟩

end Runs

end CcfsController

end Ns3Rmcat.Controller
