import Ns3Rmcat.Controller.CcfsStore
import Ns3Rmcat.Lib.Extremes

/-! The period of a report: the packet that it is told from, and when its bounds are the right
ones. Times are 64-bit words, and a period is two 32-bit words. -/
namespace Ns3Rmcat.Header
open Lib

namespace RfbHeader

def listed (h : RfbHeader) : List (UInt32 × UInt16 × RfbMetricBlock) :=
  h.getSsrcList.flatMap fun ssrc => (h.getMetricList ssrc).map fun item => (ssrc, item)

private theorem getMetricList_mem {h : RfbHeader} {ssrc : UInt32} {item : UInt16 × RfbMetricBlock}
    (hitem : item ∈ h.getMetricList ssrc) :
    item.1 ∈ windowSeqs (h.getCountEndSeq ssrc) ∧ lookup? h.reportBlocks ssrc item.1 = some item.2 := by
  rw [getMetricList] at hitem
  cases hrb : h.reportBlocks[ssrc]? with
  | none =>
    rw [hrb] at hitem
    cases hitem
  | some rb =>
    rw [hrb] at hitem
    obtain ⟨seq, hseq, hmap⟩ := List.mem_filterMap.mp hitem
    obtain ⟨mb, hmb, rfl⟩ := Option.map_eq_some_iff.mp hmap
    exact ⟨hseq, by rw [lookup?_eq, hrb]; exact hmb⟩

theorem mem_listed {h : RfbHeader} {e : UInt32 × UInt16 × RfbMetricBlock} (he : e ∈ h.listed) :
    e.1 ∈ h.getSsrcList ∧ e.2 ∈ h.getMetricList e.1 := by
  obtain ⟨ssrc, hssrc, he⟩ := List.mem_flatMap.mp he
  obtain ⟨item, hitem, rfl⟩ := List.mem_map.mp he
  exact ⟨hssrc, hitem⟩

def arrivedMs (e : UInt32 × UInt16 × RfbMetricBlock) : Nat := e.2.2.timestampMs.toNat

/-- The end of the period of a report on the clock of the sender: when a packet was sent, and for
how long it had been there when the report was made. -/
def periodEndMs (h : RfbHeader) (sentMs : UInt64) (e : UInt32 × UInt16 × RfbMetricBlock) : Int :=
  sentMs.toNat + h.reportTimeMs.toNat - arrivedMs e

end RfbHeader

end Ns3Rmcat.Header

namespace Ns3Rmcat.Controller
open Lib Header

namespace CcfsController

private theorem findLatestRtp_eq (feedback : RfbHeader) :
    findLatestRtp feedback = match feedback.listed.argmax RfbHeader.arrivedMs with
      | none => (0, 0, 0)
      | some e => if 0 < RfbHeader.arrivedMs e then (e.2.2.timestampMs, e.1, e.2.1) else (0, 0, 0) := by
  have hfold : findLatestRtp feedback = feedback.listed.foldl (fun latest e =>
      if latest.1.toNat < RfbHeader.arrivedMs e then (e.2.2.timestampMs, e.1, e.2.1) else latest) (0, 0, 0) := by
    rw [RfbHeader.listed, List.foldl_flatMap]
    simp only [List.foldl_map, RfbHeader.arrivedMs, ← UInt64.lt_iff_toNat_lt]
    rfl
  have hlatest := foldl_argmax RfbHeader.arrivedMs (fun e => (e.2.2.timestampMs, e.1, e.2.1))
    (fun latest => latest.1.toNat) (fun _ => rfl) (0, 0, 0) feedback.listed
  refine (hfold.trans hlatest).trans ?_
  cases feedback.listed.argmax RfbHeader.arrivedMs <;> rfl

/-- A first one of the latest arrivals is one that the report tells, at a time that is not zero. -/
theorem findLatestRtp_found {feedback : RfbHeader} {rxTimeMs : UInt64} {ssrc : UInt32} {seq : UInt16}
    (h : findLatestRtp feedback = (rxTimeMs, ssrc, seq)) (hrx : rxTimeMs ≠ 0) :
    ∃ mb, feedback.listed.argmax RfbHeader.arrivedMs = some (ssrc, seq, mb) ∧ mb.timestampMs = rxTimeMs ∧
      lookup? feedback.reportBlocks ssrc seq = some mb := by
  rw [findLatestRtp_eq] at h
  cases hlatest : feedback.listed.argmax RfbHeader.arrivedMs with
  | none =>
    rw [hlatest] at h
    cases h
    exact absurd rfl hrx
  | some e =>
    rw [hlatest] at h
    dsimp only at h
    split at h
    · cases h
      exact ⟨e.2.2, rfl, rfl, (RfbHeader.getMetricList_mem (RfbHeader.mem_listed (List.argmax_mem hlatest)).2).2⟩
    · cases h
      exact absurd rfl hrx

variable {s s' : CcfsController} {feedback : RfbHeader}

/-- The bounds that are computed are the right ones exactly when the period does not begin before
the clocks' start, and ends before the 32 bits do. -/
private theorem period_exact_iff (sentMs : UInt64) (e : UInt32 × UInt16 × RfbMetricBlock) (feedback : RfbHeader) :
    let endMs := sentMs + (feedback.getReportTime.toUInt64 - e.2.2.timestampMs)
    let beginMs := endMs - feedback.monitoredMs.toUInt64
    (beginMs.toUInt32 ≤ endMs.toUInt32 ∧ endMs.toUInt32 - beginMs.toUInt32 = feedback.monitoredMs.toUInt32 ∧
        (endMs.toUInt32.toNat : Int) = feedback.periodEndMs sentMs e) ↔
      (feedback.monitoredMs.toNat : Int) ≤ feedback.periodEndMs sentMs e ∧
        feedback.periodEndMs sentMs e < 2 ^ 32 := by
  intro endMs beginMs
  have hsent := sentMs.toNat_lt
  have hrx := e.2.2.timestampMs.toNat_lt
  have hmonitored := feedback.monitoredMs.toNat_lt
  have hlength : endMs.toUInt32 - beginMs.toUInt32 = feedback.monitoredMs.toUInt32 := period_length endMs _
  have hend : endMs.toUInt32.toNat = (sentMs.toNat + (2 ^ 64 - e.2.2.timestampMs.toNat +
      feedback.reportTimeMs.toNat % 2 ^ 32) % 2 ^ 64) % 2 ^ 64 % 2 ^ 32 := by
    rw [UInt64.toNat_toUInt32, UInt64.toNat_add, UInt64.toNat_sub, RfbHeader.getReportTime, UInt32.toNat_toUInt64,
      UInt64.toNat_toUInt32]
  have hbegin : beginMs.toUInt32.toNat = (2 ^ 32 - feedback.monitoredMs.toNat + endMs.toUInt32.toNat) % 2 ^ 32 := by
    have hbeginLt := beginMs.toUInt32.toNat_lt
    have hendLt := endMs.toUInt32.toNat_lt
    have hdifference := congrArg UInt32.toNat hlength
    rw [UInt32.toNat_sub, UInt16.toNat_toUInt32] at hdifference
    omega
  rw [UInt32.le_iff_toNat_le, hbegin, RfbHeader.periodEndMs, RfbHeader.arrivedMs]
  simp only [hlength, true_and]
  omega

private theorem getLastPeriodMs_eq {e : UInt32 × UInt16 × RfbMetricBlock} {record : SentRtpRecord}
    (hfound : findLatestRtp feedback = (e.2.2.timestampMs, e.1, e.2.1)) (hrx : e.2.2.timestampMs ≠ 0)
    (hsent : s.getSentRtp e.1 e.2.1 = some record) :
    let endMs := record.localTimestampUs / 1000 + (feedback.getReportTime.toUInt64 - e.2.2.timestampMs)
    s.getLastPeriodMs feedback = ((endMs - feedback.monitoredMs.toUInt64).toUInt32, endMs.toUInt32) := by
  rw [getLastPeriodMs, hfound]
  dsimp only
  rw [if_neg hrx, hsent]

private theorem processFeedback2_false {rounds : Nat} {nowUs : UInt64}
    (h : s.processFeedback2 rounds nowUs feedback = .ok (false, s')) :
    ∃ valid s1, s.validateFeedback feedback = .ok (valid, s1) ∧
      (s1.getLastPeriodMs feedback).1 = (s1.getLastPeriodMs feedback).2 := by
  rcases processFeedback2_ok h with hunused | ⟨period, s1, hstart, hcontrol⟩
  · obtain ⟨⟨valid, s1⟩, hvalid, hunused⟩ := bind_eq_ok.mp hunused
    refine ⟨valid, s1, hvalid, ?_⟩
    dsimp only at hunused
    split at hunused
    · cases hunused
    · split at hunused
      · rename_i hsame
        exact hsame
      · cases hunused
  · obtain ⟨⟨result, s2⟩, hresult, h⟩ := bind_eq_ok.mp h
    cases hstart.symm.trans hresult
    obtain ⟨s2, -, h⟩ := bind_eq_ok.mp h
    cases h

/-- The period of a report is told from a packet: it is the latest one that was received, the
period ends when it is due on the sender's clock, and it is as long as was monitored. -/
structure PeriodOf (s : CcfsController) (feedback : RfbHeader) (e : UInt32 × UInt16 × RfbMetricBlock)
    (record : SentRtpRecord) : Prop where
  found : findLatestRtp feedback = (e.2.2.timestampMs, e.1, e.2.1)
  received : lookup? feedback.reportBlocks e.1 e.2.1 = some e.2.2
  latest : ∀ (ssrc : UInt32) (seq : UInt16) (mb : RfbMetricBlock),
    lookup? feedback.reportBlocks ssrc seq = some mb → mb.timestampMs ≤ e.2.2.timestampMs
  sent : s.getSentRtp e.1 e.2.1 = some record
  ordered : (s.getLastPeriodMs feedback).1 ≤ (s.getLastPeriodMs feedback).2
  monitored : (s.getLastPeriodMs feedback).2 - (s.getLastPeriodMs feedback).1 = feedback.monitoredMs.toUInt32
  ends : ((s.getLastPeriodMs feedback).2.toNat : Int) = feedback.periodEndMs (record.localTimestampUs / 1000) e

def YieldsPeriod (s : CcfsController) (feedback : RfbHeader) : Prop :=
  (∃ e record, s.PeriodOf feedback e record) ∧
    ∀ rounds nowUs s', s.processFeedback2 rounds nowUs feedback ≠ .ok (false, s')

/-- The first listed packet of the latest arrivals: it did not arrive at time zero, none that is
not listed arrived later, and the period fits between the start of the clocks and 2^32. -/
structure PeriodFits (s : CcfsController) (feedback : RfbHeader) (e : UInt32 × UInt16 × RfbMetricBlock)
    (record : SentRtpRecord) : Prop where
  first : feedback.listed.argmax RfbHeader.arrivedMs = some e
  arrived : 0 < RfbHeader.arrivedMs e
  latest : ∀ (ssrc : UInt32) (seq : UInt16) (mb : RfbMetricBlock),
    lookup? feedback.reportBlocks ssrc seq = some mb → mb.timestampMs ≤ e.2.2.timestampMs
  sent : s.getSentRtp e.1 e.2.1 = some record
  started : (feedback.monitoredMs.toNat : Int) ≤ feedback.periodEndMs (record.localTimestampUs / 1000) e
  below : feedback.periodEndMs (record.localTimestampUs / 1000) e < 2 ^ 32

section Period
variable {e : UInt32 × UInt16 × RfbMetricBlock} {record : SentRtpRecord}

private theorem PeriodOf.fits (h : s.PeriodOf feedback e record) (hmonitored : 0 < feedback.monitoredMs) :
    s.PeriodFits feedback e record := by
  have hrx : e.2.2.timestampMs ≠ 0 := by
    intro hzero
    have hlength := h.monitored
    rw [getLastPeriodMs, h.found] at hlength
    dsimp only at hlength
    rw [if_pos hzero] at hlength
    have hnat := congrArg UInt32.toNat hlength
    rw [UInt16.lt_iff_toNat_lt] at hmonitored
    rw [UInt16.toNat_toUInt32] at hnat
    exact hmonitored.ne hnat
  obtain ⟨mb, hfirst, -, hmb⟩ := findLatestRtp_found h.found hrx
  cases h.received.symm.trans hmb
  have hpos : 0 < RfbHeader.arrivedMs e := Nat.pos_of_ne_zero fun hzero => hrx (UInt64.toNat_inj.mp hzero)
  have hperiod := getLastPeriodMs_eq h.found hrx h.sent
  have hexact := h.ordered
  have hlength := h.monitored
  have hends := h.ends
  rw [hperiod] at hexact hlength hends
  obtain ⟨hstarted, hbelow⟩ := (period_exact_iff _ e feedback).mp ⟨hexact, hlength, hends⟩
  exact ⟨hfirst, hpos, h.latest, h.sent, hstarted, hbelow⟩

private theorem PeriodFits.periodOf (h : s.PeriodFits feedback e record) : s.PeriodOf feedback e record := by
  have hfound : findLatestRtp feedback = (e.2.2.timestampMs, e.1, e.2.1) := by
    rw [findLatestRtp_eq, h.first]
    dsimp only
    rw [if_pos h.arrived]
  have hrx : e.2.2.timestampMs ≠ 0 := fun hzero => h.arrived.ne' (congrArg UInt64.toNat hzero)
  have hperiod := getLastPeriodMs_eq hfound hrx h.sent
  have hlisted := RfbHeader.mem_listed (List.argmax_mem h.first)
  obtain ⟨hordered, hlength, hends⟩ := (period_exact_iff _ e feedback).mpr ⟨h.started, h.below⟩
  refine ⟨hfound, (RfbHeader.getMetricList_mem hlisted.2).2, h.latest, h.sent, ?_, ?_, ?_⟩
  · rw [hperiod]
    exact hordered
  · rw [hperiod]
    exact hlength
  · rw [hperiod]
    exact hends

/-- A report yields its period exactly when that fits. -/
theorem yieldsPeriod_iff (hmonitored : 0 < feedback.monitoredMs) :
    s.YieldsPeriod feedback ↔ ∃ e record, s.PeriodFits feedback e record := by
  constructor
  · rintro ⟨⟨e, record, h⟩, -⟩
    exact ⟨e, record, h.fits hmonitored⟩
  · rintro ⟨e, record, h⟩
    refine ⟨⟨e, record, h.periodOf⟩, fun rounds nowUs s' hfalse => ?_⟩
    obtain ⟨valid, s1, hvalid, hsame⟩ := processFeedback2_false hfalse
    -- Looking at the store does not change the record of the packet.
    have hsent := getSentRtp_storeAfter (validateFeedback_store hvalid).1 h.sent
    have hafter : s1.PeriodFits feedback e record := ⟨h.first, h.arrived, h.latest, hsent, h.started, h.below⟩
    have hlength := hafter.periodOf.monitored
    rw [hsame, UInt32.sub_self] at hlength
    have hnat := congrArg UInt32.toNat hlength
    rw [UInt16.toNat_toUInt32] at hnat
    rw [UInt16.lt_iff_toNat_lt] at hmonitored
    exact hmonitored.ne hnat

/-- A packet that is sent a second after the start of the clocks. -/
theorem yieldsPeriod_iff_second :
    ∃ s, run (step 1) constructed.reset [.processSendPacket2 7 1000000 1 1000] = .ok s ∧
      s.YieldsPeriod (reportOf [(7, 1, 1010)] 1030) := by
  have hfacts : (run (step 1) constructed.reset [.processSendPacket2 7 1000000 1 1000]).map
      (fun s => decide (s.getSentRtp 7 1 = some ⟨1000000, 1000, 1000⟩)) = .ok true := by
    decide +kernel
  obtain ⟨s, hrun, hsent⟩ := map_eq_ok.mp hfacts
  have hblocks : (reportOf [(7, 1, 1010)] 1030).reportBlocks = recordEntry ∅ 7 1 ⟨0, 1010⟩ := rfl
  refine ⟨s, hrun, (yieldsPeriod_iff (by decide)).mpr ⟨(7, 1, ⟨0, 1010⟩), ⟨1000000, 1000, 1000⟩, ?_⟩⟩
  refine ⟨by decide +kernel, by decide, fun ssrc seq mb hmb => ?_, of_decide_eq_true hsent, by decide +kernel,
    by decide +kernel⟩
  rw [hblocks, lookup?_recordEntry] at hmb
  split at hmb
  · cases hmb
    exact UInt64.le_refl _
  · simp [lookup?] at hmb

/-- A packet that is sent 10 milliseconds after the clocks' start. -/
def firstPacket : List CcfsCall := [.processSendPacket2 7 10000 1 1000]

/-- The period of its report begins before the clocks do, so that its begin wraps; and a report that
says that it arrived at time zero is given up. -/
theorem periods_not_yielded :
    ∃ s, run (step 1) constructed.reset firstPacket = .ok s ∧ s.getSentRtp 7 1 = some ⟨10000, 1000, 1000⟩ ∧
      s.getLastPeriodMs (reportOf [(7, 1, 30)] 60) = (4294967236, 40) ∧
      ¬ s.YieldsPeriod (reportOf [(7, 1, 30)] 60) ∧
      (∃ s', s.processFeedback2 1 70000 (reportOf [(7, 1, 0)] 60) = .ok (false, s')) ∧
      ¬ s.YieldsPeriod (reportOf [(7, 1, 0)] 60) := by
  have hfacts : (run (step 1) constructed.reset firstPacket >>= fun s => do
      let processed ← s.processFeedback2 1 70000 (reportOf [(7, 1, 0)] 60)
      return (s, processed.1)).map (fun r => decide (r.1.getSentRtp 7 1 = some ⟨10000, 1000, 1000⟩ ∧
        r.1.getLastPeriodMs (reportOf [(7, 1, 30)] 60) = (4294967236, 40) ∧ r.2 = false)) = .ok true := by
    decide +kernel
  obtain ⟨⟨s, result⟩, hresult, hdecided⟩ := map_eq_ok.mp hfacts
  obtain ⟨hsent, hperiod, hfalse⟩ := of_decide_eq_true hdecided
  dsimp only at hsent hperiod hfalse
  subst hfalse
  obtain ⟨s0, hrun, hresult⟩ := bind_eq_ok.mp hresult
  obtain ⟨⟨result, s'⟩, hprocess, hresult⟩ := bind_eq_ok.mp hresult
  cases hresult
  refine ⟨s, hrun, hsent, hperiod, ?_, ⟨s', hprocess⟩, fun hyields => hyields.2 1 70000 s' hprocess⟩
  rintro ⟨⟨e, record, h⟩, -⟩
  have hordered := h.ordered
  rw [hperiod] at hordered
  exact absurd hordered (by decide)

end Period

end CcfsController

end Ns3Rmcat.Controller
