import Ns3Rmcat.Header.CCFeedbackAdd
import Ns3Rmcat.Header.CCFeedbackTime

/-! The size that a congestion control feedback header tells, the octets that it writes,
and when it can be written at all. -/
namespace Ns3Rmcat.Header
open Lib CCFeedback

namespace CCFeedback

private theorem ntpToAto_le {ntp ntpRef : UInt32} {ato : UInt16} (h : ntpToAto ntp ntpRef = .ok ato) :
    ato ≤ overrange := by
  obtain ⟨-, he⟩ := check_bind_eq_ok.mp h
  cases he
  have hmin (a b : UInt16) : min a b = if a ≤ b then a else b := rfl
  rw [hmin]
  split
  · assumption
  · exact UInt16.le_refl _

private theorem returns_ntpToAto {ntp ntpRef : UInt32} : Returns (ntpToAto ntp ntpRef) ↔ ntp ≤ ntpRef := by
  by_cases h : ntp ≤ ntpRef
  · simp [ntpToAto, h]
  · simp [ntpToAto, h]

end CCFeedback

namespace CCFeedbackHeader

private theorem returns_metricOf {h : CCFeedbackHeader} {mb : MetricBlock} (hecn : mb.ecn ≤ 3) :
    Returns (h.metricOf (some mb)) ↔ usToNtp mb.timestampUs ≤ usToNtp h.latestTsUs := by
  rw [← returns_ntpToAto, metricOf, check_of hecn, ok_bind, returns_bind]
  constructor
  · rintro ⟨ato, hato, -⟩
    exact ⟨ato, hato⟩
  · rintro ⟨ato, hato⟩
    have hle : ato ≤ 0x1fff := UInt16.le_trans (ntpToAto_le hato) (by decide)
    exact ⟨ato, hato, by rw [check_of hle]; simp⟩

/-- A report block that its window describes. -/
structure Sendable (rb : ReportBlock) : Prop where
  nonempty : rb ≠ ∅
  lacks : Lacks rb
  ecn : ∀ (seq : UInt16) (mb : MetricBlock), rb[seq]? = some mb → mb.ecn ≤ 3

theorem Kept.sendable {h : CCFeedbackHeader} (hk : Kept h) {rb : UInt32 × ReportBlock}
    (hrb : rb ∈ h.reportBlocks.toList) : Sendable rb.2 := by
  have hget := mem_toList.mp hrb
  refine ⟨hk.filled rb.1 rb.2 hget, hk.lacks rb.1 rb.2 hget, fun seq mb hmb => hk.ecn rb.1 seq mb ?_⟩
  rw [lookup?_eq, hget]
  exact hmb

/-- The numbers that are sent are those of the window. -/
theorem mem_windowSeqs {beginSeq stopSeq seq : UInt16} :
    seq ∈ windowSeqs (beginSeq, stopSeq) ↔ ahead beginSeq seq < ahead beginSeq stopSeq :=
  mem_consecutive (ahead_lt beginSeq stopSeq).le

private theorem returns_writeMetrics_window {h : CCFeedbackHeader} {rb : ReportBlock} {beginSeq stopSeq : UInt16}
    (hw : Window rb beginSeq stopSeq) (hecn : ∀ (seq : UInt16) (mb : MetricBlock), rb[seq]? = some mb → mb.ecn ≤ 3) :
    Returns (writeMetrics h.metricOf rb (windowSeqs (beginSeq, stopSeq))) ↔
      ∀ (seq : UInt16) (mb : MetricBlock), rb[seq]? = some mb → usToNtp mb.timestampUs ≤ usToNtp h.latestTsUs := by
  rw [returns_writeMetrics]
  constructor
  · intro hall seq mb hmb
    have hmem : seq ∈ rb := by
      rw [← Std.ExtTreeMap.isSome_getElem?_iff_mem, hmb]
      rfl
    have hone := hall seq (mem_windowSeqs.mpr (hw.covers seq hmem))
    rw [hmb] at hone
    exact (returns_metricOf (hecn seq mb hmb)).mp hone
  · intro hall seq _
    cases hmb : rb[seq]? with
    | none => exact returns_ok _
    | some mb => exact (returns_metricOf (hecn seq mb hmb)).mpr (hall seq mb hmb)

private theorem returns_serializeBlocks {h : CCFeedbackHeader} {blocks : List (UInt32 × ReportBlock)}
    (hblocks : ∀ rb ∈ blocks, Sendable rb.2) :
    Returns (h.serializeBlocks blocks) ↔ ∀ rb ∈ blocks, ∀ (seq : UInt16) (mb : MetricBlock),
      rb.2[seq]? = some mb → usToNtp mb.timestampUs ≤ usToNtp h.latestTsUs := by
  induction blocks with
  | nil => simp [serializeBlocks]
  | cons block blocks ih =>
    obtain ⟨ssrc, rb⟩ := block
    have hsend : Sendable rb := hblocks (ssrc, rb) List.mem_cons_self
    obtain ⟨beginSeq, stopSeq, hcalc, hw⟩ := calculateBeginStopSeq_window hsend.nonempty hsend.lacks
    rw [List.forall_mem_cons, ← ih fun rb' hrb' => hblocks rb' (List.mem_cons_of_mem _ hrb'),
      ← returns_writeMetrics_window hw hsend.ecn, serializeBlocks, hcalc, ok_bind]
    simp only [check_of hsend.nonempty, ok_bind, returns_bind]
    constructor
    · rintro ⟨metrics, hmetrics, bytes, hbytes, -⟩
      exact ⟨⟨metrics, hmetrics⟩, bytes, hbytes⟩
    · rintro ⟨⟨metrics, hmetrics⟩, bytes, hbytes⟩
      exact ⟨metrics, hmetrics, bytes, hbytes, _, rfl⟩

theorem length_serializeBlocks {h : CCFeedbackHeader} {blocks : List (UInt32 × ReportBlock)} {bytes : Octets}
    (hbytes : h.serializeBlocks blocks = .ok bytes) :
    bytes.length = 4 * (blocks.map fun rb => blockWords (places rb.2)).sum := by
  induction blocks generalizing bytes with
  | nil =>
    cases hbytes
    rfl
  | cons block blocks ih =>
    obtain ⟨ssrc, rb⟩ := block
    obtain ⟨⟨beginSeq, stopSeq⟩, hcalc, hrest⟩ := bind_eq_ok.mp hbytes
    obtain ⟨-, hrest⟩ := check_bind_eq_ok.mp hrest
    obtain ⟨metrics, hmetrics, hrest⟩ := bind_eq_ok.mp hrest
    obtain ⟨rest, hr, he⟩ := bind_eq_ok.mp hrest
    cases he
    have hlen := length_writeMetrics hmetrics
    rw [windowSeqs, length_consecutive] at hlen
    simp only [List.length_append, length_writeHtonU32, length_writeHtonU16, hlen, ih hr, length_paddingOf,
      List.map_cons, List.sum_cons, places_eq hcalc, blockWords, ahead]
    omega

theorem length_serialize {h : CCFeedbackHeader} {bytes : Octets} (hbytes : h.serialize = .ok bytes) :
    bytes.length = 4 * (neededLength h.reportBlocks + 1) := by
  obtain ⟨-, hrest⟩ := check_bind_eq_ok.mp hbytes
  obtain ⟨common, hcommon, hrest⟩ := bind_eq_ok.mp hrest
  obtain ⟨-, hrest⟩ := check_bind_eq_ok.mp hrest
  obtain ⟨blocks, hblocks, he⟩ := bind_eq_ok.mp hrest
  cases he
  rw [List.length_append, List.length_append, RtcpHeader.length_serializeCommon hcommon,
    length_serializeBlocks hblocks, length_writeHtonU32, neededLength]
  omega

theorem Kept.two_le_length {h : CCFeedbackHeader} (hk : Kept h) : 2 ≤ h.common.length := by
  rw [UInt16.le_iff_toNat_le, hk.length, neededLength]
  simp only [UInt16.reduceToNat]
  omega

theorem Kept.getSerializedSize {h : CCFeedbackHeader} (hk : Kept h) :
    ∃ n, h.getSerializedSize = .ok n ∧ n.toNat = 4 * (h.common.length.toNat + 1) := by
  have hlt := h.common.length.toNat_lt
  have hge := UInt16.le_iff_toNat_le.mp hk.two_le_length
  simp only [UInt16.reduceToNat] at hge
  refine ⟨8 + (h.common.length.toUInt32 - 1) * 4, ?_, ?_⟩
  · rw [CCFeedbackHeader.getSerializedSize, check_of hk.two_le_length]
    rfl
  · simp only [UInt32.toNat_add, UInt32.toNat_mul, UInt32.toNat_sub, UInt16.toNat_toUInt32, UInt32.reduceToNat]
    omega

/-- A header with entries can be written unless the latest time has a smaller NTP word than an
entry, which needs times for which the word wraps. -/
theorem Kept.returns_serialize {h : CCFeedbackHeader} (hk : Kept h) (hne : h.reportBlocks ≠ ∅) :
    Returns h.serialize ↔ ∀ (ssrc : UInt32) (seq : UInt16) (mb : MetricBlock),
      lookup? h.reportBlocks ssrc seq = some mb → usToNtp mb.timestampUs ≤ usToNtp h.latestTsUs := by
  have htype : h.common.typeOrCnt ≤ 0x1f := by rw [hk.typeOrCnt]; decide
  have hcommon : h.common.serializeCommon = .ok (writeU8 h.common.firstOctet ++ (writeU8 h.common.packetType ++
      (writeHtonU16 h.common.length ++ writeHtonU32 h.common.sendSsrc))) := by
    rw [RtcpHeader.serializeCommon, check_of htype]
    rfl
  have hsendable : ∀ rb ∈ h.reportBlocks.toList, Sendable rb.2 := fun rb hrb => hk.sendable hrb
  have hblocks := returns_serializeBlocks (h := h) hsendable
  have hserialize : Returns h.serialize ↔ Returns (h.serializeBlocks h.reportBlocks.toList) := by
    rw [serialize, check_of hk.two_le_length, ok_bind, hcommon, ok_bind, check_of hne, ok_bind]
    exact returns_bind_ok
  rw [hserialize, hblocks]
  constructor
  · intro hall ssrc seq mb hmb
    rw [lookup?_eq] at hmb
    obtain ⟨rb, hrb, hseq⟩ := Option.bind_eq_some_iff.mp hmb
    exact hall (ssrc, rb) (mem_toList.mpr hrb) seq mb hseq
  · intro hall rb hrb seq mb hmb
    refine hall rb.1 seq mb ?_
    rw [lookup?_eq, mem_toList.mp hrb]
    exact hmb

private theorem Kept.returns_serialize_early {h : CCFeedbackHeader} (hk : Kept h) (hne : h.reportBlocks ≠ ∅)
    (hearly : h.latestTsUs.toNat < 65536000000) : Returns h.serialize :=
  (hk.returns_serialize hne).mpr fun ssrc seq mb hmb => usToNtp_mono (hk.latest ssrc seq mb hmb) hearly

/-- What becomes of an addition: why it is refused, if it is, and the header afterwards. -/
structure AddsExactly (h : CCFeedbackHeader) (ssrc : UInt32) (seq : UInt16) (ts : UInt64) (ecn : UInt8)
    (reason : RejectReason) (h' : CCFeedbackHeader) : Prop where
  badEcn : reason = .badEcn ↔ 3 < ecn
  duplicate : reason = .duplicate ↔ ¬ 3 < ecn ∧ (lookup? h.reportBlocks ssrc seq).isSome
  tooLong : reason = .tooLong ↔ ¬ 3 < ecn ∧ lookup? h.reportBlocks ssrc seq = none ∧
    65535 < neededLength (recordEntry h.reportBlocks ssrc seq { ecn, timestampUs := ts })
  kept : reason = .none ↔ ¬ 3 < ecn ∧ lookup? h.reportBlocks ssrc seq = none ∧
    neededLength (recordEntry h.reportBlocks ssrc seq { ecn, timestampUs := ts }) ≤ 65535
  accepted : reason = .none →
    h'.reportBlocks = recordEntry h.reportBlocks ssrc seq { ecn, timestampUs := ts } ∧
    h'.latestTsUs = max h.latestTsUs ts ∧
    h'.common = { h.common with length := UInt16.ofNat (neededLength h'.reportBlocks) }
  refused : reason ≠ .none → h' = h

/-- An addition either stops, when the block of the SSRC would have every number, or does
exactly what its result tells. -/
private theorem Kept.addsExactly {h : CCFeedbackHeader} (hk : Kept h) (ssrc : UInt32) (seq : UInt16) (ts : UInt64)
    (ecn : UInt8) :
    (¬ 3 < ecn ∧ lookup? h.reportBlocks ssrc seq = none ∧ h.Fills ssrc seq ∧
      h.addFeedback ssrc seq ts ecn = .error .assertion) ∨
    (¬ (¬ 3 < ecn ∧ lookup? h.reportBlocks ssrc seq = none ∧ h.Fills ssrc seq) ∧
      ∃ reason h', h.addFeedback ssrc seq ts ecn = .ok (reason, h') ∧
        AddsExactly h ssrc seq ts ecn reason h') := by
  rcases addFeedback_cases hk ssrc seq ts ecn with ⟨hecn, hok⟩ | ⟨hecn, hsome, hok⟩ | ⟨hecn, hnone,
    ⟨hfills, hstop⟩ | ⟨hfills, hlong, hok⟩ | ⟨hfills, hfits, hok⟩⟩
  · exact .inr ⟨by simp [hecn], _, _, hok, by constructor <;> simp [hecn]⟩
  · have hecn' : ¬ 3 < ecn := UInt8.not_lt.mpr hecn
    have hne : lookup? h.reportBlocks ssrc seq ≠ none := Option.isSome_iff_ne_none.mp hsome
    exact .inr ⟨by simp [hne], _, _, hok, by constructor <;> simp [hecn', hsome, hne]⟩
  · exact .inl ⟨UInt8.not_lt.mpr hecn, hnone, hfills, hstop⟩
  · have hecn' : ¬ 3 < ecn := UInt8.not_lt.mpr hecn
    have hlong' : 65535 < neededLength (recordEntry h.reportBlocks ssrc seq { ecn, timestampUs := ts }) := hlong
    exact .inr ⟨by simp [hfills], _, _, hok, by constructor <;> simp [hecn', hnone, hlong']⟩
  · have hecn' : ¬ 3 < ecn := UInt8.not_lt.mpr hecn
    have hfits' : neededLength (recordEntry h.reportBlocks ssrc seq { ecn, timestampUs := ts }) ≤ 65535 := hfits
    refine .inr ⟨by simp [hfills], _, _, hok, ?_⟩
    constructor
    · simp [hecn']
    · simp [hnone]
    · simp [hfits']
    · simp [hecn', hnone, hfits']
    · exact fun _ => ⟨rfl, rfl, rfl⟩
    · exact fun hne => absurd rfl hne

/-- In any state that calls reach, an addition tells exactly why it refuses an entry, and then
changes nothing; it stops only when the block of the SSRC would have all 65536 numbers. A header
with entries tells the size that it writes, which it does below 65536 seconds at least. -/
theorem addFeedback_exact {calls : List CCFeedbackCall} {h : CCFeedbackHeader}
    (hrun : run step fresh calls = .ok h) :
    (∀ (ssrc : UInt32) (seq : UInt16) (ts : UInt64) (ecn : UInt8),
      (¬ 3 < ecn ∧ lookup? h.reportBlocks ssrc seq = none ∧ h.Fills ssrc seq ∧
        h.addFeedback ssrc seq ts ecn = .error .assertion) ∨
      (¬ (¬ 3 < ecn ∧ lookup? h.reportBlocks ssrc seq = none ∧ h.Fills ssrc seq) ∧
        ∃ reason h', h.addFeedback ssrc seq ts ecn = .ok (reason, h') ∧
          AddsExactly h ssrc seq ts ecn reason h')) ∧
    (h.reportBlocks ≠ ∅ → ∃ n, h.getSerializedSize = .ok n ∧ n.toNat = 4 * (h.common.length.toNat + 1) ∧
      (∀ bytes, h.serialize = .ok bytes → bytes.length = n.toNat) ∧
      (h.latestTsUs.toNat < 65536000000 → Returns h.serialize) ∧
      (Returns h.serialize ↔ ∀ (ssrc : UInt32) (seq : UInt16) (mb : MetricBlock),
        lookup? h.reportBlocks ssrc seq = some mb → usToNtp mb.timestampUs ≤ usToNtp h.latestTsUs)) := by
  have hk := kept_run hrun
  refine ⟨hk.addsExactly, fun hne => ?_⟩
  obtain ⟨n, hn, hsize⟩ := hk.getSerializedSize
  refine ⟨n, hn, hsize, fun bytes hbytes => ?_, hk.returns_serialize_early hne, hk.returns_serialize hne⟩
  rw [length_serialize hbytes, hsize, hk.length]

theorem addFeedback_exact_two_entries :
    ∃ h n, run step fresh [.setSendSsrc 3, .addFeedback 7 65535 1000000 1, .clear, .addFeedback 7 2 1500000 3,
        .addFeedback 7 65535 1000000 1] = .ok h ∧
      h.getSerializedSize = .ok n ∧ n.toNat = 4 * (h.common.length.toNat + 1) ∧ Returns h.serialize ∧
      (∀ bytes, h.serialize = .ok bytes → bytes.length = n.toNat) ∧
      ∃ reason h', h.addFeedback 7 2 1600000 0 = .ok (reason, h') ∧ AddsExactly h 7 2 1600000 0 reason h' := by
  have hfacts : (run step fresh [.setSendSsrc 3, .addFeedback 7 65535 1000000 1, .clear,
      .addFeedback 7 2 1500000 3, .addFeedback 7 65535 1000000 1]).map (fun h =>
        decide (h.reportBlocks ≠ ∅ ∧ h.latestTsUs.toNat < 65536000000 ∧
          lookup? h.reportBlocks 7 2 ≠ none)) = .ok true := by
    decide +kernel
  obtain ⟨h, hrun, hh⟩ := map_eq_ok.mp hfacts
  obtain ⟨hne, hearly, hrecorded⟩ := of_decide_eq_true hh
  obtain ⟨hadd, hsize⟩ := addFeedback_exact hrun
  obtain ⟨n, hn, hlength, hbytes, hreturns, -⟩ := hsize hne
  refine ⟨h, n, hrun, hn, hlength, hreturns hearly, hbytes, ?_⟩
  rcases hadd 7 2 1600000 0 with ⟨-, hnone, -⟩ | ⟨-, hexact⟩
  · exact absurd hnone hrecorded
  · exact hexact

end CCFeedbackHeader

end Ns3Rmcat.Header
