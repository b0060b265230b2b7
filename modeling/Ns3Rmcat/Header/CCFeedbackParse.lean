import Ns3Rmcat.Header.CCFeedback
import Ns3Rmcat.Lib.Reader

/-! Reading any octets as a congestion control feedback header: how many of them are taken,
and that the count of words that are left stays right. -/
namespace Ns3Rmcat.Header
open Lib CCFeedback

namespace CCFeedbackHeader

theorem deserializeMetrics_settles (seqs : List UInt16) (rb : ReportBlock) (start : Octets) :
    Settles (deserializeMetrics seqs rb start) fun read => Taken (2 * seqs.length) start read.2 := by
  induction seqs generalizing rb start with
  | nil => exact .zero start
  | cons seq seqs ih =>
    rw [deserializeMetrics]
    refine (readU8_settles start).bind fun octet1 h1 => ?_
    refine (readU8_settles octet1.2).bind fun octet2 h2 => ?_
    have hrest (rb' : ReportBlock) : Settles (deserializeMetrics seqs rb' octet2.2) fun read =>
        Taken (2 * (seq :: seqs).length) start read.2 := by
      refine (ih rb' octet2.2).mono fun read h3 => ?_
      have hsum : 1 + (1 + 2 * seqs.length) = 2 * (seq :: seqs).length := by
        rw [List.length_cons]
        omega
      exact hsum ▸ h1.trans (h2.trans h3)
    dsimp only
    split
    · exact hrest _
    · split <;> exact hrest _

private theorem atoToNtp_settles (ato : UInt16) (ntpRef : UInt32) : Settles (atoToNtp ato ntpRef) fun _ => True :=
  settles_check fun _ => settles_check fun _ => trivial

private theorem populateTimestamps_settles (ntpRef : UInt32) (mbs : List (UInt16 × MetricBlock)) (rb : ReportBlock) :
    Settles (populateTimestamps ntpRef mbs rb) fun _ => True := by
  induction mbs generalizing rb with
  | nil => exact trivial
  | cons entry mbs ih => exact (atoToNtp_settles entry.2.ato ntpRef).bind fun ntp _ => ih _

private theorem populateBlocks_settles (ntpRef : UInt32) (blocks : List (UInt32 × ReportBlock))
    (reportBlocks : Std.ExtTreeMap UInt32 ReportBlock) :
    Settles (populateBlocks ntpRef blocks reportBlocks) fun _ => True := by
  induction blocks generalizing reportBlocks with
  | nil => exact trivial
  | cons block blocks ih =>
    exact (populateTimestamps_settles ntpRef block.2.toList block.2).bind fun rb _ => ih _

/-- The words of a round, which its checks have found to be left: a head of four, the metric
blocks and their padding. -/
structure Room (lenLeft : UInt64) (nMetricBlocks : UInt32) : Prop where
  head : 4 ≤ lenLeft
  few : nMetricBlocks ≤ 0xffff
  metrics : (nMetricBlocks + nMetricBlocks % 2).toUInt64 ≤ lenLeft - 4

namespace Room
variable {lenLeft : UInt64} {nMetricBlocks : UInt32}

private theorem words (h : Room lenLeft nMetricBlocks) :
    4 + (nMetricBlocks.toNat + nMetricBlocks.toNat % 2) ≤ lenLeft.toNat := by
  obtain ⟨hhead, hfew, hmetrics⟩ := h
  have h4 : (lenLeft - 4).toNat = lenLeft.toNat - 4 := UInt64.toNat_sub_of_le _ _ hhead
  rw [UInt64.le_iff_toNat_le] at hhead hmetrics
  rw [UInt32.le_iff_toNat_le] at hfew
  rw [h4, UInt32.toNat_toUInt64, UInt32.toNat_add, UInt32.toNat_mod] at hmetrics
  simp only [UInt32.reduceToNat, UInt64.reduceToNat] at hhead hfew hmetrics
  omega

private theorem subtractions (h : Room lenLeft nMetricBlocks) :
    nMetricBlocks.toUInt64 ≤ lenLeft - 4 ∧
      (nMetricBlocks % 2 = 1 → 1 ≤ lenLeft - 4 - nMetricBlocks.toUInt64) := by
  have hwords := h.words
  have h4 : (lenLeft - 4).toNat = lenLeft.toNat - 4 := UInt64.toNat_sub_of_le _ _ h.head
  have hmetrics : nMetricBlocks.toUInt64 ≤ lenLeft - 4 := by
    rw [UInt64.le_iff_toNat_le, UInt32.toNat_toUInt64, h4]
    omega
  refine ⟨hmetrics, fun hodd => ?_⟩
  have hodd' : nMetricBlocks.toNat % 2 = 1 := congrArg UInt32.toNat hodd
  rw [UInt64.le_iff_toNat_le, UInt64.toNat_sub_of_le _ _ hmetrics, UInt32.toNat_toUInt64, h4]
  simp only [UInt64.reduceToNat]
  omega

private theorem toNat_left (h : Room lenLeft nMetricBlocks) :
    (lenLeft - 4 - nMetricBlocks.toUInt64).toNat = lenLeft.toNat - 4 - nMetricBlocks.toNat := by
  rw [UInt64.toNat_sub_of_le _ _ h.subtractions.1, UInt64.toNat_sub_of_le _ _ h.head, UInt32.toNat_toUInt64]
  rfl

end Room

/-- The loop takes exactly the words that are left, two octets each, and ends before its
rounds are used up. -/
theorem deserializeBlocks_settles {rounds : Nat} {start : Octets} (hrounds : start.length < rounds)
    (lenLeft : UInt64) (reportBlocks : Std.ExtTreeMap UInt32 ReportBlock) :
    Settles (deserializeBlocks rounds lenLeft reportBlocks start) fun read =>
      Taken (2 * lenLeft.toNat) start read.2 := by
  induction rounds generalizing start lenLeft reportBlocks with
  | zero => exact absurd hrounds (Nat.not_lt_zero _)
  | succ rounds ih =>
    rw [deserializeBlocks]
    by_cases hleft : lenLeft = 0
    · rw [if_pos hleft, hleft]
      exact .zero start
    · rw [if_neg hleft]
      refine settles_check fun hhead => ?_
      refine (readNtohU32_settles start).bind fun ssrc h1 => ?_
      refine (readNtohU16_settles ssrc.2).bind fun beginSeq h2 => ?_
      refine (readNtohU16_settles beginSeq.2).bind fun endSeq h3 => ?_
      refine settles_check fun hfew => settles_check fun hmetrics => ?_
      have hroom : Room lenLeft ((endSeq.1 - beginSeq.1).toUInt32 + 1) := ⟨hhead, hfew, hmetrics⟩
      generalize (endSeq.1 - beginSeq.1).toUInt32 + 1 = nMetricBlocks at hroom ⊢
      have hwords := hroom.words
      have hnext := hroom.toNat_left
      refine (deserializeMetrics_settles _ _ endSeq.2).bind fun rb h4 => ?_
      rw [length_consecutive] at h4
      have hread : Taken (8 + 2 * nMetricBlocks.toNat) start rb.2 := (h1.trans (h2.1.trans h3.1)).trans h4
      have hlength := hread.length
      dsimp only
      by_cases hodd : nMetricBlocks % 2 = 1
      · rw [if_pos hodd]
        have hodd' : nMetricBlocks.toNat % 2 = 1 := congrArg UInt32.toNat hodd
        have hlast : (lenLeft - 4 - nMetricBlocks.toUInt64 - 1).toNat =
            lenLeft.toNat - 4 - nMetricBlocks.toNat - 1 := by
          rw [UInt64.toNat_sub_of_le _ _ (hroom.subtractions.2 hodd), hnext]
          rfl
        refine (readNtohU16_settles rb.2).bind fun padding h5 => ?_
        have hpadding := h5.1.length
        refine (ih (by omega) _ _).mono fun read h6 => ?_
        have hsum : 8 + 2 * nMetricBlocks.toNat + (2 + 2 * (lenLeft - 4 - nMetricBlocks.toUInt64 - 1).toNat) =
            2 * lenLeft.toNat := by omega
        exact hsum ▸ hread.trans (h5.1.trans h6)
      · rw [if_neg hodd]
        have hodd' : nMetricBlocks.toNat % 2 ≠ 1 := fun he => hodd (UInt32.toNat_inj.mp he)
        refine (ih (by omega) _ _).mono fun read h5 => ?_
        have hsum : 8 + 2 * nMetricBlocks.toNat + 2 * (lenLeft - 4 - nMetricBlocks.toUInt64).toNat =
            2 * lenLeft.toNat := by omega
        exact hsum ▸ hread.trans h5

def lengthField (start : Octets) : UInt16 := wordAt start 2

private theorem getSerializedSize_settles (h : CCFeedbackHeader) :
    Settles h.getSerializedSize fun size => 2 ≤ h.common.length ∧ size.toNat = 4 * (h.common.length.toNat + 1) := by
  refine settles_check fun hlength => ⟨hlength, ?_⟩
  have hlt := h.common.length.toNat_lt
  rw [UInt16.le_iff_toNat_le] at hlength
  simp only [UInt32.toNat_add, UInt32.toNat_mul, UInt32.toNat_sub, UInt16.toNat_toUInt32, UInt32.reduceToNat,
    UInt16.reduceToNat] at hlength ⊢
  omega

/-- A length that is too small for the header is turned down by the size that is asked for. -/
theorem deserializeCommon_settles (h : CCFeedbackHeader) (start : Octets) :
    Settles (RtcpHeader.deserializeCommon (fun common => { h with common : CCFeedbackHeader }.getSerializedSize)
      start) fun read => Taken 8 start read.2 ∧ read.1.length = lengthField start ∧ 2 ≤ read.1.length :=
  RtcpHeader.deserializeCommon_settles (fun _ => (getSerializedSize_settles _).mono fun _ h => h.1) start

/-- The words of the report blocks, as the length tells them. -/
theorem toNat_lenLeft {length : UInt16} (htwo : 2 ≤ length) :
    ((length.toUInt64 - 2) * 2).toNat = (length.toNat - 2) * 2 := by
  have hlt := length.toNat_lt
  rw [UInt16.le_iff_toNat_le] at htwo
  simp only [UInt64.toNat_mul, UInt64.toNat_sub, UInt16.toNat_toUInt64, UInt64.reduceToNat,
    UInt16.reduceToNat] at htwo ⊢
  omega

private theorem deserialize_settles (h : CCFeedbackHeader) (start : Octets) :
    Settles (h.deserialize start) fun read => read.1.toNat = 4 * ((lengthField start).toNat + 1) ∧
      Taken read.1.toNat start read.2.2 := by
  refine settles_check fun _ => ?_
  refine (deserializeCommon_settles h start).bind fun common hcommon => ?_
  obtain ⟨h1, hfield, htwo⟩ := hcommon
  refine settles_check fun _ => settles_check fun _ => ?_
  refine (deserializeBlocks_settles (Nat.lt_succ_self _) _ _).bind fun blocks h2 => ?_
  refine (readNtohU32_settles blocks.2).bind fun ntpRef h3 => ?_
  refine (populateBlocks_settles _ _ _).bind fun reportBlocks _ => settles_check fun _ => ?_
  refine (getSerializedSize_settles _).bind fun size hgot => ?_
  have hsize : size.toNat = 4 * (common.1.length.toNat + 1) := hgot.2
  have hwords := toNat_lenLeft htwo
  have htotal : 8 + (2 * ((common.1.length.toUInt64 - 2) * 2).toNat + 4) = size.toNat := by
    rw [UInt16.le_iff_toNat_le] at htwo
    simp only [UInt16.reduceToNat] at htwo
    rw [hwords, hsize]
    omega
  refine ⟨hfield ▸ hsize, ?_⟩
  exact htotal ▸ h1.trans (h2.trans h3)

/-- A subtraction that is right while it stays above zero, and anything at all below. -/
def Subtracts (sub : UInt64 → UInt64 → Checked UInt64) : Prop := ∀ a b, b ≤ a → sub a b = .ok (a - b)

/-- The loop, with the subtractions from the words that are left done by sub. -/
def deserializeBlocksWith (sub : UInt64 → UInt64 → Checked UInt64) : Nat → UInt64 →
    Std.ExtTreeMap UInt32 ReportBlock → Octets → Checked (Std.ExtTreeMap UInt32 ReportBlock × Octets)
  | 0, _, _, _ => .error .outOfFuel
  | rounds + 1, lenLeft, reportBlocks, start => do
    if lenLeft = 0 then
      return (reportBlocks, start)
    check (4 ≤ lenLeft)
    let (ssrc, start) ← readNtohU32 start
    let rb := reportBlocks.getD ssrc ∅
    let (beginSeq, start) ← readNtohU16 start
    let (endSeq, start) ← readNtohU16 start
    let lenLeft ← sub lenLeft 4
    let diff := endSeq - beginSeq
    let nMetricBlocks := diff.toUInt32 + 1
    check (nMetricBlocks ≤ 0xffff)
    let nPaddingBlocks := nMetricBlocks % 2
    check ((nMetricBlocks + nPaddingBlocks).toUInt64 ≤ lenLeft)
    let (rb, start) ← deserializeMetrics (consecutive beginSeq nMetricBlocks.toNat) rb start
    let reportBlocks := reportBlocks.insert ssrc rb
    let lenLeft ← sub lenLeft nMetricBlocks.toUInt64
    if nPaddingBlocks = 1 then
      let (_, start) ← readNtohU16 start
      let lenLeft ← sub lenLeft 1
      deserializeBlocksWith sub rounds lenLeft reportBlocks start
    else deserializeBlocksWith sub rounds lenLeft reportBlocks start

/-- Deserialize, with every subtraction that makes the words that are left done by sub. -/
def deserializeWith (sub : UInt64 → UInt64 → Checked UInt64) (h : CCFeedbackHeader) (start : Octets) :
    Checked (UInt32 × CCFeedbackHeader × Octets) := do
  check (2 ≤ h.common.length)
  let (common, start) ← RtcpHeader.deserializeCommon
    (fun common => { h with common : CCFeedbackHeader }.getSerializedSize) start
  check (common.packetType = rtpFb)
  check (common.typeOrCnt = rtcpRtpfbCc)
  let words ← sub common.length.toUInt64 2
  let lenLeft : UInt64 := words * 2
  let (reportBlocks, start) ← deserializeBlocksWith sub (start.length + 1) lenLeft h.reportBlocks start
  let (ntpRef, start) ← readNtohU32 start
  let reportBlocks ← populateBlocks ntpRef reportBlocks.toList reportBlocks
  let h : CCFeedbackHeader := { common, reportBlocks, latestTsUs := ntpToUs ntpRef }
  check (h.reportBlocks ≠ ∅)
  return (← h.getSerializedSize, h, start)

private theorem deserializeBlocksWith_eq {sub : UInt64 → UInt64 → Checked UInt64} (hsub : Subtracts sub) (rounds : Nat)
    (lenLeft : UInt64) (reportBlocks : Std.ExtTreeMap UInt32 ReportBlock) (start : Octets) :
    deserializeBlocksWith sub rounds lenLeft reportBlocks start =
      deserializeBlocks rounds lenLeft reportBlocks start := by
  induction rounds generalizing lenLeft reportBlocks start with
  | zero => rfl
  | succ rounds ih =>
    rw [deserializeBlocksWith, deserializeBlocks]
    split
    · rfl
    refine check_bind_congr fun hhead => bind_congr fun ssrc => bind_congr fun beginSeq => bind_congr fun endSeq => ?_
    simp only [hsub lenLeft 4 hhead, ok_bind]
    refine check_bind_congr fun hfew => check_bind_congr fun hmetrics => bind_congr fun rb => ?_
    have hroom : Room lenLeft ((endSeq.1 - beginSeq.1).toUInt32 + 1) := ⟨hhead, hfew, hmetrics⟩
    obtain ⟨hblocks, hpadding⟩ := hroom.subtractions
    rw [hsub _ _ hblocks, ok_bind]
    split
    · rename_i hodd
      refine bind_congr fun padding => ?_
      rw [hsub _ _ (hpadding hodd), ok_bind]
      exact ih _ _ _
    · exact ih _ _ _

/-- What reading a buffer into a fresh header does, whatever is in the buffer. -/
structure ConsumesPacket (start : Octets) : Prop where
  exact : Settles (fresh.deserialize start) fun read =>
    read.1.toNat = 4 * ((lengthField start).toNat + 1) ∧ Taken read.1.toNat start read.2.2
  noUnderflow : ∀ sub, Subtracts sub → fresh.deserializeWith sub start = fresh.deserialize start

theorem deserialize_consumes (start : Octets) : ConsumesPacket start := by
  refine ⟨deserialize_settles fresh start, fun sub hsub => ?_⟩
  rw [deserializeWith, deserialize]
  refine check_bind_congr fun _ => ?_
  have hcommon := deserializeCommon_settles fresh start
  cases hread : RtcpHeader.deserializeCommon
      (fun common => { fresh with common : CCFeedbackHeader }.getSerializedSize) start with
  | error fault => rfl
  | ok read =>
    rw [hread] at hcommon
    obtain ⟨-, -, htwo⟩ := hcommon
    have htwo64 : 2 ≤ read.1.length.toUInt64 := by
      rw [UInt16.le_iff_toNat_le] at htwo
      rw [UInt64.le_iff_toNat_le, UInt16.toNat_toUInt64]
      exact htwo
    rw [ok_bind, ok_bind]
    refine check_bind_congr fun _ => check_bind_congr fun _ => ?_
    simp only [hsub _ _ htwo64, ok_bind, deserializeBlocksWith_eq hsub]

end CCFeedbackHeader

end Ns3Rmcat.Header
