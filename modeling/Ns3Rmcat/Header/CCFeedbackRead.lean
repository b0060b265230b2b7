import Ns3Rmcat.Header.CCFeedbackSize

/-! Reading the octets of a congestion control feedback header: first the offsets of all
report blocks, and then, once the latest time is known, the times that they stand for. -/
namespace Ns3Rmcat.Header
open Lib CCFeedback

namespace CCFeedbackHeader

def atoOf (h : CCFeedbackHeader) (mb : MetricBlock) : UInt16 :=
  match ntpToAto (usToNtp mb.timestampUs) (usToNtp h.latestTsUs) with
  | .ok ato => ato
  | .error _ => unavailable

/-- What is read of an entry before the latest time is known. -/
def sent (h : CCFeedbackHeader) (mb : MetricBlock) : MetricBlock :=
  { ecn := mb.ecn, timestampUs := 0, ato := h.atoOf mb }

/-- An entry that can be sent and read. -/
def Fits (h : CCFeedbackHeader) (mb : MetricBlock) : Prop := mb.ecn ≤ 3 ∧ TimeFits h.latestTsUs mb.timestampUs

theorem Fits.metricOf {h : CCFeedbackHeader} {mb : MetricBlock} (hfits : h.Fits mb) :
    h.metricOf (some mb) = .ok (some (mb.ecn, h.atoOf mb)) ∧ MetricFits (some (mb.ecn, h.atoOf mb)) ∧
      h.atoOf mb ≠ unavailable := by
  obtain ⟨hecn, htime⟩ := hfits
  obtain ⟨ato, -, hato, hlt, -, -⟩ := htime.roundTrip
  have hatoOf : h.atoOf mb = ato := by rw [atoOf, hato]
  have hle : ato ≤ 0x1fff := UInt16.le_of_lt hlt
  rw [hatoOf]
  refine ⟨?_, ⟨hecn, hle⟩, UInt16.ne_of_lt hlt⟩
  rw [CCFeedbackHeader.metricOf, check_of hecn, ok_bind]
  simp only [hato, ok_bind, check_of hle]
  rfl

private theorem deserializeMetrics_none (seq : UInt16) (seqs : List UInt16) (rb : ReportBlock) (rest : Octets) :
    deserializeMetrics (seq :: seqs) rb (metricOctets none ++ rest) = deserializeMetrics seqs rb rest := by
  obtain ⟨octet1, octet2, hoctets, hparse⟩ := parseMetric_metricOctets (show MetricFits none from trivial)
  rw [hoctets, deserializeMetrics]
  simp only [List.cons_append, List.nil_append, readU8_cons, ok_bind, hparse]

private theorem deserializeMetrics_some {ecn : UInt8} {ato : UInt16} (hfits : MetricFits (some (ecn, ato)))
    (hato : ato ≠ unavailable) {seq : UInt16} (seqs : List UInt16) {rb : ReportBlock} (hnew : rb[seq]? = none)
    (rest : Octets) :
    deserializeMetrics (seq :: seqs) rb (metricOctets (some (ecn, ato)) ++ rest) =
      deserializeMetrics seqs (rb.insert seq { ecn, timestampUs := 0, ato }) rest := by
  obtain ⟨octet1, octet2, hoctets, hparse⟩ := parseMetric_metricOctets hfits
  rw [hoctets, deserializeMetrics]
  simp only [List.cons_append, List.nil_append, readU8_cons, ok_bind, hparse, hnew, if_pos hato]
  rfl

private theorem deserializeMetrics_writeMetrics {h : CCFeedbackHeader} {rb rb' : ReportBlock} {seqs : List UInt16}
    (hfits : ∀ (seq : UInt16) (mb : MetricBlock), rb[seq]? = some mb → h.Fits mb) (hnodup : seqs.Nodup)
    (hnew : ∀ seq ∈ seqs, rb'[seq]? = none) :
    ∃ bytes rb'', writeMetrics h.metricOf rb seqs = .ok bytes ∧
      (∀ rest, deserializeMetrics seqs rb' (bytes ++ rest) = .ok (rb'', rest)) ∧
      ∀ seq, rb''[seq]? = if seq ∈ seqs then rb[seq]?.map h.sent else rb'[seq]? := by
  induction seqs generalizing rb' with
  | nil => exact ⟨[], rb', rfl, fun _ => rfl, by simp⟩
  | cons seq seqs ih =>
    obtain ⟨hseq, hnodup⟩ := List.nodup_cons.mp hnodup
    cases hmb : rb[seq]? with
    | none =>
      obtain ⟨bytes, rb'', hbytes, hread, hentries⟩ := ih hnodup fun s hs => hnew s (by simp [hs])
      refine ⟨metricOctets none ++ bytes, rb'', ?_, fun rest => ?_, fun other => ?_⟩
      · rw [writeMetrics, hmb, metricOf, ok_bind, hbytes]
        rfl
      · rw [List.append_assoc, deserializeMetrics_none]
        exact hread rest
      · rw [hentries]
        by_cases hs : other = seq
        · subst hs
          simp [hseq, hmb, hnew other (by simp)]
        · simp [hs]
    | some mb =>
      obtain ⟨hmetric, hmetricFits, hato⟩ := (hfits seq mb hmb).metricOf
      have hget (other : UInt16) : (rb'.insert seq (h.sent mb))[other]? =
          if seq = other then some (h.sent mb) else rb'[other]? := by
        simp [Std.ExtTreeMap.getElem?_insert]
      have hnew1 : ∀ s ∈ seqs, (rb'.insert seq (h.sent mb))[s]? = none := by
        intro s hs
        have hne : seq ≠ s := fun he => hseq (he ▸ hs)
        rw [hget, if_neg hne]
        exact hnew s (by simp [hs])
      obtain ⟨bytes, rb'', hbytes, hread, hentries⟩ := ih hnodup hnew1
      refine ⟨metricOctets (some (mb.ecn, h.atoOf mb)) ++ bytes, rb'', ?_, fun rest => ?_, fun other => ?_⟩
      · rw [writeMetrics, hmb, hmetric, ok_bind, hbytes]
        rfl
      · rw [List.append_assoc, deserializeMetrics_some hmetricFits hato seqs (hnew seq (by simp))]
        exact hread rest
      · rw [hentries, hget]
        by_cases hs : other = seq
        · subst hs
          simp [hseq, hmb]
        · simp [hs, Ne.symm hs]

def sentBlock (h : CCFeedbackHeader) (rb : ReportBlock) : ReportBlock := rb.map fun _ mb => h.sent mb

theorem getElem?_sentBlock (h : CCFeedbackHeader) (rb : ReportBlock) (seq : UInt16) :
    (h.sentBlock rb)[seq]? = rb[seq]?.map h.sent := by
  simp [sentBlock, Std.ExtTreeMap.getElem?_map]

/-- Report blocks of which every entry can be sent and read. -/
structure Readable (h : CCFeedbackHeader) (rb : ReportBlock) : Prop extends Sendable rb where
  fits : ∀ (seq : UInt16) (mb : MetricBlock), rb[seq]? = some mb → h.Fits mb

/-- The number of metric blocks that is computed from the first and the last number. -/
theorem toNat_countTo (beginSeq endSeq : UInt16) :
    ((endSeq - beginSeq).toUInt32 + 1).toNat = ahead beginSeq endSeq + 1 := by
  have hlt := ahead_lt beginSeq endSeq
  rw [ahead] at hlt ⊢
  simp only [UInt32.toNat_add, UInt16.toNat_toUInt32, UInt32.reduceToNat]
  omega

private theorem toNat_nMetricBlocks {beginSeq stopSeq : UInt16} (h : 0 < ahead beginSeq stopSeq) :
    ((stopSeq - 1 - beginSeq).toUInt32 + 1).toNat = ahead beginSeq stopSeq := by
  have h1 := beginSeq.toNat_lt
  have h2 := stopSeq.toNat_lt
  have hlast : (stopSeq - 1).toNat = (stopSeq.toNat + 65535) % 65536 := by
    simp only [UInt16.toNat_sub, UInt16.reduceToNat]
    omega
  rw [toNat_countTo, ahead_eq, hlast]
  rw [ahead_eq] at h ⊢
  omega

/-- One report block is read as it was written, with its padding. -/
theorem deserializeBlocks_block {h : CCFeedbackHeader} {ssrc : UInt32} {rb : ReportBlock}
    {reportBlocks : Std.ExtTreeMap UInt32 ReportBlock} (hrb : Readable h rb) (hnew : reportBlocks[ssrc]? = none) :
    ∃ beginSeq stopSeq metrics, calculateBeginStopSeq rb = .ok (beginSeq, stopSeq) ∧
      writeMetrics h.metricOf rb (windowSeqs (beginSeq, stopSeq)) = .ok metrics ∧
      ∀ (rounds words : Nat) (rest : Octets), 2 * blockWords (places rb) + words < 2 ^ 64 →
        deserializeBlocks (rounds + 1) (UInt64.ofNat (2 * blockWords (places rb) + words)) reportBlocks
          (writeHtonU32 ssrc ++ (writeHtonU16 beginSeq ++ (writeHtonU16 (stopSeq - 1) ++
            (metrics ++ (paddingOf (stopSeq - beginSeq) ++ rest))))) =
          deserializeBlocks rounds (UInt64.ofNat words) (reportBlocks.insert ssrc (h.sentBlock rb)) rest := by
  obtain ⟨beginSeq, stopSeq, hcalc, hw⟩ := calculateBeginStopSeq_window hrb.nonempty hrb.lacks
  have hplaces := places_eq hcalc
  have hlt := ahead_lt beginSeq stopSeq
  have hpos : 0 < ahead beginSeq stopSeq := Nat.zero_lt_of_lt (hw.covers beginSeq hw.begin_mem)
  have hmetricBlocks := toNat_nMetricBlocks hpos
  have hnodup : (windowSeqs (beginSeq, stopSeq)).Nodup := nodup_consecutive _ hlt.le
  have hempty : ∀ seq ∈ windowSeqs (beginSeq, stopSeq), (∅ : ReportBlock)[seq]? = none := by simp
  obtain ⟨metrics, rb', hmetrics, hread, hentries⟩ := deserializeMetrics_writeMetrics hrb.fits hnodup hempty
  have hrb' : rb' = h.sentBlock rb := by
    apply Std.ExtTreeMap.ext_getElem?
    intro seq
    rw [hentries, getElem?_sentBlock]
    by_cases hseq : seq ∈ windowSeqs (beginSeq, stopSeq)
    · rw [if_pos hseq]
    · have hnone : rb[seq]? = none :=
        Std.ExtTreeMap.getElem?_eq_none fun hmem => hseq (mem_windowSeqs.mpr (hw.covers seq hmem))
      rw [if_neg hseq, hnone]
      simp
  refine ⟨beginSeq, stopSeq, metrics, hcalc, hmetrics, fun rounds words rest hwords => ?_⟩
  rw [hplaces] at hwords ⊢
  have hlen : (UInt64.ofNat (2 * blockWords (ahead beginSeq stopSeq) + words)).toNat =
      2 * blockWords (ahead beginSeq stopSeq) + words := by rw [UInt64.toNat_ofNat', Nat.mod_eq_of_lt hwords]
  have hne0 : UInt64.ofNat (2 * blockWords (ahead beginSeq stopSeq) + words) ≠ 0 := by
    rw [ne_eq, ← UInt64.toNat_inj, hlen]
    simp [blockWords]
  have hge4 : 4 ≤ UInt64.ofNat (2 * blockWords (ahead beginSeq stopSeq) + words) := by
    rw [UInt64.le_iff_toNat_le, hlen]
    simp only [blockWords, UInt64.reduceToNat]
    omega
  have hfew : (stopSeq - 1 - beginSeq).toUInt32 + 1 ≤ 0xffff := by
    rw [UInt32.le_iff_toNat_le, hmetricBlocks]
    simp only [UInt32.reduceToNat]
    omega
  have hparity : (((stopSeq - 1 - beginSeq).toUInt32 + 1) % 2).toNat = ahead beginSeq stopSeq % 2 := by
    rw [UInt32.toNat_mod, hmetricBlocks]
    rfl
  have hroom : ((stopSeq - 1 - beginSeq).toUInt32 + 1 + ((stopSeq - 1 - beginSeq).toUInt32 + 1) % 2).toUInt64 ≤
      UInt64.ofNat (2 * blockWords (ahead beginSeq stopSeq) + words) - 4 := by
    rw [UInt64.le_iff_toNat_le, UInt64.toNat_sub_of_le _ _ hge4, hlen, UInt32.toNat_toUInt64, UInt32.toNat_add,
      hmetricBlocks, hparity]
    simp only [blockWords, UInt64.reduceToNat]
    omega
  have hempty : reportBlocks.getD ssrc ∅ = ∅ := by
    rw [Std.ExtTreeMap.getD_eq_getD_getElem?, hnew]
    rfl
  have hseqs : consecutive beginSeq ((stopSeq - 1 - beginSeq).toUInt32 + 1).toNat = windowSeqs (beginSeq, stopSeq) := by
    rw [hmetricBlocks]
    rfl
  have hone : ((stopSeq - 1 - beginSeq).toUInt32 + 1) % 2 = 1 ↔ (stopSeq - beginSeq) % 2 = 1 := by
    rw [odd_iff, ← UInt32.toNat_inj, hparity]
    rfl
  have hleft : UInt64.ofNat (2 * blockWords (ahead beginSeq stopSeq) + words) - 4 -
      ((stopSeq - 1 - beginSeq).toUInt32 + 1).toUInt64 = UInt64.ofNat (ahead beginSeq stopSeq % 2 + words) := by
    apply UInt64.toNat_inj.mp
    simp only [UInt64.toNat_sub, UInt32.toNat_toUInt64, hmetricBlocks, blockWords, UInt64.toNat_ofNat',
      UInt64.reduceToNat]
    omega
  rw [deserializeBlocks, if_neg hne0, check_of hge4]
  simp only [ok_bind, readNtohU32_write, readNtohU16_write, check_of hfew, check_of hroom, hempty, hseqs, hread,
    hleft, hone, hrb']
  by_cases hodd : (stopSeq - beginSeq) % 2 = 1
  · have hnat : ahead beginSeq stopSeq % 2 = 1 := (odd_iff _).mp hodd
    have hnext : UInt64.ofNat (1 + words) - 1 = UInt64.ofNat words := by
      apply UInt64.toNat_inj.mp
      simp only [UInt64.toNat_sub, UInt64.toNat_ofNat', UInt64.reduceToNat]
      omega
    simp only [paddingOf, if_pos hodd, readNtohU16_write, ok_bind, hnat, hnext]
  · have hnat : ahead beginSeq stopSeq % 2 = 0 := by
      rw [odd_iff] at hodd
      exact Nat.mod_two_ne_one.mp hodd
    simp only [paddingOf, if_neg hodd, List.nil_append, hnat, Nat.zero_add]

end CCFeedbackHeader

end Ns3Rmcat.Header
