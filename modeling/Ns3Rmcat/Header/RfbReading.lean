import Ns3Rmcat.Header.RfbSteps
import Ns3Rmcat.Lib.Reader

/-! Reading any octets as an RTP feedback header: it ends, each stream that it adds has taken
eight octets at least, and nothing that it adds arrived after the report was made. -/
namespace Ns3Rmcat.Header
open Lib

namespace RfbHeader

/-- Nothing arrived after the time of the report. -/
def Arrived (h : RfbHeader) : Prop :=
  ∀ (ssrc : UInt32) (seq : UInt16) (mb : RfbMetricBlock), lookup? h.reportBlocks ssrc seq = some mb →
    mb.timestampMs ≤ h.reportTimeMs

/-- Some streams are the only ones that a header gains. -/
structure Gains (ssrcs : List UInt32) (g g' : RfbHeader) : Prop where
  keys : ∀ key ∈ g'.reportBlocks, key ∈ g.reportBlocks ∨ key ∈ ssrcs
  reportTimeMs : g'.reportTimeMs = g.reportTimeMs
  arrived : Arrived g → Arrived g'

variable {g g' : RfbHeader}

private theorem Gains.refl (g : RfbHeader) : Gains [] g g := ⟨fun _ h => .inl h, rfl, id⟩

private theorem Gains.trans {ssrcs more : List UInt32} {g'' : RfbHeader} (h : Gains ssrcs g g')
    (h' : Gains more g' g'') :
    Gains (ssrcs ++ more) g g'' := by
  refine ⟨fun key hkey => ?_, h'.reportTimeMs.trans h.reportTimeMs, fun ha => h'.arrived (h.arrived ha)⟩
  rcases h'.keys key hkey with hkey | hkey
  · exact (h.keys key hkey).imp_right (List.mem_append_left _)
  · exact .inr (List.mem_append_right _ hkey)

private theorem Gains.addFeedback {ssrc : UInt32} {seq : UInt16} {ts : UInt64} {ecn : UInt8}
    (hts : ts ≤ g.reportTimeMs) :
    Gains [ssrc] g (g.addFeedback ssrc seq ts ecn).2 where
  keys := fun _ hkey => (addFeedback_keys hkey).imp_right List.mem_singleton.mpr
  reportTimeMs := reportTimeMs_addFeedback g ssrc seq ts ecn
  arrived := by
    intro ha
    rcases g.addFeedback_cases ssrc seq ts ecn with ⟨-, he⟩ | ⟨-, -, he⟩ | ⟨-, -, he⟩
    · rwa [he]
    · rwa [he]
    · rw [he, update_snd]
      intro ssrc' seq' mb hmb
      rw [withEntry] at hmb
      dsimp only at hmb
      rw [lookup?_recordEntry] at hmb
      split at hmb
      · cases hmb
        exact hts
      · exact ha ssrc' seq' mb hmb

private theorem atoToTs_settles (h : RfbHeader) (ato : UInt16) :
    Settles (h.atoToTs ato) fun ts => ts ≤ h.reportTimeMs := by
  refine settles_check fun hle => ?_
  rw [UInt64.le_iff_toNat_le] at hle
  change h.reportTimeMs - ato.toUInt64 ≤ h.reportTimeMs
  rw [UInt64.le_iff_toNat_le, UInt64.toNat_sub_of_le _ _ (UInt64.le_iff_toNat_le.mpr hle)]
  omega

theorem deserializeMetrics_settles (ssrc : UInt32) (seqs : List UInt16) (g : RfbHeader) (start : Octets) :
    Settles (deserializeMetrics ssrc seqs g start) fun read =>
      Taken (2 * seqs.length) start read.2 ∧ Gains [ssrc] g read.1 := by
  induction seqs generalizing g start with
  | nil => exact ⟨.zero start, fun _ h => .inl h, rfl, id⟩
  | cons seq seqs ih =>
    rw [deserializeMetrics]
    refine (readU8_settles start).bind fun octet1 h1 => ?_
    refine (readU8_settles octet1.2).bind fun octet2 h2 => ?_
    have hsum : 1 + (1 + 2 * seqs.length) = 2 * (seq :: seqs).length := by
      rw [List.length_cons]
      omega
    dsimp only
    split
    · refine (ih g octet2.2).mono fun read h3 => ?_
      exact ⟨hsum ▸ h1.trans (h2.trans h3.1), h3.2⟩
    · rename_i ecn ato hmetric
      refine (atoToTs_settles g ato).bind fun ts hts => ?_
      refine (ih _ octet2.2).mono fun read h3 => ?_
      have hadded : Gains [ssrc] g (g.addFeedback ssrc seq ts ecn).2 := .addFeedback hts
      have hgains := hadded.trans h3.2
      refine ⟨hsum ▸ h1.trans (h2.trans h3.1), fun key hkey => ?_, hgains.reportTimeMs, hgains.arrived⟩
      exact (hgains.keys key hkey).imp_right fun h => by simpa using h

private theorem deserializeBlocks_settles {rounds : Nat} {start : Octets} (hrounds : start.length < rounds)
    (lenLeft : UInt64) (g : RfbHeader) :
    Settles (deserializeBlocks rounds lenLeft g start) fun read =>
      ∃ ssrcs, 8 * ssrcs.length + read.2.length ≤ start.length ∧ Gains ssrcs g read.1 := by
  induction rounds generalizing start lenLeft g with
  | zero => exact absurd hrounds (Nat.not_lt_zero _)
  | succ rounds ih =>
    rw [deserializeBlocks]
    split
    · exact ⟨[], by simp, .refl g⟩
    · refine settles_check fun _ => ?_
      refine (readNtohU32_settles start).bind fun ssrc h1 => ?_
      refine (readNtohU16_settles ssrc.2).bind fun count h2 => ?_
      refine (readNtohU16_settles count.2).bind fun endSeq h3 => ?_
      have hhead := (h1.trans (h2.1.trans h3.1)).length
      dsimp only
      split
      · refine (ih (by omega) _ g).mono fun read ⟨ssrcs, hlen, hgains⟩ => ?_
        exact ⟨ssrcs, by omega, hgains⟩
      · refine (deserializeMetrics_settles ssrc.1 _ g endSeq.2).bind fun metrics h4 => ?_
        have hmetrics := h4.1.length
        refine (ih (by omega) _ metrics.1).mono fun read ⟨ssrcs, hlen, hgains⟩ => ?_
        refine ⟨ssrc.1 :: ssrcs, ?_, h4.2.trans hgains⟩
        rw [List.length_cons]
        omega

theorem getSerializedSize_settles (h : RfbHeader) : Settles h.getSerializedSize fun size =>
    3 ≤ h.common.length ∧ size.toNat = 4 * (h.common.length.toNat + 1) := by
  refine settles_check fun hlength => ⟨hlength, ?_⟩
  have hlt := h.common.length.toNat_lt
  simp only [UInt32.toNat_add, UInt32.toNat_mul, UInt16.toNat_toUInt32, UInt32.reduceToNat]
  omega

private theorem deserialize_settles (h : RfbHeader) (start : Octets) : Settles (h.deserialize start) fun read =>
    ∃ ssrcs opened, 8 * ssrcs.length + read.2.2.length + 20 ≤ start.length ∧ opened.reportBlocks = h.reportBlocks ∧
      Gains ssrcs opened read.2.1 := by
  refine settles_check fun _ => ?_
  refine (RtcpHeader.deserializeCommon_settles (fun _ => (getSerializedSize_settles _).mono fun _ h => h.1)
    start).bind fun common h1 => ?_
  refine settles_check fun _ => settles_check fun _ => ?_
  refine (readNtohU32_settles common.2).bind fun hdrSsrc h2 => settles_check fun _ => ?_
  refine (readNtohU32_settles hdrSsrc.2).bind fun reportTimeMs h3 => ?_
  refine (readNtohU16_settles reportTimeMs.2).bind fun fbSeq h4 => ?_
  refine (readNtohU16_settles fbSeq.2).bind fun monitoredMs h5 => ?_
  have hfixed := (h1.1.trans (h2.trans (h3.trans (h4.1.trans h5.1)))).length
  refine (deserializeBlocks_settles (Nat.lt_succ_self _) _ _).bind fun blocks ⟨ssrcs, hlen, hgains⟩ => ?_
  refine (getSerializedSize_settles _).bind fun size _ => ?_
  let opened : RfbHeader :=
    { h with
      common := common.1
      reportTimeMs := reportTimeMs.1.toUInt64
      fbSeq := fbSeq.1
      monitoredMs := monitoredMs.1 }
  refine ⟨ssrcs, opened, ?_, rfl, hgains⟩
  change 8 * ssrcs.length + blocks.2.length + 20 ≤ start.length
  omega

variable {start rest : Octets} {size : UInt32} {h : RfbHeader}

private theorem gains_of_deserialize (hread : fresh.deserialize start = .ok (size, h, rest)) :
    ∃ ssrcs opened, 8 * ssrcs.length + rest.length + 20 ≤ start.length ∧ opened.reportBlocks = ∅ ∧
      Gains ssrcs opened h := by
  have hsettles := deserialize_settles fresh start
  rw [hread] at hsettles
  exact hsettles

/-- A report that is read from some octets is about no more streams than these can name. -/
theorem getSsrcList_of_deserialize (hread : fresh.deserialize start = .ok (size, h, rest)) :
    8 * h.getSsrcList.length + rest.length + 20 ≤ start.length := by
  obtain ⟨ssrcs, opened, hlen, hnone, hgains⟩ := gains_of_deserialize hread
  have hsubset : h.getSsrcList ⊆ ssrcs := by
    intro key hkey
    rcases hgains.keys key (Std.ExtTreeMap.mem_keys.mp hkey) with hopened | hmem
    · rw [hnone] at hopened
      simp at hopened
    · exact hmem
  have hnodup : h.getSsrcList.Nodup := Std.ExtTreeMap.nodup_keys
  have hle := (hnodup.subperm hsubset).length_le
  omega

/-- A report that is read tells nothing that arrived after it was made. -/
theorem arrived_of_deserialize (hread : fresh.deserialize start = .ok (size, h, rest)) : Arrived h := by
  obtain ⟨ssrcs, opened, hlen, hnone, hgains⟩ := gains_of_deserialize hread
  refine hgains.arrived fun ssrc seq mb hmb => ?_
  rw [hnone] at hmb
  simp [lookup?] at hmb

end RfbHeader

end Ns3Rmcat.Header
