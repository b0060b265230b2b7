import Ns3Rmcat.Header.RfbWindow
import Ns3Rmcat.Lib.OrderedMap

/-! What the operations of the RTP feedback header do, stated once: the bookkeeping that
follows every change, the outcomes of an addition, and the invariant of all runs. -/
namespace Ns3Rmcat.Header
open Lib

def blockLen (count : Nat) : Nat := 8 + (count + count % 2) * 2

/-- Octets of a header with these report blocks, as their stored counts have it. -/
def encodedLen (blocks : Std.ExtTreeMap UInt32 RfbReportBlock) : Nat :=
  20 + (blocks.toList.map fun rb => blockLen (calcCountEndSeq rb.2).1.toNat).sum

theorem encodedLen_mod_four (blocks : Std.ExtTreeMap UInt32 RfbReportBlock) : encodedLen blocks % 4 = 0 := by
  rw [encodedLen]
  induction blocks.toList with
  | nil => rfl
  | cons rb rbs ih =>
    simp only [List.map_cons, List.sum_cons, blockLen] at ih ⊢
    omega

theorem encodedLen_ge (blocks : Std.ExtTreeMap UInt32 RfbReportBlock) : 20 ≤ encodedLen blocks :=
  Nat.le_add_right 20 _

namespace RfbHeader

def lengthField (len : Nat) : UInt16 := UInt16.ofNat ((len - 4) / 4)

theorem four_mul_lengthField {len : Nat} (hlen : len ≤ 65535) (hge : 20 ≤ len) (hmod : len % 4 = 0) :
    4 * ((lengthField len).toNat + 1) = len := by
  simp only [lengthField, UInt16.toNat_ofNat']
  omega

private theorem foldl_len (blocks : List (UInt32 × RfbReportBlock)) (len : Nat) :
    blocks.foldl (fun len rb => len + 8 +
      ((calcCountEndSeq rb.2).1.toNat + ((calcCountEndSeq rb.2).1 % 2).toNat) * 2) len =
      len + (blocks.map fun rb => blockLen (calcCountEndSeq rb.2).1.toNat).sum := by
  induction blocks generalizing len with
  | nil => rfl
  | cons rb blocks ih =>
    rw [List.foldl_cons, ih, List.map_cons, List.sum_cons, blockLen]
    simp only [UInt16.toNat_mod, UInt16.reduceToNat]
    omega

/-- The bookkeeping: every window is stored anew, and the length when it is not too large. -/
theorem update_snd (h : RfbHeader) :
    h.update.2 = { h with
      countEndSeq := insertAll calcCountEndSeq h.reportBlocks.toList h.countEndSeq
      common := { h.common with
        length := if encodedLen h.reportBlocks ≤ 65535 then lengthField (encodedLen h.reportBlocks)
          else h.common.length } } := by
  simp only [update, foldl_len]
  by_cases hlen : encodedLen h.reportBlocks ≤ 65535
  · rw [if_neg (by exact Nat.not_lt.mpr hlen), if_pos hlen]
    rfl
  · rw [if_pos (by exact Nat.lt_of_not_le hlen), if_neg hlen]
    rfl

/-- The header with one more entry, before the bookkeeping. -/
def withEntry (h : RfbHeader) (ssrc : UInt32) (seq : UInt16) (mb : RfbMetricBlock) : RfbHeader :=
  { h with reportBlocks := recordEntry h.reportBlocks ssrc seq mb }

/-- The three outcomes of an addition: two refusals that change nothing, or the entry is
recorded and the bookkeeping follows. -/
theorem addFeedback_cases (h : RfbHeader) (ssrc : UInt32) (seq : UInt16) (ts : UInt64) (ecn : UInt8) :
    (3 < ecn ∧ h.addFeedback ssrc seq ts ecn = (.addFailBadEcn, h)) ∨
    (ecn ≤ 3 ∧ (lookup? h.reportBlocks ssrc seq).isSome ∧
      h.addFeedback ssrc seq ts ecn = (.addDuplicate, h)) ∨
    (ecn ≤ 3 ∧ lookup? h.reportBlocks ssrc seq = none ∧
      h.addFeedback ssrc seq ts ecn = (if ssrc ∈ h.reportBlocks then .addOne else .addSrc,
        (h.withEntry ssrc seq ⟨ecn, ts⟩).update.2)) := by
  rw [addFeedback]
  by_cases hecn : 3 < ecn
  · exact .inl ⟨hecn, by rw [if_pos hecn]⟩
  · have hle : ecn ≤ 3 := UInt8.not_lt.mp hecn
    rw [if_neg hecn]
    cases hssrc : h.reportBlocks[ssrc]? with
    | none =>
      have hmem : ssrc ∉ h.reportBlocks := by
        rw [← Std.ExtTreeMap.isSome_getElem?_iff_mem, hssrc]
        simp
      refine .inr (.inr ⟨hle, by rw [lookup?_eq, hssrc]; rfl, ?_⟩)
      rw [if_neg hmem, withEntry, recordEntry, Std.ExtTreeMap.getD_eq_getD_getElem?, hssrc]
      rfl
    | some rbmap =>
      have hmem : ssrc ∈ h.reportBlocks := by
        rw [← Std.ExtTreeMap.isSome_getElem?_iff_mem, hssrc]
        rfl
      have hentry : lookup? h.reportBlocks ssrc seq = rbmap[seq]? := by rw [lookup?_eq, hssrc]; rfl
      rw [hentry]
      by_cases hseq : rbmap.contains seq = true
      · refine .inr (.inl ⟨hle, ?_, by simp only [hseq, if_true]⟩)
        rw [← Std.ExtTreeMap.contains_eq_isSome_getElem?, hseq]
      · refine .inr (.inr ⟨hle, ?_, ?_⟩)
        · rw [Std.ExtTreeMap.contains_eq_isSome_getElem?] at hseq
          simpa using hseq
        · simp only [hseq, Bool.false_eq_true, if_false]
          rw [if_pos hmem, withEntry, recordEntry, Std.ExtTreeMap.getD_eq_getD_getElem?, hssrc]
          rfl

theorem addFeedback_keys {h : RfbHeader} {ssrc : UInt32} {seq : UInt16} {ts : UInt64} {ecn : UInt8}
    {key : UInt32} (hkey : key ∈ (h.addFeedback ssrc seq ts ecn).2.reportBlocks) :
    key ∈ h.reportBlocks ∨ key = ssrc := by
  rcases h.addFeedback_cases ssrc seq ts ecn with ⟨-, he⟩ | ⟨-, -, he⟩ | ⟨-, -, he⟩
  · rw [he] at hkey
    exact .inl hkey
  · rw [he] at hkey
    exact .inl hkey
  · rw [he, update_snd] at hkey
    rcases (mem_recordEntry _ _ _ _ _).mp hkey with rfl | hold
    · exact .inr rfl
    · exact .inl hold

theorem reportTimeMs_addFeedback (g : RfbHeader) (ssrc : UInt32) (seq : UInt16) (ts : UInt64) (ecn : UInt8) :
    (g.addFeedback ssrc seq ts ecn).2.reportTimeMs = g.reportTimeMs := by
  rcases g.addFeedback_cases ssrc seq ts ecn with ⟨-, he⟩ | ⟨-, -, he⟩ | ⟨-, -, he⟩
  · rw [he]
  · rw [he]
  · rw [he, update_snd]
    rfl

/-- What holds of the contents of a header after any calls, and in the middle of one. -/
structure Sound (h : RfbHeader) : Prop where
  filled : Filled h.reportBlocks
  ecn : ∀ (ssrc : UInt32) (seq : UInt16) (mb : RfbMetricBlock),
    lookup? h.reportBlocks ssrc seq = some mb → mb.ecn ≤ 3
  packetType : h.common.packetType = rtpFb
  typeOrCnt : h.common.typeOrCnt = rtcpRtpfbRfb
  /-- The length field stands for a size from 16 to 65535 octets. -/
  length : 3 ≤ h.common.length.toNat ∧ 4 * (h.common.length.toNat + 1) ≤ 65535

/-- After any calls the stored windows are those of the report blocks. -/
structure Tidy (h : RfbHeader) : Prop extends Sound h where
  current : ∀ ssrc : UInt32, h.countEndSeq[ssrc]? = h.reportBlocks[ssrc]?.map calcCountEndSeq

private theorem Sound.update {h : RfbHeader} (hs : Sound h)
    (hsub : ∀ ssrc : UInt32, h.reportBlocks[ssrc]? = none → h.countEndSeq[ssrc]? = none) :
    Tidy h.update.2 := by
  rw [update_snd]
  refine ⟨⟨hs.filled, hs.ecn, hs.packetType, hs.typeOrCnt, ?_⟩, fun ssrc => ?_⟩
  · by_cases hlen : encodedLen h.reportBlocks ≤ 65535
    · have hge := encodedLen_ge h.reportBlocks
      have hfour := four_mul_lengthField hlen hge (encodedLen_mod_four h.reportBlocks)
      simp only [if_pos hlen]
      omega
    · simp only [if_neg hlen]
      exact hs.length
  · simp only [getElem?_insertAll_toList]
    cases hssrc : h.reportBlocks[ssrc]? with
    | none => simp [hsub ssrc hssrc]
    | some rb => rfl

theorem tidy_fresh : Tidy fresh where
  filled := filled_empty
  ecn := by simp [fresh, lookup?]
  packetType := rfl
  typeOrCnt := rfl
  length := by decide
  current := by simp [fresh]

theorem Tidy.withEntry {h : RfbHeader} (ht : Tidy h) (ssrc : UInt32) (seq : UInt16) {mb : RfbMetricBlock}
    (hecn : mb.ecn ≤ 3) : Tidy (h.withEntry ssrc seq mb).update.2 := by
  refine Sound.update ⟨ht.filled.recordEntry ssrc seq mb, ?_, ht.packetType, ht.typeOrCnt, ht.length⟩ ?_
  · intro ssrc' seq' mb' h'
    rw [RfbHeader.withEntry, lookup?_recordEntry] at h'
    split at h'
    · cases h'
      exact hecn
    · exact ht.ecn ssrc' seq' mb' h'
  · intro ssrc' h'
    have hold : h.reportBlocks[ssrc']? = none := by
      rw [RfbHeader.withEntry, recordEntry, Std.ExtTreeMap.getElem?_insert] at h'
      split at h'
      · cases h'
      · exact h'
    exact (ht.current ssrc').trans (by rw [hold]; rfl)

theorem Tidy.addFeedback {h : RfbHeader} (ht : Tidy h) (ssrc : UInt32) (seq : UInt16) (ts : UInt64)
    (ecn : UInt8) : Tidy (h.addFeedback ssrc seq ts ecn).2 := by
  rcases h.addFeedback_cases ssrc seq ts ecn with ⟨-, he⟩ | ⟨-, -, he⟩ | ⟨hecn, -, he⟩
  · rw [he]
    exact ht
  · rw [he]
    exact ht
  · rw [he]
    exact ht.withEntry ssrc seq hecn

theorem Tidy.clean {h : RfbHeader} (ht : Tidy h) : Tidy h.cleanReportBlocks :=
  Sound.update ⟨filled_empty, by simp [lookup?], ht.packetType, ht.typeOrCnt, ht.length⟩ (by simp)

end RfbHeader

/-- A call of the interface that changes a header. -/
inductive RfbCall where
  | addFeedback (ssrc : UInt32) (seq : UInt16) (currentTimeMs : UInt64) (ecn : UInt8)
  | cleanReportBlocks
  | increaseFbSeq
  | setReportTime (currentTimeMs : UInt64)
  | setMonitoredTime (duration : UInt16)
  deriving DecidableEq, Repr

namespace RfbHeader

def apply (h : RfbHeader) : RfbCall → RfbHeader
  | .addFeedback ssrc seq currentTimeMs ecn => (h.addFeedback ssrc seq currentTimeMs ecn).2
  | .cleanReportBlocks => h.cleanReportBlocks
  | .increaseFbSeq => h.increaseFbSeq
  | .setReportTime currentTimeMs => h.setReportTime currentTimeMs
  | .setMonitoredTime duration => h.setMonitoredTime duration

theorem Tidy.apply {h : RfbHeader} (ht : Tidy h) (call : RfbCall) : Tidy (h.apply call) := by
  cases call with
  | addFeedback ssrc seq ts ecn => exact ht.addFeedback ssrc seq ts ecn
  | cleanReportBlocks => exact ht.clean
  | increaseFbSeq => exact ⟨⟨ht.filled, ht.ecn, ht.packetType, ht.typeOrCnt, ht.length⟩, ht.current⟩
  | setReportTime ts => exact ⟨⟨ht.filled, ht.ecn, ht.packetType, ht.typeOrCnt, ht.length⟩, ht.current⟩
  | setMonitoredTime d => exact ⟨⟨ht.filled, ht.ecn, ht.packetType, ht.typeOrCnt, ht.length⟩, ht.current⟩

/-- Every header that calls build is tidy. -/
theorem tidy_foldl (calls : List RfbCall) : Tidy (calls.foldl apply fresh) := by
  induction calls using List.reverseRecOn with
  | nil => exact tidy_fresh
  | append_singleton calls call ih =>
    rw [List.foldl_append]
    exact ih.apply call

theorem Tidy.getCountEndSeq {h : RfbHeader} (ht : Tidy h) {ssrc : UInt32} {rb : RfbReportBlock}
    (hrb : h.reportBlocks[ssrc]? = some rb) : h.getCountEndSeq ssrc = calcCountEndSeq rb := by
  rw [RfbHeader.getCountEndSeq, Std.ExtTreeMap.getD_eq_getD_getElem?, ht.current, hrb]
  rfl

end RfbHeader

end Ns3Rmcat.Header
