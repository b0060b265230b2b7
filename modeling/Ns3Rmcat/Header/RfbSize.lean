import Ns3Rmcat.Header.RfbSteps

/-! The size that an RTP feedback header tells and the octets that it writes, over
any calls, and what becomes of an addition that has no room. -/
namespace Ns3Rmcat.Header
open Lib

namespace RfbHeader

theorem length_windowSeqs (countEnd : UInt16 × UInt16) : (windowSeqs countEnd).length = countEnd.1.toNat :=
  length_consecutive _ _

/-- The end minus the begin plus one is the count again. -/
theorem window_count (count endSeq : UInt16) : endSeq - (endSeq - count + 1) + 1 = count := by
  apply UInt16.toNat_inj.mp
  have h1 := count.toNat_lt
  have h2 := endSeq.toNat_lt
  simp only [UInt16.toNat_add, UInt16.toNat_sub, UInt16.reduceToNat]
  omega

private theorem length_serializeBlocks {h : RfbHeader} {blocks : List (UInt32 × RfbReportBlock)} {bytes : Octets}
    (hbytes : h.serializeBlocks blocks = .ok bytes) :
    bytes.length = (blocks.map fun rb => blockLen (h.getCountEndSeq rb.1).1.toNat).sum := by
  induction blocks generalizing bytes with
  | nil =>
    cases hbytes
    rfl
  | cons block blocks ih =>
    obtain ⟨ssrc, rb⟩ := block
    obtain ⟨metrics, hmetrics, hrest⟩ := bind_eq_ok.mp hbytes
    obtain ⟨rest, hr, he⟩ := bind_eq_ok.mp hrest
    cases he
    have hlen := length_writeMetrics hmetrics
    rw [length_windowSeqs] at hlen
    simp only [List.length_append, length_writeHtonU32, length_writeHtonU16, hlen, ih hr, List.map_cons,
      List.sum_cons, blockLen, window_count, length_paddingOf]
    omega

/-- A header writes as many octets as its stored counts have it. -/
theorem length_serialize {h : RfbHeader} (ht : Tidy h) {bytes : Octets} (hbytes : h.serialize = .ok bytes) :
    bytes.length = encodedLen h.reportBlocks := by
  obtain ⟨-, hrest⟩ := check_bind_eq_ok.mp hbytes
  obtain ⟨common, hcommon, hrest⟩ := bind_eq_ok.mp hrest
  obtain ⟨blocks, hblocks, he⟩ := bind_eq_ok.mp hrest
  cases he
  have hmap : (h.reportBlocks.toList.map fun rb => blockLen (h.getCountEndSeq rb.1).1.toNat) =
      h.reportBlocks.toList.map fun rb => blockLen (calcCountEndSeq rb.2).1.toNat := by
    refine List.map_congr_left fun rb hrb => ?_
    rw [ht.getCountEndSeq (mem_toList.mp hrb)]
  have hlen := length_serializeBlocks hblocks
  rw [hmap] at hlen
  simp only [List.length_append, length_writeHtonU32, length_writeHtonU16,
    RtcpHeader.length_serializeCommon hcommon, hlen, encodedLen]
  omega

/-- The size that a tidy header tells. -/
theorem getSerializedSize_tidy {h : RfbHeader} (ht : Tidy h) :
    ∃ n, h.getSerializedSize = .ok n ∧ n.toNat = 4 * (h.common.length.toNat + 1) := by
  have hlt := h.common.length.toNat_lt
  refine ⟨4 * (h.common.length.toUInt32 + 1), ?_, ?_⟩
  · rw [getSerializedSize, check_of (by rw [UInt16.le_iff_toNat_le]; exact ht.length.1)]
    rfl
  · simp only [UInt32.toNat_mul, UInt32.toNat_add, UInt16.toNat_toUInt32, UInt32.reduceToNat]
    omega

/-- A call after which the length has been computed: a clean-up, or an entry that is
recorded or was recorded before. -/
def SetsLength : RfbCall → Prop
  | .addFeedback _ _ _ ecn => ecn ≤ 3
  | .cleanReportBlocks => True
  | _ => False

/-- The length field is that of the report blocks, unless they are too long for any. -/
def Settled (h : RfbHeader) : Prop :=
  encodedLen h.reportBlocks ≤ 65535 → h.common.length = lengthField (encodedLen h.reportBlocks)

theorem settled_update (h : RfbHeader) : Settled h.update.2 := by
  intro hlen
  rw [update_snd] at hlen ⊢
  exact if_pos hlen

private theorem apply_of_not_setsLength {h : RfbHeader} {call : RfbCall} (hcall : ¬ SetsLength call) :
    (h.apply call).reportBlocks = h.reportBlocks ∧ (h.apply call).common = h.common := by
  cases call with
  | addFeedback ssrc seq ts ecn =>
    rcases h.addFeedback_cases ssrc seq ts ecn with ⟨-, he⟩ | ⟨hecn, -⟩ | ⟨hecn, -⟩
    · simp [apply, he]
    · exact absurd hecn hcall
    · exact absurd hecn hcall
  | cleanReportBlocks => exact absurd trivial hcall
  | increaseFbSeq => exact ⟨rfl, rfl⟩
  | setReportTime => exact ⟨rfl, rfl⟩
  | setMonitoredTime => exact ⟨rfl, rfl⟩

/-- A call that settles the header leaves it settled, given that a repeated entry does. -/
theorem settled_apply {h : RfbHeader} {call : RfbCall} (hcall : SetsLength call)
    (hold : h.reportBlocks ≠ ∅ → Settled h) : Settled (h.apply call) := by
  cases call with
  | addFeedback ssrc seq ts ecn =>
    rcases h.addFeedback_cases ssrc seq ts ecn with ⟨hecn, -⟩ | ⟨-, hentry, he⟩ | ⟨-, -, he⟩
    · exact absurd hcall (UInt8.not_le.mpr hecn)
    · have hne : h.reportBlocks ≠ ∅ := by
        intro hnil
        rw [hnil] at hentry
        simp [lookup?] at hentry
      simpa [apply, he] using hold hne
    · simpa [apply, he] using settled_update _
  | cleanReportBlocks => exact settled_update _
  | increaseFbSeq => exact absurd hcall not_false
  | setReportTime => exact absurd hcall not_false
  | setMonitoredTime => exact absurd hcall not_false

/-- Before the first call that settles it a header is as the constructor left it. -/
theorem settled_foldl (calls : List RfbCall) :
    ((∃ call ∈ calls, SetsLength call) → Settled (calls.foldl apply fresh)) ∧
    ((¬ ∃ call ∈ calls, SetsLength call) → (calls.foldl apply fresh).reportBlocks = ∅ ∧
      (calls.foldl apply fresh).common = fresh.common) := by
  induction calls using List.reverseRecOn with
  | nil => simp [fresh]
  | append_singleton calls call ih =>
    obtain ⟨ih, ihnot⟩ := ih
    rw [List.foldl_append, List.foldl_cons, List.foldl_nil]
    by_cases hcall : SetsLength call
    · refine ⟨fun _ => settled_apply hcall fun hne => ih ?_, fun hnot => ?_⟩
      · by_contra hnone
        exact hne (ihnot hnone).1
      · exact absurd ⟨call, by simp, hcall⟩ hnot
    · have hsame := apply_of_not_setsLength (h := calls.foldl apply fresh) hcall
      have hiff : (∃ c ∈ calls ++ [call], SetsLength c) ↔ ∃ c ∈ calls, SetsLength c := by
        simp [or_and_right, exists_or, hcall]
      rw [hiff]
      refine ⟨fun h hlen => ?_, fun h => ?_⟩
      · rw [hsame.1] at hlen ⊢
        rw [hsame.2]
        exact ih h hlen
      · rw [hsame.1, hsame.2]
        exact ihnot h

/-- Octets of a header whose windows are stored in full. -/
def requiredLen (blocks : Std.ExtTreeMap UInt32 RfbReportBlock) : Nat :=
  20 + (blocks.toList.map fun rb => blockLen (windowSize rb.2)).sum

/-- An entry that no packet of the allowed length has room for is refused. -/
def RefusesTooLong (h : RfbHeader) (ssrc : UInt32) (seq : UInt16) (ts : UInt64) (ecn : UInt8) : Prop :=
  65535 < requiredLen (h.withEntry ssrc seq ⟨ecn, ts⟩).reportBlocks →
    (h.addFeedback ssrc seq ts ecn).1 ∈ [.addDuplicate, .addFailBadEcn, .addFailTooLong] ∧
      (h.addFeedback ssrc seq ts ecn).2 = h

private theorem refusesTooLong_iff {h : RfbHeader} {ssrc : UInt32} {seq : UInt16} {ts : UInt64} {ecn : UInt8} :
    h.RefusesTooLong ssrc seq ts ecn ↔ ¬ (ecn ≤ 3 ∧ lookup? h.reportBlocks ssrc seq = none ∧
      65535 < requiredLen (h.withEntry ssrc seq ⟨ecn, ts⟩).reportBlocks) := by
  unfold RefusesTooLong
  rcases h.addFeedback_cases ssrc seq ts ecn with ⟨hecn, he⟩ | ⟨-, hentry, he⟩ | ⟨hecn, hentry, he⟩
  · simp [he, hecn]
  · rw [Option.isSome_iff_ne_none] at hentry
    simp [he, hentry]
  · have hresult : (if ssrc ∈ h.reportBlocks then RfbAddResult.addOne else .addSrc) ∉
        [RfbAddResult.addDuplicate, .addFailBadEcn, .addFailTooLong] := by
      split <;> simp
    rw [he]
    constructor
    · rintro h ⟨-, -, hlong⟩
      exact hresult (h hlong).1
    · intro h hlong
      exact absurd ⟨hecn, hentry, hlong⟩ h

/-- After any calls, a header tells the size that it writes and refuses an entry without room
exactly when its length has been computed, at least once, and is allowed, and the entry is
refused on other grounds or has room. -/
theorem size_agrees_iff {calls : List RfbCall} {h : RfbHeader} (hrun : calls.foldl apply fresh = h)
    {bytes : Octets} (hbytes : h.serialize = .ok bytes) {ssrc : UInt32} {seq : UInt16} {ts : UInt64}
    {ecn : UInt8} :
    ((∃ n, h.getSerializedSize = .ok n ∧ n.toNat = bytes.length) ∧ h.RefusesTooLong ssrc seq ts ecn) ↔
    (((∃ call ∈ calls, SetsLength call) ∧ encodedLen h.reportBlocks ≤ 65535) ∧
      ¬ (ecn ≤ 3 ∧ lookup? h.reportBlocks ssrc seq = none ∧
        65535 < requiredLen (h.withEntry ssrc seq ⟨ecn, ts⟩).reportBlocks)) := by
  refine and_congr ?_ refusesTooLong_iff
  have ht : Tidy h := hrun ▸ tidy_foldl calls
  obtain ⟨n, hn, hsize⟩ := getSerializedSize_tidy ht
  have hlen := length_serialize ht hbytes
  obtain ⟨hsettled, hnot⟩ := settled_foldl calls
  rw [hrun] at hsettled hnot
  have hge := encodedLen_ge h.reportBlocks
  constructor
  · rintro ⟨m, hm, heq⟩
    cases hn.symm.trans hm
    rw [hsize, hlen] at heq
    refine ⟨?_, ?_⟩
    · by_contra hnone
      have hlength : h.common.length = 3 := congrArg RtcpHeader.length (hnot hnone).2
      rw [hlength] at heq
      simp only [UInt16.reduceToNat] at heq
      omega
    · have := ht.length.2
      omega
  · rintro ⟨hcall, hfits⟩
    refine ⟨n, hn, ?_⟩
    rw [hsize, hlen, hsettled hcall hfits,
      four_mul_lengthField hfits hge (encodedLen_mod_four h.reportBlocks)]

/-- One packet is reported, and another one with it has room. -/
theorem size_agrees_iff_one_entry :
    let h := [RfbCall.addFeedback 7 10 5 1, .setReportTime 9].foldl apply fresh
    (∃ n, h.getSerializedSize = .ok n ∧ n.toNat = 32) ∧ h.RefusesTooLong 7 12 5 1 := by
  intro h
  have hwritten : h.serialize.map List.length = .ok 32 := by decide +kernel
  obtain ⟨bytes, hbytes, hlen⟩ := map_eq_ok.mp hwritten
  have hiff := @size_agrees_iff [.addFeedback 7 10 5 1, .setReportTime 9] h rfl bytes hbytes 7 12 5 1
  rw [hlen] at hiff
  have hone : (1 : UInt8) ≤ 3 := by decide
  refine hiff.mpr ⟨⟨⟨.addFeedback 7 10 5 1, by simp, hone⟩, by decide +kernel⟩, ?_⟩
  rintro ⟨-, -, hlong⟩
  exact absurd hlong (by decide +kernel)

/-- A header as constructed tells 16 octets and writes 20, and an entry that makes the window
32761 places long is recorded, though its 65552 octets are more than the length allows. -/
theorem constructed_size_and_long_entry :
    fresh.getSerializedSize = .ok 16 ∧ fresh.serialize.map List.length = .ok 20 ∧
    ¬ RefusesTooLong (fresh.apply (.addFeedback 1 0 0 0)) 1 32760 0 0 := by
  refine ⟨rfl, by decide +kernel, ?_⟩
  rw [refusesTooLong_iff, not_not]
  decide +kernel

end RfbHeader

end Ns3Rmcat.Header
