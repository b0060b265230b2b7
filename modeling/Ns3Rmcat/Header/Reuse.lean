import Ns3Rmcat.Header.Rtp
import Ns3Rmcat.Header.CCFeedback
import Ns3Rmcat.Header.RfbSteps

/-! Reading a packet into a header that has been used before. The RTP header is cleared; the two
feedback headers keep the report blocks that they had, so that only an empty one reads as a fresh one. -/
namespace Ns3Rmcat.Header
open Lib

/-- Every packet that a fresh header accepts is accepted by this one, with the same result. -/
def ReadsLikeFresh {H : Type} (deserialize : H → Octets → Checked (UInt32 × H × Octets)) (fresh h : H) : Prop :=
  ∀ start size read rest, deserialize fresh start = .ok (size, read, rest) →
    deserialize h start = .ok (size, read, rest)

namespace RtpHeader

private theorem deserialize_fresh (h : RtpHeader) (start : Octets) : h.deserialize start = fresh.deserialize start :=
  rfl

end RtpHeader

namespace CCFeedbackHeader
open CCFeedback

private theorem deserialize_fresh {h : CCFeedbackHeader} (hblocks : h.reportBlocks = ∅) (hlength : 2 ≤ h.common.length)
    (start : Octets) : h.deserialize start = fresh.deserialize start := by
  have hfresh : (2 : UInt16) ≤ fresh.common.length := by decide
  unfold deserialize
  rw [check_of hlength, check_of hfresh, hblocks]
  rfl

private theorem deserializeBlocks_mem {rounds : Nat} {lenLeft : UInt64}
    {reportBlocks blocks : Std.ExtTreeMap UInt32 ReportBlock}
    {start rest : Octets} (h : deserializeBlocks rounds lenLeft reportBlocks start = .ok (blocks, rest))
    {ssrc : UInt32} (hmem : ssrc ∈ reportBlocks) : ssrc ∈ blocks := by
  induction rounds generalizing lenLeft reportBlocks start with
  | zero => cases h
  | succ rounds ih =>
    rw [deserializeBlocks] at h
    split at h
    · cases h
      exact hmem
    · obtain ⟨-, h⟩ := check_bind_eq_ok.mp h
      obtain ⟨⟨ssrc', start1⟩, -, h⟩ := bind_eq_ok.mp h
      obtain ⟨⟨beginSeq, start2⟩, -, h⟩ := bind_eq_ok.mp h
      obtain ⟨⟨endSeq, start3⟩, -, h⟩ := bind_eq_ok.mp h
      obtain ⟨-, h⟩ := check_bind_eq_ok.mp h
      obtain ⟨-, h⟩ := check_bind_eq_ok.mp h
      obtain ⟨⟨rb, start4⟩, -, h⟩ := bind_eq_ok.mp h
      have hinsert : ssrc ∈ reportBlocks.insert ssrc' rb := Std.ExtTreeMap.mem_insert.mpr (.inr hmem)
      dsimp only at h
      split at h
      · obtain ⟨⟨padding, start5⟩, -, h⟩ := bind_eq_ok.mp h
        exact ih h hinsert
      · exact ih h hinsert

private theorem populateBlocks_mem {ntpRef : UInt32} {entries : List (UInt32 × ReportBlock)}
    {reportBlocks blocks : Std.ExtTreeMap UInt32 ReportBlock}
    (h : populateBlocks ntpRef entries reportBlocks = .ok blocks) {ssrc : UInt32} (hmem : ssrc ∈ reportBlocks) :
    ssrc ∈ blocks := by
  induction entries generalizing reportBlocks with
  | nil =>
    cases h
    exact hmem
  | cons e entries ih =>
    obtain ⟨rb, -, h⟩ := bind_eq_ok.mp h
    exact ih h (Std.ExtTreeMap.mem_insert.mpr (.inr hmem))

private theorem deserialize_mem {h read : CCFeedbackHeader} {start rest : Octets} {size : UInt32}
    (hread : h.deserialize start = .ok (size, read, rest)) {ssrc : UInt32} (hmem : ssrc ∈ h.reportBlocks) :
    ssrc ∈ read.reportBlocks := by
  obtain ⟨-, hread⟩ := check_bind_eq_ok.mp hread
  obtain ⟨⟨common, start1⟩, -, hread⟩ := bind_eq_ok.mp hread
  obtain ⟨-, hread⟩ := check_bind_eq_ok.mp hread
  obtain ⟨-, hread⟩ := check_bind_eq_ok.mp hread
  obtain ⟨⟨reportBlocks, start2⟩, hblocks, hread⟩ := bind_eq_ok.mp hread
  obtain ⟨⟨ntpRef, start3⟩, -, hread⟩ := bind_eq_ok.mp hread
  obtain ⟨populated, hpopulated, hread⟩ := bind_eq_ok.mp hread
  obtain ⟨-, hread⟩ := check_bind_eq_ok.mp hread
  obtain ⟨size', -, hread⟩ := bind_eq_ok.mp hread
  cases hread
  exact populateBlocks_mem hpopulated (deserializeBlocks_mem hblocks hmem)

/-- A report of packet 7 of a stream, received at the time of the report. -/
def packetOf (ssrc : UInt32) : Octets :=
  [143, 205] ++ writeHtonU16 5 ++ writeHtonU32 0 ++ writeHtonU32 ssrc ++ writeHtonU16 7 ++ writeHtonU16 7 ++
    [128, 0] ++ writeHtonU16 0 ++ writeHtonU32 65536

private theorem packetOf_accepted {ssrc : UInt32} (hssrc : ssrc = 1 ∨ ssrc = 2) : ∃ size read rest,
    fresh.deserialize (packetOf ssrc) = .ok (size, read, rest) ∧ read.reportBlocks.keys = [ssrc] := by
  have hkeys : (fresh.deserialize (packetOf ssrc)).map (fun r => r.2.1.reportBlocks.keys) = .ok [ssrc] := by
    rcases hssrc with rfl | rfl
    · decide +kernel
    · decide +kernel
  obtain ⟨⟨size, read, rest⟩, hread, hread'⟩ := map_eq_ok.mp hkeys
  exact ⟨size, read, rest, hread, hread'⟩

private theorem readsLikeFresh_iff {h : CCFeedbackHeader} :
    ReadsLikeFresh deserialize fresh h ↔ h.reportBlocks = ∅ ∧ 2 ≤ h.common.length := by
  constructor
  · intro hlike
    have hsame (ssrc : UInt32) (hssrc : ssrc = 1 ∨ ssrc = 2) : ∃ size read rest,
        h.deserialize (packetOf ssrc) = .ok (size, read, rest) ∧ read.reportBlocks.keys = [ssrc] := by
      obtain ⟨size, read, rest, hread, hkeys⟩ := packetOf_accepted hssrc
      exact ⟨size, read, rest, hlike _ _ _ _ hread, hkeys⟩
    constructor
    · apply Std.ExtTreeMap.eq_empty_iff_forall_not_mem.mpr
      intro ssrc hmem
      -- One of the two packets is about another stream than the one that is left over.
      obtain ⟨other, hother, hne⟩ : ∃ other : UInt32, (other = 1 ∨ other = 2) ∧ other ≠ ssrc := by
        by_cases hone : 1 = ssrc
        · exact ⟨2, .inr rfl, by rw [← hone]; decide⟩
        · exact ⟨1, .inl rfl, hone⟩
      obtain ⟨size, read, rest, hread, hkeys⟩ := hsame other hother
      have hkey := Std.ExtTreeMap.mem_keys.mpr (deserialize_mem hread hmem)
      rw [hkeys, List.mem_singleton] at hkey
      exact hne hkey.symm
    · obtain ⟨size, read, rest, hread, -⟩ := hsame 1 (.inl rfl)
      exact (check_bind_eq_ok.mp hread).1
  · rintro ⟨hblocks, hlength⟩ start size read rest hread
    rw [deserialize_fresh hblocks hlength]
    exact hread

end CCFeedbackHeader

namespace RfbHeader

private theorem deserialize_fresh {h : RfbHeader} (hblocks : h.reportBlocks = ∅) (hwindows : h.countEndSeq = ∅)
    (hlength : 3 ≤ h.common.length) (start : Octets) : h.deserialize start = fresh.deserialize start := by
  have hfresh : (3 : UInt16) ≤ fresh.common.length := by decide
  obtain ⟨common, reportBlocks, countEndSeq, reportTimeMs, fbSeq, monitoredMs⟩ := h
  cases hblocks
  cases hwindows
  unfold deserialize
  rw [check_of hlength, check_of hfresh]
  rfl

/-- A packet without report blocks. -/
def emptyPacket : Octets :=
  [142, 205] ++ writeHtonU16 4 ++ writeHtonU32 0 ++ writeHtonU32 0 ++ writeHtonU32 0 ++ writeHtonU16 0 ++ writeHtonU16 0

private theorem deserialize_emptyPacket {h : RfbHeader} (hlength : 3 ≤ h.common.length) :
    h.deserialize emptyPacket = .ok (20, { h with
      common := { typeOrCnt := rtcpRtpfbRfb, packetType := rtpFb, length := 4 }
      reportTimeMs := 0
      fbSeq := 0
      monitoredMs := 0 }, []) := by
  rw [deserialize]
  rw [check_of hlength]
  rfl

/-- A report of packet 7 of stream 1, received at the time of the report. -/
def packetAt (reportTimeMs : UInt32) : Octets :=
  [142, 205] ++ writeHtonU16 7 ++ writeHtonU32 0 ++ writeHtonU32 0 ++ writeHtonU32 reportTimeMs ++ writeHtonU16 0 ++
    writeHtonU16 0 ++ writeHtonU32 1 ++ writeHtonU16 1 ++ writeHtonU16 7 ++ [128, 0] ++ writeHtonU16 0

private theorem readsLikeFresh_iff {h : RfbHeader} :
    ReadsLikeFresh deserialize fresh h ↔ h.reportBlocks = ∅ ∧ h.countEndSeq = ∅ ∧ 3 ≤ h.common.length := by
  constructor
  · intro hlike
    have hempty := hlike _ _ _ _ (deserialize_emptyPacket (h := fresh) (by decide))
    have hlength : 3 ≤ h.common.length := (check_bind_eq_ok.mp hempty).1
    rw [deserialize_emptyPacket hlength] at hempty
    simp only [Except.ok.injEq, Prod.mk.injEq, RfbHeader.mk.injEq] at hempty
    exact ⟨hempty.2.1.2.1, hempty.2.1.2.2.1, hlength⟩
  · rintro ⟨hblocks, hwindows, hlength⟩ start size read rest hread
    rw [deserialize_fresh hblocks hwindows hlength]
    exact hread

end RfbHeader

/-- Which headers read every packet that a fresh one accepts, with the same fields: every RTP
header, and the feedback headers that have nothing left over from other packets. -/
theorem reads_like_fresh_iff (rtp : RtpHeader) (ccFeedback : CCFeedbackHeader) (rfb : RfbHeader) :
    ReadsLikeFresh RtpHeader.deserialize RtpHeader.fresh rtp ∧
    (ReadsLikeFresh CCFeedbackHeader.deserialize CCFeedbackHeader.fresh ccFeedback ↔
      ccFeedback.reportBlocks = ∅ ∧ 2 ≤ ccFeedback.common.length) ∧
    (ReadsLikeFresh RfbHeader.deserialize RfbHeader.fresh rfb ↔
      rfb.reportBlocks = ∅ ∧ rfb.countEndSeq = ∅ ∧ 3 ≤ rfb.common.length) := by
  refine ⟨fun start size read rest hread => ?_, CCFeedbackHeader.readsLikeFresh_iff, RfbHeader.readsLikeFresh_iff⟩
  rw [RtpHeader.deserialize_fresh]
  exact hread

/-- A header that has read a report of one stream and then reads one of another has both, and a
packet that is reported again keeps its old time. -/
theorem reading_keeps_blocks :
    ((CCFeedbackHeader.fresh.deserialize (CCFeedbackHeader.packetOf 1) >>= fun used =>
        used.2.1.deserialize (CCFeedbackHeader.packetOf 2)).map (fun r => r.2.1.getSsrcList) = .ok [1, 2] ∧
      (CCFeedbackHeader.fresh.deserialize (CCFeedbackHeader.packetOf 2)).map (fun r => r.2.1.getSsrcList) = .ok [2]) ∧
    ((RfbHeader.fresh.deserialize (RfbHeader.packetAt 1000) >>= fun used =>
        used.2.1.deserialize (RfbHeader.packetAt 2000)).map (fun r => r.2.1.getMetricList 1) = .ok [(7, ⟨0, 1000⟩)] ∧
      (RfbHeader.fresh.deserialize (RfbHeader.packetAt 2000)).map (fun r => r.2.1.getMetricList 1) =
        .ok [(7, ⟨0, 2000⟩)]) := by
  refine ⟨⟨?_, ?_⟩, ?_, ?_⟩
  · decide +kernel
  · decide +kernel
  · decide +kernel
  · decide +kernel

end Ns3Rmcat.Header
