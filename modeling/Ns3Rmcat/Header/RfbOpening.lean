import Ns3Rmcat.Header.RfbLayout

/-! The fixed part of an RTP feedback header, read from any octets, and the length field, as the
packet has it and as the additions leave it. -/
namespace Ns3Rmcat.Header
open Lib
open CCFeedbackHeader (Subtracts)

namespace RfbHeader

/-- Deserialize, with every subtraction from the length done by sub. -/
def deserializeWith (sub : UInt64 → UInt64 → Checked UInt64) (h : RfbHeader) (start : Octets) :
    Checked (UInt32 × RfbHeader × Octets) := do
  check (3 ≤ h.common.length)
  let (common, start) ← RtcpHeader.deserializeCommon
    (fun common => { h with common : RfbHeader }.getSerializedSize) start
  check (common.packetType = rtpFb)
  check (common.typeOrCnt = rtcpRtpfbRfb)
  let (hdrSsrc, start) ← readNtohU32 start
  check (hdrSsrc = 0)
  let (reportTimeMs, start) ← readNtohU32 start
  let (fbSeq, start) ← readNtohU16 start
  let (monitoredMs, start) ← readNtohU16 start
  let h := { h with common, reportTimeMs := reportTimeMs.toUInt64, fbSeq, monitoredMs }
  let lenLeft ← sub (4 * (common.length.toUInt64 + 1)) 20
  let (h, start) ← deserializeBlocksWith sub (start.length + 1) lenLeft h start
  return (← h.getSerializedSize, h, start)

/-- The fixed part of a report, and the octets behind it. -/
def openReport (start : Octets) : Checked (RfbHeader × Octets) := do
  let (common, start) ← RtcpHeader.deserializeCommon
    (fun common => { fresh with common : RfbHeader }.getSerializedSize) start
  check (common.packetType = rtpFb)
  check (common.typeOrCnt = rtcpRtpfbRfb)
  let (hdrSsrc, start) ← readNtohU32 start
  check (hdrSsrc = 0)
  let (reportTimeMs, start) ← readNtohU32 start
  let (fbSeq, start) ← readNtohU16 start
  let (monitoredMs, start) ← readNtohU16 start
  return ({ fresh with common, reportTimeMs := reportTimeMs.toUInt64, fbSeq, monitoredMs }, start)

theorem deserializeWith_fresh (sub : UInt64 → UInt64 → Checked UInt64) (start : Octets) :
    fresh.deserializeWith sub start = openReport start >>= fun opened =>
      sub (4 * (opened.1.common.length.toUInt64 + 1)) 20 >>= fun lenLeft =>
        deserializeBlocksWith sub (opened.2.length + 1) lenLeft opened.1 opened.2 >>= fun read =>
          read.1.getSerializedSize >>= fun size => .ok (size, read.1, read.2) := by
  have hlength : 3 ≤ fresh.common.length := by decide
  rw [deserializeWith, check_of hlength, ok_bind, openReport]
  simp only [bind_assoc, pure_eq_ok, ok_bind]

theorem deserializeWith_wrappingSub (h : RfbHeader) (start : Octets) :
    h.deserializeWith wrappingSub start = h.deserialize start := by
  rw [deserializeWith, deserialize]
  simp only [deserializeBlocksWith_wrappingSub]
  rfl

/-- The checks that the fixed part has to pass. -/
structure Accepted (start : Octets) : Prop where
  version : start.getD 0 0 >>> 6 = rtpVersion
  length : 3 ≤ wordAt start 2
  packetType : start.getD 1 0 = rtpFb
  typeOrCnt : start.getD 0 0 &&& 0x1f = rtcpRtpfbRfb
  hdrSsrc : longAt start 8 = 0

def openedHeader (start : Octets) : RfbHeader where
  common := RtcpHeader.commonAt start
  reportBlocks := ∅
  countEndSeq := ∅
  reportTimeMs := (longAt start 12).toUInt64
  fbSeq := wordAt start 16
  monitoredMs := wordAt start 18

theorem openReport_eq (start : Octets) :
    openReport start =
      if 8 ≤ start.length then check (start.getD 0 0 >>> 6 = rtpVersion) >>= fun _ =>
        check (3 ≤ wordAt start 2) >>= fun _ => check (start.getD 1 0 = rtpFb) >>= fun _ =>
          check (start.getD 0 0 &&& 0x1f = rtcpRtpfbRfb) >>= fun _ =>
            if 12 ≤ start.length then check (longAt start 8 = 0) >>= fun _ =>
              if 20 ≤ start.length then .ok (openedHeader start, start.drop 20) else .error .endOfBuffer
            else .error .endOfBuffer
      else .error .endOfBuffer := by
  have h8 : longAt (start.drop 8) 0 = longAt start 8 := longAt_drop start 8 0
  have h12 : longAt (start.drop 12) 0 = longAt start 12 := longAt_drop start 12 0
  have h16 : wordAt (start.drop 16) 0 = wordAt start 16 := wordAt_drop start 16 0
  have h18 : wordAt (start.drop 18) 0 = wordAt start 18 := wordAt_drop start 18 0
  rw [openReport, RtcpHeader.deserializeCommon_eq]
  by_cases hcommon : 8 ≤ start.length
  · rw [if_pos hcommon, if_pos hcommon]
    simp only [bind_assoc]
    refine check_bind_congr fun _ => ?_
    change (getSerializedSize _ >>= fun _ => _) = _
    rw [getSerializedSize]
    simp only [bind_assoc, pure_bind]
    refine check_bind_congr fun _ => ?_
    simp only [ok_bind]
    refine check_bind_congr fun _ => check_bind_congr fun _ => ?_
    simp only [readNtohU32_eq, List.length_drop, h8]
    by_cases hssrc : 12 ≤ start.length
    · rw [if_pos (show 4 ≤ start.length - 8 by omega), if_pos hssrc, ok_bind]
      refine check_bind_congr fun _ => ?_
      simp only [List.drop_drop, List.length_drop, Nat.reduceAdd, h12]
      by_cases htime : 16 ≤ start.length
      · rw [if_pos (show 4 ≤ start.length - 12 by omega), ok_bind]
        simp only [readNtohU16_eq, List.length_drop, List.drop_drop, Nat.reduceAdd, h16]
        by_cases hseq : 18 ≤ start.length
        · rw [if_pos (show 2 ≤ start.length - 16 by omega), ok_bind]
          simp only [List.length_drop, List.drop_drop, Nat.reduceAdd, h18]
          by_cases hall : 20 ≤ start.length
          · rw [if_pos (show 2 ≤ start.length - 18 by omega), if_pos hall, ok_bind]
            rfl
          · rw [if_neg (show ¬ 2 ≤ start.length - 18 by omega), if_neg hall]
            rfl
        · rw [if_neg (show ¬ 2 ≤ start.length - 16 by omega), if_neg (show ¬ 20 ≤ start.length by omega)]
          rfl
      · rw [if_neg (show ¬ 4 ≤ start.length - 12 by omega), if_neg (show ¬ 20 ≤ start.length by omega)]
        rfl
    · rw [if_neg (show ¬ 4 ≤ start.length - 8 by omega), if_neg hssrc]
      rfl
  · rw [if_neg hcommon, if_neg hcommon]
    rfl

/-- What the fixed part leads to: the header that it makes, the end of the buffer, or a check that
fails. -/
theorem openReport_cases (start : Octets) :
    (Accepted start ∧ 20 ≤ start.length ∧ openReport start = .ok (openedHeader start, start.drop 20)) ∨
    ((start.length < 8 ∨ (3 ≤ wordAt start 2 ∧ start.length < 12) ∨ (Accepted start ∧ start.length < 20)) ∧
      openReport start = .error .endOfBuffer) ∨
    openReport start = .error .assertion := by
  rw [openReport_eq]
  by_cases h8 : 8 ≤ start.length
  · rw [if_pos h8]
    by_cases hversion : start.getD 0 0 >>> 6 = rtpVersion
    · by_cases hlength : 3 ≤ wordAt start 2
      · by_cases htype : start.getD 1 0 = rtpFb
        · by_cases hcount : start.getD 0 0 &&& 0x1f = rtcpRtpfbRfb
          · rw [check_of hversion, check_of hlength, check_of htype, check_of hcount, ok_bind, ok_bind, ok_bind,
              ok_bind]
            by_cases h12 : 12 ≤ start.length
            · rw [if_pos h12]
              by_cases hssrc : longAt start 8 = 0
              · have haccepted : Accepted start := ⟨hversion, hlength, htype, hcount, hssrc⟩
                rw [check_of hssrc, ok_bind]
                by_cases h20 : 20 ≤ start.length
                · exact .inl ⟨haccepted, h20, if_pos h20⟩
                · exact .inr (.inl ⟨.inr (.inr ⟨haccepted, Nat.lt_of_not_le h20⟩), if_neg h20⟩)
              · rw [check_of_not hssrc]
                exact .inr (.inr rfl)
            · exact .inr (.inl ⟨.inr (.inl ⟨hlength, Nat.lt_of_not_le h12⟩), if_neg h12⟩)
          · rw [check_of hversion, check_of hlength, check_of htype, check_of_not hcount]
            exact .inr (.inr rfl)
        · rw [check_of hversion, check_of hlength, check_of_not htype]
          exact .inr (.inr rfl)
      · rw [check_of hversion, check_of_not hlength]
        exact .inr (.inr rfl)
    · rw [check_of_not hversion]
      exact .inr (.inr rfl)
  · exact .inr (.inl ⟨.inl (Nat.lt_of_not_le h8), if_neg h8⟩)

theorem Accepted.openReport {start : Octets} (h : Accepted start) (hlong : 20 ≤ start.length) :
    openReport start = .ok (openedHeader start, start.drop 20) := by
  rw [openReport_eq, if_pos (show 8 ≤ start.length by omega), check_of h.version, check_of h.length,
    check_of h.packetType, check_of h.typeOrCnt, ok_bind, ok_bind, ok_bind, ok_bind,
    if_pos (show 12 ≤ start.length by omega), check_of h.hdrSsrc, ok_bind, if_pos hlong]

theorem Accepted.openReport_short {start : Octets} (h : Accepted start) (hlong : 12 ≤ start.length)
    (hshort : start.length < 20) : RfbHeader.openReport start = .error .endOfBuffer := by
  rw [openReport_eq, if_pos (show 8 ≤ start.length by omega), check_of h.version, check_of h.length,
    check_of h.packetType, check_of h.typeOrCnt, ok_bind, ok_bind, ok_bind, ok_bind, if_pos hlong,
    check_of h.hdrSsrc, ok_bind, if_neg (Nat.not_le.mpr hshort)]

def packetLen (start : Octets) : Nat := 4 * ((wordAt start 2).toNat + 1)

section Packet
variable {start : Octets}

private theorem packetLen_ge_four (start : Octets) : 4 ≤ packetLen start := by
  rw [packetLen]
  omega

theorem wordAt_packet (start : Octets) : wordAt (start.take (packetLen start)) 2 = wordAt start 2 :=
  wordAt_take (packetLen_ge_four start)

theorem packetLen_packet (start : Octets) : packetLen (start.take (packetLen start)) = packetLen start := by
  rw [packetLen, wordAt_packet, packetLen]

theorem accepted_packet (h : 12 ≤ packetLen start) : Accepted (start.take (packetLen start)) ↔ Accepted start := by
  have hgetD {i : Nat} (hi : i < 12) : (start.take (packetLen start)).getD i 0 = start.getD i 0 := by
    rw [List.getD_eq_getElem?_getD, List.getElem?_take_of_lt (by omega), ← List.getD_eq_getElem?_getD]
  have h0 := hgetD (i := 0) (by decide)
  have h1 := hgetD (i := 1) (by decide)
  have h2 := wordAt_packet start
  have h8 := longAt_take (s := start) (i := 8) h
  constructor
  · rintro ⟨hversion, hlength, htype, hcount, hssrc⟩
    rw [h0] at hversion hcount
    rw [h2] at hlength
    rw [h1] at htype
    rw [h8] at hssrc
    exact ⟨hversion, hlength, htype, hcount, hssrc⟩
  · rintro ⟨hversion, hlength, htype, hcount, hssrc⟩
    refine ⟨?_, ?_, ?_, ?_, ?_⟩
    · rwa [h0]
    · rwa [h2]
    · rwa [h1]
    · rwa [h0]
    · rwa [h8]

theorem packetLen_ge (hfour : 4 ≤ wordAt start 2) : 20 ≤ packetLen start := by
  have h := UInt16.le_iff_toNat_le.mp hfour
  rw [packetLen]
  simp only [UInt16.reduceToNat] at h
  omega

theorem packetLen_lt (start : Octets) : packetLen start < 2 ^ 64 := by
  have h := (wordAt start 2).toNat_lt
  rw [packetLen]
  omega

end Packet

/-- The length field that is stored last: that of the longest beginning of the additions whose
report has at most 65535 octets. -/
def storedLength (length : UInt16) (calls : List RfbCall) : UInt16 :=
  match calls.inits.tail.reverse.find? fun made => encodedLen (made.foldl apply fresh).reportBlocks ≤ 65535 with
  | none => length
  | some made => lengthField (encodedLen (made.foldl apply fresh).reportBlocks)

theorem storedLength_nil (length : UInt16) : storedLength length [] = length := rfl

private theorem storedLength_snoc (length : UInt16) (calls : List RfbCall) (call : RfbCall) :
    storedLength length (calls ++ [call]) =
      if encodedLen ((calls ++ [call]).foldl apply fresh).reportBlocks ≤ 65535 then
        lengthField (encodedLen ((calls ++ [call]).foldl apply fresh).reportBlocks)
      else storedLength length calls := by
  have hinits : (calls ++ [call]).inits.tail = calls.inits.tail ++ [calls ++ [call]] := by
    cases calls with
    | nil => rfl
    | cons first calls => simp [List.inits_append]
  rw [storedLength, hinits, List.reverse_append, List.reverse_singleton, List.singleton_append, List.find?_cons]
  by_cases hfits : encodedLen ((calls ++ [call]).foldl apply fresh).reportBlocks ≤ 65535
  · simp only [hfits, decide_true, if_true]
  · simp only [hfits, decide_false, if_false]
    rfl

/-- Calls that add a packet, with a value that two bits have room for. -/
def Additions (calls : List RfbCall) : Prop :=
  ∀ call ∈ calls, ∃ ssrc seq ts ecn, call = .addFeedback ssrc seq ts ecn ∧ ecn ≤ 3

/-- The length field that additions leave. -/
theorem common_length_foldl {g : RfbHeader} (hnone : g.reportBlocks = ∅) {calls : List RfbCall}
    (hcalls : Additions calls) :
    (calls.foldl apply g).reportBlocks = (calls.foldl apply fresh).reportBlocks ∧
      (calls.foldl apply g).common.length = storedLength g.common.length calls := by
  induction calls using List.reverseRecOn with
  | nil => exact ⟨hnone, rfl⟩
  | append_singleton calls call ih =>
    obtain ⟨hblocks, hlength⟩ := ih fun call hcall => hcalls call (List.mem_append_left _ hcall)
    obtain ⟨ssrc, seq, ts, ecn, rfl, hecn⟩ := hcalls call (by simp)
    rw [storedLength_snoc]
    simp only [List.foldl_append, List.foldl_cons, List.foldl_nil, apply]
    generalize hg : calls.foldl apply g = g1 at hblocks hlength
    generalize hf : calls.foldl apply fresh = f1 at hblocks
    rcases g1.addFeedback_cases ssrc seq ts ecn with ⟨hbad, -⟩ | ⟨-, hold, he⟩ | ⟨-, hnew, he⟩
    · exact absurd hecn (UInt8.not_le.mpr hbad)
    · -- An entry that is there already has been counted.
      rcases f1.addFeedback_cases ssrc seq ts ecn with ⟨hbad, -⟩ | ⟨-, -, he'⟩ | ⟨-, hnew', -⟩
      · exact absurd hecn (UInt8.not_le.mpr hbad)
      · rw [he, he']
        refine ⟨hblocks, hlength.trans ?_⟩
        by_cases hfits : encodedLen f1.reportBlocks ≤ 65535
        · rw [if_pos hfits]
          rcases calls.eq_nil_or_concat' with rfl | ⟨before, last, rfl⟩
          · rw [List.foldl_nil] at hf
            rw [hblocks, ← hf] at hold
            simp [fresh, lookup?] at hold
          · rw [storedLength_snoc, hf, if_pos hfits]
        · rw [if_neg hfits]
      · rw [hblocks, hnew'] at hold
        cases hold
    · rcases f1.addFeedback_cases ssrc seq ts ecn with ⟨hbad, -⟩ | ⟨-, hold', -⟩ | ⟨-, -, he'⟩
      · exact absurd hecn (UInt8.not_le.mpr hbad)
      · rw [← hblocks, hnew] at hold'
        cases hold'
      · rw [he, he', update_snd, update_snd]
        simp only [withEntry, hblocks, hlength]
        exact ⟨trivial, rfl⟩

private theorem parseMetric_ecn {octet1 octet2 ecn : UInt8} {ato : UInt16}
    (h : parseMetric octet1 octet2 = some (ecn, ato)) :
    ecn ≤ 3 := by
  rw [parseMetric] at h
  split at h
  · cases h
    rw [UInt8.le_iff_toNat_le, UInt8.toNat_and]
    exact Nat.and_le_right
  · cases h

private theorem additions_metricCalls (ssrc : UInt32) (time : UInt64) (seqs : List UInt16)
    (metrics : List (UInt8 × UInt8)) :
    Additions (metricCalls ssrc time seqs metrics) := by
  intro call hcall
  obtain ⟨entry, -, hentry⟩ := List.mem_filterMap.mp hcall
  obtain ⟨⟨ecn, ato⟩, hmetric, rfl⟩ := Option.map_eq_some_iff.mp hentry
  exact ⟨ssrc, entry.1, _, ecn, rfl, parseMetric_ecn hmetric⟩

theorem additions_calls (blocks : List RfbWireBlock) (time : UInt64) :
    Additions (blocks.flatMap (RfbWireBlock.calls · time)) := by
  intro call hcall
  obtain ⟨b, -, hb⟩ := List.mem_flatMap.mp hcall
  exact additions_metricCalls _ _ _ _ call hb

/-- A length of four or more stays so. -/
theorem four_le_storedLength {length : UInt16} (h : 4 ≤ length) (calls : List RfbCall) :
    4 ≤ (storedLength length calls).toNat := by
  rw [storedLength]
  split
  · exact UInt16.le_iff_toNat_le.mp h
  · rename_i made hmade
    have hfits : encodedLen (made.foldl apply fresh).reportBlocks ≤ 65535 := by
      simpa using List.find?_some hmade
    have hge := encodedLen_ge (made.foldl apply fresh).reportBlocks
    have hfour := four_mul_lengthField hfits hge (encodedLen_mod_four _)
    omega

end RfbHeader

end Ns3Rmcat.Header
