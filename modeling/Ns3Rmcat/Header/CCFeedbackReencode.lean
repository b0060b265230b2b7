import Ns3Rmcat.Header.CCFeedbackRoundTrip

/-! A congestion control feedback report that is decoded and encoded again: the layout, the ECN
values and the offsets are written as they were, while the time stamp of the report goes through
microseconds, with a conversion that truncates on the way there and on the way back. -/
namespace Ns3Rmcat.Header
open Lib CCFeedback

namespace CCFeedback

private theorem truncate_twice (n : Nat) : n * 15625 / 1024 * 65536 / 1000000 = if 1024 ∣ n then n else n - 1 := by
  by_cases hdvd : 1024 ∣ n
  · rw [if_pos hdvd]
    omega
  · -- The numbers 15625 and 1024 have no common divisor, so that the first division cuts something off.
    have hrest : n * 15625 % 1024 ≠ 0 := fun hmod =>
      hdvd (Nat.Coprime.dvd_of_dvd_mul_right (by decide) (Nat.dvd_of_mod_eq_zero hmod))
    have hlow : 1024 * (n * 15625 / 1024) < n * 15625 := by omega
    have hhigh : n * 15625 < 1024 * (n * 15625 / 1024) + 1024 := by omega
    rw [if_neg hdvd]
    refine Nat.div_eq_of_lt_le (by omega) ?_
    calc n * 15625 / 1024 * 65536 = 64 * (1024 * (n * 15625 / 1024)) := by ring
      _ < 64 * (n * 15625) := Nat.mul_lt_mul_of_pos_left hlow (by decide)
      _ = n * 1000000 := by ring
      _ ≤ (n - 1 + 1) * 1000000 := Nat.mul_le_mul_right _ (by omega)

/-- A word that goes through microseconds. -/
def throughUs (ntp : UInt32) : UInt32 := usToNtp (ntpToUs ntp)

private theorem toNat_throughUs (ntp : UInt32) :
    (throughUs ntp).toNat = if 1024 ∣ ntp.toNat then ntp.toNat else ntp.toNat - 1 := by
  have hlt := ntp.toNat_lt
  have hus : (ntpToUs ntp).toNat = ntp.toNat * 15625 / 1024 := by
    rw [toNat_ntpToUs]
    omega
  rw [throughUs, toNat_usToNtp (by omega), hus, truncate_twice]

private theorem throughUs_eq_iff {ntp : UInt32} : throughUs ntp = ntp ↔ 1024 ∣ ntp.toNat := by
  rw [← UInt32.toNat_inj, toNat_throughUs]
  split <;> omega

private theorem ntpToAto_throughUs {ato : UInt16} {ntp ntpRef : UInt32} (hato : ato < unavailable)
    (hback : atoToNtp ato ntpRef = .ok ntp) : ntpToAto (throughUs ntp) (throughUs ntpRef) = .ok ato := by
  have hoffset := atoToNtp_ok hback
  rw [UInt16.lt_iff_toNat_lt] at hato
  simp only [unavailable, UInt16.reduceToNat] at hato
  obtain ⟨ntp', hback', hntp⟩ := atoToNtp_near hato hoffset
  cases hback.symm.trans hback'
  have hfrom := toNat_throughUs ntp
  have hto := toNat_throughUs ntpRef
  have hsteps : throughUs ntp ≤ throughUs ntpRef ∧ stepsOf (throughUs ntp) (throughUs ntpRef) = ato.toNat := by
    rw [UInt32.le_iff_toNat_le, stepsOf, hfrom, hto, hntp]
    split <;> split <;> omega
  obtain ⟨ato', hato', hword⟩ := ntpToAto_steps hsteps.1
  rw [hato']
  refine congrArg _ (UInt16.toNat_inj.mp ?_)
  rw [hword, hsteps.2]
  omega

private theorem calculateBeginStopSeq_congr {rb rb' : ReportBlock} (hkeys : rb.keys = rb'.keys) :
    calculateBeginStopSeq rb = calculateBeginStopSeq rb' := by
  unfold calculateBeginStopSeq
  rw [hkeys]

end CCFeedback

private theorem writeMetrics_congr {M : Type} {metricOf metricOf' : Option M → Checked (Option (UInt8 × UInt16))}
    {rb rb' : Std.ExtTreeMap UInt16 M} (h : ∀ seq : UInt16, metricOf rb[seq]? = metricOf' rb'[seq]?)
    (seqs : List UInt16) : writeMetrics metricOf rb seqs = writeMetrics metricOf' rb' seqs := by
  induction seqs with
  | nil => rfl
  | cons seq seqs ih => rw [writeMetrics, writeMetrics, h, ih]

namespace CCFeedbackHeader

def readBlock (h : CCFeedbackHeader) (rb : ReportBlock) : ReportBlock :=
  stampedBlock (usToNtp h.latestTsUs) (h.sentBlock rb)

private theorem getElem?_readBlock (h : CCFeedbackHeader) (rb : ReportBlock) (seq : UInt16) :
    (h.readBlock rb)[seq]? = rb[seq]?.map fun mb => stamped (usToNtp h.latestTsUs) (h.sent mb) := by
  rw [readBlock, getElem?_stampedBlock, getElem?_sentBlock, Option.map_map]
  rfl

private theorem toList_readBack (h : CCFeedbackHeader) :
    h.readBack.reportBlocks.toList = h.reportBlocks.toList.map fun rb => (rb.1, h.readBlock rb.2) := by
  have hmap : h.readBack.reportBlocks = h.reportBlocks.map fun _ rb => h.readBlock rb := by
    apply Std.ExtTreeMap.ext_getElem?
    intro ssrc
    rw [getElem?_readBack, Std.ExtTreeMap.getElem?_map]
    rfl
  rw [hmap, Std.ExtTreeMap.toList_map]

private theorem Fits.metricOf_readBack {h : CCFeedbackHeader} {mb : MetricBlock} (hfits : h.Fits mb) :
    h.readBack.metricOf (some (CCFeedbackHeader.stamped (usToNtp h.latestTsUs) (h.sent mb))) = h.metricOf (some mb) := by
  obtain ⟨ato, ntp, hato, hlt, hntp, -⟩ := hfits.2.roundTrip
  have hatoOf : h.atoOf mb = ato := by rw [atoOf, hato]
  have hle : ato ≤ 0x1fff := UInt16.le_of_lt hlt
  have htime : (CCFeedbackHeader.stamped (usToNtp h.latestTsUs) (h.sent mb)).timestampUs = ntpToUs ntp := by
    rw [CCFeedbackHeader.stamped, sent, hatoOf]
    simp only [hntp]
  have hagain : ntpToAto (usToNtp (ntpToUs ntp)) (usToNtp h.readBack.latestTsUs) = .ok ato :=
    ntpToAto_throughUs hlt hntp
  rw [hfits.metricOf.1, hatoOf, CCFeedbackHeader.metricOf,
    check_of (show (CCFeedbackHeader.stamped (usToNtp h.latestTsUs) (h.sent mb)).ecn ≤ 3 from hfits.1), ok_bind,
    htime]
  simp only [hagain, ok_bind, check_of hle]
  rfl

private theorem serializeBlocks_readBack {h : CCFeedbackHeader} {blocks : List (UInt32 × ReportBlock)}
    (hblocks : ∀ rb ∈ blocks, Readable h rb.2) :
    h.readBack.serializeBlocks (blocks.map fun rb => (rb.1, h.readBlock rb.2)) = h.serializeBlocks blocks := by
  induction blocks with
  | nil => rfl
  | cons block blocks ih =>
    obtain ⟨ssrc, rb⟩ := block
    have hrb : Readable h rb := hblocks (ssrc, rb) List.mem_cons_self
    have hkeys : (h.readBlock rb).keys = rb.keys := by
      refine keys_congr fun seq => ?_
      rw [getElem?_readBlock, Option.isSome_map]
    have hne : h.readBlock rb ≠ ∅ := by
      intro hnil
      rw [Std.ExtTreeMap.keys_eq_nil_iff.mpr hnil] at hkeys
      exact hrb.nonempty (Std.ExtTreeMap.keys_eq_nil_iff.mp hkeys.symm)
    have hmetrics (seqs : List UInt16) :
        writeMetrics h.readBack.metricOf (h.readBlock rb) seqs = writeMetrics h.metricOf rb seqs := by
      refine writeMetrics_congr (fun seq => ?_) seqs
      rw [getElem?_readBlock]
      cases hmb : rb[seq]? with
      | none => rfl
      | some mb => exact (hrb.fits seq mb hmb).metricOf_readBack
    rw [List.map_cons, serializeBlocks, serializeBlocks, calculateBeginStopSeq_congr hkeys,
      ih fun rb' hrb' => hblocks rb' (List.mem_cons_of_mem _ hrb')]
    simp only [check_of hne, check_of hrb.nonempty, hmetrics]

/-- The octets of a report, decoded into a new header and encoded again. -/
def reencode (bytes : Octets) : Checked Octets := do
  let (_, h, _) ← fresh.deserialize bytes
  h.serialize

def reencodeTimes : Nat → Octets → Checked Octets
  | 0, bytes => .ok bytes
  | times + 1, bytes => reencode bytes >>= reencodeTimes times

private theorem Kept.reencode_serialize {h : CCFeedbackHeader} (hk : Kept h) (htimes : TimesFit h) {bytes : Octets}
    (hbytes : h.serialize = .ok bytes) :
    ∃ body, bytes = body ++ writeHtonU32 (usToNtp h.latestTsUs) ∧
      reencode bytes = .ok (body ++ writeHtonU32 (throughUs (usToNtp h.latestTsUs))) := by
  have hparts := hbytes
  obtain ⟨hlength, hparts⟩ := check_bind_eq_ok.mp hparts
  obtain ⟨common, hcommon, hparts⟩ := bind_eq_ok.mp hparts
  obtain ⟨hne, hparts⟩ := check_bind_eq_ok.mp hparts
  obtain ⟨blocks, hblocks, he⟩ := bind_eq_ok.mp hparts
  cases he
  obtain ⟨bytes, n, hbytes', -, -, hread⟩ := hk.deserialize_serialize hne htimes []
  cases hbytes.symm.trans hbytes'
  rw [List.append_nil] at hread
  refine ⟨common ++ blocks, (List.append_assoc ..).symm, ?_⟩
  rw [reencode, hread, ok_bind]
  dsimp only
  have hcommon' : h.readBack.common.serializeCommon = .ok common := hcommon
  have hlength' : 2 ≤ h.readBack.common.length := hlength
  have hblocks' := serializeBlocks_readBack fun rb hrb => hk.readable htimes hrb
  rw [← toList_readBack, hblocks] at hblocks'
  rw [serialize, check_of hlength', ok_bind, hcommon', ok_bind, check_of (h.readBack_nonempty hne), ok_bind,
    hblocks', List.append_assoc]
  rfl

private theorem reencodeTimes_fixed {bytes : Octets} (h : reencode bytes = .ok bytes) (times : Nat) :
    reencodeTimes times bytes = .ok bytes := by
  induction times with
  | zero => rfl
  | succ times ih => rw [reencodeTimes, h, ok_bind, ih]

/-- A report is the same after any number of decodings and encodings exactly when the time of its
latest packet, in units of 1/65536 seconds, is a whole number of 1/64 seconds. -/
theorem reencode_iff {calls : List CCFeedbackCall} {h : CCFeedbackHeader} (hrun : run step fresh calls = .ok h)
    (htimes : TimesFit h) {bytes : Octets} (hbytes : h.serialize = .ok bytes) :
    (∀ times, reencodeTimes times bytes = .ok bytes) ↔ 1024 ∣ h.latestTsUs.toNat * 65536 / 1000000 := by
  have hk := kept_run hrun
  obtain ⟨body, rfl, hagain⟩ := hk.reencode_serialize htimes hbytes
  have hlatest : h.latestTsUs.toNat < 65536000000 := by
    rcases hk.attained with ⟨-, hzero⟩ | ⟨ssrc, seq, mb, hmb, hts⟩
    · rw [hzero]
      decide
    · rw [← hts]
      exact (htimes ssrc seq mb hmb).2.1
  rw [← toNat_usToNtp hlatest, ← throughUs_eq_iff]
  constructor
  · intro hall
    have hone : reencode (body ++ writeHtonU32 (usToNtp h.latestTsUs)) >>= reencodeTimes 0 = _ := hall 1
    rw [hagain, ok_bind, reencodeTimes, Except.ok.injEq, List.append_cancel_left_eq] at hone
    have hword := congrArg readNtohU32 (congrArg (· ++ []) hone)
    simpa only [readNtohU32_write, Except.ok.injEq, Prod.mk.injEq, and_true] using hword
  · intro hsame
    rw [hsame] at hagain
    exact reencodeTimes_fixed hagain

/-- A packet that arrives at 1.5 seconds, and one 250 milliseconds before. -/
theorem reencode_iff_whole :
    ∃ h bytes, run step fresh [.addFeedback 7 65535 1250000 1, .addFeedback 7 2 1500000 3] = .ok h ∧
      h.serialize = .ok bytes ∧ ∀ times, reencodeTimes times bytes = .ok bytes := by
  have hfacts : (run step fresh [.addFeedback 7 65535 1250000 1, .addFeedback 7 2 1500000 3]).map (fun h =>
      decide (TimesFit h ∧ Returns h.serialize ∧ 1024 ∣ h.latestTsUs.toNat * 65536 / 1000000)) = .ok true := by
    decide +kernel
  obtain ⟨h, hrun, hh⟩ := map_eq_ok.mp hfacts
  obtain ⟨htimes, ⟨bytes, hbytes⟩, hwhole⟩ := of_decide_eq_true hh
  exact ⟨h, bytes, hrun, hbytes, (reencode_iff hrun htimes hbytes).mpr hwhole⟩

/-- A packet that arrives at 1.0001 seconds: the time stamp of the report is 65542, and 65541 in
the report that is decoded and encoded again. -/
theorem time_stamp_moves :
    (run step fresh [.addFeedback 7 1 1000100 0]).map (fun h => decide (TimesFit h ∧ h.serialize =
      .ok [143, 205, 0, 5, 0, 0, 0, 0, 0, 0, 0, 7, 0, 1, 0, 1, 128, 0, 0, 0, 0, 1, 0, 6])) = .ok true ∧
    reencode [143, 205, 0, 5, 0, 0, 0, 0, 0, 0, 0, 7, 0, 1, 0, 1, 128, 0, 0, 0, 0, 1, 0, 6] =
      .ok [143, 205, 0, 5, 0, 0, 0, 0, 0, 0, 0, 7, 0, 1, 0, 1, 128, 0, 0, 0, 0, 1, 0, 5] := by
  decide +kernel

end CCFeedbackHeader

end Ns3Rmcat.Header
