import Ns3Rmcat.Controller.CcfsPeriod
import Ns3Rmcat.Header.RfbSize
import Ns3Rmcat.Lib.Ledger

/-! What a report is parsed into: the packets that arrived, those that were lost, and the sums
of their bytes. The bytes that arrived of those sent in the period are no more than were sent. -/
namespace Ns3Rmcat.Header
open Lib

namespace RfbHeader

private theorem getMetricList_eq (h : RfbHeader) (ssrc : UInt32) :
    h.getMetricList ssrc = (windowSeqs (h.getCountEndSeq ssrc)).filterMap fun seq =>
      (lookup? h.reportBlocks ssrc seq).map fun mb => (seq, mb) := by
  rw [getMetricList]
  cases hrb : h.reportBlocks[ssrc]? with
  | none => simp [lookup?_eq, hrb]
  | some rb => simp [lookup?_eq, hrb]

theorem mem_getMetricList {h : RfbHeader} {ssrc : UInt32} {seq : UInt16} {mb : RfbMetricBlock} :
    (seq, mb) ∈ h.getMetricList ssrc ↔
      seq ∈ windowSeqs (h.getCountEndSeq ssrc) ∧ lookup? h.reportBlocks ssrc seq = some mb := by
  rw [getMetricList_eq]
  simp only [List.mem_filterMap, Option.map_eq_some_iff, Prod.mk.injEq]
  constructor
  · rintro ⟨seq', hseq, mb', hmb, rfl, rfl⟩
    exact ⟨hseq, hmb⟩
  · rintro ⟨hseq, hmb⟩
    exact ⟨seq, hseq, mb, hmb, rfl, rfl⟩

private theorem nodup_windowSeqs (countEnd : UInt16 × UInt16) : (windowSeqs countEnd).Nodup :=
  nodup_consecutive _ countEnd.1.toNat_lt.le

/-- How many numbers the windows of a report have. -/
def windowCount (h : RfbHeader) : ℕ := (h.getSsrcList.map fun ssrc => (h.getCountEndSeq ssrc).1.toNat).sum

end RfbHeader

end Ns3Rmcat.Header

namespace Ns3Rmcat.Controller
open Lib Header

def QDelayData.key (packet : QDelayData) : UInt32 × UInt16 := (packet.ssrc, packet.seq)

namespace CcfsController

section Parts
variable (s : CcfsController) (feedback : RfbHeader) (beginMs endMs ssrc : UInt32)

/-- What is told about a number, when its packet was sent and arrived. -/
def arrival? (seq : UInt16) : Option QDelayData :=
  match s.getSentRtp ssrc seq, lookup? feedback.reportBlocks ssrc seq with
  | some record, some mb => some ⟨ssrc, seq, record.localTimestampUs, mb.timestampMs, record.size⟩
  | _, _ => none

def missed (seq : UInt16) : Bool :=
  (s.getSentRtp ssrc seq).isSome && (lookup? feedback.reportBlocks ssrc seq).isNone

def arrivals : List QDelayData :=
  feedback.getSsrcList.flatMap fun ssrc =>
    (RfbHeader.windowSeqs (feedback.getCountEndSeq ssrc)).filterMap (s.arrival? feedback ssrc)

/-- The numbers in the windows of a report whose packets were sent, and are not listed. -/
def missing : List (UInt32 × UInt16) :=
  feedback.getSsrcList.flatMap fun ssrc =>
    ((RfbHeader.windowSeqs (feedback.getCountEndSeq ssrc)).filter (s.missed feedback ssrc)).map fun seq => (ssrc, seq)

/-- The packets of the streams of a report that were sent in a period. -/
def sentWithin : List (UInt32 × UInt16 × SentRtpRecord) :=
  feedback.getSsrcList.flatMap fun ssrc =>
    ((s.sentRtpSsrcMap.getD ssrc ∅).toList.filter fun e => SentWithin beginMs endMs e.2).map fun e => (ssrc, e)

end Parts

def sizeOf (packet : QDelayData) : UInt64 := packet.pktSize.toUInt64

/-- The bytes of some packets, as they are added up. -/
def bytesOf (packets : List QDelayData) : UInt64 := packets.foldl (fun tot packet => tot + sizeOf packet) 0

def within (beginMs endMs : UInt32) (packet : QDelayData) : Bool :=
  SentWithin beginMs endMs ⟨packet.localSentUs, packet.pktSize, 0⟩

def sentBytesOf (packets : List (UInt32 × UInt16 × SentRtpRecord)) : UInt64 :=
  packets.foldl (fun tot e => tot + e.2.2.size.toUInt64) 0

/-- What has been told so far: some packets arrived, some were missed, and some were sent. -/
structure Told (beginMs endMs : UInt32) (arrived : List QDelayData) (lost : List (UInt32 × UInt16))
    (sent : List (UInt32 × UInt16 × SentRtpRecord)) (parsed : ParsedFBData) : Prop where
  vq : parsed.vq = arrived
  rxedBytes : parsed.rxedBytes = bytesOf arrived
  rxedSentBytes : parsed.rxedSentBytes = bytesOf (arrived.filter (within beginMs endMs))
  lossCount : parsed.lossCount = UInt32.ofNat lost.length
  txedBytes : parsed.txedBytes = sentBytesOf sent

section Told
variable {s s' : CcfsController} {feedback : RfbHeader} {beginMs endMs ssrc : UInt32} {arrived : List QDelayData}
  {lost : List (UInt32 × UInt16)} {sent : List (UInt32 × UInt16 × SentRtpRecord)} {parsed : ParsedFBData}

private theorem bytesOf_snoc (packets : List QDelayData) (packet : QDelayData) :
    bytesOf (packets ++ [packet]) = bytesOf packets + packet.pktSize.toUInt64 := by
  rw [bytesOf, List.foldl_append]
  rfl

/-- One number of a window. -/
def parseOne (s : CcfsController) (feedback : RfbHeader) (beginMs endMs ssrc : UInt32) (parsed : ParsedFBData)
    (seq : UInt16) : ParsedFBData :=
  match s.getSentRtp ssrc seq, lookup? feedback.reportBlocks ssrc seq with
  | some record, some mb =>
    { parsed with
      rxedBytes := parsed.rxedBytes + record.size.toUInt64
      rxedSentBytes :=
        if SentWithin beginMs endMs record then parsed.rxedSentBytes + record.size.toUInt64
        else parsed.rxedSentBytes
      vq := parsed.vq ++ [⟨ssrc, seq, record.localTimestampUs, mb.timestampMs, record.size⟩] }
  | some _, none => { parsed with lossCount := parsed.lossCount + 1 }
  | none, _ => parsed

/-- The list of the metrics that are left begins with the next number, when that has one: so the
search finds just its metric, and what is erased is that one. -/
private theorem parsePackets_eq (seqs : List UInt16) (hnodup : seqs.Nodup) (parsed : ParsedFBData) :
    s.parsePackets beginMs endMs ssrc seqs
        (seqs.filterMap fun seq => (lookup? feedback.reportBlocks ssrc seq).map fun mb => (seq, mb)) parsed =
      seqs.foldl (s.parseOne feedback beginMs endMs ssrc) parsed := by
  induction seqs generalizing parsed with
  | nil => rfl
  | cons seq seqs ih =>
    obtain ⟨hseq, hrest⟩ := List.nodup_cons.mp hnodup
    rw [List.foldl_cons, ← ih hrest, parsePackets, parseOne]
    cases hmb : lookup? feedback.reportBlocks ssrc seq with
    | some mb =>
      rw [List.filterMap_cons_some (by rw [hmb]; rfl), List.find?_cons_of_pos (by simp),
        List.eraseP_cons_of_pos (by simp)]
      cases s.getSentRtp ssrc seq <;> rfl
    | none =>
      have hother : ∀ e ∈ seqs.filterMap fun seq => (lookup? feedback.reportBlocks ssrc seq).map fun mb => (seq, mb),
          ¬ (decide (seq = e.1)) = true := by
        intro e he
        obtain ⟨seq', hseq', he⟩ := List.mem_filterMap.mp he
        obtain ⟨mb, -, rfl⟩ := Option.map_eq_some_iff.mp he
        rw [decide_eq_true_eq]
        rintro rfl
        exact hseq hseq'
      rw [List.filterMap_cons_none (by rw [hmb]; rfl), List.find?_eq_none.mpr hother, List.eraseP_of_forall_not hother]
      cases s.getSentRtp ssrc seq <;> rfl

private theorem parsePackets_congr (hsame : ∀ seq, s'.getSentRtp ssrc seq = s.getSentRtp ssrc seq) (seqs : List UInt16)
    (rv : List (UInt16 × RfbMetricBlock)) (parsed : ParsedFBData) :
    s'.parsePackets beginMs endMs ssrc seqs rv parsed = s.parsePackets beginMs endMs ssrc seqs rv parsed := by
  induction seqs generalizing rv parsed with
  | nil => rfl
  | cons seq seqs ih =>
    rw [parsePackets, parsePackets, hsame, ih]

private theorem parseSsrc_congr (hsame : ∀ ssrc, s'.sentRtpSsrcMap.getD ssrc ∅ = s.sentRtpSsrcMap.getD ssrc ∅)
    (parsed : ParsedFBData) :
    s'.parseSsrc feedback beginMs endMs ssrc parsed = s.parseSsrc feedback beginMs endMs ssrc parsed := by
  have hsent : ∀ seq, s'.getSentRtp ssrc seq = s.getSentRtp ssrc seq := by
    intro seq
    rw [getSentRtp, getSentRtp, lookup?, lookup?, hsame]
  rw [parseSsrc, parseSsrc, hsame, parsePackets_congr hsent]
  simp only [hsent]

private theorem parseFeedback_eq (s : CcfsController) (feedback : RfbHeader) (beginMs endMs : UInt32) :
    (s.parseFeedback feedback beginMs endMs).1 =
      feedback.getSsrcList.foldl (fun parsed ssrc => s.parseSsrc feedback beginMs endMs ssrc parsed) {} := by
  refine (List.foldl_rel (r := fun (acc : ParsedFBData × CcfsController) parsed => acc.1 = parsed ∧
    ∀ ssrc, acc.2.sentRtpSsrcMap.getD ssrc ∅ = s.sentRtpSsrcMap.getD ssrc ∅) ⟨rfl, fun _ => rfl⟩ ?_).1
  rintro ssrc - acc parsed ⟨rfl, hsame⟩
  refine ⟨parseSsrc_congr hsame acc.1, fun ssrc' => ?_⟩
  dsimp only
  rw [Std.ExtTreeMap.getD_insert]
  split
  · rename_i heq
    rw [← Std.compare_eq_iff_eq.mp heq, hsame]
  · exact hsame ssrc'

private theorem Told.one (h : Told beginMs endMs arrived lost sent parsed) (s : CcfsController) (feedback : RfbHeader)
    (ssrc : UInt32) (seq : UInt16) :
    Told beginMs endMs (arrived ++ (s.arrival? feedback ssrc seq).toList)
      (lost ++ ([seq].filter (s.missed feedback ssrc)).map fun seq => (ssrc, seq)) sent
      (s.parseOne feedback beginMs endMs ssrc parsed seq) := by
  rw [parseOne, arrival?, List.filter_singleton, missed]
  cases hrecord : s.getSentRtp ssrc seq with
  | none => simpa using h
  | some record =>
    cases hmb : lookup? feedback.reportBlocks ssrc seq with
    | none =>
      refine ⟨?_, ?_, ?_, ?_, ?_⟩
      · simpa using h.vq
      · simpa using h.rxedBytes
      · simpa using h.rxedSentBytes
      · simp [h.lossCount, UInt32.ofNat_add]
      · simpa using h.txedBytes
    | some mb =>
      refine ⟨?_, ?_, ?_, ?_, ?_⟩
      · simp [h.vq]
      · simp [h.rxedBytes, bytesOf_snoc]
      · dsimp only [Option.toList_some]
        rw [List.filter_append, List.filter_singleton]
        by_cases hwithin : SentWithin beginMs endMs record
        · have hpacket : within beginMs endMs ⟨ssrc, seq, record.localTimestampUs, mb.timestampMs, record.size⟩ =
              true := decide_eq_true hwithin
          rw [if_pos hwithin, hpacket, cond_true, bytesOf_snoc, h.rxedSentBytes]
        · have hpacket : within beginMs endMs ⟨ssrc, seq, record.localTimestampUs, mb.timestampMs, record.size⟩ =
              false := decide_eq_false hwithin
          rw [if_neg hwithin, hpacket, cond_false, List.append_nil, h.rxedSentBytes]
      · simpa using h.lossCount
      · simpa using h.txedBytes

private theorem Told.numbers (h : Told beginMs endMs arrived lost sent parsed) (s : CcfsController)
    (feedback : RfbHeader) (ssrc : UInt32) (seqs : List UInt16) :
    Told beginMs endMs (arrived ++ seqs.filterMap (s.arrival? feedback ssrc))
      (lost ++ (seqs.filter (s.missed feedback ssrc)).map fun seq => (ssrc, seq)) sent
      (seqs.foldl (s.parseOne feedback beginMs endMs ssrc) parsed) := by
  induction seqs generalizing arrived lost parsed with
  | nil => simpa using h
  | cons seq seqs ih =>
    have harrived : (arrived ++ (s.arrival? feedback ssrc seq).toList) ++ seqs.filterMap (s.arrival? feedback ssrc) =
        arrived ++ (seq :: seqs).filterMap (s.arrival? feedback ssrc) := by
      rw [List.append_assoc, List.filterMap_cons]
      cases s.arrival? feedback ssrc seq <;> rfl
    have hlost : (seq :: seqs).filter (s.missed feedback ssrc) =
        [seq].filter (s.missed feedback ssrc) ++ seqs.filter (s.missed feedback ssrc) := by
      rw [← List.filter_append]
      rfl
    rw [List.foldl_cons, ← harrived, hlost, List.map_append, ← List.append_assoc]
    exact ih (h.one s feedback ssrc seq)

private theorem sumTxedBytes_eq (stream : List (UInt16 × SentRtpRecord)) (start : UInt64 × UInt64 × UInt16) :
    (stream.foldl (fun acc e =>
      if SentWithin beginMs endMs e.2 then
        let sentMs := e.2.localTimestampUs / 1000
        (acc.1 + e.2.size.toUInt64, if acc.2.1 < sentMs then (sentMs, e.1) else acc.2)
      else acc) start).1 =
      (stream.filter fun e => SentWithin beginMs endMs e.2).foldl (fun tot e => tot + e.2.size.toUInt64) start.1 := by
  induction stream generalizing start with
  | nil => rfl
  | cons e stream ih =>
    rw [List.foldl_cons, ih]
    by_cases hwithin : SentWithin beginMs endMs e.2
    · rw [List.filter_cons_of_pos (by simpa using hwithin), List.foldl_cons, if_pos hwithin]
    · rw [List.filter_cons_of_neg (by simpa using hwithin), if_neg hwithin]

private theorem sentBytesOf_append (sent more : List (UInt32 × UInt16 × SentRtpRecord)) :
    sentBytesOf (sent ++ more) = more.foldl (fun tot e => tot + e.2.2.size.toUInt64) (sentBytesOf sent) :=
  List.foldl_append

private theorem Told.stream (h : Told beginMs endMs arrived lost sent parsed) (s : CcfsController)
    (feedback : RfbHeader) (ssrc : UInt32) :
    Told beginMs endMs
      (arrived ++ (RfbHeader.windowSeqs (feedback.getCountEndSeq ssrc)).filterMap (s.arrival? feedback ssrc))
      (lost ++ ((RfbHeader.windowSeqs (feedback.getCountEndSeq ssrc)).filter (s.missed feedback ssrc)).map
        fun seq => (ssrc, seq))
      (sent ++ ((s.sentRtpSsrcMap.getD ssrc ∅).toList.filter fun e => SentWithin beginMs endMs e.2).map
        fun e => (ssrc, e))
      (s.parseSsrc feedback beginMs endMs ssrc parsed) := by
  have hpackets := h.numbers s feedback ssrc (RfbHeader.windowSeqs (feedback.getCountEndSeq ssrc))
  rw [← parsePackets_eq _ (RfbHeader.nodup_windowSeqs _), ← RfbHeader.getMetricList_eq] at hpackets
  refine ⟨hpackets.vq, hpackets.rxedBytes, hpackets.rxedSentBytes, hpackets.lossCount, ?_⟩
  rw [parseSsrc]
  dsimp only
  rw [sumTxedBytes, sumTxedBytes_eq, hpackets.txedBytes, sentBytesOf_append, List.foldl_map]

/-- What a report tells. -/
theorem parseFeedback_told (s : CcfsController) (feedback : RfbHeader) (beginMs endMs : UInt32) :
    Told beginMs endMs (s.arrivals feedback) (s.missing feedback) (s.sentWithin feedback beginMs endMs)
      (s.parseFeedback feedback beginMs endMs).1 := by
  rw [parseFeedback_eq, arrivals, missing, sentWithin]
  generalize feedback.getSsrcList = ssrcs
  induction ssrcs using List.reverseRecOn with
  | nil => exact ⟨rfl, rfl, rfl, rfl, rfl⟩
  | append_singleton ssrcs ssrc ih =>
    rw [List.foldl_append, List.flatMap_append, List.flatMap_append, List.flatMap_append, List.flatMap_singleton,
      List.flatMap_singleton, List.flatMap_singleton]
    exact ih.stream s feedback ssrc

end Told

section Numbers
variable {s : CcfsController} {feedback : RfbHeader} {beginMs endMs ssrc : UInt32} {seq : UInt16}

private theorem arrival?_eq_some {packet : QDelayData} :
    s.arrival? feedback ssrc seq = some packet ↔ ∃ record mb, lookup? feedback.reportBlocks ssrc seq = some mb ∧
      s.getSentRtp ssrc seq = some record ∧
        packet = ⟨ssrc, seq, record.localTimestampUs, mb.timestampMs, record.size⟩ := by
  rw [arrival?]
  constructor
  · intro h
    split at h
    · rename_i record mb hrecord hmb
      cases h
      exact ⟨record, mb, hmb, hrecord, rfl⟩
    · cases h
  · rintro ⟨record, mb, hmb, hrecord, rfl⟩
    rw [hrecord, hmb]

theorem mem_arrivals {packet : QDelayData} :
    packet ∈ s.arrivals feedback ↔ ∃ record mb, (packet.seq, mb) ∈ feedback.getMetricList packet.ssrc ∧
      s.getSentRtp packet.ssrc packet.seq = some record ∧
        packet = ⟨packet.ssrc, packet.seq, record.localTimestampUs, mb.timestampMs, record.size⟩ := by
  simp only [arrivals, List.mem_flatMap, List.mem_filterMap, arrival?_eq_some, RfbHeader.mem_getMetricList]
  constructor
  · rintro ⟨ssrc, -, seq, hseq, record, mb, hmb, hrecord, rfl⟩
    exact ⟨record, mb, ⟨hseq, hmb⟩, hrecord, rfl⟩
  · rintro ⟨record, mb, ⟨hseq, hmb⟩, hrecord, hpacket⟩
    exact ⟨packet.ssrc, Std.ExtTreeMap.mem_keys.mpr (mem_of_lookup? hmb), packet.seq, hseq, record, mb, hmb, hrecord, hpacket⟩

private theorem nodup_arrivals : ((s.arrivals feedback).map QDelayData.key).Nodup := by
  have hkeys : (s.arrivals feedback).map QDelayData.key = feedback.getSsrcList.flatMap fun ssrc =>
      ((RfbHeader.windowSeqs (feedback.getCountEndSeq ssrc)).filter fun seq =>
        (s.arrival? feedback ssrc seq).isSome).map fun seq => (ssrc, seq) := by
    rw [arrivals, List.map_flatMap]
    apply List.flatMap_congr
    intro ssrc _
    generalize RfbHeader.windowSeqs (feedback.getCountEndSeq ssrc) = seqs
    induction seqs with
    | nil => rfl
    | cons seq seqs ih =>
      cases hpacket : s.arrival? feedback ssrc seq with
      | none => rw [List.filterMap_cons_none hpacket, List.filter_cons_of_neg (by simp [hpacket]), ih]
      | some packet =>
        have hkey : packet.key = (ssrc, seq) := by
          obtain ⟨record, mb, -, -, rfl⟩ := arrival?_eq_some.mp hpacket
          rfl
        rw [List.filterMap_cons_some hpacket, List.filter_cons_of_pos (by simp [hpacket]), List.map_cons,
          List.map_cons, ih, hkey]
  rw [hkeys]
  exact nodup_flatMap_map Std.ExtTreeMap.nodup_keys fun ssrc _ => (RfbHeader.nodup_windowSeqs _).filter _

private theorem nodup_missing : (s.missing feedback).Nodup :=
  nodup_flatMap_map Std.ExtTreeMap.nodup_keys fun _ _ => (RfbHeader.nodup_windowSeqs _).filter _

private theorem mem_missing : (ssrc, seq) ∈ s.missing feedback ↔ ssrc ∈ feedback.getSsrcList ∧
    seq ∈ RfbHeader.windowSeqs (feedback.getCountEndSeq ssrc) ∧ (s.getSentRtp ssrc seq).isSome ∧
      ∀ mb, (seq, mb) ∉ feedback.getMetricList ssrc := by
  simp only [missing, List.mem_flatMap, List.mem_map, List.mem_filter, missed, Bool.and_eq_true, Option.isNone_iff_eq_none,
    Prod.mk.injEq, RfbHeader.mem_getMetricList]
  constructor
  · rintro ⟨ssrc', hssrc, seq', ⟨hseq, hsent, hnone⟩, rfl, rfl⟩
    refine ⟨hssrc, hseq, hsent, fun mb hmb => ?_⟩
    rw [hnone] at hmb
    cases hmb.2
  · rintro ⟨hssrc, hseq, hsent, hnone⟩
    refine ⟨ssrc, hssrc, seq, ⟨hseq, hsent, ?_⟩, rfl, rfl⟩
    exact Option.eq_none_iff_forall_not_mem.mpr fun mb hmb => hnone mb ⟨hseq, hmb⟩

private theorem length_arrivals_missing (s : CcfsController) (feedback : RfbHeader) :
    (s.arrivals feedback).length + (s.missing feedback).length ≤ feedback.windowCount := by
  rw [arrivals, missing, RfbHeader.windowCount, List.length_flatMap, List.length_flatMap, ← List.sum_map_add]
  apply List.sum_le_sum
  intro ssrc _
  rw [List.length_map, ← RfbHeader.length_windowSeqs]
  generalize RfbHeader.windowSeqs (feedback.getCountEndSeq ssrc) = seqs
  induction seqs with
  | nil => simp
  | cons seq seqs ih =>
    cases hpacket : s.arrival? feedback ssrc seq with
    | none =>
      rw [List.filterMap_cons_none hpacket, List.filter_cons, List.length_cons]
      split
      · rw [List.length_cons]
        omega
      · omega
    | some packet =>
      have hmissed : ¬ s.missed feedback ssrc seq = true := by
        obtain ⟨record, mb, hmb, -, -⟩ := arrival?_eq_some.mp hpacket
        simp [missed, hmb]
      rw [List.filterMap_cons_some hpacket, List.filter_cons_of_neg hmissed, List.length_cons, List.length_cons]
      omega

private theorem bytesOf_toNat {packets : List QDelayData} (h : packets.length ≤ 2 ^ 32) :
    (bytesOf packets).toNat = booked (fun packet => packet.pktSize.toNat) packets := by
  have hle : booked (fun packet => packet.pktSize.toNat) packets ≤ packets.length * (2 ^ 32 - 1) :=
    booked_le _ fun packet _ => Nat.le_pred_of_lt packet.pktSize.toNat_lt
  rw [booked] at hle ⊢
  rw [bytesOf, foldl_add_toNat]
  · simp [sizeOf]
  · simp only [sizeOf, UInt32.toNat_toUInt64, UInt64.toNat_zero]
    omega

private theorem sentBytesOf_toNat {sent : List (UInt32 × UInt16 × SentRtpRecord)} (h : sent.length ≤ 2 ^ 32) :
    (sentBytesOf sent).toNat = booked (fun e => e.2.2.size.toNat) sent := by
  have hle : booked (fun e : UInt32 × UInt16 × SentRtpRecord => e.2.2.size.toNat) sent ≤ sent.length * (2 ^ 32 - 1) :=
    booked_le _ fun e _ => Nat.le_pred_of_lt e.2.2.size.toNat_lt
  rw [booked] at hle ⊢
  rw [sentBytesOf, foldl_add_toNat]
  · simp
  · simp only [UInt32.toNat_toUInt64, UInt64.toNat_zero]
    omega

private theorem length_stream_le (stream : SentRtpStream) : stream.toList.length ≤ 65536 := by
  have hnodup : (stream.keys.map UInt16.toNat).Nodup := Std.ExtTreeMap.nodup_keys.map fun a b h => UInt16.toNat_inj.mp h
  have hsubset : stream.keys.map UInt16.toNat ⊆ List.range 65536 := by
    intro n hn
    obtain ⟨seq, -, rfl⟩ := List.mem_map.mp hn
    exact List.mem_range.mpr seq.toNat_lt
  have hle := (hnodup.subperm hsubset).length_le
  rw [List.length_map, List.length_range, ← Std.ExtTreeMap.map_fst_toList_eq_keys, List.length_map] at hle
  exact hle

private theorem length_sentWithin_le (s : CcfsController) (beginMs endMs : UInt32)
    (hssrcs : feedback.getSsrcList.length ≤ 65536) :
    (s.sentWithin feedback beginMs endMs).length ≤ 2 ^ 32 := by
  have hle : booked (fun ssrc => ((s.sentRtpSsrcMap.getD ssrc ∅).toList.filter
      fun e => SentWithin beginMs endMs e.2).length) feedback.getSsrcList ≤ feedback.getSsrcList.length * 65536 :=
    booked_le _ fun ssrc _ => (List.length_filter_le _ _).trans (length_stream_le _)
  rw [booked] at hle
  rw [sentWithin, List.length_flatMap]
  simp only [List.length_map]
  omega

private theorem windowCount_le (hssrcs : feedback.getSsrcList.length ≤ 65536) : feedback.windowCount < 2 ^ 32 := by
  have hle : booked (fun ssrc => (feedback.getCountEndSeq ssrc).1.toNat) feedback.getSsrcList ≤
      feedback.getSsrcList.length * 65535 :=
    booked_le _ fun ssrc _ => Nat.le_pred_of_lt (feedback.getCountEndSeq ssrc).1.toNat_lt
  rw [booked] at hle
  rw [RfbHeader.windowCount]
  omega

private theorem booked_within_le :
    booked (fun packet => packet.pktSize.toNat) ((s.arrivals feedback).filter (within beginMs endMs)) ≤
      booked (fun e => e.2.2.size.toNat) (s.sentWithin feedback beginMs endMs) := by
  let size (k : UInt32 × UInt16) : ℕ := ((s.getSentRtp k.1 k.2).getD {}).size.toNat
  have hrecord (e : UInt32 × UInt16 × SentRtpRecord) (he : e ∈ s.sentWithin feedback beginMs endMs) :
      s.getSentRtp e.1 e.2.1 = some e.2.2 := by
    obtain ⟨ssrc, -, he⟩ := List.mem_flatMap.mp he
    obtain ⟨e', he', rfl⟩ := List.mem_map.mp he
    exact mem_toList.mp (List.mem_filter.mp he').1
  have hpackets : ((s.arrivals feedback).filter (within beginMs endMs)).map (fun packet => packet.pktSize.toNat) =
      (((s.arrivals feedback).filter (within beginMs endMs)).map QDelayData.key).map size := by
    rw [List.map_map]
    apply List.map_congr_left
    intro packet hpacket
    obtain ⟨record, mb, -, hsent, hpacket⟩ := mem_arrivals.mp (List.mem_filter.mp hpacket).1
    rw [Function.comp_apply, QDelayData.key]
    simp only [size, hsent]
    rw [hpacket]
    rfl
  have hsent : (s.sentWithin feedback beginMs endMs).map (fun e => e.2.2.size.toNat) =
      ((s.sentWithin feedback beginMs endMs).map fun e => (e.1, e.2.1)).map size := by
    rw [List.map_map]
    apply List.map_congr_left
    intro e he
    simp only [Function.comp_apply, size, hrecord e he]
    rfl
  rw [booked, booked, hpackets, hsent]
  refine sum_map_le_of_subset (nodup_arrivals.sublist (List.filter_sublist.map _)) ?_ ?_ size
  · have hkeys : (s.sentWithin feedback beginMs endMs).map (fun e => (e.1, e.2.1)) =
        feedback.getSsrcList.flatMap fun ssrc => (((s.sentRtpSsrcMap.getD ssrc ∅).toList.filter
          fun e => SentWithin beginMs endMs e.2).map Prod.fst).map fun seq => (ssrc, seq) := by
      rw [sentWithin, List.map_flatMap]
      simp only [List.map_map]
      rfl
    rw [hkeys]
    refine nodup_flatMap_map Std.ExtTreeMap.nodup_keys fun ssrc _ => ?_
    exact (nodup_toList _).sublist (List.filter_sublist.map _)
  · intro k hk
    obtain ⟨packet, hpacket, rfl⟩ := List.mem_map.mp hk
    obtain ⟨harrived, hwithin⟩ := List.mem_filter.mp hpacket
    obtain ⟨record, mb, hlisted, hsent, hpacket⟩ := mem_arrivals.mp harrived
    have hssrc := mem_of_lookup? (RfbHeader.mem_getMetricList.mp hlisted).2
    refine List.mem_map.mpr ⟨(packet.ssrc, packet.seq, record), List.mem_flatMap.mpr ⟨packet.ssrc,
      Std.ExtTreeMap.mem_keys.mpr hssrc, List.mem_map.mpr ⟨(packet.seq, record), ?_, rfl⟩⟩, rfl⟩
    rw [hpacket] at hwithin
    exact List.mem_filter.mpr ⟨mem_toList.mpr hsent, hwithin⟩

end Numbers

/-- The sums of what a report tells: each packet that is listed and was sent arrived once, each in
a window that was sent and is not listed was lost once, and the bytes are those of the packets. -/
structure Accounts (s : CcfsController) (feedback : RfbHeader) (parsed : ParsedFBData) : Prop where
  rxedSent_le_txed : parsed.rxedSentBytes ≤ parsed.txedBytes
  rxedSent_le_rxed : parsed.rxedSentBytes ≤ parsed.rxedBytes
  rxedBytes : parsed.rxedBytes.toNat = (parsed.vq.map fun packet => packet.pktSize.toNat).sum
  distinct : (parsed.vq.map QDelayData.key).Nodup
  arrived : ∀ packet, packet ∈ parsed.vq ↔ ∃ record mb, (packet.seq, mb) ∈ feedback.getMetricList packet.ssrc ∧
    s.getSentRtp packet.ssrc packet.seq = some record ∧
      packet = ⟨packet.ssrc, packet.seq, record.localTimestampUs, mb.timestampMs, record.size⟩
  lossCount : ∃ lost : List (UInt32 × UInt16), lost.Nodup ∧ parsed.lossCount.toNat = lost.length ∧
    ∀ ssrc seq, (ssrc, seq) ∈ lost ↔ ssrc ∈ feedback.getSsrcList ∧
      seq ∈ RfbHeader.windowSeqs (feedback.getCountEndSeq ssrc) ∧ (s.getSentRtp ssrc seq).isSome ∧
        ∀ mb, (seq, mb) ∉ feedback.getMetricList ssrc
  total : parsed.vq.length + parsed.lossCount.toNat ≤ feedback.windowCount

/-- A report about 65536 streams at most is accounted for, whatever its windows are and whatever
has been sent. With as many streams no sum can wrap. -/
theorem parseFeedback_accounts (s : CcfsController) (feedback : RfbHeader) (beginMs endMs : UInt32)
    (hssrcs : feedback.getSsrcList.length ≤ 65536) :
    Accounts s feedback (s.parseFeedback feedback beginMs endMs).1 := by
  have htold := parseFeedback_told s feedback beginMs endMs
  have hcount := windowCount_le hssrcs
  have hlength := length_arrivals_missing s feedback
  have hfilter := List.length_filter_le (within beginMs endMs) (s.arrivals feedback)
  have hrxed : (bytesOf (s.arrivals feedback)).toNat = booked (fun packet => packet.pktSize.toNat) (s.arrivals feedback) :=
    bytesOf_toNat (by omega)
  have hrxedSent : (bytesOf ((s.arrivals feedback).filter (within beginMs endMs))).toNat =
      booked (fun packet => packet.pktSize.toNat) ((s.arrivals feedback).filter (within beginMs endMs)) :=
    bytesOf_toNat (by omega)
  have htxed := sentBytesOf_toNat (length_sentWithin_le s beginMs endMs hssrcs)
  have hlost : (s.parseFeedback feedback beginMs endMs).1.lossCount.toNat = (s.missing feedback).length := by
    rw [htold.lossCount, UInt32.toNat_ofNat_of_lt' (by rw [UInt32.size]; omega)]
  refine ⟨?_, ?_, ?_, ?_, ?_, ⟨s.missing feedback, nodup_missing, hlost, fun ssrc seq => mem_missing⟩, ?_⟩
  · rw [htold.rxedSentBytes, htold.txedBytes, UInt64.le_iff_toNat_le, hrxedSent, htxed]
    exact booked_within_le
  · rw [htold.rxedSentBytes, htold.rxedBytes, UInt64.le_iff_toNat_le, hrxedSent, hrxed, booked, booked]
    exact (List.filter_sublist.map _).sum_le_sum fun n _ => Nat.zero_le n
  · rw [htold.rxedBytes, htold.vq, hrxed, booked]
  · rw [htold.vq]
    exact nodup_arrivals
  · intro packet
    rw [htold.vq]
    exact mem_arrivals
  · rw [htold.vq, hlost]
    exact hlength

/-- Three packets, of which the second is lost. -/
def three : List CcfsCall :=
  [.processSendPacket2 7 1000000 1 1000, .processSendPacket2 7 1010000 2 1000, .processSendPacket2 7 1020000 3 1000]

theorem parseFeedback_accounts_three :
    ∃ s, run (step 1) constructed.reset three = .ok s ∧
      (s.parseFeedback (reportOf [(7, 1, 1030), (7, 3, 1050)] 1060) 1000 1100).1.lossCount = 1 ∧
      Accounts s (reportOf [(7, 1, 1030), (7, 3, 1050)] 1060)
        (s.parseFeedback (reportOf [(7, 1, 1030), (7, 3, 1050)] 1060) 1000 1100).1 := by
  have hfacts : (run (step 1) constructed.reset three).map (fun s => decide
      ((s.parseFeedback (reportOf [(7, 1, 1030), (7, 3, 1050)] 1060) 1000 1100).1.lossCount = 1)) = .ok true := by
    decide +kernel
  obtain ⟨s, hrun, hlost⟩ := map_eq_ok.mp hfacts
  exact ⟨s, hrun, of_decide_eq_true hlost, parseFeedback_accounts _ _ _ _ (by decide +kernel)⟩

end CcfsController

end Ns3Rmcat.Controller
