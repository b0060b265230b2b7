import Ns3Rmcat.Controller.CcfsStore
import Ns3Rmcat.Lib.Ledger

/-! The totals of the bytes that were sent on each stream, which go on from record to record.
A reset leaves the records and the totals of the time before it in the store. -/
namespace Ns3Rmcat.Controller
open Lib Header

structure SentPacket where
  ssrc : UInt32
  localTimestampUs : UInt64
  sequence : UInt16
  size : UInt32
  deriving DecidableEq, Repr

namespace CcfsCall

def sentPacket? : CcfsCall → Option SentPacket
  | .processSendPacket2 ssrc localTimestampUs sequence size => some ⟨ssrc, localTimestampUs, sequence, size⟩
  | .processFeedback2 _ _ => none

def packets (calls : List CcfsCall) : List SentPacket := calls.filterMap sentPacket?

end CcfsCall

namespace SentPacket

def bytes (packet : SentPacket) : ℕ := packet.size.toNat

def bytesSent (packets : List SentPacket) (ssrc : UInt32) : ℕ := bookedOn SentPacket.ssrc bytes packets ssrc

def lastSent (packets : List SentPacket) (ssrc : UInt32) : Option UInt16 :=
  ((packets.filter fun packet => packet.ssrc = ssrc).getLast?).map SentPacket.sequence

private theorem bytesSent_snoc (packets : List SentPacket) (packet : SentPacket) (ssrc : UInt32) :
    bytesSent (packets ++ [packet]) ssrc =
      bytesSent packets ssrc + if packet.ssrc = ssrc then packet.bytes else 0 :=
  bookedOn_snoc SentPacket.ssrc bytes packets packet ssrc

private theorem lastSent_snoc (packets : List SentPacket) (packet : SentPacket) (ssrc : UInt32) :
    lastSent (packets ++ [packet]) ssrc =
      if packet.ssrc = ssrc then some packet.sequence else lastSent packets ssrc := by
  unfold lastSent
  rw [List.filter_append]
  by_cases h : packet.ssrc = ssrc
  · simp [h]
  · simp [h]

private theorem booked_lt {packets : List SentPacket} (h : packets.length < 2 ^ 32) : booked bytes packets < 2 ^ 64 :=
    by
  have hbound : booked bytes packets ≤ packets.length * (2 ^ 32 - 1) :=
    booked_le bytes fun packet _ => Nat.le_sub_one_of_lt packet.size.toNat_lt
  have hproduct : packets.length * (2 ^ 32 - 1) ≤ (2 ^ 32 - 1) * (2 ^ 32 - 1) :=
    Nat.mul_le_mul_right _ (Nat.le_sub_one_of_lt h)
  omega

private theorem bytesSent_lt {packets : List SentPacket} (h : packets.length < 2 ^ 32) (ssrc : UInt32) :
    bytesSent packets ssrc < 2 ^ 64 :=
  (bookedOn_le SentPacket.ssrc bytes packets ssrc).trans_lt (booked_lt h)

end SentPacket

namespace CcfsController
open SentPacket

/-- The total in the record of a packet, zero when it has none. -/
def storedTotal (sent : Std.ExtTreeMap UInt32 SentRtpStream) (ssrc : UInt32) (seq : UInt16) : UInt64 :=
  ((lookup? sent ssrc seq).getD {}).totSentBytes

def totalOf (s : CcfsController) (ssrc : UInt32) (seq : UInt16) : UInt64 := storedTotal s.sentRtpSsrcMap ssrc seq

/-- The two totals that are compared before the bytes on their way are computed: those sent up
to the ends of a report, and all that were sent. -/
def netTotals (s : CcfsController) (feedback : RfbHeader) : UInt64 × UInt64 :=
  let (totRxedBytes, sent) := sumSentBytes (findEndSequences feedback) 0 s.sentRtpSsrcMap
  (totRxedBytes, (sumSentBytes (s.lastSequences sent) 0 sent).1)

/-- The first assertion of the computation is that these totals are in order. -/
theorem getNetRemains_netTotals (s : CcfsController) (feedback : RfbHeader) :
    s.getNetRemains feedback (findEndSequences feedback) = do
      let reportedPktCount ← feedback.getTotalReportCount
      check ((s.netTotals feedback).1 ≤ (s.netTotals feedback).2)
      check (reportedPktCount ≤ s.inflightPktCount)
      let sent := (sumSentBytes (findEndSequences feedback) 0 s.sentRtpSsrcMap).2
      return ((s.inflightPktCount - reportedPktCount, (s.netTotals feedback).2 - (s.netTotals feedback).1),
        { s with
          sentRtpSsrcMap := (sumSentBytes (s.lastSequences sent) 0 sent).2
          lastSentRtpMap := insertAll id (s.lastSequences sent) s.lastSentRtpMap
          inflightPktCount := s.inflightPktCount - reportedPktCount }) := rfl

/-- The totals agree with the packets that were sent since the reset. -/
structure Consistent (packets : List SentPacket) (s : CcfsController) : Prop where
  last : ∀ ssrc sequence, lastSent packets ssrc = some sequence → ∃ record,
    s.getSentRtp ssrc sequence = some record ∧ record.totSentBytes.toNat = bytesSent packets ssrc
  most : ∀ ssrc sequence, lastSent packets ssrc = some sequence → ∀ seq record,
    s.getSentRtp ssrc seq = some record → record.totSentBytes.toNat ≤ bytesSent packets ssrc
  netTotals : ∀ feedback, (s.netTotals feedback).1 ≤ (s.netTotals feedback).2

/-- What every call keeps. Streams on which nothing was sent are no exception here. -/
structure Totals (packets : List SentPacket) (s : CcfsController) : Prop where
  most : ∀ ssrc seq, (s.totalOf ssrc seq).toNat ≤ bytesSent packets ssrc
  last : ∀ ssrc, (s.totalOf ssrc (s.lastSentRtpMap.getD ssrc 0)).toNat = bytesSent packets ssrc
  lastSentRtpMap : ∀ ssrc sequence, lastSent packets ssrc = some sequence →
    s.lastSentRtpMap.getD ssrc 0 = sequence ∧ (s.getSentRtp ssrc sequence).isSome
  firstSend : s.base.firstSend = true → packets = []

section Reports
variable {s s' : CcfsController} {packets : List SentPacket} {feedback : RfbHeader}

private theorem storedTotal_touchEntry (sent : Std.ExtTreeMap UInt32 SentRtpStream) (ssrc ssrc' : UInt32)
    (seq seq' : UInt16) :
    storedTotal (touchEntry sent ssrc seq {}) ssrc' seq' = storedTotal sent ssrc' seq' := by
  rw [storedTotal, storedTotal, lookup?_touchEntry]
  by_cases h : ssrc = ssrc' ∧ seq = seq'
  · obtain ⟨rfl, rfl⟩ := h
    simp
  · rw [if_neg h]

private theorem storedTotal_touchAll (sent : Std.ExtTreeMap UInt32 SentRtpStream) (entries : List (UInt32 × UInt16))
    (ssrc : UInt32) (seq : UInt16) : storedTotal (touchAll entries {} sent) ssrc seq = storedTotal sent ssrc seq := by
  induction entries generalizing sent with
  | nil => rfl
  | cons e entries ih => exact (ih (touchEntry sent e.1 e.2 {})).trans (storedTotal_touchEntry sent e.1 ssrc e.2 seq)

private theorem sumSentBytes_total (ssrcSeqs : List (UInt32 × UInt16)) (tot : UInt64)
    (sent : Std.ExtTreeMap UInt32 SentRtpStream) :
    (sumSentBytes ssrcSeqs tot sent).1 = ssrcSeqs.foldl (fun tot e => tot + storedTotal sent e.1 e.2) tot := by
  induction ssrcSeqs generalizing tot sent with
  | nil => rfl
  | cons e ssrcSeqs ih =>
    have hfirst : ((sent.getD e.1 ∅).getD e.2 {}).totSentBytes = storedTotal sent e.1 e.2 := by
      rw [Std.ExtTreeMap.getD_eq_getD_getElem?]
      rfl
    have hrest := ih (tot + storedTotal sent e.1 e.2) (touchEntry sent e.1 e.2 {})
    simp only [storedTotal_touchEntry] at hrest
    rw [List.foldl_cons, ← hrest, ← hfirst]
    rfl

private theorem totalOf_storeAfter (hstore : s'.sentRtpSsrcMap = s.storeAfter feedback) (ssrc : UInt32) (seq : UInt16) :
    s'.totalOf ssrc seq = s.totalOf ssrc seq := by
  rw [totalOf, totalOf, hstore, storeAfter]
  split
  · rfl
  · rw [storedTotal_touchAll, storedTotal_touchAll]

private theorem Totals.sum_totals (h : Totals packets s) (hcount : packets.length < 2 ^ 32)
    (ssrcSeqs : List (UInt32 × UInt16)) (hdistinct : (ssrcSeqs.map Prod.fst).Nodup) :
    (ssrcSeqs.foldl (fun tot e => tot + s.totalOf e.1 e.2) 0).toNat =
        (ssrcSeqs.map fun e => (s.totalOf e.1 e.2).toNat).sum ∧
      (ssrcSeqs.map fun e => (s.totalOf e.1 e.2).toNat).sum ≤
        ((ssrcSeqs.map Prod.fst).map (bytesSent packets)).sum := by
  have hle : (ssrcSeqs.map fun e => (s.totalOf e.1 e.2).toNat).sum ≤
      ((ssrcSeqs.map Prod.fst).map (bytesSent packets)).sum := by
    rw [List.map_map]
    apply List.sum_le_sum
    intro e _
    exact h.most e.1 e.2
  refine ⟨?_, hle⟩
  have hall : ((ssrcSeqs.map Prod.fst).map (bytesSent packets)).sum ≤ booked bytes packets :=
    sum_bookedOn_le SentPacket.ssrc bytes hdistinct packets
  have hwords := booked_lt hcount
  rw [foldl_add_toNat _ _ _ (by rw [UInt64.toNat_zero]; omega), UInt64.toNat_zero, Nat.zero_add]

private theorem Totals.netTotals (h : Totals packets s) (hcount : packets.length < 2 ^ 32) (feedback : RfbHeader) :
    (s.netTotals feedback).1 ≤ (s.netTotals feedback).2 := by
  have hends : (findEndSequences feedback).map Prod.fst = feedback.getSsrcList := by
    simp [findEndSequences, Function.comp_def]
  have hlasts (sent : Std.ExtTreeMap UInt32 SentRtpStream) : (s.lastSequences sent).map Prod.fst = sent.keys := by
    simp [lastSequences, Function.comp_def]
  have hrxed := h.sum_totals hcount (findEndSequences feedback) (by rw [hends]; exact Std.ExtTreeMap.nodup_keys)
  let sent := touchAll (findEndSequences feedback) {} s.sentRtpSsrcMap
  have hsent := h.sum_totals hcount (s.lastSequences sent) (by rw [hlasts]; exact Std.ExtTreeMap.nodup_keys)
  -- The streams of the report are streams of the store by now, and a last record has all bytes.
  have hsubset : ((feedback.getSsrcList).map (bytesSent packets)).sum ≤ (sent.keys.map (bytesSent packets)).sum := by
    refine sum_map_le_of_subset (Std.ExtTreeMap.nodup_keys) (Std.ExtTreeMap.nodup_keys) (fun ssrc hssrc => ?_) _
    apply Std.ExtTreeMap.mem_keys.mpr
    exact (mem_touchAll _ _ _ _).mpr (.inr ⟨_, List.mem_map.mpr ⟨ssrc, hssrc, rfl⟩⟩)
  have hall : ((s.lastSequences sent).map fun e => (s.totalOf e.1 e.2).toNat).sum =
      (sent.keys.map (bytesSent packets)).sum := by
    rw [lastSequences, List.map_map]
    congr 1
    apply List.map_congr_left
    intro ssrc _
    exact h.last ssrc
  have hfirst : (s.netTotals feedback).1 = (findEndSequences feedback).foldl
      (fun tot e => tot + s.totalOf e.1 e.2) 0 := sumSentBytes_total _ _ _
  have hsecond : (s.netTotals feedback).2 = (s.lastSequences sent).foldl (fun tot e => tot + s.totalOf e.1 e.2) 0 := by
    rw [CcfsController.netTotals]
    dsimp only
    rw [sumSentBytes_store, sumSentBytes_total]
    simp only [storedTotal_touchAll]
    rfl
  rw [UInt64.le_iff_toNat_le, hfirst, hsecond, hrxed.1, hsent.1, hall]
  rw [hends] at hrxed
  exact hrxed.2.trans hsubset

private theorem Totals.consistent (h : Totals packets s) (hcount : packets.length < 2 ^ 32) : Consistent packets s where
  last ssrc sequence hlast := by
    obtain ⟨hnumber, hpresent⟩ := h.lastSentRtpMap ssrc sequence hlast
    obtain ⟨record, hrecord⟩ := Option.isSome_iff_exists.mp hpresent
    refine ⟨record, hrecord, ?_⟩
    rw [← h.last ssrc, hnumber, totalOf, storedTotal, ← getSentRtp, hrecord]
    rfl
  most ssrc sequence _ seq record hrecord := by
    have hmost := h.most ssrc seq
    rw [totalOf, storedTotal, ← getSentRtp, hrecord] at hmost
    exact hmost
  netTotals := h.netTotals hcount

end Reports

section Calls
variable {s s' : CcfsController} {packets : List SentPacket}

private theorem Totals.report {rounds : Nat} {nowUs : UInt64} {feedback : RfbHeader} {result : Bool}
    (h : Totals packets s) (hstep : s.processFeedback2 rounds nowUs feedback = .ok (result, s')) :
    Totals packets s' := by
  obtain ⟨hstore, hlast⟩ := processFeedback2_store hstep
  constructor
  · intro ssrc seq
    rw [totalOf_storeAfter hstore]
    exact h.most ssrc seq
  · intro ssrc
    rw [totalOf_storeAfter hstore, hlast]
    exact h.last ssrc
  · intro ssrc sequence hsent
    obtain ⟨hnumber, hpresent⟩ := h.lastSentRtpMap ssrc sequence hsent
    obtain ⟨record, hrecord⟩ := Option.isSome_iff_exists.mp hpresent
    refine ⟨(hlast ssrc).trans hnumber, ?_⟩
    rw [getSentRtp_storeAfter hstore hrecord]
    rfl
  · rw [processFeedback2_base hstep]
    exact h.firstSend

private theorem Totals.lastTotal (h : Totals packets s) (ssrc : UInt32) :
    (s.lastTotal ssrc).toNat = bytesSent packets ssrc := by
  rw [CcfsController.lastTotal]
  split
  · rename_i hfirst
    rw [h.firstSend hfirst]
    rfl
  · exact h.last ssrc

private theorem total_filter_le (record : Option SentRtpRecord) (p : SentRtpRecord → Bool) :
    ((record.filter p).getD {}).totSentBytes.toNat ≤ (record.getD {}).totSentBytes.toNat := by
  cases hkept : record.filter p with
  | none => exact Nat.zero_le _
  | some kept =>
    obtain ⟨hthere, -⟩ := Option.filter_eq_some_iff.mp hkept
    rw [hthere]

private theorem Totals.send {result : Bool} (h : Totals packets s) (packet : SentPacket)
    (hcount : (packets ++ [packet]).length < 2 ^ 32)
    (hstep : s.processSendPacket2 packet.ssrc packet.localTimestampUs packet.sequence packet.size = .ok (result, s')) :
    Totals (packets ++ [packet]) s' := by
  have hlookup := processSendPacket2_lookup hstep
  have hlastSent := (processSendPacket2_store hstep).1
  have htotal : (s.lastTotal packet.ssrc + packet.size.toUInt64).toNat =
      bytesSent packets packet.ssrc + packet.bytes := by
    have hwords := bytesSent_lt hcount packet.ssrc
    rw [bytesSent_snoc, if_pos rfl] at hwords
    rw [UInt64.toNat_add, h.lastTotal, UInt32.toNat_toUInt64]
    exact Nat.mod_eq_of_lt hwords
  have hnew : s'.getSentRtp packet.ssrc packet.sequence = some ⟨packet.localTimestampUs, packet.size,
      s.lastTotal packet.ssrc + packet.size.toUInt64⟩ := by
    rw [hlookup, if_neg (by simp), if_pos rfl]
  constructor
  · intro ssrc seq
    rw [bytesSent_snoc]
    by_cases hssrc : packet.ssrc = ssrc
    · subst hssrc
      rw [if_pos rfl]
      by_cases hseq : packet.sequence = seq
      · subst hseq
        rw [totalOf, storedTotal, ← getSentRtp, hnew]
        exact htotal.le
      · have hold := h.most packet.ssrc seq
        rw [totalOf, storedTotal, ← getSentRtp] at hold ⊢
        rw [hlookup, if_neg (by simp), if_neg hseq]
        split
        · exact (total_filter_le (some {}) _).trans (Nat.zero_le _)
        · exact (total_filter_le (s.getSentRtp packet.ssrc seq) _).trans (hold.trans (Nat.le_add_right _ _))
    · rw [if_neg hssrc, totalOf, storedTotal, ← getSentRtp, hlookup, if_pos hssrc]
      exact h.most ssrc seq
  · intro ssrc
    rw [bytesSent_snoc, hlastSent, Std.ExtTreeMap.getD_insert]
    by_cases hssrc : packet.ssrc = ssrc
    · subst hssrc
      rw [if_pos rfl, if_pos (by simp), totalOf, storedTotal, ← getSentRtp, hnew]
      exact htotal
    · rw [if_neg hssrc, if_neg (by simpa using hssrc), totalOf, storedTotal, ← getSentRtp, hlookup, if_pos hssrc]
      exact h.last ssrc
  · intro ssrc sequence hsent
    rw [lastSent_snoc] at hsent
    rw [hlastSent, Std.ExtTreeMap.getD_insert]
    by_cases hssrc : packet.ssrc = ssrc
    · subst hssrc
      rw [if_pos rfl] at hsent
      cases hsent
      rw [if_pos (by simp), hnew]
      exact ⟨rfl, rfl⟩
    · rw [if_neg hssrc] at hsent
      obtain ⟨hnumber, hpresent⟩ := h.lastSentRtpMap ssrc sequence hsent
      rw [if_neg (by simpa using hssrc), hlookup, if_pos hssrc]
      exact ⟨hnumber, hpresent⟩
  · intro hfirst
    obtain ⟨ok, base, sent, lastSent, start, hbase, rfl⟩ := processSendPacket2_ok hstep
    obtain ⟨lastSequence, queue, rfl⟩ := SenderBasedController.processSendPacket_frame hbase
    cases hfirst

private theorem Totals.call {rounds : Nat} {call : CcfsCall} (h : Totals packets s)
    (hcount : (packets ++ CcfsCall.packets [call]).length < 2 ^ 32) (hstep : s.step rounds call = .ok s') :
    Totals (packets ++ CcfsCall.packets [call]) s' := by
  cases call with
  | processSendPacket2 ssrc localTimestampUs sequence size =>
    obtain ⟨⟨result, s1⟩, hsend, hs1⟩ := bind_eq_ok.mp hstep
    cases hs1
    exact h.send ⟨ssrc, localTimestampUs, sequence, size⟩ hcount hsend
  | processFeedback2 nowUs feedback =>
    obtain ⟨⟨result, s1⟩, hfeedback, hs1⟩ := bind_eq_ok.mp hstep
    cases hs1
    rw [CcfsCall.packets, List.filterMap_cons_none rfl, List.filterMap_nil, List.append_nil]
    exact h.report hfeedback

end Calls

section Runs
variable {s s' : CcfsController} {packets : List SentPacket} {rounds : Nat} {calls : List CcfsCall}

private theorem Totals.of_run (h : Totals packets s) (hcount : (packets ++ CcfsCall.packets calls).length < 2 ^ 32)
    (hrun : run (step rounds) s calls = .ok s') : Totals (packets ++ CcfsCall.packets calls) s' := by
  induction calls generalizing s packets with
  | nil =>
    cases hrun
    simpa [CcfsCall.packets] using h
  | cons call calls ih =>
    obtain ⟨next, hnext, hrun⟩ := bind_eq_ok.mp hrun
    have hsplit : CcfsCall.packets (call :: calls) = CcfsCall.packets [call] ++ CcfsCall.packets calls := by
      rw [← List.singleton_append, CcfsCall.packets, List.filterMap_append]
      rfl
    rw [hsplit, ← List.append_assoc] at hcount ⊢
    refine ih (h.call ?_ hnext) hcount hrun
    rw [List.length_append] at hcount
    omega

private theorem totals_reset (h : ∀ ssrc seq, s.totalOf ssrc seq = 0) : Totals [] s.reset where
  most ssrc seq := by
    rw [show s.reset.totalOf ssrc seq = s.totalOf ssrc seq from rfl, h]
    exact Nat.zero_le _
  last ssrc := by
    rw [show s.reset.totalOf ssrc _ = s.totalOf ssrc _ from rfl, h]
    rfl
  lastSentRtpMap := nofun
  firstSend _ := rfl

private theorem reset_keeps_record (rounds : Nat) {ssrc : UInt32} {seq : UInt16} {record : SentRtpRecord}
    (hrecord : s.getSentRtp ssrc seq = some record) :
    ∃ s', run (step rounds) s.reset [.processSendPacket2 ssrc record.localTimestampUs (seq + 1) 0] = .ok s' ∧
      s'.getSentRtp ssrc seq = some record := by
  obtain ⟨⟨result, s'⟩, hsend⟩ := s.reset.processSendPacket2_returns ssrc record.localTimestampUs (seq + 1) 0
  refine ⟨s', ?_, ?_⟩
  · simp only [run, step, hsend, ok_bind, pure_eq_ok]
  · have hne : seq + 1 ≠ seq := by
      intro he
      have hnat := congrArg UInt16.toNat he
      have hlt := seq.toNat_lt
      rw [UInt16.toNat_add] at hnat
      simp only [UInt16.reduceToNat] at hnat
      omega
    rw [processSendPacket2_lookup hsend, if_neg (by simp), if_neg hne, if_neg (by rintro ⟨hfirst, -⟩; cases hfirst)]
    rw [show s.reset.getSentRtp ssrc seq = s.getSentRtp ssrc seq from rfl, hrecord]
    exact Option.filter_some_pos (kept_self record.localTimestampUs record.size record.totSentBytes)

end Runs

/-- The runs from a reset have consistent totals exactly when the reset finds no record with
bytes in the store. -/
theorem totals_consistent_iff (s0 : CcfsController) (rounds : Nat) :
    (∀ calls s, (CcfsCall.packets calls).Pairwise (fun p q => p.localTimestampUs ≤ q.localTimestampUs) →
      (CcfsCall.packets calls).length < 2 ^ 32 → run (step rounds) s0.reset calls = .ok s →
      Consistent (CcfsCall.packets calls) s) ↔
    ∀ ssrc seq record, s0.getSentRtp ssrc seq = some record → record.totSentBytes = 0 := by
  constructor
  · intro h ssrc seq record hrecord
    obtain ⟨s', hrun, hkept⟩ := reset_keeps_record rounds hrecord
    have hconsistent := h _ s' (List.pairwise_singleton _ _) (by simp [CcfsCall.packets, CcfsCall.sentPacket?]) hrun
    have hmost := hconsistent.most ssrc (seq + 1) (by simp [CcfsCall.packets, CcfsCall.sentPacket?, lastSent])
      seq record hkept
    have hnone :
        bytesSent (CcfsCall.packets [.processSendPacket2 ssrc record.localTimestampUs (seq + 1) 0]) ssrc = 0 := by
      simp [CcfsCall.packets, CcfsCall.sentPacket?, bytesSent, bookedOn_cons, bytes]
    rw [hnone] at hmost
    exact UInt64.toNat_inj.mp (Nat.le_zero.mp hmost)
  · intro h calls s _ hcount hrun
    have hzero (ssrc : UInt32) (seq : UInt16) : s0.totalOf ssrc seq = 0 := by
      rw [totalOf, storedTotal, ← getSentRtp]
      cases hrecord : s0.getSentRtp ssrc seq with
      | none => rfl
      | some record => exact h ssrc seq record hrecord
    exact ((totals_reset hzero).of_run hcount hrun).consistent hcount

/-- Two streams are used before the reset and after it. The second one goes on from its old
total, and a report about an old packet finds more bytes than were sent. -/
theorem totals_go_on :
    let before : List CcfsCall := [.processSendPacket2 1 1000000 7 1200, .processSendPacket2 2 1010000 8 400]
    let after : List CcfsCall := [.processSendPacket2 1 2000000 9 100, .processSendPacket2 2 2010000 10 100]
    let report := reportOf [(1, 7, 1020)] 1090
    ∃ s0 s, run (step 1) constructed.reset before = .ok s0 ∧ run (step 1) s0.reset after = .ok s ∧
      s.getSentRtp 2 10 = some ⟨2010000, 100, 500⟩ ∧ bytesSent (CcfsCall.packets after) 2 = 100 ∧
      ¬ Consistent (CcfsCall.packets after) s ∧ s.netTotals report = (1200, 600) ∧
      (s.processFeedback2 1 2100000 report).map Prod.fst = .error .assertion := by
  intro before after report
  have hfacts : (run (step 1) constructed.reset before >>= fun s0 =>
      (run (step 1) s0.reset after).map fun s => (s0, s)).map (fun r =>
        decide (r.2.getSentRtp 2 10 = some ⟨2010000, 100, 500⟩ ∧ r.2.netTotals report = (1200, 600) ∧
          (r.2.processFeedback2 1 2100000 report).map Prod.fst = .error .assertion)) = .ok true := by
    decide +kernel
  obtain ⟨⟨s0, s⟩, hruns, hdecided⟩ := map_eq_ok.mp hfacts
  obtain ⟨s0', hbefore, hafter⟩ := bind_eq_ok.mp hruns
  obtain ⟨s', hafter, he⟩ := map_eq_ok.mp hafter
  cases he
  obtain ⟨hrecord, htotals, hfatal⟩ := of_decide_eq_true hdecided
  have hsent : bytesSent (CcfsCall.packets after) 2 = 100 := by decide
  refine ⟨s0, s, hbefore, hafter, hrecord, hsent, fun hconsistent => ?_, htotals, hfatal⟩
  obtain ⟨record, hthere, htotal⟩ := hconsistent.last 2 10 (by decide)
  rw [hrecord] at hthere
  cases hthere
  rw [hsent] at htotal
  exact absurd htotal (by decide)

end CcfsController

end Ns3Rmcat.Controller
