import Ns3Rmcat.Header.CCFeedbackParse
import Ns3Rmcat.Header.CCFeedbackRoundTrip

/-! What the octets of an accepted congestion control feedback packet say: the report blocks
that they consist of, and the entries that a header has when they have been read into it. -/
namespace Ns3Rmcat.Header
open Lib CCFeedback

/-- What a metric block tells of a packet that was received: its ECN value and its offset. -/
def receivedMetric (octets : UInt8 × UInt8) : Option (UInt8 × UInt16) :=
  (parseMetric octets.1 octets.2).filter fun metric => metric.2 ≠ unavailable

/-- A report block as it is sent: its first number, a metric block for that and each number that
follows, and a word of padding when the number of metric blocks is odd. -/
structure WireBlock where
  ssrc : UInt32
  beginSeq : UInt16
  metrics : List (UInt8 × UInt8)
  padding : Octets
  nonempty : metrics ≠ []
  few : metrics.length ≤ 65535
  padded : padding.length = 2 * (metrics.length % 2)

namespace WireBlock

def endSeq (b : WireBlock) : UInt16 := b.beginSeq + UInt16.ofNat (b.metrics.length - 1)

def octets (b : WireBlock) : Octets :=
  writeHtonU32 b.ssrc ++ (writeHtonU16 b.beginSeq ++ (writeHtonU16 b.endSeq ++ (octetPairs b.metrics ++ b.padding)))

/-- What the block tells of a number whose packet was received. -/
def metric? (b : WireBlock) (seq : UInt16) : Option (UInt8 × UInt16) :=
  b.metrics[ahead b.beginSeq seq]?.bind receivedMetric

private theorem length_octets (b : WireBlock) : b.octets.length = 8 + 2 * (b.metrics.length + b.metrics.length % 2) :=
    by
  simp only [octets, List.length_append, length_writeHtonU32, length_writeHtonU16, length_octetPairs, b.padded]
  omega

private theorem octets_append_inj {b b' : WireBlock} {rest rest' : Octets} (h : b.octets ++ rest = b'.octets ++ rest') :
    b = b' ∧ rest = rest' := by
  simp only [octets, List.append_assoc] at h
  have hssrc := congrArg readNtohU32 h
  rw [readNtohU32_write, readNtohU32_write, Except.ok.injEq, Prod.mk.injEq] at hssrc
  have hbegin := congrArg readNtohU16 hssrc.2
  rw [readNtohU16_write, readNtohU16_write, Except.ok.injEq, Prod.mk.injEq] at hbegin
  have hend := congrArg readNtohU16 hbegin.2
  rw [readNtohU16_write, readNtohU16_write, Except.ok.injEq, Prod.mk.injEq, endSeq, endSeq, hbegin.1] at hend
  have hlength : b.metrics.length = b'.metrics.length := by
    have hpos := List.length_pos_iff.mpr b.nonempty
    have hpos' := List.length_pos_iff.mpr b'.nonempty
    have hfew := b.few
    have hfew' := b'.few
    have hlast := congrArg UInt16.toNat ((UInt16.add_right_inj _).mp hend.1)
    rw [UInt16.toNat_ofNat', UInt16.toNat_ofNat'] at hlast
    omega
  obtain ⟨hmetrics, hrest⟩ := List.append_inj hend.2 (by rw [length_octetPairs, length_octetPairs, hlength])
  obtain ⟨hpadding, hrest⟩ := List.append_inj hrest (by rw [b.padded, b'.padded, hlength])
  refine ⟨?_, hrest⟩
  cases b
  cases b'
  simp only [mk.injEq]
  exact ⟨hssrc.1, hbegin.1, octetPairs_inj hmetrics, hpadding⟩

end WireBlock

/-- What some blocks, one after the other, tell of a number of an SSRC; the last of them that
has the packet as received counts. -/
def received (ssrc : UInt32) (seq : UInt16) : List WireBlock → Option (UInt8 × UInt16)
  | [] => none
  | b :: blocks => (received ssrc seq blocks).or (if b.ssrc = ssrc then b.metric? seq else none)

private theorem received_snoc (ssrc : UInt32) (seq : UInt16) (blocks : List WireBlock) (b : WireBlock) :
    received ssrc seq (blocks ++ [b]) = (if b.ssrc = ssrc then b.metric? seq else none).or (received ssrc seq blocks) := by
  induction blocks with
  | nil => simp [received]
  | cons b' blocks ih => rw [List.cons_append, received, ih, Option.or_assoc, received]

/-- The octets of a packet: a common header of eight, report blocks and the time of the report,
as many as the length field tells, and what follows them. -/
structure Layout (start : Octets) (blocks : List WireBlock) (ntpRef : UInt32) (rest : Octets) : Prop where
  octets : start.drop 8 = blocks.flatMap WireBlock.octets ++ (writeHtonU32 ntpRef ++ rest)
  length : 8 + (blocks.flatMap WireBlock.octets).length + 4 = 4 * ((CCFeedbackHeader.lengthField start).toNat + 1)

private theorem flatMap_octets_inj {blocks blocks' : List WireBlock} {rest rest' : Octets}
    (h : blocks.flatMap WireBlock.octets ++ rest = blocks'.flatMap WireBlock.octets ++ rest')
    (hlength : (blocks.flatMap WireBlock.octets).length = (blocks'.flatMap WireBlock.octets).length) :
    blocks = blocks' ∧ rest = rest' := by
  induction blocks generalizing blocks' with
  | nil =>
    cases blocks' with
    | nil => exact ⟨rfl, h⟩
    | cons b' blocks' =>
      rw [List.flatMap_nil, List.length_nil, List.flatMap_cons, List.length_append, b'.length_octets] at hlength
      omega
  | cons b blocks ih =>
    cases blocks' with
    | nil =>
      rw [List.flatMap_nil, List.length_nil, List.flatMap_cons, List.length_append, b.length_octets] at hlength
      omega
    | cons b' blocks' =>
      rw [List.flatMap_cons, List.flatMap_cons, List.append_assoc, List.append_assoc] at h
      obtain ⟨rfl, hmore⟩ := WireBlock.octets_append_inj h
      rw [List.flatMap_cons, List.flatMap_cons, List.length_append, List.length_append, Nat.add_left_cancel_iff] at hlength
      obtain ⟨rfl, hrest⟩ := ih hmore hlength
      exact ⟨rfl, hrest⟩

/-- A packet has one layout. -/
theorem Layout.unique {start rest rest' : Octets} {blocks blocks' : List WireBlock} {ntpRef ntpRef' : UInt32}
    (h : Layout start blocks ntpRef rest) (h' : Layout start blocks' ntpRef' rest') :
    blocks = blocks' ∧ ntpRef = ntpRef' := by
  have hlength := h.length.trans h'.length.symm
  obtain ⟨hblocks, hmore⟩ := flatMap_octets_inj (h.octets.symm.trans h'.octets) (by omega)
  have hntp := congrArg readNtohU32 hmore
  rw [readNtohU32_write, readNtohU32_write, Except.ok.injEq, Prod.mk.injEq] at hntp
  exact ⟨hblocks, hntp.1⟩

namespace CCFeedbackHeader

/-- What is read of a packet that was received, before the time of the report is known. -/
def unstamped (metric : UInt8 × UInt16) : MetricBlock := { ecn := metric.1, timestampUs := 0, ato := metric.2 }

/-- The entries of a block after some metric blocks have been read into it: those that tell of a
received packet count, and the others leave what was known before. -/
private theorem deserializeMetrics_octetPairs {metrics : List (UInt8 × UInt8)} {beginSeq : UInt16} {rb : ReportBlock}
    {known : UInt16 → Option (UInt8 × UInt16)} (hfew : metrics.length ≤ 65535)
    (hrb : ∀ seq, rb[seq]? = (known seq).map unstamped) (rest : Octets) :
    ∃ rb', deserializeMetrics (consecutive beginSeq metrics.length) rb (octetPairs metrics ++ rest) = .ok (rb', rest) ∧
      ∀ seq, rb'[seq]? = ((metrics[ahead beginSeq seq]?.bind receivedMetric).or (known seq)).map unstamped := by
  induction metrics generalizing beginSeq rb known with
  | nil => exact ⟨rb, rfl, fun seq => by simpa using hrb seq⟩
  | cons octets metrics ih =>
    rw [List.length_cons] at hfew
    -- What is known when the first metric block has been read.
    let known' (seq : UInt16) := if beginSeq = seq then (receivedMetric octets).or (known seq) else known seq
    have hstep (seq : UInt16) : (metrics[ahead (beginSeq + 1) seq]?.bind receivedMetric).or (known' seq) =
        ((octets :: metrics)[ahead beginSeq seq]?.bind receivedMetric).or (known seq) := by
      by_cases hs : beginSeq = seq
      · subst hs
        have hlast : ahead (beginSeq + 1) beginSeq = 65535 := by
          have hlt := beginSeq.toNat_lt
          have hone : (beginSeq + 1).toNat = (beginSeq.toNat + 1) % 65536 := by
            rw [UInt16.toNat_add]
            rfl
          rw [ahead_eq, hone]
          omega
        simp only [known', if_true, hlast, ahead_self, List.getElem?_eq_none (show metrics.length ≤ 65535 by omega),
          List.getElem?_cons_zero, Option.bind_none, Option.none_or, Option.bind_some]
      · simp only [known', if_neg hs, ahead_succ hs, List.getElem?_cons_succ]
    have hmore {rb' : ReportBlock} (hrb' : ∀ seq, rb'[seq]? = (known' seq).map unstamped) :
        ∃ rb'', deserializeMetrics (consecutive (beginSeq + 1) metrics.length) rb' (octetPairs metrics ++ rest) =
          .ok (rb'', rest) ∧ ∀ seq, rb''[seq]? =
            (((octets :: metrics)[ahead beginSeq seq]?.bind receivedMetric).or (known seq)).map unstamped := by
      obtain ⟨rb'', hread, hentries⟩ := ih (by omega) hrb'
      exact ⟨rb'', hread, fun seq => by rw [hentries, hstep]⟩
    rw [List.length_cons, consecutive_succ, octetPairs_cons, List.cons_append, List.cons_append, deserializeMetrics]
    simp only [readU8_cons, ok_bind]
    have hnot (hnone : receivedMetric octets = none) (seq : UInt16) : rb[seq]? = (known' seq).map unstamped := by
      simp only [known', hnone, Option.none_or, ite_self, hrb]
    cases hparse : parseMetric octets.1 octets.2 with
    | none =>
      refine hmore (hnot ?_)
      rw [receivedMetric, hparse]
      rfl
    | some metric =>
      obtain ⟨ecn, ato⟩ := metric
      dsimp only
      by_cases hato : ato ≠ unavailable
      · rw [if_pos hato]
        refine hmore fun seq => ?_
        have hreceived : receivedMetric octets = some (ecn, ato) := by
          rw [receivedMetric, hparse]
          simp [hato]
        have htime : (rb[beginSeq]?.map MetricBlock.timestampUs).getD 0 = 0 := by
          rw [hrb]
          cases known beginSeq <;> rfl
        rw [Std.ExtTreeMap.getElem?_insert, htime]
        by_cases hs : beginSeq = seq
        · simp [known', hs, hreceived, unstamped]
        · simp [known', hs, hrb]
      · rw [if_neg hato]
        refine hmore (hnot ?_)
        rw [receivedMetric, hparse]
        simpa using hato

/-- The report blocks of a header into which some blocks have been read. -/
structure Reads (blocks : List WireBlock) (reportBlocks : Std.ExtTreeMap UInt32 ReportBlock) : Prop where
  ssrcs : ∀ ssrc, ssrc ∈ reportBlocks ↔ ∃ b ∈ blocks, b.ssrc = ssrc
  entries : ∀ (ssrc : UInt32) (seq : UInt16),
    lookup? reportBlocks ssrc seq = (received ssrc seq blocks).map unstamped

private theorem reads_nil : Reads [] ∅ := by
  refine ⟨by simp, fun ssrc seq => ?_⟩
  simp [lookup?, received]

private theorem Reads.snoc {blocks : List WireBlock} {reportBlocks : Std.ExtTreeMap UInt32 ReportBlock} {b : WireBlock}
    {rb : ReportBlock} (h : Reads blocks reportBlocks)
    (hrb : ∀ seq, rb[seq]? = ((b.metric? seq).or (received b.ssrc seq blocks)).map unstamped) :
    Reads (blocks ++ [b]) (reportBlocks.insert b.ssrc rb) := by
  refine ⟨fun ssrc => ?_, fun ssrc seq => ?_⟩
  · rw [Std.ExtTreeMap.mem_insert, Std.compare_eq_iff_eq, h.ssrcs]
    simp only [List.mem_append, List.mem_singleton]
    constructor
    · rintro (rfl | ⟨b', hb', he⟩)
      · exact ⟨b, .inr rfl, rfl⟩
      · exact ⟨b', .inl hb', he⟩
    · rintro ⟨b', hb' | rfl, he⟩
      · exact .inr ⟨b', hb', he⟩
      · exact .inl he
  · rw [lookup?, Std.ExtTreeMap.getD_insert, received_snoc]
    by_cases hs : b.ssrc = ssrc
    · subst hs
      simp only [Std.compare_self, if_true, hrb]
    · rw [if_neg (by simpa using hs), if_neg hs, Option.none_or]
      exact h.entries ssrc seq

private theorem deserializeMetrics_reads {n : Nat} {beginSeq : UInt16} {rb rb' : ReportBlock} {start rest : Octets}
    {known : UInt16 → Option (UInt8 × UInt16)} (hn : n ≤ 65535) (hrb : ∀ seq, rb[seq]? = (known seq).map unstamped)
    (hread : deserializeMetrics (consecutive beginSeq n) rb start = .ok (rb', rest)) :
    ∃ metrics : List (UInt8 × UInt8), metrics.length = n ∧ start = octetPairs metrics ++ rest ∧
      ∀ seq, rb'[seq]? = ((metrics[ahead beginSeq seq]?.bind receivedMetric).or (known seq)).map unstamped := by
  have htaken := deserializeMetrics_settles (consecutive beginSeq n) rb start
  rw [hread, settles_ok, length_consecutive] at htaken
  obtain ⟨metrics, hlength, hpairs⟩ := exists_octetPairs (List.length_take_of_le htaken.enough)
  have hstart : start = octetPairs metrics ++ rest := by
    have hrest : rest = start.drop (2 * n) := htaken.rest_eq
    rw [← hpairs, hrest, List.take_append_drop]
  refine ⟨metrics, hlength, hstart, ?_⟩
  obtain ⟨rb'', hread', hentries⟩ := deserializeMetrics_octetPairs (hlength ▸ hn) hrb rest
  rw [hlength, ← hstart, hread] at hread'
  cases hread'
  exact hentries

private theorem deserializeBlocks_reads {rounds : Nat} {lenLeft : UInt64} {start : Octets} {before : List WireBlock}
    {reportBlocks : Std.ExtTreeMap UInt32 ReportBlock} {read : Std.ExtTreeMap UInt32 ReportBlock × Octets}
    (hreads : Reads before reportBlocks) (hread : deserializeBlocks rounds lenLeft reportBlocks start = .ok read) :
    ∃ blocks, start = blocks.flatMap WireBlock.octets ++ read.2 ∧ Reads (before ++ blocks) read.1 := by
  induction rounds generalizing lenLeft start before reportBlocks with
  | zero => cases hread
  | succ rounds ih =>
    rw [deserializeBlocks] at hread
    by_cases hleft : lenLeft = 0
    · rw [if_pos hleft] at hread
      cases hread
      exact ⟨[], rfl, by rwa [List.append_nil]⟩
    rw [if_neg hleft] at hread
    obtain ⟨-, hread⟩ := check_bind_eq_ok.mp hread
    obtain ⟨⟨ssrc, s1⟩, hssrc, hread⟩ := bind_eq_ok.mp hread
    obtain ⟨⟨beginSeq, s2⟩, hbegin, hread⟩ := bind_eq_ok.mp hread
    obtain ⟨⟨endSeq, s3⟩, hend, hread⟩ := bind_eq_ok.mp hread
    obtain ⟨hfew, hread⟩ := check_bind_eq_ok.mp hread
    obtain ⟨-, hread⟩ := check_bind_eq_ok.mp hread
    obtain ⟨⟨rb, s4⟩, hmetrics, hread⟩ := bind_eq_ok.mp hread
    have hcount := toNat_countTo beginSeq endSeq
    have hodd : ((endSeq - beginSeq).toUInt32 + 1) % 2 = 1 ↔ (ahead beginSeq endSeq + 1) % 2 = 1 := by
      rw [← UInt32.toNat_inj, UInt32.toNat_mod, hcount]
      rfl
    rw [UInt32.le_iff_toNat_le, hcount] at hfew
    rw [hcount] at hmetrics
    obtain ⟨metrics, hlength, hs3, hentries⟩ := deserializeMetrics_reads hfew (hreads.entries ssrc) hmetrics
    have hnonempty : metrics ≠ [] := List.length_pos_iff.mp (by omega)
    -- The rest of the loop, behind the padding.
    have hblock (padding : Octets) (hpadding : padding.length = 2 * (metrics.length % 2)) (lenLeft' : UInt64) (s5 : Octets)
        (hs4 : s4 = padding ++ s5)
        (hmore : deserializeBlocks rounds lenLeft' (reportBlocks.insert ssrc rb) s5 = .ok read) :
        ∃ blocks, start = blocks.flatMap WireBlock.octets ++ read.2 ∧ Reads (before ++ blocks) read.1 := by
      let b : WireBlock := ⟨ssrc, beginSeq, metrics, padding, hnonempty, hlength ▸ hfew, hpadding⟩
      have hendSeq : b.endSeq = endSeq := by
        rw [WireBlock.endSeq, hlength, Nat.add_sub_cancel]
        exact add_ahead beginSeq endSeq
      have hstart : start = b.octets ++ s5 := by
        rw [WireBlock.octets, hendSeq, eq_append_of_readNtohU32 hssrc, eq_append_of_readNtohU16 hbegin,
          eq_append_of_readNtohU16 hend, hs3, hs4]
        simp only [b, List.append_assoc]
      obtain ⟨blocks, hs5, hall⟩ := ih (hreads.snoc (b := b) hentries) hmore
      refine ⟨b :: blocks, ?_, ?_⟩
      · rw [List.flatMap_cons, List.append_assoc, ← hs5, hstart]
      · rwa [List.append_assoc] at hall
    dsimp only at hread
    by_cases hpad : ((endSeq - beginSeq).toUInt32 + 1) % 2 = 1
    · rw [if_pos hpad] at hread
      obtain ⟨⟨word, s5⟩, hword, hmore⟩ := bind_eq_ok.mp hread
      refine hblock (writeHtonU16 word) ?_ _ s5 (eq_append_of_readNtohU16 hword) hmore
      rw [length_writeHtonU16, hlength, hodd.mp hpad]
    · rw [if_neg hpad] at hread
      refine hblock [] ?_ _ s4 rfl hread
      rw [hodd] at hpad
      rw [List.length_nil, hlength]
      omega

/-- What a header has of a packet that was received, with the time that its offset stands for. -/
def reported (ntpRef : UInt32) (metric : UInt8 × UInt16) : MetricBlock := stamped ntpRef (unstamped metric)

/-- The report blocks that a header has when it has been read: those of the SSRCs of the blocks,
with the packets that the blocks tell of as received. -/
structure Reported (blocks : List WireBlock) (ntpRef : UInt32) (h : CCFeedbackHeader) : Prop where
  ssrcs : ∀ ssrc, ssrc ∈ h.reportBlocks ↔ ∃ b ∈ blocks, b.ssrc = ssrc
  entries : ∀ (ssrc : UInt32) (seq : UInt16),
    lookup? h.reportBlocks ssrc seq = (received ssrc seq blocks).map (reported ntpRef)

/-- A packet that is accepted has a layout, and the header has what its report blocks tell. -/
theorem deserialize_reported {start rest : Octets} {n : UInt32} {h : CCFeedbackHeader}
    (hread : fresh.deserialize start = .ok (n, h, rest)) :
    ∃ blocks ntpRef, Layout start blocks ntpRef rest ∧ Reported blocks ntpRef h := by
  obtain ⟨-, hread⟩ := check_bind_eq_ok.mp hread
  obtain ⟨⟨common, s1⟩, hcommon, hread⟩ := bind_eq_ok.mp hread
  obtain ⟨-, hread⟩ := check_bind_eq_ok.mp hread
  obtain ⟨-, hread⟩ := check_bind_eq_ok.mp hread
  obtain ⟨⟨reportBlocks, s2⟩, hblocks, hread⟩ := bind_eq_ok.mp hread
  obtain ⟨⟨ntpRef, s3⟩, hntp, hread⟩ := bind_eq_ok.mp hread
  obtain ⟨reportBlocks', hpopulate, hread⟩ := bind_eq_ok.mp hread
  obtain ⟨-, hread⟩ := check_bind_eq_ok.mp hread
  obtain ⟨size, -, hread⟩ := bind_eq_ok.mp hread
  cases hread
  have hhead := deserializeCommon_settles fresh start
  rw [hcommon, settles_ok] at hhead
  obtain ⟨htaken, hfield, htwo⟩ := hhead
  have hwords := deserializeBlocks_settles (Nat.lt_succ_self s1.length) ((common.length.toUInt64 - 2) * 2)
    fresh.reportBlocks
  rw [hblocks, settles_ok, toNat_lenLeft htwo] at hwords
  obtain ⟨blocks, hoctets, hreads⟩ := deserializeBlocks_reads reads_nil hblocks
  have hs1 : s1 = blocks.flatMap WireBlock.octets ++ s2 := hoctets
  have hssrcs : ∀ ssrc, ssrc ∈ reportBlocks ↔ ∃ b ∈ blocks, b.ssrc = ssrc := hreads.ssrcs
  have hentries : ∀ ssrc seq, lookup? reportBlocks ssrc seq = (received ssrc seq blocks).map unstamped := hreads.entries
  have hfinal := (populateBlocks_eq_ok.mp hpopulate).2
  have hget (ssrc : UInt32) : reportBlocks'[ssrc]? = reportBlocks[ssrc]?.map (stampedBlock ntpRef) := by
    rw [hfinal, getElem?_insertAll_self]
  refine ⟨blocks, ntpRef, ⟨?_, ?_⟩, fun ssrc => ?_, fun ssrc seq => ?_⟩
  · have hdrop : s1 = start.drop 8 := htaken.rest_eq
    rw [← hdrop, hs1, eq_append_of_readNtohU32 hntp]
  · have hlength : s1.length = 2 * ((common.length.toNat - 2) * 2) + s2.length := hwords.length
    have hlengthField : common.length = lengthField start := hfield
    have htwo' : 2 ≤ common.length.toNat := UInt16.le_iff_toNat_le.mp htwo
    rw [hs1, List.length_append] at hlength
    rw [← hlengthField]
    omega
  · rw [← hssrcs, Std.ExtTreeMap.mem_iff_isSome_getElem?, hget, Option.isSome_map,
      Std.ExtTreeMap.mem_iff_isSome_getElem?]
  · have hentry := hentries ssrc seq
    rw [lookup?_eq] at hentry ⊢
    have hstamped : (reportBlocks'[ssrc]?.bind fun rb => rb[seq]?) =
        (reportBlocks[ssrc]?.bind fun rb => rb[seq]?).map (stamped ntpRef) := by
      rw [hget]
      cases reportBlocks[ssrc]? with
      | none => rfl
      | some rb => exact getElem?_stampedBlock ntpRef rb seq
    rw [hstamped, hentry, Option.map_map]
    rfl

end CCFeedbackHeader

end Ns3Rmcat.Header
