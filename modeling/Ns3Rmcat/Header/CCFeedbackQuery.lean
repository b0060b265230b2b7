import Ns3Rmcat.Header.CCFeedbackLayout

/-! Questions to a header that has been read. The reader makes a report block before it knows
of a packet in it that was received, and one with all its numbers, which no addition makes. -/
namespace Ns3Rmcat.Header
open Lib CCFeedback

namespace CCFeedbackHeader

/-- A block that has a number, and misses two. -/
def Answerable (rb : ReportBlock) : Prop := rb ≠ ∅ ∧ ∃ seq seq', seq ≠ seq' ∧ seq ∉ rb ∧ seq' ∉ rb

private theorem Answerable.lacks {rb : ReportBlock} (h : Answerable rb) : Lacks rb := by
  obtain ⟨-, seq, -, -, hseq, -⟩ := h
  exact ⟨seq, hseq⟩

theorem getMetricList_lists {h : CCFeedbackHeader} {ssrc : UInt32} {rb : ReportBlock}
    (hrb : h.reportBlocks[ssrc]? = some rb) (hne : rb ≠ ∅) (hlacks : Lacks rb) :
    ∃ beginSeq rv, h.getMetricList ssrc = .ok (some rv) ∧ Lists rb beginSeq rv := by
  obtain ⟨beginSeq, stopSeq, hcalc, hw⟩ := calculateBeginStopSeq_window hne hlacks
  refine ⟨beginSeq, _, ?_, hw.lists⟩
  rw [getMetricList, hrb]
  simp only [check_of hne, ok_bind, hcalc]
  rfl

private theorem returns_getMetricList {h : CCFeedbackHeader} {ssrc : UInt32} {rb : ReportBlock}
    (hrb : h.reportBlocks[ssrc]? = some rb) : Returns (h.getMetricList ssrc) ↔ rb ≠ ∅ ∧ Lacks rb := by
  constructor
  · rintro ⟨rv, hok⟩
    rw [getMetricList, hrb] at hok
    obtain ⟨hne, hok⟩ := check_bind_eq_ok.mp hok
    refine ⟨hne, by_contra fun hnot => ?_⟩
    obtain ⟨beginStop, hcalc, -⟩ := bind_eq_ok.mp hok
    rw [calculateBeginStopSeq_full (not_lacks.mp hnot)] at hcalc
    cases hcalc
  · rintro ⟨hne, hlacks⟩
    obtain ⟨-, rv, hok, -⟩ := getMetricList_lists hrb hne hlacks
    exact ⟨some rv, hok⟩

private theorem not_fills {h : CCFeedbackHeader}
    (hblocks : ∀ (ssrc : UInt32) (rb : ReportBlock), h.reportBlocks[ssrc]? = some rb → Answerable rb)
    (ssrc : UInt32) (seq : UInt16) : ¬ h.Fills ssrc seq := by
  intro hfills
  have hmissing {other : UInt16} (hne : seq ≠ other) : (lookup? h.reportBlocks ssrc other).isSome :=
    (hfills other).resolve_left hne
  cases hrb : h.reportBlocks[ssrc]? with
  | none =>
    have hnext : seq ≠ seq + 1 := fun he => by
      have hone := ahead_add seq (n := 1) (by decide)
      have hsame : ahead seq (seq + UInt16.ofNat 1) = 0 := ahead_eq_zero_iff.mpr he
      omega
    have hsome := hmissing hnext
    rw [lookup?_eq, hrb] at hsome
    cases hsome
  | some rb =>
    obtain ⟨-, seq1, seq2, hne, h1, h2⟩ := hblocks ssrc rb hrb
    have hpresent {other : UInt16} (hother : seq ≠ other) : other ∈ rb := by
      have hsome := hmissing hother
      rwa [lookup?_eq, hrb, Option.bind_some, Std.ExtTreeMap.isSome_getElem?_iff_mem] at hsome
    by_cases hs : seq = seq1
    · exact h2 (hpresent (hs ▸ hne))
    · exact h1 (hpresent hs)

private theorem returns_addFeedback {h : CCFeedbackHeader}
    (hblocks : ∀ (ssrc : UInt32) (rb : ReportBlock), h.reportBlocks[ssrc]? = some rb → Answerable rb)
    (ssrc : UInt32) (seq : UInt16) (ts : UInt64) (ecn : UInt8) : Returns (h.addFeedback ssrc seq ts ecn) := by
  by_cases hecn : 3 < ecn
  · exact ⟨_, addFeedback_badEcn h ssrc seq ts hecn⟩
  have hecn : ecn ≤ 3 := UInt8.not_lt.mp hecn
  cases hentry : lookup? h.reportBlocks ssrc seq with
  | some mb =>
    have hsome : (lookup? h.reportBlocks ssrc seq).isSome := by rw [hentry]; rfl
    exact ⟨_, addFeedback_duplicate h ts hecn hsome⟩
  | none =>
    have hfilled : Filled h.reportBlocks := fun ssrc rb hrb => (hblocks ssrc rb hrb).1
    have hlacks : ∀ rb ∈ (h.withEntry ssrc seq ts ecn).toList, rb.2 ≠ ∅ ∧ Lacks rb.2 := fun rb hrb =>
      ⟨withEntry_filled hfilled ssrc seq ts ecn rb hrb,
        withEntry_lacks (fun ssrc rb hrb => (hblocks ssrc rb hrb).lacks) (not_fills hblocks ssrc seq)
          (mem_toList.mp hrb)⟩
    rw [addFeedback_new hfilled ts hecn hentry, addBlockWords_lacks hlacks, ok_bind]
    split
    · exact ⟨_, rfl⟩
    · exact ⟨_, rfl⟩

private theorem addFeedback_fills {h : CCFeedbackHeader} (hfilled : Filled h.reportBlocks) {ssrc : UInt32}
    {seq : UInt16} (ts : UInt64) {ecn : UInt8} (hecn : ecn ≤ 3) (hnew : lookup? h.reportBlocks ssrc seq = none)
    (hfills : h.Fills ssrc seq) : h.addFeedback ssrc seq ts ecn = .error .assertion := by
  rw [addFeedback_new hfilled ts hecn hnew,
    addBlockWords_full (withEntry_filled hfilled ssrc seq ts ecn) (withEntry_full hfills)]
  rfl

private theorem returns_queries_iff {h : CCFeedbackHeader} :
    ((∀ ssrc ∈ h.getSsrcList, Returns (h.getMetricList ssrc)) ∧
        ∀ ssrc seq ts ecn, Returns (h.addFeedback ssrc seq ts ecn)) ↔
      ∀ (ssrc : UInt32) (rb : ReportBlock), h.reportBlocks[ssrc]? = some rb → Answerable rb := by
  have hmem {ssrc : UInt32} : ssrc ∈ h.getSsrcList ↔ ∃ rb, h.reportBlocks[ssrc]? = some rb := by
    rw [getSsrcList, Std.ExtTreeMap.mem_keys, Std.ExtTreeMap.mem_iff_isSome_getElem?, Option.isSome_iff_exists]
  constructor
  · rintro ⟨hlists, hadds⟩
    have hlist {ssrc : UInt32} {rb : ReportBlock} (hrb : h.reportBlocks[ssrc]? = some rb) : rb ≠ ∅ ∧ Lacks rb :=
      (returns_getMetricList hrb).mp (hlists ssrc (hmem.mpr ⟨rb, hrb⟩))
    intro ssrc rb hrb
    obtain ⟨hne, seq, hseq⟩ := hlist hrb
    refine ⟨hne, by_contra fun hnot => ?_⟩
    -- The one number that is missing cannot be added.
    have hothers {other : UInt16} (hother : seq ≠ other) : other ∈ rb :=
      by_contra fun hlacks => hnot ⟨seq, other, hother, hseq, hlacks⟩
    have hnew : lookup? h.reportBlocks ssrc seq = none := by
      rw [lookup?_eq, hrb, Option.bind_some, Std.ExtTreeMap.getElem?_eq_none hseq]
    have hfills : h.Fills ssrc seq := by
      intro other
      by_cases hs : seq = other
      · exact .inl hs
      · refine .inr ?_
        rw [lookup?_eq, hrb, Option.bind_some, Std.ExtTreeMap.isSome_getElem?_iff_mem]
        exact hothers hs
    obtain ⟨result, hok⟩ := hadds ssrc seq 0 0
    rw [addFeedback_fills (fun ssrc rb hrb => (hlist hrb).1) 0 (by decide) hnew hfills] at hok
    cases hok
  · intro hblocks
    refine ⟨fun ssrc hssrc => ?_, returns_addFeedback hblocks⟩
    obtain ⟨rb, hrb⟩ := hmem.mp hssrc
    exact (returns_getMetricList hrb).mpr ⟨(hblocks ssrc rb hrb).1, (hblocks ssrc rb hrb).lacks⟩

/-- The questions to a header that has been read: its SSRCs are those of the report blocks, the
list of each of them has the packets that were received, once each, and more can be added. -/
structure Answers (blocks : List WireBlock) (ntpRef : UInt32) (h : CCFeedbackHeader) : Prop where
  ssrcs : ∀ ssrc, ssrc ∈ h.getSsrcList ↔ ∃ b ∈ blocks, b.ssrc = ssrc
  metrics : ∀ ssrc ∈ h.getSsrcList, ∃ rv, h.getMetricList ssrc = .ok (some rv) ∧ (rv.map Prod.fst).Nodup ∧
    ∀ seq mb, (seq, mb) ∈ rv ↔ (received ssrc seq blocks).map (reported ntpRef) = some mb
  adds : ∀ ssrc seq ts ecn, Returns (h.addFeedback ssrc seq ts ecn)

/-- Report blocks that tell, for each of their SSRCs, of some number as received and of two not. -/
def SomeReceived (blocks : List WireBlock) : Prop :=
  ∀ b ∈ blocks, (∃ seq, (received b.ssrc seq blocks).isSome) ∧
    ∃ seq seq', seq ≠ seq' ∧ received b.ssrc seq blocks = none ∧ received b.ssrc seq' blocks = none

private theorem Reported.isSome_received {blocks : List WireBlock} {ntpRef : UInt32} {h : CCFeedbackHeader}
    (hreported : Reported blocks ntpRef h) {ssrc : UInt32} {rb : ReportBlock}
    (hrb : h.reportBlocks[ssrc]? = some rb) (seq : UInt16) : (received ssrc seq blocks).isSome ↔ seq ∈ rb := by
  have hentry := hreported.entries ssrc seq
  rw [lookup?_eq, hrb, Option.bind_some] at hentry
  rw [Std.ExtTreeMap.mem_iff_isSome_getElem?, hentry, Option.isSome_map]

private theorem Reported.answerable_iff {blocks : List WireBlock} {ntpRef : UInt32} {h : CCFeedbackHeader}
    (hreported : Reported blocks ntpRef h) :
    (∀ (ssrc : UInt32) (rb : ReportBlock), h.reportBlocks[ssrc]? = some rb → Answerable rb) ↔
      SomeReceived blocks := by
  have hblock {ssrc : UInt32} {rb : ReportBlock} (hrb : h.reportBlocks[ssrc]? = some rb) : Answerable rb ↔
      (∃ seq, (received ssrc seq blocks).isSome) ∧
        ∃ seq seq', seq ≠ seq' ∧ received ssrc seq blocks = none ∧ received ssrc seq' blocks = none := by
    have hsome := hreported.isSome_received hrb
    have hnone (seq : UInt16) : received ssrc seq blocks = none ↔ seq ∉ rb := by
      rw [← hsome, Option.not_isSome_iff_eq_none]
    have hne : rb ≠ ∅ ↔ ∃ seq, seq ∈ rb := by
      rw [ne_eq, Std.ExtTreeMap.eq_empty_iff_forall_not_mem, not_forall]
      simp only [not_not]
    simp only [Answerable, hne, hsome, hnone]
  constructor
  · intro hall b hb
    have hmem : b.ssrc ∈ h.reportBlocks := (hreported.ssrcs b.ssrc).mpr ⟨b, hb, rfl⟩
    obtain ⟨rb, hrb⟩ := Option.isSome_iff_exists.mp (Std.ExtTreeMap.isSome_getElem?_iff_mem.mpr hmem)
    exact (hblock hrb).mp (hall b.ssrc rb hrb)
  · intro hall ssrc rb hrb
    have hmem : ssrc ∈ h.reportBlocks := by
      rw [Std.ExtTreeMap.mem_iff_isSome_getElem?, hrb]
      rfl
    obtain ⟨b, hb, rfl⟩ := (hreported.ssrcs ssrc).mp hmem
    exact (hblock hrb).mpr (hall b hb)

private theorem Reported.answers_iff {blocks : List WireBlock} {ntpRef : UInt32} {h : CCFeedbackHeader}
    (hreported : Reported blocks ntpRef h) : Answers blocks ntpRef h ↔ SomeReceived blocks := by
  rw [← hreported.answerable_iff, ← returns_queries_iff]
  constructor
  · intro hanswers
    refine ⟨fun ssrc hssrc => ?_, hanswers.adds⟩
    obtain ⟨rv, hok, -⟩ := hanswers.metrics ssrc hssrc
    exact ⟨some rv, hok⟩
  · rintro ⟨hlists, hadds⟩
    refine ⟨fun ssrc => ?_, fun ssrc hssrc => ?_, hadds⟩
    · rw [getSsrcList, Std.ExtTreeMap.mem_keys]
      exact hreported.ssrcs ssrc
    · have hmem : ssrc ∈ h.reportBlocks := by rwa [getSsrcList, Std.ExtTreeMap.mem_keys] at hssrc
      obtain ⟨rb, hrb⟩ := Option.isSome_iff_exists.mp (Std.ExtTreeMap.isSome_getElem?_iff_mem.mpr hmem)
      obtain ⟨hne, hlacks⟩ := (returns_getMetricList hrb).mp (hlists ssrc hssrc)
      obtain ⟨beginSeq, rv, hok, hrv⟩ := getMetricList_lists hrb hne hlacks
      refine ⟨rv, hok, ?_, fun seq mb => ?_⟩
      · exact List.pairwise_map.mpr (hrv.ordered.imp fun hlt he => absurd hlt (by rw [he]; exact lt_irrefl _))
      · have hentry := hreported.entries ssrc seq
        rw [lookup?_eq, hrb, Option.bind_some] at hentry
        rw [hrv.entries, hentry]

/-- A packet that is accepted has one layout. The questions to its header can all be answered
exactly when each of its report blocks has an SSRC with some packets received and two not. -/
theorem deserialize_answers_iff {start rest : Octets} {n : UInt32} {h : CCFeedbackHeader}
    (hread : fresh.deserialize start = .ok (n, h, rest)) :
    ∃ blocks ntpRef, Layout start blocks ntpRef rest ∧
      (∀ blocks' ntpRef', Layout start blocks' ntpRef' rest → blocks' = blocks ∧ ntpRef' = ntpRef) ∧
      (Answers blocks ntpRef h ↔ SomeReceived blocks) := by
  obtain ⟨blocks, ntpRef, hlayout, hreported⟩ := deserialize_reported hread
  exact ⟨blocks, ntpRef, hlayout, fun blocks' ntpRef' hlayout' => hlayout'.unique hlayout, hreported.answers_iff⟩

/-- One of two packets of SSRC 7 was received. -/
theorem deserialize_answers_iff_one_of_two :
    ∃ n h, fresh.deserialize [0x8f, 205, 0, 5, 0, 0, 0, 1, 0, 0, 0, 7, 0, 1, 0, 2, 0x80, 0, 0, 0, 0, 1, 0, 0] =
        .ok (n, h, []) ∧
      Answers [⟨7, 1, [(0x80, 0), (0, 0)], [], by decide, by decide, rfl⟩] 65536 h := by
  have hrun : (fresh.deserialize [0x8f, 205, 0, 5, 0, 0, 0, 1, 0, 0, 0, 7, 0, 1, 0, 2, 0x80, 0, 0, 0, 0, 1, 0, 0]).map
      (fun read => read.2.2) = .ok [] := by decide +kernel
  obtain ⟨⟨n, h, rest⟩, hread, hrest⟩ := map_eq_ok.mp hrun
  obtain rfl : rest = [] := hrest
  obtain ⟨blocks, ntpRef, -, hunique, hanswers⟩ := deserialize_answers_iff hread
  obtain ⟨rfl, rfl⟩ := hunique [⟨7, 1, [(0x80, 0), (0, 0)], [], by decide, by decide, rfl⟩] 65536
    ⟨by decide, by decide⟩
  refine ⟨n, h, hread, hanswers.mpr fun b hb => ?_⟩
  obtain rfl := List.mem_singleton.mp hb
  exact ⟨⟨1, by decide⟩, 5, 6, by decide, by decide, by decide⟩

/-- Both packets of SSRC 7 are lost. The header has an empty block for it, of which no list can be
had, and nothing more can be added. -/
theorem deserialize_all_lost :
    ∃ n h, fresh.deserialize [0x8f, 205, 0, 5, 0, 0, 0, 1, 0, 0, 0, 7, 0, 1, 0, 2, 0, 0, 0, 0, 0, 1, 0, 0] =
        .ok (n, h, []) ∧
      7 ∈ h.getSsrcList ∧ h.getMetricList 7 = .error .assertion ∧ h.addFeedback 9 1 1000 0 = .error .assertion ∧
      ∀ blocks ntpRef, ¬ Answers blocks ntpRef h := by
  have hrun : (fresh.deserialize [0x8f, 205, 0, 5, 0, 0, 0, 1, 0, 0, 0, 7, 0, 1, 0, 2, 0, 0, 0, 0, 0, 1, 0, 0]).map
      (fun read => (read.2.2, decide (7 ∈ read.2.1.getSsrcList), decide (read.2.1.getMetricList 7 = .error .assertion),
        (read.2.1.addFeedback 9 1 1000 0).map fun _ => ())) = .ok ([], true, true, .error .assertion) := by
    decide +kernel
  obtain ⟨⟨n, h, rest⟩, hread, hfacts⟩ := map_eq_ok.mp hrun
  simp only [Prod.mk.injEq, decide_eq_true_eq] at hfacts
  obtain ⟨rfl, hssrc, hlist, hadd⟩ := hfacts
  refine ⟨n, h, hread, hssrc, hlist, ?_, fun blocks ntpRef hanswers => ?_⟩
  · cases hcall : h.addFeedback 9 1 1000 0 with
    | error fault =>
      rw [hcall] at hadd
      exact congrArg _ (Except.error.inj hadd)
    | ok result =>
      rw [hcall] at hadd
      cases hadd
  · obtain ⟨rv, hok, -⟩ := hanswers.metrics 7 hssrc
    rw [hlist] at hok
    cases hok

end CCFeedbackHeader

end Ns3Rmcat.Header
