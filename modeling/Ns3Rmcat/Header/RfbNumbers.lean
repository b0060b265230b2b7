import Ns3Rmcat.Header.RfbRoundTrip

/-! The numbers of one stream that a header tells, and their count. Whenever a report of one
stream can be read at all, it tells the numbers that were recorded, whatever their times are. -/
namespace Ns3Rmcat.Header
open Lib

private theorem SeqHalf.Spans.congr {half half' : SeqHalf} {seqs seqs' : List UInt16} (h : half.Spans seqs)
    (h' : half'.Spans seqs') (hsame : ∀ seq, seq ∈ seqs ↔ seq ∈ seqs') :
    half.lo = half'.lo ∧ half.hi = half'.hi ∧ (half.count = 0 ↔ half'.count = 0) := by
  by_cases hnil : seqs = []
  · have hnil' : seqs' = [] := by
      apply List.eq_nil_iff_forall_not_mem.mpr
      intro seq hseq
      rw [← hsame, hnil] at hseq
      cases hseq
    rw [h.empty hnil, h'.empty hnil']
    simp
  · have hnil' : seqs' ≠ [] := by
      obtain ⟨seq, hseq⟩ := List.exists_mem_of_ne_nil seqs hnil
      exact List.ne_nil_of_mem ((hsame seq).mp hseq)
    obtain ⟨⟨lo, hlo, helo⟩, hi, hhi, hehi⟩ := h.attained hnil
    obtain ⟨⟨lo', hlo', helo'⟩, hi', hhi', hehi'⟩ := h'.attained hnil'
    have h1 := h'.within lo ((hsame lo).mp hlo)
    have h2 := h'.within hi ((hsame hi).mp hhi)
    have h3 := h.within lo' ((hsame lo').mpr hlo')
    have h4 := h.within hi' ((hsame hi').mpr hhi')
    refine ⟨by omega, by omega, ?_⟩
    rw [h.count, h'.count, List.length_eq_zero_iff, List.length_eq_zero_iff]
    simp [hnil, hnil']

private theorem windowBounds_congr {seqs seqs' : List UInt16} (hsame : ∀ seq, seq ∈ seqs ↔ seq ∈ seqs') :
    windowBounds seqs = windowBounds seqs' := by
  obtain ⟨hfront, hrear⟩ := splitHalves_spans seqs
  obtain ⟨hfront', hrear'⟩ := splitHalves_spans seqs'
  obtain ⟨hflo, hfhi, hfcount⟩ := hfront.congr hfront' (by simp [frontSeqs, hsame])
  obtain ⟨hrlo, hrhi, hrcount⟩ := hrear.congr hrear' (by simp [rearSeqs, hsame])
  simp only [windowBounds, hflo, hfhi, hfcount, hrlo, hrhi, hrcount]

/-- The places of the window of some numbers, as their count is stored. -/
def placesOf (seqs : List UInt16) : ℕ := ((windowBounds seqs).2 - (windowBounds seqs).1 + 1).toNat % 65536

private theorem placesOf_keys {rb : RfbReportBlock} {seqs : List UInt16} (h : ∀ seq, seq ∈ rb ↔ seq ∈ seqs) :
    placesOf seqs = windowSize rb % 65536 := by
  have hsame : windowBounds rb.keys = windowBounds seqs := by
    apply windowBounds_congr
    intro seq
    rw [Std.ExtTreeMap.mem_keys, h]
  rw [placesOf, windowSize, hsame]

namespace RfbHeader

/-- A header that tells some numbers of one stream, and nothing else. -/
structure Tells (ssrc : UInt32) (seqs : List UInt16) (h : RfbHeader) : Prop where
  tidy : Tidy h
  entries : ∀ ssrc' seq, (lookup? h.reportBlocks ssrc' seq).isSome ↔ ssrc' = ssrc ∧ seq ∈ seqs

private theorem isSome_addFeedback (h : RfbHeader) (ssrc ssrc' : UInt32) (seq seq' : UInt16) (ts : UInt64) {ecn : UInt8}
    (hecn : ecn ≤ 3) : (lookup? (h.addFeedback ssrc seq ts ecn).2.reportBlocks ssrc' seq').isSome ↔
      (lookup? h.reportBlocks ssrc' seq').isSome ∨ (ssrc' = ssrc ∧ seq' = seq) := by
  rcases h.addFeedback_cases ssrc seq ts ecn with ⟨hbad, -⟩ | ⟨-, hold, he⟩ | ⟨-, -, he⟩
  · exact absurd hecn (UInt8.not_le.mpr hbad)
  · rw [he, iff_self_or]
    rintro ⟨rfl, rfl⟩
    exact hold
  · rw [he, update_snd]
    simp only [withEntry, lookup?_recordEntry]
    by_cases hk : ssrc = ssrc' ∧ seq = seq'
    · simp [hk]
    · rw [if_neg hk, iff_self_or]
      rintro ⟨rfl, rfl⟩
      exact absurd ⟨rfl, rfl⟩ hk

section Tells
variable {ssrc : UInt32} {seqs : List UInt16} {h : RfbHeader}

private theorem Tells.addFeedback (hh : Tells ssrc seqs h) (seq : UInt16) (ts : UInt64) :
    Tells ssrc (seqs ++ [seq]) (h.addFeedback ssrc seq ts 0).2 where
  tidy := hh.tidy.addFeedback ssrc seq ts 0
  entries ssrc' seq' := by
    rw [isSome_addFeedback h ssrc ssrc' seq seq' ts UInt8.zero_le, hh.entries]
    simp [and_or_left]

private theorem Tells.clean (hh : Tells ssrc seqs h) : Tells ssrc [] h.cleanReportBlocks where
  tidy := hh.tidy.clean
  entries ssrc' seq := by
    rw [cleanReportBlocks, update_snd]
    simp [lookup?]

private theorem Tells.toList (hh : Tells ssrc seqs h) :
    (seqs = [] ∧ h.reportBlocks.toList = []) ∨
      ∃ rb, h.reportBlocks.toList = [(ssrc, rb)] ∧ h.reportBlocks[ssrc]? = some rb ∧ ∀ seq, seq ∈ rb ↔ seq ∈ seqs := by
  have hkeys : ∀ k ∈ h.reportBlocks.keys, k = ssrc := by
    intro k hk
    by_contra hne
    refine hh.tidy.filled.notMem (k := k) (fun seq => ?_) (Std.ExtTreeMap.mem_keys.mp hk)
    rw [← Option.not_isSome_iff_eq_none, hh.entries]
    exact fun hentry => hne hentry.1
  have hnodup : h.reportBlocks.keys.Nodup := Std.ExtTreeMap.nodup_keys
  rw [List.eq_replicate_of_mem hkeys, List.nodup_replicate, Std.ExtTreeMap.length_keys,
    ← Std.ExtTreeMap.length_toList] at hnodup
  cases hblocks : h.reportBlocks.toList with
  | nil =>
    refine .inl ⟨List.eq_nil_iff_forall_not_mem.mpr fun seq hseq => ?_, rfl⟩
    have hsome := (hh.entries ssrc seq).mpr ⟨rfl, hseq⟩
    rw [Std.ExtTreeMap.toList_eq_nil_iff.mp hblocks] at hsome
    simp [lookup?] at hsome
  | cons first rest =>
    obtain ⟨k, rb⟩ := first
    have hrest : rest = [] := by
      rw [hblocks, List.length_cons] at hnodup
      exact List.eq_nil_of_length_eq_zero (by omega)
    have hrb : h.reportBlocks[k]? = some rb := mem_toList.mp (by rw [hblocks]; exact List.mem_cons_self)
    obtain rfl : k = ssrc := by
      apply hkeys
      rw [Std.ExtTreeMap.mem_keys, ← Std.ExtTreeMap.isSome_getElem?_iff_mem, hrb]
      rfl
    refine .inr ⟨rb, by rw [hrest], hrb, fun seq => ?_⟩
    rw [← Std.ExtTreeMap.isSome_getElem?_iff_mem]
    have hentry := hh.entries k seq
    rw [lookup?_eq, hrb, Option.bind_some] at hentry
    simpa using hentry

private theorem Tells.getTotalReportCount (hh : Tells ssrc seqs h) :
    ∃ count, h.getTotalReportCount = .ok count ∧ count.toNat = placesOf seqs := by
  have hlength : 3 ≤ h.common.length := UInt16.le_iff_toNat_le.mpr hh.tidy.length.1
  rw [RfbHeader.getTotalReportCount, check_of hlength, ok_bind, ← Std.ExtTreeMap.map_fst_toList_eq_keys]
  refine ⟨_, rfl, ?_⟩
  rcases hh.toList with ⟨rfl, hblocks⟩ | ⟨rb, hblocks, hrb, hseqs⟩
  · rw [hblocks]
    rfl
  · have hne := hh.tidy.filled ssrc rb hrb
    rw [hblocks, placesOf_keys hseqs]
    simp only [List.map_cons, List.map_nil, List.foldl_cons, List.foldl_nil, hh.tidy.getCountEndSeq hrb,
      calcCountEndSeq_eq hne]
    simp

end Tells

section Reading
variable {ssrc : UInt32} {seqs : List UInt16} {h g g' : RfbHeader} {left rest : Octets}

private theorem metricOf_fits {mb : RfbMetricBlock} {metric : Option (UInt8 × UInt16)}
    (hmetric : h.metricOf (some mb) = .ok metric) :
    ∃ ecn ato, metric = some (ecn, ato) ∧ MetricFits (some (ecn, ato)) := by
  obtain ⟨hecn, hrest⟩ := check_bind_eq_ok.mp hmetric
  obtain ⟨ato, -, hrest⟩ := bind_eq_ok.mp hrest
  obtain ⟨hato, hrest⟩ := check_bind_eq_ok.mp hrest
  cases hrest
  exact ⟨mb.ecn, ato, rfl, hecn, hato⟩

private theorem deserializeMetrics_tells {rb : RfbReportBlock} {metrics : Octets} (hg : Tidy g)
    (hmetrics : h.serializeMetrics rb seqs = .ok metrics)
    (hread : deserializeMetrics ssrc seqs g (metrics ++ rest) = .ok (g', left)) :
    left = rest ∧ Tidy g' ∧ ∀ ssrc' seq, (lookup? g'.reportBlocks ssrc' seq).isSome ↔
      (lookup? g.reportBlocks ssrc' seq).isSome ∨ (ssrc' = ssrc ∧ seq ∈ seqs ∧ seq ∈ rb) := by
  induction seqs generalizing g metrics with
  | nil =>
    cases hmetrics
    cases hread
    exact ⟨rfl, hg, by simp⟩
  | cons seq seqs ih =>
    obtain ⟨metric, hmetric, hmetrics⟩ := bind_eq_ok.mp hmetrics
    obtain ⟨more, hmore, he⟩ := bind_eq_ok.mp hmetrics
    cases he
    rw [List.append_assoc] at hread
    cases hmb : rb[seq]? with
    | none =>
      rw [hmb] at hmetric
      cases hmetric
      rw [deserializeMetrics_none] at hread
      obtain ⟨hleft, htidy, hentries⟩ := ih hg hmore hread
      refine ⟨hleft, htidy, fun ssrc' seq' => ?_⟩
      have hnot : seq ∉ rb := by
        rw [← Std.ExtTreeMap.isSome_getElem?_iff_mem, hmb]
        simp
      rw [hentries]
      refine or_congr_right (and_congr_right fun _ => and_congr_left fun hin => ?_)
      have hne : seq' ≠ seq := fun he => hnot (he ▸ hin)
      simp [hne]
    | some mb =>
      rw [hmb] at hmetric
      obtain ⟨ecn, ato, rfl, hfits⟩ := metricOf_fits hmetric
      rw [deserializeMetrics_some hfits] at hread
      obtain ⟨ts, -, hread⟩ := bind_eq_ok.mp hread
      obtain ⟨hleft, htidy, hentries⟩ := ih (hg.addFeedback ssrc seq ts ecn) hmore hread
      refine ⟨hleft, htidy, fun ssrc' seq' => ?_⟩
      have hin : seq ∈ rb := by
        rw [← Std.ExtTreeMap.isSome_getElem?_iff_mem, hmb]
        rfl
      rw [hentries, isSome_addFeedback g ssrc ssrc' seq seq' ts hfits.1, or_assoc]
      refine or_congr_right ?_
      constructor
      · rintro (⟨rfl, rfl⟩ | ⟨rfl, hseq', hin'⟩)
        · exact ⟨rfl, by simp, hin⟩
        · exact ⟨rfl, by simp [hseq'], hin'⟩
      · rintro ⟨rfl, hseq', hin'⟩
        rcases List.mem_cons.mp hseq' with rfl | hseq'
        · exact .inl ⟨rfl, rfl⟩
        · exact .inr ⟨rfl, hseq', hin'⟩

private theorem length_readU8 {start left : Octets} {v : UInt8} (hread : readU8 start = .ok (v, left)) :
    start.length = left.length + 1 := by
  cases start with
  | nil => cases hread
  | cons b start =>
    cases hread
    rfl

private theorem length_readNtohU16 {start left : Octets} {v : UInt16} (hread : readNtohU16 start = .ok (v, left)) :
    start.length = left.length + 2 := by
  obtain ⟨⟨hi, start1⟩, h1, hread⟩ := bind_eq_ok.mp hread
  obtain ⟨⟨lo, start2⟩, h2, he⟩ := bind_eq_ok.mp hread
  cases he
  have hhi := length_readU8 h1
  have hlo := length_readU8 h2
  omega

private theorem deserializeBlocks_short {rounds : Nat} {lenLeft : UInt64} {start : Octets} (hshort : start.length < 4)
    (hread : deserializeBlocks rounds lenLeft g start = .ok (g', left)) : g' = g := by
  cases rounds with
  | zero => cases hread
  | succ rounds =>
    rw [deserializeBlocks] at hread
    split at hread
    · cases hread
      rfl
    · obtain ⟨-, hread⟩ := check_bind_eq_ok.mp hread
      obtain ⟨⟨ssrc, start1⟩, hssrc, -⟩ := bind_eq_ok.mp hread
      obtain ⟨⟨hi, start2⟩, h1, hssrc⟩ := bind_eq_ok.mp hssrc
      obtain ⟨⟨lo, start3⟩, h2, -⟩ := bind_eq_ok.mp hssrc
      have hhi := length_readNtohU16 h1
      have hlo := length_readNtohU16 h2
      omega

private theorem tells_opened (ht : Tidy h) (ssrc : UInt32) (reportTimeMs : UInt64) :
    Tells ssrc [] ((opened h).setReportTime reportTimeMs) where
  tidy := (tidy_opened ht).apply (.setReportTime reportTimeMs)
  entries := by simp [setReportTime, opened, fresh, lookup?]

/-- The one block of a report, when it can be read, tells its numbers, unless there are as many
places as there are numbers and the count is stored as zero. -/
private theorem deserializeBlocks_tells {rb : RfbReportBlock} {rounds : Nat} {lenLeft : UInt64} {blocks : Octets}
    (hg : Tells ssrc [] g) (hstored : h.getCountEndSeq ssrc = calcCountEndSeq rb) (hne : rb ≠ ∅)
    (hblocks : h.serializeBlocks [(ssrc, rb)] = .ok blocks) (hlenLeft : lenLeft ≠ 0)
    (hread : deserializeBlocks rounds lenLeft g blocks = .ok (g', left)) :
    ∃ count, g'.getTotalReportCount = .ok count ∧ count.toNat = windowSize rb % 65536 := by
  obtain ⟨metrics, hmetrics, hrest⟩ := bind_eq_ok.mp hblocks
  cases hrest
  rw [hstored] at hread hmetrics
  have hcount : (calcCountEndSeq rb).1.toNat = windowSize rb % 65536 := by
    rw [calcCountEndSeq_eq hne]
    simp
  cases rounds with
  | zero => cases hread
  | succ rounds =>
    rw [deserializeBlocks, if_neg hlenLeft] at hread
    obtain ⟨-, hread⟩ := check_bind_eq_ok.mp hread
    simp only [readNtohU32_write, readNtohU16_write, ok_bind] at hread
    have hpadding : (paddingOf (calcCountEndSeq rb).1 ++ []).length < 4 := by
      rw [List.append_nil, length_paddingOf]
      omega
    rw [window_count] at hread
    split at hread
    · rename_i hzero
      have hnone := length_writeMetrics hmetrics
      rw [length_windowSeqs, hzero] at hnone
      rw [List.eq_nil_of_length_eq_zero hnone, List.nil_append] at hread
      obtain rfl := deserializeBlocks_short hpadding hread
      rw [hzero] at hcount
      rw [← hcount]
      exact hg.getTotalReportCount
    · rename_i hcount0
      obtain ⟨⟨g1, start⟩, hmetricsRead, hread⟩ := bind_eq_ok.mp hread
      obtain ⟨rfl, htidy, hentries⟩ := deserializeMetrics_tells hg.tidy hmetrics hmetricsRead
      obtain rfl := deserializeBlocks_short hpadding hread
      have hsize : windowSize rb < 65536 := by
        obtain ⟨-, -, hspan, -⟩ := windowBounds_cover (keys_ne_nil hne)
        have hzero : windowSize rb % 65536 ≠ 0 := by
          rw [← hcount]
          exact fun h0 => hcount0 (UInt16.toNat_inj.mp h0)
        rw [windowSize] at hzero ⊢
        omega
      have htells : Tells ssrc rb.keys g' := by
        refine ⟨htidy, fun ssrc' seq => ?_⟩
        rw [hentries, hg.entries, Std.ExtTreeMap.mem_keys]
        constructor
        · rintro (⟨-, hnil⟩ | ⟨rfl, -, hseq⟩)
          · cases hnil
          · exact ⟨rfl, hseq⟩
        · rintro ⟨rfl, hseq⟩
          exact .inr ⟨rfl, mem_windowSeqs hsize hseq, hseq⟩
      rw [← placesOf_keys fun seq => Std.ExtTreeMap.mem_keys.symm]
      exact htells.getTotalReportCount

/-- A report that can be read, of a header with its length stored, has the count of the numbers
that were told. -/
theorem Tells.count_of_read (hh : Tells ssrc seqs h) (hstored : seqs ≠ [] → 5 ≤ h.common.length.toNat)
    {bytes : Octets} {n : UInt32} (hbytes : h.serialize = .ok bytes)
    (hread : fresh.deserialize bytes = .ok (n, g, left)) :
    ∃ count, g.getTotalReportCount = .ok count ∧ count.toNat = placesOf seqs := by
  obtain ⟨blocks, hblocks⟩ : ∃ blocks, h.serializeBlocks h.reportBlocks.toList = .ok blocks := by
    obtain ⟨-, hrest⟩ := check_bind_eq_ok.mp hbytes
    obtain ⟨common, -, hrest⟩ := bind_eq_ok.mp hrest
    obtain ⟨blocks, hblocks, -⟩ := bind_eq_ok.mp hrest
    exact ⟨blocks, hblocks⟩
  obtain ⟨common, hbytes', -, hdeserialize⟩ := hh.tidy.deserialize_eq hblocks
  cases hbytes.symm.trans hbytes'
  have hopened := tells_opened hh.tidy ssrc h.reportTimeMs.toUInt32.toUInt64
  have hblocksRead := hdeserialize []
  rw [List.append_nil, hread] at hblocksRead
  obtain ⟨⟨g1, start⟩, hblocksRead, hsize⟩ := bind_eq_ok.mp hblocksRead.symm
  obtain ⟨m, -, he⟩ := bind_eq_ok.mp hsize
  cases he
  rcases hh.toList with ⟨rfl, hnil⟩ | ⟨rb, hone, hrb, hseqs⟩
  · rw [hnil] at hblocks
    cases hblocks
    obtain rfl := deserializeBlocks_short (by simp) hblocksRead
    exact hopened.getTotalReportCount
  · have hne := hh.tidy.filled ssrc rb hrb
    have hlenLeft : 4 * (h.common.length.toUInt64 + 1) - 20 ≠ 0 := by
      obtain ⟨seq, hseq⟩ := List.exists_mem_of_ne_nil _ (keys_ne_nil hne)
      have hlen := hstored (List.ne_nil_of_mem ((hseqs seq).mp (Std.ExtTreeMap.mem_keys.mp hseq)))
      have hlt := h.common.length.toNat_lt
      intro hzero
      have hnat := congrArg UInt64.toNat hzero
      simp only [UInt64.toNat_sub, UInt64.toNat_mul, UInt64.toNat_add, UInt16.toNat_toUInt64,
        UInt64.reduceToNat] at hnat
      omega
    rw [hone] at hblocks
    rw [placesOf_keys hseqs]
    exact deserializeBlocks_tells hopened (hh.tidy.getCountEndSeq hrb) hne hblocks hlenLeft hblocksRead

end Reading

/-- A header that is being filled: its length is stored once it has numbers. -/
structure Gathered (ssrc : UInt32) (seqs : List UInt16) (h : RfbHeader) : Prop extends Tells ssrc seqs h where
  length : seqs ≠ [] → 5 ≤ h.common.length.toNat

section Gathered
variable {ssrc : UInt32} {seqs : List UInt16} {h g : RfbHeader}

private theorem placesOf_singleton (seq : UInt16) : placesOf [seq] = 1 := by
  rw [placesOf, windowBounds_singleton]
  simp

private theorem Tells.encodedLen (hh : Tells ssrc seqs h) (hne : seqs ≠ []) :
    encodedLen h.reportBlocks = 20 + blockLen (placesOf seqs) := by
  rcases hh.toList with ⟨hnil, -⟩ | ⟨rb, hblocks, hrb, hseqs⟩
  · exact absurd hnil hne
  · have hcount : (calcCountEndSeq rb).1.toNat = windowSize rb % 65536 := by
      rw [calcCountEndSeq_eq (hh.tidy.filled ssrc rb hrb)]
      simp
    rw [Header.encodedLen, hblocks, placesOf_keys hseqs, ← hcount]
    simp

/-- The first number always has room, so that a length is stored from then on. -/
theorem Gathered.addFeedback (hh : Gathered ssrc seqs h) (seq : UInt16) (ts : UInt64) :
    Gathered ssrc (seqs ++ [seq]) (h.addFeedback ssrc seq ts 0).2 := by
  have htells := hh.toTells.addFeedback seq ts
  refine ⟨htells, fun _ => ?_⟩
  have hlen := htells.encodedLen (by simp)
  rcases h.addFeedback_cases ssrc seq ts 0 with ⟨hbad, -⟩ | ⟨-, hold, he⟩ | ⟨-, -, he⟩
  · exact absurd hbad (by decide)
  · rw [he]
    exact hh.length (List.ne_nil_of_mem ((hh.entries ssrc seq).mp hold).2)
  · rw [he] at hlen ⊢
    rw [update_snd] at hlen ⊢
    dsimp only at hlen ⊢
    split
    · rename_i hfits
      have hfour := four_mul_lengthField hfits (encodedLen_ge _) (encodedLen_mod_four _)
      rw [hlen, blockLen] at hfour
      rw [hlen]
      rw [blockLen]
      omega
    · rename_i hlong
      refine hh.length fun hnil => hlong ?_
      rw [hlen, hnil, List.nil_append, placesOf_singleton]
      decide

theorem Gathered.clean (hh : Gathered ssrc seqs h) : Gathered ssrc [] h.cleanReportBlocks :=
  ⟨hh.toTells.clean, fun hne => absurd rfl hne⟩

/-- What the report blocks and the length are not about does not matter. -/
theorem Gathered.of_same (hh : Gathered ssrc seqs h) (htidy : Tidy g) (hblocks : g.reportBlocks = h.reportBlocks)
    (hlength : g.common.length = h.common.length) : Gathered ssrc seqs g where
  tidy := htidy
  entries := by
    rw [hblocks]
    exact hh.entries
  length := by
    rw [hlength]
    exact hh.length

end Gathered

end RfbHeader

end Ns3Rmcat.Header
