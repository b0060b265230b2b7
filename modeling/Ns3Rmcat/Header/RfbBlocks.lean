import Ns3Rmcat.Header.RfbSize

/-! Reading the octets of report blocks. The reader stays aligned with the writer as
long as no block is padded, since it counts the padding but does not read it. -/
namespace Ns3Rmcat.Header
open Lib

namespace RfbHeader

/-- A header that is being read has the report time and the other fields of the one that was
written; its length is that of the report blocks that it has, once it has any. -/
structure Reading (h g : RfbHeader) : Prop where
  tidy : Tidy g
  settled : g.reportBlocks ≠ ∅ → Settled g
  unread : g.reportBlocks = ∅ → g.common.length = h.common.length
  reportTimeMs : g.reportTimeMs = h.reportTimeMs
  fbSeq : g.fbSeq = h.fbSeq
  monitoredMs : g.monitoredMs = h.monitoredMs

private theorem Reading.addFeedback {h g : RfbHeader} (hg : Reading h g) {ssrc : UInt32} {seq : UInt16}
    (ts : UInt64) {ecn : UInt8} (hecn : ecn ≤ 3) (hnew : lookup? g.reportBlocks ssrc seq = none) :
    Reading h (g.addFeedback ssrc seq ts ecn).2 ∧
      (g.addFeedback ssrc seq ts ecn).2.reportBlocks = recordEntry g.reportBlocks ssrc seq ⟨ecn, ts⟩ := by
  rcases g.addFeedback_cases ssrc seq ts ecn with ⟨hbad, -⟩ | ⟨-, hold, -⟩ | ⟨-, -, he⟩
  · exact absurd hecn (UInt8.not_le.mpr hbad)
  · rw [hnew] at hold
    cases hold
  · rw [he]
    refine ⟨⟨hg.tidy.withEntry ssrc seq hecn, fun _ => settled_update _, fun hnil => ?_, ?_, ?_, ?_⟩, ?_⟩
    · rw [update_snd] at hnil
      exact absurd hnil Std.ExtTreeMap.insert_ne_empty
    · rw [update_snd]
      exact hg.reportTimeMs
    · rw [update_snd]
      exact hg.fbSeq
    · rw [update_snd]
      exact hg.monitoredMs
    · rw [update_snd]
      rfl

private theorem metricOf_some {h g : RfbHeader} {mb : RfbMetricBlock} (htime : g.reportTimeMs = h.reportTimeMs)
    (hecn : mb.ecn ≤ 3) (hle : mb.timestampMs.toNat ≤ h.reportTimeMs.toNat)
    (hge : h.reportTimeMs.toNat ≤ mb.timestampMs.toNat + 8191) :
    ∃ ato, h.metricOf (some mb) = .ok (some (mb.ecn, ato)) ∧ MetricFits (some (mb.ecn, ato)) ∧
      g.atoToTs ato = .ok mb.timestampMs := by
  have hsub : (h.reportTimeMs - mb.timestampMs).toNat = h.reportTimeMs.toNat - mb.timestampMs.toNat :=
    UInt64.toNat_sub_of_le _ _ (UInt64.le_iff_toNat_le.mpr hle)
  have hato : (h.reportTimeMs - mb.timestampMs).toUInt16.toNat =
      h.reportTimeMs.toNat - mb.timestampMs.toNat := by
    rw [UInt64.toNat_toUInt16, hsub]
    omega
  have hfits : (h.reportTimeMs - mb.timestampMs).toUInt16 ≤ 0x1fff := by
    rw [UInt16.le_iff_toNat_le, hato]
    simp only [UInt16.reduceToNat]
    omega
  refine ⟨(h.reportTimeMs - mb.timestampMs).toUInt16, ?_, ⟨hecn, hfits⟩, ?_⟩
  · rw [metricOf, check_of hecn, ok_bind, tsToAto, check_of (UInt64.le_iff_toNat_le.mpr hle), ok_bind,
      pure_eq_ok, ok_bind, check_of hfits]
    rfl
  · have hback : (h.reportTimeMs - mb.timestampMs).toUInt16.toUInt64.toNat =
        h.reportTimeMs.toNat - mb.timestampMs.toNat := by rw [UInt16.toNat_toUInt64, hato]
    have hle' : (h.reportTimeMs - mb.timestampMs).toUInt16.toUInt64 ≤ h.reportTimeMs := by
      rw [UInt64.le_iff_toNat_le, hback]
      omega
    rw [atoToTs, htime, check_of hle', ok_bind, pure_eq_ok]
    refine congrArg _ (UInt64.toNat_inj.mp ?_)
    rw [UInt64.toNat_sub_of_le _ _ hle', hback]
    omega

/-- One metric block is read as it was written. -/
theorem deserializeMetrics_none (ssrc : UInt32) (seq : UInt16) (seqs : List UInt16) (g : RfbHeader)
    (rest : Octets) :
    deserializeMetrics ssrc (seq :: seqs) g (metricOctets none ++ rest) =
      deserializeMetrics ssrc seqs g rest := by
  obtain ⟨octet1, octet2, hoctets, hparse⟩ := parseMetric_metricOctets (show MetricFits none from trivial)
  rw [hoctets, deserializeMetrics]
  simp only [List.cons_append, List.nil_append, readU8_cons, ok_bind, hparse]

theorem deserializeMetrics_some {ecn : UInt8} {ato : UInt16} (hfits : MetricFits (some (ecn, ato)))
    (ssrc : UInt32) (seq : UInt16) (seqs : List UInt16) (g : RfbHeader) (rest : Octets) :
    deserializeMetrics ssrc (seq :: seqs) g (metricOctets (some (ecn, ato)) ++ rest) =
      g.atoToTs ato >>= fun ts =>
        deserializeMetrics ssrc seqs (g.addFeedback ssrc seq ts ecn).2 rest := by
  obtain ⟨octet1, octet2, hoctets, hparse⟩ := parseMetric_metricOctets hfits
  rw [hoctets, deserializeMetrics]
  simp only [List.cons_append, List.nil_append, readU8_cons, ok_bind, hparse]

private theorem deserializeMetrics_serializeMetrics {h g : RfbHeader} {rb : RfbReportBlock} {ssrc : UInt32}
    {seqs : List UInt16} (hg : Reading h g) (hnodup : seqs.Nodup)
    (hecn : ∀ (seq : UInt16) (mb : RfbMetricBlock), rb[seq]? = some mb → mb.ecn ≤ 3)
    (hstamps : ∀ (seq : UInt16) (mb : RfbMetricBlock), rb[seq]? = some mb →
      mb.timestampMs.toNat ≤ h.reportTimeMs.toNat ∧ h.reportTimeMs.toNat ≤ mb.timestampMs.toNat + 8191)
    (hnew : ∀ seq ∈ seqs, lookup? g.reportBlocks ssrc seq = none) :
    ∃ bytes g', h.serializeMetrics rb seqs = .ok bytes ∧
      (∀ rest, deserializeMetrics ssrc seqs g (bytes ++ rest) = .ok (g', rest)) ∧ Reading h g' ∧
      ∀ ssrc' seq', lookup? g'.reportBlocks ssrc' seq' =
        if ssrc' = ssrc ∧ seq' ∈ seqs then rb[seq']? else lookup? g.reportBlocks ssrc' seq' := by
  induction seqs generalizing g with
  | nil => exact ⟨[], g, rfl, fun _ => rfl, hg, by simp⟩
  | cons seq seqs ih =>
    obtain ⟨hseq, hnodup⟩ := List.nodup_cons.mp hnodup
    cases hmb : rb[seq]? with
    | none =>
      obtain ⟨bytes, g', hbytes, hread, hg', hentries⟩ := ih hg hnodup fun s hs => hnew s (by simp [hs])
      refine ⟨metricOctets none ++ bytes, g', ?_, ?_, hg', ?_⟩
      · rw [serializeMetrics, writeMetrics, hmb, metricOf, ok_bind]
        rw [serializeMetrics] at hbytes
        rw [hbytes]
        rfl
      · intro rest
        rw [List.append_assoc, deserializeMetrics_none]
        exact hread rest
      · intro ssrc' seq'
        rw [hentries]
        by_cases hs : seq' = seq
        · subst hs
          by_cases hk : ssrc' = ssrc
          · subst hk
            simp [hseq, hmb, hnew seq' (by simp)]
          · simp [hk]
        · simp [hs]
    | some mb =>
      obtain ⟨hle, hge⟩ := hstamps seq mb hmb
      obtain ⟨ato, hmetric, hfits, hts⟩ := metricOf_some hg.reportTimeMs (hecn seq mb hmb) hle hge
      obtain ⟨hg1, hblocks⟩ := hg.addFeedback mb.timestampMs (hecn seq mb hmb) (hnew seq (by simp))
      have hentry (ssrc' : UInt32) (seq' : UInt16) :
          lookup? (g.addFeedback ssrc seq mb.timestampMs mb.ecn).2.reportBlocks ssrc' seq' =
            if ssrc = ssrc' ∧ seq = seq' then some mb else lookup? g.reportBlocks ssrc' seq' := by
        rw [hblocks, lookup?_recordEntry]
      have hnew1 : ∀ s ∈ seqs,
          lookup? (g.addFeedback ssrc seq mb.timestampMs mb.ecn).2.reportBlocks ssrc s = none := by
        intro s hs
        have hne : seq ≠ s := fun he => hseq (he ▸ hs)
        rw [hentry, if_neg (by simp [hne])]
        exact hnew s (by simp [hs])
      obtain ⟨bytes, g', hbytes, hread, hg', hentries⟩ := ih hg1 hnodup hnew1
      refine ⟨metricOctets (some (mb.ecn, ato)) ++ bytes, g', ?_, ?_, hg', ?_⟩
      · rw [serializeMetrics, writeMetrics, hmb, hmetric, ok_bind]
        rw [serializeMetrics] at hbytes
        rw [hbytes]
        rfl
      · intro rest
        rw [List.append_assoc, deserializeMetrics_some hfits]
        simp only [hts, ok_bind]
        exact hread rest
      · intro ssrc' seq'
        rw [hentries, hentry]
        by_cases hs : seq' = seq
        · subst hs
          by_cases hk : ssrc' = ssrc
          · subst hk
            simp [hseq, hmb]
          · simp [hk, Ne.symm hk]
        · simp [hs, Ne.symm hs]

/-- A report block that its count and last number describe, with times that can be sent. -/
structure Sendable (h : RfbHeader) (ssrc : UInt32) (rb : RfbReportBlock) : Prop where
  stored : h.getCountEndSeq ssrc = calcCountEndSeq rb
  nonempty : rb ≠ ∅
  size : windowSize rb < 65536
  ecn : ∀ (seq : UInt16) (mb : RfbMetricBlock), rb[seq]? = some mb → mb.ecn ≤ 3
  stamps : ∀ (seq : UInt16) (mb : RfbMetricBlock), rb[seq]? = some mb →
    mb.timestampMs.toNat ≤ h.reportTimeMs.toNat ∧ h.reportTimeMs.toNat ≤ mb.timestampMs.toNat + 8191

private theorem windowSize_pos {rb : RfbReportBlock} (hne : rb ≠ ∅) : 0 < windowSize rb := by
  obtain ⟨-, hle, -, -⟩ := windowBounds_cover (keys_ne_nil hne)
  unfold windowSize
  omega

theorem toNat_count {rb : RfbReportBlock} (hne : rb ≠ ∅) (hsize : windowSize rb < 65536) :
    (calcCountEndSeq rb).1.toNat = windowSize rb := by
  rw [calcCountEndSeq_eq hne, UInt16.toNat_ofNat', Nat.mod_eq_of_lt hsize]

private theorem lenLeft_step {count : UInt16} {n : Nat} (hn : blockLen count.toNat + n < 2 ^ 64) :
    (if count % 2 ≠ 0 then UInt64.ofNat (blockLen count.toNat + n) - 8 - count.toUInt64 * 2 - 2
      else UInt64.ofNat (blockLen count.toNat + n) - 8 - count.toUInt64 * 2) = UInt64.ofNat n := by
  have hcount := count.toNat_lt
  have hparity : count % 2 ≠ 0 ↔ count.toNat % 2 = 1 := by
    rw [ne_eq, ← UInt16.toNat_inj]
    simp
  apply UInt64.toNat_inj.mp
  simp only [hparity, blockLen] at hn ⊢
  by_cases hodd : count.toNat % 2 = 1
  · simp only [if_pos hodd, UInt64.toNat_sub, UInt64.toNat_mul, UInt64.toNat_ofNat', UInt16.toNat_toUInt64,
      UInt64.reduceToNat]
    omega
  · simp only [if_neg hodd, UInt64.toNat_sub, UInt64.toNat_mul, UInt64.toNat_ofNat', UInt16.toNat_toUInt64,
      UInt64.reduceToNat]
    omega

/-- A block that starts where the reader stands is read as it was written, and the reader
goes on at the padding, which it has counted. -/
private theorem deserializeBlocks_block {h g : RfbHeader} {ssrc : UInt32} {rb : RfbReportBlock} (hg : Reading h g)
    (hrb : Sendable h ssrc rb) (hnew : ∀ seq, lookup? g.reportBlocks ssrc seq = none) :
    ∃ metrics g', h.serializeMetrics rb (windowSeqs (calcCountEndSeq rb)) = .ok metrics ∧ Reading h g' ∧
      (∀ ssrc' seq, lookup? g'.reportBlocks ssrc' seq =
        if ssrc' = ssrc then rb[seq]? else lookup? g.reportBlocks ssrc' seq) ∧
      ∀ (rounds n : Nat) (rest : Octets), blockLen (calcCountEndSeq rb).1.toNat + n < 2 ^ 64 →
        deserializeBlocks (rounds + 1) (UInt64.ofNat (blockLen (calcCountEndSeq rb).1.toNat + n)) g
          (writeHtonU32 ssrc ++ (writeHtonU16 (calcCountEndSeq rb).1 ++
            (writeHtonU16 (calcCountEndSeq rb).2 ++ (metrics ++ rest)))) =
          deserializeBlocks rounds (UInt64.ofNat n) g' rest := by
  have hcount := toNat_count hrb.nonempty hrb.size
  have hnodup : (windowSeqs (calcCountEndSeq rb)).Nodup := nodup_consecutive _ (by have := hrb.size; omega)
  obtain ⟨metrics, g', hmetrics, hread, hg', hentries⟩ :=
    deserializeMetrics_serializeMetrics hg hnodup hrb.ecn hrb.stamps fun seq _ => hnew seq
  refine ⟨metrics, g', hmetrics, hg', fun ssrc' seq => ?_, fun rounds n rest hn => ?_⟩
  · rw [hentries]
    by_cases hs : ssrc' = ssrc
    · subst hs
      by_cases hseq : seq ∈ windowSeqs (calcCountEndSeq rb)
      · simp [hseq]
      · have hnone : rb[seq]? = none := by
          exact Std.ExtTreeMap.getElem?_eq_none fun hmem => hseq (mem_windowSeqs hrb.size hmem)
        simp [hseq, hnone, hnew seq]
    · simp [hs]
  · have hpos := windowSize_pos hrb.nonempty
    have hlen : (UInt64.ofNat (blockLen (calcCountEndSeq rb).1.toNat + n)).toNat =
        blockLen (calcCountEndSeq rb).1.toNat + n := by rw [UInt64.toNat_ofNat', Nat.mod_eq_of_lt hn]
    have hne0 : UInt64.ofNat (blockLen (calcCountEndSeq rb).1.toNat + n) ≠ 0 := by
      rw [ne_eq, ← UInt64.toNat_inj, hlen]
      simp [blockLen]
    have hge8 : 8 ≤ UInt64.ofNat (blockLen (calcCountEndSeq rb).1.toNat + n) := by
      rw [UInt64.le_iff_toNat_le, hlen]
      simp only [blockLen, UInt64.reduceToNat]
      omega
    have hcount0 : (calcCountEndSeq rb).1 ≠ 0 := by
      rw [ne_eq, ← UInt16.toNat_inj, hcount]
      simp only [UInt16.reduceToNat]
      omega
    rw [deserializeBlocks, if_neg hne0, check_of hge8]
    simp only [ok_bind, readNtohU32_write, readNtohU16_write, if_neg hcount0, hread]
    exact congrArg (fun lenLeft => deserializeBlocks rounds lenLeft g' rest) (lenLeft_step hn)

private theorem serializeBlocks_cons {h : RfbHeader} {ssrc : UInt32} {rb : RfbReportBlock}
    {blocks : List (UInt32 × RfbReportBlock)} {metrics bytes : Octets}
    (hstored : h.getCountEndSeq ssrc = calcCountEndSeq rb)
    (hmetrics : h.serializeMetrics rb (windowSeqs (calcCountEndSeq rb)) = .ok metrics)
    (hbytes : h.serializeBlocks blocks = .ok bytes) :
    h.serializeBlocks ((ssrc, rb) :: blocks) = .ok (writeHtonU32 ssrc ++
      (writeHtonU16 (calcCountEndSeq rb).1 ++ (writeHtonU16 (calcCountEndSeq rb).2 ++
        (metrics ++ (paddingOf (calcCountEndSeq rb).1 ++ bytes))))) := by
  rw [serializeBlocks, hstored, hmetrics, ok_bind, hbytes, ok_bind, window_count]
  rfl

def blocksLen (blocks : List (UInt32 × RfbReportBlock)) : Nat :=
  (blocks.map fun rb => blockLen (calcCountEndSeq rb.2).1.toNat).sum

theorem blocksLen_cons (ssrc : UInt32) (rb : RfbReportBlock) (blocks : List (UInt32 × RfbReportBlock)) :
    blocksLen ((ssrc, rb) :: blocks) = blockLen (calcCountEndSeq rb).1.toNat + blocksLen blocks := rfl

/-- Every block but the last one has a window of even size, which is not padded. -/
def EvenButLast (blocks : List (UInt32 × RfbReportBlock)) : Prop :=
  ∀ rb ∈ blocks.dropLast, (calcCountEndSeq rb.2).1.toNat % 2 = 0

private theorem EvenButLast.tail {rb : UInt32 × RfbReportBlock} {blocks : List (UInt32 × RfbReportBlock)}
    (h : EvenButLast (rb :: blocks)) : EvenButLast blocks := by
  cases blocks with
  | nil => simp [EvenButLast]
  | cons rb' blocks => exact fun other hother => h other (by simp [List.dropLast, hother])

def lastPadding (blocks : List (UInt32 × RfbReportBlock)) : Octets :=
  match blocks.getLast? with
  | none => []
  | some rb => paddingOf (calcCountEndSeq rb.2).1

private theorem lastPadding_cons {rb : UInt32 × RfbReportBlock} {blocks : List (UInt32 × RfbReportBlock)}
    (heven : EvenButLast (rb :: blocks)) :
    (blocks = [] ∧ lastPadding (rb :: blocks) = paddingOf (calcCountEndSeq rb.2).1) ∨
      (paddingOf (calcCountEndSeq rb.2).1 = [] ∧ lastPadding (rb :: blocks) = lastPadding blocks) := by
  cases blocks with
  | nil => exact .inl ⟨rfl, rfl⟩
  | cons rb' blocks => exact .inr ⟨paddingOf_even (heven rb (by simp [List.dropLast])), rfl⟩

/-- Report blocks are read as they were written while only the last one is padded: the
reader then stands at its padding, with the length of what follows that padding. -/
theorem deserializeBlocks_serializeBlocks {h g : RfbHeader} {blocks : List (UInt32 × RfbReportBlock)}
    (hg : Reading h g) (hblocks : ∀ rb ∈ blocks, Sendable h rb.1 rb.2)
    (hnodup : (blocks.map Prod.fst).Nodup)
    (hnew : ∀ rb ∈ blocks, ∀ seq, lookup? g.reportBlocks rb.1 seq = none) (heven : EvenButLast blocks) :
    ∃ bytes g', Reading h g' ∧
      (∀ rb ∈ blocks, ∀ seq, lookup? g'.reportBlocks rb.1 seq = rb.2[seq]?) ∧
      (∀ ssrc ∉ blocks.map Prod.fst, ∀ seq,
        lookup? g'.reportBlocks ssrc seq = lookup? g.reportBlocks ssrc seq) ∧
      (∀ more moreBytes, h.serializeBlocks more = .ok moreBytes →
        h.serializeBlocks (blocks ++ more) = .ok (bytes ++ (lastPadding blocks ++ moreBytes))) ∧
      ∀ (rounds n : Nat) (rest : Octets), blocksLen blocks + n < 2 ^ 64 →
        deserializeBlocks (blocks.length + rounds) (UInt64.ofNat (blocksLen blocks + n)) g (bytes ++ rest) =
          deserializeBlocks rounds (UInt64.ofNat n) g' rest := by
  induction blocks generalizing g with
  | nil =>
    refine ⟨[], g, hg, by simp, by simp, fun more moreBytes hmore => hmore, fun rounds n rest _ => ?_⟩
    simp [blocksLen]
  | cons block blocks ih =>
    obtain ⟨ssrc, rb⟩ := block
    rw [List.map_cons, List.nodup_cons] at hnodup
    have hsend : Sendable h ssrc rb := hblocks (ssrc, rb) List.mem_cons_self
    obtain ⟨metrics, g1, hmetrics, hg1, hentries1, hread1⟩ :=
      deserializeBlocks_block hg hsend (hnew (ssrc, rb) List.mem_cons_self)
    have hother : ∀ rb' ∈ blocks, rb'.1 ≠ ssrc := fun rb' hrb' he =>
      hnodup.1 (List.mem_map.mpr ⟨rb', hrb', he⟩)
    have hnew1 : ∀ rb' ∈ blocks, ∀ seq, lookup? g1.reportBlocks rb'.1 seq = none := by
      intro rb' hrb' seq
      rw [hentries1, if_neg (hother rb' hrb')]
      exact hnew rb' (List.mem_cons_of_mem _ hrb') seq
    obtain ⟨bytes, g', hg', hin, hout, hbytes, hread⟩ :=
      ih hg1 (fun rb' hrb' => hblocks rb' (List.mem_cons_of_mem _ hrb')) hnodup.2 hnew1 heven.tail
    refine ⟨writeHtonU32 ssrc ++ (writeHtonU16 (calcCountEndSeq rb).1 ++
      (writeHtonU16 (calcCountEndSeq rb).2 ++ (metrics ++ bytes))), g', hg', ?_, ?_, ?_, ?_⟩
    · intro rb' hrb' seq
      rcases List.mem_cons.mp hrb' with rfl | hrb'
      · rw [hout ssrc hnodup.1, hentries1, if_pos rfl]
      · exact hin rb' hrb' seq
    · intro ssrc' hssrc' seq
      rw [List.map_cons, List.mem_cons, not_or] at hssrc'
      rw [hout ssrc' hssrc'.2, hentries1, if_neg hssrc'.1]
    · intro more moreBytes hmore
      rw [List.cons_append, serializeBlocks_cons hsend.stored hmetrics (hbytes more moreBytes hmore)]
      rcases lastPadding_cons heven with ⟨hlast, hpadding⟩ | ⟨hnone, hpadding⟩
      · subst hlast
        have hnil : bytes = [] := by
          have hsame := hmore.symm.trans (hbytes more moreBytes hmore)
          simpa [lastPadding] using hsame
        rw [hpadding, hnil]
        simp [lastPadding]
      · simp only [hnone, hpadding, List.append_assoc, List.nil_append]
    · intro rounds n rest hlen
      rw [blocksLen_cons, Nat.add_assoc] at hlen ⊢
      rw [List.length_cons, Nat.add_right_comm]
      simp only [List.append_assoc, hread1 _ _ _ hlen]
      exact hread rounds n rest (by omega)

end RfbHeader

end Ns3Rmcat.Header
