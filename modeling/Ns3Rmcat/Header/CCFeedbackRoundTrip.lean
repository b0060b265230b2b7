import Ns3Rmcat.Header.CCFeedbackRead

/-! The round trip of a congestion control feedback header: the same streams, numbers and
ECN values come back, and times that are near the ones sent and in the same order. -/
namespace Ns3Rmcat.Header
open Lib CCFeedback

namespace CCFeedbackHeader

private theorem serializeBlocks_cons {h : CCFeedbackHeader} {ssrc : UInt32} {rb : ReportBlock}
    {blocks : List (UInt32 × ReportBlock)} {beginSeq stopSeq : UInt16} {metrics bytes : Octets} (hne : rb ≠ ∅)
    (hcalc : calculateBeginStopSeq rb = .ok (beginSeq, stopSeq))
    (hmetrics : writeMetrics h.metricOf rb (windowSeqs (beginSeq, stopSeq)) = .ok metrics)
    (hbytes : h.serializeBlocks blocks = .ok bytes) :
    h.serializeBlocks ((ssrc, rb) :: blocks) = .ok (writeHtonU32 ssrc ++ (writeHtonU16 beginSeq ++
      (writeHtonU16 (stopSeq - 1) ++ (metrics ++ (paddingOf (stopSeq - beginSeq) ++ bytes))))) := by
  rw [serializeBlocks, hcalc, ok_bind]
  simp only [check_of hne, ok_bind, hmetrics, hbytes, pure_eq_ok]

def wordsLeft (blocks : List (UInt32 × ReportBlock)) : Nat :=
  2 * (blocks.map fun rb => blockWords (places rb.2)).sum

private theorem wordsLeft_cons (ssrc : UInt32) (rb : ReportBlock) (blocks : List (UInt32 × ReportBlock)) :
    wordsLeft ((ssrc, rb) :: blocks) = 2 * blockWords (places rb) + wordsLeft blocks := by
  rw [wordsLeft, List.map_cons, List.sum_cons, Nat.mul_add]
  rfl

private theorem deserializeBlocks_serializeBlocks {h : CCFeedbackHeader} {blocks : List (UInt32 × ReportBlock)}
    {reportBlocks : Std.ExtTreeMap UInt32 ReportBlock} (hblocks : ∀ rb ∈ blocks, Readable h rb.2)
    (hnodup : (blocks.map Prod.fst).Nodup) (hnew : ∀ rb ∈ blocks, reportBlocks[rb.1]? = none) :
    ∃ bytes, h.serializeBlocks blocks = .ok bytes ∧
      ∀ (rounds : Nat) (rest : Octets), wordsLeft blocks < 2 ^ 64 →
        deserializeBlocks (blocks.length + (rounds + 1)) (UInt64.ofNat (wordsLeft blocks)) reportBlocks
          (bytes ++ rest) = .ok (insertAll h.sentBlock blocks reportBlocks, rest) := by
  induction blocks generalizing reportBlocks with
  | nil =>
    refine ⟨[], rfl, fun rounds rest _ => ?_⟩
    rw [List.length_nil, Nat.zero_add]
    rfl
  | cons block blocks ih =>
    obtain ⟨ssrc, rb⟩ := block
    rw [List.map_cons, List.nodup_cons] at hnodup
    have hrb : Readable h rb := hblocks (ssrc, rb) List.mem_cons_self
    obtain ⟨beginSeq, stopSeq, metrics, hcalc, hmetrics, hread⟩ :=
      deserializeBlocks_block hrb (hnew (ssrc, rb) List.mem_cons_self)
    have hnew1 : ∀ rb' ∈ blocks, (reportBlocks.insert ssrc (h.sentBlock rb))[rb'.1]? = none := by
      intro rb' hrb'
      have hne : ssrc ≠ rb'.1 := fun he => hnodup.1 (List.mem_map.mpr ⟨rb', hrb', he.symm⟩)
      rw [Std.ExtTreeMap.getElem?_insert, if_neg (by simpa using hne)]
      exact hnew rb' (List.mem_cons_of_mem _ hrb')
    obtain ⟨bytes, hbytes, hmore⟩ :=
      ih (fun rb' hrb' => hblocks rb' (List.mem_cons_of_mem _ hrb')) hnodup.2 hnew1
    refine ⟨_, serializeBlocks_cons hrb.nonempty hcalc hmetrics hbytes, fun rounds rest hwords => ?_⟩
    rw [wordsLeft_cons] at hwords ⊢
    rw [List.length_cons, Nat.add_right_comm]
    simp only [List.append_assoc, hread _ _ _ hwords]
    exact hmore rounds rest (by omega)

/-- The entry with the time that its offset stands for. -/
def stamped (ntpRef : UInt32) (mb : MetricBlock) : MetricBlock :=
  { mb with timestampUs := match atoToNtp mb.ato ntpRef with
    | .ok ntp => ntpToUs ntp
    | .error _ => mb.timestampUs }

private theorem populateTimestamps_eq_ok {ntpRef : UInt32} {mbs : List (UInt16 × MetricBlock)} {rb rb' : ReportBlock} :
    populateTimestamps ntpRef mbs rb = .ok rb' ↔
      (∀ e ∈ mbs, Returns (atoToNtp e.2.ato ntpRef)) ∧ rb' = insertAll (stamped ntpRef) mbs rb := by
  induction mbs generalizing rb with
  | nil =>
    rw [populateTimestamps, Except.ok.injEq]
    exact ⟨fun h => ⟨by simp, h.symm⟩, fun h => h.2.symm⟩
  | cons e mbs ih =>
    obtain ⟨seq, mb⟩ := e
    rw [populateTimestamps, bind_eq_ok, List.forall_mem_cons]
    constructor
    · rintro ⟨ntp, hntp, h⟩
      obtain ⟨hmbs, rfl⟩ := ih.mp h
      refine ⟨⟨⟨ntp, hntp⟩, hmbs⟩, ?_⟩
      rw [insertAll, insertAll, List.foldl_cons, stamped, hntp]
    · rintro ⟨⟨⟨ntp, hntp⟩, hmbs⟩, rfl⟩
      refine ⟨ntp, hntp, ih.mpr ⟨hmbs, ?_⟩⟩
      rw [insertAll, insertAll, List.foldl_cons, stamped, hntp]

/-- The report block with the times that the offsets stand for. -/
def stampedBlock (ntpRef : UInt32) (rb : ReportBlock) : ReportBlock := insertAll (stamped ntpRef) rb.toList rb

theorem getElem?_stampedBlock (ntpRef : UInt32) (rb : ReportBlock) (seq : UInt16) :
    (stampedBlock ntpRef rb)[seq]? = rb[seq]?.map (stamped ntpRef) := getElem?_insertAll_self ..

theorem populateBlocks_eq_ok {ntpRef : UInt32} {blocks : List (UInt32 × ReportBlock)}
    {reportBlocks reportBlocks' : Std.ExtTreeMap UInt32 ReportBlock} :
    populateBlocks ntpRef blocks reportBlocks = .ok reportBlocks' ↔
      (∀ rb ∈ blocks, ∀ e ∈ rb.2.toList, Returns (atoToNtp e.2.ato ntpRef)) ∧
        reportBlocks' = insertAll (stampedBlock ntpRef) blocks reportBlocks := by
  induction blocks generalizing reportBlocks with
  | nil =>
    rw [populateBlocks, Except.ok.injEq]
    exact ⟨fun h => ⟨by simp, h.symm⟩, fun h => h.2.symm⟩
  | cons block blocks ih =>
    obtain ⟨ssrc, rb⟩ := block
    rw [populateBlocks, bind_eq_ok, List.forall_mem_cons]
    constructor
    · rintro ⟨rb', hrb', h⟩
      obtain ⟨hmbs, rfl⟩ := populateTimestamps_eq_ok.mp hrb'
      obtain ⟨hblocks, rfl⟩ := ih.mp h
      exact ⟨⟨hmbs, hblocks⟩, rfl⟩
    · rintro ⟨⟨hmbs, hblocks⟩, rfl⟩
      exact ⟨_, populateTimestamps_eq_ok.mpr ⟨hmbs, rfl⟩, ih.mpr ⟨hblocks, rfl⟩⟩

/-- Times that are all near the latest one, and at least a millisecond. -/
def TimesFit (h : CCFeedbackHeader) : Prop :=
  ∀ (ssrc : UInt32) (seq : UInt16) (mb : MetricBlock), lookup? h.reportBlocks ssrc seq = some mb →
    1000 ≤ mb.timestampUs.toNat ∧ mb.timestampUs.toNat < 65536000000 ∧
      h.latestTsUs.toNat ≤ mb.timestampUs.toNat + 7900000

instance (h : CCFeedbackHeader) : Decidable h.TimesFit :=
  decidable_of_iff (∀ rb ∈ h.reportBlocks.toList, ∀ e ∈ rb.2.toList, 1000 ≤ e.2.timestampUs.toNat ∧
    e.2.timestampUs.toNat < 65536000000 ∧ h.latestTsUs.toNat ≤ e.2.timestampUs.toNat + 7900000) (by
    constructor
    · intro hall ssrc seq mb hmb
      rw [lookup?_eq] at hmb
      obtain ⟨rb, hrb, hseq⟩ := Option.bind_eq_some_iff.mp hmb
      exact hall (ssrc, rb) (mem_toList.mpr hrb) (seq, mb) (mem_toList.mpr hseq)
    · intro htimes rb hrb e he
      refine htimes rb.1 e.1 e.2 ?_
      rw [lookup?_eq, mem_toList.mp hrb]
      exact mem_toList.mp he)

private theorem Kept.fits {h : CCFeedbackHeader} (hk : Kept h) (htimes : TimesFit h) {ssrc : UInt32} {seq : UInt16}
    {mb : MetricBlock} (hmb : lookup? h.reportBlocks ssrc seq = some mb) : h.Fits mb := by
  have hlatest : h.latestTsUs.toNat < 65536000000 := by
    rcases hk.attained with ⟨hnil, -⟩ | ⟨ssrc', seq', mb', hmb', hts⟩
    · rw [hnil] at hmb
      simp [lookup?] at hmb
    · rw [← hts]
      exact (htimes ssrc' seq' mb' hmb').2.1
  obtain ⟨hleast, -, hnear⟩ := htimes ssrc seq mb hmb
  exact ⟨hk.ecn ssrc seq mb hmb, hleast, UInt64.le_iff_toNat_le.mp (hk.latest ssrc seq mb hmb), hnear, hlatest⟩

/-- The header that is read: its report blocks have the times that were sent for them. -/
def readBack (h : CCFeedbackHeader) : CCFeedbackHeader where
  common := h.common
  reportBlocks := insertAll (stampedBlock (usToNtp h.latestTsUs))
    (insertAll h.sentBlock h.reportBlocks.toList (∅ : Std.ExtTreeMap UInt32 ReportBlock)).toList
    (insertAll h.sentBlock h.reportBlocks.toList ∅)
  latestTsUs := ntpToUs (usToNtp h.latestTsUs)

theorem getElem?_readBack (h : CCFeedbackHeader) (ssrc : UInt32) :
    h.readBack.reportBlocks[ssrc]? =
      h.reportBlocks[ssrc]?.map fun rb => stampedBlock (usToNtp h.latestTsUs) (h.sentBlock rb) := by
  rw [readBack, getElem?_insertAll_self, getElem?_insertAll_toList]
  cases h.reportBlocks[ssrc]? <;> simp

theorem readBack_nonempty (h : CCFeedbackHeader) (hne : h.reportBlocks ≠ ∅) : h.readBack.reportBlocks ≠ ∅ := by
  intro hnil
  refine hne (Std.ExtTreeMap.ext_getElem? fun ssrc => ?_)
  have hget := h.getElem?_readBack ssrc
  rw [hnil, Std.ExtTreeMap.getElem?_empty, eq_comm, Option.map_eq_none_iff] at hget
  rw [hget, Std.ExtTreeMap.getElem?_empty]

private theorem lookup?_readBack (h : CCFeedbackHeader) (ssrc : UInt32) (seq : UInt16) :
    lookup? h.readBack.reportBlocks ssrc seq =
      (lookup? h.reportBlocks ssrc seq).map fun mb => stamped (usToNtp h.latestTsUs) (h.sent mb) := by
  rw [lookup?_eq, lookup?_eq, getElem?_readBack]
  cases h.reportBlocks[ssrc]? with
  | none => rfl
  | some rb =>
    rw [Option.map_some, Option.bind_some, Option.bind_some, getElem?_stampedBlock, getElem?_sentBlock,
      Option.map_map]
    rfl

private theorem Fits.stamped {h : CCFeedbackHeader} {mb : MetricBlock} (hfits : h.Fits mb) :
    Returns (atoToNtp (h.atoOf mb) (usToNtp h.latestTsUs)) ∧
      (stamped (usToNtp h.latestTsUs) (h.sent mb)).ecn = mb.ecn ∧
      (stamped (usToNtp h.latestTsUs) (h.sent mb)).timestampUs.toNat = decodedUs h.latestTsUs mb.timestampUs := by
  obtain ⟨ato, ntp, hato, -, hntp, hdecoded⟩ := hfits.2.roundTrip
  have hatoOf : h.atoOf mb = ato := by rw [atoOf, hato]
  refine ⟨⟨ntp, by rw [hatoOf, hntp]⟩, rfl, ?_⟩
  rw [CCFeedbackHeader.stamped, sent, hatoOf]
  simp only [hntp]
  exact hdecoded

theorem Kept.readable {h : CCFeedbackHeader} (hk : Kept h) (htimes : TimesFit h) {rb : UInt32 × ReportBlock}
    (hrb : rb ∈ h.reportBlocks.toList) : Readable h rb.2 := by
  refine ⟨hk.sendable hrb, fun seq mb hmb => ?_⟩
  have hentry : lookup? h.reportBlocks rb.1 seq = some mb := by
    rw [lookup?_eq, mem_toList.mp hrb]
    exact hmb
  exact hk.fits htimes hentry

private theorem Kept.returns_populate {h : CCFeedbackHeader} (hk : Kept h) (htimes : TimesFit h) :
    ∀ rb ∈ (insertAll h.sentBlock h.reportBlocks.toList (∅ : Std.ExtTreeMap UInt32 ReportBlock)).toList,
      ∀ e ∈ rb.2.toList, Returns (atoToNtp e.2.ato (usToNtp h.latestTsUs)) := by
  intro rb hrb e he
  have hget := mem_toList.mp hrb
  rw [getElem?_insertAll_toList] at hget
  obtain ⟨old, hold, hsent⟩ : ∃ old, h.reportBlocks[rb.1]? = some old ∧ h.sentBlock old = rb.2 := by
    cases hold : h.reportBlocks[rb.1]? with
    | none => simp [hold] at hget
    | some old => exact ⟨old, rfl, by simpa [hold] using hget⟩
  have hentry := mem_toList.mp he
  rw [← hsent, getElem?_sentBlock] at hentry
  obtain ⟨mb, hmb, heq⟩ := Option.map_eq_some_iff.mp hentry
  have hsource : lookup? h.reportBlocks rb.1 e.1 = some mb := by
    rw [lookup?_eq, hold]
    exact hmb
  rw [← heq]
  exact (hk.fits htimes hsource).stamped.1

/-- What is written is read into a fresh header, to its last octet and no further. -/
theorem Kept.deserialize_serialize {h : CCFeedbackHeader} (hk : Kept h) (hne : h.reportBlocks ≠ ∅)
    (htimes : TimesFit h) (rest : Octets) :
    ∃ bytes n, h.serialize = .ok bytes ∧ h.getSerializedSize = .ok n ∧ n.toNat = bytes.length ∧
      fresh.deserialize (bytes ++ rest) = .ok (n, h.readBack, rest) := by
  have htype : h.common.typeOrCnt ≤ 0x1f := by rw [hk.typeOrCnt]; decide
  obtain ⟨common, hcommon⟩ : ∃ common, h.common.serializeCommon = .ok common :=
    ⟨_, by rw [RtcpHeader.serializeCommon, check_of htype]; rfl⟩
  have hnodup : (h.reportBlocks.toList.map Prod.fst).Nodup := by
    rw [Std.ExtTreeMap.map_fst_toList_eq_keys]
    exact Std.ExtTreeMap.nodup_keys
  have hempty : ∀ rb ∈ h.reportBlocks.toList, (∅ : Std.ExtTreeMap UInt32 ReportBlock)[rb.1]? = none := by simp
  obtain ⟨blocks, hblocks, hread⟩ :=
    deserializeBlocks_serializeBlocks (fun rb hrb => hk.readable htimes hrb) hnodup hempty
  obtain ⟨n, hn, hsize⟩ := hk.getSerializedSize
  have hbytes : h.serialize = .ok (common ++ (blocks ++ writeHtonU32 (usToNtp h.latestTsUs))) := by
    rw [serialize, check_of hk.two_le_length, ok_bind, hcommon, ok_bind, check_of hne, ok_bind, hblocks]
    rfl
  have hlen := length_serialize hbytes
  have hlength := hk.length
  have hneeded : 2 * neededLength h.reportBlocks = 4 + wordsLeft h.reportBlocks.toList := by
    simp only [neededLength, wordsLeft]
    omega
  have hlt := h.common.length.toNat_lt
  have hleft : (h.common.length.toUInt64 - 2) * 2 = UInt64.ofNat (wordsLeft h.reportBlocks.toList) := by
    apply UInt64.toNat_inj.mp
    simp only [UInt64.toNat_mul, UInt64.toNat_sub, UInt16.toNat_toUInt64, UInt64.toNat_ofNat', UInt64.reduceToNat]
    omega
  -- There are rounds enough: a report block has at least eight octets.
  obtain ⟨rounds, hrounds⟩ : ∃ rounds, (blocks ++ (writeHtonU32 (usToNtp h.latestTsUs) ++ rest)).length + 1 =
      h.reportBlocks.toList.length + (rounds + 1) := by
    have hge : h.reportBlocks.toList.length ≤
        (h.reportBlocks.toList.map fun rb => blockWords (places rb.2)).sum := by
      induction h.reportBlocks.toList with
      | nil => simp
      | cons rb blocks ih =>
        rw [List.map_cons, List.sum_cons, List.length_cons, blockWords]
        omega
    have hblocksLen := length_serializeBlocks hblocks
    simp only [List.length_append]
    exact ⟨blocks.length + ((writeHtonU32 (usToNtp h.latestTsUs)).length + rest.length) -
      h.reportBlocks.toList.length, by omega⟩
  refine ⟨_, n, hbytes, hn, by rw [hsize, hlen, hlength], ?_⟩
  have htwo : (2 : UInt16) ≤ fresh.common.length := by decide
  have hvirtual : ({ fresh with common := h.common } : CCFeedbackHeader).getSerializedSize = .ok n := hn
  have hback := h.readBack_nonempty hne
  have hbackSize : h.readBack.getSerializedSize = .ok n := hn
  rw [deserialize, check_of htwo, ok_bind]
  simp only [List.append_assoc]
  rw [RtcpHeader.deserializeCommon_serializeCommon hcommon hvirtual]
  simp only [ok_bind, check_of hk.packetType, check_of hk.typeOrCnt, hleft, hrounds]
  rw [show fresh.reportBlocks = ∅ from rfl, hread _ _ (by omega)]
  simp only [ok_bind, readNtohU32_write]
  rw [populateBlocks_eq_ok.mpr ⟨hk.returns_populate htimes, rfl⟩]
  change (check (h.readBack.reportBlocks ≠ ∅) >>= fun _ => h.readBack.getSerializedSize >>= fun n =>
    pure (n, h.readBack, rest)) = _
  rw [check_of hback, ok_bind, hbackSize]
  rfl

/-- What comes back of a header: its streams, numbers and ECN values, and times within 505
microseconds, none after the time of the report, in the order of those that were sent. -/
structure ReadsBack (h g : CCFeedbackHeader) : Prop where
  ssrcs : g.getSsrcList = h.getSsrcList
  sequences : ∀ (ssrc : UInt32) (seq : UInt16),
    (lookup? g.reportBlocks ssrc seq).isSome = (lookup? h.reportBlocks ssrc seq).isSome
  metrics : ∀ (ssrc : UInt32) (seq : UInt16) (mb mb' : MetricBlock),
    lookup? h.reportBlocks ssrc seq = some mb → lookup? g.reportBlocks ssrc seq = some mb' →
      mb'.ecn = mb.ecn ∧ mb'.timestampUs.toNat ≤ mb.timestampUs.toNat + 505 ∧
        mb.timestampUs.toNat ≤ mb'.timestampUs.toNat + 505 ∧ mb'.timestampUs ≤ g.latestTsUs
  order : ∀ (ssrc₁ ssrc₂ : UInt32) (seq₁ seq₂ : UInt16) (mb₁ mb₂ mb₁' mb₂' : MetricBlock),
    lookup? h.reportBlocks ssrc₁ seq₁ = some mb₁ → lookup? g.reportBlocks ssrc₁ seq₁ = some mb₁' →
    lookup? h.reportBlocks ssrc₂ seq₂ = some mb₂ → lookup? g.reportBlocks ssrc₂ seq₂ = some mb₂' →
      mb₁.timestampUs ≤ mb₂.timestampUs → mb₁'.timestampUs ≤ mb₂'.timestampUs

theorem Kept.readsBack {h : CCFeedbackHeader} (hk : Kept h) (htimes : TimesFit h) : ReadsBack h h.readBack := by
  have hentry {ssrc : UInt32} {seq : UInt16} {mb mb' : MetricBlock} (hmb : lookup? h.reportBlocks ssrc seq = some mb)
      (hmb' : lookup? h.readBack.reportBlocks ssrc seq = some mb') :
      mb'.ecn = mb.ecn ∧ mb'.timestampUs.toNat = decodedUs h.latestTsUs mb.timestampUs ∧ h.Fits mb := by
    rw [lookup?_readBack, hmb, Option.map_some, Option.some.injEq] at hmb'
    obtain ⟨-, hecn, hts⟩ := (hk.fits htimes hmb).stamped
    rw [← hmb']
    exact ⟨hecn, hts, hk.fits htimes hmb⟩
  refine ⟨?_, fun ssrc seq => ?_, ?_, ?_⟩
  · refine keys_congr fun ssrc => ?_
    rw [getElem?_readBack, Option.isSome_map]
  · rw [lookup?_readBack, Option.isSome_map]
  · intro ssrc seq mb mb' hmb hmb'
    obtain ⟨hecn, hts, hfits⟩ := hentry hmb hmb'
    obtain ⟨hle, hge⟩ := hfits.2.decodedUs_near
    refine ⟨hecn, by rw [hts]; exact hle, by rw [hts]; exact hge, ?_⟩
    rw [UInt64.le_iff_toNat_le, hts, readBack, toNat_ntpToUs, toNat_usToNtp hfits.2.latest]
    exact decodedUs_le_latest _ _
  · intro ssrc₁ ssrc₂ seq₁ seq₂ mb₁ mb₂ mb₁' mb₂' h₁ h₁' h₂ h₂' hle
    rw [UInt64.le_iff_toNat_le, (hentry h₁ h₁').2.1, (hentry h₂ h₂').2.1]
    exact decodedUs_mono (UInt64.le_iff_toNat_le.mp hle)

/-- Every header with entries that calls build, whose times fit, is read back. -/
theorem run_deserialize_serialize {calls : List CCFeedbackCall} {h : CCFeedbackHeader}
    (hrun : run step fresh calls = .ok h) (hne : h.reportBlocks ≠ ∅) (htimes : TimesFit h) (rest : Octets) :
    ∃ bytes n g, h.serialize = .ok bytes ∧ h.getSerializedSize = .ok n ∧ n.toNat = bytes.length ∧
      fresh.deserialize (bytes ++ rest) = .ok (n, g, rest) ∧ ReadsBack h g := by
  have hk := kept_run hrun
  obtain ⟨bytes, n, hbytes, hn, hsize, hread⟩ := hk.deserialize_serialize hne htimes rest
  exact ⟨bytes, n, h.readBack, hbytes, hn, hsize, hread, hk.readsBack htimes⟩

theorem run_deserialize_serialize_two_streams :
    ∃ h bytes n g, run step fresh [.addFeedback 7 65535 1000000 1, .addFeedback 7 2 1500000 3,
        .addFeedback 9 40 1200000 0] = .ok h ∧
      h.serialize = .ok bytes ∧ h.getSerializedSize = .ok n ∧ n.toNat = bytes.length ∧
      fresh.deserialize (bytes ++ [0]) = .ok (n, g, [0]) ∧ ReadsBack h g := by
  have hfacts : (run step fresh [.addFeedback 7 65535 1000000 1, .addFeedback 7 2 1500000 3,
      .addFeedback 9 40 1200000 0]).map (fun h => decide (h.reportBlocks ≠ ∅ ∧ TimesFit h)) = .ok true := by
    decide +kernel
  obtain ⟨h, hrun, hh⟩ := map_eq_ok.mp hfacts
  obtain ⟨hne, htimes⟩ := of_decide_eq_true hh
  obtain ⟨bytes, n, g, hread⟩ := run_deserialize_serialize hrun hne htimes [0]
  exact ⟨h, bytes, n, g, hrun, hread⟩

end CCFeedbackHeader

end Ns3Rmcat.Header
