import Ns3Rmcat.Header.RfbMisaligned

/-! The round trip of an RTP feedback header: what it needs, and that a padded report
block that is not the last one always breaks it. -/
namespace Ns3Rmcat.Header
open Lib

namespace RfbHeader

/-- Times that the 13 bits of an offset can tell from the report time. -/
def StampsFit (h : RfbHeader) : Prop :=
  ∀ (ssrc : UInt32) (seq : UInt16) (mb : RfbMetricBlock), lookup? h.reportBlocks ssrc seq = some mb →
    mb.timestampMs.toNat ≤ h.reportTimeMs.toNat ∧ h.reportTimeMs.toNat ≤ mb.timestampMs.toNat + 8191

private theorem blocksLen_ge (blocks : List (UInt32 × RfbReportBlock)) : 8 * blocks.length ≤ blocksLen blocks := by
  induction blocks with
  | nil => simp
  | cons rb blocks ih =>
    rw [blocksLen_cons, List.length_cons, blockLen]
    omega

/-- A header whose octets the other side reads back: its length is that of its report blocks,
and these and the report time can be sent. -/
structure Complete (h : RfbHeader) : Prop where
  tidy : Tidy h
  settled : Settled h
  len : encodedLen h.reportBlocks ≤ 65535
  size : ∀ (ssrc : UInt32) (rb : RfbReportBlock), h.reportBlocks[ssrc]? = some rb → windowSize rb < 65536
  reportTime : h.reportTimeMs.toNat < 2 ^ 32
  stamps : StampsFit h

private theorem Complete.sendable {h : RfbHeader} (hh : Complete h) {ssrc : UInt32} {rb : RfbReportBlock}
    (hrb : h.reportBlocks[ssrc]? = some rb) : Sendable h ssrc rb := by
  have hentry (seq : UInt16) : lookup? h.reportBlocks ssrc seq = rb[seq]? := by rw [lookup?_eq, hrb]; rfl
  refine ⟨hh.tidy.getCountEndSeq hrb, hh.tidy.filled ssrc rb hrb, hh.size ssrc rb hrb, ?_, ?_⟩
  · exact fun seq mb hmb => hh.tidy.ecn ssrc seq mb ((hentry seq).trans hmb)
  · exact fun seq mb hmb => hh.stamps ssrc seq mb ((hentry seq).trans hmb)

/-- The length that is left after the fixed part is that of the report blocks. -/
theorem Complete.lenLeft {h : RfbHeader} (hh : Complete h) :
    4 * (h.common.length.toUInt64 + 1) - 20 = UInt64.ofNat (blocksLen h.reportBlocks.toList) := by
  have hge := encodedLen_ge h.reportBlocks
  have hfour := four_mul_lengthField hh.len hge (encodedLen_mod_four h.reportBlocks)
  rw [← hh.settled hh.len] at hfour
  have hlen : encodedLen h.reportBlocks = 20 + blocksLen h.reportBlocks.toList := rfl
  apply UInt64.toNat_inj.mp
  simp only [UInt64.toNat_sub, UInt64.toNat_mul, UInt64.toNat_add, UInt64.toNat_ofNat', UInt16.toNat_toUInt64,
    UInt64.reduceToNat]
  omega

/-- The header with nothing of the report blocks read yet. -/
def opened (h : RfbHeader) : RfbHeader :=
  { fresh with common := h.common, reportTimeMs := h.reportTimeMs, fbSeq := h.fbSeq, monitoredMs := h.monitoredMs }

theorem tidy_opened {h : RfbHeader} (ht : Tidy h) : Tidy (opened h) :=
  ⟨⟨filled_empty, by simp [opened, fresh, lookup?], ht.packetType, ht.typeOrCnt, ht.length⟩,
    by simp [opened, fresh]⟩

private theorem Complete.reading {h : RfbHeader} (hh : Complete h) : Reading h (opened h) where
  tidy := tidy_opened hh.tidy
  settled hne := absurd rfl hne
  unread _ := rfl
  reportTimeMs := rfl
  fbSeq := rfl
  monitoredMs := rfl

/-- The octets of a header are those of its fixed part and of its report blocks, and reading
the former leaves the latter to be read. The report time comes back as its lower half. -/
theorem Tidy.deserialize_eq {h : RfbHeader} (ht : Tidy h) {blocks : Octets}
    (hblocks : h.serializeBlocks h.reportBlocks.toList = .ok blocks) :
    ∃ common, h.serialize = .ok (common ++ blocks) ∧ common.length = 20 ∧ ∀ rest,
      fresh.deserialize (common ++ (blocks ++ rest)) =
        deserializeBlocks ((blocks ++ rest).length + 1) (4 * (h.common.length.toUInt64 + 1) - 20)
          ((opened h).setReportTime h.reportTimeMs.toUInt32.toUInt64) (blocks ++ rest) >>= fun (g, start) =>
            g.getSerializedSize >>= fun n => .ok (n, g, start) := by
  have htype : h.common.typeOrCnt ≤ 0x1f := by rw [ht.typeOrCnt]; decide
  have hlen3 : 3 ≤ h.common.length := by rw [UInt16.le_iff_toNat_le]; exact ht.length.1
  obtain ⟨common, hcommon⟩ : ∃ common, h.common.serializeCommon = .ok common :=
    ⟨_, by rw [RtcpHeader.serializeCommon, check_of htype]; rfl⟩
  have hsize : ({ fresh with common := h.common } : RfbHeader).getSerializedSize =
      .ok (4 * (h.common.length.toUInt32 + 1)) := by
    rw [getSerializedSize, check_of hlen3]
    rfl
  refine ⟨common ++ (writeHtonU32 0 ++ (writeHtonU32 h.reportTimeMs.toUInt32 ++
    (writeHtonU16 h.fbSeq ++ writeHtonU16 h.monitoredMs))), ?_, ?_, fun rest => ?_⟩
  · rw [serialize, check_of hlen3, ok_bind, hcommon, ok_bind, hblocks]
    simp only [ok_bind, pure_eq_ok, List.append_assoc]
  · simp only [List.length_append, length_writeHtonU32, length_writeHtonU16,
      RtcpHeader.length_serializeCommon hcommon]
  · have hfresh : (3 : UInt16) ≤ fresh.common.length := by decide
    rw [deserialize, check_of hfresh, ok_bind]
    simp only [List.append_assoc]
    rw [RtcpHeader.deserializeCommon_serializeCommon hcommon hsize]
    simp only [ok_bind, check_of ht.packetType, check_of ht.typeOrCnt, readNtohU32_write,
      readNtohU16_write, check_of]
    rfl

private theorem Complete.deserialize_eq {h : RfbHeader} (hh : Complete h) {blocks : Octets}
    (hblocks : h.serializeBlocks h.reportBlocks.toList = .ok blocks) :
    ∃ common, h.serialize = .ok (common ++ blocks) ∧ common.length = 20 ∧ ∀ rest,
      fresh.deserialize (common ++ (blocks ++ rest)) =
        deserializeBlocks ((blocks ++ rest).length + 1) (UInt64.ofNat (blocksLen h.reportBlocks.toList))
          (opened h) (blocks ++ rest) >>= fun (g, start) =>
            g.getSerializedSize >>= fun n => .ok (n, g, start) := by
  have htime : h.reportTimeMs.toUInt32.toUInt64 = h.reportTimeMs := by
    apply UInt64.toNat_inj.mp
    rw [UInt32.toNat_toUInt64, UInt64.toNat_toUInt32, Nat.mod_eq_of_lt hh.reportTime]
  obtain ⟨common, hbytes, hlen, hread⟩ := hh.tidy.deserialize_eq hblocks
  refine ⟨common, hbytes, hlen, fun rest => ?_⟩
  rw [hread, hh.lenLeft, htime]
  rfl

private theorem sorted_toList (blocks : Std.ExtTreeMap UInt32 RfbReportBlock) :
    blocks.toList.Pairwise fun a b => a.1.toNat < b.1.toNat := by
  refine Std.ExtTreeMap.ordered_keys_toList.imp fun hlt => ?_
  exact UInt32.lt_iff_toNat_lt.mp (compareOfLessAndEq_eq_lt.mp hlt)

private theorem Complete.read_prefix {h : RfbHeader} (hh : Complete h) {blocks more : List (UInt32 × RfbReportBlock)}
    (hsplit : h.reportBlocks.toList = blocks ++ more) (heven : EvenButLast blocks) :
    ∃ bytes g, Reading h g ∧ (∀ rb ∈ blocks, ∀ seq, lookup? g.reportBlocks rb.1 seq = rb.2[seq]?) ∧
      (∀ ssrc ∉ blocks.map Prod.fst, ∀ seq, lookup? g.reportBlocks ssrc seq = none) ∧
      (∀ moreBytes, h.serializeBlocks more = .ok moreBytes →
        h.serializeBlocks h.reportBlocks.toList = .ok (bytes ++ (lastPadding blocks ++ moreBytes))) ∧
      ∀ (rounds : Nat) (rest : Octets),
        deserializeBlocks (blocks.length + rounds) (UInt64.ofNat (blocksLen h.reportBlocks.toList))
          (opened h) (bytes ++ rest) = deserializeBlocks rounds (UInt64.ofNat (blocksLen more)) g rest := by
  have hmem : ∀ rb ∈ blocks, rb ∈ h.reportBlocks.toList := by
    intro rb hrb
    rw [hsplit]
    exact List.mem_append_left _ hrb
  have hnodup := nodup_toList h.reportBlocks
  rw [hsplit, List.map_append] at hnodup
  obtain ⟨bytes, g, hg, hin, hout, hbytes, hread⟩ :=
    deserializeBlocks_serializeBlocks hh.reading (fun rb hrb => hh.sendable (mem_toList.mp (hmem rb hrb)))
      hnodup.of_append_left (fun rb _ seq => by simp [opened, fresh, lookup?]) heven
  have hsum : blocksLen h.reportBlocks.toList = blocksLen blocks + blocksLen more := by
    rw [hsplit, blocksLen, List.map_append, List.sum_append]
    rfl
  have hlen : 20 + blocksLen h.reportBlocks.toList ≤ 65535 := hh.len
  refine ⟨bytes, g, hg, hin, fun ssrc hssrc seq => ?_, fun moreBytes hmore => ?_, fun rounds rest => ?_⟩
  · rw [hout ssrc hssrc]
    simp [opened, fresh, lookup?]
  · rw [hsplit]
    exact hbytes more moreBytes hmore
  · rw [hsum]
    exact hread rounds _ rest (by omega)

/-- A header is read back whole when only the last of its report blocks is padded. -/
theorem Complete.deserialize_serialize {h : RfbHeader} (hh : Complete h)
    (heven : EvenButLast h.reportBlocks.toList) (rest : Octets) :
    ∃ bytes n g left, h.serialize = .ok bytes ∧ fresh.deserialize (bytes ++ rest) = .ok (n, g, left) ∧
      n.toNat = bytes.length ∧ g.reportBlocks = h.reportBlocks ∧ g.reportTimeMs = h.reportTimeMs ∧
      g.fbSeq = h.fbSeq ∧ g.monitoredMs = h.monitoredMs := by
  obtain ⟨blocks, g, hg, hin, hout, hblocks, hread⟩ := hh.read_prefix (List.append_nil _).symm heven
  obtain ⟨common, hbytes, hcommon, hdeserialize⟩ := hh.deserialize_eq (hblocks [] rfl)
  have heq : g.reportBlocks = h.reportBlocks := by
    refine ext_lookup? hg.tidy.filled hh.tidy.filled fun ssrc seq => ?_
    cases hrb : h.reportBlocks[ssrc]? with
    | some rb =>
      rw [hin (ssrc, rb) (mem_toList.mpr hrb), lookup?_eq, hrb]
      rfl
    | none =>
      have hnotin : ssrc ∉ h.reportBlocks.toList.map Prod.fst := by
        rintro hmem
        obtain ⟨rb, hrb', rfl⟩ := List.mem_map.mp hmem
        rw [mem_toList.mp hrb'] at hrb
        cases hrb
      rw [hout ssrc hnotin, lookup?_eq h.reportBlocks, hrb]
      rfl
  have hlen := length_serialize hh.tidy hbytes
  -- There are rounds enough: a block has at least eight octets.
  obtain ⟨rounds, hrounds⟩ : ∃ rounds, (blocks ++ (lastPadding h.reportBlocks.toList ++ [] ++ rest)).length + 1 =
      h.reportBlocks.toList.length + (rounds + 1) := by
    have hge := blocksLen_ge h.reportBlocks.toList
    have hdef : encodedLen h.reportBlocks = 20 + blocksLen h.reportBlocks.toList := rfl
    simp only [List.length_append, List.append_nil] at hlen ⊢
    exact ⟨blocks.length + (lastPadding h.reportBlocks.toList).length + rest.length -
      h.reportBlocks.toList.length, by omega⟩
  obtain ⟨n, hn, hsize⟩ := getSerializedSize_tidy hg.tidy
  refine ⟨_, n, g, lastPadding h.reportBlocks.toList ++ [] ++ rest, hbytes, ?_, ?_, heq, hg.reportTimeMs, hg.fbSeq,
    hg.monitoredMs⟩
  · rw [List.append_assoc, hdeserialize, List.append_assoc, hrounds, hread]
    have hdone (start : Octets) : deserializeBlocks (rounds + 1) (UInt64.ofNat (blocksLen [])) g start =
        .ok (g, start) := rfl
    rw [hdone]
    simp only [ok_bind, hn]
  · have hfour := four_mul_lengthField hh.len (encodedLen_ge _) (encodedLen_mod_four h.reportBlocks)
    rw [hsize, hlen, ← hfour]
    by_cases hnil : g.reportBlocks = ∅
    · rw [hg.unread hnil, hh.settled hh.len]
    · rw [hg.settled hnil (heq ▸ hh.len), heq]

/-- What is serialised is read back into a fresh header, to its last octet and unchanged. -/
def RoundTrips (h : RfbHeader) : Prop :=
  ∃ bytes n g left, h.serialize = .ok bytes ∧ fresh.deserialize bytes = .ok (n, g, left) ∧
    n.toNat = bytes.length ∧ g.reportBlocks = h.reportBlocks ∧ g.reportTimeMs = h.reportTimeMs ∧
    g.fbSeq = h.fbSeq ∧ g.monitoredMs = h.monitoredMs

private theorem Complete.roundTrips {h : RfbHeader} (hh : Complete h) (heven : EvenButLast h.reportBlocks.toList) :
    RoundTrips h := by
  obtain ⟨bytes, n, g, left, hbytes, hread, hfields⟩ := hh.deserialize_serialize heven []
  rw [List.append_nil] at hread
  exact ⟨bytes, n, g, left, hbytes, hread, hfields⟩

private theorem exists_padded {blocks : List (UInt32 × RfbReportBlock)} (h : ¬ EvenButLast blocks) :
    ∃ before rb after, blocks = (before ++ [rb]) ++ after ∧ after ≠ [] ∧ EvenButLast (before ++ [rb]) ∧
      (calcCountEndSeq rb.2).1.toNat % 2 = 1 := by
  induction blocks with
  | nil => exact absurd (by simp [EvenButLast]) h
  | cons rb blocks ih =>
    have hne : blocks ≠ [] := by
      rintro rfl
      exact h (by simp [EvenButLast])
    by_cases heven : (calcCountEndSeq rb.2).1.toNat % 2 = 0
    · have htail : ¬ EvenButLast blocks := by
        intro htail
        refine h fun other hother => ?_
        rw [List.dropLast_cons_of_ne_nil hne] at hother
        rcases List.mem_cons.mp hother with rfl | hother
        · exact heven
        · exact htail other hother
      obtain ⟨before, odd, after, he, hafter, hbefore, hodd⟩ := ih htail
      refine ⟨rb :: before, odd, after, by rw [he]; rfl, hafter, fun other hother => ?_, hodd⟩
      rw [List.cons_append, List.dropLast_cons_of_ne_nil (by simp)] at hother
      rcases List.mem_cons.mp hother with rfl | hother
      · exact heven
      · exact hbefore other hother
    · exact ⟨[], rb, blocks, rfl, hne, by simp [EvenButLast], by omega⟩

private theorem serializeBlocks_suffix {h : RfbHeader} {blocks more : List (UInt32 × RfbReportBlock)} {bytes : Octets}
    (hbytes : h.serializeBlocks (blocks ++ more) = .ok bytes) :
    ∃ moreBytes, h.serializeBlocks more = .ok moreBytes := by
  induction blocks generalizing bytes with
  | nil => exact ⟨bytes, hbytes⟩
  | cons rb blocks ih =>
    obtain ⟨metrics, -, hrest⟩ := bind_eq_ok.mp hbytes
    obtain ⟨rest, hr, -⟩ := bind_eq_ok.mp hrest
    exact ih hr

private theorem Complete.even_of_roundTrips {h : RfbHeader} (hh : Complete h) (htrip : RoundTrips h) :
    EvenButLast h.reportBlocks.toList := by
  by_contra hnot
  obtain ⟨before, rb, after, hsplit, hafter, heven, hodd⟩ := exists_padded hnot
  obtain ⟨first, g, hg, -, hout, hblocks, hread⟩ := hh.read_prefix hsplit heven
  obtain ⟨bytes, n, g', left, hbytes, hdeserialize, -, hsame, -⟩ := htrip
  -- What is written of the blocks behind the padded one.
  obtain ⟨moreBytes, hmore⟩ : ∃ moreBytes, h.serializeBlocks after = .ok moreBytes := by
    obtain ⟨-, hrest⟩ := check_bind_eq_ok.mp hbytes
    obtain ⟨common, -, hrest⟩ := bind_eq_ok.mp hrest
    obtain ⟨all, hall, -⟩ := bind_eq_ok.mp hrest
    rw [hsplit] at hall
    exact serializeBlocks_suffix hall
  have hall := hblocks moreBytes hmore
  have hpadding : lastPadding (before ++ [rb]) = writeHtonU16 0 := by
    rw [lastPadding, List.getLast?_concat]
    exact if_pos ((odd_iff _).mpr hodd)
  rw [hpadding] at hall
  obtain ⟨common, hbytes', hcommon, hread'⟩ := hh.deserialize_eq hall
  cases hbytes.symm.trans hbytes'
  have hlen := length_serialize hh.tidy hbytes
  have hfits := hh.len
  have hdef : encodedLen h.reportBlocks = 20 + blocksLen h.reportBlocks.toList := rfl
  have hsum : blocksLen h.reportBlocks.toList = blocksLen (before ++ [rb]) + blocksLen after := by
    rw [hsplit, blocksLen, List.map_append, List.sum_append]
    rfl
  have hge := blocksLen_ge (before ++ [rb])
  have hge' := blocksLen_ge after
  have hpos := List.length_pos_iff.mpr hafter
  simp only [List.length_append] at hlen
  -- The reader comes to the padding with rounds left.
  obtain ⟨rounds, hrounds⟩ : ∃ rounds, (first ++ (writeHtonU16 0 ++ moreBytes)).length + 1 =
      (before ++ [rb]).length + rounds := by
    simp only [List.length_append] at hge ⊢
    exact ⟨first.length + ((writeHtonU16 0).length + moreBytes.length) + 1 - (before.length + [rb].length),
      by omega⟩
  have hdes := hread' []
  rw [List.append_nil, hrounds, hread, hdeserialize] at hdes
  obtain ⟨⟨g'', start⟩, hafterRead, hsize⟩ := bind_eq_ok.mp hdes.symm
  obtain ⟨m, -, he⟩ := bind_eq_ok.mp hsize
  cases he
  -- The blocks behind have other and larger SSRCs than those that are read.
  have hsorted := sorted_toList h.reportBlocks
  rw [hsplit, List.pairwise_append] at hsorted
  obtain ⟨-, hsortedAfter, hbelow⟩ := hsorted
  refine deserializeBlocks_misaligned hafter ?_ hsortedAfter ?_ hmore ?_ ?_ hafterRead ?_
  · rw [ne_eq, ← UInt64.toNat_inj, UInt64.toNat_ofNat']
    simp only [UInt64.reduceToNat]
    omega
  · intro rb' hrb'
    have := hbelow rb (by simp) rb' hrb'
    omega
  · rw [length_writeHtonU16] at hlen
    omega
  · intro rb' hrb'
    refine hg.tidy.filled.notMem (hout rb'.1 fun hmem => ?_)
    obtain ⟨other, hother, he⟩ := List.mem_map.mp hmem
    have := hbelow other hother rb' hrb'
    rw [he] at this
    omega
  · intro rb' hrb'
    rw [hsame, ← Std.ExtTreeMap.isSome_getElem?_iff_mem, mem_toList.mp (hsplit ▸ List.mem_append_right _ hrb')]
    rfl

private theorem mem_dropLast_iff {blocks : List (UInt32 × RfbReportBlock)} {rb : UInt32 × RfbReportBlock}
    (hsorted : blocks.Pairwise fun a b => a.1.toNat < b.1.toNat) :
    rb ∈ blocks.dropLast ↔ rb ∈ blocks ∧ ∃ other ∈ blocks, rb.1.toNat < other.1.toNat := by
  rcases List.eq_nil_or_concat blocks with rfl | ⟨before, last, rfl⟩
  · simp
  · rw [List.concat_eq_append] at hsorted ⊢
    rw [List.pairwise_append] at hsorted
    rw [List.dropLast_concat]
    constructor
    · intro hrb
      exact ⟨List.mem_append_left _ hrb, last, by simp, hsorted.2.2 rb hrb last (by simp)⟩
    · rintro ⟨hrb, other, hother, hlt⟩
      rcases List.mem_append.mp hrb with hrb | hrb
      · exact hrb
      · rw [List.mem_singleton.mp hrb] at hlt
        rcases List.mem_append.mp hother with hbefore | hlast
        · have := hsorted.2.2 other hbefore last (by simp)
          omega
        · rw [List.mem_singleton.mp hlast] at hlt
          exact absurd hlt (Nat.lt_irrefl _)

/-- Every stream but that of the largest SSRC spans an even number of places. -/
def EvenBeforeLargest (h : RfbHeader) : Prop :=
  ∀ (ssrc : UInt32) (rb : RfbReportBlock), h.reportBlocks[ssrc]? = some rb →
    (∃ other ∈ h.reportBlocks, ssrc < other) → EvenSpan rb

private theorem evenButLast_iff {h : RfbHeader} (ht : Tidy h)
    (hnarrow : ∀ (ssrc : UInt32) (rb : RfbReportBlock), h.reportBlocks[ssrc]? = some rb → Narrow rb) :
    EvenButLast h.reportBlocks.toList ↔ EvenBeforeLargest h := by
  have hparity {ssrc : UInt32} {rb : RfbReportBlock} (hrb : h.reportBlocks[ssrc]? = some rb) :
      EvenSpan rb ↔ (calcCountEndSeq rb).1.toNat % 2 = 0 := by
    have hne := ht.filled ssrc rb hrb
    have hn := hnarrow ssrc rb hrb
    have := windowSize_narrow hn
    rw [evenSpan_iff hn hne, toNat_count hne (by omega)]
  constructor
  · rintro heven ssrc rb hrb ⟨other, hother, hlt⟩
    obtain ⟨rb', hrb'⟩ := Option.isSome_iff_exists.mp (Std.ExtTreeMap.isSome_getElem?_iff_mem.mpr hother)
    refine (hparity hrb).mpr (heven (ssrc, rb) ((mem_dropLast_iff (sorted_toList _)).mpr ?_))
    exact ⟨mem_toList.mpr hrb, (other, rb'), mem_toList.mpr hrb', UInt32.lt_iff_toNat_lt.mp hlt⟩
  · intro heven rb hrb
    obtain ⟨hmem, other, hother, hlt⟩ := (mem_dropLast_iff (sorted_toList _)).mp hrb
    refine (hparity (mem_toList.mp hmem)).mp (heven rb.1 rb.2 (mem_toList.mp hmem) ⟨other.1, ?_, ?_⟩)
    · rw [← Std.ExtTreeMap.isSome_getElem?_iff_mem, mem_toList.mp hother]
      rfl
    · exact UInt32.lt_iff_toNat_lt.mpr hlt

/-- A header that reports packets whose numbers, size and times the wire format has room for. -/
structure Reportable (h : RfbHeader) : Prop where
  nonempty : h.reportBlocks ≠ ∅
  narrow : ∀ (ssrc : UInt32) (rb : RfbReportBlock), h.reportBlocks[ssrc]? = some rb → Narrow rb
  len : encodedLen h.reportBlocks ≤ 65535
  reportTime : h.reportTimeMs.toNat < 2 ^ 32
  stamps : StampsFit h

private theorem Reportable.complete {calls : List RfbCall} {h : RfbHeader} (hrun : calls.foldl apply fresh = h)
    (hr : Reportable h) : Complete h := by
  obtain ⟨hsettles, hnot⟩ := settled_foldl calls
  rw [hrun] at hsettles hnot
  have hcall : ∃ call ∈ calls, SetsLength call := by
    by_contra hnone
    exact hr.nonempty (hnot hnone).1
  exact
    { tidy := hrun ▸ tidy_foldl calls
      settled := hsettles hcall
      len := hr.len
      size := fun ssrc rb hrb => (windowSize_narrow (hr.narrow ssrc rb hrb)).trans_lt (by decide)
      reportTime := hr.reportTime
      stamps := hr.stamps }

/-- A header that any calls made and that can be reported is read back unchanged exactly when
every stream but that of the largest SSRC spans an even number of places: the padding of the
others is counted by the reader, but not read. -/
theorem roundTrips_iff {calls : List RfbCall} {h : RfbHeader} (hrun : calls.foldl apply fresh = h)
    (hr : Reportable h) : RoundTrips h ↔ EvenBeforeLargest h := by
  have hh := hr.complete hrun
  rw [← evenButLast_iff hh.tidy hr.narrow]
  exact ⟨hh.even_of_roundTrips, hh.roundTrips⟩

private theorem reportable_of_entries {h : RfbHeader} (hne : h.getSsrcList ≠ [])
    (hlen : encodedLen h.reportBlocks ≤ 65535) (htime : h.reportTimeMs.toNat < 2 ^ 32)
    (hnarrow : ∀ rb ∈ h.reportBlocks.toList,
      (rb.2.keys.any fun first => rb.2.keys.all fun seq => ahead first seq < 100) = true)
    (hstamps : ∀ rb ∈ h.reportBlocks.toList, ∀ e ∈ rb.2.toList,
      e.2.timestampMs.toNat ≤ h.reportTimeMs.toNat ∧ h.reportTimeMs.toNat ≤ e.2.timestampMs.toNat + 8191) :
    Reportable h where
  nonempty := fun hnil => hne (Std.ExtTreeMap.keys_eq_nil_iff.mpr hnil)
  narrow := by
    intro ssrc rb hrb
    obtain ⟨first, -, hfirst⟩ := List.any_eq_true.mp (hnarrow (ssrc, rb) (mem_toList.mpr hrb))
    refine ⟨first, fun seq hseq => ?_⟩
    exact of_decide_eq_true (List.all_eq_true.mp hfirst seq (Std.ExtTreeMap.mem_keys.mpr hseq))
  len := hlen
  reportTime := htime
  stamps := by
    intro ssrc seq mb hmb
    rw [lookup?_eq] at hmb
    obtain ⟨rb, hrb, hseq⟩ := Option.bind_eq_some_iff.mp hmb
    exact hstamps (ssrc, rb) (mem_toList.mpr hrb) (seq, mb) (mem_toList.mpr hseq)

/-- Two streams: one spans two places across the end of the range, the other one spans three. -/
def twoStreams : List RfbCall :=
  [.addFeedback 7 65535 4000 1, .addFeedback 7 0 4010 0, .addFeedback 9 5 4005 3, .addFeedback 9 3 4006 2,
    .increaseFbSeq, .setReportTime 5000]

theorem roundTrips_iff_two_streams : RoundTrips (twoStreams.foldl apply fresh) := by
  refine (roundTrips_iff rfl (reportable_of_entries ?_ ?_ ?_ ?_ ?_)).mpr ?_
  iterate 5 decide +kernel
  have hspans : ∀ rb ∈ (twoStreams.foldl apply fresh).reportBlocks.toList,
      ((twoStreams.foldl apply fresh).reportBlocks.keys.any fun other => rb.1 < other) = true →
        rb.2.keys = [0, 65535] := by decide +kernel
  rintro ssrc rb hrb ⟨other, hother, hlt⟩
  have hlarger : ((twoStreams.foldl apply fresh).reportBlocks.keys.any fun other => ssrc < other) = true :=
    List.any_eq_true.mpr ⟨other, Std.ExtTreeMap.mem_keys.mpr hother, decide_eq_true hlt⟩
  have hkeys := hspans (ssrc, rb) (mem_toList.mpr hrb) hlarger
  refine ⟨65535, ?_, 0, ?_, fun seq hseq => ?_, by decide⟩
  · rw [← Std.ExtTreeMap.mem_keys, hkeys]
    simp
  · rw [← Std.ExtTreeMap.mem_keys, hkeys]
    simp
  · rw [← Std.ExtTreeMap.mem_keys, hkeys] at hseq
    rcases List.mem_pair.mp hseq with rfl | rfl
    · decide
    · decide

/-- One packet of each of two streams: the padding after the first block is taken for a word of
the second one, whose SSRC comes back as another. -/
theorem two_streams_misread :
    let h := [RfbCall.addFeedback 1 10 0 0, .addFeedback 2 20 0 0].foldl apply fresh
    Reportable h ∧ h.getSsrcList = [1, 2] ∧
      (h.serialize >>= fun bytes => fresh.deserialize bytes).map (fun r => r.2.1.getSsrcList) = .ok [0, 1] ∧
      ¬ RoundTrips h := by
  intro h
  have hread : (h.serialize >>= fun bytes => fresh.deserialize bytes).map (fun r => r.2.1.getSsrcList) =
      .ok [0, 1] := by decide +kernel
  have hssrcs : h.getSsrcList = [1, 2] := by decide +kernel
  refine ⟨reportable_of_entries ?_ ?_ ?_ ?_ ?_, hssrcs, hread, ?_⟩
  iterate 5 decide +kernel
  rintro ⟨bytes, n, g, left, hbytes, hdes, -, hsame, -⟩
  rw [hbytes, ok_bind, hdes] at hread
  have hlist : g.getSsrcList = [0, 1] := by simpa [Except.map] using hread
  rw [getSsrcList, hsame] at hlist
  rw [getSsrcList, hlist] at hssrcs
  cases hssrcs

end RfbHeader

end Ns3Rmcat.Header
