import Ns3Rmcat.Header.CCFeedbackWindow
import Ns3Rmcat.Lib.OrderedMap

/-! Additions to a congestion control feedback header: what each of them does, which
invariant all runs keep, and the size that is told against the octets that are written. -/
namespace Ns3Rmcat.Header
open Lib CCFeedback

namespace CCFeedback

def places (rb : ReportBlock) : Nat :=
  match calculateBeginStopSeq rb with
  | .ok (beginSeq, stopSeq) => ahead beginSeq stopSeq
  | .error _ => 0

def blockWords (n : Nat) : Nat := 2 + (n + n % 2) / 2

/-- The length field that a packet with these report blocks needs. -/
def neededLength (reportBlocks : Std.ExtTreeMap UInt32 ReportBlock) : Nat :=
  1 + (reportBlocks.toList.map fun rb => blockWords (places rb.2)).sum + 1

/-- A number that the block does not have. -/
def Lacks (rb : ReportBlock) : Prop := ∃ seq, seq ∉ rb

theorem not_lacks {rb : ReportBlock} : ¬ Lacks rb ↔ ∀ seq, seq ∈ rb := by
  rw [Lacks]
  push Not
  rfl

theorem places_eq {rb : ReportBlock} {beginSeq stopSeq : UInt16}
    (h : calculateBeginStopSeq rb = .ok (beginSeq, stopSeq)) : places rb = ahead beginSeq stopSeq := by
  rw [places, h]

end CCFeedback

namespace CCFeedbackHeader

theorem addBlockWords_lacks {len : Nat} {blocks : List (UInt32 × ReportBlock)}
    (hblocks : ∀ rb ∈ blocks, rb.2 ≠ ∅ ∧ Lacks rb.2) :
    addBlockWords len blocks = .ok (len + (blocks.map fun rb => blockWords (places rb.2)).sum) := by
  induction blocks generalizing len with
  | nil => rfl
  | cons rb blocks ih =>
    obtain ⟨hne, hlacks⟩ := hblocks rb List.mem_cons_self
    obtain ⟨beginSeq, stopSeq, hcalc, -⟩ := calculateBeginStopSeq_window hne hlacks
    rw [addBlockWords, hcalc, ok_bind]
    simp only [ih fun rb' hrb' => hblocks rb' (List.mem_cons_of_mem _ hrb'), List.map_cons, List.sum_cons,
      places_eq hcalc, blockWords, ahead, UInt16.toNat_mod, UInt16.reduceToNat]
    refine congrArg _ ?_
    omega

/-- A block that has every number stops the count. -/
theorem addBlockWords_full {len : Nat} {blocks : List (UInt32 × ReportBlock)}
    (hblocks : ∀ rb ∈ blocks, rb.2 ≠ ∅) (hfull : ∃ rb ∈ blocks, ¬ Lacks rb.2) :
    addBlockWords len blocks = .error .assertion := by
  induction blocks generalizing len with
  | nil =>
    obtain ⟨rb, hrb, -⟩ := hfull
    cases hrb
  | cons rb blocks ih =>
    by_cases hlacks : Lacks rb.2
    · obtain ⟨beginSeq, stopSeq, hcalc, -⟩ := calculateBeginStopSeq_window (hblocks rb List.mem_cons_self) hlacks
      rw [addBlockWords, hcalc, ok_bind]
      refine ih (fun rb' hrb' => hblocks rb' (List.mem_cons_of_mem _ hrb')) ?_
      obtain ⟨rb', hrb', hnot⟩ := hfull
      rcases List.mem_cons.mp hrb' with rfl | hrb'
      · exact absurd hlacks hnot
      · exact ⟨rb', hrb', hnot⟩
    · rw [addBlockWords, calculateBeginStopSeq_full (not_lacks.mp hlacks)]
      rfl

/-- What holds of a header after any calls. -/
structure Kept (h : CCFeedbackHeader) : Prop where
  filled : Filled h.reportBlocks
  lacks : ∀ (ssrc : UInt32) (rb : ReportBlock), h.reportBlocks[ssrc]? = some rb → Lacks rb
  ecn : ∀ (ssrc : UInt32) (seq : UInt16) (mb : MetricBlock),
    lookup? h.reportBlocks ssrc seq = some mb → mb.ecn ≤ 3
  latest : ∀ (ssrc : UInt32) (seq : UInt16) (mb : MetricBlock),
    lookup? h.reportBlocks ssrc seq = some mb → mb.timestampUs ≤ h.latestTsUs
  attained : (h.reportBlocks = ∅ ∧ h.latestTsUs = 0) ∨ ∃ (ssrc : UInt32) (seq : UInt16) (mb : MetricBlock),
    lookup? h.reportBlocks ssrc seq = some mb ∧ mb.timestampUs = h.latestTsUs
  packetType : h.common.packetType = rtpFb
  typeOrCnt : h.common.typeOrCnt = rtcpRtpfbCc
  length : h.common.length.toNat = neededLength h.reportBlocks

theorem kept_fresh : Kept fresh where
  filled := filled_empty
  lacks := by simp [fresh]
  ecn := by simp [fresh, lookup?]
  latest := by simp [fresh, lookup?]
  attained := .inl ⟨rfl, rfl⟩
  packetType := rfl
  typeOrCnt := rfl
  length := by decide +kernel

/-- With a new entry the block of the SSRC would have every number. -/
def Fills (h : CCFeedbackHeader) (ssrc : UInt32) (seq : UInt16) : Prop :=
  ∀ other, seq = other ∨ (lookup? h.reportBlocks ssrc other).isSome

def withEntry (h : CCFeedbackHeader) (ssrc : UInt32) (seq : UInt16) (timestampUs : UInt64) (ecn : UInt8) :
    Std.ExtTreeMap UInt32 ReportBlock := recordEntry h.reportBlocks ssrc seq { ecn, timestampUs }

/-- A header whose report blocks are other ones, and its length and latest time with them. -/
def added (h : CCFeedbackHeader) (ssrc : UInt32) (seq : UInt16) (timestampUs : UInt64) (ecn : UInt8) :
    CCFeedbackHeader where
  common := { h.common with length := UInt16.ofNat (neededLength (h.withEntry ssrc seq timestampUs ecn)) }
  reportBlocks := h.withEntry ssrc seq timestampUs ecn
  latestTsUs := max h.latestTsUs timestampUs

private theorem getElem?_withEntry (h : CCFeedbackHeader) (ssrc ssrc' : UInt32) (seq : UInt16) (ts : UInt64)
    (ecn : UInt8) :
    (h.withEntry ssrc seq ts ecn)[ssrc']? =
      if ssrc = ssrc' then some ((h.reportBlocks.getD ssrc ∅).insert seq { ecn, timestampUs := ts })
      else h.reportBlocks[ssrc']? := by
  simp [withEntry, recordEntry, Std.ExtTreeMap.getElem?_insert]

theorem withEntry_filled {h : CCFeedbackHeader} (hfilled : Filled h.reportBlocks) (ssrc : UInt32) (seq : UInt16) (ts : UInt64)
    (ecn : UInt8) : ∀ rb ∈ (h.withEntry ssrc seq ts ecn).toList, rb.2 ≠ ∅ :=
  fun rb hrb => hfilled.recordEntry ssrc seq _ rb.1 rb.2 (mem_toList.mp hrb)

/-- Unless the new entry fills its block, all blocks lack some number. -/
theorem withEntry_lacks {h : CCFeedbackHeader} {ssrc : UInt32} {seq : UInt16} {ts : UInt64} {ecn : UInt8}
    (hlacks : ∀ (ssrc : UInt32) (rb : ReportBlock), h.reportBlocks[ssrc]? = some rb → Lacks rb)
    (hnot : ¬ h.Fills ssrc seq) {ssrc' : UInt32} {rb : ReportBlock}
    (hrb : (h.withEntry ssrc seq ts ecn)[ssrc']? = some rb) : Lacks rb := by
  rw [getElem?_withEntry] at hrb
  split at hrb
  · rw [Fills] at hnot
    push Not at hnot
    obtain ⟨other, hne, hnone⟩ := hnot
    refine ⟨other, fun hmem => ?_⟩
    cases hrb
    rcases Std.ExtTreeMap.mem_insert.mp hmem with heq | hmem
    · exact hne (Std.compare_eq_iff_eq.mp heq)
    · rw [← Std.ExtTreeMap.isSome_getElem?_iff_mem] at hmem
      exact hnone hmem
  · exact hlacks ssrc' rb hrb

theorem withEntry_full {h : CCFeedbackHeader} {ssrc : UInt32} {seq : UInt16} {ts : UInt64} {ecn : UInt8}
    (hfills : h.Fills ssrc seq) : ∃ rb ∈ (h.withEntry ssrc seq ts ecn).toList, ¬ Lacks rb.2 := by
  refine ⟨(ssrc, (h.reportBlocks.getD ssrc ∅).insert seq { ecn, timestampUs := ts }), ?_, ?_⟩
  · rw [mem_toList, getElem?_withEntry, if_pos rfl]
  · rw [not_lacks]
    intro other
    rw [Std.ExtTreeMap.mem_insert, Std.compare_eq_iff_eq]
    refine (hfills other).imp_right fun hsome => ?_
    rwa [← Std.ExtTreeMap.isSome_getElem?_iff_mem]

private theorem rollback_eq {h : CCFeedbackHeader} (hfilled : Filled h.reportBlocks) {ssrc : UInt32} {seq : UInt16}
    (mb : MetricBlock) (hnew : lookup? h.reportBlocks ssrc seq = none) :
    let rb := ((h.reportBlocks.getD ssrc ∅).insert seq mb).erase seq
    let reportBlocks := (recordEntry h.reportBlocks ssrc seq mb).insert ssrc rb
    (if rb.isEmpty then reportBlocks.erase ssrc else reportBlocks) = h.reportBlocks := by
  have hrb : ((h.reportBlocks.getD ssrc ∅).insert seq mb).erase seq = h.reportBlocks.getD ssrc ∅ := by
    apply Std.ExtTreeMap.ext_getElem?
    intro other
    rw [Std.ExtTreeMap.getElem?_erase, Std.ExtTreeMap.getElem?_insert]
    by_cases hs : seq = other
    · subst hs
      simpa [lookup?] using hnew.symm
    · simp [hs]
  intro rb reportBlocks
  rw [show rb = h.reportBlocks.getD ssrc ∅ from hrb]
  apply Std.ExtTreeMap.ext_getElem?
  intro other
  cases hssrc : h.reportBlocks[ssrc]? with
  | none =>
    have hnil : h.reportBlocks.getD ssrc ∅ = ∅ := by rw [Std.ExtTreeMap.getD_eq_getD_getElem?, hssrc]; rfl
    rw [hnil, if_pos (by simp)]
    simp only [reportBlocks, recordEntry, Std.ExtTreeMap.getElem?_erase, Std.ExtTreeMap.getElem?_insert]
    by_cases hs : ssrc = other
    · subst hs
      simp [hssrc]
    · simp [hs]
  | some old =>
    have hold : h.reportBlocks.getD ssrc ∅ = old := by rw [Std.ExtTreeMap.getD_eq_getD_getElem?, hssrc]; rfl
    have hne : ¬ old.isEmpty = true := by
      simpa using hfilled ssrc old hssrc
    rw [hold, if_neg hne]
    simp only [reportBlocks, rb, hrb, hold, recordEntry, Std.ExtTreeMap.getElem?_insert]
    by_cases hs : ssrc = other
    · subst hs
      simp [hssrc]
    · simp [hs]

theorem addFeedback_badEcn (h : CCFeedbackHeader) (ssrc : UInt32) (seq : UInt16) (ts : UInt64) {ecn : UInt8}
    (hecn : 3 < ecn) : h.addFeedback ssrc seq ts ecn = .ok (.badEcn, h) := by
  rw [addFeedback, if_pos hecn]
  rfl

theorem addFeedback_duplicate (h : CCFeedbackHeader) {ssrc : UInt32} {seq : UInt16} (ts : UInt64) {ecn : UInt8}
    (hecn : ecn ≤ 3) (hold : (lookup? h.reportBlocks ssrc seq).isSome) :
    h.addFeedback ssrc seq ts ecn = .ok (.duplicate, h) := by
  have hcontains : (h.reportBlocks.getD ssrc ∅).contains seq = true := by
    rw [Std.ExtTreeMap.contains_eq_isSome_getElem?]
    exact hold
  have hsame : h.reportBlocks.insert ssrc (h.reportBlocks.getD ssrc ∅) = h.reportBlocks := by
    apply Std.ExtTreeMap.ext_getElem?
    intro other
    rw [Std.ExtTreeMap.getElem?_insert]
    by_cases hs : ssrc = other
    · subst hs
      rw [lookup?_eq] at hold
      obtain ⟨mb, hmb⟩ := Option.isSome_iff_exists.mp hold
      obtain ⟨rb, hrb, -⟩ := Option.bind_eq_some_iff.mp hmb
      simp [Std.ExtTreeMap.getD_eq_getD_getElem?, hrb]
    · simp [hs]
  rw [addFeedback, if_neg (UInt8.not_lt.mpr hecn)]
  simp only [hcontains, if_true, hsame]
  rfl

/-- A new entry is recorded, and then kept or removed, as the length has it. -/
theorem addFeedback_new {h : CCFeedbackHeader} (hfilled : Filled h.reportBlocks) {ssrc : UInt32} {seq : UInt16} (ts : UInt64)
    {ecn : UInt8} (hecn : ecn ≤ 3) (hnew : lookup? h.reportBlocks ssrc seq = none) :
    h.addFeedback ssrc seq ts ecn =
      (addBlockWords 1 (h.withEntry ssrc seq ts ecn).toList >>= fun len =>
        if 0xffff < len + 1 then .ok (.tooLong, h)
        else .ok (.none, { h with
          common := { h.common with length := UInt16.ofNat (len + 1) }
          reportBlocks := h.withEntry ssrc seq ts ecn
          latestTsUs := max h.latestTsUs ts })) := by
  have hcontains : (h.reportBlocks.getD ssrc ∅).contains seq = false := by
    rw [Std.ExtTreeMap.contains_eq_isSome_getElem?]
    exact Option.isSome_eq_false_iff.mpr (Option.isNone_iff_eq_none.mpr hnew)
  have hentry : (h.reportBlocks.insert ssrc (h.reportBlocks.getD ssrc ∅)).insert ssrc
      ((h.reportBlocks.getD ssrc ∅).insert seq { ecn, timestampUs := ts }) = h.withEntry ssrc seq ts ecn := by
    apply Std.ExtTreeMap.ext_getElem?
    intro other
    rw [getElem?_withEntry, Std.ExtTreeMap.getElem?_insert, Std.ExtTreeMap.getElem?_insert]
    by_cases hs : ssrc = other
    · simp [hs]
    · simp [hs]
  rw [addFeedback, if_neg (UInt8.not_lt.mpr hecn)]
  simp only [hcontains, Bool.false_eq_true, if_false, hentry, updateLength]
  cases hlen : addBlockWords 1 (h.withEntry ssrc seq ts ecn).toList with
  | error e => rfl
  | ok len =>
    by_cases hlong : 0xffff < len + 1
    · have hback := rollback_eq hfilled { ecn, timestampUs := ts } hnew
      simp only [ok_bind, if_pos hlong, pure_eq_ok, Bool.not_false, if_true]
      exact congrArg (fun reportBlocks => Except.ok (RejectReason.tooLong, { h with reportBlocks })) hback
    · simp only [ok_bind, if_neg hlong, pure_eq_ok, Bool.not_true, Bool.false_eq_true, if_false]

/-- Everything that an addition can do: it stops when the block of the SSRC would have every
number, and otherwise refuses the entry and changes nothing, or records it. -/
theorem addFeedback_cases {h : CCFeedbackHeader} (hk : Kept h) (ssrc : UInt32) (seq : UInt16) (ts : UInt64)
    (ecn : UInt8) :
    (3 < ecn ∧ h.addFeedback ssrc seq ts ecn = .ok (.badEcn, h)) ∨
    (ecn ≤ 3 ∧ (lookup? h.reportBlocks ssrc seq).isSome ∧ h.addFeedback ssrc seq ts ecn = .ok (.duplicate, h)) ∨
    (ecn ≤ 3 ∧ lookup? h.reportBlocks ssrc seq = none ∧
      ((h.Fills ssrc seq ∧ h.addFeedback ssrc seq ts ecn = .error .assertion) ∨
      (¬ h.Fills ssrc seq ∧ 65535 < neededLength (h.withEntry ssrc seq ts ecn) ∧
        h.addFeedback ssrc seq ts ecn = .ok (.tooLong, h)) ∨
      (¬ h.Fills ssrc seq ∧ neededLength (h.withEntry ssrc seq ts ecn) ≤ 65535 ∧
        h.addFeedback ssrc seq ts ecn = .ok (.none, h.added ssrc seq ts ecn)))) := by
  by_cases hecn : 3 < ecn
  · exact .inl ⟨hecn, addFeedback_badEcn h ssrc seq ts hecn⟩
  · have hecn : ecn ≤ 3 := UInt8.not_lt.mp hecn
    cases hentry : lookup? h.reportBlocks ssrc seq with
    | some mb =>
      have hsome : (lookup? h.reportBlocks ssrc seq).isSome := by rw [hentry]; rfl
      exact .inr (.inl ⟨hecn, rfl, addFeedback_duplicate h ts hecn hsome⟩)
    | none =>
      refine .inr (.inr ⟨hecn, rfl, ?_⟩)
      have hnonempty := withEntry_filled hk.filled ssrc seq ts ecn
      rw [addFeedback_new hk.filled ts hecn hentry]
      by_cases hfills : h.Fills ssrc seq
      · refine .inl ⟨hfills, ?_⟩
        rw [addBlockWords_full hnonempty (withEntry_full hfills)]
        rfl
      · have hlacks : ∀ rb ∈ (h.withEntry ssrc seq ts ecn).toList, rb.2 ≠ ∅ ∧ Lacks rb.2 := fun rb hrb =>
          ⟨hnonempty rb hrb, withEntry_lacks hk.lacks hfills (mem_toList.mp hrb)⟩
        have hlen : (1 + ((h.withEntry ssrc seq ts ecn).toList.map fun rb => blockWords (places rb.2)).sum) + 1 =
            neededLength (h.withEntry ssrc seq ts ecn) := rfl
        rw [addBlockWords_lacks hlacks, ok_bind, hlen]
        by_cases hlong : 65535 < neededLength (h.withEntry ssrc seq ts ecn)
        · exact .inr (.inl ⟨hfills, hlong, if_pos hlong⟩)
        · exact .inr (.inr ⟨hfills, Nat.not_lt.mp hlong, if_neg hlong⟩)

private theorem max_cases (a b : UInt64) : (a ≤ b ∧ max a b = b) ∨ (b < a ∧ max a b = a) := by
  have hmax : max a b = if a ≤ b then b else a := rfl
  rw [hmax]
  by_cases hle : a ≤ b
  · exact .inl ⟨hle, if_pos hle⟩
  · exact .inr ⟨UInt64.not_le.mp hle, if_neg hle⟩

private theorem le_max (a b : UInt64) : a ≤ max a b ∧ b ≤ max a b := by
  rcases max_cases a b with ⟨hle, hmax⟩ | ⟨hlt, hmax⟩
  · rw [hmax]
    exact ⟨hle, UInt64.le_refl b⟩
  · rw [hmax]
    exact ⟨UInt64.le_refl a, UInt64.le_of_lt hlt⟩

theorem Kept.added {h : CCFeedbackHeader} (hk : Kept h) {ssrc : UInt32} {seq : UInt16} {ts : UInt64}
    {ecn : UInt8} (hecn : ecn ≤ 3) (hnew : lookup? h.reportBlocks ssrc seq = none) (hfills : ¬ h.Fills ssrc seq)
    (hlen : neededLength (h.withEntry ssrc seq ts ecn) ≤ 65535) : Kept (h.added ssrc seq ts ecn) where
  filled := hk.filled.recordEntry ssrc seq _
  lacks := fun ssrc' rb hrb => withEntry_lacks hk.lacks hfills hrb
  ecn := by
    intro ssrc' seq' mb hmb
    rw [CCFeedbackHeader.added, withEntry, lookup?_recordEntry] at hmb
    split at hmb
    · cases hmb
      exact hecn
    · exact hk.ecn ssrc' seq' mb hmb
  latest := by
    intro ssrc' seq' mb hmb
    rw [CCFeedbackHeader.added, withEntry, lookup?_recordEntry] at hmb
    split at hmb
    · cases hmb
      exact (le_max h.latestTsUs ts).2
    · exact UInt64.le_trans (hk.latest ssrc' seq' mb hmb) (le_max h.latestTsUs ts).1
  attained := by
    have hentry (ssrc' : UInt32) (seq' : UInt16) : lookup? (h.added ssrc seq ts ecn).reportBlocks ssrc' seq' =
        if ssrc = ssrc' ∧ seq = seq' then some { ecn, timestampUs := ts }
        else lookup? h.reportBlocks ssrc' seq' := lookup?_recordEntry ..
    rcases max_cases h.latestTsUs ts with ⟨-, hmax⟩ | ⟨hlt, hmax⟩
    · exact .inr ⟨ssrc, seq, _, by rw [hentry, if_pos ⟨rfl, rfl⟩], hmax.symm⟩
    · rcases hk.attained with ⟨-, hzero⟩ | ⟨ssrc', seq', mb, hmb, hts⟩
      · rw [hzero] at hlt
        exact absurd hlt UInt64.not_lt_zero
      · refine .inr ⟨ssrc', seq', mb, ?_, hts.trans hmax.symm⟩
        rw [hentry, if_neg ?_]
        · exact hmb
        · rintro ⟨rfl, rfl⟩
          rw [hnew] at hmb
          cases hmb
  packetType := hk.packetType
  typeOrCnt := hk.typeOrCnt
  length := by
    simp only [CCFeedbackHeader.added, UInt16.toNat_ofNat']
    omega

end CCFeedbackHeader

/-- A call of the interface that changes a header. -/
inductive CCFeedbackCall where
  | addFeedback (ssrc : UInt32) (seq : UInt16) (timestampUs : UInt64) (ecn : UInt8)
  | clear
  | setSendSsrc (sendSsrc : UInt32)
  deriving DecidableEq, Repr

namespace CCFeedbackHeader

def step (h : CCFeedbackHeader) : CCFeedbackCall → Checked CCFeedbackHeader
  | .addFeedback ssrc seq timestampUs ecn => do
    let (_, h) ← h.addFeedback ssrc seq timestampUs ecn
    return h
  | .clear => .ok h.clear
  | .setSendSsrc sendSsrc => .ok (h.setSendSsrc sendSsrc)

theorem Kept.setSendSsrc {h : CCFeedbackHeader} (hk : Kept h) (sendSsrc : UInt32) : Kept (h.setSendSsrc sendSsrc) :=
  ⟨hk.filled, hk.lacks, hk.ecn, hk.latest, hk.attained, hk.packetType, hk.typeOrCnt, hk.length⟩

private theorem Kept.step {h h' : CCFeedbackHeader} (hk : Kept h) {call : CCFeedbackCall}
    (hstep : h.step call = .ok h') :
    Kept h' := by
  cases call with
  | addFeedback ssrc seq ts ecn =>
    obtain ⟨⟨reason, h1⟩, hadd, he⟩ := bind_eq_ok.mp hstep
    cases he
    rcases addFeedback_cases hk ssrc seq ts ecn with ⟨-, hok⟩ | ⟨-, -, hok⟩ | ⟨hecn, hnew, ⟨-, hok⟩ | ⟨-, -, hok⟩ |
      ⟨hfills, hlen, hok⟩⟩
    · cases hadd.symm.trans hok
      exact hk
    · cases hadd.symm.trans hok
      exact hk
    · cases hadd.symm.trans hok
    · cases hadd.symm.trans hok
      exact hk
    · cases hadd.symm.trans hok
      exact hk.added hecn hnew hfills hlen
  | clear =>
    cases hstep
    exact kept_fresh
  | setSendSsrc sendSsrc =>
    cases hstep
    exact hk.setSendSsrc sendSsrc

/-- Every header that calls build is kept. -/
theorem kept_run {calls : List CCFeedbackCall} {h : CCFeedbackHeader} (hrun : run step fresh calls = .ok h) :
    Kept h := by
  refine run_induction step (motive := fun _ h => Kept h) kept_fresh ?_ hrun
  intro before call mid h' _ hmid hstep
  exact hmid.step hstep

end CCFeedbackHeader

end Ns3Rmcat.Header
