import Ns3Rmcat.Header.CCFeedbackAdd

/-! The order of additions: what is accepted in one order is accepted in every other, and makes
the same header. -/
namespace Ns3Rmcat.Header
open Lib CCFeedback

namespace CCFeedback

private theorem blockWords_mono {m n : Nat} (h : m ≤ n) : blockWords m ≤ blockWords n := by
  simp only [blockWords]
  omega

private theorem places_mono {rb rb' : ReportBlock} (hne : rb ≠ ∅) (hlacks : Lacks rb') (hsub : ∀ seq ∈ rb, seq ∈ rb') :
    places rb ≤ places rb' := by
  obtain ⟨missing, hmissing⟩ := hlacks
  have hne' : rb' ≠ ∅ := by
    rintro rfl
    exact hne (Std.ExtTreeMap.ext_getElem? fun seq => by
      have hnot : seq ∉ rb := fun hseq => Std.ExtTreeMap.not_mem_empty (hsub seq hseq)
      rw [Std.ExtTreeMap.getElem?_eq_none hnot, Std.ExtTreeMap.getElem?_empty])
  obtain ⟨beginSeq, stopSeq, hcalc, -⟩ := calculateBeginStopSeq_window hne ⟨missing, fun h => hmissing (hsub _ h)⟩
  obtain ⟨beginSeq', stopSeq', hcalc', -⟩ := calculateBeginStopSeq_window hne' ⟨missing, hmissing⟩
  rw [places_eq hcalc, places_eq hcalc']
  exact (calculateBeginStopSeq_shortest hcalc).least beginSeq' _ fun seq hseq =>
    (calculateBeginStopSeq_shortest hcalc').covers seq (hsub seq hseq)

private theorem neededLength_le_recordEntry {m : Std.ExtTreeMap UInt32 ReportBlock} (hm : Filled m) (ssrc : UInt32)
    (seq : UInt16) (mb : MetricBlock)
    (hlacks : ∀ (ssrc' : UInt32) (rb : ReportBlock), (recordEntry m ssrc seq mb)[ssrc']? = some rb → Lacks rb) :
    neededLength m ≤ neededLength (recordEntry m ssrc seq mb) := by
  have hsum := @sum_toList_le _ _ _ _ _ (fun rb => blockWords (places rb)) m (recordEntry m ssrc seq mb)
    fun ssrc' rb hrb => by
      obtain ⟨rb', hrb', hsub⟩ : ∃ rb', (recordEntry m ssrc seq mb)[ssrc']? = some rb' ∧ ∀ s ∈ rb, s ∈ rb' := by
        rw [recordEntry, Std.ExtTreeMap.getElem?_insert]
        by_cases hs : ssrc = ssrc'
        · subst hs
          refine ⟨_, if_pos (by simp), fun s hseq => ?_⟩
          rw [Std.ExtTreeMap.getD_eq_getD_getElem?, hrb]
          exact Std.ExtTreeMap.mem_insert.mpr (.inr hseq)
        · exact ⟨rb, by rw [if_neg (by simpa using hs), hrb], fun s hseq => hseq⟩
      exact ⟨rb', hrb', blockWords_mono (places_mono (hm ssrc' rb hrb) (hlacks ssrc' rb' hrb') hsub)⟩
  simp only [neededLength]
  omega

end CCFeedback

/-- One call of AddFeedback. -/
structure Addition where
  ssrc : UInt32
  seq : UInt16
  timestampUs : UInt64
  ecn : UInt8
  deriving DecidableEq, Repr

namespace CCFeedbackHeader

/-- An addition that must not be refused. -/
def accept (h : CCFeedbackHeader) (a : Addition) : Checked CCFeedbackHeader := do
  let (reason, h) ← h.addFeedback a.ssrc a.seq a.timestampUs a.ecn
  check (reason = .none)
  return h

/-- What an addition needs to be accepted. -/
structure Accepts (h : CCFeedbackHeader) (a : Addition) : Prop where
  ecn : a.ecn ≤ 3
  new : lookup? h.reportBlocks a.ssrc a.seq = none
  room : ¬ h.Fills a.ssrc a.seq
  short : neededLength (h.withEntry a.ssrc a.seq a.timestampUs a.ecn) ≤ 65535

private theorem accept_eq_ok {h h' : CCFeedbackHeader} (hk : Kept h) {a : Addition} :
    h.accept a = .ok h' ↔ h.Accepts a ∧ h' = h.added a.ssrc a.seq a.timestampUs a.ecn := by
  rw [accept]
  rcases addFeedback_cases hk a.ssrc a.seq a.timestampUs a.ecn with ⟨hecn, hok⟩ | ⟨hecn, hsome, hok⟩ |
    ⟨hecn, hnew, ⟨hfills, hok⟩ | ⟨hfills, hlong, hok⟩ | ⟨hfills, hshort, hok⟩⟩
  · rw [hok]
    exact ⟨fun he => by simp [check] at he, fun ⟨hacc, _⟩ => absurd hecn (UInt8.not_lt.mpr hacc.ecn)⟩
  · rw [hok]
    exact ⟨fun he => by simp [check] at he, fun ⟨hacc, _⟩ => by simp [hacc.new] at hsome⟩
  · rw [hok]
    exact ⟨fun he => (by cases he), fun ⟨hacc, _⟩ => absurd hfills hacc.room⟩
  · rw [hok]
    exact ⟨fun he => by simp [check] at he, fun ⟨hacc, _⟩ => absurd hacc.short (Nat.not_le.mpr hlong)⟩
  · rw [hok, ok_bind]
    constructor
    · intro he
      cases he
      exact ⟨⟨hecn, hnew, hfills, hshort⟩, rfl⟩
    · rintro ⟨-, rfl⟩
      rfl

private theorem Accepts.kept {h : CCFeedbackHeader} {a : Addition} (hacc : h.Accepts a) (hk : Kept h) :
    Kept (h.added a.ssrc a.seq a.timestampUs a.ecn) := hk.added hacc.ecn hacc.new hacc.room hacc.short

/-- The header with another length, other report blocks and another latest time. -/
def rebuilt (h : CCFeedbackHeader) (length : UInt16) (reportBlocks : Std.ExtTreeMap UInt32 ReportBlock)
    (latestTsUs : UInt64) : CCFeedbackHeader :=
  { common := { h.common with length }, reportBlocks, latestTsUs }

private theorem rebuilt_rebuilt (h : CCFeedbackHeader) (length length' : UInt16)
    (reportBlocks reportBlocks' : Std.ExtTreeMap UInt32 ReportBlock) (latestTsUs latestTsUs' : UInt64) :
    (h.rebuilt length reportBlocks latestTsUs).rebuilt length' reportBlocks' latestTsUs' =
      h.rebuilt length' reportBlocks' latestTsUs' := rfl

private theorem latestTsUs_rebuilt (h : CCFeedbackHeader) (length : UInt16)
    (reportBlocks : Std.ExtTreeMap UInt32 ReportBlock) (latestTsUs : UInt64) :
    (h.rebuilt length reportBlocks latestTsUs).latestTsUs = latestTsUs := rfl

private theorem added_eq (h : CCFeedbackHeader) (a : Addition) :
    h.added a.ssrc a.seq a.timestampUs a.ecn =
      h.rebuilt (UInt16.ofNat (neededLength (h.withEntry a.ssrc a.seq a.timestampUs a.ecn)))
        (h.withEntry a.ssrc a.seq a.timestampUs a.ecn) (max h.latestTsUs a.timestampUs) := rfl

private theorem added_added (h : CCFeedbackHeader) (a b : Addition) {m : Std.ExtTreeMap UInt32 ReportBlock}
    (hm : (h.added a.ssrc a.seq a.timestampUs a.ecn).withEntry b.ssrc b.seq b.timestampUs b.ecn = m) :
    (h.added a.ssrc a.seq a.timestampUs a.ecn).added b.ssrc b.seq b.timestampUs b.ecn =
      h.rebuilt (UInt16.ofNat (neededLength m)) m (max (max h.latestTsUs a.timestampUs) b.timestampUs) := by
  rw [added_eq _ b, hm, added_eq h a, rebuilt_rebuilt, latestTsUs_rebuilt]

private theorem accept_exchange {h h' : CCFeedbackHeader} {a b : Addition} (hk : Kept h)
    (hrun : run accept h [a, b] = .ok h') : run accept h [b, a] = .ok h' := by
  obtain ⟨h1, ha, hrun⟩ := bind_eq_ok.mp hrun
  obtain ⟨hacc, rfl⟩ := (accept_eq_ok hk).mp ha
  have hk1 := hacc.kept hk
  obtain ⟨h2, hb, hend⟩ := bind_eq_ok.mp hrun
  cases hend
  obtain ⟨hacc', rfl⟩ := (accept_eq_ok hk1).mp hb
  have hk2 := hacc'.kept hk1
  have hlookup (ssrc : UInt32) (seq : UInt16) :
      lookup? (h.added a.ssrc a.seq a.timestampUs a.ecn).reportBlocks ssrc seq =
        if a.ssrc = ssrc ∧ a.seq = seq then some { ecn := a.ecn, timestampUs := a.timestampUs }
        else lookup? h.reportBlocks ssrc seq := lookup?_recordEntry ..
  have hne : ¬ (a.ssrc = b.ssrc ∧ a.seq = b.seq) := by
    intro hsame
    have hnew := hacc'.new
    rw [hlookup, if_pos hsame] at hnew
    cases hnew
  have hne' : ¬ (b.ssrc = a.ssrc ∧ b.seq = a.seq) := fun hsame => hne ⟨hsame.1.symm, hsame.2.symm⟩
  have hblocks : (h.added b.ssrc b.seq b.timestampUs b.ecn).withEntry a.ssrc a.seq a.timestampUs a.ecn =
      (h.added a.ssrc a.seq a.timestampUs a.ecn).withEntry b.ssrc b.seq b.timestampUs b.ecn :=
    recordEntry_comm hk.filled hne' _ _
  have hfirst : h.Accepts b := by
    refine ⟨hacc'.ecn, ?_, fun hfills => hacc'.room fun other => (hfills other).imp_right fun hsome => ?_, ?_⟩
    · rw [← hacc'.new, hlookup, if_neg hne]
    · rw [hlookup]
      split
      · rfl
      · exact hsome
    · -- The window of the other addition is counted in the longer packet.
      refine (neededLength_le_recordEntry (hk.filled.recordEntry b.ssrc b.seq _) a.ssrc a.seq
        { ecn := a.ecn, timestampUs := a.timestampUs } fun ssrc rb hrb => ?_).trans
          ((congrArg neededLength hblocks).trans_le hacc'.short)
      exact hk2.lacks ssrc rb ((congrArg (·[ssrc]?) hblocks).symm.trans hrb)
  have hsecond : (h.added b.ssrc b.seq b.timestampUs b.ecn).Accepts a := by
    refine ⟨hacc.ecn, ?_, fun hfills => ?_, hblocks ▸ hacc'.short⟩
    · rw [added, withEntry, lookup?_recordEntry, if_neg hne', hacc.new]
    · obtain ⟨rb, hrb, hfull⟩ := @withEntry_full _ _ _ a.timestampUs a.ecn hfills
      rw [hblocks] at hrb
      exact hfull (hk2.lacks rb.1 rb.2 (mem_toList.mp hrb))
  have hlast : (h.added b.ssrc b.seq b.timestampUs b.ecn).added a.ssrc a.seq a.timestampUs a.ecn =
      (h.added a.ssrc a.seq a.timestampUs a.ecn).added b.ssrc b.seq b.timestampUs b.ecn := by
    have hlatest : max (max h.latestTsUs b.timestampUs) a.timestampUs =
        max (max h.latestTsUs a.timestampUs) b.timestampUs := by
      apply UInt64.toNat_inj.mp
      simp only [toNat_max, Nat.max_right_comm]
    rw [added_added h b a hblocks, added_added h a b rfl, hlatest]
  rw [run, (accept_eq_ok hk).mpr ⟨hfirst, rfl⟩, ok_bind, run, (accept_eq_ok (hfirst.kept hk)).mpr ⟨hsecond, rfl⟩,
    hlast]
  rfl

/-- Additions to a new header that are all accepted in one order are all accepted in every other,
and make the same header, so that the same octets are written. -/
theorem accept_perm {additions additions' : List Addition} {h : CCFeedbackHeader}
    (hrun : run accept fresh additions = .ok h) (hperm : additions.Perm additions') :
    run accept fresh additions' = .ok h := by
  have hkeeps : ∀ h a h', Kept h → accept h a = .ok h' → Kept h' := fun h a h' hk hstep => by
    obtain ⟨hacc, rfl⟩ := (accept_eq_ok hk).mp hstep
    exact hacc.kept hk
  exact run_perm accept hkeeps (fun _ _ _ _ hk => accept_exchange hk) hperm kept_fresh hrun

/-- Two sources, and numbers on both sides of the end of the range. -/
theorem accept_perm_two_sources :
    ∃ h, run accept fresh [⟨7, 65535, 1000000, 1⟩, ⟨9, 40, 1200000, 0⟩, ⟨7, 2, 1500000, 3⟩] = .ok h ∧
      run accept fresh [⟨7, 2, 1500000, 3⟩, ⟨7, 65535, 1000000, 1⟩, ⟨9, 40, 1200000, 0⟩] = .ok h := by
  have hreturns : (run accept fresh [⟨7, 65535, 1000000, 1⟩, ⟨9, 40, 1200000, 0⟩, ⟨7, 2, 1500000, 3⟩]).map
      (fun _ => ()) = .ok () := by
    decide +kernel
  obtain ⟨h, hrun, -⟩ := map_eq_ok.mp hreturns
  exact ⟨h, hrun, accept_perm hrun (by decide)⟩

end CCFeedbackHeader

end Ns3Rmcat.Header
