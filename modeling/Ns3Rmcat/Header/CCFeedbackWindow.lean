import Ns3Rmcat.Header.CCFeedback
import Ns3Rmcat.Lib.CircularInterval

/-! The window of a report block: it runs between two numbers of the block, all others
lie in it, no shorter one has them all, and there is none exactly when the block has every number. -/
namespace Ns3Rmcat.Header.CCFeedback
open Lib

/-- Two neighbours among some numbers that are as far apart as any. -/
structure Widest (seqs : List UInt16) (first high maxLo maxHi : UInt16) : Prop where
  lo_mem : maxLo ∈ seqs
  hi_mem : maxHi ∈ seqs
  first_mem : first ∈ seqs
  high_mem : high ∈ seqs
  lt : maxLo.toNat < maxHi.toNat
  range : ∀ seq ∈ seqs, first.toNat ≤ seq.toNat ∧ seq.toNat ≤ high.toNat
  neighbours : ∀ seq ∈ seqs, seq.toNat ≤ maxLo.toNat ∨ maxHi.toNat ≤ seq.toNat
  missing : ∀ seq, first.toNat ≤ seq.toNat → seq.toNat ≤ high.toNat → seq ∉ seqs →
    2 ≤ maxHi.toNat - maxLo.toNat

private theorem Widest.snoc {seqs : List UInt16} {first high maxLo maxHi seq : UInt16}
    (h : Widest seqs first high maxLo maxHi) (hlt : high.toNat < seq.toNat) :
    Widest (seqs ++ [seq]) first seq (if gap maxLo maxHi < gap high seq then high else maxLo)
      (if gap maxLo maxHi < gap high seq then seq else maxHi) := by
  have hmem {other : UInt16} (ho : other ∈ seqs) : other ∈ seqs ++ [seq] := List.mem_append_left _ ho
  have hhi := h.range maxHi h.hi_mem
  have hlo := h.range maxLo h.lo_mem
  have hrange : ∀ other ∈ seqs ++ [seq], first.toNat ≤ other.toNat ∧ other.toNat ≤ seq.toNat := by
    intro other hother
    rcases List.mem_append.mp hother with hold | hnew
    · have := h.range other hold
      omega
    · rw [List.mem_singleton.mp hnew]
      omega
  by_cases hwider : gap maxLo maxHi < gap high seq
  · rw [if_pos hwider, if_pos hwider]
    simp only [gap] at hwider
    refine ⟨hmem h.high_mem, by simp, hmem h.first_mem, by simp, hlt, hrange, fun other hother => ?_,
      fun other hge hle hnot => ?_⟩
    · rcases List.mem_append.mp hother with hold | hnew
      · exact .inl (h.range other hold).2
      · rw [List.mem_singleton.mp hnew]
        exact .inr le_rfl
    · by_cases hold : other.toNat ≤ high.toNat
      · have := h.missing other hge hold fun ho => hnot (hmem ho)
        omega
      · have hne : other.toNat ≠ seq.toNat := fun he => hnot (by simp [UInt16.toNat_inj.mp he])
        omega
  · rw [if_neg hwider, if_neg hwider]
    simp only [gap] at hwider
    refine ⟨hmem h.lo_mem, hmem h.hi_mem, hmem h.first_mem, by simp, h.lt, hrange, fun other hother => ?_,
      fun other hge hle hnot => ?_⟩
    · rcases List.mem_append.mp hother with hold | hnew
      · exact h.neighbours other hold
      · rw [List.mem_singleton.mp hnew]
        exact .inr (by omega)
    · by_cases hold : other.toNat ≤ high.toNat
      · exact h.missing other hge hold fun ho => hnot (hmem ho)
      · have hne : other.toNat ≠ seq.toNat := fun he => hnot (by simp [UInt16.toNat_inj.mp he])
        omega

private theorem widestGap_spec {seqs more : List UInt16} {first high maxLo maxHi : UInt16}
    (h : Widest seqs first high maxLo maxHi) (hsorted : (high :: more).Pairwise fun a b => a.toNat < b.toNat) :
    ∃ high' maxLo' maxHi', widestGap high maxLo maxHi more = .ok (high', maxLo', maxHi') ∧
      Widest (seqs ++ more) first high' maxLo' maxHi' := by
  induction more generalizing seqs high maxLo maxHi with
  | nil => exact ⟨high, maxLo, maxHi, rfl, by rwa [List.append_nil]⟩
  | cons seq more ih =>
    have hlt : high.toNat < seq.toNat := List.rel_of_pairwise_cons hsorted List.mem_cons_self
    obtain ⟨high', maxLo', maxHi', hgap, hw⟩ := ih (h.snoc hlt) hsorted.of_cons
    refine ⟨high', maxLo', maxHi', ?_, by simpa using hw⟩
    rw [widestGap, check_of (UInt16.lt_iff_toNat_lt.mpr hlt), ok_bind,
      check_of (UInt16.lt_iff_toNat_lt.mpr h.lt), ok_bind]
    by_cases hwider : gap maxLo maxHi < gap high seq
    · simpa only [if_pos hwider] using hgap
    · simpa only [if_neg hwider] using hgap

/-- No two numbers from the first to the last with none of the list between them are farther
apart than two given ones. -/
def Dominates (seqs : List UInt16) (first high maxLo maxHi : UInt16) : Prop :=
  ∀ a b : Nat, first.toNat ≤ a → a < b → b ≤ high.toNat →
    (∀ seq ∈ seqs, seq.toNat ≤ a ∨ b ≤ seq.toNat) → b - a ≤ maxHi.toNat - maxLo.toNat

private theorem Dominates.snoc {seqs : List UInt16} {first high maxLo maxHi seq : UInt16}
    (h : Dominates seqs first high maxLo maxHi) (hmax : maxLo.toNat < maxHi.toNat) (hhigh : high ∈ seqs)
    (hlt : high.toNat < seq.toNat) :
    Dominates (seqs ++ [seq]) first seq (if gap maxLo maxHi < gap high seq then high else maxLo)
      (if gap maxLo maxHi < gap high seq then seq else maxHi) := by
  intro a b hfirst hab hlast hclear
  have hwider : maxHi.toNat - maxLo.toNat ≤ (if gap maxLo maxHi < gap high seq then seq else maxHi).toNat -
        (if gap maxLo maxHi < gap high seq then high else maxLo).toNat ∧
      seq.toNat - high.toNat ≤ (if gap maxLo maxHi < gap high seq then seq else maxHi).toNat -
        (if gap maxLo maxHi < gap high seq then high else maxLo).toNat := by
    by_cases hwider : gap maxLo maxHi < gap high seq
    · rw [if_pos hwider, if_pos hwider]
      simp only [gap] at hwider
      omega
    · rw [if_neg hwider, if_neg hwider]
      simp only [gap] at hwider
      omega
  -- The last number so far is not between the two.
  rcases hclear high (List.mem_append_left _ hhigh) with hbefore | hafter
  · omega
  · have hold := h a b hfirst hab hafter fun other hother => hclear other (List.mem_append_left _ hother)
    omega

private theorem widestGap_dominates {seqs more : List UInt16} {first high maxLo maxHi high' maxLo' maxHi' : UInt16}
    (h : Dominates seqs first high maxLo maxHi) (hhigh : high ∈ seqs)
    (hgap : widestGap high maxLo maxHi more = .ok (high', maxLo', maxHi')) :
    Dominates (seqs ++ more) first high' maxLo' maxHi' := by
  induction more generalizing seqs high maxLo maxHi with
  | nil =>
    cases hgap
    rwa [List.append_nil]
  | cons seq more ih =>
    rw [widestGap] at hgap
    obtain ⟨hlt, hgap⟩ := check_bind_eq_ok.mp hgap
    obtain ⟨hmax, hgap⟩ := check_bind_eq_ok.mp hgap
    rw [UInt16.lt_iff_toNat_lt] at hlt hmax
    have hsnoc := h.snoc hmax hhigh hlt
    have hlast : seq ∈ seqs ++ [seq] := by simp
    rw [← List.singleton_append, ← List.append_assoc]
    by_cases hwider : gap maxLo maxHi < gap high seq
    · rw [if_pos hwider] at hgap
      rw [if_pos hwider, if_pos hwider] at hsnoc
      exact ih hsnoc hlast hgap
    · rw [if_neg hwider] at hgap
      rw [if_neg hwider, if_neg hwider] at hsnoc
      exact ih hsnoc hlast hgap

/-- An arc of the circle without numbers is shorter than the widest gap, or than the one from
the last number to the first. -/
private theorem Dominates.free_arc {seqs : List UInt16} {first high maxLo maxHi p : UInt16} {m : Nat}
    (h : Dominates seqs first high maxLo maxHi) (hw : Widest seqs first high maxLo maxHi) (hm : m ≤ 65536)
    (hfree : ∀ seq ∈ seqs, m ≤ ahead p seq) :
    m < maxHi.toNat - maxLo.toNat ∨ m < first.toNat + 65536 - high.toNat := by
  have hp := p.toNat_lt
  have h1 := first.toNat_lt
  have h2 := high.toNat_lt
  have hmax := hw.lt
  have hfirst := hfree first hw.first_mem
  have hhigh := hfree high hw.high_mem
  have hle := hw.range first hw.first_mem
  rw [ahead_eq] at hfirst hhigh
  rcases Nat.eq_zero_or_pos m with rfl | hpos
  · omega
  · by_cases hin : first.toNat < p.toNat ∧ p.toNat + m ≤ high.toNat
    · -- The arc lies between the first number and the last one.
      have hgap := h (p.toNat - 1) (p.toNat + m) (by omega) (by omega) hin.2 fun seq hseq => by
        have hs := seq.toNat_lt
        have harc := hfree seq hseq
        rw [ahead_eq] at harc
        omega
      omega
    · omega

/-- A window runs from one number of a block to another, and has all the numbers. -/
structure Window (rb : ReportBlock) (beginSeq stopSeq : UInt16) : Prop where
  begin_mem : beginSeq ∈ rb
  last_mem : stopSeq - 1 ∈ rb
  covers : ∀ seq ∈ rb, ahead beginSeq seq < ahead beginSeq stopSeq

private theorem sorted_keys (rb : ReportBlock) : rb.keys.Pairwise fun a b => a.toNat < b.toNat := by
  refine Std.ExtTreeMap.ordered_keys.imp fun hlt => ?_
  exact UInt16.lt_iff_toNat_lt.mp (compareOfLessAndEq_eq_lt.mp hlt)

/-- What is computed for a block of more than one number: the widest gap between neighbours,
which may be the one from the last number to the first. -/
private theorem calculateBeginStopSeq_cons {rb : ReportBlock} {first second : UInt16} {seqs : List UInt16}
    (hkeys : rb.keys = first :: second :: seqs) :
    ∃ lo hi, lo ∈ rb ∧ hi ∈ rb ∧ lo ≠ hi ∧ (∀ seq ∈ rb, ahead hi seq ≤ ahead hi lo) ∧
      (∀ p m, m ≤ 65536 → (∀ seq ∈ rb, m ≤ ahead p seq) → m < ahead lo hi) ∧
      calculateBeginStopSeq rb = (check (hi ≠ lo + 1) >>= fun _ => .ok (hi, lo + 1)) := by
  have hsorted := sorted_keys rb
  rw [hkeys] at hsorted
  have hlt : first.toNat < second.toNat := List.rel_of_pairwise_cons hsorted List.mem_cons_self
  have hstart : Widest [first, second] first second first second := by
    refine ⟨by simp, by simp, by simp, by simp, hlt, ?_, ?_, fun seq hge hle hnot => ?_⟩
    · simp [hlt.le]
    · simp
    · rw [List.mem_cons, List.mem_singleton, not_or] at hnot
      have h1 : seq.toNat ≠ first.toNat := fun he => hnot.1 (UInt16.toNat_inj.mp he)
      have h2 : seq.toNat ≠ second.toNat := fun he => hnot.2 (UInt16.toNat_inj.mp he)
      omega
  have hstartDominates : Dominates [first, second] first second first second := by
    intro a b hfirst hab hlast hclear
    omega
  obtain ⟨high, maxLo, maxHi, hgap, hw⟩ := widestGap_spec hstart hsorted.of_cons
  have hdominates := widestGap_dominates hstartDominates (by simp) hgap
  have hall : [first, second] ++ seqs = rb.keys := hkeys.symm
  rw [hall] at hw hdominates
  have hmem {seq : UInt16} : seq ∈ rb.keys ↔ seq ∈ rb := Std.ExtTreeMap.mem_keys
  have hhigh := high.toNat_lt
  have hcalc : calculateBeginStopSeq rb =
      (check ((if gap maxLo maxHi < (first - high).toNat then first else maxHi) ≠
        (if gap maxLo maxHi < (first - high).toNat then high else maxLo) + 1) >>= fun _ =>
          .ok (if gap maxLo maxHi < (first - high).toNat then first else maxHi,
            (if gap maxLo maxHi < (first - high).toNat then high else maxLo) + 1)) := by
    unfold calculateBeginStopSeq
    simp only [hkeys, hgap, ok_bind, check_of (UInt16.lt_iff_toNat_lt.mpr hw.lt), pure_eq_ok]
    split <;> rfl
  have hrange := hw.range maxHi hw.hi_mem
  have hrangeLo := hw.range maxLo hw.lo_mem
  have hlthigh : first.toNat < high.toNat := by
    have := hw.range second (by rw [hkeys]; simp)
    omega
  have hwrap : (first - high).toNat = first.toNat + 65536 - high.toNat := by
    rw [UInt16.toNat_sub]
    omega
  rw [hcalc]
  by_cases hwider : gap maxLo maxHi < (first - high).toNat
  · -- The widest gap goes across the end of the number range.
    simp only [if_pos hwider]
    rw [hwrap] at hwider
    simp only [gap] at hwider
    refine ⟨high, first, hmem.mp hw.high_mem, hmem.mp hw.first_mem, ?_, fun seq hseq => ?_, fun p m hm hfree => ?_, rfl⟩
    · rintro rfl
      omega
    · have := hw.range seq (hmem.mpr hseq)
      rw [ahead_eq, ahead_eq]
      omega
    · have hmaxLt := hw.lt
      have harc := hdominates.free_arc hw hm fun seq hseq => hfree seq (hmem.mp hseq)
      rw [ahead_eq]
      omega
  · simp only [if_neg hwider]
    rw [hwrap] at hwider
    simp only [gap] at hwider
    have hmaxLt := hw.lt
    refine ⟨maxLo, maxHi, hmem.mp hw.lo_mem, hmem.mp hw.hi_mem, ?_, fun seq hseq => ?_, fun p m hm hfree => ?_, rfl⟩
    · rintro rfl
      omega
    · have := hw.neighbours seq (hmem.mpr hseq)
      have := seq.toNat_lt
      rw [ahead_eq, ahead_eq]
      omega
    · have harc := hdominates.free_arc hw hm fun seq hseq => hfree seq (hmem.mp hseq)
      rw [ahead_eq]
      omega

/-- A block that lacks some number has a window. -/
theorem calculateBeginStopSeq_window {rb : ReportBlock} (hne : rb ≠ ∅) (hlacks : ∃ seq, seq ∉ rb) :
    ∃ beginSeq stopSeq, calculateBeginStopSeq rb = .ok (beginSeq, stopSeq) ∧ Window rb beginSeq stopSeq := by
  obtain ⟨missing, hmissing⟩ := hlacks
  match hkeys : rb.keys with
  | [] => exact absurd (Std.ExtTreeMap.keys_eq_nil_iff.mp hkeys) hne
  | [first] =>
    have hmem {seq : UInt16} : seq ∈ rb ↔ seq = first := by
      rw [← Std.ExtTreeMap.mem_keys, hkeys, List.mem_singleton]
    refine ⟨first, first + 1, by unfold calculateBeginStopSeq; rw [hkeys], hmem.mpr rfl, ?_, fun seq hseq => ?_⟩
    · rw [UInt16.add_sub_cancel]
      exact hmem.mpr rfl
    · have hone := ahead_add first (n := 1) (by decide)
      rw [hmem.mp hseq, ahead_self]
      exact Nat.lt_of_lt_of_eq Nat.one_pos hone.symm
  | first :: second :: seqs =>
    obtain ⟨lo, hi, hlo, hhi, hne, hcovers, hfree, hcalc⟩ := calculateBeginStopSeq_cons hkeys
    have hgap : hi ≠ lo + 1 := by
      rintro rfl
      have harc := hfree missing 1 (by omega) fun seq hseq => Nat.one_le_iff_ne_zero.mpr fun hzero =>
        hmissing (ahead_eq_zero_iff.mp hzero ▸ hseq)
      exact absurd (ahead_add lo (n := 1) (by decide)) harc.ne'
    rw [check_of hgap, ok_bind] at hcalc
    refine ⟨hi, lo + 1, hcalc, hhi, by rwa [UInt16.add_sub_cancel], fun seq hseq => ?_⟩
    have hle := hcovers seq hseq
    have hlt := lo.toNat_lt
    have hlt' := hi.toNat_lt
    have hgap' : hi.toNat ≠ (lo.toNat + 1) % 65536 := by
      intro he
      refine hgap (UInt16.toNat_inj.mp ?_)
      rw [he, UInt16.toNat_add]
      rfl
    have hstop : (lo + 1).toNat = (lo.toNat + 1) % 65536 := by
      rw [UInt16.toNat_add]
      rfl
    rw [ahead_eq hi lo] at hle
    rw [ahead_eq hi (lo + 1), hstop]
    omega

/-- No shorter window has all the numbers of a block. -/
theorem calculateBeginStopSeq_shortest {rb : ReportBlock} {beginSeq stopSeq : UInt16}
    (h : calculateBeginStopSeq rb = .ok (beginSeq, stopSeq)) :
    Shortest (· ∈ rb) beginSeq (ahead beginSeq stopSeq) := by
  match hkeys : rb.keys with
  | [] =>
    unfold calculateBeginStopSeq at h
    rw [hkeys] at h
    cases h
  | [first] =>
    unfold calculateBeginStopSeq at h
    rw [hkeys] at h
    obtain ⟨rfl, rfl⟩ : first = beginSeq ∧ first + 1 = stopSeq := by simpa using h
    have hmem {seq : UInt16} : seq ∈ rb ↔ seq = first := by
      rw [← Std.ExtTreeMap.mem_keys, hkeys, List.mem_singleton]
    have hone : ahead first (first + 1) = 1 := ahead_add first (n := 1) (by decide)
    have hshortest := shortest_of_half (S := (· ∈ rb)) (hmem.mpr rfl) (hmem.mpr rfl)
      (fun seq hseq => by rw [hmem.mp hseq]) (by rw [ahead_self]; decide)
    rw [ahead_self] at hshortest
    rwa [hone]
  | first :: second :: seqs =>
    obtain ⟨lo, hi, -, -, hne, hcovers, hfree, hcalc⟩ := calculateBeginStopSeq_cons hkeys
    rw [hcalc] at h
    obtain ⟨hgap, h⟩ := check_bind_eq_ok.mp h
    obtain ⟨rfl, rfl⟩ : hi = beginSeq ∧ lo + 1 = stopSeq := by simpa using h
    have hne' : lo.toNat ≠ hi.toNat := fun he => hne (UInt16.toNat_inj.mp he)
    have hstop : (lo + 1).toNat = (lo.toNat + 1) % 65536 := by
      rw [UInt16.toNat_add]
      rfl
    have hgap' : hi.toNat ≠ (lo.toNat + 1) % 65536 := fun he => hgap (UInt16.toNat_inj.mp (he.trans hstop.symm))
    have hlo := lo.toNat_lt
    have hhi := hi.toNat_lt
    have hplaces : ahead hi (lo + 1) = ahead hi lo + 1 := by
      rw [ahead_eq, ahead_eq, hstop]
      omega
    rw [hplaces]
    refine shortest_of_free (fun seq hseq => Nat.lt_succ_of_le (hcovers seq hseq)) fun p m hm hclear => ?_
    have harc := hfree p m hm hclear
    rw [ahead_eq] at harc ⊢
    omega

/-- A block that has every number has none. -/
theorem calculateBeginStopSeq_full {rb : ReportBlock} (hall : ∀ seq, seq ∈ rb) :
    calculateBeginStopSeq rb = .error .assertion := by
  have hmem (seq : UInt16) : seq ∈ rb.keys := Std.ExtTreeMap.mem_keys.mpr (hall seq)
  match hkeys : rb.keys with
  | [] =>
    have := hmem 0
    rw [hkeys] at this
    cases this
  | [first] =>
    have h0 := hmem 0
    have h1 := hmem 1
    rw [hkeys, List.mem_singleton] at h0 h1
    exact absurd (h0.trans h1.symm) (by decide)
  | first :: second :: seqs =>
    obtain ⟨lo, hi, -, -, hne, hcovers, -, hcalc⟩ := calculateBeginStopSeq_cons hkeys
    have hone : hi = lo + 1 := by
      have hle := hcovers (lo + 1) (hall _)
      have hlt := lo.toNat_lt
      have hlt' := hi.toNat_lt
      have hstop : (lo + 1).toNat = (lo.toNat + 1) % 65536 := by
        rw [UInt16.toNat_add]
        rfl
      have hne' : hi.toNat ≠ lo.toNat := fun he => hne (UInt16.toNat_inj.mp he.symm)
      apply UInt16.toNat_inj.mp
      rw [ahead_eq, ahead_eq, hstop] at hle
      rw [hstop]
      omega
    rw [hcalc, check_of_not (by simpa using hone)]
    rfl

/-- A list has each entry of a block once, in the order of the circle from a number on. -/
structure Lists (rb : ReportBlock) (beginSeq : UInt16) (rv : List (UInt16 × MetricBlock)) : Prop where
  entries : ∀ seq mb, (seq, mb) ∈ rv ↔ rb[seq]? = some mb
  ordered : rv.Pairwise fun a b => ahead beginSeq a.1 < ahead beginSeq b.1

/-- The list that is read off a window. -/
theorem Window.lists {rb : ReportBlock} {beginSeq stopSeq : UInt16} (hw : Window rb beginSeq stopSeq) :
    Lists rb beginSeq ((CCFeedbackHeader.windowSeqs (beginSeq, stopSeq)).filterMap fun seq =>
      rb[seq]?.map fun mb => (seq, mb)) := by
  have hle : ahead beginSeq stopSeq ≤ 65536 := (ahead_lt beginSeq stopSeq).le
  refine ⟨fun seq mb => ?_, ?_⟩
  · rw [List.mem_filterMap]
    constructor
    · rintro ⟨other, -, he⟩
      obtain ⟨mb', hmb, he⟩ := Option.map_eq_some_iff.mp he
      cases he
      exact hmb
    · intro hmb
      have hmem : seq ∈ rb := by
        rw [← Std.ExtTreeMap.isSome_getElem?_iff_mem, hmb]
        rfl
      exact ⟨seq, (mem_consecutive hle).mpr (hw.covers seq hmem), by rw [hmb]; rfl⟩
  · refine (sorted_consecutive beginSeq hle).filterMap _ fun a b hlt x hx y hy => ?_
    obtain ⟨-, -, rfl⟩ := Option.map_eq_some_iff.mp hx
    obtain ⟨-, -, rfl⟩ := Option.map_eq_some_iff.mp hy
    exact hlt

/-- A block that has a number and lacks one has a window, which runs between two of its numbers,
has them all and is the shortest that does; the list of its metrics is read off this window. -/
theorem calculateBeginStopSeq_minimal {rb : ReportBlock} (hne : rb ≠ ∅) (hlacks : ∃ seq, seq ∉ rb) :
    ∃ beginSeq stopSeq, calculateBeginStopSeq rb = .ok (beginSeq, stopSeq) ∧ Window rb beginSeq stopSeq ∧
      Shortest (· ∈ rb) beginSeq (ahead beginSeq stopSeq) ∧
      ∀ (h : CCFeedbackHeader) (ssrc : UInt32), h.reportBlocks[ssrc]? = some rb →
        ∃ rv, h.getMetricList ssrc = .ok (some rv) ∧ Lists rb beginSeq rv := by
  obtain ⟨beginSeq, stopSeq, hcalc, hw⟩ := calculateBeginStopSeq_window hne hlacks
  refine ⟨beginSeq, stopSeq, hcalc, hw, calculateBeginStopSeq_shortest hcalc, fun h ssrc hrb => ?_⟩
  refine ⟨_, ?_, hw.lists⟩
  rw [CCFeedbackHeader.getMetricList, hrb]
  simp only [check_of hne, ok_bind, hcalc]
  rfl

/-- Three numbers around the end of the range. -/
theorem calculateBeginStopSeq_minimal_wrapping :
    let rb : ReportBlock := ((∅ : ReportBlock).insert 65534 ⟨0, 1000, 0⟩).insert 2 ⟨1, 2000, 0⟩ |>.insert 0 ⟨0, 3000, 0⟩
    calculateBeginStopSeq rb = .ok (65534, 3) ∧ Shortest (· ∈ rb) 65534 5 := by
  intro rb
  have hcalc : calculateBeginStopSeq rb = .ok (65534, 3) := by decide +kernel
  obtain ⟨beginSeq, stopSeq, hok, -, hshortest, -⟩ := @calculateBeginStopSeq_minimal rb
    (fun he => by
      have hmem : (2 : UInt16) ∈ rb := by decide +kernel
      rw [he] at hmem
      exact Std.ExtTreeMap.not_mem_empty hmem)
    ⟨7, by decide +kernel⟩
  cases hcalc.symm.trans hok
  exact ⟨hcalc, hshortest⟩

end Ns3Rmcat.Header.CCFeedback
