import Ns3Rmcat.Header.Rfb
import Ns3Rmcat.Lib.CircularInterval

/-! The window of a report block: what its bounds are, and when its count and last
number, stored as 16-bit words, still cover every number of the block. -/
namespace Ns3Rmcat.Header
open Lib

/-- A half holds exactly the extremes and the number of some sequence numbers. -/
structure SeqHalf.Spans (half : SeqHalf) (seqs : List UInt16) : Prop where
  within : ∀ seq ∈ seqs, half.lo ≤ seq.toNat ∧ (seq.toNat : Int) ≤ half.hi
  attained : seqs ≠ [] → (∃ seq ∈ seqs, half.lo = seq.toNat) ∧ ∃ seq ∈ seqs, half.hi = seq.toNat
  count : half.count = seqs.length
  empty : seqs = [] → half = {}

private theorem SeqHalf.Spans.start : SeqHalf.Spans {} [] := ⟨by simp, by simp, rfl, fun _ => rfl⟩

private theorem SeqHalf.Spans.update {half : SeqHalf} {seqs : List UInt16} (h : half.Spans seqs) (seq : UInt16) :
    (half.update seq).Spans (seqs ++ [seq]) := by
  have hseq := seq.toNat_lt
  refine ⟨?_, fun _ => ?_, by simp [SeqHalf.update, h.count], by simp⟩
  · intro other hother
    simp only [SeqHalf.update]
    rcases List.mem_append.mp hother with hold | hnew
    · have := h.within other hold
      constructor <;> split <;> omega
    · rw [List.mem_singleton.mp hnew]
      constructor <;> split <;> omega
  · simp only [SeqHalf.update]
    rcases List.eq_nil_or_concat seqs with rfl | ⟨older, last, rfl⟩
    · rw [h.empty rfl]
      have hlo : ((seq.toNat : Int) < 65536) := by omega
      have hhi : ((-1 : Int) < seq.toNat) := by omega
      simp [hlo, hhi]
    · obtain ⟨⟨lo, hlo, helo⟩, hi, hhi, hehi⟩ := h.attained (by simp)
      refine ⟨?_, ?_⟩
      · split
        · exact ⟨seq, by simp, rfl⟩
        · exact ⟨lo, List.mem_append_left _ hlo, helo⟩
      · split
        · exact ⟨seq, by simp, rfl⟩
        · exact ⟨hi, List.mem_append_left _ hhi, hehi⟩

/-- The numbers of a list in the front half, and those in the rear half. -/
def frontSeqs (seqs : List UInt16) : List UInt16 := seqs.filter fun seq => seq.toNat ≤ 32768
def rearSeqs (seqs : List UInt16) : List UInt16 := seqs.filter fun seq => 32768 < seq.toNat

theorem splitHalves_spans (seqs : List UInt16) :
    (splitHalves seqs).1.Spans (frontSeqs seqs) ∧ (splitHalves seqs).2.Spans (rearSeqs seqs) := by
  induction seqs using List.reverseRecOn with
  | nil => exact ⟨SeqHalf.Spans.start, SeqHalf.Spans.start⟩
  | append_singleton seqs seq ih =>
    have hsnoc : splitHalves (seqs ++ [seq]) =
        if seq.toNat ≤ 65536 / 2 then ((splitHalves seqs).1.update seq, (splitHalves seqs).2)
        else ((splitHalves seqs).1, (splitHalves seqs).2.update seq) := by
      simp [splitHalves, List.foldl_append]
    rw [hsnoc]
    by_cases hseq : seq.toNat ≤ 32768
    · rw [if_pos (by omega)]
      simpa [frontSeqs, rearSeqs, List.filter_append, hseq] using ⟨ih.1.update seq, ih.2⟩
    · rw [if_neg (by omega)]
      have hrear : rearSeqs (seqs ++ [seq]) = rearSeqs seqs ++ [seq] := by
        simp [rearSeqs, List.filter_append, Nat.lt_of_not_le hseq]
      rw [hrear]
      simpa [frontSeqs, List.filter_append, hseq] using ⟨ih.1, ih.2.update seq⟩

/-- A number between two bounds, or between them once the range has wrapped. -/
def InBounds (bounds : Int × Int) (seq : UInt16) : Prop :=
  (bounds.1 ≤ seq.toNat ∧ (seq.toNat : Int) ≤ bounds.2) ∨
    (bounds.1 ≤ seq.toNat + 65536 ∧ (seq.toNat : Int) + 65536 ≤ bounds.2)

private theorem mem_front_or_rear {seqs : List UInt16} {seq : UInt16} (h : seq ∈ seqs) :
    seq ∈ frontSeqs seqs ∨ seq ∈ rearSeqs seqs := by
  by_cases hseq : seq.toNat ≤ 32768
  · exact .inl (List.mem_filter.mpr ⟨h, by simpa using hseq⟩)
  · exact .inr (List.mem_filter.mpr ⟨h, by simpa using hseq⟩)

private theorem SeqHalf.Spans.extremes {half : SeqHalf} {seqs : List UInt16} {p : UInt16 → Bool}
    (h : half.Spans (seqs.filter p)) (hcount : half.count ≠ 0) :
    (∃ seq ∈ seqs, p seq ∧ half.lo = seq.toNat) ∧ ∃ seq ∈ seqs, p seq ∧ half.hi = seq.toNat := by
  have hne : seqs.filter p ≠ [] := by
    intro hnil
    rw [h.count, hnil] at hcount
    exact hcount rfl
  obtain ⟨⟨lo, hlo, helo⟩, hi, hhi, hehi⟩ := h.attained hne
  rw [List.mem_filter] at hlo hhi
  exact ⟨⟨lo, hlo.1, hlo.2, helo⟩, hi, hhi.1, hhi.2, hehi⟩

private theorem SeqHalf.Spans.eq_nil {half : SeqHalf} {seqs : List UInt16} (h : half.Spans seqs)
    (hcount : half.count = 0) : seqs = [] := by
  rw [h.count] at hcount
  exact List.length_eq_zero_iff.mp hcount

/-- What the bounds of some numbers can be: the extremes of the only half that has numbers,
from the rear half on into the next range, or from the front half to the rear one. -/
private theorem windowBounds_cases {seqs : List UInt16} (hne : seqs ≠ []) :
    ∃ lo ∈ seqs, ∃ hi ∈ seqs,
      (windowBounds seqs = ((lo.toNat : Int), (hi.toNat : Int)) ∧ lo.toNat ≤ hi.toNat ∧
        (∀ seq ∈ seqs, lo.toNat ≤ seq.toNat ∧ seq.toNat ≤ hi.toNat) ∧
        (32768 < lo.toNat ∨ hi.toNat ≤ 32768 ∨ ∀ seq ∈ seqs, 100 ≤ seq.toNat)) ∨
      (windowBounds seqs = ((lo.toNat : Int), (hi.toNat : Int) + 65536) ∧ hi.toNat ≤ 32768 ∧ 32768 < lo.toNat ∧
        (∀ seq ∈ seqs, seq.toNat ≤ hi.toNat ∨ lo.toNat ≤ seq.toNat) ∧ ∃ seq ∈ seqs, seq.toNat < 100) := by
  obtain ⟨hfront, hrear⟩ := splitHalves_spans seqs
  have hwithin : ∀ seq ∈ seqs,
      (seq.toNat ≤ 32768 ∧ (splitHalves seqs).1.lo ≤ seq.toNat ∧ seq.toNat ≤ (splitHalves seqs).1.hi) ∨
      (32768 < seq.toNat ∧ (splitHalves seqs).2.lo ≤ seq.toNat ∧ seq.toNat ≤ (splitHalves seqs).2.hi) := by
    intro seq hseq
    rcases mem_front_or_rear hseq with hmem | hmem
    · exact .inl ⟨by simpa using (List.mem_filter.mp hmem).2, hfront.within seq hmem⟩
    · exact .inr ⟨by simpa using (List.mem_filter.mp hmem).2, hrear.within seq hmem⟩
  simp only [windowBounds]
  by_cases hf : (splitHalves seqs).1.count = 0
  · -- All numbers are in the rear half.
    have hrearAll : ∀ seq ∈ seqs, seq ∈ rearSeqs seqs := by
      intro seq hseq
      rcases mem_front_or_rear hseq with hmem | hmem
      · rw [hfront.eq_nil hf] at hmem
        cases hmem
      · exact hmem
    have hcount : (splitHalves seqs).2.count ≠ 0 := by
      intro h0
      obtain ⟨seq, hseq⟩ := List.exists_mem_of_ne_nil seqs hne
      have := hrearAll seq hseq
      rw [hrear.eq_nil h0] at this
      cases this
    obtain ⟨⟨lo, hlo, hplo, helo⟩, hi, hhi, -, hehi⟩ := hrear.extremes hcount
    have hall : ∀ seq ∈ seqs, lo.toNat ≤ seq.toNat ∧ seq.toNat ≤ hi.toNat := by
      intro seq hseq
      have := hrear.within seq (hrearAll seq hseq)
      omega
    refine ⟨lo, hlo, hi, hhi, .inl ⟨by rw [if_pos hf, helo, hehi], (hall lo hlo).2, hall, .inl ?_⟩⟩
    simpa using hplo
  · obtain ⟨⟨flo, hflo, hpflo, heflo⟩, fhi, hfhi, hpfhi, hefhi⟩ := hfront.extremes hf
    simp only [decide_eq_true_eq] at hpflo hpfhi
    by_cases hr : (splitHalves seqs).2.count = 0
    · -- All numbers are in the front half.
      have hall : ∀ seq ∈ seqs, flo.toNat ≤ seq.toNat ∧ seq.toNat ≤ fhi.toNat := by
        intro seq hseq
        rcases mem_front_or_rear hseq with hmem | hmem
        · have := hfront.within seq hmem
          omega
        · rw [hrear.eq_nil hr] at hmem
          cases hmem
      exact ⟨flo, hflo, fhi, hfhi, .inl ⟨by rw [if_neg hf, if_pos hr, heflo, hefhi], (hall flo hflo).2, hall,
        .inr (.inl hpfhi)⟩⟩
    · obtain ⟨⟨rlo, hrlo, hprlo, herlo⟩, rhi, hrhi, hprhi, herhi⟩ := hrear.extremes hr
      simp only [decide_eq_true_eq] at hprlo hprhi
      rw [if_neg hf, if_neg hr]
      by_cases hwrap : (splitHalves seqs).1.lo < 100
      · rw [if_pos hwrap]
        refine ⟨rlo, hrlo, fhi, hfhi, .inr ⟨by rw [herlo, hefhi], hpfhi, hprlo, fun seq hseq => ?_,
          flo, hflo, by omega⟩⟩
        have := hwithin seq hseq
        omega
      · rw [if_neg hwrap]
        refine ⟨flo, hflo, rhi, hrhi, .inl ⟨by rw [heflo, herhi], by omega, fun seq hseq => ?_,
          .inr (.inr fun seq hseq => ?_)⟩⟩
        · have := hwithin seq hseq
          omega
        · have := hwithin seq hseq
          omega

/-- The bounds of a window cover every number, and are at most the whole range apart. -/
theorem windowBounds_cover {seqs : List UInt16} (hne : seqs ≠ []) :
    0 ≤ (windowBounds seqs).1 ∧ (windowBounds seqs).1 ≤ (windowBounds seqs).2 ∧
      (windowBounds seqs).2 - (windowBounds seqs).1 < 65536 ∧
      ∀ seq ∈ seqs, InBounds (windowBounds seqs) seq := by
  obtain ⟨lo, hlo, hi, hhi, ⟨he, hle, hall, -⟩ | ⟨he, hfront, hrear, hall, -⟩⟩ := windowBounds_cases hne
  · have := hi.toNat_lt
    rw [he]
    refine ⟨by omega, by omega, by omega, fun seq hseq => .inl ?_⟩
    have := hall seq hseq
    omega
  · have := lo.toNat_lt
    rw [he]
    refine ⟨by omega, by omega, by omega, fun seq hseq => ?_⟩
    have := seq.toNat_lt
    have := hall seq hseq
    simp only [InBounds]
    omega

/-- The number of places in the window of a report block, before it is stored as a word. -/
def windowSize (rb : RfbReportBlock) : Nat :=
  ((windowBounds rb.keys).2 - (windowBounds rb.keys).1 + 1).toNat

theorem windowBounds_singleton (seq : UInt16) : windowBounds [seq] = ((seq.toNat : Int), (seq.toNat : Int)) := by
  obtain ⟨lo, hlo, hi, hhi, ⟨he, -⟩ | ⟨-, hfront, hrear, -⟩⟩ := windowBounds_cases (List.cons_ne_nil seq [])
  · rw [he, List.mem_singleton.mp hlo, List.mem_singleton.mp hhi]
  · rw [List.mem_singleton.mp hlo] at hrear
    rw [List.mem_singleton.mp hhi] at hfront
    omega

private theorem ofInt_eq_ofNat {n : Int} (h : 0 ≤ n) : UInt16.ofInt n = UInt16.ofNat n.toNat := by
  apply UInt16.toNat_inj.mp
  simp only [UInt16.ofInt, UInt16.toNat_ofNat']
  omega

theorem keys_ne_nil {rb : RfbReportBlock} (hne : rb ≠ ∅) : rb.keys ≠ [] :=
  fun h => hne (Std.ExtTreeMap.keys_eq_nil_iff.mp h)

/-- The stored words are the size and the end of the window, wrapped. -/
theorem calcCountEndSeq_eq {rb : RfbReportBlock} (hne : rb ≠ ∅) :
    calcCountEndSeq rb = (UInt16.ofNat (windowSize rb), UInt16.ofInt (windowBounds rb.keys).2) := by
  obtain ⟨-, hle, -, -⟩ := windowBounds_cover (keys_ne_nil hne)
  rw [calcCountEndSeq, windowSize]
  split
  · rename_i hkeys
    exact absurd hkeys (keys_ne_nil hne)
  · rename_i seq hkeys
    rw [hkeys, windowBounds_singleton, ofInt_eq_ofNat (by omega)]
    simp
  · have hcount : 0 ≤ (windowBounds rb.keys).2 - (windowBounds rb.keys).1 + 1 := by omega
    exact congrArg (fun count => (count, UInt16.ofInt (windowBounds rb.keys).2)) (ofInt_eq_ofNat hcount)

private theorem window_begin {lo hi : Int} (hlo : 0 ≤ lo) (hle : lo ≤ hi) :
    UInt16.ofInt hi - UInt16.ofNat (hi - lo + 1).toNat + 1 = UInt16.ofNat lo.toNat := by
  rw [ofInt_eq_ofNat (by omega)]
  apply UInt16.toNat_inj.mp
  simp only [UInt16.toNat_add, UInt16.toNat_sub, UInt16.toNat_ofNat', UInt16.reduceToNat]
  omega

/-- A window of fewer than 65536 places covers every number of its report block. -/
theorem mem_windowSeqs {rb : RfbReportBlock} (hsize : windowSize rb < 65536) {seq : UInt16} (hseq : seq ∈ rb) :
    seq ∈ RfbHeader.windowSeqs (calcCountEndSeq rb) := by
  have hmem : seq ∈ rb.keys := Std.ExtTreeMap.mem_keys.mpr hseq
  have hne : rb ≠ ∅ := by
    rintro rfl
    exact Std.ExtTreeMap.not_mem_empty hseq
  obtain ⟨hlo, hle, -, hall⟩ := windowBounds_cover (keys_ne_nil hne)
  have hin := hall seq hmem
  have hcount : (UInt16.ofNat (windowSize rb)).toNat = windowSize rb := by
    rw [UInt16.toNat_ofNat', Nat.mod_eq_of_lt hsize]
  rw [calcCountEndSeq_eq hne, RfbHeader.windowSeqs, hcount, mem_consecutive hsize.le]
  simp only [windowSize] at hsize ⊢
  rw [window_begin hlo hle, ahead_eq]
  have hbegin : (UInt16.ofNat (windowBounds rb.keys).1.toNat).toNat = (windowBounds rb.keys).1.toNat % 65536 :=
    UInt16.toNat_ofNat'
  have := seq.toNat_lt
  rw [hbegin]
  rw [InBounds] at hin
  omega

/-- Numbers that lie in some window of at most 100 consecutive numbers. -/
def Narrow (rb : RfbReportBlock) : Prop :=
  ∃ first, ∀ seq ∈ rb, ahead first seq < 100

/-- The window of such numbers goes from one of them to another one, less than 100 places on. -/
theorem windowBounds_narrow {first : UInt16} {seqs : List UInt16} (hne : seqs ≠ [])
    (hfirst : ∀ seq ∈ seqs, ahead first seq < 100) :
    ∃ lo ∈ seqs, ∃ hi ∈ seqs, ((windowBounds seqs).2 - (windowBounds seqs).1 + 1).toNat = ahead lo hi + 1 ∧
      ahead lo hi < 100 ∧ ∀ seq ∈ seqs, ahead lo seq ≤ ahead lo hi := by
  have hbound := first.toNat_lt
  obtain ⟨lo, hlo, hi, hhi, ⟨he, hle, hall, hcase⟩ | ⟨he, hfront, hrear, hall, low, hlow, hlow100⟩⟩ :=
    windowBounds_cases hne
  · have h1 := hfirst lo hlo
    have h2 := hfirst hi hhi
    have := lo.toNat_lt
    have := hi.toNat_lt
    rw [ahead_eq] at h1 h2
    refine ⟨lo, hlo, hi, hhi, ?_, ?_, fun seq hseq => ?_⟩
    · simp only [he, ahead_eq]
      omega
    · rw [ahead_eq]
      rcases hcase with hrear | hfront | hhigh
      · omega
      · omega
      · have := hhigh lo hlo
        omega
    · have := hall seq hseq
      rw [ahead_eq, ahead_eq]
      omega
  · have h1 := hfirst lo hlo
    have h2 := hfirst hi hhi
    have h3 := hfirst low hlow
    have := lo.toNat_lt
    rw [ahead_eq] at h1 h2 h3
    refine ⟨lo, hlo, hi, hhi, ?_, ?_, fun seq hseq => ?_⟩
    · simp only [he, ahead_eq]
      omega
    · rw [ahead_eq]
      omega
    · have := hall seq hseq
      have := seq.toNat_lt
      rw [ahead_eq, ahead_eq]
      omega

private theorem narrow_span {rb : RfbReportBlock} (h : Narrow rb) (hne : rb ≠ ∅) :
    ∃ lo ∈ rb, ∃ hi ∈ rb, windowSize rb = ahead lo hi + 1 ∧ ahead lo hi < 100 ∧
      ∀ seq ∈ rb, ahead lo seq ≤ ahead lo hi := by
  obtain ⟨first, hfirst⟩ := h
  obtain ⟨lo, hlo, hi, hhi, hspan⟩ :=
    windowBounds_narrow (keys_ne_nil hne) fun seq hseq => hfirst seq (Std.ExtTreeMap.mem_keys.mp hseq)
  simp only [Std.ExtTreeMap.mem_keys] at hlo hhi hspan
  exact ⟨lo, hlo, hi, hhi, hspan⟩

/-- The window of such a block has at most 100 places. -/
theorem windowSize_narrow {rb : RfbReportBlock} (h : Narrow rb) : windowSize rb ≤ 100 := by
  by_cases hne : rb = ∅
  · subst hne
    have : windowSize ∅ = 0 := by decide +kernel
    omega
  · obtain ⟨lo, -, hi, -, hsize, hlt, -⟩ := narrow_span h hne
    omega

/-- Numbers that span an even number of places, fewer than 101, from the first to the last. -/
def EvenSpan (rb : RfbReportBlock) : Prop :=
  ∃ first ∈ rb, ∃ last ∈ rb, (∀ seq ∈ rb, ahead first seq ≤ ahead first last) ∧
    ahead first last < 100 ∧ (ahead first last + 1) % 2 = 0

/-- The window is what the numbers of such a block span. -/
theorem evenSpan_iff {rb : RfbReportBlock} (h : Narrow rb) (hne : rb ≠ ∅) :
    EvenSpan rb ↔ windowSize rb % 2 = 0 := by
  obtain ⟨lo, hlo, hi, hhi, hsize, hlt, hall⟩ := narrow_span h hne
  constructor
  · rintro ⟨first, hfirst, last, hlast, hspan, hshort, heven⟩
    have hsame : first = lo := by
      have h1 := (hall first hfirst).trans_lt hlt
      have h2 := (hspan lo hlo).trans_lt hshort
      have := first.toNat_lt
      have := lo.toNat_lt
      rw [ahead_eq] at h1 h2
      apply UInt16.toNat_inj.mp
      omega
    subst hsame
    have h1 := hall last hlast
    have h2 := hspan hi hhi
    omega
  · exact fun heven => ⟨lo, hlo, hi, hhi, hall, hlt, hsize ▸ heven⟩

/-- The window that is reported is the shortest one with all numbers, from the oldest to the newest. -/
structure RightWindow (rb : RfbReportBlock) : Prop where
  begin_mem : (calcCountEndSeq rb).2 - (calcCountEndSeq rb).1 + 1 ∈ rb
  end_mem : (calcCountEndSeq rb).2 ∈ rb
  shortest : Shortest (· ∈ rb) ((calcCountEndSeq rb).2 - (calcCountEndSeq rb).1 + 1) (calcCountEndSeq rb).1.toNat

private theorem calcCountEndSeq_ends {rb : RfbReportBlock} (hne : rb ≠ ∅) :
    ∃ lo ∈ rb, ∃ hi ∈ rb, (calcCountEndSeq rb).2 - (calcCountEndSeq rb).1 + 1 = lo ∧ (calcCountEndSeq rb).2 = hi ∧
      (calcCountEndSeq rb).1 = UInt16.ofNat (ahead lo hi + 1) ∧ (∀ seq ∈ rb, ahead lo seq ≤ ahead lo hi) ∧
      ((lo.toNat ≤ hi.toNat ∧ (∀ seq ∈ rb, lo.toNat ≤ seq.toNat ∧ seq.toNat ≤ hi.toNat) ∧
        (32768 < lo.toNat ∨ hi.toNat ≤ 32768 ∨ ∀ seq ∈ rb, 100 ≤ seq.toNat)) ∨
      (hi.toNat ≤ 32768 ∧ 32768 < lo.toNat ∧ (∀ seq ∈ rb, seq.toNat ≤ hi.toNat ∨ lo.toNat ≤ seq.toNat) ∧
        ∃ seq ∈ rb, seq.toNat < 100)) := by
  have hmem {seq : UInt16} : seq ∈ rb.keys ↔ seq ∈ rb := Std.ExtTreeMap.mem_keys
  have hcalc := calcCountEndSeq_eq hne
  obtain ⟨hlo0, hle0, -, -⟩ := windowBounds_cover (keys_ne_nil hne)
  have hbegin := window_begin hlo0 hle0
  have hword (seq : UInt16) : UInt16.ofNat seq.toNat = seq := UInt16.toNat_inj.mp (by simp)
  obtain ⟨lo, hlo, hi, hhi, hbounds⟩ := windowBounds_cases (keys_ne_nil hne)
  simp only [hmem] at hlo hhi hbounds
  have h1 := lo.toNat_lt
  have h2 := hi.toNat_lt
  refine ⟨lo, hlo, hi, hhi, ?_⟩
  rw [hcalc, windowSize]
  rcases hbounds with ⟨he, hle, hall, hcase⟩ | ⟨he, hfront, hrear, hall, hlow⟩
  · rw [he] at hbegin ⊢
    have hsize : ((hi.toNat : Int) - lo.toNat + 1).toNat = ahead lo hi + 1 := by
      rw [ahead_eq]
      omega
    refine ⟨?_, ?_, by rw [hsize], fun seq hseq => ?_, .inl ⟨hle, hall, hcase⟩⟩
    · rw [hbegin, Int.toNat_natCast, hword]
    · rw [ofInt_eq_ofNat (by omega), Int.toNat_natCast, hword]
    · have := hall seq hseq
      rw [ahead_eq, ahead_eq]
      omega
  · rw [he] at hbegin ⊢
    have hsize : ((hi.toNat : Int) + 65536 - lo.toNat + 1).toNat = ahead lo hi + 1 := by
      rw [ahead_eq]
      omega
    refine ⟨?_, ?_, by rw [hsize], fun seq hseq => ?_, .inr ⟨hfront, hrear, hall, hlow⟩⟩
    · rw [hbegin, Int.toNat_natCast, hword]
    · rw [ofInt_eq_ofNat (by omega)]
      apply UInt16.toNat_inj.mp
      rw [UInt16.toNat_ofNat']
      omega
    · have := hall seq hseq
      have := seq.toNat_lt
      rw [ahead_eq, ahead_eq]
      omega

/-- Numbers of the block go on from the end of the number range to its start. -/
def Wraps (rb : RfbReportBlock) : Prop :=
  ∃ front ∈ rb, ∃ rear ∈ rb, front.toNat ≤ 32768 ∧ 32768 < rear.toNat ∧ ahead rear front < 32768

private theorem rightWindow_short {rb : RfbReportBlock} {first lo hi : UInt16}
    (hfirst : ∀ seq ∈ rb, ahead first seq < 32767)
    (hlo : lo ∈ rb) (hhi : hi ∈ rb) (hbegin : (calcCountEndSeq rb).2 - (calcCountEndSeq rb).1 + 1 = lo)
    (hend : (calcCountEndSeq rb).2 = hi) (hcount : (calcCountEndSeq rb).1 = UInt16.ofNat (ahead lo hi + 1))
    (hcovers : ∀ seq ∈ rb, ahead lo seq ≤ ahead lo hi) : RightWindow rb ↔ ahead lo hi < 32767 := by
  constructor
  · rintro ⟨-, -, hshortest⟩
    have hleast := hshortest.least first 32767 hfirst
    have hlast := hshortest.covers hi hhi
    rw [hbegin] at hlast
    omega
  · intro hhalf
    have hn : (calcCountEndSeq rb).1.toNat = ahead lo hi + 1 := by
      rw [hcount, UInt16.toNat_ofNat']
      omega
    refine ⟨hbegin ▸ hlo, hend ▸ hhi, ?_⟩
    rw [hbegin, hn]
    exact shortest_of_half (S := (· ∈ rb)) hlo hhi hcovers hhalf

private theorem ahead_or_behind {first front rear : UInt16} (hf : ahead first front < 32767)
    (hr : ahead first rear < 32767) :
    ahead rear front < 32767 ∨ ahead front rear < 32767 := by
  have hfirst := first.toNat_lt
  have hfront := front.toNat_lt
  have hrear := rear.toNat_lt
  rw [ahead_eq] at hf hr ⊢
  rw [ahead_eq]
  omega

/-- Numbers within less than half the range have the right window exactly when they are on one
side of the middle of the range, or the first hundred numbers tell whether they wrap. -/
theorem rightWindow_iff {rb : RfbReportBlock} (hne : rb ≠ ∅) (hfits : ∃ first, ∀ seq ∈ rb, ahead first seq < 32767) :
    RightWindow rb ↔ ∀ front ∈ rb, ∀ rear ∈ rb, front.toNat ≤ 32768 → 32768 < rear.toNat →
      (Wraps rb ↔ ∃ seq ∈ rb, seq.toNat < 100) := by
  obtain ⟨first, hfirst⟩ := hfits
  obtain ⟨lo, hlo, hi, hhi, hbegin, hend, hcount, hcovers, hcases⟩ := calcCountEndSeq_ends hne
  rw [rightWindow_short hfirst hlo hhi hbegin hend hcount hcovers]
  have h1 := lo.toNat_lt
  have h2 := hi.toNat_lt
  rcases hcases with ⟨hle, hall, hside⟩ | ⟨hfront, hrear, hall, hlow⟩
  · -- With numbers on both sides of the middle, such a window has none of the first hundred.
    have hhigh (front : UInt16) (hf : front ∈ rb) (rear : UInt16) (hr : rear ∈ rb) (hfront : front.toNat ≤ 32768)
        (hrear : 32768 < rear.toNat) : ∀ seq ∈ rb, 100 ≤ seq.toNat := by
      have hf' := hall front hf
      have hr' := hall rear hr
      rcases hside with hlo | hhi | hhigh
      · omega
      · omega
      · exact hhigh
    constructor
    · -- A window within the range: nothing wraps.
      intro hhalf front hf rear hr hfront hrear
      constructor
      · rintro ⟨f, hf, r, hr, hf32768, hr32768, hwrap⟩
        have := hall f hf
        have := hall r hr
        rw [ahead_eq] at hhalf hwrap
        omega
      · rintro ⟨seq, hseq, hlt⟩
        have := hhigh front hf rear hr hfront hrear seq hseq
        omega
    · intro htold
      by_contra hlong
      have hback := (ahead_or_behind (hfirst hi hhi) (hfirst lo hlo)).resolve_left hlong
      have hfar : lo.toNat ≤ 32768 ∧ 32768 < hi.toNat ∧ ahead hi lo < 32768 := by
        rw [ahead_eq] at hlong hback ⊢
        omega
      obtain ⟨seq, hseq, hlt⟩ := (htold lo hlo hi hhi hfar.1 hfar.2.1).mp ⟨lo, hlo, hi, hhi, hfar⟩
      have := hhigh lo hlo hi hhi hfar.1 hfar.2.1 seq hseq
      omega
  · constructor
    · intro hhalf front _ rear _ _ _
      exact ⟨fun _ => hlow, fun _ => ⟨hi, hhi, lo, hlo, hfront, hrear, hhalf.trans (by omega)⟩⟩
    · -- The numbers that wrap lie in the window that they all fit in, as the ends do.
      intro htold
      obtain ⟨f, hf, r, hr, hf32768, hr32768, hwrap⟩ := (htold hi hhi lo hlo hfront hrear).mpr hlow
      have hfIn := hfirst f hf
      have hrIn := hfirst r hr
      have hloIn := hfirst lo hlo
      have hhiIn := hfirst hi hhi
      have h0 := first.toNat_lt
      have hr0 := r.toNat_lt
      rw [ahead_eq] at hfIn hrIn hloIn hhiIn hwrap ⊢
      have hstart : 32768 < first.toNat := by
        clear hloIn hhiIn
        omega
      clear hfIn hrIn hwrap
      omega

/-- Two numbers around the end of the range, the second one below 100. -/
theorem rightWindow_iff_wrapping :
    RightWindow (((∅ : RfbReportBlock).insert 65530 ⟨0, 7⟩).insert 20 ⟨0, 9⟩) := by
  let rb : RfbReportBlock := ((∅ : RfbReportBlock).insert 65530 ⟨0, 7⟩).insert 20 ⟨0, 9⟩
  have hmem : ∀ seq, seq ∈ rb ↔ seq = 20 ∨ seq = 65530 := by
    intro seq
    simp only [rb, Std.ExtTreeMap.mem_insert, Std.compare_eq_iff_eq, Std.ExtTreeMap.not_mem_empty, or_false]
    exact or_congr eq_comm eq_comm
  have hne : rb ≠ ∅ := by
    intro he
    have h20 := (hmem 20).mpr (.inl rfl)
    rw [he] at h20
    exact Std.ExtTreeMap.not_mem_empty h20
  refine (rightWindow_iff hne ⟨65530, fun seq hseq => ?_⟩).mpr fun front _ rear _ _ _ => ?_
  · rcases (hmem seq).mp hseq with rfl | rfl
    · decide
    · decide
  · exact ⟨fun _ => ⟨20, (hmem 20).mpr (.inl rfl), by decide⟩,
      fun _ => ⟨20, (hmem 20).mpr (.inl rfl), 65530, (hmem 65530).mpr (.inr rfl), by decide⟩⟩

/-- Numbers around the end of the range are told as a window almost as long as the range when the
first hundred are lost, and so are numbers around the middle of the range that begin below 100. -/
theorem windows_that_are_wrong :
    ¬ RightWindow (((∅ : RfbReportBlock).insert 65530 ⟨0, 7⟩).insert 150 ⟨0, 9⟩) ∧
      ¬ RightWindow (((∅ : RfbReportBlock).insert 50 ⟨0, 7⟩).insert 32769 ⟨0, 9⟩) := by
  constructor
  · rintro ⟨-, -, hshortest⟩
    have hcalc : calcCountEndSeq (((∅ : RfbReportBlock).insert 65530 ⟨0, 7⟩).insert 150 ⟨0, 9⟩) = (65381, 65530) := by
      decide +kernel
    rw [hcalc] at hshortest
    have hleast := hshortest.least 65530 157 fun seq hseq => by
      simp only [Std.ExtTreeMap.mem_insert, Std.compare_eq_iff_eq, Std.ExtTreeMap.not_mem_empty, or_false] at hseq
      rcases hseq with rfl | rfl
      · decide
      · decide
    exact absurd hleast (by decide)
  · rintro ⟨-, -, hshortest⟩
    have hcalc : calcCountEndSeq (((∅ : RfbReportBlock).insert 50 ⟨0, 7⟩).insert 32769 ⟨0, 9⟩) = (32818, 50) := by
      decide +kernel
    rw [hcalc] at hshortest
    have hleast := hshortest.least 50 32720 fun seq hseq => by
      simp only [Std.ExtTreeMap.mem_insert, Std.compare_eq_iff_eq, Std.ExtTreeMap.not_mem_empty, or_false] at hseq
      rcases hseq with rfl | rfl
      · decide
      · decide
    exact absurd hleast (by decide)

end Ns3Rmcat.Header
