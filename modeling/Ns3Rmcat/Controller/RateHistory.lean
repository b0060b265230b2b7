import Ns3Rmcat.Controller.RateWindow

/-! What the rate is a function of, when the clock is monotonic: the samples since the last reset
and the size of the window. Asking for the rate in between makes no difference. -/
namespace Ns3Rmcat.Controller
open Lib

def samplesOf (calls : List RateCall) : List (ℤ × UInt64) :=
  calls.foldl (fun samples c =>
    match c with
    | .reset => []
    | .update count nowMs => samples ++ [(nowMs, count)]
    | _ => samples) []

def windowFrom (maxSize size : ℤ) (calls : List RateCall) : ℤ :=
  calls.foldl (fun size c =>
    match c with
    | .reset => maxSize
    | .setWindowSize windowSizeMs _ => if windowSizeMs ≤ 0 ∨ maxSize < windowSizeMs then size else windowSizeMs
    | _ => size) size

/-- A call does not make a window larger. -/
def NotLarger (maxSize size : ℤ) : RateCall → Prop
  | .setWindowSize windowSizeMs _ => 0 < windowSizeMs → windowSizeMs ≤ maxSize → windowSizeMs ≤ size
  | _ => True

def NeverGrows (maxSize size : ℤ) (calls : List RateCall) : Prop :=
  ∀ before c after, calls = before ++ c :: after → NotLarger maxSize (windowFrom maxSize size before) c

/-- The calls are made at the times of a monotonic clock. -/
structure Clocked (calls : List RateCall) : Prop where
  ordered : (calls.filterMap RateCall.nowMs).Pairwise (· ≤ ·)
  nonneg : ∀ now ∈ calls.filterMap RateCall.nowMs, 0 ≤ now

/-- The rate of some samples at a time: of those in the window, over the part of the window since
the first sample. -/
def measured {F : Type} [FloatArith F] (scale : F) (size now : ℤ)
    (samples : List (ℤ × UInt64)) : UInt32 :=
  match samples.head? with
  | none => 0
  | some first =>
    RateWindow.rateOver scale size (max first.1 (now - size + 1)) now
      (samples.filter fun sample => now - size + 1 ≤ sample.1)

@[simp] theorem samplesOf_reset (calls : List RateCall) : samplesOf (calls ++ [.reset]) = [] := by
  rw [samplesOf, List.foldl_append]
  rfl

@[simp] theorem samplesOf_update (calls : List RateCall) (count : UInt64) (now : ℤ) :
    samplesOf (calls ++ [.update count now]) = samplesOf calls ++ [(now, count)] := by
  rw [samplesOf, List.foldl_append]
  rfl

@[simp] theorem samplesOf_rate (calls : List RateCall) (now : ℤ) :
    samplesOf (calls ++ [.rate now]) = samplesOf calls := by
  rw [samplesOf, List.foldl_append]
  rfl

@[simp] theorem samplesOf_setWindowSize (calls : List RateCall) (size now : ℤ) :
    samplesOf (calls ++ [.setWindowSize size now]) = samplesOf calls := by
  rw [samplesOf, List.foldl_append]
  rfl

private theorem windowFrom_append (maxSize size : ℤ) (calls more : List RateCall) :
    windowFrom maxSize size (calls ++ more) = windowFrom maxSize (windowFrom maxSize size calls) more :=
  List.foldl_append

private theorem windowFrom_pos {maxSize size : ℤ} (hmax : 0 < maxSize) (hsize : 0 < size) (calls : List RateCall) :
    0 < windowFrom maxSize size calls := by
  induction calls using List.reverseRecOn with
  | nil => exact hsize
  | append_singleton calls c ih =>
    rw [windowFrom_append]
    cases c with
    | reset => exact hmax
    | update count now => exact ih
    | rate now => exact ih
    | setWindowSize windowSizeMs now =>
      change 0 < if windowSizeMs ≤ 0 ∨ maxSize < windowSizeMs then windowFrom maxSize size calls else windowSizeMs
      split
      · exact ih
      · omega

private theorem Clocked.init {calls more : List RateCall} (h : Clocked (calls ++ more)) : Clocked calls := by
  constructor
  · have := h.ordered
    rw [List.filterMap_append] at this
    exact this.sublist (List.sublist_append_left _ _)
  · intro now hnow
    refine h.nonneg now ?_
    rw [List.filterMap_append]
    exact List.mem_append_left _ hnow

private theorem Clocked.last {calls : List RateCall} {c : RateCall} (h : Clocked (calls ++ [c])) (now : ℤ)
    (hnow : now ∈ c.nowMs) : 0 ≤ now ∧ ∀ past ∈ calls.filterMap RateCall.nowMs, past ≤ now := by
  have hlast : [c].filterMap RateCall.nowMs = [now] := by
    rw [List.filterMap_cons_some hnow]
    rfl
  constructor
  · refine h.nonneg now ?_
    rw [List.filterMap_append, hlast]
    simp
  · have := h.ordered
    rw [List.filterMap_append, hlast, List.pairwise_append] at this
    exact fun past hpast => this.2.2 past hpast now (by simp)

private theorem Clocked.rate_le {before after : List RateCall} {now : ℤ} (h : Clocked (before ++ .rate now :: after)) :
    ∀ c ∈ after, ∀ later ∈ c.nowMs, now ≤ later := by
  intro c hc later hlater
  have := h.ordered
  rw [List.filterMap_append, List.pairwise_append] at this
  exact List.rel_of_pairwise_cons this.2.1 (List.mem_filterMap.mpr ⟨c, hc, hlater⟩)

private theorem Clocked.times {calls : List RateCall} (h : Clocked calls) : ∀ c ∈ calls, ∀ now ∈ c.nowMs, 0 ≤ now :=
  fun c hc now hnow => h.nonneg now (List.mem_filterMap.mpr ⟨c, hc, hnow⟩)

private theorem time_mem_of_samplesOf {calls : List RateCall} {sample : ℤ × UInt64} (h : sample ∈ samplesOf calls) :
    sample.1 ∈ calls.filterMap RateCall.nowMs := by
  induction calls using List.reverseRecOn with
  | nil => cases h
  | append_singleton calls c ih =>
    rw [List.filterMap_append, List.mem_append]
    cases c with
    | reset => simp at h
    | update count now =>
      rw [samplesOf_update, List.mem_append, List.mem_singleton] at h
      rcases h with hold | rfl
      · exact .inl (ih hold)
      · exact .inr (by simp [RateCall.nowMs])
    | rate now => exact .inl (ih (by simpa using h))
    | setWindowSize size now => exact .inl (ih (by simpa using h))

private theorem NeverGrows.init {maxSize size : ℤ} {calls more : List RateCall}
    (h : NeverGrows maxSize size (calls ++ more)) :
    NeverGrows maxSize size calls :=
  fun before c after he => h before c (after ++ more) (by simp [he])

instance (maxSize size : ℤ) : (c : RateCall) → Decidable (NotLarger maxSize size c)
  | .setWindowSize windowSizeMs _ =>
    inferInstanceAs (Decidable (0 < windowSizeMs → windowSizeMs ≤ maxSize → windowSizeMs ≤ size))
  | .reset => .isTrue trivial
  | .update _ _ => .isTrue trivial
  | .rate _ => .isTrue trivial

instance (maxSize size : ℤ) (calls : List RateCall) : Decidable (NeverGrows maxSize size calls) :=
  decidable_of_iff
    (∀ i : Fin calls.length, NotLarger maxSize (windowFrom maxSize size (calls.take i)) calls[i]) (by
    constructor
    · rintro hall before c after rfl
      have hone := hall ⟨before.length, by simp⟩
      simpa using hone
    · intro hall i
      refine hall (calls.take i) calls[i] (calls.drop (i + 1)) ?_
      rw [Fin.getElem_fin, List.getElem_cons_drop, List.take_append_drop])

namespace RateWindow

/-- A window holds the samples from a time on, and begins there or at the first of all samples. -/
structure Since (w : RateWindow) (all : List (ℤ × UInt64)) (cut : ℤ) : Prop where
  oldest : w.oldest = all.head?.map fun first => max first.1 cut
  samples : w.samples = all.filter fun sample => cut ≤ sample.1

private theorem Since.advance {w : RateWindow} {all : List (ℤ × UInt64)} {cut : ℤ} (h : Since w all cut) (now : ℤ)
    (hfirst : ∀ first ∈ all.head?, ∀ sample ∈ all, first.1 ≤ sample.1) (hcut : cut ≤ now - w.size + 1) :
    Since (w.advance now) all (now - w.size + 1) := by
  rw [RateWindow.advance]
  cases hhead : all.head? with
  | none =>
    obtain rfl := List.head?_eq_none_iff.mp hhead
    have hnone : w.oldest = none := h.oldest
    rw [hnone]
    exact ⟨hnone, h.samples⟩
  | some first =>
    have hsome : w.oldest = some (max first.1 cut) := by rw [h.oldest, hhead]; rfl
    have hle := hfirst first hhead
    rw [hsome]
    dsimp only
    by_cases hkeep : now - w.size + 1 ≤ max first.1 cut
    · rw [if_pos hkeep]
      refine ⟨?_, ?_⟩
      · rw [hsome, hhead]
        change some (max first.1 cut) = some (max first.1 (now - w.size + 1))
        refine congrArg some ?_
        omega
      · rw [h.samples]
        refine List.filter_congr fun sample hmem => ?_
        have := hle sample hmem
        rw [decide_eq_decide]
        omega
    · rw [if_neg hkeep]
      refine ⟨?_, ?_⟩
      · rw [hhead]
        change some (now - w.size + 1) = some (max first.1 (now - w.size + 1))
        refine congrArg some ?_
        omega
      · rw [h.samples, List.filter_filter]
        refine List.filter_congr fun sample _ => ?_
        rw [← Bool.decide_and, decide_eq_decide]
        omega

private theorem Since.add {w : RateWindow} {all : List (ℤ × UInt64)} {cut now : ℤ} (h : Since w all cut)
    (hfirst : ∀ first ∈ all.head?, ∀ sample ∈ all, first.1 ≤ sample.1) (hsize : 0 < w.size)
    (hcut : cut ≤ now - w.size + 1) (hlast : ∀ sample ∈ all, sample.1 ≤ now) (count : UInt64) :
    Since (w.add count now) (all ++ [(now, count)]) (now - w.size + 1) := by
  have hadvanced := h.advance now hfirst hcut
  have htaken : ¬ w.oldest.any (now < ·) = true := by
    rw [h.oldest]
    cases hhead : all.head? with
    | none => simp
    | some first =>
      have := hlast first (List.mem_of_mem_head? hhead)
      simp only [Option.map_some, Option.any_some, decide_eq_true_eq]
      omega
  rw [RateWindow.add, if_neg htaken]
  refine ⟨?_, ?_⟩
  · dsimp only
    rw [hadvanced.oldest]
    cases all with
    | nil =>
      refine congrArg some ?_
      dsimp only [List.head?, Option.map, Option.getD]
      omega
    | cons first rest => rfl
  · dsimp only
    have hnew : now - w.size + 1 ≤ now := by omega
    rw [hadvanced.samples, List.filter_append, List.filter_cons_of_pos (by simpa using hnew), List.filter_nil]

section Runs
variable {F : Type} [FloatArith F]

private theorem windowFrom_singleton (scale : F) (w : RateWindow) (c : RateCall) :
    windowFrom w.maxSize w.size [c] = (w.call scale c).2.size := by
  cases c with
  | reset => rfl
  | update count now =>
    rw [call, add]
    split
    · rfl
    · exact (w.advance_size now).symm
  | rate now => exact (w.advance_size now).symm
  | setWindowSize size now =>
    change (if size ≤ 0 ∨ w.maxSize < size then w.size else size) = _
    rw [call]
    split
    · rfl
    · exact (advance_size (RateWindow.mk w.maxSize size w.oldest w.samples) now).symm

private theorem call_maxSize (scale : F) (w : RateWindow) (c : RateCall) : (w.call scale c).2.maxSize = w.maxSize := by
  cases c with
  | reset => rfl
  | update count now =>
    rw [call, add]
    split
    · rfl
    · exact w.advance_maxSize now
  | rate now => exact w.advance_maxSize now
  | setWindowSize size now =>
    rw [call]
    split
    · rfl
    · exact advance_maxSize (RateWindow.mk w.maxSize size w.oldest w.samples) now

private theorem runCalls_size (scale : F) (maxSize : ℤ) (calls : List RateCall) :
    (runCalls scale ⟨.empty maxSize, []⟩ calls).stats.maxSize = maxSize ∧
      (runCalls scale ⟨.empty maxSize, []⟩ calls).stats.size = windowFrom maxSize maxSize calls := by
  induction calls using List.reverseRecOn with
  | nil => exact ⟨rfl, rfl⟩
  | append_singleton calls c ih =>
    rw [runCalls_snoc, windowFrom_append, ← ih.2]
    refine ⟨(call_maxSize scale _ c).trans ih.1, ?_⟩
    have hsize := windowFrom_singleton scale (runCalls scale ⟨.empty maxSize, []⟩ calls).stats c
    rw [ih.1] at hsize
    exact hsize.symm

private theorem samplesOf_first {calls : List RateCall} (hclock : Clocked calls) :
    ∀ first ∈ (samplesOf calls).head?, ∀ sample ∈ samplesOf calls, first.1 ≤ sample.1 := by
  induction calls using List.reverseRecOn with
  | nil => simp [samplesOf]
  | append_singleton calls c ih =>
    have ih := ih hclock.init
    cases c with
    | reset => simp
    | update count now =>
      have hpast := (hclock.last now rfl).2
      rw [samplesOf_update]
      intro first hfirst sample hmem
      rcases List.mem_append.mp hmem with hold | hnew
      · cases hhead : (samplesOf calls).head? with
        | none =>
          rw [List.head?_eq_none_iff.mp hhead] at hold
          cases hold
        | some oldest =>
          rw [List.head?_append, hhead] at hfirst
          obtain rfl := Option.some.inj hfirst
          exact ih oldest hhead sample hold
      · obtain rfl := List.mem_singleton.mp hnew
        cases hhead : (samplesOf calls).head? with
        | none =>
          rw [List.head?_append, hhead] at hfirst
          obtain rfl := Option.some.inj hfirst
          exact le_refl _
        | some oldest =>
          rw [List.head?_append, hhead] at hfirst
          obtain rfl := Option.some.inj hfirst
          exact hpast _ (time_mem_of_samplesOf (List.mem_of_mem_head? hhead))
    | rate now => simpa using ih
    | setWindowSize size now => simpa using ih

/-- A window holds the samples since a time that has gone by. -/
def SincePast (w : RateWindow) (calls : List RateCall) : Prop :=
  ∃ t, (∀ now, 0 ≤ now → (∀ past ∈ calls.filterMap RateCall.nowMs, past ≤ now) → t ≤ now) ∧
    Since w (samplesOf calls) (t - w.size + 1)

private theorem Since.past {w : RateWindow} {calls : List RateCall} {c : RateCall} {now : ℤ}
    (h : Since w (samplesOf (calls ++ [c])) (now - w.size + 1)) (hnow : now ∈ c.nowMs) :
    SincePast w (calls ++ [c]) := by
  refine ⟨now, fun later _ hlater => hlater now ?_, h⟩
  rw [List.filterMap_append, List.filterMap_cons_some hnow]
  simp

private theorem SincePast.call (scale : F) {calls : List RateCall} {c : RateCall} {w : RateWindow}
    (h : SincePast w calls)
    (hpos : 0 < w.size) (hclock : Clocked (calls ++ [c])) (hgrows : NotLarger w.maxSize w.size c) :
    SincePast (w.call scale c).2 (calls ++ [c]) := by
  obtain ⟨t, ht, hsince⟩ := h
  have hfirst := samplesOf_first hclock.init
  cases c with
  | reset =>
    refine ⟨0, fun now hnow _ => hnow, ?_⟩
    exact ⟨by simp [RateWindow.call, empty], by simp [RateWindow.call, empty]⟩
  | update count now =>
    obtain ⟨hnow, hpast⟩ := hclock.last now rfl
    have hcut := ht now hnow hpast
    have hadd := hsince.add hfirst hpos (by omega : t - w.size + 1 ≤ now - w.size + 1)
      (fun sample hmem => hpast _ (time_mem_of_samplesOf hmem)) count
    have hsame : (w.add count now).size = w.size := by
      rw [RateWindow.add]
      split
      · rfl
      · exact w.advance_size now
    rw [← samplesOf_update, ← hsame] at hadd
    exact hadd.past rfl
  | rate now =>
    obtain ⟨hnow, hpast⟩ := hclock.last now rfl
    have hcut := ht now hnow hpast
    have hadvance := hsince.advance now hfirst (by omega : t - w.size + 1 ≤ now - w.size + 1)
    rw [← w.advance_size now, ← samplesOf_rate calls now] at hadvance
    exact hadvance.past rfl
  | setWindowSize size now =>
    obtain ⟨hnow, hpast⟩ := hclock.last now rfl
    have hcut := ht now hnow hpast
    rw [RateWindow.call]
    by_cases hvalid : size ≤ 0 ∨ w.maxSize < size
    · rw [if_pos hvalid]
      refine ⟨t, fun later hlater hall => ht later hlater fun past hmem => hall past ?_, ?_⟩
      · rw [List.filterMap_append]
        exact List.mem_append_left _ hmem
      · simpa using hsince
    · have hsmaller := hgrows (by omega) (by omega)
      have hresized : Since { w with size } (samplesOf calls) (t - w.size + 1) := ⟨hsince.oldest, hsince.samples⟩
      have hadvance := hresized.advance now hfirst (by dsimp only; omega)
      rw [← advance_size _ now, ← samplesOf_setWindowSize calls size now] at hadvance
      rw [if_neg hvalid]
      exact hadvance.past rfl

/-- After any calls of a monotonic clock that never enlarge the window, it holds the samples since
a time that has gone by. -/
private theorem runCalls_since (scale : F) {maxSize : ℤ} (hpos : 0 < maxSize) {calls : List RateCall}
    (hclock : Clocked calls) (hgrows : NeverGrows maxSize maxSize calls) :
    SincePast (runCalls scale ⟨.empty maxSize, []⟩ calls).stats calls := by
  induction calls using List.reverseRecOn with
  | nil => exact ⟨0, fun now hnow _ => hnow, ⟨rfl, rfl⟩⟩
  | append_singleton calls c ih =>
    obtain ⟨hmax, hsize⟩ := runCalls_size scale maxSize calls
    rw [runCalls_snoc]
    refine (ih hclock.init hgrows.init).call scale ?_ hclock ?_
    · rw [hsize]
      exact windowFrom_pos hpos hpos calls
    · rw [hmax, hsize]
      exact hgrows calls c [] rfl

private theorem Since.rate {w : RateWindow} {all : List (ℤ × UInt64)} {size now : ℤ} (h : Since w all (now - size + 1))
    (scale : F) : rateOver scale size (w.oldest.getD now) now w.samples = measured scale size now all := by
  rw [measured, h.oldest, h.samples]
  cases hhead : all.head? with
  | none =>
    rw [List.head?_eq_none_iff.mp hhead]
    simp [rateOver]
  | some first => rfl

private theorem advance_none {w : RateWindow} (ho : w.oldest = none) (now : ℤ) : w.advance now = w := by
  rw [advance, ho]

private theorem advance_of_le {w : RateWindow} {oldest now : ℤ} (ho : w.oldest = some oldest)
    (hle : now - w.size + 1 ≤ oldest) : w.advance now = w := by
  rw [advance, ho]
  exact if_pos hle

private theorem advance_of_lt {w : RateWindow} {oldest now : ℤ} (ho : w.oldest = some oldest)
    (hlt : oldest < now - w.size + 1) :
    w.advance now = { w with
      oldest := some (now - w.size + 1)
      samples := w.samples.filter fun sample => now - w.size + 1 ≤ sample.1 } := by
  rw [advance, ho]
  exact if_neg (Int.not_le.mpr hlt)

/-- A window that is advanced twice, and not enlarged in between, is where it is when it is advanced
to the later time at once. -/
private theorem advance_advance (w : RateWindow) {size now later : ℤ} (hsize : size ≤ w.size) (hlater : now ≤ later) :
    (RateWindow.mk w.maxSize size (w.advance now).oldest (w.advance now).samples).advance later =
      (RateWindow.mk w.maxSize size w.oldest w.samples).advance later := by
  cases ho : w.oldest with
  | none => rw [advance_none ho, ho]
  | some oldest =>
    by_cases hkeep : now - w.size + 1 ≤ oldest
    · rw [advance_of_le ho hkeep, ho]
    · have hmoved : later - size + 1 ≤ now - w.size + 1 ∨ now - w.size + 1 < later - size + 1 := by omega
      rw [advance_of_lt ho (by omega)]
      rcases hmoved with hsame | hmore
      · have heq : later - size + 1 = now - w.size + 1 := by omega
        rw [advance_of_le rfl hsame, advance_of_lt rfl (by dsimp only; omega)]
        simp only [heq]
      · rw [advance_of_lt rfl hmore, advance_of_lt rfl (by dsimp only; omega)]
        simp only [List.filter_filter]
        congr 1
        refine List.filter_congr fun sample _ => ?_
        rw [← Bool.decide_and, decide_eq_decide]
        omega

private theorem advance_advance_self (w : RateWindow) {now later : ℤ} (hlater : now ≤ later) :
    (w.advance now).advance later = w.advance later := by
  have hself : RateWindow.mk w.maxSize w.size (w.advance now).oldest (w.advance now).samples = w.advance now := by
    rw [← w.advance_size now, ← w.advance_maxSize now]
  rw [← hself, w.advance_advance (le_refl w.size) hlater]

private theorem add_advance (w : RateWindow) (hsize : 0 < w.size) (count : UInt64) {now later : ℤ}
    (hlater : now ≤ later) :
    (w.advance now).add count later = w.add count later := by
  cases ho : w.oldest with
  | none => rw [advance_none ho]
  | some oldest =>
    by_cases hkeep : now - w.size + 1 ≤ oldest
    · rw [advance_of_le ho hkeep]
    · have htaken : ¬ w.oldest.any (later < ·) = true := by
        rw [ho, Option.any_some, decide_eq_true_eq]
        omega
      have htaken' : ¬ (w.advance now).oldest.any (later < ·) = true := by
        rw [advance_of_lt ho (by omega), Option.any_some, decide_eq_true_eq]
        omega
      rw [add, add, if_neg htaken, if_neg htaken', w.advance_advance_self hlater]

/-- A call that does not come before a time and does not enlarge the window makes no difference
between a window and what it has been advanced to at that time. -/
private theorem call_advance (scale : F) (w : RateWindow) (hsize : 0 < w.size) {now : ℤ} {c : RateCall}
    (hlater : ∀ later ∈ c.nowMs, now ≤ later) (hgrows : NotLarger w.maxSize w.size c) :
    (w.advance now).call scale c = w.call scale c ∨
      ((w.call scale c).2 = w ∧ (w.advance now).call scale c = ((w.call scale c).1, w.advance now)) := by
  cases c with
  | reset => exact .inl (by rw [call, call, w.advance_maxSize])
  | update count later => exact .inl (by rw [call, call, w.add_advance hsize count (hlater later rfl)])
  | rate later => exact .inl (by rw [call, call, w.advance_advance_self (hlater later rfl), w.advance_size])
  | setWindowSize size later =>
    rw [call, call, w.advance_maxSize]
    split
    · exact .inr ⟨rfl, rfl⟩
    · have hsmaller := hgrows (by omega) (by omega)
      exact .inl (by rw [w.advance_advance hsmaller (hlater later rfl)])

private theorem runCalls_cons (scale : F) (w : RateWindow) (answers : List RateAnswer) (c : RateCall)
    (calls : List RateCall) :
    runCalls scale ⟨w, answers⟩ (c :: calls) =
      runCalls scale ⟨(w.call scale c).2, answers ++ [(w.call scale c).1]⟩ calls := rfl

private theorem runCalls_append (scale : F) (a : RateAnswering RateWindow) (calls more : List RateCall) :
    runCalls scale a (calls ++ more) = runCalls scale (runCalls scale a calls) more :=
  List.foldl_append

private theorem runCalls_length (scale : F) (maxSize : ℤ) (calls : List RateCall) :
    (runCalls scale ⟨.empty maxSize, []⟩ calls).answers.length = calls.length := by
  induction calls using List.reverseRecOn with
  | nil => rfl
  | append_singleton calls c ih => rw [runCalls_snoc, List.length_append, List.length_append, ih]; rfl

private theorem runCalls_answers (scale : F) (w : RateWindow) (answers : List RateAnswer) (calls : List RateCall) :
    (runCalls scale ⟨w, answers⟩ calls).answers = answers ++ (runCalls scale ⟨w, []⟩ calls).answers := by
  induction calls generalizing w answers with
  | nil => simp [runCalls]
  | cons c calls ih =>
    rw [runCalls_cons, ih, runCalls_cons, ih _ ([] ++ _)]
    simp

/-- The calls after a time are answered in the same way whether the window has been advanced to that
time or not, when they do not enlarge it. -/
private theorem runCalls_advance (scale : F) (w : RateWindow) (hsize : 0 < w.size) {now : ℤ} {calls : List RateCall}
    (hlater : ∀ c ∈ calls, ∀ later ∈ c.nowMs, now ≤ later) (hgrows : NeverGrows w.maxSize w.size calls) :
    (runCalls scale ⟨w.advance now, []⟩ calls).answers = (runCalls scale ⟨w, []⟩ calls).answers := by
  induction calls with
  | nil => rfl
  | cons c calls ih =>
    rw [runCalls_cons, runCalls_cons, runCalls_answers, runCalls_answers scale (w.call scale c).2]
    rcases w.call_advance scale hsize (hlater c List.mem_cons_self) (hgrows [] c calls rfl) with hsame | ⟨hstay, hcall⟩
    · rw [hsame]
    · rw [hcall, hstay]
      refine congrArg _ (ih (fun d hd => hlater d (List.mem_cons_of_mem _ hd)) ?_)
      intro before d after he
      have hsmaller := hgrows (c :: before) d after (by rw [he]; rfl)
      rwa [← List.singleton_append, windowFrom_append, windowFrom_singleton scale, hstay] at hsmaller

end Runs

end RateWindow

namespace RateStatistics
open RateWindow
variable {F : Type} [FloatArith F]

/-- When the clock is monotonic and the window is never enlarged, the rate is that of the samples
since the last reset, whatever has been asked for before. -/
theorem rate_measured (scale : F) {maxSize : ℤ} (hpos : 0 < maxSize) (hsmall : maxSize ≤ 2 ^ 31)
    {calls : List RateCall} {now : ℤ} (hclock : Clocked (calls ++ [.rate now]))
    (hgrows : NeverGrows maxSize maxSize calls) (hfew : (calls ++ [RateCall.rate now]).length < 2 ^ 64) :
    ∃ a, run step ⟨ofWindow maxSize scale, []⟩ (calls ++ [.rate now]) = .ok a ∧
      a.answers.getLast? =
        some (.rate (measured scale (windowFrom maxSize maxSize calls) now (samplesOf calls))) := by
  obtain ⟨a, hrun, -, hanswers, -⟩ := run_represents scale hpos hsmall hclock.times hfew
  refine ⟨a, hrun, ?_⟩
  obtain ⟨hnow, hpast⟩ := hclock.last now rfl
  obtain ⟨t, ht, hsince⟩ := runCalls_since scale hpos hclock.init hgrows
  have hcut := ht now hnow hpast
  have hadvance := hsince.advance now (samplesOf_first hclock.init) (by omega)
  have hrate := hadvance.rate scale
  rw [hanswers, runCalls_snoc, List.getLast?_concat, ← (runCalls_size scale maxSize calls).2, RateWindow.call]
  dsimp only
  rw [advance_size, hrate]

/-- A window that is made smaller, and data from before a reset. -/
def smallerCalls : List RateCall :=
  [.update 90 1, .reset, .update 10 3, .update 20 5, .rate 6, .setWindowSize 4 7, .update 30 8]

theorem rate_measured_smaller :
    ∃ a : RateAnswering (RateStatistics Float32), run step ⟨ofWindow 10 8000, []⟩ (smallerCalls ++ [.rate 8]) = .ok a ∧
      a.answers.getLast? =
        some (.rate (measured (8000 : Float32) (windowFrom 10 10 smallerCalls) 8 (samplesOf smallerCalls))) :=
  rate_measured 8000 (by decide) (by decide) ⟨by decide, by decide⟩ (by decide) (by decide)

/-- To ask for the rate changes no answer that comes later, when the clock is monotonic and the
window is not enlarged after it. -/
theorem rate_unobserved (scale : F) {maxSize : ℤ} (hpos : 0 < maxSize) (hsmall : maxSize ≤ 2 ^ 31)
    {before after : List RateCall} {now : ℤ} (hclock : Clocked (before ++ .rate now :: after))
    (hgrows : NeverGrows maxSize (windowFrom maxSize maxSize before) after)
    (hfew : (before ++ .rate now :: after).length < 2 ^ 64) :
    ∃ a b, run step ⟨ofWindow maxSize scale, []⟩ (before ++ .rate now :: after) = .ok a ∧
      run step ⟨ofWindow maxSize scale, []⟩ (before ++ after) = .ok b ∧
      a.answers.eraseIdx before.length = b.answers := by
  have hsub : (before ++ after).Sublist (before ++ .rate now :: after) :=
    (List.Sublist.refl before).append (List.sublist_cons_self _ _)
  obtain ⟨a, ha, -, hanswers, -⟩ := run_represents scale hpos hsmall hclock.times hfew
  obtain ⟨b, hb, -, hanswers', -⟩ := run_represents scale hpos hsmall
    (fun c hc => hclock.times c (hsub.subset hc)) (hsub.length_le.trans_lt hfew)
  obtain ⟨hmax, hsize⟩ := runCalls_size scale maxSize before
  have hsame := runCalls_advance scale (runCalls scale ⟨.empty maxSize, []⟩ before).stats
    (by rw [hsize]; exact windowFrom_pos hpos hpos before) hclock.rate_le (by rwa [hmax, hsize])
  refine ⟨a, b, ha, hb, ?_⟩
  have hlength := runCalls_length scale maxSize before
  have hinserted (answer : RateAnswer) (more : List RateAnswer) :
      ((runCalls scale ⟨.empty maxSize, []⟩ before).answers ++ [answer] ++ more).eraseIdx before.length =
        (runCalls scale ⟨.empty maxSize, []⟩ before).answers ++ more := by
    rw [← hlength, List.append_assoc, List.eraseIdx_append_of_length_le (le_refl _), Nat.sub_self]
    rfl
  rw [hanswers, hanswers', runCalls_append, runCalls_append, runCalls_cons, runCalls_answers, hinserted,
    runCalls_answers scale _ (runCalls scale ⟨.empty maxSize, []⟩ before).answers]
  exact congrArg _ hsame

theorem rate_unobserved_smaller :
    ∃ a b : RateAnswering (RateStatistics Float32),
      run step ⟨ofWindow 10 8000, []⟩ ([.update 10 0, .update 20 5] ++ .rate 9 :: [.setWindowSize 8 9, .rate 9]) =
        .ok a ∧
      run step ⟨ofWindow 10 8000, []⟩ ([.update 10 0, .update 20 5] ++ [.setWindowSize 8 9, .rate 9]) = .ok b ∧
      a.answers.eraseIdx 2 = b.answers :=
  rate_unobserved 8000 (by decide) (by decide) ⟨by decide, by decide⟩ (by decide) (by decide)

/-- It does when the window is made larger again: what was before the smaller one is gone. -/
example :
    let calls : List RateCall := [.update 10 0, .update 20 5, .setWindowSize 8 5]
    (runCalls (8000 : Float32) ⟨.empty 10, []⟩ (calls ++ [.rate 9, .setWindowSize 10 9, .rate 9])).answers.eraseIdx 3 ≠
      (runCalls (8000 : Float32) ⟨.empty 10, []⟩ (calls ++ [.setWindowSize 10 9, .rate 9])).answers := by decide +kernel

end RateStatistics

end Ns3Rmcat.Controller
