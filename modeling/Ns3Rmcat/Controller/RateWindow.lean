import Ns3Rmcat.Controller.RateStatistics

/-! The buckets of the rate statistics stand for the samples of a window: every call finds its
bucket inside the buffer and answers as the window does. -/
namespace Ns3Rmcat.Controller
open Lib

namespace RateWindow

@[simp] theorem total_nil : total [] = 0 := rfl

theorem total_append (xs ys : List (ℤ × UInt64)) : total (xs ++ ys) = total xs + total ys := by
  simp [total, UInt64.ofNat_add]

private theorem total_perm {xs ys : List (ℤ × UInt64)} (h : xs.Perm ys) : total xs = total ys := by
  rw [total, total, (h.map _).sum_eq]

@[simp] theorem total_singleton (now : ℤ) (count : UInt64) : total [(now, count)] = count := by simp [total]

private theorem advance_oldest (w : RateWindow) {now oldest : ℤ} (h : (w.advance now).oldest = some oldest) :
    now - w.size + 1 ≤ oldest := by
  rw [advance] at h
  split at h
  · rename_i hnone
    rw [hnone] at h
    cases h
  · rename_i before hbefore
    split at h
    · rw [hbefore] at h
      cases h
      assumption
    · cases h
      exact le_refl _

@[simp] theorem advance_size (w : RateWindow) (now : ℤ) : (w.advance now).size = w.size := by
  rw [advance]
  split
  · rfl
  · split <;> rfl

@[simp] theorem advance_maxSize (w : RateWindow) (now : ℤ) : (w.advance now).maxSize = w.maxSize := by
  rw [advance]
  split
  · rfl
  · split <;> rfl

private theorem advance_length (w : RateWindow) (now : ℤ) : (w.advance now).samples.length ≤ w.samples.length := by
  rw [advance]
  split
  · exact le_refl _
  · split
    · exact le_refl _
    · exact List.length_filter_le _ _

end RateWindow

open RateWindow

/-- What the bucket of a time has to hold. -/
def bucketOf (samples : List (ℤ × UInt64)) (t : ℤ) : Bucket :=
  let here := samples.filter fun sample => sample.1 = t
  ⟨total here, UInt64.ofNat here.length⟩

private theorem bucketOf_of_forall_ne {samples : List (ℤ × UInt64)} {t : ℤ} (h : ∀ sample ∈ samples, sample.1 ≠ t) :
    bucketOf samples t = {} := by
  have hnone : (samples.filter fun sample => sample.1 = t) = [] := by simpa using h
  rw [bucketOf, hnone]
  rfl

private theorem bucketOf_snoc (samples : List (ℤ × UInt64)) (now t : ℤ) (count : UInt64) :
    bucketOf (samples ++ [(now, count)]) t =
      if t = now then ⟨(bucketOf samples t).sum + count, (bucketOf samples t).samples + 1⟩
      else bucketOf samples t := by
  by_cases ht : now = t
  · subst ht
    simp [bucketOf, total_append, UInt64.ofNat_add]
  · simp [bucketOf, ht, Ne.symm ht]

private theorem oldest_perm {samples : List (ℤ × UInt64)} {oldest : ℤ} (h : ∀ sample ∈ samples, oldest ≤ sample.1) :
    ((samples.filter fun sample => sample.1 = oldest) ++
      samples.filter fun sample => oldest + 1 ≤ sample.1).Perm samples := by
  have hlater : (samples.filter fun sample => oldest + 1 ≤ sample.1) =
      samples.filter fun sample => !decide (sample.1 = oldest) := by
    refine List.filter_congr fun sample hmem => ?_
    have hle := h sample hmem
    rw [← decide_not, decide_eq_decide]
    omega
  rw [hlater]
  exact List.filter_append_perm _ samples

namespace RateStatistics
variable {F : Type} {s s' : RateStatistics F} {samples : List (ℤ × UInt64)}

/-- The buckets, and the two counters, hold some samples. -/
structure Holds (s : RateStatistics F) (samples : List (ℤ × UInt64)) : Prop where
  length : (s.buckets.length : ℤ) = s.maxWindowSizeMs
  small : s.buckets.length ≤ 2 ^ 31
  shows : Shows s.buckets s.oldestIndex.toNat s.oldestTime (bucketOf samples)
  within : ∀ sample ∈ samples, s.oldestTime ≤ sample.1 ∧ sample.1 < s.oldestTime + s.buckets.length
  accumulated : s.accumulatedCount = total samples
  number : s.numSamples = UInt64.ofNat samples.length

/-- The scale and the sizes stay what they are. -/
structure SameSettings (s s' : RateStatistics F) : Prop where
  scale : s'.scale = s.scale
  maxWindowSizeMs : s'.maxWindowSizeMs = s.maxWindowSizeMs
  currentWindowSizeMs : s'.currentWindowSizeMs = s.currentWindowSizeMs

private theorem SameSettings.refl (s : RateStatistics F) : SameSettings s s := ⟨rfl, rfl, rfl⟩

private theorem SameSettings.trans {s'' : RateStatistics F} (h : SameSettings s s') (h' : SameSettings s' s'') :
    SameSettings s s'' :=
  ⟨h'.scale.trans h.scale, h'.maxWindowSizeMs.trans h.maxWindowSizeMs,
    h'.currentWindowSizeMs.trans h.currentWindowSizeMs⟩

private theorem Holds.nil (h : Holds s []) (oldestTime : ℤ) : Holds { s with oldestTime } [] := by
  have hcells : ∀ cell ∈ s.buckets, cell = {} := by
    intro cell hcell
    obtain ⟨k, -, rfl⟩ := h.shows.mem hcell
    exact bucketOf_of_forall_ne (by simp)
  have hshows := Shows.const hcells h.shows.headLt oldestTime
  exact ⟨h.length, h.small, hshows.congr fun t _ _ => (bucketOf_of_forall_ne (by simp)).symm, by simp,
    h.accumulated, h.number⟩

private theorem Holds.next_index (h : Holds s samples) :
    (if s.maxWindowSizeMs ≤ (s.oldestIndex + 1).toNat then 0 else s.oldestIndex + 1).toNat =
      wrapped s.buckets.length (s.oldestIndex.toNat + 1) := by
  have hhead := h.shows.headLt
  have hsmall := h.small
  have hlength := h.length
  have hnext : (s.oldestIndex + 1).toNat = s.oldestIndex.toNat + 1 := by
    rw [UInt32.toNat_add]
    exact Nat.mod_eq_of_lt (by simp; omega)
  rw [wrapped]
  by_cases hend : s.buckets.length ≤ s.oldestIndex.toNat + 1
  · rw [if_pos (by omega), if_pos hend]
    simp
    omega
  · rw [if_neg (by omega), if_neg hend, hnext]

private theorem Holds.eraseOldest (h : Holds s samples) :
    ∃ s', s.eraseOldest = .ok s' ∧ SameSettings s s' ∧ s'.oldestTime = s.oldestTime + 1 ∧
      Holds s' (samples.filter fun sample => s.oldestTime + 1 ≤ sample.1) := by
  have hperm := oldest_perm fun sample hmem => (h.within sample hmem).1
  have hcell := h.shows.cell_head
  rw [RateStatistics.eraseOldest, hcell]
  refine ⟨_, rfl, ⟨rfl, rfl, rfl⟩, rfl, ?_⟩
  constructor
  · simpa using h.length
  · simpa using h.small
  · dsimp only
    rw [h.next_index]
    refine (h.shows.advance {}).congr fun t hle hlt => ?_
    rw [List.length_set] at hlt
    split
    · rename_i ht
      refine (bucketOf_of_forall_ne fun sample hmem => ?_).symm
      have := (h.within sample (List.mem_of_mem_filter hmem)).2
      omega
    · have hsame : ((samples.filter fun sample => s.oldestTime + 1 ≤ sample.1).filter fun sample => sample.1 = t) =
          samples.filter fun sample => sample.1 = t := by
        rw [List.filter_filter]
        refine List.filter_congr fun sample _ => ?_
        rw [← Bool.decide_and, decide_eq_decide]
        omega
      rw [bucketOf, bucketOf, hsame]
  · intro sample hmem
    have hlater : s.oldestTime + 1 ≤ sample.1 := by simpa using List.of_mem_filter hmem
    have := (h.within sample (List.mem_of_mem_filter hmem)).2
    simp only [List.length_set]
    omega
  · dsimp only
    rw [h.accumulated, ← total_perm hperm, total_append, bucketOf, UInt64.add_comm]
    exact UInt64.add_sub_cancel _ _
  · dsimp only
    rw [h.number, ← hperm.length_eq, List.length_append, UInt64.ofNat_add, bucketOf, UInt64.add_comm]
    exact UInt64.add_sub_cancel _ _

private theorem Holds.eraseBuckets (h : Holds s samples) (hfew : samples.length < 2 ^ 64) (n : ℕ) :
    ∃ s', RateStatistics.eraseBuckets n s = .ok s' ∧ SameSettings s s' ∧
      Holds { s' with oldestTime := s.oldestTime + n }
        (samples.filter fun sample => s.oldestTime + n ≤ sample.1) := by
  induction n generalizing s samples with
  | zero =>
    refine ⟨s, rfl, .refl s, ?_⟩
    have hall : (samples.filter fun sample => s.oldestTime + (0 : ℕ) ≤ sample.1) = samples := by
      rw [List.filter_eq_self]
      simpa using fun t count hmem => (h.within (t, count) hmem).1
    rw [hall]
    simpa using h
  | succ n ih =>
    rw [RateStatistics.eraseBuckets]
    by_cases hsome : 0 < s.numSamples
    · obtain ⟨mid, hmid, hsettings, htime, hholds⟩ := h.eraseOldest
      obtain ⟨s', hs', hsettings', hholds'⟩ := ih hholds ((List.length_filter_le _ _).trans_lt hfew)
      have hlater : ((samples.filter fun sample => s.oldestTime + 1 ≤ sample.1).filter
          fun sample => mid.oldestTime + n ≤ sample.1) =
          samples.filter fun sample => s.oldestTime + (n + 1 : ℕ) ≤ sample.1 := by
        rw [List.filter_filter, htime]
        refine List.filter_congr fun sample _ => ?_
        rw [← Bool.decide_and, decide_eq_decide]
        omega
      have hoffset : mid.oldestTime + n = s.oldestTime + (n + 1 : ℕ) := by omega
      rw [hlater, hoffset] at hholds'
      rw [if_pos hsome, hmid, ok_bind]
      exact ⟨s', hs', hsettings.trans hsettings', hholds'⟩
    · -- There are no samples left, in any of the buckets.
      have hnone : samples = [] := by
        rw [h.number, UInt64.lt_iff_toNat_lt, UInt64.toNat_ofNat', Nat.mod_eq_of_lt hfew] at hsome
        exact List.length_eq_zero_iff.mp (by simpa using hsome)
      subst hnone
      rw [if_neg hsome]
      exact ⟨s, rfl, .refl s, h.nil _⟩

/-- The statistics stand for a window. -/
structure Represents (s : RateStatistics F) (w : RateWindow) : Prop where
  maxSize : w.maxSize = s.maxWindowSizeMs
  size : w.size = s.currentWindowSizeMs
  sizePos : 0 < w.size
  sizeLe : w.size ≤ w.maxSize
  oldest : w.oldest = if s.isInitialized then some s.oldestTime else none
  unset : w.oldest = none → w.samples = []
  holds : Holds s w.samples

variable {w : RateWindow}

private theorem Represents.oldest_some (h : Represents s w) {oldest : ℤ} (ho : w.oldest = some oldest) :
    s.isInitialized = true ∧ s.oldestTime = oldest := by
  have := h.oldest
  rw [ho] at this
  split at this
  · rename_i hinit
    exact ⟨hinit, (Option.some.inj this).symm⟩
  · cases this

private theorem Represents.oldest_none (h : Represents s w) (ho : w.oldest = none) : s.isInitialized = false := by
  have := h.oldest
  rw [ho] at this
  split at this
  · cases this
  · rename_i hinit
    simpa using hinit

private theorem represents_ofWindow (scale : F) {maxSize : ℤ} (hpos : 0 < maxSize) (hsmall : maxSize ≤ 2 ^ 31) :
    Represents (ofWindow maxSize scale) (.empty maxSize) where
  maxSize := rfl
  size := rfl
  sizePos := hpos
  sizeLe := le_refl _
  oldest := by simp [RateWindow.empty, ofWindow, isInitialized]
  unset := fun _ => rfl
  holds := by
    have hlength : (List.replicate maxSize.toNat ({} : Bucket)).length = maxSize.toNat := List.length_replicate
    refine ⟨?_, ?_, ?_, by simp [RateWindow.empty], rfl, rfl⟩
    · simp [ofWindow, hpos.le]
    · simp only [ofWindow, hlength]
      omega
    · refine (Shows.const (fun cell hcell => List.eq_of_mem_replicate hcell) ?_ _).congr fun t _ _ =>
        (bucketOf_of_forall_ne (by simp [RateWindow.empty])).symm
      simpa [ofWindow] using hpos

private theorem Represents.reset (h : Represents s w) : Represents s.reset (.empty w.maxSize) where
  maxSize := h.maxSize
  size := h.maxSize
  sizePos := h.sizePos.trans_le h.sizeLe
  sizeLe := le_refl _
  oldest := by simp [RateWindow.empty, RateStatistics.reset, isInitialized]
  unset := fun _ => rfl
  holds := by
    refine ⟨?_, ?_, ?_, by simp [RateWindow.empty], rfl, rfl⟩
    · simpa [RateStatistics.reset] using h.holds.length
    · simpa [RateStatistics.reset] using h.holds.small
    · refine (Shows.const (fun cell hcell => ?_) ?_ _).congr fun t _ _ =>
        (bucketOf_of_forall_ne (by simp [RateWindow.empty])).symm
      · obtain ⟨bucket, -, rfl⟩ := List.mem_map.mp hcell
        rfl
      · have := h.holds.shows.headLt
        simp only [RateStatistics.reset, List.length_map]
        exact Nat.zero_lt_of_lt this

private theorem Represents.eraseOld (h : Represents s w) (hfew : w.samples.length < 2 ^ 64) {now : ℤ} (hnow : 0 ≤ now) :
    ∃ s', s.eraseOld now = .ok s' ∧ SameSettings s s' ∧ Represents s' (w.advance now) := by
  rw [RateStatistics.eraseOld, advance]
  cases ho : w.oldest with
  | none =>
    simp only [h.oldest_none ho, Bool.not_false, if_true, pure_eq_ok]
    exact ⟨s, rfl, .refl s, h⟩
  | some oldest =>
    obtain ⟨hinit, rfl⟩ := h.oldest_some ho
    simp only [hinit, Bool.not_true, Bool.false_eq_true, if_false, ← h.size]
    by_cases hkeep : now - w.size + 1 ≤ s.oldestTime
    · rw [if_pos hkeep, if_pos hkeep]
      exact ⟨s, rfl, .refl s, h⟩
    · rw [if_neg hkeep, if_neg hkeep]
      obtain ⟨s', hs', hsettings, hholds⟩ := h.holds.eraseBuckets hfew (now - w.size + 1 - s.oldestTime).toNat
      have htime : s.oldestTime + ((now - w.size + 1 - s.oldestTime).toNat : ℤ) = now - w.size + 1 := by omega
      rw [htime] at hholds
      rw [hs', ok_bind]
      have hle := h.sizeLe
      refine ⟨_, rfl, ⟨hsettings.scale, hsettings.maxWindowSizeMs, hsettings.currentWindowSizeMs⟩, ?_⟩
      constructor
      · exact h.maxSize.trans hsettings.maxWindowSizeMs.symm
      · exact h.size.trans hsettings.currentWindowSizeMs.symm
      · exact h.sizePos
      · exact h.sizeLe
      · have hnew : now - w.size + 1 ≠ -s'.maxWindowSizeMs := by
          rw [hsettings.maxWindowSizeMs, ← h.maxSize]
          omega
        simp [isInitialized, hnew]
      · intro hnone
        cases hnone
      · exact hholds

private theorem Holds.indexOf (h : Holds s samples) {now : ℤ} (hle : s.oldestTime ≤ now)
    (hlt : now < s.oldestTime + s.buckets.length) :
    (s.indexOf now).toNat = wrapped s.buckets.length (s.oldestIndex.toNat + (now - s.oldestTime).toNat) := by
  have hhead := h.shows.headLt
  have hsmall := h.small
  have hlength := h.length
  have hindex : (s.oldestIndex + UInt32.ofNat (now - s.oldestTime).toNat).toNat =
      s.oldestIndex.toNat + (now - s.oldestTime).toNat := by
    rw [UInt32.toNat_add, UInt32.toNat_ofNat', Nat.mod_eq_of_lt (a := (now - s.oldestTime).toNat) (by omega)]
    exact Nat.mod_eq_of_lt (by omega)
  rw [RateStatistics.indexOf, wrapped]
  by_cases hend : s.buckets.length ≤ s.oldestIndex.toNat + (now - s.oldestTime).toNat
  · have hsize : (UInt32.ofNat s.maxWindowSizeMs.toNat).toNat = s.buckets.length := by
      rw [UInt32.toNat_ofNat', Nat.mod_eq_of_lt (by omega)]
      omega
    rw [if_pos (by omega), if_pos hend, UInt32.toNat_sub_of_le, hindex, hsize]
    rw [UInt32.le_iff_toNat_le, hindex, hsize]
    exact hend
  · rw [if_neg (by omega), if_neg hend, hindex]

private theorem Holds.add (h : Holds s samples) {now : ℤ} (hle : s.oldestTime ≤ now)
    (hlt : now < s.oldestTime + s.buckets.length) (count : UInt64) :
    (s.indexOf now).toNat < s.buckets.length ∧
    Holds { s with
      buckets := s.buckets.modify (s.indexOf now).toNat fun bucket => ⟨bucket.sum + count, bucket.samples + 1⟩
      accumulatedCount := s.accumulatedCount + count
      numSamples := s.numSamples + 1 } (samples ++ [(now, count)]) := by
  have hhead := h.shows.headLt
  rw [h.indexOf hle hlt]
  refine ⟨wrapped_lt (by omega), ?_⟩
  constructor
  · simpa using h.length
  · simpa using h.small
  · refine (h.shows.modify (k := (now - s.oldestTime).toNat) (by omega) _).congr fun t _ _ => ?_
    have htime : s.oldestTime + ((now - s.oldestTime).toNat : ℤ) = now := by omega
    rw [bucketOf_snoc, htime]
  · intro sample hmem
    rw [List.length_modify]
    rcases List.mem_append.mp hmem with hold | hnew
    · exact h.within sample hold
    · obtain rfl := List.mem_singleton.mp hnew
      exact ⟨hle, hlt⟩
  · rw [total_append, total_singleton, ← h.accumulated]
  · rw [List.length_append, UInt64.ofNat_add, ← h.number]
    rfl

private theorem Represents.update (h : Represents s w) (hfew : w.samples.length < 2 ^ 64) (count : UInt64) {now : ℤ}
    (hnow : 0 ≤ now) :
    ∃ s', s.update count now = .ok s' ∧ s'.scale = s.scale ∧ Represents s' (w.add count now) := by
  have hmax : -s.maxWindowSizeMs < 0 := by
    have := h.maxSize
    have := h.sizePos
    have := h.sizeLe
    omega
  have hearly : now < s.oldestTime ↔ w.oldest.any (now < ·) = true := by
    rw [h.oldest]
    cases hinit : s.isInitialized with
    | true => simp
    | false =>
      have hstart : s.oldestTime = -s.maxWindowSizeMs := by simpa [isInitialized] using hinit
      simp only [Bool.false_eq_true, if_false, Option.any_none, iff_false]
      omega
  rw [RateStatistics.update, add]
  by_cases hskip : now < s.oldestTime
  · rw [if_pos hskip, if_pos (hearly.mp hskip)]
    exact ⟨s, rfl, rfl, h⟩
  · rw [if_neg hskip, if_neg fun hany => hskip (hearly.mpr hany)]
    obtain ⟨s1, hs1, hsettings, h1⟩ := h.eraseOld hfew hnow
    rw [hs1, ok_bind]
    dsimp only
    cases ho : (w.advance now).oldest with
    | none =>
      -- The window begins with this sample.
      have hempty := h1.unset ho
      have hinit := h1.oldest_none ho
      have hstart := h1.holds
      rw [hempty] at hstart
      have hstart := hstart.nil now
      have hhead := hstart.shows.headLt
      obtain ⟨hindex, hadd⟩ := hstart.add (le_refl now) (by dsimp only at hhead ⊢; omega) count
      simp only [hinit, Bool.false_eq_true, if_false, hempty, List.nil_append, Option.getD_none]
      rw [if_neg (Nat.not_le.mpr hindex)]
      refine ⟨_, rfl, hsettings.scale, h1.maxSize, h1.size, h1.sizePos, h1.sizeLe, ?_, by simp, hadd⟩
      have hne : now ≠ -s1.maxWindowSizeMs := by
        rw [hsettings.maxWindowSizeMs]
        omega
      simp [isInitialized, hne]
    | some oldest =>
      obtain ⟨hinit, rfl⟩ := h1.oldest_some ho
      have hafter := w.advance_oldest ho
      have hbefore : s1.oldestTime ≤ now := by
        cases hold : w.oldest with
        | none => simp [advance, hold] at ho
        | some before =>
          have hpos := h.sizePos
          obtain ⟨-, rfl⟩ := h.oldest_some hold
          simp only [advance, hold] at ho
          split at ho
          · rw [hold] at ho
            have := Option.some.inj ho
            omega
          · have := Option.some.inj ho
            omega
      have hlt : now < s1.oldestTime + s1.buckets.length := by
        rw [h1.holds.length, ← h1.maxSize, w.advance_maxSize]
        have := h.sizeLe
        omega
      obtain ⟨hindex, hadd⟩ := h1.holds.add hbefore hlt count
      simp only [hinit, if_true, Option.getD_some]
      rw [if_neg (Nat.not_le.mpr hindex)]
      refine ⟨_, rfl, hsettings.scale, h1.maxSize, h1.size, h1.sizePos, h1.sizeLe, ?_, by simp, hadd⟩
      have hne : s1.oldestTime ≠ -s1.maxWindowSizeMs := by simpa [isInitialized] using hinit
      simp [isInitialized, hne]

private theorem Represents.setWindowSize (h : Represents s w) (hfew : w.samples.length < 2 ^ 64) {size now : ℤ}
    (hnow : 0 ≤ now) (hsize : 0 < size ∧ size ≤ w.maxSize) :
    ∃ s', s.setWindowSize size now = .ok (true, s') ∧ s'.scale = s.scale ∧
      Represents s' ({ w with size }.advance now) := by
  have hvalid : ¬ (size ≤ 0 ∨ s.maxWindowSizeMs < size) := by
    rw [← h.maxSize]
    omega
  have hresized : Represents { s with currentWindowSizeMs := size } { w with size } :=
    ⟨h.maxSize, rfl, hsize.1, hsize.2, h.oldest, h.unset, ⟨h.holds.length, h.holds.small, h.holds.shows,
      h.holds.within, h.holds.accumulated, h.holds.number⟩⟩
  obtain ⟨s', hs', hsettings, h'⟩ := hresized.eraseOld hfew hnow
  rw [RateStatistics.setWindowSize, if_neg hvalid, hs', ok_bind]
  exact ⟨s', rfl, hsettings.scale, h'⟩

section Calls
variable [FloatArith F]

private theorem Represents.rate (h : Represents s w) (hfew : w.samples.length < 2 ^ 64) {now : ℤ} (hnow : 0 ≤ now) :
    ∃ s', s.rate now = .ok (rateOver s.scale w.size ((w.advance now).oldest.getD now) now (w.advance now).samples, s') ∧
      s'.scale = s.scale ∧ Represents s' (w.advance now) := by
  obtain ⟨s', hs', hsettings, h'⟩ := h.eraseOld hfew hnow
  have hfew' := (w.advance_length now).trans_lt hfew
  have hzero : s'.numSamples = 0 ↔ (w.advance now).samples = [] := by
    rw [h'.holds.number, ← UInt64.toNat_inj, UInt64.toNat_ofNat', Nat.mod_eq_of_lt hfew']
    simp
  have hone : s'.numSamples ≤ 1 ↔ (w.advance now).samples.length ≤ 1 := by
    rw [h'.holds.number, UInt64.le_iff_toNat_le, UInt64.toNat_ofNat', Nat.mod_eq_of_lt hfew']
    rfl
  have hsize : s'.currentWindowSizeMs = w.size := by rw [← h'.size, w.advance_size]
  refine ⟨s', ?_, hsettings.scale, h'⟩
  rw [RateStatistics.rate, hs', ok_bind, rateOver]
  simp only [hzero, hone, hsize, h'.holds.accumulated, hsettings.scale]
  cases ho : (w.advance now).oldest with
  | none => simp [h'.unset ho]
  | some oldest =>
    obtain ⟨-, rfl⟩ := h'.oldest_some ho
    rw [Option.getD_some]
    split <;> rfl

private theorem Represents.call (h : Represents s w) (hfew : w.samples.length < 2 ^ 64) (c : RateCall)
    (hnow : ∀ now ∈ c.nowMs, 0 ≤ now) :
    ∃ s', s.call c = .ok ((w.call s.scale c).1, s') ∧ s'.scale = s.scale ∧ Represents s' (w.call s.scale c).2 := by
  cases c with
  | reset => exact ⟨s.reset, rfl, rfl, h.reset⟩
  | update count now =>
    obtain ⟨s', hs', hscale, h'⟩ := h.update hfew count (hnow now rfl)
    exact ⟨s', by rw [RateStatistics.call, hs']; rfl, hscale, h'⟩
  | rate now =>
    obtain ⟨s', hs', hscale, h'⟩ := h.rate hfew (hnow now rfl)
    refine ⟨s', ?_, hscale, h'⟩
    rw [RateStatistics.call, hs']
    simp [RateWindow.call]
  | setWindowSize size now =>
    rw [RateWindow.call]
    by_cases hvalid : size ≤ 0 ∨ w.maxSize < size
    · rw [if_pos hvalid]
      refine ⟨s, ?_, rfl, h⟩
      rw [RateStatistics.call, RateStatistics.setWindowSize, ← h.maxSize, if_pos hvalid]
      rfl
    · have hsize : 0 < size ∧ size ≤ w.maxSize := by omega
      rw [if_neg hvalid]
      obtain ⟨s', hs', hscale, h'⟩ := h.setWindowSize hfew (hnow now rfl) hsize
      exact ⟨s', by rw [RateStatistics.call, hs']; rfl, hscale, h'⟩

end Calls

end RateStatistics

namespace RateWindow
variable {F : Type} [FloatArith F]

private theorem call_length (scale : F) (w : RateWindow) (c : RateCall) :
    (w.call scale c).2.samples.length ≤ w.samples.length + 1 := by
  cases c with
  | reset => simp [call, empty]
  | update count now =>
    rw [call, add]
    split
    · simp
    · simpa using advance_length w now
  | rate now => exact (advance_length w now).trans (Nat.le_succ _)
  | setWindowSize size now =>
    rw [call]
    split
    · simp
    · exact (advance_length _ now).trans (Nat.le_succ _)

theorem runCalls_snoc (scale : F) (a : RateAnswering RateWindow) (calls : List RateCall) (c : RateCall) :
    runCalls scale a (calls ++ [c]) =
      ⟨((runCalls scale a calls).stats.call scale c).2,
        (runCalls scale a calls).answers ++ [((runCalls scale a calls).stats.call scale c).1]⟩ := by
  simp [runCalls]

end RateWindow

namespace RateStatistics
variable {F : Type} [FloatArith F]

/-- The statistics stand for the window after any calls. -/
theorem run_represents (scale : F) {maxSize : ℤ} (hpos : 0 < maxSize) (hsmall : maxSize ≤ 2 ^ 31)
    {calls : List RateCall} (htimes : ∀ c ∈ calls, ∀ now ∈ c.nowMs, 0 ≤ now) (hfew : calls.length < 2 ^ 64) :
    ∃ a, run step ⟨ofWindow maxSize scale, []⟩ calls = .ok a ∧ a.stats.scale = scale ∧
      a.answers = (runCalls scale ⟨.empty maxSize, []⟩ calls).answers ∧
      Represents a.stats (runCalls scale ⟨.empty maxSize, []⟩ calls).stats ∧
      (runCalls scale ⟨.empty maxSize, []⟩ calls).stats.samples.length ≤ calls.length := by
  induction calls using List.reverseRecOn with
  | nil => exact ⟨_, rfl, rfl, rfl, represents_ofWindow scale hpos hsmall, Nat.zero_le _⟩
  | append_singleton calls c ih =>
    rw [List.length_append, List.length_singleton] at hfew
    obtain ⟨a, hrun, hscale, hanswers, hrep, hlength⟩ :=
      ih (fun d hd => htimes d (List.mem_append_left _ hd)) (by omega)
    obtain ⟨s', hs', hscale', hrep'⟩ := hrep.call (by omega) c (htimes c (by simp))
    rw [hscale] at hs' hrep'
    have hnext : step a c =
        .ok ⟨s', a.answers ++ [((runCalls scale ⟨.empty maxSize, []⟩ calls).stats.call scale c).1]⟩ := by
      rw [step, hs']
      rfl
    refine ⟨_, (run_snoc step).mpr ⟨a, hrun, hnext⟩, hscale'.trans hscale, ?_, ?_, ?_⟩
    · rw [runCalls_snoc, hanswers]
    · rw [runCalls_snoc]
      exact hrep'
    · rw [runCalls_snoc, List.length_append, List.length_singleton]
      exact (call_length scale _ c).trans (Nat.succ_le_succ hlength)

/-- In every run, at any times that are not negative, in any order, no call looks outside the
buffer, and all calls answer as the window of the samples does. -/
theorem run_answers (scale : F) {maxSize : ℤ} (hpos : 0 < maxSize) (hsmall : maxSize ≤ 2 ^ 31)
    {calls : List RateCall} (htimes : ∀ c ∈ calls, ∀ now ∈ c.nowMs, 0 ≤ now) (hfew : calls.length < 2 ^ 64) :
    ∃ a, run step ⟨ofWindow maxSize scale, []⟩ calls = .ok a ∧
      a.answers = (runCalls scale ⟨.empty maxSize, []⟩ calls).answers := by
  obtain ⟨a, hrun, -, hanswers, -⟩ := run_represents scale hpos hsmall htimes hfew
  exact ⟨a, hrun, hanswers⟩

/-- Samples that wrap around the end of three buckets, one of them too late, and a smaller window. -/
def wrappingCalls : List RateCall :=
  [.update 10 0, .update 20 2, .rate 2, .update 30 4, .rate 4, .update 40 1, .setWindowSize 2 5, .rate 5,
    .update 5 6, .rate 6]

theorem run_answers_wrapping :
    ∃ a : RateAnswering (RateStatistics Float32), run step ⟨ofWindow 3 8000, []⟩ wrappingCalls = .ok a ∧
      a.answers = (runCalls (8000 : Float32) ⟨.empty 3, []⟩ wrappingCalls).answers :=
  run_answers 8000 (by decide) (by decide) (by decide) (by decide)

example : (runCalls (8000 : Float32) ⟨.empty 3, []⟩ wrappingCalls).answers =
    [.nothing, .nothing, .rate 80000, .nothing, .rate 133333, .nothing, .accepted true, .rate 120000, .nothing,
      .rate 20000] := by decide +kernel

/-- The rate is one that a float can be: it would be 2285698286 if nothing was rounded. -/
example : (runCalls (8000 : Float32) ⟨.empty 7, []⟩ [.update 1999985 0, .update 1 6, .rate 6]).answers =
    [.nothing, .nothing, .rate 2285698304] := by decide +kernel

end RateStatistics

end Ns3Rmcat.Controller
