import Ns3Rmcat.Controller.CcfsControl

/-! The detector of an increasing queuing delay when the delay stays the same. Its reference
comes closer to the delay with each call, and reaches it only from above. -/
namespace Ns3Rmcat.Controller
open Lib

namespace CcfsController

/-- The detector after some calls with one delay, each with the end of its period. -/
def detectorAfter (s : CcfsController) (minQDelay : Int) (ends : Nat → UInt64) : Nat → CcfsController
  | 0 => s
  | k + 1 => ((s.detectorAfter minQDelay ends k).getIncreasingQTime minQDelay (ends k)).2

/-- What the k-th of these calls returns. -/
def steadyMs (s : CcfsController) (minQDelay : Int) (ends : Nat → UInt64) (k : Nat) : UInt64 :=
  ((s.detectorAfter minQDelay ends k).getIncreasingQTime minQDelay (ends k)).1

/-- Periods that end one after the other. -/
def Grows (ends : Nat → UInt64) : Prop := ∀ i j, i ≤ j → ends i ≤ ends j

/-- From some call on the delay no longer counts as increasing, wherever the periods end. -/
def StopsIncreasing (s : CcfsController) (minQDelay : Int) : Prop :=
  ∃ bound, ∀ ends, Grows ends → ∀ k, bound ≤ k → s.steadyMs minQDelay ends k = 0

/-- When the increase began: with the first call that is counted, unless that was before all calls. -/
def increaseStart (s : CcfsController) (ends : Nat → UInt64) : UInt64 :=
  if s.incrCount ≤ 0 then ends (-s.incrCount).toNat else s.incrStartTime

section Detector
variable {s : CcfsController} {minQDelay : Int}

private theorem getIncreasingQTime_above (hlt : s.incrLastMinQDelay < minQDelay) (periodEndMs : UInt64) :
    let start := if s.incrCount + 1 = 1 then periodEndMs else s.incrStartTime
    s.getIncreasingQTime minQDelay periodEndMs =
      (if 3 ≤ s.incrCount + 1 ∧ kCcfsQIncrDetectorMinDurationMs ≤ periodEndMs - start then periodEndMs - start else 0,
        { s with incrCount := s.incrCount + 1, incrStartTime := start,
                 incrLastMinQDelay := (s.incrLastMinQDelay * 85 + minQDelay * 15).tdiv 100 }) := by
  rw [getIncreasingQTime, if_pos hlt]
  dsimp only
  generalize (if s.incrCount + 1 = 1 then periodEndMs else s.incrStartTime) = start
  split <;> rfl

private theorem reference_gap {last : Int} (hlast : 0 ≤ last) (hlt : last < minQDelay) :
    minQDelay - (last * 85 + minQDelay * 15).tdiv 100 = (85 * (minQDelay - last) + 99) / 100 := by
  rw [Int.tdiv_eq_ediv_of_nonneg (by omega)]
  omega

private theorem detectorAfter_below (hlast : 0 ≤ s.incrLastMinQDelay) (hlt : s.incrLastMinQDelay < minQDelay)
    (ends : Nat → UInt64) (k : Nat) :
    (s.detectorAfter minQDelay ends k).incrCount = s.incrCount + k ∧
      0 ≤ (s.detectorAfter minQDelay ends k).incrLastMinQDelay ∧
      (s.detectorAfter minQDelay ends k).incrLastMinQDelay < minQDelay ∧
      (s.detectorAfter minQDelay ends k).incrStartTime =
        if s.incrCount + k ≤ 0 then s.incrStartTime else s.increaseStart ends := by
  induction k with
  | zero =>
    refine ⟨(add_zero _).symm, hlast, hlt, ?_⟩
    rw [detectorAfter, increaseStart]
    split
    · rfl
    · rw [if_neg (by omega)]
  | succ k ih =>
    obtain ⟨hcount, hnonneg, hbelow, hstart⟩ := ih
    have hgap := reference_gap hnonneg hbelow
    rw [detectorAfter, getIncreasingQTime_above hbelow]
    generalize s.detectorAfter minQDelay ends k = mid at hcount hnonneg hbelow hstart hgap ⊢
    have hstart' : (if mid.incrCount + 1 = 1 then ends k else mid.incrStartTime) =
        if s.incrCount + (k + 1 : Nat) ≤ 0 then s.incrStartTime else s.increaseStart ends := by
      rw [hstart, hcount]
      rcases lt_trichotomy (s.incrCount + k) 0 with hneg | hzero | hpos
      · rw [if_neg (by omega), if_pos (by omega), if_pos (by omega)]
      · have hk : (-s.incrCount).toNat = k := by omega
        rw [if_pos (by omega), if_neg (by omega), increaseStart, if_pos (by omega), hk]
      · rw [if_neg (by omega), if_neg (by omega), if_neg (by omega)]
    have hnext : 0 ≤ (mid.incrLastMinQDelay * 85 + minQDelay * 15).tdiv 100 ∧
        (mid.incrLastMinQDelay * 85 + minQDelay * 15).tdiv 100 < minQDelay := by omega
    refine ⟨?_, hnext.1, hnext.2, hstart'⟩
    dsimp only
    omega

/-- The third call that is counted, and each one after it, returns how long ago the increase
began, once that is the 500 milliseconds of the detector. -/
private theorem steadyMs_below (hlast : 0 ≤ s.incrLastMinQDelay) (hlt : s.incrLastMinQDelay < minQDelay)
    {ends : Nat → UInt64} {k : Nat} (hcount : 2 ≤ s.incrCount + k)
    (hlong : kCcfsQIncrDetectorMinDurationMs ≤ ends k - s.increaseStart ends) :
    s.steadyMs minQDelay ends k = ends k - s.increaseStart ends := by
  obtain ⟨hcounted, -, hbelow, hstart⟩ := detectorAfter_below hlast hlt ends k
  rw [if_neg (by omega)] at hstart
  have hnotFirst : ¬ s.incrCount + (k : Int) + 1 = 1 := by omega
  rw [steadyMs, getIncreasingQTime_above hbelow, hcounted, hstart]
  dsimp only
  rw [if_neg hnotFirst, if_pos ⟨by omega, hlong⟩]

private theorem detectorAfter_reached (hle : minQDelay ≤ s.incrLastMinQDelay) (ends : Nat → UInt64) (k : Nat) :
    minQDelay ≤ (s.detectorAfter minQDelay ends k).incrLastMinQDelay := by
  induction k with
  | zero => exact hle
  | succ k ih =>
    rw [detectorAfter, getIncreasingQTime, if_neg (not_lt.mpr ih)]

/-- Periods with which the detector never comes to rest: 500 milliseconds after the increase
began they stand still. -/
private theorem not_stopsIncreasing_below (hlast : 0 ≤ s.incrLastMinQDelay) (hlt : s.incrLastMinQDelay < minQDelay) :
    ¬ s.StopsIncreasing minQDelay := by
  rintro ⟨bound, hbound⟩
  by_cases hcount : s.incrCount ≤ 0
  · have hstart : s.increaseStart (fun k => if k ≤ (-s.incrCount).toNat then 0 else 500) = 0 := by
      rw [increaseStart, if_pos hcount, if_pos le_rfl]
    have hgrows : Grows fun k => if k ≤ (-s.incrCount).toNat then 0 else 500 := by
      intro i j hij
      dsimp only
      split
      · exact UInt64.zero_le
      · rw [if_neg (by omega)]
        exact UInt64.le_refl _
    have hzero := hbound _ hgrows (bound + (-s.incrCount).toNat + 2) (by omega)
    rw [steadyMs_below hlast hlt (by omega), hstart, if_neg (by omega)] at hzero
    · exact absurd hzero (by decide)
    · rw [hstart, if_neg (by omega)]
      decide
  · have hstart : s.increaseStart (fun _ => s.incrStartTime + 500) = s.incrStartTime := by
      rw [increaseStart, if_neg hcount]
    have hlength : s.incrStartTime + 500 - s.incrStartTime = 500 := by
      rw [UInt64.add_comm, UInt64.add_sub_cancel]
    have hzero := hbound _ (fun _ _ _ => UInt64.le_refl (s.incrStartTime + 500)) (bound + 2) (by omega)
    rw [steadyMs_below hlast hlt (by omega), hstart, hlength] at hzero
    · exact absurd hzero (by decide)
    · rw [hstart, hlength]
      decide

/-- A steady delay stops counting as increasing exactly when the reference is not below it at
first. When it is, the duration that is returned grows with the periods for ever. -/
theorem stopsIncreasing_iff (hlast : 0 ≤ s.incrLastMinQDelay) :
    (s.StopsIncreasing minQDelay ↔ minQDelay ≤ s.incrLastMinQDelay) ∧
      (s.incrLastMinQDelay < minQDelay → ∀ ends k, 2 ≤ s.incrCount + (k : Nat) →
        kCcfsQIncrDetectorMinDurationMs ≤ ends k - s.increaseStart ends →
        s.steadyMs minQDelay ends k = ends k - s.increaseStart ends) := by
  refine ⟨⟨?_, ?_⟩, fun hlt ends k hcount hlong => steadyMs_below hlast hlt hcount hlong⟩
  · intro hstops
    by_contra hlt
    exact not_stopsIncreasing_below hlast (not_le.mp hlt) hstops
  · intro hle
    refine ⟨0, fun ends hgrows k hk => ?_⟩
    rw [steadyMs, getIncreasingQTime, if_neg (not_lt.mpr (detectorAfter_reached hle ends k))]

theorem stopsIncreasing_iff_reached : ({ constructed.reset with incrLastMinQDelay := 20 } : CcfsController).StopsIncreasing 20 :=
  (stopsIncreasing_iff (by decide)).1.mpr (by decide)

/-- After a reset a delay of 5 milliseconds counts as increasing for ever: with a period each 100
milliseconds, the seventh call and all after it return more than half a second. -/
theorem five_never_stops :
    (∀ k, 6 ≤ k → k < 2 ^ 50 → constructed.reset.steadyMs 5 (fun k => UInt64.ofNat (100 * k)) k =
      UInt64.ofNat (100 * k)) ∧ ¬ constructed.reset.StopsIncreasing 5 := by
  refine ⟨fun k hk hlt => ?_, not_stopsIncreasing_below (by decide) (by decide)⟩
  have hstart : constructed.reset.increaseStart (fun k => UInt64.ofNat (100 * k)) = 0 := rfl
  have hcount : constructed.reset.incrCount = 0 := rfl
  rw [steadyMs_below (by decide) (by decide) (by omega), hstart, UInt64.sub_zero]
  rw [hstart, UInt64.sub_zero, UInt64.le_iff_toNat_le, UInt64.toNat_ofNat_of_lt' (by rw [UInt64.size]; omega)]
  change 500 ≤ 100 * k
  omega

end Detector

end CcfsController

end Ns3Rmcat.Controller
