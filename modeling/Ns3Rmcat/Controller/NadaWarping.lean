import Ns3Rmcat.Controller.NadaNumeric

/-! The warping of the queuing delay in the NADA controller, against the equation of the draft. The
test of the threshold rounds the delay down to a millisecond, and the equation does not. -/
namespace Ns3Rmcat.Controller

namespace NadaController
variable {K : Type} [Field K] [LinearOrder K] (exp : K → K)

/-- Eq. (1) of the draft. -/
def warpedMs (delay : K) : K :=
  if delay < nadaParamQth then delay
  else nadaParamQth * exp (-(nadaParamLambda * (delay - nadaParamQth) / nadaParamQth))

def delayPart (s : NadaController K) : K :=
  if s.LossRecent then s.calcDtilde exp
  else if s.InTransition then s.alpha * s.delayMs + (1 - s.alpha) * s.calcDtilde exp
  else s.delayMs

def lossPart (s : NadaController K) : K := nadaParamDloss * (s.plr / nadaParamPlrref) * (s.plr / nadaParamPlrref)

/-- The delay signal is that of the draft: the warped delay has its equation, is not above the
threshold, and not above that of a smaller delay from the threshold on; the signal begins with it
while a loss is recent, with the delay itself long after, and in between with a value between. -/
structure FollowsDraft (s : NadaController K) : Prop where
  equation : s.calcDtilde exp = warpedMs exp s.delayMs
  threshold : s.calcDtilde exp ≤ nadaParamQth
  decreasing : ∀ qdelayUs : UInt64, qdelayUs ≤ s.qdelayUs →
    nadaParamQth ≤ ({ s with qdelayUs } : NadaController K).delayMs →
      s.calcDtilde exp ≤ ({ s with qdelayUs } : NadaController K).calcDtilde exp
  signal : (s.updateXcurr exp).xcurr = min nadaParamXmax (s.delayPart exp + s.lossPart)
  recent : s.LossRecent → s.delayPart exp ≤ nadaParamQth
  transition : s.InTransition → s.calcDtilde exp ≤ s.delayPart exp ∧ s.delayPart exp ≤ s.delayMs
  otherwise : ¬ s.LossRecent → ¬ s.InTransition → s.delayPart exp = s.delayMs

/-- A delay that is above the threshold by less than the millisecond to which the test rounds it. -/
def JustAbove (s : NadaController K) : Prop := 50000 < s.qdelayUs.toNat ∧ s.qdelayUs.toNat < 51000

section Warping
variable [IsStrictOrderedRing K] {exp} {s : NadaController K}

private theorem lt_delayMs_iff : nadaParamQth < s.delayMs ↔ 50000 < s.qdelayUs.toNat := by
  rw [delayMs, nadaParamQth, lt_div_iff₀ (by norm_num), show (50 * 1000 : K) = (50000 : ℕ) by norm_num, Nat.cast_lt]

private theorem calcDtilde_eq : s.calcDtilde exp = if 51000 ≤ s.qdelayUs.toNat then
      nadaParamQth * exp (-(nadaParamLambda * (s.delayMs - nadaParamQth) / nadaParamQth))
    else s.delayMs := by
  have htest : (nadaParamQth : K) < (((s.qdelayUs / 1000).toNat : ℕ) : K) ↔ 51000 ≤ s.qdelayUs.toNat := by
    rw [nadaParamQth, show (50 : K) = (50 : ℕ) by norm_num, Nat.cast_lt, UInt64.toNat_div,
      show UInt64.toNat 1000 = 1000 from rfl]
    omega
  rw [calcDtilde]
  simp only [htest, mul_div_assoc]
  rfl

omit [IsStrictOrderedRing K] in
private theorem updateXcurr_xcurr : (s.updateXcurr exp).xcurr = min nadaParamXmax (s.delayPart exp + s.lossPart) := by
  have hclip (x : K) : (if nadaParamXmax < x then nadaParamXmax else x) = min nadaParamXmax x := by
    split
    · rename_i habove
      exact (min_eq_left habove.le).symm
    · rename_i hbelow
      exact (min_eq_right (not_lt.mp hbelow)).symm
  rw [updateXcurr, delayPart, lossPart]
  dsimp only
  rw [hclip]
  by_cases hrecent : s.LossRecent
  · rw [if_pos hrecent, if_pos hrecent]
  · rw [if_neg hrecent, if_neg hrecent]
    by_cases hafter : s.InTransition
    · rw [if_pos hafter, if_pos hafter]
    · rw [if_neg hafter, if_neg hafter]

variable (hmono : Monotone exp)
include hmono

private theorem warped_anti {delay longer : K} (h : delay ≤ longer) :
    nadaParamQth * exp (-(nadaParamLambda * (longer - nadaParamQth) / nadaParamQth)) ≤
      nadaParamQth * exp (-(nadaParamLambda * (delay - nadaParamQth) / nadaParamQth)) := by
  refine mul_le_mul_of_nonneg_left (hmono ?_) (by norm_num [nadaParamQth])
  have hlambda : (0 : K) ≤ nadaParamLambda := by norm_num [nadaParamLambda]
  have hqth : (0 : K) < nadaParamQth := by norm_num [nadaParamQth]
  gcongr

variable (hzero : exp 0 = 1)
include hzero

private theorem warped_le {delay : K} (h : nadaParamQth ≤ delay) :
    nadaParamQth * exp (-(nadaParamLambda * (delay - nadaParamQth) / nadaParamQth)) ≤ nadaParamQth := by
  refine (warped_anti hmono h).trans ?_
  rw [sub_self, mul_zero, zero_div, neg_zero, hzero, mul_one]

private theorem calcDtilde_le_delayMs : s.calcDtilde exp ≤ s.delayMs := by
  rw [calcDtilde_eq]
  split
  · rename_i hwarped
    have habove : nadaParamQth ≤ s.delayMs := (lt_delayMs_iff.mpr (by omega)).le
    exact (warped_le hmono hzero habove).trans habove
  · exact le_rfl

private theorem delayPart_between (h : s.InTransition) :
    s.calcDtilde exp ≤ s.delayPart exp ∧ s.delayPart exp ≤ s.delayMs := by
  obtain ⟨-, halpha, hbelow⟩ := h.alpha_mem
  have hpast : ¬ s.LossRecent := fun hrecent => h.2.1 hrecent.2
  have hle : s.calcDtilde exp ≤ s.delayMs := calcDtilde_le_delayMs hmono hzero
  rw [delayPart, if_neg hpast, if_pos h]
  constructor
  · nlinarith
  · nlinarith

private theorem calcDtilde_le (hnot : ¬ s.JustAbove) : s.calcDtilde exp ≤ nadaParamQth := by
  rw [calcDtilde_eq]
  split
  · rename_i hwarped
    exact warped_le hmono hzero (lt_delayMs_iff.mpr (by omega)).le
  · rename_i hkept
    exact not_lt.mp fun habove => hnot ⟨lt_delayMs_iff.mp habove, by omega⟩

omit hmono in
private theorem calcDtilde_warped (hnot : ¬ s.JustAbove) : s.calcDtilde exp = warpedMs exp s.delayMs := by
  rw [calcDtilde_eq, warpedMs]
  split
  · rename_i hwarped
    have habove : nadaParamQth < s.delayMs := lt_delayMs_iff.mpr (by omega)
    rw [if_neg habove.le.not_gt]
  · rename_i hkept
    have hle : s.delayMs ≤ nadaParamQth := not_lt.mp fun habove => hnot ⟨lt_delayMs_iff.mp habove, by omega⟩
    split
    · rfl
    · rename_i hge
      -- At the threshold itself both sides of the equation agree.
      have hsame : s.delayMs = nadaParamQth := le_antisymm hle (not_lt.mp hge)
      rw [hsame, sub_self, mul_zero, zero_div, neg_zero, hzero, mul_one]

private theorem followsDraft_iff_of_monotone : s.FollowsDraft exp ↔ ¬ s.JustAbove := by
  constructor
  · rintro hdraft ⟨habove, hbelow⟩
    have hkept := hdraft.threshold
    rw [calcDtilde_eq, if_neg (by omega)] at hkept
    exact hkept.not_gt (lt_delayMs_iff.mpr habove)
  · intro hnot
    have hthreshold := calcDtilde_le hmono hzero hnot
    refine ⟨calcDtilde_warped hzero hnot, hthreshold, ?_, updateXcurr_xcurr, ?_, delayPart_between hmono hzero, ?_⟩
    · intro qdelayUs hle hqth
      rw [UInt64.le_iff_toNat_le] at hle
      by_cases hwarped : 51000 ≤ qdelayUs.toNat
      · have hdelay : ({ s with qdelayUs } : NadaController K).delayMs ≤ s.delayMs := by
          rw [delayMs, delayMs]
          gcongr
        rw [calcDtilde_eq, calcDtilde_eq, if_pos hwarped, if_pos (hwarped.trans hle)]
        exact warped_anti hmono hdelay
      · have hother : ({ s with qdelayUs } : NadaController K).calcDtilde exp =
            ({ s with qdelayUs } : NadaController K).delayMs := by
          rw [calcDtilde_eq, if_neg hwarped]
        rw [hother]
        exact hthreshold.trans hqth
    · intro hrecent
      rw [delayPart, if_pos hrecent]
      exact hthreshold
    · intro hpast hafter
      rw [delayPart, if_neg hpast, if_neg hafter]

end Warping

/-- With the exponential function of the real numbers, for every delay and every state of the losses:
the delay signal is that of the draft unless the delay is between 50 and 51 milliseconds. -/
theorem followsDraft_iff (s : NadaController ℝ) : s.FollowsDraft Real.exp ↔ ¬ s.JustAbove :=
  followsDraft_iff_of_monotone Real.exp_monotone Real.exp_zero

/-- A delay of 50.5 milliseconds right after a loss is not warped at all. -/
theorem just_above_not_warped :
    let s : NadaController ℝ := { (fresh : NadaController ℝ) with qdelayUs := 50500, lossesSeen := true, avgInt := 100 }
    s.LossRecent ∧ s.calcDtilde Real.exp = 50.5 ∧ nadaParamQth < s.delayPart Real.exp ∧
      (s.updateXcurr Real.exp).xcurr = 50.5 ∧ ¬ s.FollowsDraft Real.exp := by
  intro s
  have hdelay : (s.qdelayUs.toNat : ℝ) / 1000 = 50.5 := by
    rw [show s.qdelayUs.toNat = 50500 from rfl]
    norm_num
  have hrecent : s.LossRecent := by
    refine ⟨rfl, ?_⟩
    rw [show s.currInt.toNat = 0 from rfl, show s.avgInt = 100 from rfl, nadaParamMultiloss]
    norm_num
  have hwarped : s.calcDtilde Real.exp = 50.5 := by
    rw [calcDtilde_eq, if_neg (by rw [show s.qdelayUs.toNat = 50500 from rfl]; decide)]
    exact hdelay
  have hpart : s.delayPart Real.exp = 50.5 := by rw [delayPart, if_pos hrecent, hwarped]
  refine ⟨hrecent, hwarped, ?_, ?_, fun hdraft => ?_⟩
  · rw [hpart, nadaParamQth]
    norm_num
  · rw [updateXcurr_xcurr, hpart, lossPart, show s.plr = 0 from rfl, nadaParamXmax]
    norm_num
  · have hkept := hdraft.threshold
    rw [hwarped, nadaParamQth] at hkept
    norm_num at hkept

end NadaController

end Ns3Rmcat.Controller
