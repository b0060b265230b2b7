import Ns3Rmcat.Controller.NadaApi
import Ns3Rmcat.Controller.SenderBasedMetrics

/-! The numbers of the NADA controller: in every calculation of the rate that a run makes, no
divisor is zero, and the rate, the filtered loss ratio, the congestion signal and the blending
factor are within their ranges. -/
namespace Ns3Rmcat.Controller
open Lib

namespace NadaController
variable {K : Type} [Field K] [LinearOrder K] (exp : K → K)

/-- The states in which a feedback makes a calculation of the rate, one at most. -/
def feedbackUpdates (s : NadaController K) (nowUs : UInt64) (item : FeedbackItem) : List (NadaController K) :=
  match s.base.processFeedback nowUs item.sequence item.rxTimestampUs item.ecn with
  | .ok (true, base) =>
    if s.lastTimeCalcValid = true ∧ nadaParamDeltaUs ≤ nowUs - s.lastTimeCalcUs then [{ s with base }] else []
  | _ => []

/-- The states in which the items of a batch do. -/
def itemsUpdates (nowUs : UInt64) : NadaController K → List FeedbackItem → List (NadaController K)
  | _, [] => []
  | s, item :: feedbackBatch => s.feedbackUpdates nowUs item ++
    match s.processFeedback exp nowUs item.sequence item.rxTimestampUs item.ecn with
    | .ok (true, next) => itemsUpdates nowUs next feedbackBatch
    | _ => []

/-- A batch makes a further calculation after its items. -/
def batchUpdates (s : NadaController K) (nowUs : UInt64) (feedbackBatch : List FeedbackItem) :
    List (NadaController K) :=
  itemsUpdates exp nowUs s feedbackBatch ++
    match Controller.processFeedbackBatch (processFeedback exp) nowUs s feedbackBatch with
    | .ok (true, mid) =>
      if mid.lastTimeCalcValid = true ∧ nadaParamDeltaUs / 2 ≤ nowUs - mid.lastTimeCalcUs then [mid] else []
    | _ => []

/-- The states in which a call makes a calculation of the rate, each with its time. -/
def rateUpdates (s : NadaController K) : NadaApiCall K → List (NadaController K × UInt64)
  | .call (.processFeedback nowUs sequence rxTimestampUs ecn) =>
    (s.feedbackUpdates nowUs ⟨sequence, rxTimestampUs, ecn⟩).map fun u => (u, nowUs)
  | .call (.processFeedbackBatch nowUs feedbackBatch) =>
    (s.batchUpdates exp nowUs feedbackBatch).map fun u => (u, nowUs)
  | _ => []

/-- One calculation of the rate is sound, from the state that it is made in. -/
structure SoundUpdate (minBw maxBw : K) (s : NadaController K) (nowUs : UInt64) : Prop where
  metrics : s.base.MetricDivisors
  transition : ∀ mid, s.updateMetrics exp = .ok mid → mid.InTransition →
    mid.avgInt ≠ 0 ∧ 0 ≤ mid.alpha ∧ mid.alpha < 1
  gradual : ∀ mid, s.updateMetrics exp = .ok mid → mid.getRampUpMode ≠ 0 → mid.currBw ≠ 0
  rampUp : ∀ mid, s.updateMetrics exp = .ok mid → mid.getRampUpMode = 0 →
    (mid.rampUpDenom.toNat : K) ≠ 0
  ranges : ∃ s', s.updateRate exp nowUs = .ok s' ∧ (minBw ≤ s'.currBw ∧ s'.currBw ≤ maxBw) ∧
    (0 ≤ s'.plr ∧ s'.plr ≤ 1) ∧ 0 ≤ s'.xcurr ∧ s'.xcurr ≤ nadaParamXmax

/-- What every call keeps, up to the time of the last one. -/
structure Numeric (minBw maxBw : K) (time : UInt64) (s : NadaController K) : Prop where
  minBw : s.base.minBw = minBw
  maxBw : s.base.maxBw = maxBw
  currBw : 0 < s.currBw
  plr : 0 ≤ s.plr ∧ s.plr ≤ 1
  xcurr : 0 ≤ s.xcurr ∧ s.xcurr ≤ nadaParamXmax
  rttUs : s.rttUs.toNat < 2 ^ 62
  timed : s.base.Timed time

/-- The metrics of a calculation, before the signal is made of them. -/
structure Taken (s taken : NadaController K) : Prop where
  base : taken.base = s.base
  currBw : taken.currBw = s.currBw
  xcurr : taken.xcurr = s.xcurr
  rttUs : taken.rttUs = s.base.getCurrentRTT.getD s.rttUs
  plr : taken.plr = s.plr ∨ ∃ nLoss plr, s.base.getPktLossInfo = .ok (some (nLoss, plr)) ∧
    taken.plr = s.plr + nadaParamAlpha * (plr - s.plr)

section Signal
variable [IsStrictOrderedRing K] {s s' : NadaController K} {exp}

/-- In the transition period the average interval is positive, and the factor is below one. -/
theorem InTransition.alpha_mem (h : s.InTransition) : s.avgInt ≠ 0 ∧ 0 ≤ s.alpha ∧ s.alpha < 1 := by
  obtain ⟨-, hfirst, hlast⟩ := h
  have hfactor : (0 : K) < nadaParamMultiloss + 1 := by
    rw [nadaParamMultiloss]
    positivity
  have havg : 0 < s.avgInt := by
    have hproduct : 0 < (nadaParamMultiloss + 1) * s.avgInt := (Nat.cast_nonneg _).trans_lt hlast
    exact (mul_pos_iff_of_pos_left hfactor).mp hproduct
  refine ⟨havg.ne', div_nonneg (sub_nonneg.mpr (not_lt.mp hfirst)) havg.le, ?_⟩
  rw [alpha, div_lt_one havg]
  rw [add_mul, one_mul] at hlast
  linarith

private theorem nadaParamXmax_nonneg : (0 : K) ≤ nadaParamXmax := by
  rw [nadaParamXmax]
  positivity

private theorem calcDtilde_nonneg (hexp : ∀ x, 0 ≤ exp x) : 0 ≤ s.calcDtilde exp := by
  rw [calcDtilde]
  dsimp only
  split
  · have hqth : (0 : K) ≤ nadaParamQth := by
      rw [nadaParamQth]
      positivity
    exact mul_nonneg hqth (hexp _)
  · exact div_nonneg (Nat.cast_nonneg _) (by positivity)

private theorem updateXcurr_eq (hexp : ∀ x, 0 ≤ exp x) :
    ∃ xcurr warpMode, s.updateXcurr exp = { s with xcurr, warpMode } ∧ 0 ≤ xcurr ∧ xcurr ≤ nadaParamXmax := by
  have hdloss : (0 : K) ≤ nadaParamDloss := by
    rw [nadaParamDloss]
    positivity
  have hclip (x : K) (hx : 0 ≤ x) :
      let xcurr := x + nadaParamDloss * (s.plr / nadaParamPlrref) * (s.plr / nadaParamPlrref)
      0 ≤ (if nadaParamXmax < xcurr then nadaParamXmax else xcurr) ∧
        (if nadaParamXmax < xcurr then nadaParamXmax else xcurr) ≤ nadaParamXmax := by
    intro xcurr
    have hpenalty : 0 ≤ xcurr := by
      refine add_nonneg hx ?_
      rw [mul_assoc]
      exact mul_nonneg hdloss (mul_self_nonneg _)
    split
    · exact ⟨nadaParamXmax_nonneg, le_rfl⟩
    · rename_i hbelow
      exact ⟨hpenalty, not_lt.mp hbelow⟩
  have htilde : 0 ≤ s.calcDtilde exp := calcDtilde_nonneg hexp
  have hdel : 0 ≤ s.delayMs := div_nonneg (Nat.cast_nonneg _) (by positivity)
  rw [updateXcurr]
  split
  · obtain ⟨hlow, hhigh⟩ := hclip _ htilde
    exact ⟨_, true, rfl, hlow, hhigh⟩
  · split
    · rename_i hblend
      obtain ⟨-, halpha, hbelow⟩ := hblend.alpha_mem
      obtain ⟨hlow, hhigh⟩ := hclip _ (add_nonneg (mul_nonneg halpha hdel)
        (mul_nonneg (sub_nonneg.mpr hbelow.le) htilde))
      exact ⟨_, s.warpMode, rfl, hlow, hhigh⟩
    · obtain ⟨hlow, hhigh⟩ := hclip _ hdel
      exact ⟨_, false, rfl, hlow, hhigh⟩

omit [IsStrictOrderedRing K] in
private theorem updateMetrics_ok (h : s.updateMetrics exp = .ok s') :
    ∃ taken, Taken s taken ∧ (s' = taken ∨ s' = taken.updateXcurr exp) := by
  have hsignal (taken : NadaController K) (htaken : Taken s taken) : ∃ other, Taken s other ∧
      ((if s.base.getCurrentQdelay.isSome then taken.updateXcurr exp else taken) = other ∨
        (if s.base.getCurrentQdelay.isSome then taken.updateXcurr exp else taken) = other.updateXcurr exp) := by
    split
    · exact ⟨taken, htaken, .inr rfl⟩
    · exact ⟨taken, htaken, .inl rfl⟩
  simp only [updateMetrics, bind_eq_ok, pure_eq_ok, Except.ok.injEq] at h
  obtain ⟨rrate, -, loss, hloss, interval, -, rfl⟩ := h
  cases loss with
  | none => cases interval <;> exact hsignal _ ⟨rfl, rfl, rfl, rfl, .inl rfl⟩
  | some pair => cases interval <;> exact hsignal _ ⟨rfl, rfl, rfl, rfl, .inr ⟨pair.1, pair.2, hloss, rfl⟩⟩

/-- The transition period never comes: a current interval of seven averages is more than what
the average is made of. -/
theorem updateMetrics_not_inTransition (h : s.updateMetrics exp = .ok s') : ¬ s'.InTransition := by
  have hsignal (t : NadaController K) (ht : ¬ t.InTransition) :
      ¬ (if s.base.getCurrentQdelay.isSome then t.updateXcurr exp else t).InTransition := by
    split
    · simp only [updateXcurr]
      split
      · exact ht
      · split <;> exact ht
    · exact ht
  simp only [updateMetrics, bind_eq_ok, pure_eq_ok, Except.ok.injEq] at h
  obtain ⟨rrate, -, loss, -, interval, hinterval, rfl⟩ := h
  refine hsignal _ ?_
  cases interval with
  | none =>
    rintro ⟨hseen, -⟩
    cases hseen
  | some info =>
    rintro ⟨-, hfirst, hlast⟩
    obtain ⟨hnonneg, hle⟩ := SenderBasedController.getLossIntervalInfo_le (by cases loss <;> exact hinterval)
    rw [nadaParamMultiloss] at hfirst hlast
    dsimp only at hfirst hlast
    linarith

end Signal

section Calculations
variable [IsStrictOrderedRing K] {s s' : NadaController K} {minBw maxBw : K} {time nowUs : UInt64} {exp}

private theorem Numeric.taken {taken : NadaController K} (h : Numeric minBw maxBw time s) (htaken : Taken s taken) :
    Numeric minBw maxBw time taken where
  minBw := htaken.base ▸ h.minBw
  maxBw := htaken.base ▸ h.maxBw
  currBw := htaken.currBw ▸ h.currBw
  plr := by
    rcases htaken.plr with hsame | ⟨nLoss, plr, hloss, hfiltered⟩
    · rw [hsame]
      exact h.plr
    · obtain ⟨hlow, hhigh⟩ := SenderBasedController.getPktLossInfo_mem hloss
      obtain ⟨hold, hold'⟩ := h.plr
      rw [hfiltered, nadaParamAlpha]
      constructor <;> linarith
  xcurr := htaken.xcurr ▸ h.xcurr
  rttUs := by
    rw [htaken.rttUs]
    cases hrtt : s.base.getCurrentRTT with
    | none => exact h.rttUs
    | some rttUs => exact h.timed.getCurrentRTT hrtt
  timed := htaken.base ▸ h.timed

private theorem Numeric.updateMetrics (h : Numeric minBw maxBw time s) (hexp : ∀ x, 0 ≤ exp x)
    (hmetrics : s.updateMetrics exp = .ok s') : Numeric minBw maxBw time s' := by
  obtain ⟨taken, htaken, rfl | rfl⟩ := updateMetrics_ok hmetrics
  · exact h.taken htaken
  · obtain ⟨xcurr, warpMode, hsignal, hlow, hhigh⟩ := updateXcurr_eq (s := taken) hexp
    have hnumeric := h.taken htaken
    rw [hsignal]
    exact ⟨hnumeric.minBw, hnumeric.maxBw, hnumeric.currBw, hnumeric.plr, ⟨hlow, hhigh⟩, hnumeric.rttUs,
      hnumeric.timed⟩

private theorem Numeric.denom_ne_zero (h : Numeric minBw maxBw time s) : (s.rampUpDenom.toNat : K) ≠ 0 := by
  have hrtt := h.rttUs
  apply Nat.cast_ne_zero.mpr
  simp only [rampUpDenom, nadaParamDeltaUs, nadaParamDfiltUs, UInt64.toNat_div, UInt64.toNat_add, UInt64.toNat_mul,
    UInt64.reduceToNat]
  omega

private theorem Numeric.updateRate (h : Numeric minBw maxBw time s) (hmin : 0 < minBw) (hbounds : minBw ≤ maxBw)
    (hexp : ∀ x, 0 ≤ exp x) (hrate : s.updateRate exp nowUs = .ok s') :
    Numeric minBw maxBw time s' ∧ SoundUpdate exp minBw maxBw s nowUs := by
  have hafter : Numeric minBw maxBw time s' ∧ minBw ≤ s'.currBw ∧ s'.currBw ≤ maxBw := by
    obtain ⟨mid, hmid, hs'⟩ := bind_eq_ok.mp hrate
    have hnumeric := h.updateMetrics hexp hmid
    obtain ⟨bw, hclipped⟩ := mid.updateBw_eq (nowUs - s.lastTimeCalcUs)
    have hlow : minBw ≤ max (min bw mid.base.maxBw) mid.base.minBw := by
      rw [hnumeric.minBw]
      exact le_max_right _ _
    have hhigh : max (min bw mid.base.maxBw) mid.base.minBw ≤ maxBw := by
      rw [hnumeric.minBw, hnumeric.maxBw]
      exact max_le (min_le_right _ _) hbounds
    cases hs'
    rw [hclipped]
    exact ⟨⟨hnumeric.minBw, hnumeric.maxBw, hmin.trans_le hlow, hnumeric.plr, hnumeric.xcurr, hnumeric.rttUs,
      hnumeric.timed⟩, hlow, hhigh⟩
  obtain ⟨hnumeric, hrange⟩ := hafter
  refine ⟨hnumeric, ?_⟩
  constructor
  · exact s.base.metricDivisors
  · intro mid _ htransition
    exact htransition.alpha_mem
  · intro mid hmid _
    exact (h.updateMetrics hexp hmid).currBw.ne'
  · intro mid hmid _
    exact (h.updateMetrics hexp hmid).denom_ne_zero
  · exact ⟨s', hrate, hrange, hnumeric.plr, hnumeric.xcurr⟩

end Calculations

section Calls
variable {s s' : NadaController K} {nowUs : UInt64} {exp}

private theorem processFeedback_updates {item : FeedbackItem} {ok : Bool}
    (h : s.processFeedback exp nowUs item.sequence item.rxTimestampUs item.ecn = .ok (ok, s')) :
    ∃ accepted base, s.base.processFeedback nowUs item.sequence item.rxTimestampUs item.ecn = .ok (accepted, base) ∧
      ((s.feedbackUpdates nowUs item = [] ∧ ∃ last valid,
          s' = { s with base, lastTimeCalcUs := last, lastTimeCalcValid := valid }) ∨
        (s.feedbackUpdates nowUs item = [{ s with base }] ∧
          ({ s with base } : NadaController K).updateRate exp nowUs = .ok s')) := by
  obtain ⟨accepted, base, hbase, hcases⟩ := processFeedback_ok h
  refine ⟨accepted, base, hbase, ?_⟩
  rw [feedbackUpdates, hbase]
  rcases hcases with ⟨hnone, hsame⟩ | ⟨⟨rfl, hdue⟩, hrate⟩
  · refine .inl ⟨?_, hsame⟩
    cases accepted with
    | false => rfl
    | true => exact if_neg fun hdue => hnone ⟨rfl, hdue⟩
  · exact .inr ⟨if_pos hdue, hrate⟩

private theorem processFeedbackBatch_updates {feedbackBatch : List FeedbackItem} {ok : Bool}
    (h : s.processFeedbackBatch exp nowUs feedbackBatch = .ok (ok, s')) :
    ∃ accepted mid, Controller.processFeedbackBatch (processFeedback exp) nowUs s feedbackBatch = .ok (accepted, mid) ∧
      ((s.batchUpdates exp nowUs feedbackBatch = itemsUpdates exp nowUs s feedbackBatch ∧ ∃ last valid,
          s' = { mid with lastTimeCalcUs := last, lastTimeCalcValid := valid }) ∨
        (s.batchUpdates exp nowUs feedbackBatch = itemsUpdates exp nowUs s feedbackBatch ++ [mid] ∧
          mid.updateRate exp nowUs = .ok s')) := by
  obtain ⟨accepted, mid, hitems, hcases⟩ := processFeedbackBatch_ok h
  refine ⟨accepted, mid, hitems, ?_⟩
  rw [batchUpdates, hitems]
  rcases hcases with ⟨hnone, hsame⟩ | ⟨⟨rfl, hdue⟩, hrate⟩
  · refine .inl ⟨?_, hsame⟩
    cases accepted with
    | false => exact List.append_nil _
    | true =>
      dsimp only
      rw [if_neg fun hdue => hnone ⟨rfl, hdue⟩, List.append_nil]
  · refine .inr ⟨?_, hrate⟩
    dsimp only
    rw [if_pos hdue]

end Calls

end NadaController

namespace NadaApiCall
variable {K : Type}

def timeUs? : NadaApiCall K → Option UInt64
  | .call (.processSendPacket txTimestampUs _ _) => some txTimestampUs
  | .call (.processFeedback nowUs _ _ _) => some nowUs
  | .call (.processFeedbackBatch nowUs _) => some nowUs
  | _ => none

/-- Sends and feedback, and positive rates that are set from outside. -/
def IsRunning [Zero K] [LT K] : NadaApiCall K → Prop
  | .setCurrentBw newBw => 0 < newBw
  | .call _ => True
  | _ => False

/-- The clock goes on from call to call, and does not come near its end. -/
def Clocked (calls : List (NadaApiCall K)) : Prop :=
  (calls.filterMap timeUs?).Pairwise (· ≤ ·) ∧ ∀ time ∈ calls.filterMap timeUs?, time.toNat < 2 ^ 62

end NadaApiCall

namespace NadaController
variable {K : Type} [Field K] [LinearOrder K] [IsStrictOrderedRing K]

section Runs
variable {s s' : NadaController K} {minBw maxBw : K} {time nowUs : UInt64} {exp : K → K}

omit [IsStrictOrderedRing K] in
private theorem Numeric.later (h : Numeric minBw maxBw time s) (hlater : time ≤ nowUs) : Numeric minBw maxBw nowUs s :=
  { h with timed := h.timed.later hlater }

omit [IsStrictOrderedRing K] in
private theorem Numeric.withBase (h : Numeric minBw maxBw time s) {base : SenderBasedController K}
    (hsettings : base.settings =
    s.base.settings) (htimed : base.Timed nowUs) (last : UInt64) (valid : Bool) :
    Numeric minBw maxBw nowUs { s with base, lastTimeCalcUs := last, lastTimeCalcValid := valid } where
  minBw := (congrArg SenderBasedController.Settings.minBw hsettings).trans h.minBw
  maxBw := (congrArg SenderBasedController.Settings.maxBw hsettings).trans h.maxBw
  currBw := h.currBw
  plr := h.plr
  xcurr := h.xcurr
  rttUs := h.rttUs
  timed := htimed

omit [IsStrictOrderedRing K] in
private theorem Numeric.send {sequence : UInt16} {size : UInt32} {ok : Bool} (h : Numeric minBw maxBw nowUs s)
    (hsend : s.processSendPacket nowUs sequence size = .ok (ok, s')) : Numeric minBw maxBw nowUs s' := by
  obtain ⟨accepted, base, last, valid, hbase, rfl⟩ := processSendPacket_ok hsend
  exact h.withBase (SenderBasedController.processSendPacket_settings hbase) (h.timed.processSendPacket hbase) last valid

variable (hmin : 0 < minBw) (hbounds : minBw ≤ maxBw) (hexp : ∀ x, 0 ≤ exp x) (hnow : nowUs.toNat < 2 ^ 62)
include hmin hbounds hexp hnow

private theorem Numeric.feedback {ok : Bool} (h : Numeric minBw maxBw nowUs s) (item : FeedbackItem)
    (hfeedback : s.processFeedback exp nowUs item.sequence item.rxTimestampUs item.ecn = .ok (ok, s')) :
    Numeric minBw maxBw nowUs s' ∧ ∀ u ∈ s.feedbackUpdates nowUs item, SoundUpdate exp minBw maxBw u nowUs := by
  obtain ⟨accepted, base, hbase, hcases⟩ := processFeedback_updates hfeedback
  have hsettings := SenderBasedController.processFeedback_settings hbase
  have htimed := h.timed.processFeedback hnow hbase
  rcases hcases with ⟨hnone, last, valid, rfl⟩ | ⟨hone, hrate⟩
  · rw [hnone]
    exact ⟨h.withBase hsettings htimed last valid, by simp⟩
  · obtain ⟨hafter, hsound⟩ :=
      (h.withBase hsettings htimed s.lastTimeCalcUs s.lastTimeCalcValid).updateRate hmin hbounds hexp hrate
    rw [hone]
    refine ⟨hafter, fun u hu => ?_⟩
    rw [List.mem_singleton.mp hu]
    exact hsound

private theorem Numeric.items {feedbackBatch : List FeedbackItem} {ok : Bool} (h : Numeric minBw maxBw nowUs s)
    (hitems : Controller.processFeedbackBatch (processFeedback exp) nowUs s feedbackBatch = .ok (ok, s')) :
    Numeric minBw maxBw nowUs s' ∧
      ∀ u ∈ itemsUpdates exp nowUs s feedbackBatch, SoundUpdate exp minBw maxBw u nowUs := by
  induction feedbackBatch generalizing s with
  | nil =>
    cases hitems
    exact ⟨h, by simp [itemsUpdates]⟩
  | cons item feedbackBatch ih =>
    obtain ⟨-, hitems⟩ := check_bind_eq_ok.mp hitems
    obtain ⟨⟨accepted, next⟩, hitem, hitems⟩ := bind_eq_ok.mp hitems
    obtain ⟨hnext, hfirst⟩ := h.feedback hmin hbounds hexp hnow item hitem
    cases accepted with
    | false =>
      cases hitems
      refine ⟨hnext, fun u hu => ?_⟩
      rw [itemsUpdates, hitem, List.append_nil] at hu
      exact hfirst u hu
    | true =>
      obtain ⟨hlast, hrest⟩ := ih hnext hitems
      refine ⟨hlast, fun u hu => ?_⟩
      rw [itemsUpdates, hitem] at hu
      rcases List.mem_append.mp hu with hu | hu
      · exact hfirst u hu
      · exact hrest u hu

private theorem Numeric.batch {feedbackBatch : List FeedbackItem} {ok : Bool} (h : Numeric minBw maxBw nowUs s)
    (hbatch : s.processFeedbackBatch exp nowUs feedbackBatch = .ok (ok, s')) :
    Numeric minBw maxBw nowUs s' ∧
      ∀ u ∈ s.batchUpdates exp nowUs feedbackBatch, SoundUpdate exp minBw maxBw u nowUs := by
  obtain ⟨accepted, mid, hitems, hcases⟩ := processFeedbackBatch_updates hbatch
  obtain ⟨hmid, hsound⟩ := h.items hmin hbounds hexp hnow hitems
  rcases hcases with ⟨hnone, last, valid, rfl⟩ | ⟨hone, hrate⟩
  · rw [hnone]
    exact ⟨hmid.withBase rfl hmid.timed last valid, hsound⟩
  · obtain ⟨hafter, hlast⟩ := hmid.updateRate hmin hbounds hexp hrate
    rw [hone]
    refine ⟨hafter, fun u hu => ?_⟩
    rcases List.mem_append.mp hu with hu | hu
    · exact hsound u hu
    · rw [List.mem_singleton.mp hu]
      exact hlast

private theorem Numeric.call {call : NadaCall} (h : Numeric minBw maxBw nowUs s)
    (htime : NadaApiCall.timeUs? (.call call : NadaApiCall K) = some nowUs) (hstep : s.step exp call = .ok s') :
    Numeric minBw maxBw nowUs s' ∧ ∀ u ∈ s.rateUpdates exp (.call call), SoundUpdate exp minBw maxBw u.1 u.2 := by
  cases call with
  | processSendPacket txTimestampUs sequence size =>
    cases htime
    obtain ⟨⟨ok, next⟩, hsend, he⟩ := bind_eq_ok.mp hstep
    cases he
    exact ⟨h.send hsend, by simp [rateUpdates]⟩
  | processFeedback now sequence rxTimestampUs ecn =>
    cases htime
    obtain ⟨⟨ok, next⟩, hfeedback, he⟩ := bind_eq_ok.mp hstep
    cases he
    obtain ⟨hafter, hsound⟩ :=
      h.feedback hmin hbounds hexp hnow ⟨sequence, rxTimestampUs, ecn⟩ hfeedback
    refine ⟨hafter, fun u hu => ?_⟩
    obtain ⟨state, hstate, rfl⟩ := List.mem_map.mp hu
    exact hsound state hstate
  | processFeedbackBatch now feedbackBatch =>
    cases htime
    obtain ⟨⟨ok, next⟩, hbatch, he⟩ := bind_eq_ok.mp hstep
    cases he
    obtain ⟨hafter, hsound⟩ := h.batch hmin hbounds hexp hnow hbatch
    refine ⟨hafter, fun u hu => ?_⟩
    obtain ⟨state, hstate, rfl⟩ := List.mem_map.mp hu
    exact hsound state hstate

omit hnow

private theorem Numeric.apiStep {call : NadaApiCall K} (h : Numeric minBw maxBw time s) (hrunning : call.IsRunning)
    (htimes : ∀ now ∈ call.timeUs?, time ≤ now ∧ now.toNat < 2 ^ 62) (hstep : s.apiStep exp call = .ok s') :
    Numeric minBw maxBw (call.timeUs?.getD time) s' ∧
      ∀ u ∈ s.rateUpdates exp call, SoundUpdate exp minBw maxBw u.1 u.2 := by
  cases call with
  | call call =>
    obtain ⟨now, htime⟩ : ∃ now, NadaApiCall.timeUs? (.call call : NadaApiCall K) = some now := by
      cases call <;> exact ⟨_, rfl⟩
    obtain ⟨hlater, hclock⟩ := htimes now htime
    rw [htime]
    exact (h.later hlater).call hmin hbounds hexp hclock htime hstep
  | setCurrentBw newBw =>
    cases hstep
    exact ⟨⟨h.minBw, h.maxBw, hrunning, h.plr, h.xcurr, h.rttUs, h.timed⟩, by simp [rateUpdates]⟩
  | setInitBw _ | setMinBw _ | setMaxBw _ | reset => exact hrunning.elim

private theorem Numeric.run {calls : List (NadaApiCall K)} (h : Numeric minBw maxBw time s)
    (hrunning : ∀ call ∈ calls, call.IsRunning) (hclock : NadaApiCall.Clocked calls)
    (hstart : ∀ now ∈ calls.filterMap NadaApiCall.timeUs?, time ≤ now)
    (hrun : run (NadaController.apiStep exp) s calls = .ok s') :
    ∀ u ∈ observed (NadaController.apiStep exp) (rateUpdates exp) s calls, SoundUpdate exp minBw maxBw u.1 u.2 := by
  induction calls generalizing s time with
  | nil => simp [observed]
  | cons call calls ih =>
    obtain ⟨next, hnext, hrun⟩ := bind_eq_ok.mp hrun
    obtain ⟨hsorted, hbelow⟩ := hclock
    have htimes : ∀ now ∈ call.timeUs?, time ≤ now ∧ now.toNat < 2 ^ 62 := by
      intro now hnow
      have hmem : now ∈ (call :: calls).filterMap NadaApiCall.timeUs? :=
        List.mem_filterMap.mpr ⟨call, by simp, hnow⟩
      exact ⟨hstart now hmem, hbelow now hmem⟩
    obtain ⟨hafter, hsound⟩ := h.apiStep hmin hbounds hexp (hrunning call (by simp)) htimes hnext
    -- The rest of the run starts at the time of this call.
    have hrest : NadaApiCall.Clocked calls ∧
        ∀ now ∈ calls.filterMap NadaApiCall.timeUs?, call.timeUs?.getD time ≤ now := by
      cases htime : call.timeUs? with
      | none =>
        rw [List.filterMap_cons_none htime] at hsorted hbelow hstart
        exact ⟨⟨hsorted, hbelow⟩, hstart⟩
      | some now =>
        rw [List.filterMap_cons_some htime] at hsorted hbelow
        obtain ⟨hfirst, hsorted⟩ := List.pairwise_cons.mp hsorted
        exact ⟨⟨hsorted, fun later hlater => hbelow later (List.mem_cons_of_mem _ hlater)⟩, hfirst⟩
    intro u hu
    rw [observed, hnext] at hu
    rcases List.mem_append.mp hu with hu | hu
    · exact hsound u hu
    · exact ih hafter (fun c hc => hrunning c (List.mem_cons_of_mem _ hc)) hrest.1 hrest.2 hrun u hu

end Runs

def configured (initBw minBw maxBw : K) : NadaController K :=
  (((fresh : NadaController K).setInitBw initBw).setMinBw minBw).setMaxBw maxBw

private theorem numeric_configured (initBw minBw maxBw : K) :
    Numeric minBw maxBw 0 (configured initBw minBw maxBw) where
  minBw := rfl
  maxBw := rfl
  currBw := by
    have hinit : (configured initBw minBw maxBw).currBw =
        (SenderBasedController.fresh : SenderBasedController K).initBw := rfl
    rw [hinit, SenderBasedController.fresh]
    positivity
  plr := ⟨le_rfl, zero_le_one⟩
  xcurr := ⟨le_rfl, nadaParamXmax_nonneg⟩
  rttUs := by
    rw [show (configured initBw minBw maxBw).rttUs = 0 from rfl]
    decide
  timed := ⟨nofun, nofun⟩

/-- In every run of a fresh controller, whatever its initial rate, with the exponential function
of the real numbers: every calculation of the rate is sound. -/
theorem rate_updates_sound {initBw minBw maxBw : ℝ} {calls : List (NadaApiCall ℝ)} {s : NadaController ℝ}
    (hmin : 0 < minBw) (hbounds : minBw ≤ maxBw) (hrunning : ∀ call ∈ calls, call.IsRunning)
    (hclock : NadaApiCall.Clocked calls)
    (hrun : run (apiStep Real.exp) (configured initBw minBw maxBw) calls = .ok s) :
    ∀ u ∈ observed (apiStep Real.exp) (rateUpdates Real.exp) (configured initBw minBw maxBw) calls,
      SoundUpdate Real.exp minBw maxBw u.1 u.2 :=
  (numeric_configured initBw minBw maxBw).run hmin hbounds (fun x => (Real.exp_pos x).le) hrunning hclock
    (fun _ _ => UInt64.zero_le) hrun

/-- Seven packets, 5 ms apart, the second of which is lost, and one report of the others. -/
def lossyCalls : List (NadaApiCall ℝ) :=
  [.call (.processSendPacket 1000 1 1200), .setCurrentBw 170000, .call (.processSendPacket 6000 2 1200),
    .call (.processSendPacket 11000 3 1200), .call (.processSendPacket 16000 4 1200),
    .call (.processSendPacket 21000 5 1200), .call (.processSendPacket 26000 6 1200),
    .call (.processSendPacket 31000 7 1200), .call (.processFeedbackBatch 75000 [⟨1, 31000, 0⟩, ⟨3, 42000, 0⟩,
      ⟨4, 48000, 0⟩, ⟨5, 54000, 0⟩, ⟨6, 60000, 0⟩, ⟨7, 66000, 0⟩])]

theorem rate_updates_sound_lossy :
    let updates := observed (apiStep Real.exp) (rateUpdates Real.exp) (configured 150000 120000 900000) lossyCalls
    updates.map (fun u => (u.1.base.packetHistory.length, u.1.base.ilState.intervals)) = [(6, [5, 1])] ∧
      ∀ u ∈ updates, SoundUpdate Real.exp 120000 900000 u.1 u.2 := by
  intro updates
  have hrun : ∃ s, run (apiStep Real.exp) (configured 150000 120000 900000) lossyCalls = .ok s := ⟨_, rfl⟩
  obtain ⟨s, hrun⟩ := hrun
  refine ⟨rfl, rate_updates_sound (by norm_num) (by norm_num) ?_ ?_ hrun⟩
  · simp [lossyCalls, NadaApiCall.IsRunning]
  · have htimes : lossyCalls.filterMap NadaApiCall.timeUs? =
        [1000, 6000, 11000, 16000, 21000, 26000, 31000, 75000] := rfl
    rw [NadaApiCall.Clocked, htimes]
    simp

end NadaController

end Ns3Rmcat.Controller
