import Ns3Rmcat.Controller.NadaBatch
import Ns3Rmcat.Controller.SenderBasedSteps

/-! Everything that a program can call on a NADA controller, and what the calls do to the rate:
only a calculation of the rate changes it, and clips it. -/
namespace Ns3Rmcat.Controller
open Lib

inductive NadaCall where
  | processSendPacket (txTimestampUs : UInt64) (sequence : UInt16) (size : UInt32)
  | processFeedback (nowUs : UInt64) (sequence : UInt16) (rxTimestampUs : UInt64) (ecn : UInt8)
  | processFeedbackBatch (nowUs : UInt64) (feedbackBatch : List FeedbackItem)
  deriving DecidableEq, Repr

inductive NadaApiCall (K : Type) where
  | setInitBw (initBw : K)
  | setMinBw (minBw : K)
  | setMaxBw (maxBw : K)
  | setCurrentBw (newBw : K)
  | reset
  | call (call : NadaCall)

namespace NadaController
variable {K : Type}

def setInitBw (s : NadaController K) (initBw : K) : NadaController K := { s with base := s.base.setInitBw initBw }

def setMinBw (s : NadaController K) (minBw : K) : NadaController K := { s with base := s.base.setMinBw minBw }

def setMaxBw (s : NadaController K) (maxBw : K) : NadaController K := { s with base := s.base.setMaxBw maxBw }

variable [Field K] [LinearOrder K] (exp : K → K)

def step (s : NadaController K) : NadaCall → Checked (NadaController K)
  | .processSendPacket txTimestampUs sequence size => do
    let (_, s) ← s.processSendPacket txTimestampUs sequence size
    return s
  | .processFeedback nowUs sequence rxTimestampUs ecn => do
    let (_, s) ← s.processFeedback exp nowUs sequence rxTimestampUs ecn
    return s
  | .processFeedbackBatch nowUs feedbackBatch => do
    let (_, s) ← s.processFeedbackBatch exp nowUs feedbackBatch
    return s

def apiStep (s : NadaController K) : NadaApiCall K → Checked (NadaController K)
  | .setInitBw initBw => .ok (s.setInitBw initBw)
  | .setMinBw minBw => .ok (s.setMinBw minBw)
  | .setMaxBw maxBw => .ok (s.setMaxBw maxBw)
  | .setCurrentBw newBw => .ok (s.setCurrentBw newBw)
  | .reset => .ok s.reset
  | .call call => s.step exp call

/-- Some states further: the settings are the same, and the rate is the same or has been clipped. -/
structure Advanced (s s' : NadaController K) : Prop where
  settings : s'.base.settings = s.base.settings
  currBw : s'.currBw = s.currBw ∨ ∃ bw, s'.currBw = max (min bw s.base.maxBw) s.base.minBw

variable {exp} {s s' s'' : NadaController K}

omit [Field K] in
private theorem Advanced.refl (s : NadaController K) : Advanced s s := ⟨rfl, .inl rfl⟩

omit [Field K] in
private theorem Advanced.trans (h : Advanced s s') (h' : Advanced s' s'') : Advanced s s'' where
  settings := h'.settings.trans h.settings
  currBw := by
    have hmin : s'.base.minBw = s.base.minBw := congrArg SenderBasedController.Settings.minBw h.settings
    have hmax : s'.base.maxBw = s.base.maxBw := congrArg SenderBasedController.Settings.maxBw h.settings
    rcases h'.currBw with hsame | ⟨bw, hclipped⟩
    · rw [hsame]
      exact h.currBw
    · exact .inr ⟨bw, by rw [hclipped, hmin, hmax]⟩

/-- An update of the rate changes the current rate alone, and clips it. -/
theorem updateBw_eq (s : NadaController K) (deltaUs : UInt64) :
    ∃ bw, s.updateBw deltaUs = { s with currBw := max (min bw s.base.maxBw) s.base.minBw } := by
  have hramp : ∃ bw, s.calcAcceleratedRampUp = { s with currBw := bw } := by
    unfold calcAcceleratedRampUp
    dsimp only
    split
    · split
      · exact ⟨_, rfl⟩
      · exact ⟨s.currBw, rfl⟩
    · split
      · exact ⟨_, rfl⟩
      · exact ⟨s.currBw, rfl⟩
  rw [updateBw]
  dsimp only
  split
  · obtain ⟨bw, hbw⟩ := hramp
    rw [hbw]
    exact ⟨bw, rfl⟩
  · exact ⟨_, rfl⟩

private theorem updateRate_advanced {nowUs : UInt64} (h : s.updateRate exp nowUs = .ok s') : Advanced s s' := by
  obtain ⟨mid, hmid, hs'⟩ := bind_eq_ok.mp h
  have hbase : mid.base = s.base := congrArg Prod.fst (updateMetrics_frame hmid)
  obtain ⟨bw, hclipped⟩ := mid.updateBw_eq (nowUs - s.lastTimeCalcUs)
  cases hs'
  rw [hclipped]
  exact ⟨congrArg SenderBasedController.settings hbase, .inr ⟨bw, by rw [hbase]⟩⟩

/-- What a feedback does: it reaches the base controller, and makes a calculation when it is
accepted and the last one was long enough ago. -/
theorem processFeedback_ok {nowUs rxTimestampUs : UInt64} {sequence : UInt16} {ecn : UInt8} {ok : Bool}
    (h : s.processFeedback exp nowUs sequence rxTimestampUs ecn = .ok (ok, s')) :
    ∃ accepted base, s.base.processFeedback nowUs sequence rxTimestampUs ecn = .ok (accepted, base) ∧
      ((¬ (accepted = true ∧ s.lastTimeCalcValid = true ∧ nadaParamDeltaUs ≤ nowUs - s.lastTimeCalcUs) ∧
          ∃ last valid, s' = { s with base, lastTimeCalcUs := last, lastTimeCalcValid := valid }) ∨
        ((accepted = true ∧ s.lastTimeCalcValid = true ∧ nadaParamDeltaUs ≤ nowUs - s.lastTimeCalcUs) ∧
          ({ s with base } : NadaController K).updateRate exp nowUs = .ok s')) := by
  obtain ⟨⟨accepted, base⟩, hbase, h⟩ := bind_eq_ok.mp h
  refine ⟨accepted, base, hbase, ?_⟩
  dsimp only at h
  split at h
  · rename_i hrefused
    cases h
    exact .inl ⟨by simp [hrefused], _, _, rfl⟩
  · rename_i haccepted
    split at h
    · rename_i hinvalid
      cases h
      exact .inl ⟨by simp [hinvalid], _, _, rfl⟩
    · rename_i hvalid
      obtain ⟨-, h⟩ := check_bind_eq_ok.mp h
      split at h
      · rename_i hdue
        obtain ⟨next, hnext, he⟩ := bind_eq_ok.mp h
        cases he
        exact .inr ⟨⟨by simpa using haccepted, by simpa using hvalid, hdue⟩, hnext⟩
      · rename_i hearly
        cases h
        exact .inl ⟨fun hall => hearly hall.2.2, _, _, rfl⟩

/-- What a batch does after its items: a calculation, after half of that time already. -/
theorem processFeedbackBatch_ok {nowUs : UInt64} {feedbackBatch : List FeedbackItem} {ok : Bool}
    (h : s.processFeedbackBatch exp nowUs feedbackBatch = .ok (ok, s')) :
    ∃ accepted mid, Controller.processFeedbackBatch (processFeedback exp) nowUs s feedbackBatch = .ok (accepted, mid) ∧
      ((¬ (accepted = true ∧ mid.lastTimeCalcValid = true ∧ nadaParamDeltaUs / 2 ≤ nowUs - mid.lastTimeCalcUs) ∧
          ∃ last valid, s' = { mid with lastTimeCalcUs := last, lastTimeCalcValid := valid }) ∨
        ((accepted = true ∧ mid.lastTimeCalcValid = true ∧ nadaParamDeltaUs / 2 ≤ nowUs - mid.lastTimeCalcUs) ∧
          mid.updateRate exp nowUs = .ok s')) := by
  obtain ⟨⟨accepted, mid⟩, hitems, h⟩ := bind_eq_ok.mp h
  refine ⟨accepted, mid, hitems, ?_⟩
  dsimp only at h
  split at h
  · rename_i hrefused
    cases h
    exact .inl ⟨by simp [hrefused], _, _, rfl⟩
  · rename_i haccepted
    split at h
    · rename_i hinvalid
      cases h
      exact .inl ⟨by simp [hinvalid], _, _, rfl⟩
    · rename_i hvalid
      obtain ⟨-, h⟩ := check_bind_eq_ok.mp h
      split at h
      · rename_i hearly
        cases h
        exact .inl ⟨fun hall => absurd hearly (UInt64.not_lt.mpr hall.2.2), _, _, rfl⟩
      · rename_i hdue
        obtain ⟨next, hnext, he⟩ := bind_eq_ok.mp h
        cases he
        exact .inr ⟨⟨by simpa using haccepted, by simpa using hvalid, UInt64.not_lt.mp hdue⟩, hnext⟩

private theorem processFeedback_advanced {nowUs rxTimestampUs : UInt64} {sequence : UInt16} {ecn : UInt8} {ok : Bool}
    (h : s.processFeedback exp nowUs sequence rxTimestampUs ecn = .ok (ok, s')) : Advanced s s' := by
  obtain ⟨accepted, base, hbase, hcases⟩ := processFeedback_ok h
  have hsettings := SenderBasedController.processFeedback_settings hbase
  rcases hcases with ⟨-, last, valid, rfl⟩ | ⟨-, hrate⟩
  · exact ⟨hsettings, .inl rfl⟩
  · have htaken : Advanced s { s with base } := ⟨hsettings, .inl rfl⟩
    exact htaken.trans (updateRate_advanced hrate)

private theorem items_advanced {nowUs : UInt64} {feedbackBatch : List FeedbackItem} {ok : Bool}
    (h : Controller.processFeedbackBatch (processFeedback exp) nowUs s feedbackBatch = .ok (ok, s')) :
    Advanced s s' := by
  induction feedbackBatch generalizing s with
  | nil =>
    cases h
    exact Advanced.refl _
  | cons item feedbackBatch ih =>
    obtain ⟨-, h⟩ := check_bind_eq_ok.mp h
    obtain ⟨⟨accepted, mid⟩, hitem, h⟩ := bind_eq_ok.mp h
    have hmid := processFeedback_advanced hitem
    dsimp only at h
    split at h
    · exact hmid.trans (ih h)
    · cases h
      exact hmid

private theorem processFeedbackBatch_advanced {nowUs : UInt64} {feedbackBatch : List FeedbackItem} {ok : Bool}
    (h : s.processFeedbackBatch exp nowUs feedbackBatch = .ok (ok, s')) : Advanced s s' := by
  obtain ⟨accepted, mid, hitems, hcases⟩ := processFeedbackBatch_ok h
  have hmid := items_advanced hitems
  rcases hcases with ⟨-, last, valid, rfl⟩ | ⟨-, hrate⟩
  · exact ⟨hmid.settings, hmid.currBw⟩
  · exact hmid.trans (updateRate_advanced hrate)

omit [Field K] [LinearOrder K] in
theorem processSendPacket_ok {txTimestampUs : UInt64} {sequence : UInt16} {size : UInt32} {ok : Bool}
    (h : s.processSendPacket txTimestampUs sequence size = .ok (ok, s')) :
    ∃ accepted base lastTimeCalcUs valid, s.base.processSendPacket txTimestampUs sequence size = .ok (accepted, base) ∧
      s' = { s with base, lastTimeCalcUs, lastTimeCalcValid := valid } := by
  obtain ⟨⟨accepted, base⟩, hbase, h⟩ := bind_eq_ok.mp h
  refine ⟨accepted, base, s'.lastTimeCalcUs, s'.lastTimeCalcValid, hbase, ?_⟩
  dsimp only at h
  split at h
  · cases h
    rfl
  · split at h
    · cases h
      rfl
    · cases h
      rfl

/-- Sends and feedback keep the settings, and change the rate by clipping it only. -/
theorem step_advanced {call : NadaCall} (h : s.step exp call = .ok s') : Advanced s s' := by
  cases call with
  | processSendPacket txTimestampUs sequence size =>
    obtain ⟨⟨ok, next⟩, hsend, he⟩ := bind_eq_ok.mp h
    cases he
    obtain ⟨accepted, base, lastTimeCalcUs, valid, hbase, rfl⟩ := processSendPacket_ok hsend
    exact ⟨SenderBasedController.processSendPacket_settings hbase, .inl rfl⟩
  | processFeedback nowUs sequence rxTimestampUs ecn =>
    obtain ⟨⟨ok, next⟩, hfeedback, he⟩ := bind_eq_ok.mp h
    cases he
    exact processFeedback_advanced hfeedback
  | processFeedbackBatch nowUs feedbackBatch =>
    obtain ⟨⟨ok, next⟩, hfeedback, he⟩ := bind_eq_ok.mp h
    cases he
    exact processFeedbackBatch_advanced hfeedback

theorem run_advanced {calls : List NadaCall} (h : run (step exp) s calls = .ok s') : Advanced s s' := by
  apply run_keeps (step exp) (p := fun _ => True) _ (fun _ _ => trivial) (Advanced.refl s) h
  intro mid call next _ hmid hnext
  exact hmid.trans (step_advanced hnext)

end NadaController

end Ns3Rmcat.Controller
