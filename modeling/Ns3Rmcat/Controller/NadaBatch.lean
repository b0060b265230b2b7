import Ns3Rmcat.Controller.Nada

/-! Batches of feedback in the NADA controller. The base class's loop calls the
virtual feedback function, which makes rate calculations of its own; the reference
applies the whole batch to the base controller first. -/
namespace Ns3Rmcat.Controller.NadaController
open Lib

variable {K : Type} [Field K] [LinearOrder K] {exp : K → K}

/-- The batch as one unit: all items go to the base controller, and then there is one
calculation, when half of the interval has passed since the last one. -/
def referenceBatch (exp : K → K) (s : NadaController K) (nowUs : UInt64)
    (feedbackBatch : List FeedbackItem) : Checked (Bool × NadaController K) := do
  let (ok, base) ← Controller.processFeedbackBatch SenderBasedController.processFeedback nowUs
    s.base feedbackBatch
  let s := { s with base }
  if ok = true ∧ nadaParamDeltaUs / 2 ≤ nowUs - s.lastTimeCalcUs then
    return (true, ← s.updateRate exp nowUs)
  return (ok, s)

/-- Agreement on the base controller, the integer metrics and the rate. -/
structure SameOutcome (s t : NadaController K) : Prop where
  base : s.base = t.base
  qdelayUs : s.qdelayUs = t.qdelayUs
  rttUs : s.rttUs = t.rttUs
  ploss : s.ploss = t.ploss
  currInt : s.currInt = t.currInt
  currBw : s.currBw = t.currBw

omit [Field K] [LinearOrder K] in
private theorem SameOutcome.refl (s : NadaController K) : SameOutcome s s := ⟨rfl, rfl, rfl, rfl, rfl, rfl⟩

/-- The feedback function makes a calculation, whatever the item, in such a state. -/
def UpdateDue (s : NadaController K) (nowUs : UInt64) : Prop :=
  s.lastTimeCalcValid = true ∧ nadaParamDeltaUs ≤ nowUs - s.lastTimeCalcUs

/-- No item but the last of a batch finds a state in which it makes a calculation. -/
def NoPartialUpdate (exp : K → K) (s : NadaController K) (nowUs : UInt64)
    (feedbackBatch : List FeedbackItem) : Prop :=
  ∀ before item after mid, feedbackBatch = before ++ item :: after → after ≠ [] →
    Controller.processFeedbackBatch (processFeedback exp) nowUs s before = .ok (true, mid) →
    ¬ mid.UpdateDue nowUs

section Items
variable {s s' : NadaController K} {nowUs : UInt64}

/-- An accepted item, with a valid time of the last calculation: the base controller takes
it in, and a calculation follows when it is due. -/
private theorem processFeedback_accepted {sequence : UInt16} {rxTimestampUs : UInt64} {ecn : UInt8}
    (hvalid : s.lastTimeCalcValid = true)
    (h : s.processFeedback exp nowUs sequence rxTimestampUs ecn = .ok (true, s')) :
    ∃ base, s.base.processFeedback nowUs sequence rxTimestampUs ecn = .ok (true, base) ∧
      if nadaParamDeltaUs ≤ nowUs - s.lastTimeCalcUs then
        ({ s with base } : NadaController K).updateRate exp nowUs = .ok s'
      else s' = { s with base } := by
  simp only [processFeedback, bind_eq_ok, Prod.exists] at h
  obtain ⟨ok, base, hbase, h⟩ := h
  cases ok with
  | false => simp at h
  | true =>
    rw [if_neg (by simp), if_neg (by simp [hvalid]), check_bind_eq_ok] at h
    refine ⟨base, hbase, ?_⟩
    split
    · rename_i hdue
      rw [if_pos hdue] at h
      obtain ⟨next, hnext, he⟩ := bind_eq_ok.mp h.2
      cases he
      exact hnext
    · rename_i hdue
      rw [if_neg hdue] at h
      cases h.2
      rfl

omit [Field K] [LinearOrder K] in
private theorem processFeedbackBatch_cons {S : Type}
    {processFeedback : S → UInt64 → UInt16 → UInt64 → UInt8 → Checked (Bool × S)}
    {t t' : S} {item : FeedbackItem} {feedbackBatch : List FeedbackItem} :
    Controller.processFeedbackBatch processFeedback nowUs t (item :: feedbackBatch) = .ok (true, t') ↔
      lessThan item.rxTimestampUs nowUs = true ∧ ∃ mid,
        processFeedback t nowUs item.sequence item.rxTimestampUs item.ecn = .ok (true, mid) ∧
        Controller.processFeedbackBatch processFeedback nowUs mid feedbackBatch = .ok (true, t') := by
  rw [Controller.processFeedbackBatch, check_bind_eq_ok, bind_eq_ok]
  refine and_congr_right fun _ => ⟨?_, ?_⟩
  · rintro ⟨⟨ok, mid⟩, hitem, h⟩
    cases ok with
    | false => simp at h
    | true => exact ⟨mid, hitem, by simpa using h⟩
  · rintro ⟨mid, hitem, h⟩
    exact ⟨(true, mid), hitem, by simpa using h⟩

private theorem items_quiet {feedbackBatch : List FeedbackItem} (hvalid : s.lastTimeCalcValid = true)
    (hquiet : nowUs - s.lastTimeCalcUs < nadaParamDeltaUs)
    (h : Controller.processFeedbackBatch (processFeedback exp) nowUs s feedbackBatch = .ok (true, s')) :
    ∃ base, Controller.processFeedbackBatch SenderBasedController.processFeedback nowUs s.base
        feedbackBatch = .ok (true, base) ∧ s' = { s with base } := by
  induction feedbackBatch generalizing s with
  | nil =>
    cases h
    exact ⟨_, rfl, rfl⟩
  | cons item feedbackBatch ih =>
    obtain ⟨hrx, mid, hitem, h⟩ := processFeedbackBatch_cons.mp h
    obtain ⟨base, hbase, hmid⟩ := processFeedback_accepted hvalid hitem
    rw [if_neg (UInt64.not_le.mpr hquiet)] at hmid
    subst hmid
    obtain ⟨last, hlast, rfl⟩ := ih (s := { s with base }) hvalid hquiet h
    exact ⟨last, processFeedbackBatch_cons.mpr ⟨hrx, base, hbase, hlast⟩, rfl⟩

private theorem processFeedbackBatch_accepted {feedbackBatch : List FeedbackItem} {mid : NadaController K}
    (hmid : Controller.processFeedbackBatch (processFeedback exp) nowUs s feedbackBatch = .ok (true, mid))
    (hvalid : mid.lastTimeCalcValid = true)
    (h : s.processFeedbackBatch exp nowUs feedbackBatch = .ok (true, s')) :
    if nadaParamDeltaUs / 2 ≤ nowUs - mid.lastTimeCalcUs then mid.updateRate exp nowUs = .ok s'
    else s' = mid := by
  simp only [processFeedbackBatch, hmid, ok_bind] at h
  rw [if_neg (by simp), if_neg (by simp [hvalid]), check_bind_eq_ok] at h
  split
  · rename_i hdue
    rw [if_neg (UInt64.not_lt.mpr hdue)] at h
    obtain ⟨next, hnext, he⟩ := bind_eq_ok.mp h.2
    cases he
    exact hnext
  · rename_i hdue
    rw [if_pos (UInt64.not_le.mp hdue)] at h
    cases h.2
    rfl

private theorem items_accepted {feedbackBatch : List FeedbackItem}
    (h : s.processFeedbackBatch exp nowUs feedbackBatch = .ok (true, s')) :
    ∃ mid, Controller.processFeedbackBatch (processFeedback exp) nowUs s feedbackBatch =
      .ok (true, mid) := by
  simp only [processFeedbackBatch, bind_eq_ok, Prod.exists] at h
  obtain ⟨ok, mid, hmid, h⟩ := h
  cases ok with
  | false => simp at h
  | true => exact ⟨mid, hmid⟩

end Items

private theorem half_le_of_le {t : UInt64} (h : nadaParamDeltaUs ≤ t) : nadaParamDeltaUs / 2 ≤ t :=
  UInt64.le_trans (by decide) h

private theorem quiet_batch {s s' : NadaController K} {nowUs : UInt64} {feedbackBatch : List FeedbackItem}
    (hvalid : s.lastTimeCalcValid = true) (hquiet : nowUs - s.lastTimeCalcUs < nadaParamDeltaUs)
    (hrun : s.processFeedbackBatch exp nowUs feedbackBatch = .ok (true, s')) :
    s.referenceBatch exp nowUs feedbackBatch = .ok (true, s') := by
  obtain ⟨mid, hmid⟩ := items_accepted hrun
  obtain ⟨base, hbase, rfl⟩ := items_quiet hvalid hquiet hmid
  have hafter := processFeedbackBatch_accepted hmid hvalid hrun
  simp only [referenceBatch, hbase, ok_bind, true_and]
  split
  · rename_i hdue
    rw [if_pos hdue] at hafter
    rw [hafter]
    rfl
  · rename_i hdue
    rw [if_neg hdue] at hafter
    rw [hafter]
    rfl

/-- After the interval, a batch of one item is the reference: its own calculation is the
only one, as no time passes before the batch function looks. -/
private theorem single_batch {s s' : NadaController K} {nowUs : UInt64} {item : FeedbackItem}
    (hvalid : s.lastTimeCalcValid = true) (hdue : nadaParamDeltaUs ≤ nowUs - s.lastTimeCalcUs)
    (hrun : s.processFeedbackBatch exp nowUs [item] = .ok (true, s')) :
    s.referenceBatch exp nowUs [item] = .ok (true, s') := by
  obtain ⟨mid, hmid⟩ := items_accepted hrun
  obtain ⟨hrx, next, hitem, hnil⟩ := processFeedbackBatch_cons.mp hmid
  cases hnil
  obtain ⟨base, hbase, hupdate⟩ := processFeedback_accepted hvalid hitem
  rw [if_pos hdue] at hupdate
  have hframe := updateRate_frame hupdate
  simp only [frame, Prod.mk.injEq] at hframe
  have hafter := processFeedbackBatch_accepted hmid (hframe.2.2.trans hvalid) hrun
  rw [hframe.2.1, UInt64.sub_self, if_neg (by decide)] at hafter
  subst hafter
  have hloop : Controller.processFeedbackBatch SenderBasedController.processFeedback nowUs s.base
      [item] = .ok (true, base) :=
    processFeedbackBatch_cons.mpr ⟨hrx, base, hbase, rfl⟩
  simp only [referenceBatch, hloop, ok_bind, true_and, half_le_of_le hdue, if_true, hupdate]
  rfl

/-- A batch has the outcome of the reference, with no calculation on a part of it, exactly
when the interval has not passed yet or there is only one item. -/
theorem batch_matches_reference_iff {s s' : NadaController K} {nowUs : UInt64}
    {feedbackBatch : List FeedbackItem} (hvalid : s.lastTimeCalcValid = true) (hne : feedbackBatch ≠ [])
    (hrun : s.processFeedbackBatch exp nowUs feedbackBatch = .ok (true, s')) :
    ((∃ ref, s.referenceBatch exp nowUs feedbackBatch = .ok (true, ref) ∧ SameOutcome s' ref) ∧
      s.NoPartialUpdate exp nowUs feedbackBatch) ↔
    (nowUs - s.lastTimeCalcUs < nadaParamDeltaUs ∨ feedbackBatch.length = 1) := by
  obtain ⟨mid, hmid⟩ := items_accepted hrun
  constructor
  · rintro ⟨-, hpartial⟩
    by_contra hnot
    obtain ⟨hdue, hlength⟩ := not_or.mp hnot
    match feedbackBatch, hne with
    | item :: after, _ =>
      refine hpartial [] item after s rfl ?_ rfl ⟨hvalid, UInt64.not_lt.mp hdue⟩
      rintro rfl
      exact hlength rfl
  · intro hcase
    by_cases hquiet : nowUs - s.lastTimeCalcUs < nadaParamDeltaUs
    · refine ⟨⟨s', quiet_batch hvalid hquiet hrun, SameOutcome.refl s'⟩, ?_⟩
      intro before item after other _ _ hother hdue
      obtain ⟨base, -, rfl⟩ := items_quiet hvalid hquiet hother
      exact UInt64.not_lt.mpr hdue.2 hquiet
    · obtain ⟨item, rfl⟩ := List.length_eq_one_iff.mp (hcase.resolve_left hquiet)
      refine ⟨⟨s', single_batch hvalid (UInt64.not_lt.mp hquiet) hrun, SameOutcome.refl s'⟩, ?_⟩
      intro before other after later hsplit hafter
      have hlength := congrArg List.length hsplit
      have hpos := List.length_pos_iff.mpr hafter
      simp only [List.length_append, List.length_cons, List.length_nil] at hlength
      omega

def sixSends : Checked (NadaController ℚ) :=
  run (fun s i => do return (← s.processSendPacket (10000 * UInt64.ofNat i) (UInt16.ofNat i) 1200).2)
    fresh [1, 2, 3, 4, 5, 6]

def sixItems : List FeedbackItem :=
  [1, 2, 3, 4, 5, 6].map fun i => ⟨UInt16.ofNat i, 50000 + 10000 * UInt64.ofNat i, 0⟩

/-- A report of five of them, 95 ms after the first send: the calculation is made after all items. -/
theorem batch_matches_reference_iff_five : ∃ s s', sixSends = .ok s ∧
    s.processFeedbackBatch (fun x => 1 + x) 105000 (sixItems.take 5) = .ok (true, s') ∧
    s'.lastTimeCalcUs = 105000 ∧ s'.recvR = 960000 ∧
    (∃ ref, s.referenceBatch (fun x => 1 + x) 105000 (sixItems.take 5) = .ok (true, ref) ∧ SameOutcome s' ref) ∧
      s.NoPartialUpdate (fun x => 1 + x) 105000 (sixItems.take 5) := by
  have hfacts : (sixSends >>= fun s => s.processFeedbackBatch (fun x => 1 + x) 105000 (sixItems.take 5) >>= fun r =>
      .ok (decide (s.lastTimeCalcValid = true ∧ 105000 - s.lastTimeCalcUs < nadaParamDeltaUs ∧ r.1 = true ∧
        r.2.lastTimeCalcUs = 105000 ∧ r.2.recvR = 960000))) = .ok true := by
    decide +kernel
  obtain ⟨s, hs, hfacts⟩ := bind_eq_ok.mp hfacts
  obtain ⟨⟨ok, s'⟩, hrun, hfacts⟩ := bind_eq_ok.mp hfacts
  obtain ⟨hvalid, hquiet, rfl, hlast, hrate⟩ := of_decide_eq_true (Except.ok.inj hfacts)
  exact ⟨s, s', hs, hrun, hlast, hrate,
    (batch_matches_reference_iff hvalid (List.cons_ne_nil _ _) hrun).mpr (.inl hquiet)⟩

/-- The first item of this batch starts the calculation, from a history of one packet. The
round-trip time is its alone, and there is no receiving rate to ramp up to. -/
theorem batch_of_six_differs :
    sixSends.map (fun s => (s.lastTimeCalcValid, s.lastTimeCalcUs)) = .ok (true, 10000) ∧
    (sixSends >>= fun s => s.processFeedbackBatch (fun x => 1 + x) 300000 sixItems).map
      (fun r => (r.1, r.2.rttUs, r.2.currBw)) = .ok (true, 290000, 150000) ∧
    (sixSends >>= fun s => s.referenceBatch (fun x => 1 + x) 300000 sixItems).map
      (fun r => (r.1, r.2.rttUs, r.2.currBw)) = .ok (true, 240000, 24480000 / 23) := by
  refine ⟨rfl, ?_, ?_⟩
  · decide +kernel
  · decide +kernel

end Ns3Rmcat.Controller.NadaController
