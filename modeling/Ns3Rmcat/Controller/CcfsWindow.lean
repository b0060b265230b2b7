import Ns3Rmcat.Controller.CcfsRun
import Ns3Rmcat.Lib.SlidingWindow

/-! The window of bitrate fractions: which periods it holds after each report, and when these
are the periods that began in the last 500 milliseconds. -/
namespace Ns3Rmcat.Controller
open Lib Header

namespace ParsedPeriod

/-- When the period began; the clock may have started later. -/
def beganMs (period : ParsedPeriod) : Int := period.endMs.toNat - (period.endMs - period.beginMs).toNat

def entry (period : ParsedPeriod) : BrFractionData :=
  ⟨period.beginMs.toUInt64, period.parsed.txedBytes, period.parsed.rxedBytes⟩

/-- The period began too long before some time. -/
def Stale (endMs : UInt32) (period : ParsedPeriod) : Prop := period.beganMs + 500 < endMs.toNat

instance (endMs : UInt32) (period : ParsedPeriod) : Decidable (Stale endMs period) :=
  inferInstanceAs (Decidable (_ < _))

/-- The test of the loop that removes entries. -/
def old (endMs : UInt32) (period : ParsedPeriod) : Bool :=
  period.entry.beginTimeMs + kCcfsBrFractionWindowTimeMs < endMs.toUInt64

private theorem old_iff {endMs : UInt32} {period : ParsedPeriod} (h : (period.endMs - period.beginMs).toNat ≤ 500) :
    period.old endMs = true ↔ period.Stale endMs ∧ period.endMs - period.beginMs ≤ period.endMs := by
  have hbegin := period.beginMs.toNat_lt
  have hend := period.endMs.toNat_lt
  have hlt := endMs.toNat_lt
  have hlength : (period.endMs - period.beginMs).toNat =
      (4294967296 - period.beginMs.toNat + period.endMs.toNat) % 4294967296 := UInt32.toNat_sub _ _
  have htest : period.old endMs = true ↔ period.beginMs.toNat + 500 < endMs.toNat := by
    rw [old, decide_eq_true_iff, UInt64.lt_iff_toNat_lt, UInt64.toNat_add, entry, UInt32.toNat_toUInt64,
      UInt32.toNat_toUInt64]
    simp only [kCcfsBrFractionWindowTimeMs, UInt64.reduceToNat]
    omega
  rw [htest, Stale, beganMs, UInt32.le_iff_toNat_le]
  omega

private theorem old_mono {earlier later : UInt32} (hle : earlier ≤ later) (period : ParsedPeriod)
    (h : period.old earlier = true) : period.old later = true := by
  rw [UInt32.le_iff_toNat_le] at hle
  rw [old, decide_eq_true_iff, UInt64.lt_iff_toNat_lt, UInt32.toNat_toUInt64] at h ⊢
  omega

end ParsedPeriod

open ParsedPeriod

def sumSent (periods : List ParsedPeriod) : UInt64 := (periods.map (·.parsed.txedBytes)).sum

def sumRcvd (periods : List ParsedPeriod) : UInt64 := (periods.map (·.parsed.rxedBytes)).sum

namespace CcfsController

private theorem evictBrFractions_eq (endMs : UInt32) (periods : List ParsedPeriod) :
    evictBrFractions endMs (periods.map entry) (sumSent periods) (sumRcvd periods) =
      ((periods.dropWhile (old endMs)).map entry, sumSent (periods.dropWhile (old endMs)),
        sumRcvd (periods.dropWhile (old endMs))) := by
  induction periods with
  | nil => rfl
  | cons period periods ih =>
    have hsent : sumSent (period :: periods) - period.entry.sentBytes = sumSent periods := by
      rw [sumSent, List.map_cons, List.sum_cons, UInt64.add_comm]
      exact UInt64.add_sub_cancel _ _
    have hrcvd : sumRcvd (period :: periods) - period.entry.rcvdBytes = sumRcvd periods := by
      rw [sumRcvd, List.map_cons, List.sum_cons, UInt64.add_comm]
      exact UInt64.add_sub_cancel _ _
    rw [List.map_cons, evictBrFractions, hsent, hrcvd]
    by_cases hold : period.old endMs = true
    · rw [if_pos (of_decide_eq_true hold), List.dropWhile_cons_of_pos hold, ih]
    · rw [if_neg (of_decide_eq_false (Bool.not_eq_true _ ▸ hold)), List.dropWhile_cons_of_neg hold]
      rfl

/-- The window holds the periods that are left when the old ones have been removed from the front. -/
structure HoldsFrom (s : CcfsController) (endMs : UInt32) (periods : List ParsedPeriod) : Prop where
  window : s.brFractionWindow = (periods.dropWhile (old endMs)).map entry
  sent : s.totSentBytes = sumSent (periods.dropWhile (old endMs))
  rcvd : s.totRcvdBytes = sumRcvd (periods.dropWhile (old endMs))

private theorem HoldsFrom.start {s s' : CcfsController} {feedback : RfbHeader} {period : ParsedPeriod} {endMs : UInt32}
    {periods : List ParsedPeriod} (hs : s.HoldsFrom endMs periods) (hle : endMs ≤ period.endMs)
    (hstart : s.startFeedback2 feedback = .ok (.ok period, s')) :
    s'.HoldsFrom period.endMs (periods ++ [period]) := by
  obtain ⟨-, -, hevict, -⟩ := startFeedback2_ok hstart
  have hentries : s.brFractionWindow ++ [period.entry] =
      (periods.dropWhile (old endMs) ++ [period]).map entry := by rw [hs.window, List.map_append]; rfl
  have hsent : s.totSentBytes + period.parsed.txedBytes = sumSent (periods.dropWhile (old endMs) ++ [period]) := by
    simp [hs.sent, sumSent]
  have hrcvd : s.totRcvdBytes + period.parsed.rxedBytes = sumRcvd (periods.dropWhile (old endMs) ++ [period]) := by
    simp [hs.rcvd, sumRcvd]
  rw [← entry, hentries, hsent, hrcvd, evictBrFractions_eq,
    dropWhile_dropWhile_append fun p => old_mono hle p] at hevict
  simp only [Prod.mk.injEq] at hevict
  exact ⟨hevict.1, hevict.2.1, hevict.2.2⟩

def periodsOf (s : CcfsController) : CcfsCall → List ParsedPeriod
  | .processSendPacket2 .. => []
  | .processFeedback2 _ feedback => match s.startFeedback2 feedback with
    | .ok (.ok period, _) => [period]
    | _ => []

private theorem step_periods {s s' : CcfsController} {rounds : Nat} {call : CcfsCall}
    (h : s.step rounds call = .ok s') :
    (s.periodsOf call = [] ∧ s'.brFractionWindow = s.brFractionWindow ∧ s'.totSentBytes = s.totSentBytes ∧
      s'.totRcvdBytes = s.totRcvdBytes) ∨
    ∃ nowUs feedback period s1, call = .processFeedback2 nowUs feedback ∧ s.periodsOf call = [period] ∧
      s.startFeedback2 feedback = .ok (.ok period, s1) ∧ s'.records = s1.records := by
  cases step_cases h with
  | send hbase => exact .inl ⟨rfl, rfl, rfl, rfl⟩
  | unused hunused =>
    obtain ⟨-, hwindow⟩ := startFeedback2_unused hunused
    exact .inl ⟨by rw [periodsOf, hunused], hwindow⟩
  | used hstart hcontrol =>
    exact .inr ⟨_, _, _, _, rfl, by rw [periodsOf, hstart], hstart, controlFeedback2_records hcontrol⟩

private theorem holdsFrom_run {s0 s : CcfsController} {rounds : Nat} {calls : List CcfsCall}
    (hrun : run (step rounds) s0.reset calls = .ok s)
    (hends : (observed (step rounds) periodsOf s0.reset calls).Pairwise fun p q => p.endMs ≤ q.endMs) :
    ∃ endMs, (endMs = 0 ∨ ∃ p ∈ observed (step rounds) periodsOf s0.reset calls, p.endMs = endMs) ∧
      s.HoldsFrom endMs (observed (step rounds) periodsOf s0.reset calls) := by
  revert hends
  refine run_induction (step rounds) (motive := fun calls s =>
    (observed (step rounds) periodsOf s0.reset calls).Pairwise (fun p q => p.endMs ≤ q.endMs) →
    ∃ endMs, (endMs = 0 ∨ ∃ p ∈ observed (step rounds) periodsOf s0.reset calls, p.endMs = endMs) ∧
      s.HoldsFrom endMs (observed (step rounds) periodsOf s0.reset calls)) ?_ ?_ hrun
  · exact fun _ => ⟨0, .inl rfl, rfl, rfl, rfl⟩
  · intro cs c mid s' hmid ih hstep hends
    rw [observed_snoc (step rounds) periodsOf hmid] at hends ⊢
    obtain ⟨hearlier, -, hlater⟩ := List.pairwise_append.mp hends
    obtain ⟨endMs, hendMs, hs⟩ := ih hearlier
    rcases step_periods hstep with ⟨hnone, hwindow, hsent, hrcvd⟩ | ⟨nowUs, feedback, period, s1, rfl, hone, hstart, hsame⟩
    · rw [hnone, List.append_nil]
      exact ⟨endMs, hendMs, hwindow.trans hs.window, hsent.trans hs.sent, hrcvd.trans hs.rcvd⟩
    · have hle : endMs ≤ period.endMs := by
        rcases hendMs with rfl | ⟨p, hp, rfl⟩
        · exact UInt32.zero_le
        · exact hlater p hp period (by simp [hone])
      have hs1 := hs.start hle hstart
      rw [hone]
      refine ⟨period.endMs, .inr ⟨period, by simp, rfl⟩, ?_, ?_, ?_⟩
      · exact (congrArg Records.brFractionWindow hsame).trans hs1.window
      · exact (congrArg Records.totSentBytes hsame).trans hs1.sent
      · exact (congrArg Records.totRcvdBytes hsame).trans hs1.rcvd

/-- A report is about no more than 500 milliseconds. -/
def MonitorsShortly : CcfsCall → Prop
  | .processSendPacket2 .. => True
  | .processFeedback2 _ feedback => feedback.monitoredMs ≤ 500

instance : DecidablePred MonitorsShortly := fun call => by
  cases call <;> unfold MonitorsShortly <;> infer_instance

private theorem monitored_observed {s0 s : CcfsController} {rounds : Nat} {calls : List CcfsCall}
    (hrun : run (step rounds) s0.reset calls = .ok s) (hmonitored : ∀ call ∈ calls, MonitorsShortly call) :
    ∀ p ∈ observed (step rounds) periodsOf s0.reset calls, (p.endMs - p.beginMs).toNat ≤ 500 := by
  revert hmonitored
  refine run_induction (step rounds) (motive := fun calls s =>
    (∀ call ∈ calls, MonitorsShortly call) →
    ∀ p ∈ observed (step rounds) periodsOf s0.reset calls, (p.endMs - p.beginMs).toNat ≤ 500) ?_ ?_ hrun
  · exact fun _ p hp => absurd hp List.not_mem_nil
  · intro cs c mid s' hmid ih hstep hmonitored p hp
    rw [observed_snoc (step rounds) periodsOf hmid, List.mem_append] at hp
    rcases hp with hp | hp
    · exact ih (fun call hmem => hmonitored call (List.mem_append_left _ hmem)) p hp
    · rcases step_periods hstep with ⟨hnone, -⟩ | ⟨nowUs, feedback, period, s1, rfl, hone, hstart, -⟩
      · rw [hnone] at hp
        cases hp
      · rw [hone, List.mem_singleton] at hp
        rw [hp, (startFeedback2_ok hstart).1, UInt16.toNat_toUInt32]
        exact UInt16.le_iff_toNat_le.mp (hmonitored (.processFeedback2 nowUs feedback) (by simp))

/-- The periods that began no more than 500 milliseconds before some time. -/
def recent (endMs : UInt32) (periods : List ParsedPeriod) : List ParsedPeriod :=
  periods.filter fun p => !decide (p.Stale endMs)

/-- After a report: the totals are those of the recent periods, no other period is in the
window, and the fraction that is returned is one of sent bytes. -/
structure WindowExact (s : CcfsController) (period : ParsedPeriod) (periods : List ParsedPeriod) : Prop where
  sent : s.totSentBytes = sumSent (recent period.endMs periods)
  rcvd : s.totRcvdBytes = sumRcvd (recent period.endMs periods)
  window : s.brFractionWindow = (recent period.endMs periods).map entry
  fraction : period.brFraction.sentBytes ≠ 0

/-- Stale periods did not begin before the clock's start, and were reported before all recent
ones; and in the recent ones something was sent. -/
structure WindowInOrder (endMs : UInt32) (periods : List ParsedPeriod) : Prop where
  started : ∀ p ∈ periods, p.Stale endMs → p.endMs - p.beginMs ≤ p.endMs
  first : periods.Pairwise fun p q => q.Stale endMs → p.Stale endMs
  sent : sumSent (recent endMs periods) ≠ 0

/-- After each report of a run the window of bitrate fractions is right exactly when the
periods are in order. -/
theorem window_exact_iff {s0 s s' : CcfsController} {rounds : Nat} {calls : List CcfsCall} {feedback : RfbHeader}
    {period : ParsedPeriod} (hrun : run (step rounds) s0.reset calls = .ok s)
    (hstart : s.startFeedback2 feedback = .ok (.ok period, s'))
    (hmonitored : ∀ call ∈ calls, MonitorsShortly call)
    (hlast : feedback.monitoredMs ≤ 500)
    (hends : (observed (step rounds) periodsOf s0.reset calls ++ [period]).Pairwise fun p q => p.endMs ≤ q.endMs) :
    WindowExact s' period (observed (step rounds) periodsOf s0.reset calls ++ [period]) ↔
      WindowInOrder period.endMs (observed (step rounds) periodsOf s0.reset calls ++ [period]) := by
  have hshort := monitored_observed hrun hmonitored
  generalize hperiods : observed (step rounds) periodsOf s0.reset calls = earlier at hends hshort ⊢
  obtain ⟨hearlier, -, hlater⟩ := List.pairwise_append.mp hends
  obtain ⟨endMs, hendMs, hs⟩ := holdsFrom_run hrun (hperiods ▸ hearlier)
  rw [hperiods] at hs hendMs
  have hle : endMs ≤ period.endMs := by
    rcases hendMs with rfl | ⟨p, hp, rfl⟩
    · exact UInt32.zero_le
    · exact hlater p hp period (by simp)
  have hs' := hs.start hle hstart
  obtain ⟨hlength, -, -, hfraction⟩ := startFeedback2_ok hstart
  have hall : ∀ p ∈ earlier ++ [period], (p.endMs - p.beginMs).toNat ≤ 500 := by
    intro p hp
    rcases List.mem_append.mp hp with hp | hp
    · exact hshort p hp
    · rw [List.mem_singleton.mp hp, hlength, UInt16.toNat_toUInt32]
      exact UInt16.le_iff_toNat_le.mp hlast
  have hstale : ∀ p ∈ earlier ++ [period], p.old period.endMs = true → decide (p.Stale period.endMs) = true :=
    fun p hp hold => decide_eq_true ((old_iff (hall p hp)).mp hold).1
  have hiff := dropWhile_eq_filter_iff hstale
  constructor
  · intro hexact
    have hlen := congrArg List.length (hs'.window.symm.trans hexact.window)
    rw [List.length_map, List.length_map] at hlen
    obtain ⟨hstarted, hfirst⟩ := hiff.mp (dropWhile_eq_filter_of_length hstale hlen)
    refine ⟨fun p hp hp' => ((old_iff (hall p hp)).mp (hstarted p hp (decide_eq_true hp'))).2, ?_, ?_⟩
    · exact hfirst.imp fun himp hq => of_decide_eq_true (himp (decide_eq_true hq))
    · rw [← hexact.sent]
      exact fun hzero => hexact.fraction (by rw [hfraction]; exact hzero)
  · intro horder
    have hkept := hiff.mpr ⟨fun p hp hp' => (old_iff (hall p hp)).mpr
      ⟨of_decide_eq_true hp', horder.started p hp (of_decide_eq_true hp')⟩,
      horder.first.imp fun himp hq => decide_eq_true (himp (of_decide_eq_true hq))⟩
    rw [← recent] at hkept
    refine ⟨by rw [hs'.sent, hkept], by rw [hs'.rcvd, hkept], by rw [hs'.window, hkept], ?_⟩
    rw [hfraction]
    intro hzero
    refine horder.sent ?_
    rw [← hkept, ← hs'.sent]
    exact hzero

/-- A packet a second after the first one, and the report of each. -/
def apart : List CcfsCall :=
  [.processSendPacket2 7 1000000 1 1000, .processFeedback2 1040000 (reportOf [(7, 1, 1010)] 1030),
    .processSendPacket2 7 2000000 2 1000]

theorem window_exact_iff_apart :
    ∃ s s' period, run (step 1) constructed.reset apart = .ok s ∧
      s.startFeedback2 (reportOf [(7, 2, 2010)] 2030) = .ok (.ok period, s') ∧
      WindowExact s' period (observed (step 1) periodsOf constructed.reset apart ++ [period]) := by
  have hfacts : (run (step 1) constructed.reset apart >>= fun s =>
      s.startFeedback2 (reportOf [(7, 2, 2010)] 2030)).map (fun r => r.1.toOption.map fun period => decide (
        (observed (step 1) periodsOf constructed.reset apart ++ [period]).Pairwise (fun p q => p.endMs ≤ q.endMs) ∧
        (∀ p ∈ observed (step 1) periodsOf constructed.reset apart ++ [period],
          p.Stale period.endMs → p.endMs - p.beginMs ≤ p.endMs) ∧
        (observed (step 1) periodsOf constructed.reset apart ++ [period]).Pairwise
          (fun p q => q.Stale period.endMs → p.Stale period.endMs) ∧
        sumSent (recent period.endMs (observed (step 1) periodsOf constructed.reset apart ++ [period])) ≠ 0)) =
      .ok (some true) := by
    decide +kernel
  obtain ⟨⟨result, s'⟩, hresult, hdecided⟩ := map_eq_ok.mp hfacts
  obtain ⟨s, hrun, hstart⟩ := bind_eq_ok.mp hresult
  cases result with
  | error r => cases hdecided
  | ok period =>
    obtain ⟨hends, hstarted, hfirst, hsent⟩ := of_decide_eq_true (Option.some.inj hdecided)
    exact ⟨s, s', period, hrun, hstart, (window_exact_iff hrun hstart (by decide) (by decide) hends).mpr
      ⟨hstarted, hfirst, hsent⟩⟩

/-- A report within the first 100 milliseconds, and one a second later. -/
def early : List CcfsCall :=
  [.processSendPacket2 7 10000 1 1000, .processFeedback2 70000 (reportOf [(7, 1, 30)] 60),
    .processSendPacket2 7 1000000 2 1000]

/-- The first period began before the clock's start. Its begin wraps, so that it is never removed:
its bytes are counted as received a second later, when twice as many arrived as were sent. -/
theorem window_keeps_first_period :
    ∃ s s' period, run (step 1) constructed.reset early = .ok s ∧ (∀ call ∈ early, MonitorsShortly call) ∧
      s.startFeedback2 (reportOf [(7, 2, 1020)] 1040) = .ok (.ok period, s') ∧
      (observed (step 1) periodsOf constructed.reset early ++ [period]).Pairwise (fun p q => p.endMs ≤ q.endMs) ∧
      period.brFraction = ⟨2000, 1000⟩ ∧
      ¬ WindowExact s' period (observed (step 1) periodsOf constructed.reset early ++ [period]) := by
  have hfacts : (run (step 1) constructed.reset early >>= fun s =>
      s.startFeedback2 (reportOf [(7, 2, 1020)] 1040)).map (fun r => r.1.toOption.map fun period => decide (
        (observed (step 1) periodsOf constructed.reset early ++ [period]).Pairwise (fun p q => p.endMs ≤ q.endMs) ∧
        period.brFraction = ⟨2000, 1000⟩ ∧ r.2.totRcvdBytes ≠
          sumRcvd (recent period.endMs (observed (step 1) periodsOf constructed.reset early ++ [period])))) =
      .ok (some true) := by
    decide +kernel
  obtain ⟨⟨result, s'⟩, hresult, hdecided⟩ := map_eq_ok.mp hfacts
  obtain ⟨s, hrun, hstart⟩ := bind_eq_ok.mp hresult
  cases result with
  | error r => cases hdecided
  | ok period =>
    obtain ⟨hends, hfraction, hrcvd⟩ := of_decide_eq_true (Option.some.inj hdecided)
    exact ⟨s, s', period, hrun, by decide, hstart, hends, hfraction, fun hexact => hrcvd hexact.rcvd⟩

end CcfsController

end Ns3Rmcat.Controller
