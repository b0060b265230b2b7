import Ns3Rmcat.Controller.CcfsRun

/-! The loop over the bandwidth of the virtual queue: with a higher bandwidth the packets take
less time, but not less than none. The loop ends exactly when that is little enough. -/
namespace Ns3Rmcat.Controller
open Lib Header

theorem toInt_toInt64 (x : UInt64) :
    x.toInt64.toInt = if 2 * x.toNat < 2 ^ 64 then (x.toNat : Int) else x.toNat - 2 ^ 64 :=
  BitVec.toInt_eq_toNat_cond x.toBitVec

private theorem toInt_toInt64_of_lt {x : UInt64} (h : x.toNat < 2 ^ 63) : x.toInt64.toInt = x.toNat := by
  rw [toInt_toInt64, if_pos (by omega)]

theorem toNat_ofInt (i : Int) : (UInt64.ofInt i).toNat = (i % 2 ^ 64).toNat := by
  rw [UInt64.ofInt, UInt64.toNat_ofNat']
  omega

private theorem truncate_eq_floor {x : ℚ} (h : 0 ≤ x) : truncate x = ⌊x⌋ := by
  rw [truncate, Int.tdiv_eq_ediv_of_nonneg (Rat.num_nonneg.mpr h), ← Rat.floor_def]
  rfl

namespace CcfsController

theorem transmissionUs_eq {fwdbw : ℚ} (h : 0 ≤ fwdbw) (size : UInt32) :
    transmissionUs fwdbw size = ⌊(1000000 * size.toNat / fwdbw : ℚ)⌋ :=
  truncate_eq_floor (by positivity)

theorem transmissionUs_nonneg {fwdbw : ℚ} (h : 0 ≤ fwdbw) (size : UInt32) : 0 ≤ transmissionUs fwdbw size := by
  rw [transmissionUs_eq h]
  exact Int.floor_nonneg.mpr (by positivity)

/-- With a higher bandwidth a packet takes no more time. -/
theorem transmissionUs_anti {low high : ℚ} (hlow : 0 < low) (hle : low ≤ high) (size : UInt32) :
    transmissionUs high size ≤ transmissionUs low size := by
  rw [transmissionUs_eq (hlow.le.trans hle), transmissionUs_eq hlow.le]
  exact Int.floor_mono (div_le_div_of_nonneg_left (by positivity) hlow hle)

private theorem transmissionUs_high {fwdbw : ℚ} (h : 1000000 * 2 ^ 32 ≤ fwdbw) : transmissionUs fwdbw = fun _ => 0 := by
  funext size
  have hpos : 0 < fwdbw := lt_of_lt_of_le (by norm_num) h
  have hsize : (size.toNat : ℚ) < 2 ^ 32 := by exact_mod_cast size.toNat_lt
  rw [transmissionUs_eq hpos.le, Int.floor_eq_zero_iff, Set.mem_Ico, div_lt_one hpos]
  exact ⟨by positivity, lt_of_lt_of_le (by linarith) h⟩

def waitUs (preQdt currSt : UInt64) : Int := if currSt < preQdt then (preQdt - currSt).toInt64.toInt else 0

theorem serveQueue_cons (t : UInt32 → Int) (packet : QDelayData) (vq : List QDelayData) (preQdt st : UInt64)
    (qpt : Int) (delays : List Int) :
    serveQueue t (packet :: vq) preQdt st qpt delays =
      serveQueue t vq (packet.localSentUs + UInt64.ofInt (t packet.pktSize + waitUs preQdt packet.localSentUs))
        packet.localSentUs (t packet.pktSize + waitUs preQdt packet.localSentUs)
        (delays ++ [(t packet.pktSize + waitUs preQdt packet.localSentUs).tdiv 1000]) := by
  rw [serveQueue, waitUs]
  split <;> simp

theorem waitUs_eq (preQdt currSt : UInt64) : waitUs preQdt currSt = (max preQdt currSt - currSt).toInt64.toInt := by
  have hmax : max preQdt currSt = if preQdt ≤ currSt then currSt else preQdt := rfl
  rw [waitUs, hmax]
  by_cases h : currSt < preQdt
  · rw [if_pos h, if_neg (UInt64.not_le.mpr h)]
  · rw [if_neg h, if_pos (UInt64.not_lt.mp h), UInt64.sub_self]
    rfl

private theorem toNat_leave (preQdt currSt : UInt64) {t : Int} (ht : 0 ≤ t)
    (hlt : (max preQdt currSt).toNat + t < 2 ^ 64) :
    ((currSt + UInt64.ofInt (t + waitUs preQdt currSt)).toNat : Int) = (max preQdt currSt).toNat + t := by
  have hsub : (max preQdt currSt - currSt).toNat = (max preQdt currSt).toNat - currSt.toNat :=
    UInt64.toNat_sub_of_le _ _ (UInt64.le_iff_toNat_le.mpr (by rw [toNat_max]; omega))
  have hle : currSt.toNat ≤ (max preQdt currSt).toNat := by rw [toNat_max]; omega
  rw [waitUs_eq, UInt64.toNat_add, toNat_ofInt, toInt_toInt64, hsub]
  split <;> omega

def latestUs (qdt : UInt64) (vq : List QDelayData) : UInt64 :=
  vq.foldl (fun latest packet => max latest packet.localSentUs) qdt

/-- How much later than the last packet was sent the queue would be empty, if no packet took any time. -/
def backlogUs (qdt : UInt64) (vq : List QDelayData) : Int :=
  match vq.getLast? with
  | none => 0
  | some last => (latestUs qdt vq - last.localSentUs).toInt64.toInt

private theorem latestUs_cons (qdt : UInt64) (packet : QDelayData) (vq : List QDelayData) :
    latestUs qdt (packet :: vq) = latestUs (max qdt packet.localSentUs) vq := rfl

private theorem backlogUs_cons_cons (qdt : UInt64) (packet next : QDelayData) (vq : List QDelayData) :
    backlogUs qdt (packet :: next :: vq) = backlogUs (max qdt packet.localSentUs) (next :: vq) := rfl

private theorem latestUs_le {qdt later : UInt64} {d : Nat} (h : later.toNat ≤ qdt.toNat + d) (vq : List QDelayData) :
    (latestUs later vq).toNat ≤ (latestUs qdt vq).toNat + d := by
  induction vq generalizing qdt later with
  | nil => exact h
  | cons packet vq ih =>
    rw [latestUs_cons, latestUs_cons]
    refine ih ?_
    rw [toNat_max, toNat_max]
    omega

private theorem le_latestUs (qdt : UInt64) (vq : List QDelayData) : qdt.toNat ≤ (latestUs qdt vq).toNat := by
  induction vq generalizing qdt with
  | nil => exact le_refl _
  | cons packet vq ih =>
    rw [latestUs_cons]
    refine le_trans ?_ (ih _)
    rw [toNat_max]
    omega

private theorem last_le_latestUs (qdt : UInt64) {vq : List QDelayData} {last : QDelayData}
    (h : vq.getLast? = some last) :
    last.localSentUs.toNat ≤ (latestUs qdt vq).toNat := by
  induction vq generalizing qdt with
  | nil => cases h
  | cons packet vq ih =>
    rw [latestUs_cons]
    cases vq with
    | nil =>
      rw [List.getLast?_singleton, Option.some.injEq] at h
      rw [← h, latestUs, List.foldl_nil, toNat_max]
      omega
    | cons next vq => exact ih _ h

private theorem backlogUs_mono {qdt later : UInt64} {vq : List QDelayData} (hle : qdt.toNat ≤ later.toNat)
    (hlt : (latestUs later vq).toNat < 2 ^ 63) : backlogUs qdt vq ≤ backlogUs later vq := by
  unfold backlogUs
  cases hlast : vq.getLast? with
  | none => exact le_refl _
  | some last =>
    have hlatest := latestUs_le (d := 0) hle vq
    have h1 := last_le_latestUs qdt hlast
    have h2 := last_le_latestUs later hlast
    have hsub1 := UInt64.toNat_sub_of_le _ _ (UInt64.le_iff_toNat_le.mpr h1)
    have hsub2 := UInt64.toNat_sub_of_le _ _ (UInt64.le_iff_toNat_le.mpr h2)
    dsimp only
    rw [toInt_toInt64_of_lt (by omega), toInt_toInt64_of_lt (by omega)]
    omega

private theorem serveQueue_zero (packet : QDelayData) (vq : List QDelayData) (preQdt st : UInt64) (qpt : Int)
    (delays : List Int) :
    (serveQueue (fun _ => 0) (packet :: vq) preQdt st qpt delays).2.1 = backlogUs preQdt (packet :: vq) := by
  induction vq generalizing packet preQdt st qpt delays with
  | nil =>
    rw [serveQueue_cons, serveQueue, Int.zero_add, waitUs_eq]
    rfl
  | cons next vq ih =>
    have hleave : packet.localSentUs + UInt64.ofInt (0 + waitUs preQdt packet.localSentUs) =
        max preQdt packet.localSentUs := by
      have hlt := (max preQdt packet.localSentUs).toNat_lt
      have hnat := toNat_leave preQdt packet.localSentUs (le_refl 0) (by omega)
      exact UInt64.toNat_inj.mp (by omega)
    rw [serveQueue_cons, hleave, ih, backlogUs_cons_cons]

private theorem backlogUs_le_serveQueue {t : UInt32 → Int} (ht : ∀ size, 0 ≤ t size) (packet : QDelayData)
    (vq : List QDelayData) (preQdt st : UInt64) (qpt : Int) (delays : List Int)
    (hlt : (latestUs preQdt (packet :: vq)).toNat + ((packet :: vq).map fun p => t p.pktSize).sum < 2 ^ 63) :
    backlogUs preQdt (packet :: vq) ≤ (serveQueue t (packet :: vq) preQdt st qpt delays).2.1 := by
  induction vq generalizing packet preQdt st qpt delays with
  | nil =>
    have hnonneg := ht packet.pktSize
    rw [serveQueue_cons, serveQueue, waitUs_eq]
    exact Int.le_add_of_nonneg_left hnonneg
  | cons next vq ih =>
    have hnonneg := ht packet.pktSize
    have hsum : 0 ≤ ((next :: vq).map fun p => t p.pktSize).sum :=
      List.sum_nonneg fun i hi => by
        obtain ⟨p, -, rfl⟩ := List.mem_map.mp hi
        exact ht p.pktSize
    rw [List.map_cons, List.sum_cons, latestUs_cons] at hlt
    have hle := le_latestUs (max preQdt packet.localSentUs) (next :: vq)
    have hleave := toNat_leave preQdt packet.localSentUs hnonneg (by omega)
    have hlater : (packet.localSentUs + UInt64.ofInt (t packet.pktSize + waitUs preQdt packet.localSentUs)).toNat ≤
        (max preQdt packet.localSentUs).toNat + (t packet.pktSize).toNat := by omega
    have hlatest := latestUs_le hlater (next :: vq)
    rw [serveQueue_cons, backlogUs_cons_cons]
    exact le_trans (backlogUs_mono (by omega) (by omega)) (ih next _ _ _ _ (by omega))

private theorem exits_iff {qdelay : Int} (hqdelay : 0 ≤ qdelay) (qpt : Int) :
    ¬ qdelay < (xqptUs qpt).tdiv 1000 ↔ qpt < 1000 * qdelay + 21000 := by
  have hbase : kCcfsVqBaseDelayUs = 20000 := rfl
  rw [xqptUs, hbase]
  by_cases hlong : 20000 < qpt
  · rw [if_pos hlong, Int.tdiv_eq_ediv_of_nonneg (by omega)]
    omega
  · rw [if_neg hlong, Int.zero_tdiv]
    omega

private theorem compensateBw_returns_iff (s : CcfsController) (vq : List QDelayData) (qdelay : Int) (fwdbw : ℚ) :
    (∃ rounds, Returns (s.compensateBw vq qdelay rounds fwdbw)) ↔
      ∃ k : Nat, ¬ qdelay < (xqptUs (s.calcIVQDelay vq (fwdbw + 12500 * k)).2.1).tdiv 1000 := by
  constructor
  · rintro ⟨rounds, hreturns⟩
    induction rounds generalizing fwdbw with
    | zero => exact absurd hreturns (not_returns_error _)
    | succ rounds ih =>
      rw [compensateBw] at hreturns
      by_cases hmore : qdelay < (xqptUs (s.calcIVQDelay vq fwdbw).2.1).tdiv 1000
      · obtain ⟨k, hk⟩ := ih (fwdbw + 12500) (by simpa [hmore] using hreturns)
        refine ⟨k + 1, ?_⟩
        rw [show fwdbw + 12500 * ((k + 1 : Nat) : ℚ) = fwdbw + 12500 + 12500 * k by push_cast; ring]
        exact hk
      · exact ⟨0, by simpa using hmore⟩
  · rintro ⟨k, hk⟩
    induction k generalizing fwdbw with
    | zero =>
      refine ⟨1, ?_⟩
      rw [compensateBw]
      dsimp only
      rw [if_neg (by simpa using hk)]
      exact returns_ok _
    | succ k ih =>
      rw [show fwdbw + 12500 * ((k + 1 : Nat) : ℚ) = fwdbw + 12500 + 12500 * k by push_cast; ring] at hk
      obtain ⟨rounds, hreturns⟩ := ih (fwdbw + 12500) hk
      by_cases hmore : qdelay < (xqptUs (s.calcIVQDelay vq fwdbw).2.1).tdiv 1000
      · refine ⟨rounds + 1, ?_⟩
        rw [compensateBw]
        dsimp only
        rw [if_pos hmore]
        exact hreturns
      · refine ⟨1, ?_⟩
        rw [compensateBw]
        dsimp only
        rw [if_neg hmore]
        exact returns_ok _

/-- All times in the virtual queue, at the bandwidth that the loop starts with, are 64-bit numbers. -/
def FitsInt64 (s : CcfsController) (vq : List QDelayData) (fwdbw : ℚ) : Prop :=
  (latestUs s.carriedQdt vq).toNat + (vq.map fun p => transmissionUs fwdbw p.pktSize).sum < 2 ^ 63

private theorem compensateBw_returns {s : CcfsController} {vq : List QDelayData} {qdelay : Int} (hqdelay : 0 ≤ qdelay)
    (hbacklog : backlogUs s.carriedQdt vq < 1000 * qdelay + 21000) (fwdbw : ℚ) :
    ∃ rounds, Returns (s.compensateBw vq qdelay rounds fwdbw) := by
  obtain ⟨k, hk⟩ := exists_nat_gt ((1000000 * 2 ^ 32 - fwdbw) / 12500)
  rw [div_lt_iff₀ (by norm_num)] at hk
  refine (compensateBw_returns_iff s vq qdelay fwdbw).mpr ⟨k, ?_⟩
  rw [exits_iff hqdelay, calcIVQDelay, transmissionUs_high (by linarith)]
  cases vq with
  | nil =>
    rw [serveQueue]
    dsimp only
    omega
  | cons packet vq =>
    rw [serveQueue_zero]
    exact hbacklog

private theorem backlogUs_of_compensateBw {s : CcfsController} {vq : List QDelayData} {qdelay : Int}
    (hqdelay : 0 ≤ qdelay) {fwdbw : ℚ} (hfwdbw : 0 < fwdbw) (hfits : s.FitsInt64 vq fwdbw)
    (hreturns : ∃ rounds, Returns (s.compensateBw vq qdelay rounds fwdbw)) :
    backlogUs s.carriedQdt vq < 1000 * qdelay + 21000 := by
  obtain ⟨k, hk⟩ := (compensateBw_returns_iff s vq qdelay fwdbw).mp hreturns
  rw [exits_iff hqdelay, calcIVQDelay] at hk
  cases vq with
  | nil =>
    rw [backlogUs, List.getLast?_nil]
    dsimp only
    omega
  | cons packet vq =>
    have hle : fwdbw ≤ fwdbw + 12500 * k := by
      have hnonneg : (0 : ℚ) ≤ 12500 * k := by positivity
      linarith
    have hsum : ((packet :: vq).map fun p => transmissionUs (fwdbw + 12500 * k) p.pktSize).sum ≤
        ((packet :: vq).map fun p => transmissionUs fwdbw p.pktSize).sum :=
      List.sum_le_sum fun p _ => transmissionUs_anti hfwdbw hle p.pktSize
    refine lt_of_le_of_lt (backlogUs_le_serveQueue (fun size => ?_) packet vq _ _ _ _ ?_) hk
    · exact transmissionUs_nonneg (hfwdbw.le.trans hle) size
    · exact lt_of_le_of_lt (Int.add_le_add_left hsum _) hfits

/-- The estimate of the bandwidth that a report leads to, before the virtual queue is looked at. -/
def newFwdBw (s : CcfsController) (period : ParsedPeriod) : ℚ :=
  (s.estiFwdBwPre period.parsed (period.endMs - period.beginMs).toInt32.toInt).2.estFwdBwBps

def newQDelay (s : CcfsController) (period : ParsedPeriod) : Int :=
  (s.measureQDelay period.endMs period.parsed.vq).1.latestQDelay

theorem estiFwdBwPre_estimates (s : CcfsController) (parsed : ParsedFBData) (periodMs : Int) :
    (s.estiFwdBwPre parsed periodMs).2.estimates =
      { s.estimates with estFwdBwBps := (s.estiFwdBwPre parsed periodMs).2.estFwdBwBps } := by
  rw [estiFwdBwPre, setFwdBw]
  dsimp only
  split
  · split <;> rfl
  · rfl

theorem estiFwdBwPre_congr {s s' : CcfsController} (h : s'.estimates = s.estimates) (parsed : ParsedFBData)
    (periodMs : Int) :
    (s'.estiFwdBwPre parsed periodMs).2.estFwdBwBps = (s.estiFwdBwPre parsed periodMs).2.estFwdBwBps := by
  have hbase : s'.base = s.base := congrArg Estimates.base h
  have hest : s'.estFwdBwBps = s.estFwdBwBps := congrArg Estimates.estFwdBwBps h
  have hstatus : s'.status = s.status := congrArg Estimates.status h
  have htarget : s'.targetSendBps = s.targetSendBps := congrArg Estimates.targetSendBps h
  unfold estiFwdBwPre setFwdBw
  dsimp only
  rw [hbase, hest, hstatus, htarget]
  split
  · split <;> rfl
  · exact hest

/-- The queuing delay is measured from the estimates, and the bandwidth and the virtual queue are left alone. -/
theorem measureQDelay_congr {s s' : CcfsController} (hwindow : s'.qdelayWindow = s.qdelayWindow)
    (hmin : s'.minQDelay = s.minQDelay) (hsize : s'.minQPktSize = s.minQPktSize) (periodEndMs : UInt32)
    (vq : List QDelayData) :
    (s'.measureQDelay periodEndMs vq).1 = (s.measureQDelay periodEndMs vq).1 ∧
      (s'.measureQDelay periodEndMs vq).2.estFwdBwBps = s'.estFwdBwBps ∧
      (s'.measureQDelay periodEndMs vq).2.carriedQdt = s'.carriedQdt := by
  unfold measureQDelay
  dsimp only
  rw [hwindow, hmin, hsize]
  split <;> exact ⟨rfl, rfl, rfl⟩

private theorem processFeedback2_returns {s s1 : CcfsController} {feedback : RfbHeader} {period : ParsedPeriod}
    (hstart : s.startFeedback2 feedback = .ok (.ok period, s1)) :
    ∃ s2 : CcfsController, s2.estFwdBwBps = s.newFwdBw period ∧ s2.carriedQdt = s.carriedQdt ∧
      ∀ (rounds : Nat) (nowUs : UInt64), Returns (s.processFeedback2 rounds nowUs feedback) ↔
        Returns (s2.updateInternalVQDelay rounds period.parsed.vq (s.newQDelay period)) := by
  obtain ⟨-, hsame, -⟩ := startFeedback2_ok hstart
  have hsame' : ({ s1 with lossRate := 0, ecnRate := 0 } : CcfsController).estimates = s.estimates := hsame
  have hpre := ({ s1 with lossRate := 0, ecnRate := 0 } : CcfsController).estiFwdBwPre_estimates period.parsed
    (period.endMs - period.beginMs).toInt32.toInt
  rw [estiFwdBwPre_congr hsame', hsame'] at hpre
  generalize hs2 : (({ s1 with lossRate := 0, ecnRate := 0 } : CcfsController).estiFwdBwPre period.parsed
    (period.endMs - period.beginMs).toInt32.toInt).2 = s2 at hpre
  have hlast : s2.lastQDelay = s.lastQDelay := congrArg Estimates.lastQDelay hpre
  have hst : s2.ivqStUs = s.ivqStUs := congrArg Estimates.ivqStUs hpre
  obtain ⟨hqdelay, hest, hcarried⟩ := measureQDelay_congr (congrArg Estimates.qdelayWindow hpre)
    (congrArg Estimates.minQDelay hpre) (congrArg Estimates.minQPktSize hpre) period.endMs period.parsed.vq
  refine ⟨(s2.measureQDelay period.endMs period.parsed.vq).2, hest.trans (congrArg Estimates.estFwdBwBps hpre),
    hcarried.trans (by rw [carriedQdt, carriedQdt, hlast, hst]), fun rounds nowUs => ?_⟩
  rw [processFeedback2, hstart, ok_bind]
  dsimp only
  rw [controlFeedback2]
  dsimp only
  rw [hs2, newQDelay, ← hqdelay]
  -- Nothing stops after the loop.
  exact returns_bind_ok.trans (returns_bind_ok.trans returns_bind_ok)

private theorem newFwdBw_nonneg {s s1 : CcfsController} {feedback : RfbHeader} {period : ParsedPeriod}
    (hbw : 0 < s.estFwdBwBps) (hmax : 0 < s.base.maxBw)
    (hstart : s.startFeedback2 feedback = .ok (.ok period, s1)) : 0 ≤ s.newFwdBw period := by
  have hlength := startFeedback2_periodMs hstart
  exact estiFwdBwPre_nonneg hmax.le hbw.le period.parsed (by omega)

/-- The condition under which the loop ends: there is no bandwidth to start with, or the delay that
was carried over, and the send times, are not too far ahead of the packet that is last. -/
def Drains (s : CcfsController) (period : ParsedPeriod) : Prop :=
  s.newFwdBw period = 0 ∨ backlogUs s.carriedQdt period.parsed.vq < 1000 * s.newQDelay period + 21000

instance (s : CcfsController) (vq : List QDelayData) (fwdbw : ℚ) : Decidable (s.FitsInt64 vq fwdbw) :=
  inferInstanceAs (Decidable (_ < _))

instance (s : CcfsController) (period : ParsedPeriod) : Decidable (s.Drains period) :=
  inferInstanceAs (Decidable (_ ∨ _))

private theorem returns_of_drains {s s1 : CcfsController} {feedback : RfbHeader} {period : ParsedPeriod}
    (hstart : s.startFeedback2 feedback = .ok (.ok period, s1)) (hqdelay : 0 < s.newQDelay period)
    (hdrains : s.Drains period) (nowUs : UInt64) : ∃ rounds, Returns (s.processFeedback2 rounds nowUs feedback) := by
  obtain ⟨s2, hest, hcarried, hreturns⟩ := processFeedback2_returns hstart
  rcases hdrains with hzero | hbacklog
  · refine ⟨0, (hreturns 0 nowUs).mpr ?_⟩
    rw [updateInternalVQDelay, if_pos (hest.trans hzero)]
    exact returns_ok _
  · rw [← hcarried] at hbacklog
    by_cases hzero : s2.estFwdBwBps = 0
    · refine ⟨0, (hreturns 0 nowUs).mpr ?_⟩
      rw [updateInternalVQDelay, if_pos hzero]
      exact returns_ok _
    · obtain ⟨rounds, hloop⟩ := compensateBw_returns hqdelay.le hbacklog (s2.estFwdBwBps / (1 - kCcfsFwdBwdRoom))
      refine ⟨rounds, (hreturns rounds nowUs).mpr ?_⟩
      rw [updateInternalVQDelay, if_neg hzero]
      dsimp only
      rw [if_neg hqdelay.ne']
      exact hloop

private theorem drains_of_returns {s s1 : CcfsController} {feedback : RfbHeader} {period : ParsedPeriod}
    (hstart : s.startFeedback2 feedback = .ok (.ok period, s1)) (hqdelay : 0 < s.newQDelay period)
    (hbw : 0 ≤ s.newFwdBw period)
    (hfits : s.FitsInt64 period.parsed.vq (s.newFwdBw period / (1 - kCcfsFwdBwdRoom))) {nowUs : UInt64}
    (h : ∃ rounds, Returns (s.processFeedback2 rounds nowUs feedback)) : s.Drains period := by
  obtain ⟨s2, hest, hcarried, hreturns⟩ := processFeedback2_returns hstart
  obtain ⟨rounds, h⟩ := h
  have hloop := (hreturns rounds nowUs).mp h
  by_cases hzero : s.newFwdBw period = 0
  · exact .inl hzero
  · have hpos : 0 < s.newFwdBw period := lt_of_le_of_ne hbw (Ne.symm hzero)
    rw [updateInternalVQDelay, if_neg (by rw [hest]; exact hzero)] at hloop
    dsimp only at hloop
    rw [if_neg hqdelay.ne', hest] at hloop
    have hfits' : s2.FitsInt64 period.parsed.vq (s.newFwdBw period / (1 - kCcfsFwdBwdRoom)) := by
      rw [FitsInt64, hcarried]
      exact hfits
    have hbacklog := backlogUs_of_compensateBw hqdelay.le (div_pos hpos (by norm_num [kCcfsFwdBwdRoom])) hfits'
      ⟨rounds, hloop⟩
    rw [hcarried] at hbacklog
    exact .inr hbacklog

/-- In any state with a bandwidth that calls reach, a report with a queuing delay returns when its
packets drain, and, as long as all times are 64-bit numbers, only then. -/
theorem processFeedback2_ends_iff {s0 s s1 : CcfsController} {rounds : Nat} {calls : List CcfsCall}
    {feedback : RfbHeader} {period : ParsedPeriod} (hrun : run (step rounds) s0.reset calls = .ok s)
    (hbw : 0 < s.estFwdBwBps) (hstart : s.startFeedback2 feedback = .ok (.ok period, s1))
    (hqdelay : 0 < s.newQDelay period) (nowUs : UInt64) :
    (s.Drains period → ∃ n, Returns (s.processFeedback2 n nowUs feedback)) ∧
      (s.FitsInt64 period.parsed.vq (s.newFwdBw period / (1 - kCcfsFwdBwdRoom)) →
        ((∃ n, Returns (s.processFeedback2 n nowUs feedback)) ↔ s.Drains period)) := by
  have hmax : 0 < s.base.maxBw := by
    rw [(bounds_run hrun).2]
    norm_num
  have hdrained := fun hdrains => returns_of_drains hstart hqdelay hdrains nowUs
  exact ⟨hdrained, fun hfits => ⟨drains_of_returns hstart hqdelay (newFwdBw_nonneg hbw hmax hstart) hfits, hdrained⟩⟩

/-- Two packets that arrive 50 milliseconds after they were sent, faster than the target rate. -/
def started : List CcfsCall :=
  [.processSendPacket2 7 1000000 1 1000, .processSendPacket2 7 1010000 2 1000,
    .processFeedback2 1100000 (reportOf [(7, 1, 1050), (7, 2, 1060)] 1070)]

theorem processFeedback2_ends_iff_delayed :
    ∃ s, run (step 1) constructed.reset (started ++ [.processSendPacket2 7 1100000 3 1000,
        .processSendPacket2 7 1110000 4 1000]) = .ok s ∧
      ∃ n, Returns (s.processFeedback2 n 1300000 (reportOf [(7, 3, 1250), (7, 4, 1260)] 1270)) := by
  have hfacts : (run (step 1) constructed.reset (started ++ [.processSendPacket2 7 1100000 3 1000,
      .processSendPacket2 7 1110000 4 1000]) >>= fun s =>
        (s.startFeedback2 (reportOf [(7, 3, 1250), (7, 4, 1260)] 1270)).map fun r => (s, r)).map (fun r =>
          match r.2.1 with
          | .ok period => decide (0 < r.1.estFwdBwBps ∧ 0 < r.1.newQDelay period ∧
            r.1.FitsInt64 period.parsed.vq (r.1.newFwdBw period / (1 - kCcfsFwdBwdRoom)) ∧ r.1.Drains period)
          | .error _ => false) = .ok true := by
    decide +kernel
  obtain ⟨⟨s, result, s1⟩, hresult, hdecided⟩ := map_eq_ok.mp hfacts
  obtain ⟨s', hrun, hstart⟩ := bind_eq_ok.mp hresult
  obtain ⟨r, hstart, heq⟩ := map_eq_ok.mp hstart
  cases heq
  cases result with
  | error b => cases hdecided
  | ok period =>
    obtain ⟨hbw, hqdelay, hfits, hdrains⟩ := of_decide_eq_true hdecided
    exact ⟨s, hrun, ((processFeedback2_ends_iff hrun hbw hstart hqdelay 1300000).2 hfits).mpr hdrains⟩

/-- A state with a bandwidth, in which a report with a queuing delay does not return. -/
def NeverEnds (s : CcfsController) (feedback : RfbHeader) : Prop :=
  0 < s.estFwdBwBps ∧ ∃ period s1, s.startFeedback2 feedback = .ok (.ok period, s1) ∧ 0 < s.newQDelay period ∧
    ∀ (rounds : Nat) (nowUs : UInt64), ¬ Returns (s.processFeedback2 rounds nowUs feedback)

private theorem neverEnds_of_facts {rounds : Nat} {calls : List CcfsCall} {feedback : RfbHeader}
    (hfacts : (run (step rounds) constructed.reset calls >>= fun s =>
      (s.startFeedback2 feedback).map fun r => (s, r)).map (fun r =>
        match r.2.1 with
        | .ok period => decide (0 < r.1.estFwdBwBps ∧ 0 < r.1.newQDelay period ∧ 0 ≤ r.1.newFwdBw period ∧
          r.1.FitsInt64 period.parsed.vq (r.1.newFwdBw period / (1 - kCcfsFwdBwdRoom)) ∧ ¬ r.1.Drains period)
        | .error _ => false) = .ok true) :
    ∃ s, run (step rounds) constructed.reset calls = .ok s ∧ s.NeverEnds feedback := by
  obtain ⟨⟨s, result, s1⟩, hresult, hdecided⟩ := map_eq_ok.mp hfacts
  obtain ⟨s', hrun, hstart⟩ := bind_eq_ok.mp hresult
  obtain ⟨r, hstart, heq⟩ := map_eq_ok.mp hstart
  cases heq
  cases result with
  | error b => cases hdecided
  | ok period =>
    obtain ⟨hbw, hqdelay, hnew, hfits, hdrains⟩ := of_decide_eq_true hdecided
    exact ⟨s, hrun, hbw, period, s1, hstart, hqdelay, fun rounds nowUs hreturns =>
      hdrains (drains_of_returns hstart hqdelay hnew hfits ⟨rounds, hreturns⟩)⟩

/-- The loop does not end for a report of two streams, where the packet that is last in it was sent
long before the others; nor when the queuing delay falls from 100 to 10 milliseconds in 10. -/
theorem loop_never_ends :
    (∃ s, run (step 1) constructed.reset (started ++ [.processSendPacket2 9 1100000 3 1000,
        .processSendPacket2 7 1200000 4 1000]) = .ok s ∧
      s.NeverEnds (reportOf [(9, 3, 1160), (7, 4, 1260)] 1270)) ∧
    ∃ s, run (step 30) constructed.reset (started ++ [.processSendPacket2 7 1100000 3 1000,
        .processSendPacket2 7 1110000 4 1000,
        .processFeedback2 1300000 (reportOf [(7, 3, 1250), (7, 4, 1260)] 1270),
        .processSendPacket2 7 1120000 5 1000]) = .ok s ∧
      s.NeverEnds (reportOf [(7, 5, 1180)] 1300) := by
  constructor
  · exact neverEnds_of_facts (by decide +kernel)
  · exact neverEnds_of_facts (by decide +kernel)

end CcfsController

end Ns3Rmcat.Controller
