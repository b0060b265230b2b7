import Ns3Rmcat.Controller.CcfsVirtualQueue
import Ns3Rmcat.Lib.FifoServer

/-! The virtual queue as a server that takes the packets in the order in which they were sent: the
loop computes the times that they stay, and with a higher bandwidth none of them stays longer. -/
namespace Ns3Rmcat.Controller
open Lib

namespace CcfsController

/-- The virtual delay of each packet, round by round of the loop. -/
def queueQpts (transmissionUs : UInt32 → Int) : List QDelayData → UInt64 → List Int
  | [], _ => []
  | packet :: vq, preQdt =>
    let currQpt := transmissionUs packet.pktSize + waitUs preQdt packet.localSentUs
    currQpt :: queueQpts transmissionUs vq (packet.localSentUs + UInt64.ofInt currQpt)

private theorem serveQueue_eq (t : UInt32 → Int) (vq : List QDelayData) (preQdt st : UInt64) (qpt : Int)
    (delays : List Int) :
    serveQueue t vq preQdt st qpt delays = ((vq.getLast?.map (·.localSentUs)).getD st,
      (queueQpts t vq preQdt).getLast?.getD qpt, delays ++ (queueQpts t vq preQdt).map (·.tdiv 1000)) := by
  induction vq generalizing preQdt st qpt delays with
  | nil => simp [serveQueue, queueQpts]
  | cons packet vq ih =>
    rw [serveQueue_cons, ih, queueQpts]
    simp [List.getLast?_cons]

/-- The time at which a packet was sent, and the time that its transmission takes. -/
def sentUs (packet : QDelayData) : Int := packet.localSentUs.toNat
def serviceUs (fwdbw : ℚ) (packet : QDelayData) : Int := ⌊(1000000 * packet.pktSize.toNat / fwdbw : ℚ)⌋

private theorem serviceUs_nonneg {fwdbw : ℚ} (h : 0 < fwdbw) (packet : QDelayData) : 0 ≤ serviceUs fwdbw packet := by
  rw [serviceUs, ← transmissionUs_eq h.le]
  exact transmissionUs_nonneg h.le _

/-- The time before which nothing leaves the queue, as it is carried over from the last report. -/
def carriedUs (s : CcfsController) : Int :=
  if s.lastQDelay = 0 then 0 else s.ivqStUs.toNat + (s.lastQDelay * 1000 + kCcfsVqBaseDelayUs)

/-- The departure time of the recurrence is a 64-bit number, and so is the wait that is told from it. -/
def FitsBefore (before : Int) (packet : QDelayData) : Prop := before < 2 ^ 64 ∧ before < sentUs packet + 2 ^ 63

instance (before : Int) (packet : QDelayData) : Decidable (FitsBefore before packet) :=
  inferInstanceAs (Decidable (_ ∧ _))

private theorem waitUs_eq_iff {preQdt : UInt64} {packet : QDelayData} {before : Int}
    (hword : (preQdt.toNat : Int) = before % 2 ^ 64) (hnonneg : 0 ≤ before) :
    waitUs preQdt packet.localSentUs = max (sentUs packet) before - sentUs packet ↔ FitsBefore before packet := by
  have hsub : (max preQdt packet.localSentUs - packet.localSentUs).toNat =
      (max preQdt packet.localSentUs).toNat - packet.localSentUs.toNat :=
    UInt64.toNat_sub_of_le _ _ (UInt64.le_iff_toNat_le.mpr (by rw [toNat_max]; omega))
  have hlt := packet.localSentUs.toNat_lt
  have hlt' := preQdt.toNat_lt
  rw [waitUs_eq, toInt_toInt64, hsub, toNat_max, sentUs, FitsBefore, sentUs]
  split <;> omega

/-- The delays are those of the recurrence exactly when all departures fit. The departure times
that the loop has are those of the recurrence, in 64 bits. -/
private theorem queueQpts_eq_iff {fwdbw : ℚ} (hbw : 0 < fwdbw) {vq : List QDelayData} {preQdt : UInt64} {before : Int}
    (hword : (preQdt.toNat : Int) = before % 2 ^ 64) (hnonneg : 0 ≤ before) :
    queueQpts (transmissionUs fwdbw) vq preQdt = sojourns sentUs (serviceUs fwdbw) before vq ↔
      AtEach sentUs (serviceUs fwdbw) FitsBefore before vq := by
  induction vq generalizing preQdt before with
  | nil => exact iff_of_true rfl trivial
  | cons packet vq ih =>
    have hservice : transmissionUs fwdbw packet.pktSize = serviceUs fwdbw packet := transmissionUs_eq hbw.le _
    have hlong := serviceUs_nonneg hbw packet
    have hfirst : serviceUs fwdbw packet + waitUs preQdt packet.localSentUs =
        departure sentUs (serviceUs fwdbw) before packet - sentUs packet ↔ FitsBefore before packet := by
      rw [← waitUs_eq_iff hword hnonneg, departure]
      omega
    rw [queueQpts, sojourns, AtEach, hservice]
    rw [List.cons.injEq, hfirst]
    refine and_congr_right fun hfits => ih ?_ ?_
    · rw [hfirst.mpr hfits, UInt64.toNat_add, toNat_ofInt, departure, sentUs]
      omega
    · have hsent : 0 ≤ sentUs packet := Int.natCast_nonneg _
      rw [departure]
      omega

/-- The loop computes the recurrence: the delay of each packet is the time that it stays, and what
is returned are the send time and the delay of the last packet, and all delays in milliseconds. -/
structure ComputesRecurrence (s : CcfsController) (vq : List QDelayData) (fwdbw : ℚ) : Prop where
  qpts : queueQpts (transmissionUs fwdbw) vq s.carriedQdt = sojourns sentUs (serviceUs fwdbw) s.carriedUs vq
  result : s.calcIVQDelay vq fwdbw = ((vq.getLast?.map (·.localSentUs)).getD 0,
    (sojourns sentUs (serviceUs fwdbw) s.carriedUs vq).getLast?.getD 0,
    (sojourns sentUs (serviceUs fwdbw) s.carriedUs vq).map (·.tdiv 1000))

/-- The delay of the last report fits in the 32 bits in which it is computed. -/
def CarriedFits (s : CcfsController) : Prop := 0 ≤ s.lastQDelay ∧ s.lastQDelay * 1000 + kCcfsVqBaseDelayUs < 2 ^ 31

private theorem toNat_carriedQdt {s : CcfsController} (hq : s.CarriedFits) :
    (s.carriedQdt.toNat : Int) = s.carriedUs % 2 ^ 64 ∧ 0 ≤ s.carriedUs := by
  obtain ⟨hnonneg, hfits⟩ := hq
  by_cases hzero : s.lastQDelay = 0
  · rw [carriedQdt, carriedUs, if_pos hzero, if_pos hzero, UInt64.toNat_zero]
    exact ⟨(Int.zero_emod _).symm, le_refl 0⟩
  · have hcarried : 0 ≤ s.lastQDelay * 1000 + kCcfsVqBaseDelayUs := by
      have hbase : 0 ≤ kCcfsVqBaseDelayUs := by decide
      positivity
    rw [carriedQdt, carriedUs, if_neg hzero, if_neg hzero, UInt64.toNat_add, toNat_ofInt]
    generalize s.lastQDelay * 1000 + kCcfsVqBaseDelayUs = carried at hcarried hfits ⊢
    have hcast : castInt32 carried = carried := by
      rw [castInt32, Int.bmod_eq_of_le] <;> omega
    rw [hcast]
    omega

private theorem computesRecurrence_iff {s : CcfsController} (hq : s.CarriedFits) (vq : List QDelayData) {fwdbw : ℚ}
    (hbw : 0 < fwdbw) : s.ComputesRecurrence vq fwdbw ↔ AtEach sentUs (serviceUs fwdbw) FitsBefore s.carriedUs vq := by
  obtain ⟨hword, hnonneg⟩ := toNat_carriedQdt hq
  rw [← queueQpts_eq_iff hbw hword hnonneg]
  refine ⟨fun h => h.qpts, fun hqpts => ⟨hqpts, ?_⟩⟩
  rw [calcIVQDelay, serveQueue_eq, hqpts, List.nil_append]

/-- Where the clock has not come to its second half and the times that the packets stay add up to less
than 2^63 microseconds, all departures fit: a packet waits no longer than it stays. -/
private theorem atEach_fitsBefore {fwdbw : ℚ} (hbw : 0 < fwdbw) {vq : List QDelayData} {before : Int}
    (hbefore : before < 2 ^ 64) (hsent : ∀ packet ∈ vq, packet.localSentUs.toNat < 2 ^ 63)
    (hsum : (sojourns sentUs (serviceUs fwdbw) before vq).sum < 2 ^ 63) :
    AtEach sentUs (serviceUs fwdbw) FitsBefore before vq := by
  induction vq generalizing before with
  | nil => trivial
  | cons packet vq ih =>
    obtain ⟨hpacket, hsent⟩ := List.forall_mem_cons.mp hsent
    have hservice := serviceUs_nonneg hbw packet
    have hstays : ∀ t ∈ sojourns sentUs (serviceUs fwdbw) (departure sentUs (serviceUs fwdbw) before packet) vq, 0 ≤ t :=
      sojourns_nonneg (serviceUs_nonneg hbw) _ _
    have hrest := List.sum_nonneg hstays
    rw [sojourns, List.sum_cons] at hsum
    have hstay : departure sentUs (serviceUs fwdbw) before packet =
        max (sentUs packet) before + serviceUs fwdbw packet := rfl
    have hword : sentUs packet < 2 ^ 63 := by rw [sentUs]; omega
    exact ⟨⟨hbefore, by omega⟩, ih (by omega) hsent (by omega)⟩

end CcfsController

end Ns3Rmcat.Controller
