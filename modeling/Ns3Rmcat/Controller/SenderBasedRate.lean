import Ns3Rmcat.Controller.SenderBasedMetrics
import Ns3Rmcat.Controller.SenderBasedRun

/-! The receive rate that the sender-based controller computes from its history, and when it
is the rate at which the packets of the history arrived. -/
namespace Ns3Rmcat.Controller
open Lib

def PacketRecord.rxTimestampUs (p : PacketRecord) : UInt64 := p.txTimestampUs + p.owdUs

theorem PacketRecord.received_rxTimestampUs (p : PacketRecord) (nowUs rxTimestampUs : UInt64) :
    (p.received nowUs rxTimestampUs).rxTimestampUs = rxTimestampUs := by
  rw [PacketRecord.rxTimestampUs, received, UInt64.add_comm]
  exact UInt64.sub_add_cancel _ _

private theorem bytesOf_pos {ps : List PacketRecord} (hne : ps ≠ []) (hsizes : ∀ p ∈ ps, 0 < p.size) :
    0 < bytesOf ps := by
  obtain ⟨p, rest, rfl⟩ := List.exists_cons_of_ne_nil hne
  have hsize := UInt32.lt_iff_toNat_lt.mp (hsizes p List.mem_cons_self)
  rw [bytesOf_cons]
  exact Nat.add_pos_left hsize _

namespace SenderBasedController
variable {K : Type}

private theorem acceptPacket_mem {s s' : SenderBasedController K} {packet : PacketRecord} {nowUs rxTimestampUs : UInt64}
    {b : Bool} (h : s.acceptPacket packet nowUs rxTimestampUs = .ok (b, s')) {p : PacketRecord}
    (hp : p ∈ s'.packetHistory) : p ∈ s.packetHistory ∨ p = packet.received nowUs rxTimestampUs := by
  rcases acceptPacket_cases h with ⟨-, rfl, -⟩ | ⟨-, -, mid, hmid, history, sum, hcollect, rfl⟩
  · exact .inl hp
  · have hhistory : mid.packetHistory =
        (s.dropObsolete packet).packetHistory ++ [packet.received nowUs rxTimestampUs] :=
      congrArg packetHistory (recordPacket_ok hmid)
    have hp := (collectHistory_isSuffix hcollect).subset hp
    rw [hhistory] at hp
    rcases List.mem_append.mp hp with hold | hnew
    · rcases dropObsolete_cases (s := s) packet with hsame | hempty
      · rw [hsame] at hold
        exact .inl hold
      · rw [hempty] at hold
        cases hold
    · exact .inr (List.mem_singleton.mp hnew)

private theorem history_reported [Field K] {calls : List ControllerCall} {s : SenderBasedController K}
    (hrun : run step fresh calls = .ok s) :
    ∀ p ∈ s.packetHistory, ∃ nowUs ecn, .feedback nowUs p.sequence p.rxTimestampUs ecn ∈ calls := by
  refine run_induction step (motive := fun calls s => ∀ p ∈ s.packetHistory, ∃ nowUs ecn,
    .feedback nowUs p.sequence p.rxTimestampUs ecn ∈ calls) (fun p hp => absurd hp List.not_mem_nil) ?_ hrun
  intro cs c mid s' hmid ih hstep p hp
  have hold (hp : p ∈ mid.packetHistory) :
      ∃ nowUs ecn, .feedback nowUs p.sequence p.rxTimestampUs ecn ∈ cs ++ [c] := by
    obtain ⟨nowUs, ecn, hmem⟩ := ih p hp
    exact ⟨nowUs, ecn, List.mem_append_left _ hmem⟩
  cases c with
  | send txTimestampUs sequence size =>
    obtain ⟨⟨ok, next⟩, hsend, hnext⟩ := bind_eq_ok.mp hstep
    cases hnext
    obtain ⟨lastSequence, queue, rfl⟩ := processSendPacket_frame hsend
    exact hold hp
  | feedback nowUs sequence rxTimestampUs ecn =>
    obtain ⟨⟨ok, next⟩, hfeedback, hnext⟩ := bind_eq_ok.mp hstep
    cases hnext
    rcases processFeedback_cases hfeedback with
      ⟨-, -, rfl⟩ | ⟨-, -, -, rfl⟩ | ⟨-, front, rest, -, -, -, rfl⟩ | ⟨-, packet, rest, -, rfl, haccept⟩
    · exact hold hp
    · exact hold hp
    · exact hold hp
    · rcases acceptPacket_mem haccept hp with hp | rfl
      · exact hold hp
      · refine ⟨nowUs, ecn, List.mem_append_right _ (List.mem_singleton.mpr ?_)⟩
        rw [PacketRecord.received_rxTimestampUs]
        rfl

section Rate
variable [Field K] [LinearOrder K] {s : SenderBasedController K} {front back : PacketRecord}

/-- The receive rate over a history with these packets at its ends: nothing stops it, it is not
computed only when both arrived at once, and otherwise it is the bits of all packets but the
first in each second between the two arrivals. -/
structure RecvRateDefined (s : SenderBasedController K) (front back : PacketRecord) : Prop where
  returns : Returns s.getCurrentRecvRate
  refused : s.getCurrentRecvRate = .ok none → back.rxTimestampUs = front.rxTimestampUs
  exact : ∀ rrateBps, s.getCurrentRecvRate = .ok (some rrateBps) →
    rrateBps = 8 * 10 ^ 6 * (bytesOf s.packetHistory.tail : K) / (back.rxTimestampUs - front.rxTimestampUs).toNat
  positive : ∀ rrateBps, s.getCurrentRecvRate = .ok (some rrateBps) →
    (∀ p ∈ s.packetHistory.tail, 0 < p.size) → 0 < rrateBps

/-- The arrival times must be in order, and the sums must fit. -/
def RecvRateSafe (s : SenderBasedController K) (front back : PacketRecord) : Prop :=
  (back.rxTimestampUs - front.rxTimestampUs).toNat < 2 ^ 63 - 1 ∧
    (back.rxTimestampUs = front.rxTimestampUs ∨
      (bytesOf s.packetHistory.tail < 2 ^ 29 ∧ bytesOf s.packetHistory < 2 ^ 32))

instance (s : SenderBasedController K) (front back : PacketRecord) : Decidable (s.RecvRateSafe front back) :=
  inferInstanceAs (Decidable (_ ∧ _))

omit [Field K] [LinearOrder K] in
/-- The assertion about the two arrival times. -/
theorem lessThan_add_one (first last : UInt64) :
    lessThan first (last + 1) = true ↔ (last - first).toNat < 2 ^ 63 - 1 := by
  have hfirst := first.toNat_lt
  have hlast := last.toNat_lt
  simp only [lessThan, decide_eq_true_eq, UInt64.lt_iff_toNat_lt, UInt64.toNat_sub, UInt64.toNat_add,
    UInt64.reduceToNat]
  omega

omit [LinearOrder K] in
/-- On a history that is long enough the rate is two assertions and a quotient. -/
theorem getCurrentRecvRate_eq (hlen : minPacketLoglen ≤ s.packetHistory.length)
    (hfront : s.packetHistory.head? = some front) (hback : s.packetHistory.getLast? = some back) :
    s.getCurrentRecvRate = (do
      check (lessThan front.rxTimestampUs (back.rxTimestampUs + 1) = true)
      if back.rxTimestampUs = front.rxTimestampUs then
        return none
      check (front.size ≤ s.pktSizeSum)
      return some ((((s.pktSizeSum - front.size) * 8).toNat : K) * ((1000 : ℕ) : K) * ((1000 : ℕ) : K) /
        ((back.rxTimestampUs - front.rxTimestampUs).toNat : K))) := by
  have hzero : back.rxTimestampUs - front.rxTimestampUs = 0 ↔ back.rxTimestampUs = front.rxTimestampUs :=
    sub_eq_zero
  rw [getCurrentRecvRate, if_neg (not_lt.mpr hlen), hfront, hback]
  exact congrArg (check _ >>= ·) (funext fun _ => if_congr hzero rfl rfl)

/-- The bytes of all packets but the first, in 32 bits, and their bits. -/
theorem bits_eq_iff {front : PacketRecord} {bytes : Nat} {sum : UInt32}
    (hsum : sum = UInt32.ofNat (front.size.toNat + bytes)) :
    (front.size ≤ sum ∧ ((sum - front.size) * 8).toNat = 8 * bytes) ↔
      bytes < 2 ^ 29 ∧ front.size.toNat + bytes < 2 ^ 32 := by
  have hsize := front.size.toNat_lt
  rw [hsum, UInt32.le_iff_toNat_le, UInt32.toNat_mul, UInt32.toNat_sub, UInt32.toNat_ofNat']
  simp only [UInt32.reduceToNat]
  omega

private theorem RecvRateDefined.of_none (hsame : back.rxTimestampUs = front.rxTimestampUs)
    (hnone : s.getCurrentRecvRate = .ok none) : s.RecvRateDefined front back where
  returns := ⟨none, hnone⟩
  refused _ := hsame
  exact _ h := nomatch hnone.symm.trans h
  positive _ h := nomatch hnone.symm.trans h

/-- The receive rate is right exactly when the last packet of the history did not arrive before
the first one, and the bits of the others and the bytes of all are below 2^32. The arrival
times of the history are those of the feedback. -/
theorem recvRate_iff [IsStrictOrderedRing K] {calls : List ControllerCall}
    (hsent : Consecutive (sentPackets calls)) (hrun : run step fresh calls = .ok s)
    (hlen : minPacketLoglen ≤ s.packetHistory.length)
    (hfront : s.packetHistory.head? = some front) (hback : s.packetHistory.getLast? = some back) :
    (s.RecvRateDefined front back ↔ s.RecvRateSafe front back) ∧
      ∀ p ∈ s.packetHistory, ∃ nowUs ecn, .feedback nowUs p.sequence p.rxTimestampUs ecn ∈ calls := by
  refine ⟨?_, history_reported hrun⟩
  have hhistory : s.packetHistory = front :: s.packetHistory.tail := (List.cons_head?_tail hfront).symm
  have hbytes : bytesOf s.packetHistory = front.size.toNat + bytesOf s.packetHistory.tail := by
    rw [hhistory, bytesOf_cons, List.tail_cons]
  have hsum := (run_ordered hsent hrun).pktSizeSum
  rw [hbytes] at hsum
  have hbits := bits_eq_iff hsum
  have hrate := getCurrentRecvRate_eq hlen hfront hback
  rw [RecvRateSafe, hbytes]
  constructor
  · intro h
    obtain ⟨rate, hreturns⟩ := h.returns
    rw [hrate] at hreturns
    obtain ⟨horder, hreturns⟩ := check_bind_eq_ok.mp hreturns
    refine ⟨(lessThan_add_one _ _).mp horder, ?_⟩
    by_cases hsame : back.rxTimestampUs = front.rxTimestampUs
    · exact .inl hsame
    · rw [if_neg hsame] at hreturns
      obtain ⟨hle, hreturns⟩ := check_bind_eq_ok.mp hreturns
      refine .inr (hbits.mp ⟨hle, ?_⟩)
      have hexact := h.exact _ (by rw [hrate, check_of horder, ok_bind, if_neg hsame, check_of hle]; rfl)
      have hspan : ((back.rxTimestampUs - front.rxTimestampUs).toNat : K) ≠ 0 := by
        rw [Nat.cast_ne_zero]
        exact fun hzero => hsame (sub_eq_zero.mp (UInt64.toNat_inj.mp hzero))
      rw [div_left_inj' hspan] at hexact
      have hnat : ((s.pktSizeSum - front.size) * 8).toNat * 1000 * 1000 =
          8 * 10 ^ 6 * bytesOf s.packetHistory.tail := by
        apply Nat.cast_injective (R := K)
        push_cast at hexact ⊢
        linarith
      omega
  · rintro ⟨horder, hfits⟩
    have hassert := (lessThan_add_one front.rxTimestampUs back.rxTimestampUs).mpr horder
    rw [check_of hassert, ok_bind] at hrate
    rcases hfits with hsame | hfits
    · rw [if_pos hsame] at hrate
      exact .of_none hsame hrate
    · obtain ⟨hle, hexact⟩ := hbits.mpr hfits
      by_cases hsame : back.rxTimestampUs = front.rxTimestampUs
      · rw [if_pos hsame] at hrate
        exact .of_none hsame hrate
      · have hspan : 0 < (back.rxTimestampUs - front.rxTimestampUs).toNat :=
          Nat.pos_of_ne_zero fun hzero => hsame (sub_eq_zero.mp (UInt64.toNat_inj.mp hzero))
        rw [if_neg hsame, check_of hle, ok_bind, hexact] at hrate
        refine ⟨⟨_, hrate⟩, fun h => (nomatch hrate.symm.trans h), fun rate h => ?_, fun rate h hsizes => ?_⟩
        · cases hrate.symm.trans h
          push_cast
          ring
        · cases hrate.symm.trans h
          have htail : 0 < bytesOf s.packetHistory.tail := by
            refine bytesOf_pos ?_ hsizes
            rw [minPacketLoglen, hhistory, List.length_cons] at hlen
            exact List.length_pos_iff.mp (by omega)
          positivity

/-- Five packets of 1000 bytes, sent 10 milliseconds apart, and their feedback with the arrival
times that are given. -/
def fiveArrivals (arrivals : List UInt64) : List ControllerCall :=
  ((List.range 5).map fun i => .send (10000 * UInt64.ofNat i) (UInt16.ofNat i) 1000) ++
    arrivals.mapIdx fun i rxTimestampUs => .feedback 200000 (UInt16.ofNat i) rxTimestampUs 0

theorem recvRate_iff_in_order :
    ∃ s : SenderBasedController ℚ, run step fresh (fiveArrivals [50000, 60000, 75000, 80000, 90000]) = .ok s ∧
      s.RecvRateDefined ⟨0, 0, 1000, 50000, 200000⟩ ⟨4, 40000, 1000, 50000, 160000⟩ := by
  have hfacts : (run (step (K := ℚ)) fresh (fiveArrivals [50000, 60000, 75000, 80000, 90000])).map (fun s =>
      decide (minPacketLoglen ≤ s.packetHistory.length ∧
        s.packetHistory.head? = some ⟨0, 0, 1000, 50000, 200000⟩ ∧
        s.packetHistory.getLast? = some ⟨4, 40000, 1000, 50000, 160000⟩ ∧
        s.RecvRateSafe ⟨0, 0, 1000, 50000, 200000⟩ ⟨4, 40000, 1000, 50000, 160000⟩)) = .ok true := by
    decide +kernel
  obtain ⟨s, hrun, hdecided⟩ := map_eq_ok.mp hfacts
  obtain ⟨hlen, hfront, hback, hsafe⟩ := of_decide_eq_true hdecided
  have hsent : Consecutive (sentPackets (fiveArrivals [50000, 60000, 75000, 80000, 90000])) := by
    rw [Consecutive]
    decide
  exact ⟨s, hrun, (recvRate_iff hsent hrun hlen hfront hback).1.mpr hsafe⟩

/-- The first packet is overtaken by the other four. -/
theorem overtaken_packet_stops_rate :
    SentInOrder (sentPackets (fiveArrivals [95000, 60000, 75000, 80000, 90000])) ∧
    ∃ s : SenderBasedController ℚ, run step fresh (fiveArrivals [95000, 60000, 75000, 80000, 90000]) = .ok s ∧
      minPacketLoglen ≤ s.packetHistory.length ∧
      s.packetHistory.head? = some ⟨0, 0, 1000, 95000, 200000⟩ ∧
      s.packetHistory.getLast? = some ⟨4, 40000, 1000, 50000, 160000⟩ ∧
      s.getCurrentRecvRate = .error .assertion ∧
      ¬ s.RecvRateDefined ⟨0, 0, 1000, 95000, 200000⟩ ⟨4, 40000, 1000, 50000, 160000⟩ := by
  refine ⟨⟨?_, ?_, ?_⟩, ?_⟩
  · rw [Consecutive]
    decide
  · decide
  · decide
  · have hfacts : (run (step (K := ℚ)) fresh (fiveArrivals [95000, 60000, 75000, 80000, 90000])).map (fun s =>
        decide (minPacketLoglen ≤ s.packetHistory.length ∧
          s.packetHistory.head? = some ⟨0, 0, 1000, 95000, 200000⟩ ∧
          s.packetHistory.getLast? = some ⟨4, 40000, 1000, 50000, 160000⟩ ∧
          s.getCurrentRecvRate = .error .assertion)) = .ok true := by
      decide +kernel
    obtain ⟨s, hrun, hdecided⟩ := map_eq_ok.mp hfacts
    obtain ⟨hlen, hfront, hback, hstops⟩ := of_decide_eq_true hdecided
    refine ⟨s, hrun, hlen, hfront, hback, hstops, fun hdefined => ?_⟩
    have hreturns := hdefined.returns
    rw [hstops] at hreturns
    exact not_returns_error _ hreturns

end Rate

end SenderBasedController

end Ns3Rmcat.Controller
