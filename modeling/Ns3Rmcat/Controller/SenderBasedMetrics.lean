import Ns3Rmcat.Controller.SenderBasedSteps

/-! Ranges of the metrics that the sender-based controller computes from its history, and the
divisors that it uses: none of them is zero when its quotient is computed. -/
namespace Ns3Rmcat.Controller
open Lib

theorem minOf_mem {xs : List UInt64} {x : UInt64} (h : minOf xs = some x) : x ∈ xs := by
  cases xs with
  | nil => cases h
  | cons first xs =>
    rw [minOf] at h
    cases h
    induction xs generalizing first with
    | nil => simp
    | cons second xs ih =>
      rw [List.foldl_cons]
      have hrest := ih (min first second)
      rcases List.mem_cons.mp hrest with hhead | htail
      · have hmin : min first second = if first ≤ second then first else second := rfl
        rw [hhead, hmin]
        split <;> simp
      · exact List.mem_cons_of_mem _ (List.mem_cons_of_mem _ htail)

private theorem evictOld_mem {txTimestampUs : UInt64} {queue kept : List PacketRecord}
    (h : evictOld txTimestampUs queue = .ok kept) {packet : PacketRecord} (hmem : packet ∈ kept) : packet ∈ queue := by
  induction queue with
  | nil => cases h
  | cons front rest ih =>
    rw [evictOld] at h
    split at h
    · exact List.mem_cons_of_mem _ (ih h)
    · cases h
      exact hmem

/-- Garbage collection removes packets from the front only. -/
theorem collectHistory_isSuffix {length : UInt64} {ps history : List PacketRecord} {sum sum' : UInt32}
    (h : collectHistory length ps sum = .ok (history, sum')) : history <:+ ps := by
  induction ps generalizing sum with
  | nil => cases h
  | cons front rest ih =>
    rw [collectHistory, check_bind_eq_ok] at h
    obtain ⟨-, h⟩ := h
    split at h
    · cases h
      exact List.suffix_refl _
    · exact (ih (check_bind_eq_ok.mp h).2).trans (List.suffix_cons front rest)

namespace SenderBasedController

section Times
variable {K : Type} {s s' : SenderBasedController K} {time nowUs : UInt64}

/-- Up to a time: packets in transit were sent by then, and no round-trip time is longer than the clock. -/
structure Timed (time : UInt64) (s : SenderBasedController K) : Prop where
  inTransitPackets : ∀ packet ∈ s.inTransitPackets, packet.txTimestampUs ≤ time
  packetHistory : ∀ packet ∈ s.packetHistory, packet.rttUs.toNat < 2 ^ 62

theorem Timed.later (h : Timed time s) (hlater : time ≤ nowUs) : Timed nowUs s where
  inTransitPackets packet hmem := UInt64.le_trans (h.inTransitPackets packet hmem) hlater
  packetHistory := h.packetHistory

theorem Timed.processSendPacket {sequence : UInt16} {size : UInt32} {ok : Bool} (h : Timed nowUs s)
    (hsend : s.processSendPacket nowUs sequence size = .ok (ok, s')) : Timed nowUs s' := by
  rw [SenderBasedController.processSendPacket] at hsend
  have hbase : ∀ base : SenderBasedController K,
      base = (if s.firstSend = true then { s with lastSequence := sequence - 1, firstSend := false } else s) →
      Timed nowUs base := by
    rintro base rfl
    split
    · exact ⟨h.inTransitPackets, h.packetHistory⟩
    · exact h
  generalize (if s.firstSend = true then
    { s with lastSequence := sequence - 1, firstSend := false } else s) = base at hsend hbase
  have hbase := hbase base rfl
  dsimp only at hsend
  split at hsend
  · cases hsend
    exact ⟨hbase.inTransitPackets, hbase.packetHistory⟩
  · obtain ⟨queue, hqueue, hsend⟩ := bind_eq_ok.mp hsend
    cases hsend
    refine ⟨fun packet hmem => ?_, hbase.packetHistory⟩
    rcases List.mem_append.mp (evictOld_mem hqueue hmem) with hold | hnew
    · exact hbase.inTransitPackets packet hold
    · rw [List.mem_singleton.mp hnew]
      exact UInt64.le_refl nowUs

private theorem Timed.acceptPacket {packet : PacketRecord} {rxTimestampUs : UInt64} {ok : Bool} (h : Timed nowUs s)
    (hnow : nowUs.toNat < 2 ^ 62) (htx : packet.txTimestampUs ≤ nowUs)
    (haccept : s.acceptPacket packet nowUs rxTimestampUs = .ok (ok, s')) : Timed nowUs s' := by
  rcases acceptPacket_cases haccept with ⟨-, rfl, -⟩ | ⟨-, -, mid, hmid, history, sum, hcollect, rfl⟩
  · exact h
  · have hdropped : Timed nowUs (s.dropObsolete packet) := by
      rcases dropObsolete_cases (s := s) packet with hsame | hdropped
      · rw [hsame]
        exact h
      · rw [hdropped]
        exact ⟨h.inTransitPackets, by simp⟩
    have hrecord := recordPacket_ok hmid
    have hqueue : mid.inTransitPackets = (s.dropObsolete packet).inTransitPackets := by rw [hrecord]
    have hhistory : mid.packetHistory =
        (s.dropObsolete packet).packetHistory ++ [packet.received nowUs rxTimestampUs] := by rw [hrecord]
    refine ⟨fun other hmem => ?_, fun other hmem => ?_⟩
    · rw [hqueue] at hmem
      exact hdropped.inTransitPackets other hmem
    · have hrecorded := (collectHistory_isSuffix hcollect).subset hmem
      rw [hhistory] at hrecorded
      rcases List.mem_append.mp hrecorded with hold | hnew
      · exact hdropped.packetHistory other hold
      · rw [List.mem_singleton.mp hnew, PacketRecord.received]
        dsimp only
        rw [UInt64.toNat_sub_of_le _ _ htx]
        omega

theorem Timed.processFeedback {rxTimestampUs : UInt64} {sequence : UInt16} {ecn : UInt8} {ok : Bool}
    (h : Timed nowUs s) (hnow : nowUs.toNat < 2 ^ 62)
    (hfeedback : s.processFeedback nowUs sequence rxTimestampUs ecn = .ok (ok, s')) : Timed nowUs s' := by
  have hrest {front : PacketRecord} {rest : List PacketRecord}
      (hpop : popStale sequence s.inTransitPackets = .ok (front, rest)) :
      ∀ packet ∈ front :: rest, packet.txTimestampUs ≤ nowUs := by
    intro packet hmem
    obtain ⟨k, hdrop, -⟩ := popStale_ok hpop
    rw [← hdrop] at hmem
    exact h.inTransitPackets packet (List.mem_of_mem_drop hmem)
  rcases processFeedback_cases hfeedback with
    ⟨-, -, rfl⟩ | ⟨-, -, -, rfl⟩ | ⟨-, front, rest, hpop, -, -, rfl⟩ | ⟨-, packet, rest, hpop, -, haccept⟩
  · exact h
  · exact h
  · exact ⟨hrest hpop, h.packetHistory⟩
  · have hbefore : Timed nowUs { s with inTransitPackets := rest } :=
      ⟨fun other hmem => hrest hpop other (List.mem_cons_of_mem _ hmem), h.packetHistory⟩
    exact hbefore.acceptPacket hnow (hrest hpop packet (by simp)) haccept

end Times

section Metrics
variable {K : Type} [Field K] [LinearOrder K] {s : SenderBasedController K}

omit [Field K] [LinearOrder K] in
theorem Timed.getCurrentRTT {time rttUs : UInt64} (h : Timed time s) (hrtt : s.getCurrentRTT = some rttUs) :
    rttUs.toNat < 2 ^ 62 := by
  obtain ⟨packet, hpacket, rfl⟩ := List.mem_map.mp (minOf_mem hrtt)
  exact h.packetHistory packet (List.mem_reverse.mp (List.mem_of_mem_take hpacket))

/-- The divisors of the metrics are not zero where the quotients are computed. -/
structure MetricDivisors (s : SenderBasedController K) : Prop where
  seqSpan : ∀ nLoss plr, s.getPktLossInfo = .ok (some (nLoss, plr)) →
    ∀ front ∈ s.packetHistory.head?, ∀ back ∈ s.packetHistory.getLast?,
      ((1 + back.sequence - front.sequence).toNat : K) ≠ 0
  timeSpanUs : ∀ rrateBps, s.getCurrentRecvRate = .ok (some rrateBps) →
    ∀ front ∈ s.packetHistory.head?, ∀ back ∈ s.packetHistory.getLast?,
      (((back.txTimestampUs + back.owdUs) - (front.txTimestampUs + front.owdUs)).toNat : K) ≠ 0
  wSum : ∀ info, s.getLossIntervalInfo = .ok (some info) →
    ((weights (K := K)).take (s.ilState.intervals.length - 1)).sum ≠ 0

omit [LinearOrder K] in
private theorem getPktLossInfo_ok {nLoss : UInt32} {plr : K} (h : s.getPktLossInfo = .ok (some (nLoss, plr))) :
    ∃ front back, s.packetHistory.head? = some front ∧ s.packetHistory.getLast? = some back ∧
      minPacketLoglen ≤ s.packetHistory.length ∧
      s.packetHistory.length ≤ (1 + back.sequence - front.sequence).toNat ∧
      plr = ((UInt32.ofNat ((1 + back.sequence - front.sequence).toNat - s.packetHistory.length)).toNat : K) /
        ((1 + back.sequence - front.sequence).toNat : K) := by
  rw [getPktLossInfo] at h
  split at h
  · cases h
  · rename_i hlength
    cases hfront : s.packetHistory.head? with
    | none => simp [hfront] at h
    | some front =>
      cases hback : s.packetHistory.getLast? with
      | none => simp [hfront, hback] at h
      | some back =>
        rw [hfront, hback] at h
        obtain ⟨hspan, h⟩ := check_bind_eq_ok.mp h
        cases h
        exact ⟨front, back, rfl, rfl, not_lt.mp hlength, hspan, rfl⟩

variable [IsStrictOrderedRing K]

/-- The loss ratio is a number between zero and one. -/
theorem getPktLossInfo_mem {nLoss : UInt32} {plr : K} (h : s.getPktLossInfo = .ok (some (nLoss, plr))) :
    0 ≤ plr ∧ plr ≤ 1 := by
  obtain ⟨front, back, -, -, -, hspan, rfl⟩ := getPktLossInfo_ok h
  have hlost : (UInt32.ofNat ((1 + back.sequence - front.sequence).toNat - s.packetHistory.length)).toNat ≤
      (1 + back.sequence - front.sequence).toNat := by
    rw [UInt32.toNat_ofNat']
    exact (Nat.mod_le _ _).trans (Nat.sub_le _ _)
  exact ⟨div_nonneg (Nat.cast_nonneg _) (Nat.cast_nonneg _),
    div_le_one_of_le₀ (Nat.cast_le.mpr hlost) (Nat.cast_nonneg _)⟩

private theorem weights_pos {w : K} (h : w ∈ weights (K := K)) : 0 < w := by
  obtain ⟨i, hi, rfl⟩ := List.mem_map.mp h
  rw [List.mem_range] at hi
  split
  · exact one_pos
  · apply div_pos
    · exact Nat.cast_pos.mpr (by omega)
    · exact Nat.cast_pos.mpr (by norm_num)

private theorem weighted_nonneg {intervals : List UInt16} {ws : List K} (h : ∀ w ∈ ws, 0 ≤ w) :
    0 ≤ (List.zipWith (fun n w => (n.toNat : K) * w) intervals ws).sum := by
  refine List.sum_nonneg fun x hx => ?_
  obtain ⟨i, hi, rfl⟩ := List.getElem_of_mem hx
  rw [List.getElem_zipWith]
  exact mul_nonneg (Nat.cast_nonneg _) (h _ (List.getElem_mem _))

private theorem le_weighted (n : UInt16) (rest : List UInt16) : (n.toNat : K) ≤ weighted (n :: rest) := by
  have hweights : weights (K := K) = 1 :: (weights (K := K)).tail := rfl
  rw [weighted, hweights, List.zipWith_cons_cons, List.sum_cons, mul_one]
  refine le_add_of_nonneg_right (weighted_nonneg fun w hw => ?_)
  exact (weights_pos (List.mem_of_mem_tail hw)).le

private theorem sum_weights_le (n : ℕ) : ((weights (K := K)).take n).sum ≤ 6 := by
  have hsix : (weights (K := K)).sum = 6 := by
    rw [weights]
    norm_num [List.range_succ]
  rw [← hsix]
  refine List.Sublist.sum_le_sum (List.take_sublist _ _) fun w hw => (weights_pos hw).le

/-- The current interval makes a sixth of the average at least: the sum of all weights is six. -/
theorem getLossIntervalInfo_le {avgInt : K} {currInt : UInt16}
    (h : s.getLossIntervalInfo = .ok (some (avgInt, currInt))) :
    0 ≤ avgInt ∧ (currInt.toNat : K) ≤ 6 * avgInt := by
  rw [getLossIntervalInfo] at h
  split at h
  · cases h
  · obtain ⟨⟨htwo, -⟩, h⟩ := check_bind_eq_ok.mp h
    cases h
    rcases hintervals : s.ilState.intervals with _ | ⟨current, _ | ⟨last, rest⟩⟩
    · simp [hintervals] at htwo
    · simp [hintervals] at htwo
    · have hpos : 0 < ((weights (K := K)).take ((current :: last :: rest).length - 1)).sum := by
        refine List.sum_pos _ (fun w hw => weights_pos (List.mem_of_mem_take hw)) ?_
        simp [weights]
      have hcurrent : (current.toNat : K) ≤ max (weighted (current :: last :: rest).dropLast)
          (weighted (current :: last :: rest).tail) := (le_weighted current _).trans (le_max_left _ _)
      have hnonneg : (0 : K) ≤ current.toNat := Nat.cast_nonneg _
      have havg : 0 ≤ max (weighted (current :: last :: rest).dropLast) (weighted (current :: last :: rest).tail) /
          ((weights (K := K)).take ((current :: last :: rest).length - 1)).sum :=
        div_nonneg (hnonneg.trans hcurrent) hpos.le
      refine ⟨havg, ?_⟩
      calc (current.toNat : K) ≤ _ := hcurrent
        _ = ((weights (K := K)).take ((current :: last :: rest).length - 1)).sum * _ :=
          (mul_div_cancel₀ _ hpos.ne').symm
        _ ≤ 6 * _ := mul_le_mul_of_nonneg_right (sum_weights_le _) havg

theorem metricDivisors (s : SenderBasedController K) : MetricDivisors s where
  seqSpan nLoss plr h front hfront back hback := by
    obtain ⟨front', back', hfront', hback', hlength, hspan, -⟩ := getPktLossInfo_ok h
    cases hfront.symm.trans hfront'
    cases hback.symm.trans hback'
    apply Nat.cast_ne_zero.mpr
    rw [minPacketLoglen] at hlength
    omega
  timeSpanUs rrateBps h front hfront back hback := by
    rw [getCurrentRecvRate] at h
    split at h
    · cases h
    · rw [hfront, hback] at h
      obtain ⟨-, h⟩ := check_bind_eq_ok.mp h
      dsimp only at h
      split at h
      · cases h
      · rename_i hzero
        apply Nat.cast_ne_zero.mpr
        intro hnat
        exact hzero (UInt64.toNat_inj.mp hnat)
  wSum info h := by
    rw [getLossIntervalInfo] at h
    split at h
    · cases h
    · obtain ⟨⟨hlength, -⟩, -⟩ := check_bind_eq_ok.mp h
      apply ne_of_gt
      apply List.sum_pos
      · intro w hw
        exact weights_pos (List.mem_of_mem_take hw)
      · intro hnil
        have hnone := congrArg List.length hnil
        simp only [List.length_take, weights, List.length_map, List.length_range, List.length_nil] at hnone
        omega

end Metrics

end SenderBasedController

end Ns3Rmcat.Controller
