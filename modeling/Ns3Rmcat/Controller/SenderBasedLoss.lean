import Ns3Rmcat.Controller.SenderBasedRun

/-! The number of lost packets against what has been sent: the history says, by two 16-bit
numbers and its length, how many packets between its ends are missing. -/
namespace Ns3Rmcat.Controller
open Lib

/-- Positions among the packets sent, in the order of sending, of the packets of a history. -/
structure Placed (sent history : List PacketRecord) (places : List Nat) : Prop where
  increasing : places.Pairwise (· < ·)
  records : places.map (fun i => sent[i]?) = history.map fun packet => some packet.asSent

/-- The positions from first to last, both included, that are not among some given ones. -/
def missing (places : List Nat) (first last : Nat) : Finset Nat :=
  (Finset.Icc first last).filter fun i => i ∉ places

private theorem Placed.length {sent history : List PacketRecord} {places : List Nat} (h : Placed sent history places) :
    places.length = history.length := by
  simpa using congrArg List.length h.records

private theorem exists_placed {sent history : List PacketRecord}
    (h : (history.map PacketRecord.asSent).Sublist sent) : ∃ places, Placed sent history places := by
  obtain ⟨f, hf⟩ := List.sublist_iff_exists_orderEmbedding_getElem?_eq.mp h
  refine ⟨(List.range history.length).map f, ?_, ?_⟩
  · rw [List.pairwise_map]
    exact List.pairwise_lt_range.imp fun hlt => f.lt_iff_lt.mpr hlt
  · apply List.ext_getElem?
    intro i
    by_cases hi : i < history.length
    · have hsent : some history[i].asSent = sent[f i]? := by
        rw [← hf i, List.getElem?_map, List.getElem?_eq_getElem hi]
        rfl
      simp [hi, hsent]
    · simp [hi]

private theorem mem_Icc_of_increasing {places : List Nat} (h : places.Pairwise (· < ·)) {first last i : Nat}
    (hfirst : first ∈ places.head?) (hlast : last ∈ places.getLast?) (hi : i ∈ places) : i ∈ Finset.Icc first last := by
  rw [Finset.mem_Icc]
  constructor
  · obtain ⟨rest, rfl⟩ := List.head?_eq_some_iff.mp hfirst
    rcases List.mem_cons.mp hi with rfl | hrest
    · exact le_rfl
    · exact ((List.pairwise_cons.mp h).1 i hrest).le
  · obtain ⟨front, rfl⟩ := List.getLast?_eq_some_iff.mp hlast
    rcases List.mem_append.mp hi with hfront | hback
    · exact ((List.pairwise_append.mp h).2.2 i hfront last (List.mem_singleton_self last)).le
    · exact (List.mem_singleton.mp hback).le

private theorem card_missing {places : List Nat} (h : places.Pairwise (· < ·)) {first last : Nat}
    (hfirst : first ∈ places.head?) (hlast : last ∈ places.getLast?) :
    first ≤ last ∧ (missing places first last).card + places.length = last - first + 1 := by
  have hnodup : places.Nodup := h.imp fun hlt => hlt.ne
  have hwithin : places.toFinset ⊆ Finset.Icc first last := by
    intro i hi
    exact mem_Icc_of_increasing h hfirst hlast (List.mem_toFinset.mp hi)
  have hmissing : missing places first last = Finset.Icc first last \ places.toFinset := by
    ext i
    simp [missing]
  have hle : first ≤ last :=
    (Finset.mem_Icc.mp (mem_Icc_of_increasing h hfirst hlast (List.mem_of_mem_head? hfirst))).2
  have hcard := Finset.card_sdiff_add_card_eq_card hwithin
  rw [← hmissing, List.toFinset_card_of_nodup hnodup, Nat.card_Icc] at hcard
  refine ⟨hle, ?_⟩
  omega

namespace SenderBasedController
variable {K : Type} [Field K] [LinearOrder K] {s : SenderBasedController K} {sent : List PacketRecord}

/-- The loss information is exact: over at most 65535 numbers it counts the packets sent between
the ends of the history that are not in it. -/
structure TellsLoss (sent : List PacketRecord) (s : SenderBasedController K) : Prop where
  placed : ∃ places, Placed sent s.packetHistory places
  exact : ∀ places, Placed sent s.packetHistory places → 5 ≤ s.packetHistory.length →
    ∀ first ∈ places.head?, ∀ last ∈ places.getLast?, last - first + 1 ≤ 65535 →
      ∃ nLoss plr, s.getPktLossInfo = .ok (some (nLoss, plr)) ∧
        nLoss.toNat = (missing places first last).card ∧
        plr = ((missing places first last).card : K) / ((last - first + 1 : ℕ) : K) ∧ 0 ≤ plr ∧ plr < 1

private theorem toNat_seqSpan {front back : UInt16} {n : Nat} (hback : back = front + UInt16.ofNat n)
    (hfits : n + 1 ≤ 65535) : (1 + back - front).toNat = n + 1 := by
  have hfront := front.toNat_lt
  rw [hback]
  simp only [UInt16.toNat_sub, UInt16.toNat_add, UInt16.toNat_ofNat', UInt16.reduceToNat]
  omega

variable [IsStrictOrderedRing K]

private theorem getPktLossInfo_exact (hc : Consecutive sent) {places : List Nat}
    (hplaced : Placed sent s.packetHistory places)
    (hlength : 5 ≤ s.packetHistory.length) {first last : Nat} (hfirst : first ∈ places.head?)
    (hlast : last ∈ places.getLast?) (hfits : last - first + 1 ≤ 65535) :
    ∃ nLoss plr, s.getPktLossInfo = .ok (some (nLoss, plr)) ∧
      nLoss.toNat = (missing places first last).card ∧
      plr = ((missing places first last).card : K) / ((last - first + 1 : ℕ) : K) ∧ 0 ≤ plr ∧ plr < 1 := by
  obtain ⟨hle, hcount⟩ := card_missing hplaced.increasing hfirst hlast
  rw [hplaced.length] at hcount
  obtain ⟨front, hfront, hfrontAt⟩ : ∃ front, s.packetHistory.head? = some front ∧ sent[first]? = some front.asSent := by
    have hrecords := congrArg List.head? hplaced.records
    rw [List.head?_map, List.head?_map, hfirst] at hrecords
    obtain ⟨front, hfront, hat⟩ := Option.map_eq_some_iff.mp hrecords.symm
    exact ⟨front, hfront, hat.symm⟩
  obtain ⟨back, hback, hbackAt⟩ : ∃ back, s.packetHistory.getLast? = some back ∧ sent[last]? = some back.asSent := by
    have hrecords := congrArg List.getLast? hplaced.records
    rw [List.getLast?_map, List.getLast?_map, hlast] at hrecords
    obtain ⟨back, hback, hat⟩ := Option.map_eq_some_iff.mp hrecords.symm
    exact ⟨back, hback, hat.symm⟩
  have hsequence : back.sequence = front.sequence + UInt16.ofNat (last - first) :=
    hc.sequence_add hfrontAt (last - first) back.asSent (by rwa [Nat.add_sub_cancel' hle])
  have hspan := toNat_seqSpan hsequence hfits
  have hlong : ¬ s.packetHistory.length < minPacketLoglen := not_lt.mpr hlength
  have hlost : last - first + 1 - s.packetHistory.length = (missing places first last).card := by omega
  have hnLoss : (UInt32.ofNat (missing places first last).card).toNat = (missing places first last).card := by
    rw [UInt32.toNat_ofNat']
    omega
  have hpos : (0 : K) < ((last - first + 1 : ℕ) : K) := Nat.cast_pos.mpr (Nat.succ_pos _)
  refine ⟨UInt32.ofNat (missing places first last).card, _, ?_, hnLoss, rfl, ?_, ?_⟩
  · rw [getPktLossInfo, if_neg hlong, hfront, hback]
    dsimp only
    rw [hspan, check_of (by omega), ok_bind, hlost, hnLoss]
    rfl
  · exact div_nonneg (Nat.cast_nonneg _) hpos.le
  · rw [div_lt_one hpos]
    exact Nat.cast_lt.mpr (by omega)

/-- After every run of sends with consecutive numbers, and any feedback, the loss count is exact. -/
theorem run_tells_loss {calls : List ControllerCall} (hsent : Consecutive (sentPackets calls))
    (hrun : run step (fresh : SenderBasedController K) calls = .ok s) : TellsLoss (sentPackets calls) s := by
  obtain ⟨n, -, -, hhist⟩ := (run_ordered hsent hrun).order
  refine ⟨exists_placed (hhist.trans (List.take_sublist n _)), ?_⟩
  intro places hplaced hlength first hfirst last hlast hfits
  exact getPktLossInfo_exact hsent hplaced hlength hfirst hlast hfits

/-- Six packets around the last number, one of which is never reported. -/
theorem run_tells_loss_wrapping :
    let calls : List ControllerCall := [.send 1000 65533 1200, .send 2000 65534 1200, .send 3000 65535 1200,
      .send 4000 0 1200, .send 5000 1 1200, .send 6000 2 1200, .feedback 9000 65533 5000 0,
      .feedback 9000 65534 6000 0, .feedback 9000 0 7000 0, .feedback 9000 1 8000 0, .feedback 9000 2 8500 0]
    ∃ s : SenderBasedController ℚ, run step fresh calls = .ok s ∧ s.getPktLossInfo = .ok (some (1, 1 / 6)) ∧
      TellsLoss (sentPackets calls) s := by
  intro calls
  have hsent : Consecutive (sentPackets calls) := by simp [calls, sentPackets, Consecutive]
  exact ⟨_, rfl, rfl, run_tells_loss hsent rfl⟩

end SenderBasedController

end Ns3Rmcat.Controller
