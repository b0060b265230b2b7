import Ns3Rmcat.Controller.SenderBasedRun
import Ns3Rmcat.Lib.SlidingWindow

/-! What one feedback does, by where its number stands: after the last packet sent, in transit,
or neither. -/
namespace Ns3Rmcat.Controller
open Lib

/-- The packets of a history that were sent less than the history length before another one. -/
def recent (packet : PacketRecord) (history : List PacketRecord) : List PacketRecord :=
  history.filter fun p => packet.txTimestampUs.toNat < p.txTimestampUs.toNat + 500000

/-- Too old for the history of a packet, by the comparison of garbage collection. -/
def stale (packet p : PacketRecord) : Bool :=
  !lessThan packet.txTimestampUs (p.txTimestampUs + defaultHistoryLengthUs)

private theorem stale_iff {packet p : PacketRecord} (hpacket : packet.txTimestampUs.toNat < 2 ^ 62)
    (hp : p.txTimestampUs.toNat < 2 ^ 62) :
    stale packet p = true ↔ p.txTimestampUs.toNat + 500000 ≤ packet.txTimestampUs.toNat := by
  have hadd := toNat_add_historyLength hp
  rw [stale, Bool.not_eq_true', lessThan_eq_false_iff_le (by omega) (by omega), hadd]

private theorem dropWhile_stale {packet : PacketRecord} {history : List PacketRecord} (ht : TimeOrdered history)
    (hpacket : packet.txTimestampUs.toNat < 2 ^ 62) : history.dropWhile (stale packet) = recent packet history := by
  have hfilter : recent packet history = history.filter fun p => !stale packet p := by
    refine List.filter_congr fun p hp => ?_
    rw [Bool.eq_iff_iff, decide_eq_true_eq, Bool.not_eq_true', ← Bool.not_eq_true,
      stale_iff hpacket (ht.early p hp), not_le]
  rw [hfilter, dropWhile_eq_filter_iff fun p _ hp => hp]
  refine ⟨fun p _ hp => hp, ht.sorted.imp_of_mem fun {p q} hp hq hle hstale => ?_⟩
  rw [stale_iff hpacket (ht.early q hq)] at hstale
  rw [stale_iff hpacket (ht.early p hp)]
  omega

namespace SenderBasedController
variable {K : Type} {s s' : SenderBasedController K} {sent : List PacketRecord}
variable {nowUs rxTimestampUs : UInt64} {sequence : UInt16} {ecn : UInt8} {b : Bool}

private theorem dropObsolete_stale {packet : PacketRecord} (ht : TimeOrdered s.packetHistory)
    (hpacket : packet.txTimestampUs.toNat < 2 ^ 62) :
    (s.dropObsolete packet).packetHistory.dropWhile (stale packet) = s.packetHistory.dropWhile (stale packet) := by
  rw [dropObsolete]
  cases hlast : s.packetHistory.getLast? with
  | none => rfl
  | some last =>
    dsimp only
    split
    · rename_i hold
      have hlastEarly := ht.early last (List.mem_of_getLast? hlast)
      have hadd := toNat_add_historyLength hlastEarly
      have hsilence : last.txTimestampUs.toNat + 500000 < packet.txTimestampUs.toNat := by
        rw [← hadd]
        exact (lessThan_iff_lt (by omega) (by omega)).mp hold
      have hall : ∀ p ∈ s.packetHistory, stale packet p = true := by
        intro p hp
        obtain ⟨front, hfront⟩ := List.getLast?_eq_some_iff.mp hlast
        have hle : p.txTimestampUs.toNat ≤ last.txTimestampUs.toNat := by
          have hsorted := ht.sorted
          rw [hfront] at hp hsorted
          rcases List.mem_append.mp hp with hfront | hback
          · exact (List.pairwise_append.mp hsorted).2.2 p hfront last (List.mem_singleton_self last)
          · rw [List.mem_singleton.mp hback]
        rw [stale_iff hpacket (ht.early p hp)]
        omega
      rw [List.dropWhile_eq_nil_iff.mpr hall]
      rfl
    · rfl

private theorem acceptPacket_history {packet : PacketRecord} (ht : TimeOrdered s.packetHistory)
    (hpacket : packet.txTimestampUs.toNat < 2 ^ 62) (hlength : s.historyLengthUs = defaultHistoryLengthUs)
    (h : s.acceptPacket packet nowUs rxTimestampUs = .ok (true, s')) :
    s'.inTransitPackets = s.inTransitPackets ∧
      s'.packetHistory = recent packet s.packetHistory ++ [packet.received nowUs rxTimestampUs] := by
  rcases acceptPacket_cases h with ⟨hfalse, -⟩ | ⟨-, -, mid, hmid, history, sum, hcollect, rfl⟩
  · cases hfalse
  have hrecord := recordPacket_ok hmid
  have hhistory : mid.packetHistory =
      (s.dropObsolete packet).packetHistory ++ [packet.received nowUs rxTimestampUs] := by rw [hrecord]
  have hframe : mid.inTransitPackets = s.inTransitPackets ∧ mid.historyLengthUs = s.historyLengthUs := by
    rw [hrecord]
    rcases dropObsolete_cases (s := s) packet with hd | hd <;> rw [hd] <;> exact ⟨rfl, rfl⟩
  have hlast : mid.packetHistory.getLast? = some (packet.received nowUs rxTimestampUs) := by
    rw [hhistory, List.getLast?_append, List.getLast?_singleton]
    rfl
  have hdrop : history = mid.packetHistory.dropWhile (stale packet) := by
    rw [collectHistory_dropWhile hlast hcollect, hframe.2, hlength]
    rfl
  have hfresh : ¬ stale packet (packet.received nowUs rxTimestampUs) = true := by
    have hself : ¬ stale packet packet = true := by
      rw [stale_iff hpacket hpacket]
      omega
    exact hself
  have hsnoc (older : List PacketRecord) : (older ++ [packet.received nowUs rxTimestampUs]).dropWhile (stale packet) =
      older.dropWhile (stale packet) ++ [packet.received nowUs rxTimestampUs] := by
    rw [List.dropWhile_append]
    split
    · rename_i hnone
      rw [List.isEmpty_iff.mp hnone, List.dropWhile_cons_of_neg hfresh]
      rfl
    · rfl
  refine ⟨hframe.1, ?_⟩
  rw [hdrop, hhistory, hsnoc, dropObsolete_stale ht hpacket, dropWhile_stale ht hpacket]

private theorem popStale_inTransit {before after : List PacketRecord} {packet : PacketRecord}
    (hc : Consecutive (before ++ packet :: after)) (hfew : (before ++ packet :: after).length ≤ 32767) :
    popStale packet.sequence (before ++ packet :: after) = .ok (packet, after) := by
  cases hqueue : before ++ packet :: after with
  | nil => simp at hqueue
  | cons front queue =>
    rw [hqueue] at hc hfew
    have hat : (front :: queue)[before.length]? = some packet := by
      rw [← hqueue]
      simp
    have hdistance : ahead front.sequence packet.sequence = before.length := by
      have hsequence := hc.sequence_add (i := 0) rfl before.length packet (by rwa [Nat.zero_add])
      have hlt := (List.getElem?_eq_some_iff.mp hat).1
      rw [hsequence, ahead_add _ (by omega)]
    have hback : lessThan ((front :: queue).getLast (by simp)).sequence packet.sequence = false := by
      have hahead := hc.ahead_last (by omega) hat (List.getLast?_eq_some_getLast (by simp))
      rw [← Bool.not_eq_true, lessThan_iff_behind, hahead]
      omega
    obtain ⟨found, rest, hdrop, -, hpop⟩ := popStale_found hc hback (by
      have hlt := (List.getElem?_eq_some_iff.mp hat).1
      omega)
    rw [hdistance, ← hqueue, List.drop_left] at hdrop
    cases hdrop
    exact hpop

private theorem before_front {front back : PacketRecord} {queue : List PacketRecord} (hc : Consecutive (front :: queue))
    (hback : (front :: queue).getLast? = some back) (hfew : (front :: queue).length ≤ 32767)
    (hpast : lessThan back.sequence sequence = false) (hhalf : ahead back.sequence sequence ≠ 32768)
    (hnone : ∀ packet ∈ front :: queue, packet.sequence ≠ sequence) : 32768 < ahead front.sequence sequence := by
  have hfront := hc.ahead_last (by omega) (i := 0) rfl hback
  have hbehind : ahead sequence back.sequence < 32768 := by
    have hseq := sequence.toNat_lt
    have hlast := back.sequence.toNat_lt
    rw [ahead_eq] at hhalf ⊢
    rcases lessThan_eq_false_iff.mp hpast with heq | hfar
    · rw [heq]
      omega
    · rw [ahead_eq] at hfar
      omega
  have hout : (front :: queue).length ≤ ahead sequence back.sequence := by
    by_contra hin
    have hlt : (front :: queue).length - 1 - ahead sequence back.sequence < (front :: queue).length := by
      rw [List.length_cons]
      omega
    have hat := List.getElem?_eq_getElem hlt
    have hahead := hc.ahead_last (by omega) hat hback
    refine hnone _ (List.getElem_mem hlt) ?_
    have hsame : ahead (front :: queue)[(front :: queue).length - 1 - ahead sequence back.sequence].sequence
        back.sequence = ahead sequence back.sequence := by omega
    rwa [ahead_left_inj] at hsame
  have hf := front.sequence.toNat_lt
  have hb := back.sequence.toNat_lt
  have hs := sequence.toNat_lt
  rw [List.length_cons] at hfront hout hfew
  rw [ahead_eq] at hfront hbehind hout ⊢
  omega

/-- What a feedback about a number does in a state that the packets sent have led to. -/
structure MatchesFeedback (sent : List PacketRecord) (s : SenderBasedController K) (nowUs : UInt64)
    (sequence : UInt16) (rxTimestampUs : UInt64) (ecn : UInt8) : Prop where
  future : lessThan s.lastSequence sequence = true →
    s.processFeedback nowUs sequence rxTimestampUs ecn = .ok (false, s)
  /-- The queue is the end of the packets sent. -/
  queue : s.inTransitPackets <:+ sent
  inTransit : ∀ before packet after, s.inTransitPackets = before ++ packet :: after → packet.sequence = sequence →
    lessThan s.lastSequence sequence = false ∧
      ∀ b s', s.processFeedback nowUs sequence rxTimestampUs ecn = .ok (b, s') → b = true ∧
        s'.inTransitPackets = after ∧
        s'.packetHistory = recent packet s.packetHistory ++ [packet.received nowUs rxTimestampUs]
  old : lessThan s.lastSequence sequence = false → (∀ packet ∈ s.inTransitPackets, packet.sequence ≠ sequence) →
    s.processFeedback nowUs sequence rxTimestampUs ecn = .ok (true, s)
  replay : ∀ b s', s.processFeedback nowUs sequence rxTimestampUs ecn = .ok (b, s') →
    ∀ laterUs laterRxUs laterEcn, s'.processFeedback laterUs sequence laterRxUs laterEcn = .ok (b, s')

private theorem processFeedback_future (h : lessThan s.lastSequence sequence = true) :
    s.processFeedback nowUs sequence rxTimestampUs ecn = .ok (false, s) := by
  rw [processFeedback, if_pos h]
  rfl

private theorem queue_consecutive (h : Ordered sent s) (hc : Consecutive sent) : Consecutive s.inTransitPackets := by
  obtain ⟨n, -, hqueue, -⟩ := h.order
  exact hqueue ▸ hc.drop n

private theorem processFeedback_old (h : Ordered sent s) (hc : Consecutive sent)
    (hfew : s.inTransitPackets.length ≤ 32767)
    (hhalf : ahead s.lastSequence sequence ≠ 32768) (hpast : lessThan s.lastSequence sequence = false)
    (hnone : ∀ packet ∈ s.inTransitPackets, packet.sequence ≠ sequence) :
    s.processFeedback nowUs sequence rxTimestampUs ecn = .ok (true, s) := by
  have hqueue := queue_consecutive h hc
  rw [processFeedback, if_neg (by simp [hpast])]
  cases htransit : s.inTransitPackets with
  | nil => rfl
  | cons front queue =>
    obtain ⟨back, hback⟩ : ∃ back, (front :: queue).getLast? = some back :=
      ⟨_, List.getLast?_eq_some_getLast (by simp)⟩
    have hlast : back.sequence = s.lastSequence := h.inTransit_last (by rw [htransit]; exact hback)
    rw [htransit] at hqueue hfew hnone
    have hfar := before_front hqueue hback hfew (hlast ▸ hpast) (hlast ▸ hhalf) hnone
    rw [hback]
    dsimp only
    rw [check_of hlast, ok_bind, popStale_front (by omega), ok_bind]
    dsimp only
    rw [if_pos (lessThan_iff_behind.mpr hfar), ← htransit]
    rfl

private theorem past_of_inTransit (h : Ordered sent s) (hc : Consecutive sent)
    (hfew : s.inTransitPackets.length ≤ 32767) {before after : List PacketRecord} {packet : PacketRecord}
    (htransit : s.inTransitPackets = before ++ packet :: after) :
    lessThan s.lastSequence packet.sequence = false := by
  obtain ⟨back, hback⟩ : ∃ back, s.inTransitPackets.getLast? = some back := by
    rw [htransit]
    exact ⟨_, List.getLast?_eq_some_getLast (by simp)⟩
  have hat : s.inTransitPackets[before.length]? = some packet := by simp [htransit]
  have hahead := (queue_consecutive h hc).ahead_last (by omega) hat hback
  rw [← h.inTransit_last hback, ← Bool.not_eq_true, lessThan_iff_behind, hahead]
  omega

private theorem processFeedback_inTransit (h : Ordered sent s) (hc : Consecutive sent)
    (hfew : s.inTransitPackets.length ≤ 32767) {before after : List PacketRecord} {packet : PacketRecord}
    (htransit : s.inTransitPackets = before ++ packet :: after) :
    s.processFeedback nowUs packet.sequence rxTimestampUs ecn =
      acceptPacket { s with inTransitPackets := after } packet nowUs rxTimestampUs := by
  have hqueue := queue_consecutive h hc
  have hpast := past_of_inTransit h hc hfew htransit
  obtain ⟨back, hback⟩ : ∃ back, s.inTransitPackets.getLast? = some back := by
    rw [htransit]
    exact ⟨_, List.getLast?_eq_some_getLast (by simp)⟩
  have hlast := h.inTransit_last hback
  have hpop : popStale packet.sequence s.inTransitPackets = .ok (packet, after) := by
    rw [htransit] at hqueue hfew ⊢
    exact popStale_inTransit hqueue hfew
  have hself : ¬ lessThan packet.sequence packet.sequence = true := by simp [lessThan]
  rw [processFeedback, if_neg (by simp [hpast]), hback]
  dsimp only
  rw [check_of hlast, ok_bind, hpop, ok_bind]
  dsimp only
  rw [if_neg hself, check_of rfl, ok_bind]

private theorem number_once {before after : List PacketRecord} {packet other : PacketRecord}
    (hc : Consecutive (before ++ packet :: after)) (hfew : (before ++ packet :: after).length ≤ 65536)
    (hother : other ∈ after) : other.sequence ≠ packet.sequence := by
  obtain ⟨k, hk, rfl⟩ := List.getElem_of_mem hother
  obtain ⟨back, hback⟩ : ∃ back, (before ++ packet :: after).getLast? = some back :=
    ⟨_, List.getLast?_eq_some_getLast (by simp)⟩
  have hat : (before ++ packet :: after)[before.length]? = some packet := by simp
  have hatOther : (before ++ packet :: after)[before.length + (k + 1)]? = some after[k] := by simp [hk]
  have h1 := hc.ahead_last hfew hat hback
  have h2 := hc.ahead_last hfew hatOther hback
  rw [List.length_append, List.length_cons] at h1 h2
  intro he
  rw [he] at h2
  omega

private theorem inTransit_accepted (h : RunInvariant sent s) (hsent : SentInOrder sent)
    (hz : ∀ p ∈ sent, p.owdUs = 0 ∧ p.rttUs = 0) (hfew : s.inTransitPackets.length ≤ 32767)
    {before after : List PacketRecord} {packet : PacketRecord} (htransit : s.inTransitPackets = before ++ packet :: after)
    (hfeedback : s.processFeedback nowUs packet.sequence rxTimestampUs ecn = .ok (b, s')) :
    b = true ∧ s'.inTransitPackets = after ∧
      s'.packetHistory = recent packet s.packetHistory ++ [packet.received nowUs rxTimestampUs] := by
  obtain ⟨n, hn, hqueue, hhist⟩ := h.order
  have hdrop : sent.drop (n + before.length) = packet :: after := by
    rw [← List.drop_drop, ← hqueue, htransit, List.drop_left]
  have hlt : n + before.length < sent.length := by
    by_contra hle
    rw [List.drop_eq_nil_of_le (Nat.le_of_not_lt hle)] at hdrop
    cases hdrop
  have hmem : packet ∈ sent := List.mem_of_mem_drop (hdrop ▸ List.mem_cons_self)
  rw [processFeedback_inTransit h.ordered hsent.consecutive hfew htransit] at hfeedback
  obtain ⟨rfl, -⟩ := accept_invariant h hsent.timeOrdered hlt hdrop (hz packet hmem)
    (hhist.trans (List.take_sublist_take_left (Nat.le_add_right n before.length))) hfeedback
  have hhistory := acceptPacket_history (s := { s with inTransitPackets := after })
    (h.history_timeOrdered hsent.timeOrdered) (hsent.timeOrdered.early packet hmem) h.historyLengthUs hfeedback
  exact ⟨rfl, hhistory⟩

/-- In every state that consecutive sends with times in order, and any feedback, can reach, each
feedback is matched by where its number stands, and a second time it does nothing. -/
theorem run_matches_feedback [Field K] {calls : List ControllerCall} (hsent : SentInOrder (sentPackets calls))
    (hrun : run step fresh calls = .ok s) (hfew : s.inTransitPackets.length ≤ 32767) (nowUs : UInt64)
    (sequence : UInt16) (rxTimestampUs : UInt64) (ecn : UInt8) (hhalf : ahead s.lastSequence sequence ≠ 32768) :
    MatchesFeedback (sentPackets calls) s nowUs sequence rxTimestampUs ecn := by
  have hinv := run_invariant hsent hrun
  have hz := sentPackets_fresh calls
  obtain ⟨n, -, hqueue, -⟩ := hinv.order
  refine ⟨processFeedback_future, ⟨_, hqueue ▸ List.take_append_drop n _⟩, ?_, ?_, ?_⟩
  · rintro before packet after htransit rfl
    refine ⟨past_of_inTransit hinv.ordered hsent.consecutive hfew htransit, fun b s' hfeedback => ?_⟩
    exact inTransit_accepted hinv hsent hz hfew htransit hfeedback
  · exact processFeedback_old hinv.ordered hsent.consecutive hfew hhalf
  · intro b s' hfeedback laterUs laterRxUs laterEcn
    by_cases hfuture : lessThan s.lastSequence sequence = true
    · cases (processFeedback_future hfuture).symm.trans hfeedback
      exact processFeedback_future hfuture
    · rw [Bool.not_eq_true] at hfuture
      by_cases hin : ∃ packet ∈ s.inTransitPackets, packet.sequence = sequence
      · obtain ⟨packet, hmem, rfl⟩ := hin
        obtain ⟨before, after, htransit⟩ := List.append_of_mem hmem
        obtain ⟨rfl, hafter, -⟩ := inTransit_accepted hinv hsent hz hfew htransit hfeedback
        have hordered := feedback_ordered hinv.ordered hz hfeedback
        have hconsecutive := queue_consecutive hinv.ordered hsent.consecutive
        have hlast : s'.lastSequence = s.lastSequence := by
          cases hsome : (sentPackets calls).getLast? with
          | none =>
            rw [List.getLast?_eq_none_iff.mp hsome, List.drop_nil] at hqueue
            rw [hqueue] at hmem
            cases hmem
          | some last => exact (hordered.lastSequence last hsome).symm.trans (hinv.lastSequence last hsome)
        rw [htransit] at hconsecutive hfew
        refine processFeedback_old hordered hsent.consecutive ?_ (hlast ▸ hhalf) (hlast ▸ hfuture) ?_
        · rw [hafter]
          rw [List.length_append, List.length_cons] at hfew
          omega
        · intro other hother
          rw [hafter] at hother
          exact number_once hconsecutive (by omega) hother
      · have hnone : ∀ packet ∈ s.inTransitPackets, packet.sequence ≠ sequence := by
          intro packet hmem he
          exact hin ⟨packet, hmem, he⟩
        have hsame (nowUs rxTimestampUs : UInt64) (ecn : UInt8) :
            s.processFeedback nowUs sequence rxTimestampUs ecn = .ok (true, s) :=
          processFeedback_old hinv.ordered hsent.consecutive hfew hhalf hfuture hnone
        cases (hsame nowUs rxTimestampUs ecn).symm.trans hfeedback
        exact hsame laterUs laterRxUs laterEcn

/-- Of two packets around the last number the second one is reported, and then the first one. -/
theorem run_matches_feedback_wrapping :
    let calls : List ControllerCall := [.send 1000 65535 1200, .send 2000 0 800, .feedback 9000 0 6000 0]
    ∃ s : SenderBasedController ℚ, run step fresh calls = .ok s ∧
      MatchesFeedback (sentPackets calls) s 9500 65535 5000 0 := by
  intro calls
  let s : SenderBasedController ℚ := { fresh with
    firstSend := false
    lastSequence := 0
    baseDelayUs := 4000
    packetHistory := [⟨0, 2000, 800, 4000, 7000⟩]
    pktSizeSum := 800
    ilState := { intervals := [1], expectedSeq := 1 } }
  have hsent : SentInOrder (sentPackets calls) :=
    ⟨by simp [calls, sentPackets, Consecutive], ⟨by simp [calls, sentPackets], by simp [calls, sentPackets]⟩⟩
  have hrun : run step fresh calls = .ok s := rfl
  have hfew : s.inTransitPackets.length ≤ 32767 := Nat.zero_le _
  exact ⟨s, hrun, run_matches_feedback hsent hrun hfew 9500 65535 5000 0 (by decide)⟩

end SenderBasedController

end Ns3Rmcat.Controller
