import Ns3Rmcat.Controller.SenderBased

/-! What each loop and each function of the sender-based controller can do,
stated once. The run results use these facts and never unfold the functions again. -/
namespace Ns3Rmcat.Controller
open Lib

/-- The record as it was when the packet was sent. -/
def PacketRecord.asSent (p : PacketRecord) : PacketRecord := { p with owdUs := 0, rttUs := 0 }

/-- The packet as it enters the history, with its delays filled in. -/
def PacketRecord.received (p : PacketRecord) (nowUs rxTimestampUs : UInt64) : PacketRecord :=
  { p with owdUs := rxTimestampUs - p.txTimestampUs, rttUs := nowUs - p.txTimestampUs }

def bytesOf (ps : List PacketRecord) : Nat := (ps.map fun p => p.size.toNat).sum

@[simp] theorem bytesOf_nil : bytesOf [] = 0 := rfl

@[simp] theorem bytesOf_cons (p : PacketRecord) (ps : List PacketRecord) :
    bytesOf (p :: ps) = p.size.toNat + bytesOf ps := by simp [bytesOf]

@[simp] theorem bytesOf_append (ps qs : List PacketRecord) :
    bytesOf (ps ++ qs) = bytesOf ps + bytesOf qs := by simp [bytesOf]

@[simp] theorem bytesOf_asSent (ps : List PacketRecord) :
    bytesOf (ps.map PacketRecord.asSent) = bytesOf ps := by
  simp [bytesOf, Function.comp_def, PacketRecord.asSent]

theorem bytesOf_sublist {ps qs : List PacketRecord} (h : ps.Sublist qs) : bytesOf ps ≤ bytesOf qs :=
  (h.map _).sum_le_sum (by simp)

/-- The eviction loop stops with the newest packet still in the queue. -/
theorem evictOld_newest (queue : List PacketRecord) (newest : PacketRecord) :
    ∃ k ≤ queue.length,
      evictOld newest.txTimestampUs (queue ++ [newest]) = .ok ((queue ++ [newest]).drop k) := by
  induction queue with
  | nil =>
    have h : lessThan (newest.txTimestampUs + 10 * maxInterPacketTimeUs) newest.txTimestampUs = false := by
      have ht := newest.txTimestampUs.toNat_lt
      simp only [lessThan, maxInterPacketTimeUs, decide_eq_false_iff_not, UInt64.lt_iff_toNat_lt,
        UInt64.toNat_sub, UInt64.toNat_add, UInt64.toNat_mul, UInt64.reduceToNat]
      omega
    exact ⟨0, le_rfl, by simp [evictOld, h]⟩
  | cons front rest ih =>
    by_cases h : lessThan (front.txTimestampUs + 10 * maxInterPacketTimeUs) newest.txTimestampUs
    · obtain ⟨k, hk, he⟩ := ih
      exact ⟨k + 1, by simpa using hk, by simpa [evictOld, h] using he⟩
    · exact ⟨0, by omega, by simp [evictOld, h]⟩

/-- Sequence numbers of packets sent one after the other. -/
def Consecutive (ps : List PacketRecord) : Prop :=
  ps.IsChain fun p q => q.sequence = p.sequence + 1

theorem Consecutive.drop {ps : List PacketRecord} (h : Consecutive ps) (k : Nat) :
    Consecutive (ps.drop k) := List.IsChain.drop h k

/-- Consecutive numbers count the packets between two positions. -/
theorem Consecutive.sequence_add {ps : List PacketRecord} (h : Consecutive ps) {i : Nat} {p : PacketRecord}
    (hp : ps[i]? = some p) : ∀ (n : Nat) (q : PacketRecord), ps[i + n]? = some q →
      q.sequence = p.sequence + UInt16.ofNat n := by
  intro n
  induction n with
  | zero =>
    intro q hq
    cases hp.symm.trans hq
    exact (UInt16.add_zero _).symm
  | succ n ih =>
    intro q hq
    obtain ⟨hlt, hget⟩ := List.getElem?_eq_some_iff.mp hq
    have hbefore := ih ps[i + n] (List.getElem?_eq_getElem (by omega))
    have hnext := List.isChain_iff_getElem.mp h (i + n) hlt
    rw [← hget]
    refine hnext.trans ?_
    rw [hbefore, UInt16.add_assoc, UInt16.ofNat_add]
    rfl

/-- How far the last of consecutive numbers is ahead of another one of them. -/
theorem Consecutive.ahead_last {ps : List PacketRecord} (h : Consecutive ps) (hfew : ps.length ≤ 65536) {i : Nat}
    {p last : PacketRecord} (hp : ps[i]? = some p) (hlast : ps.getLast? = some last) :
    ahead p.sequence last.sequence = ps.length - 1 - i := by
  obtain ⟨hi, -⟩ := List.getElem?_eq_some_iff.mp hp
  rw [List.getLast?_eq_getElem?] at hlast
  have hsequence := h.sequence_add hp (ps.length - 1 - i) last (by rwa [Nat.add_sub_cancel' (by omega)])
  rw [hsequence, ahead_add _ (by omega)]

theorem popStale_ok {sequence : UInt16} {queue rest : List PacketRecord} {front : PacketRecord}
    (h : popStale sequence queue = .ok (front, rest)) :
    ∃ k, queue.drop k = front :: rest ∧ lessThan front.sequence sequence = false := by
  induction queue with
  | nil => cases h
  | cons p queue ih =>
    by_cases hp : lessThan p.sequence sequence
    · obtain ⟨k, hk, hf⟩ := ih (by simpa [popStale, hp] using h)
      exact ⟨k + 1, by simpa using hk, hf⟩
    · simp only [popStale, hp, Bool.false_eq_true, if_false, Except.ok.injEq, Prod.mk.injEq] at h
      obtain ⟨rfl, rfl⟩ := h
      exact ⟨0, rfl, by simpa using hp⟩

/-- On consecutive numbers the loop stops at the packet it looks for, if that one is
less than half the number range after the front and not after the back. -/
theorem popStale_found {sequence : UInt16} {queue : List PacketRecord} {front : PacketRecord}
    (hc : Consecutive (front :: queue))
    (hback : lessThan ((front :: queue).getLast (by simp)).sequence sequence = false)
    (hd : ahead front.sequence sequence < 32768) :
    ∃ packet rest, (front :: queue).drop (ahead front.sequence sequence) = packet :: rest ∧
      packet.sequence = sequence ∧ popStale sequence (front :: queue) = .ok (packet, rest) := by
  induction queue generalizing front with
  | nil =>
    have he : front.sequence = sequence := by
      rcases lessThan_eq_false_iff.mp hback with h | h
      · exact h
      · simp only [List.getLast_singleton] at h
        omega
    exact ⟨front, [], by simp [he], he, by simp [popStale, he, lessThan]⟩
  | cons next queue ih =>
    by_cases h0 : ahead front.sequence sequence = 0
    · have he := ahead_eq_zero_iff.mp h0
      exact ⟨front, next :: queue, by simp [he], he, by simp [popStale, he, lessThan]⟩
    · have hlt : lessThan front.sequence sequence = true := lessThan_iff_ahead.mpr ⟨by omega, hd⟩
      have hn : next.sequence = front.sequence + 1 := by
        rw [Consecutive, List.isChain_cons_cons] at hc
        exact hc.1
      have hstep : ahead front.sequence sequence = ahead next.sequence sequence + 1 := by
        have h1 := front.sequence.toNat_lt
        have h2 := sequence.toNat_lt
        rw [ahead_eq] at h0 ⊢
        rw [ahead_eq, hn]
        simp only [UInt16.toNat_add, UInt16.reduceToNat]
        omega
      obtain ⟨packet, rest, hdrop, hs, hp⟩ := ih (List.IsChain.tail hc)
        (by simpa using hback) (by omega)
      refine ⟨packet, rest, ?_, hs, ?_⟩
      · rw [hstep, List.drop_succ_cons, hdrop]
      · simpa [popStale, hlt] using hp

/-- Half the number range or more behind the front, nothing is removed. -/
theorem popStale_front {sequence : UInt16} {queue : List PacketRecord} {front : PacketRecord}
    (hd : 32768 ≤ ahead front.sequence sequence) :
    popStale sequence (front :: queue) = .ok (front, queue) := by
  simp [popStale, lessThan_eq_false_iff.mpr (Or.inr hd)]

/-- Send times that never decrease and stay far from the end of the 64-bit range. -/
structure TimeOrdered (ps : List PacketRecord) : Prop where
  sorted : ps.Pairwise fun p q => p.txTimestampUs.toNat ≤ q.txTimestampUs.toNat
  early : ∀ p ∈ ps, p.txTimestampUs.toNat < 2 ^ 62

theorem TimeOrdered.sublist {ps qs : List PacketRecord} (h : TimeOrdered qs) (hs : ps.Sublist qs) :
    TimeOrdered ps :=
  ⟨h.sorted.sublist hs, fun p hp => h.early p (hs.subset hp)⟩

/-- Only the send times matter, so records may have their delays filled in. -/
theorem timeOrdered_asSent {ps : List PacketRecord} :
    TimeOrdered (ps.map PacketRecord.asSent) ↔ TimeOrdered ps := by
  constructor
  · rintro ⟨hs, he⟩
    exact ⟨by simpa [List.pairwise_map, PacketRecord.asSent] using hs,
      fun p hp => he p.asSent (List.mem_map_of_mem hp)⟩
  · rintro ⟨hs, he⟩
    refine ⟨by simpa [List.pairwise_map, PacketRecord.asSent] using hs, fun p hp => ?_⟩
    obtain ⟨q, hq, rfl⟩ := List.mem_map.mp hp
    exact he q hq

/-- The end of the history window, which no send time reaches the wrapping of. -/
theorem toNat_add_historyLength {t : UInt64} (ht : t.toNat < 2 ^ 62) :
    (t + defaultHistoryLengthUs).toNat = t.toNat + 500000 := by
  simp only [defaultHistoryLengthUs, UInt64.toNat_add, UInt64.toNat_mul, UInt64.reduceToNat]
  omega

/-- Garbage collection keeps a non-empty end of the history, shorter in time than
the history length, and the running sum follows it. -/
theorem collectHistory_suffix {length : UInt64} {ps history : List PacketRecord} {sum sum' : UInt32}
    (h : collectHistory length ps sum = .ok (history, sum')) (hs : sum = UInt32.ofNat (bytesOf ps)) :
    ∃ k < ps.length, history = ps.drop k ∧ sum' = UInt32.ofNat (bytesOf history) ∧
      ∀ first ∈ history.head?, ∀ last ∈ history.getLast?,
        lessThan last.txTimestampUs (first.txTimestampUs + length) = true := by
  induction ps generalizing sum with
  | nil => cases h
  | cons front rest ih =>
    rw [collectHistory, check_bind_eq_ok] at h
    obtain ⟨-, h⟩ := h
    split at h
    · rename_i hin
      cases h
      refine ⟨0, by simp, rfl, hs, fun first hfirst last hlast => ?_⟩
      have hf : front = first := by simpa using hfirst
      have hl : (front :: rest).getLast (by simp) = last := by
        rw [List.getLast?_eq_some_getLast (by simp)] at hlast
        exact Option.some.inj hlast
      rw [← hf, ← hl]
      exact hin
    · obtain ⟨-, h⟩ := check_bind_eq_ok.mp h
      have hrest : sum - front.size = UInt32.ofNat (bytesOf rest) := by
        rw [hs, bytesOf_cons, UInt32.ofNat_add, UInt32.ofNat_toNat, UInt32.add_comm,
          UInt32.add_sub_cancel]
      obtain ⟨k, hk, rfl, hsum, hwindow⟩ := ih h hrest
      exact ⟨k + 1, by simpa using hk, rfl, hsum, hwindow⟩

/-- What garbage collection removes from the front is what is too old for the newest packet. -/
theorem collectHistory_dropWhile {length : UInt64} {ps history : List PacketRecord} {last : PacketRecord}
    {sum sum' : UInt32} (hlast : ps.getLast? = some last)
    (h : collectHistory length ps sum = .ok (history, sum')) :
    history = ps.dropWhile fun p => !lessThan last.txTimestampUs (p.txTimestampUs + length) := by
  induction ps generalizing sum with
  | nil => cases h
  | cons front rest ih =>
    have hget : (front :: rest).getLast (by simp) = last := by
      rw [List.getLast?_eq_some_getLast (by simp)] at hlast
      exact Option.some.inj hlast
    rw [collectHistory, hget, check_bind_eq_ok] at h
    obtain ⟨-, h⟩ := h
    split at h
    · rename_i hin
      cases h
      rw [List.dropWhile_cons_of_neg (by simp [hin])]
    · rename_i hout
      obtain ⟨-, h⟩ := check_bind_eq_ok.mp h
      rw [List.dropWhile_cons_of_pos (by simpa using hout)]
      refine ih ?_ h
      cases rest with
      | nil => cases h
      | cons next rest => rwa [List.getLast?_cons_cons] at hlast

/-- The newest packet is always kept. -/
theorem collectHistory_ne_nil {length : UInt64} {ps history : List PacketRecord} {sum sum' : UInt32}
    (h : collectHistory length ps sum = .ok (history, sum')) : history ≠ [] := by
  induction ps generalizing sum with
  | nil => cases h
  | cons front rest ih =>
    rw [collectHistory, check_bind_eq_ok] at h
    obtain ⟨-, h⟩ := h
    split at h
    · cases h
      simp
    · exact ih (check_bind_eq_ok.mp h).2

/-- On send times in order and with an exact sum, garbage collection never fails. -/
theorem collectHistory_returns {ps : List PacketRecord} {sum : UInt32} (hne : ps ≠ [])
    (ht : TimeOrdered ps) (hs : sum.toNat = bytesOf ps) :
    Returns (collectHistory defaultHistoryLengthUs ps sum) := by
  induction ps generalizing sum with
  | nil => exact absurd rfl hne
  | cons first rest ih =>
    have hmem := List.getLast_mem (l := first :: rest) (by simp)
    generalize hlast : (first :: rest).getLast (by simp) = last at hmem
    have hf := ht.early first (by simp)
    have hl := ht.early last hmem
    have hfl : first.txTimestampUs.toNat ≤ last.txTimestampUs.toNat := by
      rcases List.mem_cons.mp hmem with rfl | hm
      · exact le_rfl
      · exact (List.pairwise_cons.mp ht.sorted).1 last hm
    have hadd := toNat_add_historyLength hf
    have hord : lessThan last.txTimestampUs first.txTimestampUs = false :=
      (lessThan_eq_false_iff_le (by omega) (by omega)).mpr hfl
    rw [collectHistory, hlast, check_of hord, ok_bind]
    split
    · exact returns_ok _
    · rename_i hout
      have hle : first.size ≤ sum := by
        rw [UInt32.le_iff_toNat_le, hs]
        simp
      rw [check_of hle, ok_bind]
      refine ih ?_ (ht.sublist (List.sublist_cons_self first rest)) ?_
      · -- A history of one packet is within any limits.
        rintro rfl
        obtain rfl : first = last := by simpa using hlast
        rw [lessThan_iff_lt (by omega) (by omega)] at hout
        omega
      · rw [UInt32.toNat_sub_of_le _ _ hle, hs]
        simp

namespace SenderBasedController
variable {K : Type} {s s' : SenderBasedController K}

/-- A send changes the packets in transit and the number that is expected next. -/
theorem processSendPacket_frame {txTimestampUs : UInt64} {sequence : UInt16} {size : UInt32} {ok : Bool}
    (h : s.processSendPacket txTimestampUs sequence size = .ok (ok, s')) :
    ∃ lastSequence queue, s' =
      { s with firstSend := false, lastSequence := lastSequence, inTransitPackets := queue } := by
  rw [processSendPacket] at h
  cases hfirst : s.firstSend with
  | true =>
    simp only [hfirst, if_true] at h
    split at h
    · cases h
      exact ⟨_, _, rfl⟩
    · obtain ⟨queue, -, h⟩ := bind_eq_ok.mp h
      cases h
      exact ⟨_, _, rfl⟩
  | false =>
    simp only [hfirst, Bool.false_eq_true, if_false] at h
    split at h
    · cases h
      exact ⟨_, _, by rw [← hfirst]⟩
    · obtain ⟨queue, -, h⟩ := bind_eq_ok.mp h
      cases h
      exact ⟨_, _, by rw [← hfirst]⟩

/-- No send fails, since the packet itself stops the eviction. -/
theorem processSendPacket_returns (txTimestampUs : UInt64) (sequence : UInt16) (size : UInt32) :
    Returns (s.processSendPacket txTimestampUs sequence size) := by
  rw [processSendPacket]
  generalize (if s.firstSend = true then { s with lastSequence := sequence - 1, firstSend := false } else s) = base
  dsimp only
  split
  · exact ⟨_, rfl⟩
  · obtain ⟨k, -, hqueue⟩ :=
      evictOld_newest base.inTransitPackets ⟨base.lastSequence + 1, txTimestampUs, size, 0, 0⟩
    rw [hqueue]
    exact ⟨_, rfl⟩

/-- The assertion of the inter-loss update, which a new history does not reach. -/
def InterLossSafe (s : SenderBasedController K) (sequence : UInt16) : Prop :=
  s.packetHistory ≠ [] → sequence = s.ilState.expectedSeq ∨
    s.ilState.expectedSeq < sequence ∨ (sequence < 50 ∧ 65485 < s.ilState.expectedSeq)

private theorem updateInterLossData_returns (sequence : UInt16) :
    Returns (s.updateInterLossData sequence) ↔ s.InterLossSafe sequence := by
  rw [updateInterLossData, InterLossSafe]
  cases hh : s.packetHistory with
  | nil => simp
  | cons p ps =>
    have h50 : (65535 - 50 : UInt16) = 65485 := rfl
    by_cases he : sequence = s.ilState.expectedSeq
    · simp [he]
    · by_cases hc : s.ilState.expectedSeq < sequence ∨ (sequence < 50 ∧ 65485 < s.ilState.expectedSeq)
      · simp [he, hc, h50]
      · simp [he, hc, h50]

theorem updateInterLossData_frame {sequence : UInt16}
    (h : s.updateInterLossData sequence = .ok s') : s' = { s with ilState := s'.ilState } := by
  simp only [updateInterLossData, pure_eq_ok] at h
  generalize (if s.packetHistory.isEmpty then
    ({ expectedSeq := sequence } : InterLossState) else s.ilState) = il at h
  by_cases he : sequence = il.expectedSeq
  · simp only [he, if_true, Except.ok.injEq] at h
    subst h
    rfl
  · simp only [he, if_false, check_bind_eq_ok, Except.ok.injEq] at h
    obtain ⟨-, rfl⟩ := h
    rfl

/-- The packets in transit play no part in dropping the history. -/
theorem dropObsolete_queue (packet : PacketRecord) (queue : List PacketRecord) :
    ({ s with inTransitPackets := queue } : SenderBasedController K).dropObsolete packet =
      { s.dropObsolete packet with inTransitPackets := queue } := by
  simp only [dropObsolete]
  cases s.packetHistory.getLast? with
  | none => rfl
  | some last =>
    by_cases h : lessThan (last.txTimestampUs + maxInterPacketTimeUs) packet.txTimestampUs = true
    · simp [h]
    · simp [h]

/-- The history of the packet: all of it, or nothing when it is obsolete. -/
theorem dropObsolete_cases (packet : PacketRecord) :
    s.dropObsolete packet = s ∨
      s.dropObsolete packet = { s with packetHistory := [], pktSizeSum := 0 } := by
  rw [dropObsolete]
  split
  · exact .inl rfl
  · split
    · exact .inr rfl
    · exact .inl rfl

theorem recordPacket_ok {packet : PacketRecord} {nowUs rxTimestampUs : UInt64}
    (h : s.recordPacket packet nowUs rxTimestampUs = .ok s') :
    s' = { s with
      baseDelayUs := s'.baseDelayUs
      ilState := s'.ilState
      packetHistory := s.packetHistory ++ [packet.received nowUs rxTimestampUs]
      pktSizeSum := s.pktSizeSum + packet.size } := by
  simp only [recordPacket, bind_eq_ok, check_eq_ok, exists_const, pure_eq_ok, Except.ok.injEq] at h
  obtain ⟨-, -, s1, h1, rfl⟩ := h
  have hf := updateInterLossData_frame h1
  split at hf <;> (rw [hf]; rfl)

/-- Recording a packet updates the inter-loss state, whatever becomes of the base delay. -/
theorem recordPacket_interLoss {packet : PacketRecord} {nowUs rxTimestampUs : UInt64}
    (h : s.recordPacket packet nowUs rxTimestampUs = .ok s') :
    ∃ baseDelayUs next, ({ s with baseDelayUs } : SenderBasedController K).updateInterLossData packet.sequence =
      .ok next ∧ s'.ilState = next.ilState := by
  simp only [recordPacket, bind_eq_ok, check_eq_ok, exists_const, pure_eq_ok, Except.ok.injEq] at h
  obtain ⟨-, -, next, hnext, rfl⟩ := h
  split at hnext
  · exact ⟨_, next, hnext, rfl⟩
  · exact ⟨s.baseDelayUs, next, hnext, rfl⟩

theorem recordPacket_returns {packet : PacketRecord} (nowUs rxTimestampUs : UInt64)
    (howd : packet.owdUs = 0) (hrtt : packet.rttUs = 0) :
    Returns (s.recordPacket packet nowUs rxTimestampUs) ↔ s.InterLossSafe packet.sequence := by
  simp only [recordPacket, howd, hrtt, check_of, ok_bind, returns_bind, pure_eq_ok, returns_ok, and_true]
  have h := updateInterLossData_returns
    (s := if s.packetHistory.isEmpty || lessThan (rxTimestampUs - packet.txTimestampUs) s.baseDelayUs then
      { s with baseDelayUs := rxTimestampUs - packet.txTimestampUs } else s) packet.sequence
  rw [Returns] at h
  rw [h]
  rw [InterLossSafe]
  split <;> rfl

/-- Everything that accepting a packet can do. -/
theorem acceptPacket_cases {packet : PacketRecord} {nowUs rxTimestampUs : UInt64} {b : Bool}
    (h : s.acceptPacket packet nowUs rxTimestampUs = .ok (b, s')) :
    (b = false ∧ s' = s ∧ ∃ last ∈ s.packetHistory.getLast?,
      lessThan packet.txTimestampUs last.txTimestampUs = true) ∨
    (b = true ∧ s.packetHistory.getLast?.any (fun last => lessThan packet.txTimestampUs last.txTimestampUs) = false ∧
      ∃ mid, (s.dropObsolete packet).recordPacket packet nowUs rxTimestampUs = .ok mid ∧ ∃ history sum,
        collectHistory mid.historyLengthUs mid.packetHistory mid.pktSizeSum = .ok (history, sum) ∧
          s' = { mid with packetHistory := history, pktSizeSum := sum }) := by
  rw [acceptPacket] at h
  split at h
  · rename_i hd
    obtain ⟨last, hl, hlt⟩ := (Option.any_eq_true _ _).mp hd
    simp only [pure_eq_ok, Except.ok.injEq, Prod.mk.injEq] at h
    exact .inl ⟨h.1.symm, h.2.symm, last, hl, hlt⟩
  · rename_i hd
    simp only [bind_eq_ok, pure_eq_ok, Except.ok.injEq, Prod.mk.injEq, Prod.exists] at h
    obtain ⟨mid, hm, history, sum, hc, rfl, rfl⟩ := h
    exact .inr ⟨rfl, by simpa using hd, mid, hm, history, sum, hc, rfl⟩

/-- Everything that processing one feedback can do. -/
theorem processFeedback_cases {nowUs rxTimestampUs : UInt64} {sequence : UInt16} {ecn : UInt8} {b : Bool}
    (h : s.processFeedback nowUs sequence rxTimestampUs ecn = .ok (b, s')) :
    (lessThan s.lastSequence sequence = true ∧ b = false ∧ s' = s) ∨
    (lessThan s.lastSequence sequence = false ∧ s.inTransitPackets = [] ∧ b = true ∧ s' = s) ∨
    (lessThan s.lastSequence sequence = false ∧ ∃ front rest,
      popStale sequence s.inTransitPackets = .ok (front, rest) ∧
      lessThan sequence front.sequence = true ∧ b = true ∧
      s' = { s with inTransitPackets := front :: rest }) ∨
    (lessThan s.lastSequence sequence = false ∧ ∃ packet rest,
      popStale sequence s.inTransitPackets = .ok (packet, rest) ∧ packet.sequence = sequence ∧
      acceptPacket { s with inTransitPackets := rest } packet nowUs rxTimestampUs = .ok (b, s')) := by
  rw [processFeedback] at h
  split at h
  · rename_i hf
    simp only [pure_eq_ok, Except.ok.injEq, Prod.mk.injEq] at h
    exact .inl ⟨hf, h.1.symm, h.2.symm⟩
  · rename_i hf
    simp only [Bool.not_eq_true] at hf
    split at h
    · rename_i hn
      simp only [pure_eq_ok, Except.ok.injEq, Prod.mk.injEq] at h
      exact .inr (.inl ⟨hf, List.getLast?_eq_none_iff.mp hn, h.1.symm, h.2.symm⟩)
    · simp only [bind_eq_ok, check_eq_ok, exists_const, Prod.exists] at h
      obtain ⟨-, front, rest, hp, h⟩ := h
      split at h
      · rename_i hlt
        simp only [pure_eq_ok, Except.ok.injEq, Prod.mk.injEq] at h
        exact .inr (.inr (.inl ⟨hf, front, rest, hp, hlt, h.1.symm, h.2.symm⟩))
      · simp only [bind_eq_ok, check_eq_ok, exists_const] at h
        exact .inr (.inr (.inr ⟨hf, front, rest, hp, h.1.symm, h.2⟩))

/-- The rates that a program sets. -/
structure Settings (K : Type) where
  initBw : K
  minBw : K
  maxBw : K

def settings (s : SenderBasedController K) : Settings K := ⟨s.initBw, s.minBw, s.maxBw⟩

theorem processSendPacket_settings {txTimestampUs : UInt64} {sequence : UInt16} {size : UInt32} {ok : Bool}
    (h : s.processSendPacket txTimestampUs sequence size = .ok (ok, s')) : s'.settings = s.settings := by
  obtain ⟨lastSequence, queue, rfl⟩ := processSendPacket_frame h
  rfl

private theorem acceptPacket_settings {packet : PacketRecord} {nowUs rxTimestampUs : UInt64} {ok : Bool}
    (h : s.acceptPacket packet nowUs rxTimestampUs = .ok (ok, s')) : s'.settings = s.settings := by
  rcases acceptPacket_cases h with ⟨-, rfl, -⟩ | ⟨-, -, mid, hmid, history, sum, -, rfl⟩
  · rfl
  · have hrecord : mid.settings = (s.dropObsolete packet).settings := by
      rw [recordPacket_ok hmid]
      rfl
    refine hrecord.trans ?_
    rcases dropObsolete_cases (s := s) packet with hsame | hdropped
    · rw [hsame]
    · rw [hdropped]
      rfl

/-- Feedback leaves the settings alone. -/
theorem processFeedback_settings {nowUs rxTimestampUs : UInt64} {sequence : UInt16} {ecn : UInt8} {ok : Bool}
    (h : s.processFeedback nowUs sequence rxTimestampUs ecn = .ok (ok, s')) : s'.settings = s.settings := by
  rcases processFeedback_cases h with
    ⟨-, -, rfl⟩ | ⟨-, -, -, rfl⟩ | ⟨-, front, rest, -, -, -, rfl⟩ | ⟨-, packet, rest, -, -, haccept⟩
  · rfl
  · rfl
  · rfl
  · have hsettings := acceptPacket_settings haccept
    exact hsettings

end SenderBasedController

end Ns3Rmcat.Controller
