import Ns3Rmcat.Controller.SenderBasedSteps

/-! Runs of the sender-based controller: any interleaving of sends and feedback.
One invariant relates the queue, the history and the list of all packets sent. -/
namespace Ns3Rmcat.Controller
open Lib

inductive ControllerCall where
  | send (txTimestampUs : UInt64) (sequence : UInt16) (size : UInt32)
  | feedback (nowUs : UInt64) (sequence : UInt16) (rxTimestampUs : UInt64) (ecn : UInt8)
  deriving DecidableEq, Repr

/-- The records of all packets that the calls send, in the order of sending. -/
def sentPackets (calls : List ControllerCall) : List PacketRecord :=
  calls.filterMap fun
    | .send txTimestampUs sequence size => some ⟨sequence, txTimestampUs, size, 0, 0⟩
    | .feedback .. => none

@[simp] theorem sentPackets_append (cs ds : List ControllerCall) :
    sentPackets (cs ++ ds) = sentPackets cs ++ sentPackets ds := by simp [sentPackets]

@[simp] theorem sentPackets_send (t : UInt64) (q : UInt16) (n : UInt32) :
    sentPackets [.send t q n] = [⟨q, t, n, 0, 0⟩] := rfl

@[simp] theorem sentPackets_feedback (t : UInt64) (q : UInt16) (r : UInt64) (e : UInt8) :
    sentPackets [.feedback t q r e] = [] := rfl

/-- Packets are sent with consecutive numbers and times that never decrease. -/
structure SentInOrder (sent : List PacketRecord) : Prop where
  consecutive : Consecutive sent
  timeOrdered : TimeOrdered sent

theorem SentInOrder.init {sent more : List PacketRecord} (h : SentInOrder (sent ++ more)) :
    SentInOrder sent :=
  ⟨List.IsChain.left_of_append h.consecutive, h.timeOrdered.sublist (by simp)⟩

namespace SenderBasedController
variable {K : Type}

def step (s : SenderBasedController K) : ControllerCall → Checked (SenderBasedController K)
  | .send txTimestampUs sequence size => do
    return (← s.processSendPacket txTimestampUs sequence size).2
  | .feedback nowUs sequence rxTimestampUs ecn => do
    return (← s.processFeedback nowUs sequence rxTimestampUs ecn).2

/-- What holds of the controller after any calls that sent the packets sent. -/
structure RunInvariant (sent : List PacketRecord) (s : SenderBasedController K) : Prop where
  firstSend : s.firstSend = sent.isEmpty
  lastSequence : ∀ last ∈ sent.getLast?, last.sequence = s.lastSequence
  /-- The queue is the end of the packets sent, and the history is a selection, in
  the order of sending, of the packets sent before the queue. -/
  order : ∃ n ≤ sent.length, s.inTransitPackets = sent.drop n ∧
    (s.packetHistory.map PacketRecord.asSent).Sublist (sent.take n)
  window : ∀ first ∈ s.packetHistory.head?, ∀ last ∈ s.packetHistory.getLast?,
    last.txTimestampUs.toNat < first.txTimestampUs.toNat + 500000
  /-- The running sum follows the sizes in the history, and wraps where they do. -/
  pktSizeSum : s.pktSizeSum = UInt32.ofNat (bytesOf s.packetHistory)
  historyLengthUs : s.historyLengthUs = defaultHistoryLengthUs

/-- The part of it that holds whatever the send times are. -/
structure Ordered (sent : List PacketRecord) (s : SenderBasedController K) : Prop where
  firstSend : s.firstSend = sent.isEmpty
  lastSequence : ∀ last ∈ sent.getLast?, last.sequence = s.lastSequence
  order : ∃ n ≤ sent.length, s.inTransitPackets = sent.drop n ∧
    (s.packetHistory.map PacketRecord.asSent).Sublist (sent.take n)
  pktSizeSum : s.pktSizeSum = UInt32.ofNat (bytesOf s.packetHistory)

theorem Ordered.inTransit_last {sent : List PacketRecord} {s : SenderBasedController K} (h : Ordered sent s)
    {back : PacketRecord} (hb : back ∈ s.inTransitPackets.getLast?) : back.sequence = s.lastSequence := by
  obtain ⟨n, _, hqueue, _⟩ := h.order
  refine h.lastSequence back ?_
  rw [hqueue, List.getLast?_drop] at hb
  split at hb
  · cases hb
  · exact hb

namespace RunInvariant
variable {sent : List PacketRecord} {s : SenderBasedController K}

theorem ordered (h : RunInvariant sent s) : Ordered sent s := ⟨h.firstSend, h.lastSequence, h.order, h.pktSizeSum⟩

theorem history_timeOrdered (h : RunInvariant sent s) (ht : TimeOrdered sent) :
    TimeOrdered s.packetHistory := by
  obtain ⟨n, _, _, hs⟩ := h.order
  exact timeOrdered_asSent.mp (ht.sublist (hs.trans (List.take_sublist n sent)))

end RunInvariant

theorem sentPackets_fresh (calls : List ControllerCall) :
    ∀ p ∈ sentPackets calls, p.owdUs = 0 ∧ p.rttUs = 0 := by
  intro p hp
  simp only [sentPackets, List.mem_filterMap] at hp
  obtain ⟨c, -, hc⟩ := hp
  cases c <;> simp at hc
  subst hc
  exact ⟨rfl, rfl⟩

private theorem send_ordered {sent : List PacketRecord} {s : SenderBasedController K} (h : Ordered sent s)
    {packet : PacketRecord} (hzero : packet.owdUs = 0 ∧ packet.rttUs = 0) (hc : Consecutive (sent ++ [packet])) :
    ∃ s', s.processSendPacket packet.txTimestampUs packet.sequence packet.size = .ok (true, s') ∧
      Ordered (sent ++ [packet]) s' := by
  obtain ⟨m, hm, hqueue, hhist⟩ := h.order
  have hstart : (if s.firstSend then
      { s with lastSequence := packet.sequence - 1, firstSend := false } else s) =
      { s with lastSequence := packet.sequence - 1, firstSend := false } := by
    cases hs : sent.getLast? with
    | none =>
      have hf : s.firstSend = true := by simp [h.firstSend, List.getLast?_eq_none_iff.mp hs]
      simp [hf]
    | some last =>
      have hf : s.firstSend = false := by
        have : sent ≠ [] := fun he => by simp [he] at hs
        simp [h.firstSend, this]
      have hl : last.sequence = s.lastSequence := h.lastSequence last hs
      have hq : packet.sequence = last.sequence + 1 := (List.isChain_append.mp hc).2.2 last hs _ rfl
      have hback : packet.sequence - 1 = s.lastSequence := by rw [hq, hl, UInt16.add_sub_cancel]
      cases s
      simp_all
  have hpacket : packet = ⟨packet.sequence, packet.txTimestampUs, packet.size, 0, 0⟩ := by
    cases packet
    simp_all
  obtain ⟨k, hk, hev⟩ := evictOld_newest s.inTransitPackets packet
  have hdrop : (s.inTransitPackets ++ [packet]).drop k = (sent ++ [packet]).drop (m + k) := by
    rw [hqueue, ← List.drop_append_of_le_length hm, List.drop_drop]
  refine ⟨{ s with
    lastSequence := packet.sequence
    firstSend := false
    inTransitPackets := (s.inTransitPackets ++ [packet]).drop k }, ?_, ?_⟩
  · simp only [processSendPacket, hstart, UInt16.sub_add_cancel, ne_eq, not_true_eq_false, if_false,
      ← hpacket, hev, ok_bind, pure_eq_ok]
  · refine ⟨by simp, by simp, ⟨m + k, ?_, hdrop, ?_⟩, h.pktSizeSum⟩
    · rw [hqueue, List.length_drop] at hk
      simp only [List.length_append, List.length_singleton]
      omega
    · refine hhist.trans ((List.take_sublist_take_left (Nat.le_add_right m k)).trans ?_)
      rw [List.take_append]
      exact List.sublist_append_left _ _

/-- A send keeps the invariant. -/
theorem send_invariant {sent : List PacketRecord} {s : SenderBasedController K}
    (h : RunInvariant sent s) {packet : PacketRecord} (hzero : packet.owdUs = 0 ∧ packet.rttUs = 0)
    (hc : Consecutive (sent ++ [packet])) :
    ∃ s', s.processSendPacket packet.txTimestampUs packet.sequence packet.size = .ok (true, s') ∧
      RunInvariant (sent ++ [packet]) s' := by
  obtain ⟨s', hsend, hordered⟩ := send_ordered h.ordered hzero hc
  obtain ⟨lastSequence, queue, hframe⟩ := processSendPacket_frame hsend
  refine ⟨s', hsend, hordered.firstSend, hordered.lastSequence, hordered.order, ?_, hordered.pktSizeSum, ?_⟩
  · rw [hframe]
    exact h.window
  · rw [hframe]
    exact h.historyLengthUs

/-- Where the packets that the stale loop leaves in the queue stand among those sent. -/
theorem popStale_position {sent : List PacketRecord} {s : SenderBasedController K}
    (h : Ordered sent s) {sequence : UInt16} {front : PacketRecord} {rest : List PacketRecord}
    (hp : popStale sequence s.inTransitPackets = .ok (front, rest)) :
    ∃ n < sent.length, sent.drop n = front :: rest ∧
      (s.packetHistory.map PacketRecord.asSent).Sublist (sent.take n) := by
  obtain ⟨m, -, hqueue, hhist⟩ := h.order
  obtain ⟨k, hk, -⟩ := popStale_ok hp
  have hdrop : sent.drop (m + k) = front :: rest := by rw [← hk, hqueue, List.drop_drop]
  refine ⟨m + k, ?_, hdrop, hhist.trans (List.take_sublist_take_left (Nat.le_add_right m k))⟩
  by_contra hlen
  rw [List.drop_eq_nil_of_le (by omega)] at hdrop
  cases hdrop

/-- The history with a packet that was sent after it, up to the packet's own position. -/
theorem history_snoc_sublist {sent older rest : List PacketRecord} {packet : PacketRecord} {n : Nat}
    (hdrop : sent.drop n = packet :: rest) (hzero : packet.owdUs = 0 ∧ packet.rttUs = 0)
    (hhist : (older.map PacketRecord.asSent).Sublist (sent.take n)) (nowUs rxTimestampUs : UInt64) :
    ((older ++ [packet.received nowUs rxTimestampUs]).map PacketRecord.asSent).Sublist
      (sent.take (n + 1)) := by
  have hsent : (packet.received nowUs rxTimestampUs).asSent = packet := by
    cases packet
    simp_all [PacketRecord.received, PacketRecord.asSent]
  have htake : sent.take (n + 1) = sent.take n ++ [packet] := by
    rw [List.take_add, hdrop]
    rfl
  rw [htake, List.map_append, List.map_singleton, hsent]
  exact hhist.append (List.Sublist.refl _)

/-- A packet that was sent at position n was not sent before the history. -/
theorem sent_after_history {sent rest history : List PacketRecord} {n : Nat} {packet last : PacketRecord}
    (ht : TimeOrdered sent) (hdrop : sent.drop n = packet :: rest)
    (hhist : (history.map PacketRecord.asSent).Sublist (sent.take n)) (hlast : last ∈ history) :
    lessThan packet.txTimestampUs last.txTimestampUs = false := by
  have hsorted := ht.sorted
  rw [← List.take_append_drop n sent, List.pairwise_append, hdrop] at hsorted
  have hasSent : last.asSent ∈ sent.take n := hhist.subset (List.mem_map_of_mem hlast)
  have hle : last.txTimestampUs.toNat ≤ packet.txTimestampUs.toNat :=
    hsorted.2.2 _ hasSent packet (by simp)
  have hpacket := ht.early packet (List.mem_of_mem_drop (i := n) (by simp [hdrop]))
  exact (lessThan_eq_false_iff_le (by omega) (by omega)).mpr hle

/-- The history before a packet is recorded is the old one or, after too long a
silence, empty; the packet follows it, and the running sum takes it in. -/
theorem record_history {s mid : SenderBasedController K} {rest earlier : List PacketRecord}
    {packet : PacketRecord} {nowUs rxTimestampUs : UInt64}
    (hhist : (s.packetHistory.map PacketRecord.asSent).Sublist earlier)
    (hsum : s.pktSizeSum = UInt32.ofNat (bytesOf s.packetHistory))
    (hmid : (({ s with inTransitPackets := rest } : SenderBasedController K).dropObsolete
      packet).recordPacket packet nowUs rxTimestampUs = .ok mid) :
    ∃ older, (older.map PacketRecord.asSent).Sublist earlier ∧
      mid = { s with
        inTransitPackets := rest
        baseDelayUs := mid.baseDelayUs
        ilState := mid.ilState
        packetHistory := older ++ [packet.received nowUs rxTimestampUs]
        pktSizeSum := UInt32.ofNat (bytesOf (older ++ [packet.received nowUs rxTimestampUs])) } := by
  have hsnoc (older : List PacketRecord) :
      UInt32.ofNat (bytesOf (older ++ [packet.received nowUs rxTimestampUs])) =
        UInt32.ofNat (bytesOf older) + packet.size := by
    simp [PacketRecord.received, UInt32.ofNat_add]
  rcases dropObsolete_cases (s := { s with inTransitPackets := rest }) packet with hd | hd
  · refine ⟨s.packetHistory, hhist, ?_⟩
    rw [hd] at hmid
    rw [hsnoc, ← hsum]
    exact recordPacket_ok hmid
  · refine ⟨[], List.nil_sublist _, ?_⟩
    rw [hd] at hmid
    rw [hsnoc]
    exact recordPacket_ok hmid

/-- Accepting the packet at position n of those sent keeps the order, also when it is refused,
and the history that is left is within the history length. -/
private theorem accept_ordered {sent rest : List PacketRecord} {s s' : SenderBasedController K}
    (h : Ordered sent s) {n : Nat} {packet : PacketRecord} (hn : n < sent.length)
    (hdrop : sent.drop n = packet :: rest) (hzero : packet.owdUs = 0 ∧ packet.rttUs = 0)
    (hhist : (s.packetHistory.map PacketRecord.asSent).Sublist (sent.take n))
    {nowUs rxTimestampUs : UInt64} {b : Bool}
    (hacc : acceptPacket { s with inTransitPackets := rest } packet nowUs rxTimestampUs = .ok (b, s')) :
    Ordered sent s' ∧ s'.historyLengthUs = s.historyLengthUs ∧
      (b = true → ∀ first ∈ s'.packetHistory.head?, ∀ last ∈ s'.packetHistory.getLast?,
        lessThan last.txTimestampUs (first.txTimestampUs + s'.historyLengthUs) = true) := by
  have hqueue : rest = sent.drop (n + 1) := by
    rw [← List.drop_drop, hdrop]
    rfl
  rcases acceptPacket_cases hacc with ⟨rfl, rfl, -⟩ | ⟨rfl, -, mid, hmid, history, sum, hcol, rfl⟩
  · refine ⟨⟨h.firstSend, h.lastSequence, ⟨n + 1, hn, hqueue, ?_⟩, h.pktSizeSum⟩, rfl, by simp⟩
    exact hhist.trans (List.take_sublist_take_left (Nat.le_succ n))
  · obtain ⟨older, holder, hrec⟩ := record_history hhist h.pktSizeSum hmid
    have hhistory : mid.packetHistory = older ++ [packet.received nowUs rxTimestampUs] :=
      congrArg packetHistory hrec
    have hlength : mid.historyLengthUs = s.historyLengthUs := by rw [hrec]
    have hmidsum : mid.pktSizeSum = UInt32.ofNat (bytesOf mid.packetHistory) := by
      rw [hhistory]
      exact congrArg pktSizeSum hrec
    have hsub := history_snoc_sublist hdrop hzero holder nowUs rxTimestampUs
    rw [← hhistory] at hsub
    obtain ⟨k, -, rfl, hsum, hwindow⟩ := collectHistory_suffix hcol hmidsum
    have hkept := ((List.drop_sublist k mid.packetHistory).map PacketRecord.asSent).trans hsub
    refine ⟨⟨?_, ?_, ⟨n + 1, hn, (congrArg inTransitPackets hrec).trans hqueue, hkept⟩, hsum⟩,
      hlength, fun _ => hwindow⟩
    · exact (congrArg firstSend hrec).trans h.firstSend
    · intro last hlast
      exact (h.lastSequence last hlast).trans (congrArg lastSequence hrec).symm

/-- With send times in order it also keeps the invariant, and is never refused: the
history holds no packet that was sent later. -/
theorem accept_invariant {sent rest : List PacketRecord} {s s' : SenderBasedController K}
    (h : RunInvariant sent s) (ht : TimeOrdered sent) {n : Nat} {packet : PacketRecord}
    (hn : n < sent.length) (hdrop : sent.drop n = packet :: rest)
    (hzero : packet.owdUs = 0 ∧ packet.rttUs = 0)
    (hhist : (s.packetHistory.map PacketRecord.asSent).Sublist (sent.take n))
    {nowUs rxTimestampUs : UInt64} {b : Bool}
    (hacc : acceptPacket { s with inTransitPackets := rest } packet nowUs rxTimestampUs = .ok (b, s')) :
    b = true ∧ RunInvariant sent s' := by
  obtain ⟨hordered, hlength, hwindow⟩ := accept_ordered h.ordered hn hdrop hzero hhist hacc
  have haccepted : b = true := by
    rcases acceptPacket_cases hacc with ⟨-, -, last, hlast, hlt⟩ | ⟨hb, -⟩
    · rw [sent_after_history ht hdrop hhist (List.mem_of_getLast? hlast)] at hlt
      cases hlt
    · exact hb
  have hdefault := hlength.trans h.historyLengthUs
  refine ⟨haccepted, hordered.firstSend, hordered.lastSequence, hordered.order, ?_, hordered.pktSizeSum, hdefault⟩
  intro first hfirst last hlast
  obtain ⟨m, -, -, hkept⟩ := hordered.order
  have htimes := timeOrdered_asSent.mp (ht.sublist (hkept.trans (List.take_sublist m sent)))
  have hf := htimes.early first (List.mem_of_mem_head? hfirst)
  have hl := htimes.early last (List.mem_of_mem_getLast? hlast)
  have hlt := hwindow haccepted first hfirst last hlast
  have hadd := toNat_add_historyLength hf
  rw [hdefault, lessThan_iff_lt (by omega) (by omega)] at hlt
  omega

/-- A feedback keeps the order. -/
theorem feedback_ordered {sent : List PacketRecord} {s s' : SenderBasedController K} (h : Ordered sent s)
    (hz : ∀ p ∈ sent, p.owdUs = 0 ∧ p.rttUs = 0) {nowUs rxTimestampUs : UInt64} {sequence : UInt16} {ecn : UInt8}
    {b : Bool} (hfb : s.processFeedback nowUs sequence rxTimestampUs ecn = .ok (b, s')) : Ordered sent s' := by
  rcases processFeedback_cases hfb with ⟨-, -, rfl⟩ | ⟨-, -, -, rfl⟩ |
    ⟨-, front, rest, hpop, -, -, rfl⟩ | ⟨-, packet, rest, hpop, -, hacc⟩
  · exact h
  · exact h
  · obtain ⟨n, hn, hdrop, hhist⟩ := popStale_position h hpop
    exact ⟨h.firstSend, h.lastSequence, ⟨n, hn.le, hdrop.symm, hhist⟩, h.pktSizeSum⟩
  · obtain ⟨n, hn, hdrop, hhist⟩ := popStale_position h hpop
    have hzero := hz packet (List.mem_of_mem_drop (i := n) (by simp [hdrop]))
    exact (accept_ordered h hn hdrop hzero hhist hacc).1

private theorem feedback_invariant {sent : List PacketRecord} {s s' : SenderBasedController K}
    (h : RunInvariant sent s) (ht : TimeOrdered sent) (hz : ∀ p ∈ sent, p.owdUs = 0 ∧ p.rttUs = 0)
    {nowUs rxTimestampUs : UInt64} {sequence : UInt16} {ecn : UInt8} {b : Bool}
    (hfb : s.processFeedback nowUs sequence rxTimestampUs ecn = .ok (b, s')) :
    (b = false → lessThan s.lastSequence sequence = true) ∧ RunInvariant sent s' := by
  rcases processFeedback_cases hfb with ⟨hlt, -, rfl⟩ | ⟨-, -, rfl, rfl⟩ |
    ⟨-, front, rest, hpop, -, rfl, rfl⟩ | ⟨-, packet, rest, hpop, -, hacc⟩
  · exact ⟨fun _ => hlt, h⟩
  · exact ⟨by simp, h⟩
  · obtain ⟨n, hn, hdrop, hhist⟩ := popStale_position h.ordered hpop
    exact ⟨by simp, h.firstSend, h.lastSequence, ⟨n, hn.le, hdrop.symm, hhist⟩, h.window,
      h.pktSizeSum, h.historyLengthUs⟩
  · obtain ⟨n, hn, hdrop, hhist⟩ := popStale_position h.ordered hpop
    have hzero := hz packet (List.mem_of_mem_drop (i := n) (by simp [hdrop]))
    obtain ⟨rfl, hinv⟩ := accept_invariant h ht hn hdrop hzero hhist hacc
    exact ⟨by simp, hinv⟩

theorem RunInvariant.start [Field K] : RunInvariant [] (fresh : SenderBasedController K) where
  firstSend := rfl
  lastSequence := by simp
  order := ⟨0, le_rfl, rfl, List.nil_sublist _⟩
  window := by simp [fresh]
  pktSizeSum := rfl
  historyLengthUs := rfl

/-- One call of either kind carries the invariant on. -/
theorem step_invariant {calls : List ControllerCall} {call : ControllerCall}
    {s s' : SenderBasedController K} (hsent : SentInOrder (sentPackets (calls ++ [call])))
    (h : RunInvariant (sentPackets calls) s) (hstep : s.step call = .ok s') :
    RunInvariant (sentPackets (calls ++ [call])) s' := by
  rw [sentPackets_append] at hsent ⊢
  cases call with
  | send txTimestampUs sequence size =>
    rw [sentPackets_send] at hsent ⊢
    obtain ⟨next, hnext, hinv⟩ := send_invariant h ⟨rfl, rfl⟩ hsent.consecutive
    simp only [step, hnext, ok_bind, pure_eq_ok, Except.ok.injEq] at hstep
    exact hstep ▸ hinv
  | feedback nowUs sequence rxTimestampUs ecn =>
    rw [sentPackets_feedback, List.append_nil] at hsent ⊢
    simp only [step, bind_eq_ok, pure_eq_ok, Except.ok.injEq, Prod.exists] at hstep
    obtain ⟨b, next, hfb, rfl⟩ := hstep
    exact (feedback_invariant h hsent.timeOrdered (sentPackets_fresh calls) hfb).2

theorem run_invariant [Field K] {calls : List ControllerCall} {s : SenderBasedController K}
    (hsent : SentInOrder (sentPackets calls)) (hrun : run step fresh calls = .ok s) :
    RunInvariant (sentPackets calls) s := by
  refine run_induction step
    (motive := fun calls s => SentInOrder (sentPackets calls) → RunInvariant (sentPackets calls) s)
    (fun _ => RunInvariant.start) ?_ hrun hsent
  intro calls call mid s' _ ih hstep hsent
  refine step_invariant hsent (ih ?_) hstep
  rw [sentPackets_append] at hsent
  exact hsent.init

/-- The order holds after every run with consecutive numbers, whatever the send times are. -/
theorem run_ordered [Field K] {calls : List ControllerCall} {s : SenderBasedController K}
    (hsent : Consecutive (sentPackets calls)) (hrun : run step fresh calls = .ok s) :
    Ordered (sentPackets calls) s := by
  refine run_induction step
    (motive := fun calls s => Consecutive (sentPackets calls) → Ordered (sentPackets calls) s)
    (fun _ => RunInvariant.start.ordered) ?_ hrun hsent
  intro calls call mid s' _ ih hstep hsent
  rw [sentPackets_append] at hsent ⊢
  have hmid := ih (List.IsChain.left_of_append hsent)
  cases call with
  | send txTimestampUs sequence size =>
    obtain ⟨next, hnext, hordered⟩ := send_ordered hmid ⟨rfl, rfl⟩ hsent
    simp only [step, hnext, ok_bind, pure_eq_ok, Except.ok.injEq] at hstep
    exact hstep ▸ hordered
  | feedback nowUs sequence rxTimestampUs ecn =>
    rw [sentPackets_feedback, List.append_nil]
    simp only [step, bind_eq_ok, pure_eq_ok, Except.ok.injEq, Prod.exists] at hstep
    obtain ⟨b, next, hfb, rfl⟩ := hstep
    exact feedback_ordered hmid (sentPackets_fresh calls) hfb

/-- After any run with packets sent in order: the queue is the tail of the packets
sent, up to the last number, and the history is made of packets sent before it, in
the order of sending, within the history length and with its sizes summed. Feedback
is refused only for a number in the future. -/
theorem run_keeps_order [Field K] {calls : List ControllerCall} {s : SenderBasedController K}
    (hsent : SentInOrder (sentPackets calls)) (hrun : run step fresh calls = .ok s) :
    (∃ n ≤ (sentPackets calls).length, s.inTransitPackets = (sentPackets calls).drop n ∧
      (s.packetHistory.map PacketRecord.asSent).Sublist ((sentPackets calls).take n)) ∧
    (∀ last ∈ (sentPackets calls).getLast?, last.sequence = s.lastSequence) ∧
    s.packetHistory.Pairwise (fun p q => p.txTimestampUs.toNat ≤ q.txTimestampUs.toNat) ∧
    (s.historyLengthUs = 500000 ∧ ∀ first ∈ s.packetHistory.head?, ∀ last ∈ s.packetHistory.getLast?,
      last.txTimestampUs.toNat - first.txTimestampUs.toNat < s.historyLengthUs.toNat) ∧
    (bytesOf s.packetHistory < 2 ^ 32 → s.pktSizeSum.toNat = bytesOf s.packetHistory) ∧
    ∀ nowUs sequence rxTimestampUs ecn b s',
      s.processFeedback nowUs sequence rxTimestampUs ecn = .ok (b, s') →
      (b = false ↔ lessThan s.lastSequence sequence = true) := by
  have h := run_invariant hsent hrun
  have hlength : s.historyLengthUs = 500000 := h.historyLengthUs
  refine ⟨h.order, h.lastSequence, (h.history_timeOrdered hsent.timeOrdered).sorted, ⟨hlength, ?_⟩, ?_, ?_⟩
  · intro first hfirst last hlast
    have hwindow := h.window first hfirst last hlast
    rw [hlength]
    simp only [UInt64.reduceToNat]
    omega
  · intro hfits
    rw [h.pktSizeSum, UInt32.toNat_ofNat', Nat.mod_eq_of_lt hfits]
  · intro nowUs sequence rxTimestampUs ecn b s' hfb
    refine ⟨(feedback_invariant h hsent.timeOrdered (sentPackets_fresh calls) hfb).1, fun hfuture => ?_⟩
    rw [processFeedback, if_pos hfuture] at hfb
    cases hfb
    rfl

/-- Two packets are sent around the last number, and one feedback arrives twice. -/
theorem run_keeps_order_wrapping :
    let calls : List ControllerCall := [.send 1000 65535 1200, .send 2000 0 800,
      .feedback 9000 65535 5000 0, .feedback 9500 0 6000 0, .feedback 9600 0 6000 0]
    let s : SenderBasedController ℚ := { fresh with
      firstSend := false
      lastSequence := 0
      baseDelayUs := 4000
      packetHistory := [⟨65535, 1000, 1200, 4000, 8000⟩, ⟨0, 2000, 800, 4000, 7500⟩]
      pktSizeSum := 2000
      ilState := { intervals := [2], expectedSeq := 1 } }
    run step fresh calls = .ok s ∧
      (bytesOf s.packetHistory < 2 ^ 32 → s.pktSizeSum.toNat = bytesOf s.packetHistory) := by
  intro calls s
  have hrun : run step fresh calls = .ok s := rfl
  have hsent : SentInOrder (sentPackets calls) :=
    ⟨by simp [calls, sentPackets, Consecutive], ⟨by simp [calls, sentPackets], by simp [calls, sentPackets]⟩⟩
  exact ⟨hrun, (run_keeps_order hsent hrun).2.2.2.2.1⟩

end SenderBasedController

end Ns3Rmcat.Controller
