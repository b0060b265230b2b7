import Ns3Rmcat.Controller.SenderBasedMatching
import Ns3Rmcat.Controller.InterLoss

/-! The controller accepts a packet at most once: whatever is reported, and however often, the
packets that it has ever accepted are some of those sent, in the order of sending. -/
namespace Ns3Rmcat.Controller
namespace SenderBasedController
open Lib

section Queue
variable {K : Type} {s s' : SenderBasedController K} {nowUs rxTimestampUs : UInt64} {sequence : UInt16} {ecn : UInt8}
  {b : Bool}

/-- A feedback takes packets from the front of the queue, and the last one that it takes is the one
that it records. -/
private theorem processFeedback_queue (h : s.processFeedback nowUs sequence rxTimestampUs ecn = .ok (b, s')) :
    (s.recorded sequence = none ∧ ∃ k, s'.inTransitPackets = s.inTransitPackets.drop k) ∨
      ∃ packet k, packet.sequence = sequence ∧ s.recorded sequence = some packet ∧
        s.inTransitPackets.drop k = packet :: s'.inTransitPackets := by
  have hrest {packet : PacketRecord} {rest : List PacketRecord}
      (hacc : acceptPacket { s with inTransitPackets := rest } packet nowUs rxTimestampUs = .ok (b, s')) :
      s'.inTransitPackets = rest := by
    rcases acceptPacket_cases hacc with ⟨-, rfl, -⟩ | ⟨-, -, mid, hmid, history, sum, -, rfl⟩
    · rfl
    · rw [dropObsolete_queue] at hmid
      exact congrArg inTransitPackets (recordPacket_ok hmid)
  have hcases := processFeedback_cases h
  rcases processFeedback_records h with ⟨hnone, -⟩ | ⟨packet, -, -, hsequence, hsome, -⟩
  · refine .inl ⟨hnone, ?_⟩
    rcases hcases with ⟨-, -, rfl⟩ | ⟨-, -, -, rfl⟩ | ⟨-, front, rest, hpop, -, -, rfl⟩ |
      ⟨-, front, rest, hpop, -, hacc⟩
    · exact ⟨0, rfl⟩
    · exact ⟨0, rfl⟩
    · obtain ⟨k, hk, -⟩ := popStale_ok hpop
      exact ⟨k, hk.symm⟩
    · obtain ⟨k, hk, -⟩ := popStale_ok hpop
      refine ⟨k + 1, ?_⟩
      rw [hrest hacc, ← List.drop_drop, hk]
      rfl
  · refine .inr ?_
    have hfound := hsome
    rw [recorded] at hfound
    rcases hcases with ⟨hfuture, -⟩ | ⟨hpast, hqueue, -⟩ | ⟨hpast, front, rest, hpop, hbefore, -⟩ |
      ⟨hpast, front, rest, hpop, -, hacc⟩
    · rw [if_pos hfuture] at hfound
      cases hfound
    · rw [hqueue] at hfound
      simp [popStale, Except.toOption] at hfound
    · rw [hpop, if_neg (Bool.not_eq_true _ ▸ hpast)] at hfound
      obtain ⟨hfront, hlate⟩ := Option.filter_eq_some_iff.mp hfound
      obtain rfl : front = packet := Option.some.inj hfront
      simp [hbefore] at hlate
    · rw [hpop, if_neg (Bool.not_eq_true _ ▸ hpast)] at hfound
      obtain ⟨hfront, -⟩ := Option.filter_eq_some_iff.mp hfound
      obtain rfl : front = packet := Option.some.inj hfront
      obtain ⟨k, hk, -⟩ := popStale_ok hpop
      exact ⟨front, k, hsequence, hsome, hrest hacc ▸ hk⟩

/-- Feedback takes packets out of the queue only. -/
theorem length_inTransit_le (h : s.processFeedback nowUs sequence rxTimestampUs ecn = .ok (b, s')) :
    s'.inTransitPackets.length ≤ s.inTransitPackets.length := by
  rcases processFeedback_queue h with ⟨-, k, hk⟩ | ⟨packet, k, -, -, hk⟩
  · rw [hk, List.length_drop]
    exact Nat.sub_le _ _
  · have hlength := congrArg List.length hk
    rw [List.length_drop, List.length_cons] at hlength
    omega

end Queue

/-- The packets that have been put into the queue, and those that have been accepted, in a whole run. -/
structure Trace where
  queued : List PacketRecord
  accepted : List PacketRecord
  deriving DecidableEq, Repr

section Once
variable {K : Type} {s s' : SenderBasedController K} {trace trace' : Trace} {calls : List ControllerCall}

/-- The trace after a further call: a send is refused if its number is not the next one. -/
def Trace.add (trace : Trace) (s : SenderBasedController K) : ControllerCall → Trace
  | .send txTimestampUs sequence size =>
    if s.firstSend ∨ sequence = s.lastSequence + 1 then
      { trace with queued := trace.queued ++ [⟨sequence, txTimestampUs, size, 0, 0⟩] }
    else trace
  | .feedback nowUs sequence rxTimestampUs _ => (s.recorded sequence).elim trace fun packet =>
    { trace with accepted := trace.accepted ++ [packet.received nowUs rxTimestampUs] }

/-- The packet was sent, and then feedback on its number gave it the delays that it has. -/
def Reported (calls : List ControllerCall) (p : PacketRecord) : Prop :=
  ∃ nowUs rxTimestampUs ecn, .feedback nowUs p.sequence rxTimestampUs ecn ∈ calls ∧
    p = p.asSent.received nowUs rxTimestampUs

/-- What holds of a trace: the packets that have been accepted, and after them those that wait, are
some of those that have been queued. -/
structure Once (calls : List ControllerCall) (s : SenderBasedController K) (trace : Trace) : Prop where
  order : (trace.accepted.map PacketRecord.asSent ++ s.inTransitPackets).Sublist trace.queued
  sent : trace.queued.Sublist (sentPackets calls)
  history : s.packetHistory <:+ trace.accepted
  reported : ∀ p ∈ trace.accepted, Reported calls p

private theorem send_queue {txTimestampUs : UInt64} {sequence : UInt16} {size : UInt32} {b : Bool}
    (h : s.processSendPacket txTimestampUs sequence size = .ok (b, s')) :
    if s.firstSend ∨ sequence = s.lastSequence + 1 then
      s'.inTransitPackets.Sublist (s.inTransitPackets ++ [⟨sequence, txTimestampUs, size, 0, 0⟩])
    else s'.inTransitPackets = s.inTransitPackets := by
  have hevicted {queue : List PacketRecord}
      (hqueue : evictOld txTimestampUs (s.inTransitPackets ++ [⟨sequence, txTimestampUs, size, 0, 0⟩]) = .ok queue) :
      queue.Sublist (s.inTransitPackets ++ [⟨sequence, txTimestampUs, size, 0, 0⟩]) := by
    obtain ⟨k, -, hk⟩ := evictOld_newest s.inTransitPackets ⟨sequence, txTimestampUs, size, 0, 0⟩
    obtain rfl : _ = queue := Except.ok.inj (hk.symm.trans hqueue)
    exact List.drop_sublist _ _
  rw [processSendPacket] at h
  cases hfirst : s.firstSend with
  | true =>
    simp only [hfirst, if_true, UInt16.sub_add_cancel, ne_eq, not_true_eq_false, if_false, true_or] at h ⊢
    obtain ⟨queue, hqueue, he⟩ := bind_eq_ok.mp h
    cases he
    exact hevicted hqueue
  | false =>
    simp only [hfirst, Bool.false_eq_true, if_false, ne_eq, ite_not, false_or] at h ⊢
    split at h
    · rename_i hnext
      rw [if_pos hnext]
      obtain ⟨queue, hqueue, he⟩ := bind_eq_ok.mp h
      cases he
      rw [← hnext] at hqueue
      exact hevicted hqueue
    · rename_i hother
      rw [if_neg hother]
      cases h
      rfl

private theorem feedback_history {nowUs rxTimestampUs : UInt64} {sequence : UInt16} {ecn : UInt8} {b : Bool}
    {accepted : List PacketRecord} (hhistory : s.packetHistory <:+ accepted)
    (h : s.processFeedback nowUs sequence rxTimestampUs ecn = .ok (b, s')) :
    (s.recorded sequence).elim (s'.packetHistory <:+ accepted) fun packet =>
      (packet.received nowUs rxTimestampUs).asSent = packet ∧
        s'.packetHistory <:+ accepted ++ [packet.received nowUs rxTimestampUs] := by
  rcases processFeedback_records h with ⟨hnone, queue, rfl⟩ |
    ⟨packet, rest, mid, -, hsome, hmid, history, sum, hcollect, rfl⟩
  · rw [hnone]
    exact hhistory
  · rw [hsome]
    refine ⟨?_, ?_⟩
    · simp only [recordPacket, bind_eq_ok, check_eq_ok, exists_const] at hmid
      obtain ⟨howd, hrtt, -⟩ := hmid
      cases packet
      simp_all [PacketRecord.received, PacketRecord.asSent]
    · have hnewest : mid.packetHistory = (s.dropObsolete packet).packetHistory ++ [packet.received nowUs rxTimestampUs] :=
        congrArg packetHistory (recordPacket_ok hmid)
      have hkept : (s.dropObsolete packet).packetHistory <:+ accepted := by
        rcases dropObsolete_cases (s := s) packet with hd | hd
        · rw [hd]
          exact hhistory
        · rw [hd]
          exact List.nil_suffix
      have hback : mid.packetHistory.getLast? = some (packet.received nowUs rxTimestampUs) := by
        rw [hnewest, List.getLast?_append, List.getLast?_singleton]
        rfl
      have hsuffix : history <:+ mid.packetHistory := by
        rw [collectHistory_dropWhile hback hcollect]
        exact List.dropWhile_suffix _
      rw [hnewest] at hsuffix
      obtain ⟨older, rfl⟩ := hkept
      rw [List.append_assoc]
      exact hsuffix.trans (List.suffix_append _ _)

private theorem Reported.later {p : PacketRecord} (h : Reported calls p) (call : ControllerCall) :
    Reported (calls ++ [call]) p := by
  obtain ⟨nowUs, rxTimestampUs, ecn, hmem, hp⟩ := h
  exact ⟨nowUs, rxTimestampUs, ecn, List.mem_append_left _ hmem, hp⟩

private theorem Once.send {txTimestampUs : UInt64} {sequence : UInt16} {size : UInt32} {b : Bool}
    (h : Once calls s trace) (hsend : s.processSendPacket txTimestampUs sequence size = .ok (b, s')) :
    Once (calls ++ [.send txTimestampUs sequence size]) s' (trace.add s (.send txTimestampUs sequence size)) := by
  have hqueue := send_queue hsend
  have hhistory : s'.packetHistory <:+ trace.accepted := by
    obtain ⟨lastSequence, queue, rfl⟩ := processSendPacket_frame hsend
    exact h.history
  have hreported : ∀ p ∈ trace.accepted, Reported (calls ++ [.send txTimestampUs sequence size]) p :=
    fun p hp => (h.reported p hp).later _
  have hsent := h.sent.append (List.Sublist.refl (sentPackets [.send txTimestampUs sequence size]))
  rw [Trace.add]
  split
  · rename_i htaken
    rw [if_pos htaken] at hqueue
    refine ⟨?_, ?_, hhistory, hreported⟩
    · refine ((List.Sublist.refl _).append hqueue).trans ?_
      rw [← List.append_assoc]
      exact h.order.append (List.Sublist.refl _)
    · rw [sentPackets_append]
      exact hsent
  · rename_i hrefused
    rw [if_neg hrefused] at hqueue
    refine ⟨?_, ?_, hhistory, hreported⟩
    · rw [hqueue]
      exact h.order
    · rw [sentPackets_append]
      exact h.sent.trans (List.sublist_append_left _ _)

private theorem Once.feedback {nowUs rxTimestampUs : UInt64} {sequence : UInt16} {ecn : UInt8} {b : Bool}
    (h : Once calls s trace) (hfeedback : s.processFeedback nowUs sequence rxTimestampUs ecn = .ok (b, s')) :
    Once (calls ++ [.feedback nowUs sequence rxTimestampUs ecn]) s'
      (trace.add s (.feedback nowUs sequence rxTimestampUs ecn)) := by
  have hhistory := feedback_history h.history hfeedback
  have hsent : trace.queued.Sublist (sentPackets (calls ++ [.feedback nowUs sequence rxTimestampUs ecn])) := by
    rw [sentPackets_append, sentPackets_feedback, List.append_nil]
    exact h.sent
  have hreported : ∀ p ∈ trace.accepted, Reported (calls ++ [.feedback nowUs sequence rxTimestampUs ecn]) p :=
    fun p hp => (h.reported p hp).later _
  rw [Trace.add]
  rcases processFeedback_queue hfeedback with ⟨hnone, k, hk⟩ | ⟨packet, k, hsequence, hsome, hk⟩
  · rw [hnone] at hhistory ⊢
    refine ⟨?_, hsent, hhistory, hreported⟩
    rw [Option.elim_none, hk]
    exact ((List.Sublist.refl _).append (List.drop_sublist _ _)).trans h.order
  · rw [hsome] at hhistory ⊢
    obtain ⟨hback, hsuffix⟩ := hhistory
    refine ⟨?_, hsent, hsuffix, ?_⟩
    · have hfront : (packet :: s'.inTransitPackets).Sublist s.inTransitPackets := hk ▸ List.drop_sublist _ _
      rw [Option.elim_some, List.map_append, List.map_singleton, hback, List.append_assoc]
      exact ((List.Sublist.refl _).append hfront).trans h.order
    · intro p hp
      rcases List.mem_append.mp hp with hold | hnew
      · exact hreported p hold
      · obtain rfl := List.mem_singleton.mp hnew
        refine ⟨nowUs, rxTimestampUs, ecn, ?_, ?_⟩
        · exact List.mem_append_right _ (hsequence ▸ List.mem_singleton_self _)
        · rw [hback]

/-- In every run, whatever is sent and reported, and however often: the packets accepted are some of those
that were put into the queue, in their order and each of them once, the history is the end of them,
and each one has the delays that one feedback on its number has given it. -/
theorem run_accepts_once [Field K] {calls : List ControllerCall} {s : SenderBasedController K} {trace : Trace}
    (hrun : run (traced step Trace.add) (fresh, ⟨[], []⟩) calls = .ok (s, trace)) :
    (trace.accepted.map PacketRecord.asSent ++ s.inTransitPackets).Sublist trace.queued ∧
      trace.queued.Sublist (sentPackets calls) ∧ s.packetHistory <:+ trace.accepted ∧
      ∀ p ∈ trace.accepted, Reported calls p := by
  have honce : Once calls s trace := by
    refine run_induction (traced step Trace.add) (motive := fun calls at' => Once calls at'.1 at'.2) ?_ ?_ hrun
    · exact ⟨List.Sublist.refl _, List.Sublist.refl _, List.nil_suffix, by simp⟩
    · intro calls call mid next _ ih hstep
      obtain ⟨before, beforeTrace⟩ := mid
      obtain ⟨after, afterTrace⟩ := next
      obtain ⟨hcall, rfl⟩ := (traced_eq_ok _ _).mp hstep
      cases call with
      | send txTimestampUs sequence size =>
        obtain ⟨⟨b, next⟩, hsend, he⟩ := bind_eq_ok.mp hcall
        cases he
        exact ih.send hsend
      | feedback nowUs sequence rxTimestampUs ecn =>
        obtain ⟨⟨b, next⟩, hfeedback, he⟩ := bind_eq_ok.mp hcall
        cases he
        exact ih.feedback hfeedback
  exact ⟨honce.order, honce.sent, honce.history, honce.reported⟩

/-- A packet is lost, and what is reported of the others comes again, in the other order and with other times. -/
theorem run_accepts_once_repeated :
    let calls : List ControllerCall := [.send 1000 65535 1200, .send 2000 0 800, .send 3000 1 900,
      .feedback 9000 65535 5000 0, .feedback 9500 1 7000 0, .feedback 9600 1 7100 0, .feedback 9700 65535 5100 0]
    let trace : Trace := {
      queued := [⟨65535, 1000, 1200, 0, 0⟩, ⟨0, 2000, 800, 0, 0⟩, ⟨1, 3000, 900, 0, 0⟩]
      accepted := [⟨65535, 1000, 1200, 4000, 8000⟩, ⟨1, 3000, 900, 4000, 6500⟩] }
    ∃ s : SenderBasedController ℚ, run (traced step Trace.add) (fresh, ⟨[], []⟩) calls = .ok (s, trace) ∧
      (trace.accepted.map PacketRecord.asSent ++ s.inTransitPackets).Sublist trace.queued := by
  intro calls trace
  obtain ⟨s, hrun⟩ : ∃ s : SenderBasedController ℚ,
      run (traced step Trace.add) (fresh, ⟨[], []⟩) calls = .ok (s, trace) := ⟨_, rfl⟩
  exact ⟨s, hrun, (run_accepts_once hrun).1⟩

end Once

end SenderBasedController
end Ns3Rmcat.Controller
