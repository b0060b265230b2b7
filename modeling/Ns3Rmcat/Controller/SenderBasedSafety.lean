import Ns3Rmcat.Controller.SenderBasedRun

/-! When feedback can stop the sender: the exact condition on the state before each
call under which no assertion fails, and so the runs that return. -/
namespace Ns3Rmcat.Controller.SenderBasedController
open Lib

section Steps
variable {K : Type} {s : SenderBasedController K} {sent rest : List PacketRecord}
variable {packet : PacketRecord} {sequence : UInt16} {nowUs rxTimestampUs : UInt64} {ecn : UInt8}

/-- The packet in transit that a feedback is matched with, at its distance from the
front when that is less than half the number range. -/
def matched (s : SenderBasedController K) (sequence : UInt16) : Option PacketRecord :=
  s.inTransitPackets.head?.bind fun front =>
    if ahead front.sequence sequence < 32768 then
      s.inTransitPackets[ahead front.sequence sequence]?
    else none

/-- The history that a call builds, before garbage collection, sums below 2^32. -/
def SizesFit (s : SenderBasedController K) : ControllerCall → Prop
  | .send .. => True
  | .feedback _ sequence _ _ =>
    ∀ packet ∈ s.matched sequence,
      bytesOf (s.dropObsolete packet).packetHistory + packet.size.toNat < 2 ^ 32

/-- A call that stops at no assertion. Feedback is unsafe when it is exactly half the
number range ahead of the front of the queue, and when it reports a packet that does
not come after the history in the unwrapped order, save for the small gaps around
the last number that the inter-loss update makes room for. -/
def SafeCall (s : SenderBasedController K) : ControllerCall → Prop
  | .send .. => True
  | .feedback _ sequence _ _ =>
    lessThan s.lastSequence sequence = false →
      (∀ front ∈ s.inTransitPackets.head?, ahead front.sequence sequence ≠ 32768) ∧
      ∀ packet ∈ s.matched sequence, ∀ last ∈ s.packetHistory.getLast?,
        packet.txTimestampUs.toNat ≤ last.txTimestampUs.toNat + 500000 →
        sequence = s.ilState.expectedSeq ∨ s.ilState.expectedSeq < sequence ∨
          (sequence < 50 ∧ 65485 < s.ilState.expectedSeq)

private theorem dropObsolete_interLossSafe (hpacket : packet.txTimestampUs.toNat < 2 ^ 62)
    (hhist : ∀ p ∈ s.packetHistory, p.txTimestampUs.toNat < 2 ^ 62) :
    (s.dropObsolete packet).InterLossSafe sequence ↔
      ∀ last ∈ s.packetHistory.getLast?,
        packet.txTimestampUs.toNat ≤ last.txTimestampUs.toNat + 500000 →
        sequence = s.ilState.expectedSeq ∨ s.ilState.expectedSeq < sequence ∨
          (sequence < 50 ∧ 65485 < s.ilState.expectedSeq) := by
  rw [dropObsolete]
  cases hlast : s.packetHistory.getLast? with
  | none => simp [InterLossSafe, List.getLast?_eq_none_iff.mp hlast]
  | some last =>
    have hne : s.packetHistory ≠ [] := fun he => by simp [he] at hlast
    have hl := hhist last (List.mem_of_getLast? hlast)
    have hadd : (last.txTimestampUs + maxInterPacketTimeUs).toNat = last.txTimestampUs.toNat + 500000 :=
      toNat_add_historyLength hl
    by_cases hold : lessThan (last.txTimestampUs + maxInterPacketTimeUs) packet.txTimestampUs = true
    · simp only [hold, if_true, InterLossSafe]
      rw [lessThan_iff_lt (by omega) (by omega)] at hold
      refine ⟨fun _ l hl hle => ?_, fun _ h => absurd rfl h⟩
      cases hl
      omega
    · simp only [hold, Bool.false_eq_true, if_false]
      rw [lessThan_iff_lt (by omega) (by omega)] at hold
      refine ⟨fun h l hl _ => h hne, fun h _ => h last rfl (by omega)⟩

private theorem acceptPacket_returns (h : RunInvariant sent s) (ht : TimeOrdered sent) {n : Nat}
    (hdrop : sent.drop n = packet :: rest) (hzero : packet.owdUs = 0 ∧ packet.rttUs = 0)
    (hhist : (s.packetHistory.map PacketRecord.asSent).Sublist (sent.take n))
    (hfit : bytesOf (s.dropObsolete packet).packetHistory + packet.size.toNat < 2 ^ 32) :
    Returns (acceptPacket { s with inTransitPackets := rest } packet nowUs rxTimestampUs) ↔
      (s.dropObsolete packet).InterLossSafe packet.sequence := by
  have hnotDecreasing : ¬ (s.packetHistory.getLast?.any
      fun last => lessThan packet.txTimestampUs last.txTimestampUs) = true := by
    intro hany
    obtain ⟨last, hlast, hlt⟩ := (Option.any_eq_true _ _).mp hany
    rw [sent_after_history ht hdrop hhist (List.mem_of_getLast? hlast)] at hlt
    cases hlt
  have hrecord := recordPacket_returns (s := ({ s.dropObsolete packet with inTransitPackets := rest }))
    nowUs rxTimestampUs hzero.1 hzero.2
  simp only [acceptPacket, hnotDecreasing, Bool.false_eq_true, if_false, returns_bind, dropObsolete_queue]
  constructor
  · rintro ⟨mid, hmid, -⟩
    exact hrecord.mp ⟨mid, hmid⟩
  · intro hsafe
    obtain ⟨mid, hmid⟩ := hrecord.mpr hsafe
    obtain ⟨older, holder, hrec⟩ := record_history hhist h.pktSizeSum
      ((dropObsolete_queue packet rest).symm ▸ hmid)
    have hhistory : mid.packetHistory = older ++ [packet.received nowUs rxTimestampUs] :=
      congrArg packetHistory hrec
    have hbuilt : mid.packetHistory =
        (s.dropObsolete packet).packetHistory ++ [packet.received nowUs rxTimestampUs] :=
      congrArg packetHistory (recordPacket_ok hmid)
    have hsum : mid.pktSizeSum.toNat = bytesOf mid.packetHistory := by
      rw [hrec, UInt32.toNat_ofNat']
      refine Nat.mod_eq_of_lt ?_
      rw [← hhistory, hbuilt]
      simpa [PacketRecord.received] using hfit
    have hlength : mid.historyLengthUs = defaultHistoryLengthUs :=
      (congrArg historyLengthUs hrec).trans h.historyLengthUs
    have htimes : TimeOrdered mid.packetHistory := by
      rw [hhistory]
      exact timeOrdered_asSent.mp (ht.sublist
        ((history_snoc_sublist hdrop hzero holder nowUs rxTimestampUs).trans (List.take_sublist _ _)))
    obtain ⟨⟨history, sum⟩, hcol⟩ := collectHistory_returns (by simp [hhistory]) htimes hsum
    refine ⟨mid, hmid, (history, sum), ?_, by simp⟩
    rw [hlength, hcol]

private theorem processFeedback_returns (h : RunInvariant sent s) (hsent : SentInOrder sent)
    (hz : ∀ p ∈ sent, p.owdUs = 0 ∧ p.rttUs = 0) (hfit : s.SizesFit (.feedback nowUs sequence rxTimestampUs ecn)) :
    Returns (s.processFeedback nowUs sequence rxTimestampUs ecn) ↔
      s.SafeCall (.feedback nowUs sequence rxTimestampUs ecn) := by
  rw [processFeedback, SafeCall]
  by_cases hfuture : lessThan s.lastSequence sequence = true
  · simp [hfuture]
  · rw [Bool.not_eq_true] at hfuture
    simp only [hfuture, Bool.false_eq_true, if_false]
    cases hqueue : s.inTransitPackets with
    | nil => simp [matched, hqueue]
    | cons front queue =>
      have hlast : (front :: queue).getLast? = some ((front :: queue).getLast (by simp)) :=
        List.getLast?_eq_some_getLast (by simp)
      have hback : ((front :: queue).getLast (by simp)).sequence = s.lastSequence :=
        h.ordered.inTransit_last (by rw [hqueue, hlast]; rfl)
      have hconsecutive : Consecutive (front :: queue) := by
        obtain ⟨n, -, hdrop, -⟩ := h.order
        rw [← hqueue, hdrop]
        exact hsent.consecutive.drop n
      simp only [hlast, check_of hback, ok_bind, List.head?_cons, Option.mem_def, Option.some.injEq,
        forall_eq', forall_const]
      by_cases hd : ahead front.sequence sequence < 32768
      · obtain ⟨packet, rest, hdrop, hseq, hpop⟩ :=
          popStale_found hconsecutive (by rw [hback]; exact hfuture) hd
        have hmatched : s.matched sequence = some packet := by
          simp only [matched, hqueue, List.head?_cons, Option.bind_some, if_pos hd]
          rw [← List.head?_drop, hdrop, List.head?_cons]
        obtain ⟨n, hn, hsentDrop, hhist⟩ := popStale_position h.ordered (hqueue ▸ hpop)
        have hmem : packet ∈ sent := List.mem_of_mem_drop (i := n) (by simp [hsentDrop])
        have hearly : ∀ p ∈ s.packetHistory, p.txTimestampUs.toNat < 2 ^ 62 :=
          (h.history_timeOrdered hsent.timeOrdered).early
        have hself : lessThan sequence packet.sequence = false := by simp [hseq, lessThan]
        simp only [hpop, ok_bind, hself, Bool.false_eq_true, if_false, check_of hseq.symm]
        rw [acceptPacket_returns h hsent.timeOrdered hsentDrop (hz packet hmem) hhist (hfit packet hmatched),
          dropObsolete_interLossSafe (hsent.timeOrdered.early packet hmem) hearly, hseq]
        simp [hmatched, hd.ne]
      · have hmatched : s.matched sequence = none := by simp [matched, hqueue, hd]
        simp only [popStale_front (Nat.le_of_not_lt hd), ok_bind, hmatched]
        by_cases hhalf : ahead front.sequence sequence = 32768
        · have hnot : ¬ lessThan sequence front.sequence = true := by
            rw [lessThan_iff_behind, hhalf]
            omega
          have hne : ¬ sequence = front.sequence := fun he => by simp [he] at hhalf
          simp [hnot, hne, hhalf]
        · have hold : lessThan sequence front.sequence = true := lessThan_iff_behind.mpr (by omega)
          simp [hold, hhalf]

private theorem step_returns [Field K] {calls : List ControllerCall} {call : ControllerCall}
    (hsent : SentInOrder (sentPackets (calls ++ [call]))) (h : RunInvariant (sentPackets calls) s)
    (hfit : s.SizesFit call) : Returns (s.step call) ↔ s.SafeCall call := by
  rw [sentPackets_append] at hsent
  cases call with
  | send txTimestampUs sequence size =>
    obtain ⟨next, hnext, -⟩ := send_invariant h ⟨rfl, rfl⟩ hsent.consecutive
    simp [step, hnext, SafeCall]
  | feedback nowUs sequence rxTimestampUs ecn =>
    rw [← processFeedback_returns h hsent.init (sentPackets_fresh calls) hfit]
    simp only [step, pure_eq_ok]
    exact returns_bind_ok

end Steps

variable {K : Type} [Field K]

private theorem sizesFit_of_total {calls : List ControllerCall} (hsent : SentInOrder (sentPackets calls))
    (htotal : bytesOf (sentPackets calls) < 2 ^ 32) :
    Along step SizesFit (fresh : SenderBasedController K) calls := by
  intro before call after hcalls s hrun
  cases call with
  | send => trivial
  | feedback nowUs sequence rxTimestampUs ecn =>
    intro packet hpacket
    rw [hcalls, sentPackets_append] at hsent htotal
    obtain ⟨n, -, hqueue, hhist⟩ := (run_invariant hsent.init hrun).order
    have hmem : packet ∈ (sentPackets before).drop n := by
      obtain ⟨front, -, hfront⟩ := Option.bind_eq_some_iff.mp hpacket
      split at hfront
      · exact hqueue ▸ List.mem_of_getElem? hfront
      · cases hfront
    have hsize : packet.size.toNat ≤ bytesOf ((sentPackets before).drop n) := by
      simpa using bytesOf_sublist (List.singleton_sublist.mpr hmem)
    have hkept : bytesOf (s.dropObsolete packet).packetHistory ≤ bytesOf s.packetHistory := by
      rcases dropObsolete_cases (s := s) packet with hd | hd <;> simp [hd]
    have holder : bytesOf s.packetHistory ≤ bytesOf ((sentPackets before).take n) := by
      rw [← bytesOf_asSent]
      exact bytesOf_sublist hhist
    have hsplit : bytesOf ((sentPackets before).take n) + bytesOf ((sentPackets before).drop n) =
        bytesOf (sentPackets before) := by
      rw [← bytesOf_append, List.take_append_drop]
    rw [bytesOf_append] at htotal
    omega

/-- A run with packets sent in order returns, with no assertion failed and no empty
queue looked into, exactly when each of its calls is safe. -/
theorem run_returns_iff_safe {calls : List ControllerCall} (hsent : SentInOrder (sentPackets calls))
    (hfit : Along step SizesFit (fresh : SenderBasedController K) calls) :
    Returns (run step (fresh : SenderBasedController K) calls) ↔
      Along step SafeCall (fresh : SenderBasedController K) calls := by
  refine run_returns_iff fun before call after hcalls s hrun => ?_
  have hnext : SentInOrder (sentPackets (before ++ [call])) := by
    have hall : SentInOrder (sentPackets (before ++ [call]) ++ sentPackets after) := by
      rw [← sentPackets_append, List.append_assoc, List.singleton_append, ← hcalls]
      exact hsent
    exact hall.init
  have hbefore : SentInOrder (sentPackets before) := by
    rw [sentPackets_append] at hnext
    exact hnext.init
  exact step_returns hnext (run_invariant hbefore hrun) (hfit before call after hcalls s hrun)

/-- Two packets, the second one acknowledged first: every call is safe. -/
theorem run_returns_iff_safe_reordered :
    let calls : List ControllerCall := [.send 1000 65535 1200, .send 2000 0 800,
      .feedback 9000 0 5000 0, .feedback 9500 65535 6000 0]
    Returns (run step (fresh : SenderBasedController ℚ) calls) ↔
      Along step SafeCall (fresh : SenderBasedController ℚ) calls := by
  intro calls
  have hsent : SentInOrder (sentPackets calls) :=
    ⟨by simp [calls, sentPackets, Consecutive], ⟨by simp [calls, sentPackets], by simp [calls, sentPackets]⟩⟩
  exact run_returns_iff_safe hsent (sizesFit_of_total hsent (by decide))

/-- One packet is sent, and the feedback is half the number range ahead of it. -/
def halfRangeCalls : List ControllerCall := [.send 1000 0 1200, .feedback 9000 32768 5000 0]

/-- Packets around the last number, of which all but the first and the last are lost. -/
def burstLossCalls : List ControllerCall :=
  (List.range 57).map (fun i => .send (1000 * UInt64.ofNat i) (65530 + UInt16.ofNat i) 1200) ++
    [.feedback 90000 65530 5000 0, .feedback 95000 50 60000 0]

/-- A run with packets sent in order and sizes that fit, which stops at an assertion. -/
structure StopsAtAssertion (calls : List ControllerCall) : Prop where
  sentInOrder : SentInOrder (sentPackets calls)
  sizesFit : Along step SizesFit (fresh : SenderBasedController ℚ) calls
  stops : run step (fresh : SenderBasedController ℚ) calls = .error .assertion

private theorem stopsAtAssertion_of_total {calls : List ControllerCall} (hsent : SentInOrder (sentPackets calls))
    (htotal : bytesOf (sentPackets calls) < 2 ^ 32)
    (hstop : run step (fresh : SenderBasedController ℚ) calls = .error .assertion) :
    StopsAtAssertion calls :=
  ⟨hsent, sizesFit_of_total hsent htotal, hstop⟩

/-- Some runs with packets sent in order do stop: at a feedback that is half the number
range ahead of the front of the queue, and at a feedback after a burst of losses
across the last number. -/
theorem runs_that_stop : StopsAtAssertion halfRangeCalls ∧ StopsAtAssertion burstLossCalls := by
  refine ⟨stopsAtAssertion_of_total ⟨?_, ?_, ?_⟩ (by decide) rfl,
    stopsAtAssertion_of_total ⟨?_, ?_, ?_⟩ (by decide +kernel) rfl⟩
  · rw [Consecutive]
    decide
  · decide
  · decide
  · rw [Consecutive]
    decide +kernel
  · decide +kernel
  · decide +kernel

section Refusals
variable {K : Type} {s s' : SenderBasedController K} {txTimestampUs : UInt64} {sequence : UInt16} {size : UInt32}

private theorem processSendPacket_refused (h : s.processSendPacket txTimestampUs sequence size = .ok (false, s')) :
    s.firstSend = false ∧ sequence ≠ s.lastSequence + 1 ∧ s' = { s with lastSequence := s.lastSequence + 1 } := by
  rw [processSendPacket] at h
  cases hfirst : s.firstSend with
  | true => simp [hfirst, bind_eq_ok] at h
  | false =>
    simp only [hfirst, Bool.false_eq_true, if_false] at h
    split at h
    · rename_i hne
      cases h
      exact ⟨rfl, hne, by rw [← hfirst]⟩
    · obtain ⟨queue, -, h⟩ := bind_eq_ok.mp h
      cases h

/-- A refused send always leaves traces: the state is another one, the next number is refused in
its turn, and feedback stops at an assertion when the last packet in transit was the last one sent. -/
theorem refused_send_leaves_traces (h : s.processSendPacket txTimestampUs sequence size = .ok (false, s')) :
    s' ≠ s ∧
    (∀ laterUs laterSize, ∃ s'', s'.processSendPacket laterUs (s.lastSequence + 1) laterSize = .ok (false, s'')) ∧
    ∀ back ∈ s.inTransitPackets.getLast?, back.sequence = s.lastSequence →
      ∀ nowUs reported rxTimestampUs ecn, lessThan s'.lastSequence reported = false →
        s'.processFeedback nowUs reported rxTimestampUs ecn = .error .assertion := by
  obtain ⟨hfirst, -, rfl⟩ := processSendPacket_refused h
  have hne : s.lastSequence ≠ s.lastSequence + 1 := by
    intro he
    have hnat := congrArg UInt16.toNat he
    have hlt := s.lastSequence.toNat_lt
    rw [UInt16.toNat_add] at hnat
    simp only [UInt16.reduceToNat] at hnat
    omega
  have hnext : s.lastSequence + 1 ≠ s.lastSequence + 1 + 1 := by
    intro he
    exact hne ((UInt16.add_left_inj 1).mp he)
  refine ⟨fun he => hne (congrArg lastSequence he).symm, fun laterUs laterSize => ?_, ?_⟩
  · rw [processSendPacket]
    simp only [hfirst, Bool.false_eq_true, if_false, ne_eq, hnext, not_false_eq_true, if_true]
    exact ⟨_, rfl⟩
  · intro back hback hlast nowUs reported rxTimestampUs ecn hpast
    rw [processFeedback, if_neg (by simpa using hpast)]
    have hqueue : ({ s with lastSequence := s.lastSequence + 1 } : SenderBasedController K).inTransitPackets.getLast? =
        some back := hback
    rw [hqueue]
    dsimp only
    rw [check_of_not (by rw [hlast]; exact hne), error_bind]

/-- A first packet has been sent, and the next send leaves a number out. -/
theorem refused_send_leaves_traces_gap :
    ∃ s s' : SenderBasedController ℚ, run step fresh [.send 1000 5 1200] = .ok s ∧
      s.processSendPacket 2000 7 1200 = .ok (false, s') ∧ s' ≠ s ∧
      s'.processFeedback 9000 5 4000 0 = .error .assertion := by
  let s : SenderBasedController ℚ := { fresh with
    firstSend := false, lastSequence := 5, inTransitPackets := [⟨5, 1000, 1200, 0, 0⟩] }
  have hrefused : s.processSendPacket 2000 7 1200 = .ok (false, { s with lastSequence := 6 }) := rfl
  obtain ⟨hne, -, hfatal⟩ := refused_send_leaves_traces hrefused
  exact ⟨s, _, rfl, hrefused, hne, hfatal ⟨5, 1000, 1200, 0, 0⟩ rfl rfl 9000 5 4000 0 (by decide)⟩

/-- Packet 5 has been sent when 7 is offered: afterwards 6 is refused, and feedback about 5 is fatal. -/
theorem refused_send_after_one :
    ∃ s s' s'' : SenderBasedController ℚ, run step fresh [.send 1000 5 1200] = .ok s ∧
      s.processSendPacket 2000 7 1200 = .ok (false, s') ∧ s' ≠ s ∧
      s'.processSendPacket 3000 6 1200 = .ok (false, s'') ∧
      s'.processFeedback 9000 5 4000 0 = .error .assertion := by
  refine ⟨_, _, _, rfl, rfl, ?_, rfl, rfl⟩
  decide

end Refusals

end Ns3Rmcat.Controller.SenderBasedController
