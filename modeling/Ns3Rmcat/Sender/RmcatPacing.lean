import Ns3Rmcat.Lib.PacedQueue
import Ns3Rmcat.Sender.RmcatCalls
import Ns3Rmcat.Sender.RmcatShaping
import Ns3Rmcat.Sender.RmcatSilence

/-! How fast a sender empties its rate shaping buffer: the buffer is a paced queue, from which each
packet leaves when it has come and the one before it has had its time at the send rate. -/
namespace Ns3Rmcat.Sender
open Lib Header Controller

namespace RmcatSender
variable {C K : Type} {s s' : RmcatSender C K}

section Pacing
variable [Field K] [LinearOrder K] [FloorSemiring K]

def usAtRate (rateBps : K) (bytesToSend : UInt32) : ℕ :=
  ⌊((bytesToSend.toNat * 8 * 1000 * 1000 : ℕ) : K) / rateBps⌋₊

def pacedActions (s : RmcatSender C K) : SenderEvent K → List (PacedAction UInt32)
  | .runNext codec _ => s.simulator.runNext.toList.flatMap fun next =>
    match next.1.handler with
    | .enqueuePacket => [.enqueue (next.2.nowNs / 1000) codec.size.toUInt32]
    | .sendPacket _ => s.rateShapingBuf.head?.toList.map fun bytesToSend =>
      .dequeue ⟨next.2.nowNs / 1000, bytesToSend, usAtRate s.rSend bytesToSend⟩
    | .sendOverSleep _ => []
  | .recvPacket _ _ _ _ => []
  | .pauseResume _ pause => [if pause then .discard else .restart]
  | .stopApplication _ => [.discard]

/-- Something holds of the send rate whenever a packet is taken out of the buffer. -/
def AtSend (p : K → Prop) (s : RmcatSender C K) : SenderEvent K → Prop
  | .runNext _ _ => s.due.any Handler.isSendPacket = true → p s.rSend
  | _ => True

instance (p : K → Prop) [DecidablePred p] (s : RmcatSender C K) : (event : SenderEvent K) → Decidable (s.AtSend p event)
  | .runNext _ _ => inferInstanceAs (Decidable (_ → p s.rSend))
  | .recvPacket _ _ _ _ => inferInstanceAs (Decidable True)
  | .pauseResume _ _ => inferInstanceAs (Decidable True)
  | .stopApplication _ => inferInstanceAs (Decidable True)

end Pacing

/-- A paced queue has what is in the buffer, and the send timer is set to when its front may leave. -/
structure Paced (q : PacedQueue UInt32) (s : RmcatSender C K) : Prop where
  waiting : q.waiting.map Prod.snd = s.rateShapingBuf
  past : ∀ w ∈ q.waiting, w.1 ≤ s.clockUs
  timer : ∀ e ∈ s.simulator.pending, e.handler.isSendPacket = true →
    ∀ front ∈ q.waiting.head?, e.atNs / 1000 = max front.1 q.freeUs
  next : s.simulator.waiting Handler.isEnqueuePacket ≠ [] → s.rateShapingBuf = [] →
    s.nextSendTstmpUs.toNat = q.freeUs
  resting : s.simulator.waiting Handler.isEnqueuePacket = [] → s.rateShapingBuf = []

section Times
variable {q : PacedQueue UInt32}

private theorem Paced.nil_iff (hs : Paced q s) : q.waiting = [] ↔ s.rateShapingBuf = [] := by
  rw [← hs.waiting, List.map_eq_nil_iff]

/-- While something waits the send timer is set to when the front may leave. -/
theorem Paced.exists_timer (hs : Paced q s) (harmed : Armed s) {front : ℕ × UInt32} (hfront : front ∈ q.waiting.head?) :
    ∃ e ∈ s.simulator.pending, e.atNs / 1000 = max front.1 q.freeUs := by
  have hsome : s.simulator.waiting Handler.isSendPacket ≠ [] := by
    rw [ne_eq, ← harmed.buffer, ← hs.nil_iff]
    rintro hnil
    rw [hnil] at hfront
    cases hfront
  obtain ⟨uid, huid⟩ := List.exists_mem_of_ne_nil _ hsome
  obtain ⟨e, he, -⟩ := List.mem_map.mp huid
  obtain ⟨hmem, hsend⟩ := List.mem_filter.mp he
  exact ⟨e, hmem, hs.timer e hmem hsend front hfront⟩

private theorem toNat_usToNextSend (hclock : s.clockUs < 2 ^ 62) :
    s.usToNextSend.toNat = s.nextSendTstmpUs.toNat - s.clockUs := by
  have hnow := toNat_nowUs hclock
  rw [usToNextSend]
  split
  · rename_i hlt
    rw [UInt64.toNat_sub_of_le _ _ (UInt64.le_of_lt hlt), hnow]
  · rename_i hge
    rw [UInt64.lt_iff_toNat_lt, hnow] at hge
    rw [UInt64.toNat_zero]
    omega

private theorem div_microSeconds (nowNs : ℕ) (us : UInt64) :
    (nowNs + microSeconds us) / 1000 = nowNs / 1000 + us.toNat := by
  rw [microSeconds, Nat.add_mul_div_right _ _ (by norm_num)]

private theorem Paced.of_frame (hs : Paced q s) (hbuf : s'.rateShapingBuf = s.rateShapingBuf)
    (hnext : s'.nextSendTstmpUs = s.nextSendTstmpUs) (hclock : s.clockUs ≤ s'.clockUs)
    (hpending : ∀ e ∈ s'.simulator.pending, e ∈ s.simulator.pending)
    (hwaiting : s'.simulator.waiting Handler.isEnqueuePacket = s.simulator.waiting Handler.isEnqueuePacket) :
    Paced q s' where
  waiting := hs.waiting.trans hbuf.symm
  past := fun w hw => (hs.past w hw).trans hclock
  timer := fun e he => hs.timer e (hpending e he)
  next := by
    rw [hbuf, hnext, hwaiting]
    exact hs.next
  resting := by
    rw [hbuf, hwaiting]
    exact hs.resting

private theorem paced_cancelAndClear (q : PacedQueue UInt32) (harmed : Armed s) :
    Paced { q with waiting := [] } s.cancelAndClear where
  waiting := rfl
  past := by simp
  timer := by simp
  next := fun hsome => absurd harmed.waiting_cancelAndClear.1 hsome
  resting := fun _ => rfl

private theorem AtSend.mono {p p' : K → Prop} (himp : ∀ rate, p rate → p' rate) {event : SenderEvent K}
    (h : s.AtSend p event) :
    s.AtSend p' event := by
  cases event with
  | runNext codec rand => exact fun hdue => himp _ (h hdue)
  | recvPacket atNs rIPAddress rport packet => trivial
  | pauseResume atNs pause => trivial
  | stopApplication atNs => trivial

end Times

section Steps
variable {q : PacedQueue UInt32} [Field K] [LinearOrder K] [FloorSemiring K] {api : ControllerApi C K}

private theorem usToNextSentPacket_eq (s : RmcatSender C K) (bytesToSend : UInt32) :
    s.usToNextSentPacket bytesToSend = UInt64.ofNat (usAtRate s.rSend bytesToSend) := by
  rw [usToNextSentPacket, usAtRate]
  push_cast
  rfl

private theorem toNat_usToNextSentPacket [IsStrictOrderedRing K] {bytesToSend : UInt32}
    (hsize : bytesToSend.toNat ≤ 1000)
    (hrate : 1 ≤ s.rSend) : (s.usToNextSentPacket bytesToSend).toNat = usAtRate s.rSend bytesToSend ∧
      usAtRate s.rSend bytesToSend ≤ 8 * 10 ^ 9 := by
  have hle : usAtRate s.rSend bytesToSend ≤ 8 * 10 ^ 9 := by
    refine Nat.floor_le_of_le ((div_le_self (Nat.cast_nonneg _) hrate).trans ?_)
    exact Nat.cast_le.mpr (by omega)
  refine ⟨?_, hle⟩
  rw [usToNextSentPacket_eq, UInt64.toNat_ofNat']
  exact Nat.mod_eq_of_lt (hle.trans_lt (by norm_num))

theorem Paced.enqueuePacket (hs : Paced q s) (harmed : Armed s) {event : Scheduled Handler}
    {simulator : Scheduler Handler} (hnext : s.simulator.runNext = some (event, simulator))
    (hhandler : event.handler = .enqueuePacket) {codec : Codec K} (hclock : s'.clockUs < 2 ^ 62)
    (h : { s with simulator }.enqueuePacket codec = .ok s') :
    Paced { q with waiting := q.waiting ++ [(simulator.nowNs / 1000, codec.size.toUInt32)] } s' := by
  have hlater : s.clockUs ≤ simulator.nowNs / 1000 := Nat.div_le_div_right (Scheduler.nowNs_le_runNext hnext)
  have hpast : ∀ w ∈ q.waiting ++ [(simulator.nowNs / 1000, codec.size.toUInt32)], w.1 ≤ simulator.nowNs / 1000 := by
    intro w hw
    rcases List.mem_append.mp hw with hold | hnew
    · exact (hs.past w hold).trans hlater
    · rw [List.mem_singleton.mp hnew]
  have hwaiting : (q.waiting ++ [(simulator.nowNs / 1000, codec.size.toUInt32)]).map Prod.snd =
      s.rateShapingBuf ++ [codec.size.toUInt32] := by
    rw [List.map_append, hs.waiting]
    rfl
  have henqueue : s.simulator.waiting Handler.isEnqueuePacket ≠ [] :=
    List.ne_nil_of_mem (Scheduler.mem_waiting_runNext Handler.isEnqueuePacket hnext (by rw [hhandler]; rfl))
  obtain ⟨-, -, ⟨hempty, rfl⟩ | ⟨hsome, rfl⟩⟩ := enqueuePacket_ok h
  · refine ⟨hwaiting, hpast, ?_, ?_, ?_⟩
    · intro e he hsend front hfront
      obtain rfl : (simulator.nowNs / 1000, codec.size.toUInt32) = front := by
        simpa [hs.nil_iff.mpr hempty] using hfront
      rcases Scheduler.mem_pending_schedule.mp he with he | rfl
      · rcases Scheduler.mem_pending_schedule.mp he with hold | rfl
        · have hother := Scheduler.kind_of_mem (harmed.buffer.mp hempty) (Scheduler.mem_pending_runNext hnext hold)
          cases hother.symm.trans hsend
        · cases hsend
      · -- The timer is set anew.
        have hwait := toNat_usToNextSend (s := { s with simulator }) hclock
        have hat : (simulator.nowNs + microSeconds { s with simulator : RmcatSender C K }.usToNextSend) / 1000 =
            simulator.nowNs / 1000 + (q.freeUs - simulator.nowNs / 1000) := by
          rw [div_microSeconds, hwait, ← hs.next henqueue hempty]
          rfl
        have hmax : simulator.nowNs / 1000 + (q.freeUs - simulator.nowNs / 1000) =
            max (simulator.nowNs / 1000) q.freeUs := by omega
        exact hat.trans hmax
    · intro _ hnil
      simp [withPacket, scheduleSendPacket, scheduleEnqueuePacket] at hnil
    · intro hnone
      simp [withPacket, scheduleSendPacket, scheduleEnqueuePacket, Handler.isEnqueuePacket] at hnone
  · refine ⟨hwaiting, hpast, ?_, ?_, ?_⟩
    · intro e he hsend front hfront
      rcases Scheduler.mem_pending_schedule.mp he with hold | rfl
      · refine hs.timer e (Scheduler.mem_pending_runNext hnext hold) hsend front ?_
        have hne : q.waiting ≠ [] := fun hnil => hsome (hs.nil_iff.mp hnil)
        rwa [List.head?_append_of_ne_nil _ hne] at hfront
      · cases hsend
    · intro _ hnil
      simp [withPacket, scheduleEnqueuePacket] at hnil
    · intro hnone
      simp [withPacket, scheduleEnqueuePacket, Handler.isEnqueuePacket] at hnone

private theorem Paced.sendPacket [IsStrictOrderedRing K] (hs : Paced q s) (harmed : Armed s) {event : Scheduled Handler}
    {simulator : Scheduler Handler} (hnext : s.simulator.runNext = some (event, simulator)) {usSlept rand : UInt64}
    (hhandler : event.handler = .sendPacket usSlept) (hrate : 1 ≤ s.rSend) (hclock : s'.clockUs < 2 ^ 62)
    (h : { s with simulator }.sendPacket usSlept rand = .ok s') :
    ∃ bytesToSend, s.rateShapingBuf.head? = some bytesToSend ∧ ∃ q',
      q.add (.dequeue ⟨simulator.nowNs / 1000, bytesToSend, usAtRate s.rSend bytesToSend⟩) = some q' ∧ Paced q' s' := by
  obtain ⟨bytesToSend, rest, overNs, hfront, -, hsize, hcases⟩ := sendPacket_ok h
  dsimp only at hfront
  refine ⟨bytesToSend, by rw [hfront]; rfl, ?_⟩
  have hsend : event.handler.isSendPacket = true := by rw [hhandler]; rfl
  have hlater : s.clockUs ≤ simulator.nowNs / 1000 := Nat.div_le_div_right (Scheduler.nowNs_le_runNext hnext)
  obtain ⟨hus, hhold⟩ := toNat_usToNextSentPacket (s := { s with simulator }) hsize hrate
  have hwaiting := hs.waiting
  rw [hfront, List.map_eq_cons_iff] at hwaiting
  obtain ⟨⟨sinceUs, element⟩, waiting, hq, rfl, hrest⟩ := hwaiting
  -- The timer ran when the front might leave.
  have hat : simulator.nowNs / 1000 = max sinceUs q.freeUs := by
    obtain ⟨hfirst, hnow, -⟩ := Scheduler.runNext_eq hnext
    rw [hnow]
    exact hs.timer event (earliest_mem hfirst) hsend (sinceUs, element) (by rw [hq]; rfl)
  refine ⟨_, PacedQueue.add_dequeue.mpr ⟨sinceUs, waiting, hq, hat, rfl⟩, ?_⟩
  have hpast : ∀ w ∈ waiting, w.1 ≤ simulator.nowNs / 1000 := by
    intro w hw
    exact (hs.past w (by rw [hq]; exact List.mem_cons_of_mem _ hw)).trans hlater
  have hnone : simulator.waiting Handler.isSendPacket = [] := harmed.send.runNext hnext hsend
  have henqueue : simulator.waiting Handler.isEnqueuePacket ≠ [] := by
    rw [Scheduler.waiting_runNext_of_not hnext (by rw [hhandler]; rfl)]
    intro hnil
    rw [hs.resting hnil] at hfront
    cases hfront
  rcases hcases with ⟨rfl, rfl⟩ | ⟨hne, rfl⟩
  · refine ⟨hrest, hpast, ?_, ?_, ?_⟩
    · intro e he hsend front hfront
      rw [List.map_eq_nil_iff.mp hrest] at hfront
      cases hfront
    · intro _ _
      have hnow := toNat_nowUs (s := { s with simulator }) hclock
      have hlt : simulator.nowNs / 1000 < 2 ^ 62 := hclock
      have hsum : ({ s with simulator : RmcatSender C K }.nowUs +
          { s with simulator : RmcatSender C K }.usToNextSentPacket element).toNat =
            simulator.nowNs / 1000 + usAtRate s.rSend element := by
        rw [UInt64.toNat_add, hnow, hus]
        refine Nat.mod_eq_of_lt ((Nat.add_lt_add_of_lt_of_le hlt hhold).trans (by norm_num))
      exact hsum
    · intro _
      rfl
  · refine ⟨hrest, hpast, ?_, ?_, ?_⟩
    · intro e he hsend front hfront
      rcases Scheduler.mem_pending_schedule.mp he with he | rfl
      · rcases Scheduler.mem_pending_schedule.mp he with hold | rfl
        · cases (Scheduler.kind_of_mem hnone hold).symm.trans hsend
        · cases hsend
      · -- The next packet has come before this one leaves.
        have hsince : front.1 ≤ simulator.nowNs / 1000 := hpast front (List.mem_of_mem_head? hfront)
        have hmore : (simulator.nowNs + microSeconds ({ s with simulator : RmcatSender C K }.usToNextSentPacket element)) / 1000 =
            simulator.nowNs / 1000 + usAtRate s.rSend element := by
          rw [div_microSeconds, hus]
        refine hmore.trans (max_eq_right ?_).symm
        exact hsince.trans (Nat.le_add_right _ _)
    · intro _ hnil
      exact absurd hnil hne
    · intro hnil
      refine absurd ?_ henqueue
      simpa [withoutPacket, scheduleSendPacket, scheduleSendOverSleep, Handler.isEnqueuePacket] using hnil

/-- The clock goes on, and not past an event that waits. -/
theorem clock_step {event : SenderEvent K} (h : s.step api event = .ok s') :
    s.simulator.nowNs ≤ s'.simulator.nowNs ∧ ∀ e ∈ s.simulator.pending, s'.simulator.nowNs ≤ e.atNs := by
  have hwait (atNs : ℕ) : s.simulator.nowNs ≤ (s.waitUntil atNs).simulator.nowNs ∧
      ∀ e ∈ s.simulator.pending, (s.waitUntil atNs).simulator.nowNs ≤ e.atNs :=
    ⟨s.simulator.nowNs_le_waitUntil atNs, (s.simulator.waitUntil atNs).notLate⟩
  rcases step_cases h with ⟨codec, rand, next, simulator, rfl, hnext, hcases⟩ |
    ⟨atNs, rIPAddress, rport, packet, rfl, controller, rVin, rSend, rfl⟩ | ⟨atNs, rfl, rfl⟩ | ⟨atNs, rfl, -, rfl⟩ |
    ⟨atNs, rfl, rfl⟩
  · have hnow : s.simulator.nowNs ≤ simulator.nowNs ∧ ∀ e ∈ s.simulator.pending, simulator.nowNs ≤ e.atNs :=
      ⟨Scheduler.nowNs_le_runNext hnext, fun e he => Scheduler.runNext_nowNs_le hnext he⟩
    rcases hcases with ⟨-, h⟩ | ⟨usSlept, -, h⟩ | ⟨bytesToSend, -, h⟩
    · obtain ⟨-, -, ⟨-, rfl⟩ | ⟨-, rfl⟩⟩ := enqueuePacket_ok h
      · exact hnow
      · exact hnow
    · obtain ⟨bytesToSend, rest, overNs, -, -, -, ⟨-, rfl⟩ | ⟨-, rfl⟩⟩ := sendPacket_ok h
      · exact hnow
      · exact hnow
    · obtain ⟨controller, packet, rfl⟩ := sendOverSleep_cases h
      exact hnow
  · exact hwait atNs
  · exact hwait atNs
  · exact hwait atNs
  · exact hwait atNs

private theorem Paced.step [IsStrictOrderedRing K] (hs : Paced q s) (harmed : Armed s) {event : SenderEvent K}
    (hrate : s.AtSend (1 ≤ ·) event) (hclock : s'.clockUs < 2 ^ 62) (h : s.step api event = .ok s') :
    ∃ q', q.replay (s.pacedActions event) = some q' ∧ Paced q' s' := by
  have hlater : s.clockUs ≤ s'.clockUs := Nat.div_le_div_right (clock_step h).1
  rcases step_cases h with ⟨codec, rand, next, simulator, rfl, hnext, hcases⟩ |
    ⟨atNs, rIPAddress, rport, packet, rfl, controller, rVin, rSend, rfl⟩ | ⟨atNs, rfl, rfl⟩ |
    ⟨atNs, rfl, hpaused, rfl⟩ | ⟨atNs, rfl, rfl⟩
  · rcases hcases with ⟨hhandler, h⟩ | ⟨usSlept, hhandler, h⟩ | ⟨bytesToSend, hhandler, h⟩
    · refine ⟨_, ?_, hs.enqueuePacket harmed hnext hhandler hclock h⟩
      simp only [pacedActions, hnext, Option.toList_some, List.flatMap_singleton, hhandler]
      rfl
    · have hdue : s.due.any Handler.isSendPacket = true := by
        rw [due_of_runNext hnext, hhandler]
        rfl
      obtain ⟨bytesToSend, hfront, q', hadd, hnew⟩ := hs.sendPacket harmed hnext hhandler (hrate hdue) hclock h
      refine ⟨q', ?_, hnew⟩
      simp only [pacedActions, hnext, Option.toList_some, List.flatMap_singleton, hhandler, hfront, List.map_cons,
        List.map_nil]
      rw [← List.nil_append [PacedAction.dequeue _], PacedQueue.replay_snoc]
      exact ⟨q, rfl, hadd⟩
    · refine ⟨q, ?_, ?_⟩
      · simp only [pacedActions, hnext, Option.toList_some, List.flatMap_singleton, hhandler]
        rfl
      · obtain ⟨controller, packet, rfl⟩ := sendOverSleep_cases h
        refine hs.of_frame rfl rfl hlater (fun e he => Scheduler.mem_pending_runNext hnext he) ?_
        exact Scheduler.waiting_runNext_of_not hnext (by rw [hhandler]; rfl)
  · exact ⟨q, rfl, hs.of_frame rfl rfl hlater (fun e he => he) rfl⟩
  · have hclear := paced_cancelAndClear q (harmed.waitUntil atNs)
    exact ⟨_, rfl, hclear.of_frame rfl rfl le_rfl (fun e he => he) rfl⟩
  · -- Nothing waits while the sender is paused, and there is nothing to wait for when it resumes.
    have hnone := harmed.resting hpaused
    have hempty := hs.resting hnone
    have hnil := hs.nil_iff.mpr hempty
    refine ⟨_, rfl, hs.waiting, fun w hw => (hs.past w hw).trans hlater, ?_, fun _ _ => rfl, ?_⟩
    · intro e he hsend front hfront
      rw [show ({ q with freeUs := 0 } : PacedQueue UInt32).waiting = [] from hnil] at hfront
      cases hfront
    · exact fun _ => hempty
  · exact ⟨_, rfl, paced_cancelAndClear q (harmed.waitUntil atNs)⟩

end Steps

section Runs
variable [Field K] [LinearOrder K] [IsStrictOrderedRing K] [FloorSemiring K] {api : ControllerApi C K}
  {start mid : RmcatSender C K} {q : PacedQueue UInt32} {events before after : List (SenderEvent K)}

omit [IsStrictOrderedRing K] in
theorem along_mono {p p' : K → Prop} (himp : ∀ rate, p rate → p' rate) (h : Along (step api) (AtSend p) s events) :
    Along (step api) (AtSend p') s events := by
  intro before event after he mid hmid
  exact (h before event after he mid hmid).mono himp

omit [IsStrictOrderedRing K] in
theorem clockUs_back {event : SenderEvent K} (h : s.step api event = .ok s') (hclock : s'.clockUs < 2 ^ 62) :
    s.clockUs < 2 ^ 62 :=
  (Nat.div_le_div_right (clock_step h).1).trans_lt hclock

omit [IsStrictOrderedRing K] in
theorem clockUs_le_run (hrun : run (step api) s events = .ok s') : s.clockUs ≤ s'.clockUs := by
  refine run_induction (step api) (motive := fun _ t => s.clockUs ≤ t.clockUs) le_rfl ?_ hrun
  intro before event mid next _ hmid hstep
  exact hmid.trans (Nat.div_le_div_right (clock_step hstep).1)

omit [IsStrictOrderedRing K] [FloorSemiring K] in
theorem paced_started (hstart : Started start) : Paced ⟨0, []⟩ start := by
  have hbuf := hstart.eq.1
  obtain ⟨codec, controller, destIP, destPort, initBw, minBw, maxBw, nowNs, ssrc, sequence, rtpTsOffset, h⟩ := hstart
  obtain ⟨-, h⟩ := check_bind_eq_ok.mp h
  obtain ⟨-, h⟩ := check_bind_eq_ok.mp h
  cases h
  exact ⟨rfl, by simp, by simp, fun _ _ => rfl, fun _ => hbuf⟩

theorem paced_run (hs : Paced q s) (harmed : Armed s) (hrate : Along (step api) (AtSend (1 ≤ ·)) s events)
    (hrun : run (step api) s events = .ok s') (hclock : s'.clockUs < 2 ^ 62) :
    ∃ q', q.replay (observed (step api) pacedActions s events) = some q' ∧ Paced q' s' ∧ Armed s' := by
  induction events using List.reverseRecOn generalizing s' with
  | nil =>
    cases hrun
    exact ⟨q, rfl, hs, harmed⟩
  | append_singleton events event ih =>
    obtain ⟨mid, hmid, hstep⟩ := (run_snoc _).mp hrun
    obtain ⟨q', hreplay, hpaced, harmed'⟩ := ih hrate.init hmid (clockUs_back hstep hclock)
    obtain ⟨q'', hnext, hpaced'⟩ := hpaced.step harmed' (hrate.last hmid) hclock hstep
    refine ⟨q'', ?_, hpaced', harmed'.step hstep⟩
    rw [observed_snoc (step api) pacedActions hmid, PacedQueue.replay_append, hreplay]
    exact hnext

/-- The buffer of a sender is a paced queue in every run whose send rate is at least one bit per
second: each packet leaves when it has come and the one before it has had its time, no sooner and no
later. -/
theorem run_paces (hstart : Started start) (hrate : Along (step api) (AtSend (1 ≤ ·)) start events)
    (hrun : run (step api) start events = .ok s) (hclock : s.clockUs < 2 ^ 62) :
    ∃ q, PacedQueue.replay ⟨0, []⟩ (observed (step api) pacedActions start events) = some q ∧
      q.waiting.map Prod.snd = s.rateShapingBuf ∧
      ∀ front ∈ q.waiting.head?, s.clockUs ≤ max front.1 q.freeUs ∧
        ∀ e ∈ s.simulator.pending, e.handler.isSendPacket = true → e.atNs / 1000 = max front.1 q.freeUs := by
  obtain ⟨q, hreplay, hpaced, harmed⟩ := paced_run (paced_started hstart) (armed_started hstart) hrate hrun hclock
  refine ⟨q, hreplay, hpaced.waiting, fun front hfront => ⟨?_, ?_⟩⟩
  · obtain ⟨e, he, hat⟩ := hpaced.exists_timer harmed hfront
    exact hat ▸ Nat.div_le_div_right (s.simulator.notLate e he)
  · exact fun e he hsend => hpaced.timer e he hsend front hfront

end Runs

/-- At 80 kilobits per second: a packet that leaves at once, and two that come while it has its time. -/
def threePackets : List (SenderEvent ℚ) :=
  List.replicate 4 (.runNext ⟨1000, 1 / 100, true⟩ 0) ++ List.replicate 4 (.runNext ⟨1000, 1, true⟩ 0)

theorem run_threePackets : ∃ start s : RmcatSender (DummyController ℚ) ℚ, Started start ∧
    run (step dummyApi) start threePackets = .ok s ∧ s.clockUs = 200000 ∧
    Along (step dummyApi) (AtSend fun rate => 1 ≤ rate ∧ rate ≤ 80000) start threePackets ∧
    departures (observed (step dummyApi) pacedActions start threePackets) =
      [⟨0, 1000, 100000⟩, ⟨100000, 1000, 100000⟩] ++ [⟨200000, 1000, 100000⟩] := by
  have hfacts : (dummySender 80000 >>= fun start =>
      run (guarded (step dummyApi) (AtSend fun rate => 1 ≤ rate ∧ rate ≤ 80000)) start threePackets >>= fun s =>
      .ok (decide (s.clockUs = 200000 ∧ departures (observed (step dummyApi) pacedActions start threePackets) =
        [⟨0, 1000, 100000⟩, ⟨100000, 1000, 100000⟩] ++ [⟨200000, 1000, 100000⟩]))) = .ok true := by
    decide +kernel
  obtain ⟨start, hstart, hfacts⟩ := bind_eq_ok.mp hfacts
  obtain ⟨s, hrun, hfacts⟩ := bind_eq_ok.mp hfacts
  obtain ⟨hclock, hgone⟩ := of_decide_eq_true (Except.ok.inj hfacts)
  obtain ⟨hrun, hrate⟩ := run_guarded.mp hrun
  exact ⟨start, s, started_dummySender hstart, hrun, hclock, hrate, hgone⟩

theorem run_paces_threePackets : ∃ start s : RmcatSender (DummyController ℚ) ℚ, s.clockUs = 200000 ∧
    ∃ q, PacedQueue.replay ⟨0, []⟩ (observed (step dummyApi) pacedActions start threePackets) = some q ∧
      q.waiting.map Prod.snd = s.rateShapingBuf ∧
      ∀ front ∈ q.waiting.head?, s.clockUs ≤ max front.1 q.freeUs ∧
        ∀ e ∈ s.simulator.pending, e.handler.isSendPacket = true → e.atNs / 1000 = max front.1 q.freeUs := by
  obtain ⟨start, s, hstart, hrun, hclock, hrate, -⟩ := run_threePackets
  exact ⟨start, s, hclock, run_paces hstart (along_mono (fun _ => And.left) hrate) hrun (by rw [hclock]; norm_num)⟩

end RmcatSender

end Ns3Rmcat.Sender
