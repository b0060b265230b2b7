import Ns3Rmcat.Sender.RmcatSteps

/-! When a sender is silent after a pause or a stop: exactly when no packet waits for the socket but
the one whose event the sender has the identifier of. -/
namespace Ns3Rmcat.Sender
open Lib Header Controller

def SenderEvent.silences {K : Type} : SenderEvent K → Bool
  | .pauseResume _ true => true
  | .stopApplication _ => true
  | _ => false

def SenderEvent.resumes {K : Type} : SenderEvent K → Bool
  | .pauseResume _ false => true
  | _ => false

private theorem Handler.kinds (handler : Handler) :
    handler.isEnqueuePacket = true ∨ handler.isSendPacket = true ∨ handler.isSendOverSleep = true := by
  cases handler with
  | enqueuePacket => exact .inl rfl
  | sendPacket usSlept => exact .inr (.inl rfl)
  | sendOverSleep bytesToSend => exact .inr (.inr rfl)

namespace RmcatSender
variable {C K : Type} {s s' : RmcatSender C K}

/-- The identifiers that the sender has of its other events are not those of packets on their way
to the socket, and will not be. -/
structure Apart (s : RmcatSender C K) : Prop where
  enqueueGiven : ∀ uid, s.enqueueEvent = some uid → uid < s.simulator.nextUid
  sendGiven : ∀ uid, s.sendEvent = some uid → uid < s.simulator.nextUid
  overSleep : ∀ uid ∈ s.simulator.waiting Handler.isSendOverSleep,
    s.enqueueEvent ≠ some uid ∧ s.sendEvent ≠ some uid

private theorem Apart.of_subset (hs : Apart s) (henqueue : s'.enqueueEvent = s.enqueueEvent)
    (hsend : s'.sendEvent = s.sendEvent) (hgiven : s'.simulator.nextUid = s.simulator.nextUid)
    (hsubset : s'.simulator.waiting Handler.isSendOverSleep ⊆ s.simulator.waiting Handler.isSendOverSleep) :
    Apart s' where
  enqueueGiven := by
    rw [henqueue, hgiven]
    exact hs.enqueueGiven
  sendGiven := by
    rw [hsend, hgiven]
    exact hs.sendGiven
  overSleep := by
    rw [henqueue, hsend]
    exact fun uid huid => hs.overSleep uid (hsubset huid)

private theorem Apart.schedule (hs : Apart s) {delayNs : ℕ} {handler : Handler}
    (hsame : s'.simulator = (s.simulator.schedule delayNs handler).2)
    (henqueue : s'.enqueueEvent = s.enqueueEvent ∨
      handler.isSendOverSleep = false ∧ s'.enqueueEvent = some s.simulator.nextUid)
    (hsend : s'.sendEvent = s.sendEvent ∨
      handler.isSendOverSleep = false ∧ s'.sendEvent = some s.simulator.nextUid) : Apart s' := by
  have hgiven : s'.simulator.nextUid = s.simulator.nextUid + 1 := by rw [hsame]; rfl
  constructor
  · intro uid huid
    rw [hgiven]
    rcases henqueue with hold | ⟨-, hnew⟩
    · exact Nat.lt_succ_of_lt (hs.enqueueGiven uid (hold ▸ huid))
    · cases hnew.symm.trans huid
      exact Nat.lt_succ_self _
  · intro uid huid
    rw [hgiven]
    rcases hsend with hold | ⟨-, hnew⟩
    · exact Nat.lt_succ_of_lt (hs.sendGiven uid (hold ▸ huid))
    · cases hnew.symm.trans huid
      exact Nat.lt_succ_self _
  · intro uid huid
    rw [hsame, Scheduler.waiting_schedule, List.mem_append] at huid
    rcases huid with hwaiting | hnew
    · have hne : some s.simulator.nextUid ≠ some uid := fun heq =>
        (Scheduler.waiting_lt hwaiting).ne' (Option.some.inj heq)
      obtain ⟨hnotEnqueue, hnotSend⟩ := hs.overSleep uid hwaiting
      constructor
      · rcases henqueue with hold | ⟨-, hnew⟩
        · exact hold ▸ hnotEnqueue
        · exact hnew ▸ hne
      · rcases hsend with hold | ⟨-, hnew⟩
        · exact hold ▸ hnotSend
        · exact hnew ▸ hne
    · cases hkind : handler.isSendOverSleep with
      | false => simp [hkind] at hnew
      | true =>
        obtain rfl : uid = s.simulator.nextUid := by simpa [hkind] using hnew
        simp only [hkind, Bool.true_eq_false, false_and, or_false] at henqueue hsend
        rw [henqueue, hsend]
        exact ⟨fun heq => (hs.enqueueGiven _ heq).false, fun heq => (hs.sendGiven _ heq).false⟩

private theorem Apart.scheduleEnqueuePacket (hs : Apart s) (delayNs : ℕ) : Apart (s.scheduleEnqueuePacket delayNs) :=
  hs.schedule rfl (.inr ⟨rfl, rfl⟩) (.inl rfl)

private theorem Apart.scheduleSendPacket (hs : Apart s) (delayNs : ℕ) (usSlept : UInt64) :
    Apart (s.scheduleSendPacket delayNs usSlept) :=
  hs.schedule rfl (.inl rfl) (.inr ⟨rfl, rfl⟩)

private theorem Apart.scheduleSendOverSleep (hs : Apart s) (delayNs : ℕ) (bytesToSend : UInt32) :
    Apart (s.scheduleSendOverSleep delayNs bytesToSend) :=
  hs.schedule rfl (.inl rfl) (.inl rfl)

private theorem Apart.withPacket (hs : Apart s) (codec : Codec K) (delayNs : ℕ) :
    Apart (s.withPacket codec delayNs) := by
  refine Apart.scheduleEnqueuePacket ?_ delayNs
  exact ⟨hs.enqueueGiven, hs.sendGiven, hs.overSleep⟩

private theorem Apart.withoutPacket (hs : Apart s) (bytesToSend : UInt32) (rest : List UInt32) (delayNs : ℕ) :
    Apart (s.withoutPacket bytesToSend rest delayNs) := by
  refine Apart.scheduleSendOverSleep ?_ delayNs bytesToSend
  exact ⟨hs.enqueueGiven, hs.sendGiven, hs.overSleep⟩

private theorem Apart.cancelAndClear (hs : Apart s) : Apart s.cancelAndClear := by
  refine hs.of_subset rfl rfl rfl ?_
  simp only [RmcatSender.cancelAndClear, Scheduler.waiting_cancel]
  exact fun uid huid => List.mem_of_mem_filter (List.mem_of_mem_filter (List.mem_of_mem_filter huid))

/-- No event of the sender waits. -/
structure Resting (s : RmcatSender C K) : Prop where
  enqueue : s.simulator.waiting Handler.isEnqueuePacket = []
  send : s.simulator.waiting Handler.isSendPacket = []
  overSleep : s.simulator.waiting Handler.isSendOverSleep = []

theorem Resting.runNext (hs : Resting s) : s.simulator.runNext = none := by
  cases hnext : s.simulator.runNext with
  | none => rfl
  | some next =>
    have henqueue := Scheduler.kind_of_runNext hnext hs.enqueue
    have hsend := Scheduler.kind_of_runNext hnext hs.send
    have hover := Scheduler.kind_of_runNext hnext hs.overSleep
    rcases next.1.handler.kinds with hkind | hkind | hkind
    · cases henqueue.symm.trans hkind
    · cases hsend.symm.trans hkind
    · cases hover.symm.trans hkind

private theorem Resting.of_simulator (hs : Resting s) (hsame : s'.simulator = s.simulator) : Resting s' :=
  ⟨by rw [hsame, hs.enqueue], by rw [hsame, hs.send], by rw [hsame, hs.overSleep]⟩

private theorem Resting.cancelAndClear (hs : Resting s) : Resting s.cancelAndClear where
  enqueue := Scheduler.waiting_cancel_of_nil (Scheduler.waiting_cancel_of_nil
    (Scheduler.waiting_cancel_of_nil hs.enqueue _) _) _
  send := Scheduler.waiting_cancel_of_nil (Scheduler.waiting_cancel_of_nil
    (Scheduler.waiting_cancel_of_nil hs.send _) _) _
  overSleep := Scheduler.waiting_cancel_of_nil (Scheduler.waiting_cancel_of_nil
    (Scheduler.waiting_cancel_of_nil hs.overSleep _) _) _

private theorem due_overSleep {uid : ℕ} (henqueue : s.simulator.waiting Handler.isEnqueuePacket = [])
    (hsend : s.simulator.waiting Handler.isSendPacket = [])
    (huid : uid ∈ s.simulator.waiting Handler.isSendOverSleep) :
    ∃ handler, s.due = some handler ∧ handler.isSendOverSleep = true := by
  obtain ⟨event, simulator, hnext⟩ := Scheduler.exists_runNext_of_mem huid
  refine ⟨event.handler, by rw [due, hnext]; rfl, ?_⟩
  have hnotEnqueue := Scheduler.kind_of_runNext hnext henqueue
  have hnotSend := Scheduler.kind_of_runNext hnext hsend
  rcases event.handler.kinds with hkind | hkind | hkind
  · cases hnotEnqueue.symm.trans hkind
  · cases hnotSend.symm.trans hkind
  · exact hkind

variable [Field K] [LinearOrder K] [FloorSemiring K] {api : ControllerApi C K}

private theorem Apart.step (hs : Apart s) {event : SenderEvent K} (h : s.step api event = .ok s') : Apart s' := by
  rcases step_cases h with ⟨codec, rand, next, simulator, -, hnext, hcases⟩ |
    ⟨atNs, -, -, -, -, controller, rVin, rSend, rfl⟩ | ⟨atNs, -, rfl⟩ | ⟨atNs, -, -, rfl⟩ | ⟨atNs, -, rfl⟩
  · have hrun : Apart { s with simulator } := by
      refine hs.of_subset rfl rfl (Scheduler.runNext_eq hnext).2.2.1 ?_
      rw [Scheduler.waiting_runNext hnext]
      exact List.filter_subset_self _
    rcases hcases with ⟨-, h⟩ | ⟨usSlept, -, h⟩ | ⟨bytesToSend, -, h⟩
    · have hqueued := hrun.withPacket codec (seconds codec.secs)
      obtain ⟨-, -, hcases⟩ := enqueuePacket_cases h
      rcases hcases with ⟨-, delayNs, usSlept, rfl⟩ | ⟨-, rfl⟩
      · exact hqueued.scheduleSendPacket _ _
      · exact hqueued
    · obtain ⟨bytesToSend, rest, overNs, -, -, hcases⟩ := sendPacket_cases h
      have hsent := hrun.withoutPacket bytesToSend rest overNs
      rcases hcases with ⟨-, nextSendTstmpUs, rfl⟩ | ⟨-, delayNs, usSlept, rfl⟩
      · exact ⟨hsent.enqueueGiven, hsent.sendGiven, hsent.overSleep⟩
      · exact hsent.scheduleSendPacket _ _
    · obtain ⟨controller, packet, rfl⟩ := sendOverSleep_cases h
      exact ⟨hrun.enqueueGiven, hrun.sendGiven, hrun.overSleep⟩
  · exact ⟨hs.enqueueGiven, hs.sendGiven, hs.overSleep⟩
  · have hclear : Apart (s.waitUntil atNs).cancelAndClear :=
      Apart.cancelAndClear ⟨hs.enqueueGiven, hs.sendGiven, hs.overSleep⟩
    exact ⟨hclear.enqueueGiven, hclear.sendGiven, hclear.overSleep⟩
  · refine Apart.scheduleEnqueuePacket ?_ 0
    exact ⟨hs.enqueueGiven, hs.sendGiven, hs.overSleep⟩
  · exact Apart.cancelAndClear ⟨hs.enqueueGiven, hs.sendGiven, hs.overSleep⟩

omit [FloorSemiring K] in
private theorem apart_started (hs : Started s) : Apart s := by
  obtain ⟨-, -, -, henqueue, hsend, hgiven, atNs, hpending⟩ := hs.eq
  constructor
  · simp [henqueue, hgiven]
  · simp [hsend]
  · simp [Scheduler.waiting, hpending, Handler.isSendOverSleep]

private theorem apart_run {events : List (SenderEvent K)} (hs : Started s) (hrun : run (step api) s events = .ok s') :
    Apart s' := by
  refine run_induction (step api) (motive := fun _ s => Apart s) (apart_started hs) ?_ hrun
  intro before event mid next _ hmid hstep
  exact hmid.step hstep

private theorem Resting.step (hs : Resting s) {event : SenderEvent K} (hquiet : event.resumes = false)
    (h : s.step api event = .ok s') : Resting s' ∧ s'.socket = s.socket := by
  rcases step_cases h with ⟨codec, rand, next, simulator, -, hnext, -⟩ |
    ⟨atNs, -, -, -, -, controller, rVin, rSend, rfl⟩ | ⟨atNs, -, rfl⟩ | ⟨atNs, rfl, -, -⟩ | ⟨atNs, -, rfl⟩
  · rw [hs.runNext] at hnext
    cases hnext
  · exact ⟨⟨hs.enqueue, hs.send, hs.overSleep⟩, rfl⟩
  · have hclear : Resting (s.waitUntil atNs).cancelAndClear :=
      Resting.cancelAndClear ⟨hs.enqueue, hs.send, hs.overSleep⟩
    exact ⟨⟨hclear.enqueue, hclear.send, hclear.overSleep⟩, rfl⟩
  · cases hquiet
  · exact ⟨Resting.cancelAndClear ⟨hs.enqueue, hs.send, hs.overSleep⟩, rfl⟩

private theorem Resting.run {events : List (SenderEvent K)} (hs : Resting s)
    (hquiet : ∀ event ∈ events, event.resumes = false)
    (hrun : Lib.run (RmcatSender.step api) s events = .ok s') : Resting s' ∧ s'.socket = s.socket := by
  apply run_keeps (RmcatSender.step api) (motive := fun next => Resting next ∧ next.socket = s.socket) _ hquiet
    ⟨hs, rfl⟩ hrun
  intro mid event next hevent hmid hnext
  obtain ⟨hrest, hsocket⟩ := hmid.1.step hevent hnext
  exact ⟨hrest, hsocket.trans hmid.2⟩

/-- However the run goes on without a resume, no SendOverSleep is ever due, and nothing is sent. -/
def Silent (api : ControllerApi C K) (s : RmcatSender C K) : Prop :=
  ∀ events s', (∀ event ∈ events, event.resumes = false) → run (step api) s events = .ok s' →
    (∀ handler, s'.due = some handler → handler.isSendOverSleep = false) ∧ s'.socket = s.socket

private theorem Resting.silent (hs : Resting s) : Silent api s := by
  intro events s' hquiet hrun
  obtain ⟨hrest, hsocket⟩ := hs.run hquiet hrun
  refine ⟨fun handler hdue => ?_, hsocket⟩
  rw [due, hrest.runNext] at hdue
  cases hdue

private theorem silent_cancelAndClear (harmed : Armed s) (hapart : Apart s)
    (hsame : s'.simulator = s.cancelAndClear.simulator) :
    Silent api s' ↔ s.simulator.Held Handler.isSendOverSleep s.sendOversleepEvent := by
  obtain ⟨henqueue, hsend⟩ := harmed.waiting_cancelAndClear
  constructor
  · intro hsilent uid huid
    by_contra hother
    obtain ⟨hnotEnqueue, hnotSend⟩ := hapart.overSleep uid huid
    have hmem : uid ∈ s'.simulator.waiting Handler.isSendOverSleep := by
      rw [hsame]
      simp [cancelAndClear, huid, hnotEnqueue.symm, hnotSend.symm, Ne.symm hother]
    rw [← hsame] at henqueue hsend
    obtain ⟨handler, hdue, hkind⟩ := due_overSleep henqueue hsend hmem
    have hnot := (hsilent [] s' (by simp) rfl).1 handler hdue
    rw [hkind] at hnot
    cases hnot
  · intro hheld
    have hover := ((hheld.cancel_other s.enqueueEvent).cancel_other s.sendEvent).cancel
    exact (Resting.of_simulator ⟨henqueue, hsend, hover⟩ hsame).silent

/-- After a pause or a stop in any run, no packet is sent before a resume, however the run goes on,
exactly when at that time no packet was on its way to the socket but the last one. -/
theorem silent_iff {events : List (SenderEvent K)} {event : SenderEvent K} {start : RmcatSender C K}
    (hstart : Started start) (hrun : run (step api) start events = .ok s) (hsilences : event.silences = true)
    (hstep : s.step api event = .ok s') :
    Silent api s' ↔ s.simulator.Held Handler.isSendOverSleep s.sendOversleepEvent := by
  have harmed := armed_run hstart hrun
  have hapart := apart_run hstart hrun
  have hwait (atNs : ℕ) : Apart (s.waitUntil atNs) := ⟨hapart.enqueueGiven, hapart.sendGiven, hapart.overSleep⟩
  rcases step_cases hstep with ⟨codec, rand, next, simulator, rfl, -⟩ |
    ⟨atNs, rIPAddress, rport, packet, rfl, -⟩ | ⟨atNs, -, rfl⟩ | ⟨atNs, rfl, -⟩ | ⟨atNs, -, rfl⟩
  · cases hsilences
  · cases hsilences
  · exact silent_cancelAndClear (s := s.waitUntil atNs) (harmed.waitUntil atNs) (hwait atNs) rfl
  · cases hsilences
  · exact silent_cancelAndClear (s := s.waitUntil atNs) (harmed.waitUntil atNs) (hwait atNs) rfl

/-- A packet of 1000 bytes, which is sent at once, and one that waits for its turn. -/
def twoPackets : List (SenderEvent ℚ) :=
  [.runNext ⟨1000, 1 / 100, true⟩ 0, .runNext ⟨1, 1, true⟩ 99, .runNext ⟨1, 1, true⟩ 0,
    .runNext ⟨1, 1 / 100, true⟩ 0]

/-- A pause while the small packet is on its way to the socket, and no other one. -/
theorem silent_iff_two_packets :
    ∃ start s s', Started start ∧
      run (step dummyApi) start (twoPackets ++ [.runNext ⟨1000, 1, true⟩ 0, .runNext ⟨1, 1, true⟩ 99]) = .ok s ∧
      s.simulator.waiting Handler.isSendOverSleep ≠ [] ∧
      s.step dummyApi (.pauseResume 53360000 true) = .ok s' ∧ Silent dummyApi s' := by
  have hfacts : (dummySender 150000 >>= fun start =>
      run (step dummyApi) start (twoPackets ++ [.runNext ⟨1000, 1, true⟩ 0, .runNext ⟨1, 1, true⟩ 99]) >>= fun s =>
      s.step dummyApi (.pauseResume 53360000 true) >>= fun s' =>
        .ok (decide (s.simulator.waiting Handler.isSendOverSleep ≠ [] ∧
          s.simulator.Held Handler.isSendOverSleep s.sendOversleepEvent))) = .ok true := by
    decide +kernel
  obtain ⟨start, hstart, hfacts⟩ := bind_eq_ok.mp hfacts
  obtain ⟨s, hrun, hfacts⟩ := bind_eq_ok.mp hfacts
  obtain ⟨s', hstep, hfacts⟩ := bind_eq_ok.mp hfacts
  obtain ⟨hpending, hheld⟩ := of_decide_eq_true (Except.ok.inj hfacts)
  have hstarted := started_dummySender hstart
  exact ⟨start, s, s', hstarted, hrun, hpending, hstep, (silent_iff hstarted hrun rfl hstep).mpr hheld⟩

/-- Behind a small packet the next one overtakes it on the way to the socket; a pause then cancels
the event of the last one only, and the small one is sent after it. -/
theorem packet_after_pause :
    ¬ ∀ (start s s' : RmcatSender (DummyController ℚ) ℚ) (events : List (SenderEvent ℚ)) (event : SenderEvent ℚ),
      Started start → run (step dummyApi) start events = .ok s → event.silences = true →
      s.step dummyApi event = .ok s' → Silent dummyApi s' := by
  intro hall
  have hfacts : (dummySender 150000 >>= fun start =>
      run (step dummyApi) start (twoPackets ++ [.runNext ⟨1000, 1, true⟩ 0, .runNext ⟨1, 1, true⟩ 99,
        .runNext ⟨1, 1, true⟩ 99, .runNext ⟨1, 1, true⟩ 0]) >>= fun s =>
      s.step dummyApi (.pauseResume 53400000 true) >>= fun s' =>
        .ok (s'.due.map Handler.isSendOverSleep)) = .ok (some true) := by
    decide +kernel
  obtain ⟨start, hstart, hfacts⟩ := bind_eq_ok.mp hfacts
  obtain ⟨s, hrun, hfacts⟩ := bind_eq_ok.mp hfacts
  obtain ⟨s', hstep, hfacts⟩ := bind_eq_ok.mp hfacts
  obtain ⟨handler, hdue, hkind⟩ := Option.map_eq_some_iff.mp (Except.ok.inj hfacts)
  have hsilent := hall start s s' _ _ (started_dummySender hstart) hrun rfl hstep
  have hnot := (hsilent [] s' (by simp) rfl).1 handler hdue
  rw [hkind] at hnot
  cases hnot

end RmcatSender

end Ns3Rmcat.Sender
