import Ns3Rmcat.Sender.Rmcat

/-! What each event does to a sender, and what holds of its timers in every run: of the events to
enqueue and to send at most one waits, the one whose identifier the sender has, and it waits to
send exactly when the buffer is not empty. -/
namespace Ns3Rmcat.Sender
open Lib Header Controller

namespace RmcatSender
variable {C K : Type} {s s' : RmcatSender C K}

/-- The state of a sender that has put a packet into its buffer and will do so again. -/
def withPacket (s : RmcatSender C K) (codec : Codec K) (delayNs : ℕ) : RmcatSender C K :=
  { s with
    codec
    rateShapingBuf := s.rateShapingBuf ++ [codec.size.toUInt32]
    rateShapingBytes := s.rateShapingBytes + codec.size.toUInt32 : RmcatSender C K }.scheduleEnqueuePacket delayNs

/-- The state of a sender that has taken a packet out of its buffer and will give it to the socket. -/
def withoutPacket (s : RmcatSender C K) (bytesToSend : UInt32) (rest : List UInt32) (delayNs : ℕ) : RmcatSender C K :=
  { s with
    rateShapingBuf := rest
    rateShapingBytes := s.rateShapingBytes - bytesToSend : RmcatSender C K }.scheduleSendOverSleep delayNs bytesToSend

private theorem length_withPacket (s : RmcatSender C K) (codec : Codec K) (delayNs : ℕ) :
    (s.withPacket codec delayNs).rateShapingBuf.length = 1 ↔ s.rateShapingBuf = [] := by
  rw [← List.length_eq_zero_iff]
  simp [withPacket, scheduleEnqueuePacket]

theorem pauseResume_true (h : s.pauseResume true = .ok s') : s' = { s.cancelAndClear with paused := true } := by
  obtain ⟨-, h⟩ := check_bind_eq_ok.mp h
  cases h
  rfl

theorem pauseResume_false (h : s.pauseResume false = .ok s') :
    s.paused = true ∧ s' = { s with
      rVin := s.initBw, rSend := s.initBw, nextSendTstmpUs := 0, paused := false : RmcatSender C K
      }.scheduleEnqueuePacket 0 := by
  obtain ⟨hpaused, h⟩ := check_bind_eq_ok.mp h
  cases h
  exact ⟨by simpa using hpaused, rfl⟩

theorem sendOverSleep_cases {api : ControllerApi C K} {bytesToSend : UInt32}
    (h : s.sendOverSleep api bytesToSend = .ok s') :
    ∃ controller packet, s' = { s with controller, sequence := s.sequence + 1, socket := s.socket ++ [packet] } := by
  simp only [sendOverSleep, bind_eq_ok] at h
  obtain ⟨⟨_, controller⟩, -, h⟩ := h
  cases h
  exact ⟨_, _, rfl⟩

section Handlers
variable [Field K] [LinearOrder K] [FloorSemiring K] {api : ControllerApi C K}

private theorem enqueuePacket_eq (s : RmcatSender C K) (codec : Codec K) : s.enqueuePacket codec = (do
    check (0 < codec.size)
    check (codec.size ≤ 1000)
    let next := s.withPacket codec (seconds codec.secs)
    if next.rateShapingBuf.length = 1 then
      return next.scheduleSendPacket (microSeconds next.usToNextSend) next.usToNextSend
    return next) := rfl

/-- A packet is put into the buffer. One that finds it empty waits for the last one that has left. -/
theorem enqueuePacket_ok {codec : Codec K} (h : s.enqueuePacket codec = .ok s') :
    0 < codec.size ∧ codec.size ≤ 1000 ∧
      ((s.rateShapingBuf = [] ∧ s' = (s.withPacket codec (seconds codec.secs)).scheduleSendPacket
        (microSeconds s.usToNextSend) s.usToNextSend) ∨
      (s.rateShapingBuf ≠ [] ∧ s' = s.withPacket codec (seconds codec.secs))) := by
  rw [enqueuePacket_eq] at h
  obtain ⟨hpos, h⟩ := check_bind_eq_ok.mp h
  obtain ⟨hsize, h⟩ := check_bind_eq_ok.mp h
  refine ⟨hpos, hsize, ?_⟩
  dsimp only at h
  split at h
  · rename_i hlength
    cases h
    exact .inl ⟨(s.length_withPacket codec _).mp hlength, rfl⟩
  · rename_i hlength
    cases h
    exact .inr ⟨fun hempty => hlength ((s.length_withPacket codec _).mpr hempty), rfl⟩

/-- The send timer is started when the buffer was empty, at whatever time. -/
theorem enqueuePacket_cases {codec : Codec K} (h : s.enqueuePacket codec = .ok s') :
    0 < codec.size ∧ codec.size ≤ 1000 ∧
      ((s.rateShapingBuf = [] ∧ ∃ delayNs usSlept,
        s' = (s.withPacket codec (seconds codec.secs)).scheduleSendPacket delayNs usSlept) ∨
      (s.rateShapingBuf ≠ [] ∧ s' = s.withPacket codec (seconds codec.secs))) := by
  obtain ⟨hpos, hsize, ⟨hempty, hs'⟩ | hsome⟩ := enqueuePacket_ok h
  · exact ⟨hpos, hsize, .inl ⟨hempty, _, _, hs'⟩⟩
  · exact ⟨hpos, hsize, .inr hsome⟩

theorem enqueuePacket_returns {codec : Codec K} (hpos : 0 < codec.size) (hsize : codec.size ≤ 1000) :
    Returns (s.enqueuePacket codec) := by
  rw [enqueuePacket_eq, check_of hpos, ok_bind, check_of hsize, ok_bind]
  dsimp only
  split <;> exact returns_ok _

/-- A packet is taken out of the buffer, and the next one waits until it has had its time. -/
theorem sendPacket_ok {usSlept rand : UInt64} (h : s.sendPacket usSlept rand = .ok s') :
    ∃ bytesToSend rest overNs, s.rateShapingBuf = bytesToSend :: rest ∧ bytesToSend ≤ s.rateShapingBytes ∧
      bytesToSend.toNat ≤ 1000 ∧
      ((rest = [] ∧ s' = { s.withoutPacket bytesToSend rest overNs with
        nextSendTstmpUs := s.nowUs + s.usToNextSentPacket bytesToSend }) ∨
      (rest ≠ [] ∧ s' = (s.withoutPacket bytesToSend rest overNs).scheduleSendPacket
        (microSeconds (s.usToNextSentPacket bytesToSend)) (s.usToNextSentPacket bytesToSend))) := by
  rw [sendPacket] at h
  split at h
  · cases h
  · rename_i bytesToSend rest hbuf
    obtain ⟨-, h⟩ := check_bind_eq_ok.mp h
    obtain ⟨-, h⟩ := check_bind_eq_ok.mp h
    obtain ⟨hsize, h⟩ := check_bind_eq_ok.mp h
    obtain ⟨hbytes, h⟩ := check_bind_eq_ok.mp h
    refine ⟨bytesToSend, rest, microSeconds (usSlept * (rand % 100) / 10000), hbuf, hbytes, ?_, ?_⟩
    · exact UInt32.le_iff_toNat_le.mp hsize
    · cases rest with
      | nil =>
        cases h
        exact .inl ⟨rfl, rfl⟩
      | cons next rest =>
        cases h
        exact .inr ⟨List.cons_ne_nil _ _, rfl⟩

/-- The send timer is started again unless the buffer is empty, at whatever time. -/
theorem sendPacket_cases {usSlept rand : UInt64} (h : s.sendPacket usSlept rand = .ok s') :
    ∃ bytesToSend rest overNs, s.rateShapingBuf = bytesToSend :: rest ∧ bytesToSend ≤ s.rateShapingBytes ∧
      ((rest = [] ∧ ∃ nextSendTstmpUs, s' = { s.withoutPacket bytesToSend rest overNs with nextSendTstmpUs }) ∨
      (rest ≠ [] ∧ ∃ delayNs usSlept,
        s' = (s.withoutPacket bytesToSend rest overNs).scheduleSendPacket delayNs usSlept)) := by
  obtain ⟨bytesToSend, rest, overNs, hbuf, hbytes, -, ⟨hempty, hs'⟩ | ⟨hsome, hs'⟩⟩ := sendPacket_ok h
  · exact ⟨bytesToSend, rest, overNs, hbuf, hbytes, .inl ⟨hempty, _, hs'⟩⟩
  · exact ⟨bytesToSend, rest, overNs, hbuf, hbytes, .inr ⟨hsome, _, _, hs'⟩⟩

omit [FloorSemiring K] in
theorem calcBufferParams_frame (api : ControllerApi C K) (s : RmcatSender C K) (nowUs : UInt64) :
    ∃ rVin rSend, s.calcBufferParams api nowUs = { s with rVin, rSend } := by
  simp only [calcBufferParams]
  split <;> exact ⟨_, _, rfl⟩

omit [FloorSemiring K] in
private theorem recvPacket_frame {rIPAddress : UInt32} {rport : UInt16} {packet : Octets}
    (h : s.recvPacket api rIPAddress rport packet = .ok s') :
    ∃ controller rVin rSend, s' = { s with controller, rVin, rSend } := by
  simp only [recvPacket] at h
  obtain ⟨-, h⟩ := check_bind_eq_ok.mp h
  obtain ⟨-, h⟩ := check_bind_eq_ok.mp h
  obtain ⟨⟨_, header, _⟩, -, h⟩ := bind_eq_ok.mp h
  dsimp only at h
  split at h
  · obtain ⟨rVin, rSend, he⟩ := calcBufferParams_frame api s s.nowUs
    cases h
    exact ⟨_, _, _, he⟩
  · obtain ⟨feedback, -, h⟩ := bind_eq_ok.mp h
    cases feedback with
    | none => cases h
    | some feedback =>
      obtain ⟨⟨_, controller⟩, -, h⟩ := bind_eq_ok.mp h
      obtain ⟨rVin, rSend, he⟩ := calcBufferParams_frame api { s with controller } s.nowUs
      cases h
      exact ⟨controller, rVin, rSend, he⟩

/-- What the next event does, or something that comes from outside. -/
theorem step_cases {event : SenderEvent K} (h : s.step api event = .ok s') :
    (∃ codec rand next simulator, event = .runNext codec rand ∧ s.simulator.runNext = some (next, simulator) ∧
      ((next.handler = .enqueuePacket ∧ { s with simulator }.enqueuePacket codec = .ok s') ∨
      (∃ usSlept, next.handler = .sendPacket usSlept ∧ { s with simulator }.sendPacket usSlept rand = .ok s') ∨
      (∃ bytesToSend, next.handler = .sendOverSleep bytesToSend ∧
        { s with simulator }.sendOverSleep api bytesToSend = .ok s'))) ∨
    (∃ atNs rIPAddress rport packet, event = .recvPacket atNs rIPAddress rport packet ∧
      ∃ controller rVin rSend, s' = { s.waitUntil atNs with controller, rVin, rSend }) ∨
    (∃ atNs, event = .pauseResume atNs true ∧ s' = { (s.waitUntil atNs).cancelAndClear with paused := true }) ∨
    (∃ atNs, event = .pauseResume atNs false ∧ s.paused = true ∧ s' = { s.waitUntil atNs with
      rVin := s.initBw, rSend := s.initBw, nextSendTstmpUs := 0, paused := false : RmcatSender C K
      }.scheduleEnqueuePacket 0) ∨
    (∃ atNs, event = .stopApplication atNs ∧ s' = (s.waitUntil atNs).cancelAndClear) := by
  cases event with
  | runNext codec rand =>
    refine .inl ?_
    rw [RmcatSender.step] at h
    split at h
    · cases h
    · rename_i next simulator hnext
      refine ⟨codec, rand, next, simulator, rfl, hnext, ?_⟩
      cases hhandler : next.handler with
      | enqueuePacket =>
        rw [hhandler] at h
        exact .inl ⟨rfl, h⟩
      | sendPacket usSlept =>
        rw [hhandler] at h
        exact .inr (.inl ⟨usSlept, rfl, h⟩)
      | sendOverSleep bytesToSend =>
        rw [hhandler] at h
        exact .inr (.inr ⟨bytesToSend, rfl, h⟩)
  | recvPacket atNs rIPAddress rport packet =>
    exact .inr (.inl ⟨atNs, rIPAddress, rport, packet, rfl, recvPacket_frame h⟩)
  | pauseResume atNs pause =>
    cases pause with
    | true => exact .inr (.inr (.inl ⟨atNs, rfl, pauseResume_true h⟩))
    | false => exact .inr (.inr (.inr (.inl ⟨atNs, rfl, pauseResume_false h⟩)))
  | stopApplication atNs =>
    cases h
    exact .inr (.inr (.inr (.inr ⟨atNs, rfl, rfl⟩)))

end Handlers

/-- What holds of the timers after any events. -/
structure Armed (s : RmcatSender C K) : Prop where
  enqueue : s.simulator.Held Handler.isEnqueuePacket s.enqueueEvent
  resting : s.paused = true → s.simulator.waiting Handler.isEnqueuePacket = []
  send : s.simulator.Held Handler.isSendPacket s.sendEvent
  buffer : s.rateShapingBuf = [] ↔ s.simulator.waiting Handler.isSendPacket = []

/-- A sender with something to enqueue next is not paused. -/
theorem Armed.not_paused (hs : Armed s) {event : Scheduled Handler} {simulator : Scheduler Handler}
    (hnext : s.simulator.runNext = some (event, simulator)) (hkind : event.handler.isEnqueuePacket = true) :
    s.paused = false := by
  cases hpaused : s.paused with
  | false => rfl
  | true =>
    have hother := Scheduler.kind_of_runNext hnext (hs.resting hpaused)
    rw [hkind] at hother
    cases hother

private theorem Armed.sendOverSleep {api : ControllerApi C K} (hs : Armed s) {event : Scheduled Handler}
    {simulator : Scheduler Handler} (hnext : s.simulator.runNext = some (event, simulator)) {bytesToSend : UInt32}
    (hhandler : event.handler = .sendOverSleep bytesToSend)
    (h : { s with simulator }.sendOverSleep api bytesToSend = .ok s') : Armed s' := by
  have henqueue : simulator.waiting Handler.isEnqueuePacket = s.simulator.waiting Handler.isEnqueuePacket :=
    Scheduler.waiting_runNext_of_not hnext (by rw [hhandler]; rfl)
  have hsend : simulator.waiting Handler.isSendPacket = s.simulator.waiting Handler.isSendPacket :=
    Scheduler.waiting_runNext_of_not hnext (by rw [hhandler]; rfl)
  obtain ⟨controller, packet, rfl⟩ := sendOverSleep_cases h
  constructor
  · simpa [Scheduler.Held, henqueue] using hs.enqueue
  · simpa [henqueue] using hs.resting
  · simpa [Scheduler.Held, hsend] using hs.send
  · simpa [hsend] using hs.buffer

/-- The kinds of events that the sender has the identifiers of do not wait when it has cancelled them. -/
theorem Armed.waiting_cancelAndClear (hs : Armed s) :
    s.cancelAndClear.simulator.waiting Handler.isEnqueuePacket = [] ∧
      s.cancelAndClear.simulator.waiting Handler.isSendPacket = [] := by
  have henqueue := Scheduler.waiting_cancel_of_nil hs.enqueue.cancel s.sendEvent
  have hsend := (hs.send.cancel_other s.enqueueEvent).cancel
  exact ⟨Scheduler.waiting_cancel_of_nil henqueue _, Scheduler.waiting_cancel_of_nil hsend _⟩

private theorem Armed.cancelAndClear (hs : Armed s) : Armed s.cancelAndClear := by
  obtain ⟨henqueue, hsend⟩ := hs.waiting_cancelAndClear
  exact ⟨Scheduler.held_of_nil henqueue, fun _ => henqueue, Scheduler.held_of_nil hsend, iff_of_true rfl hsend⟩

theorem Armed.waitUntil (hs : Armed s) (atNs : ℕ) : Armed (s.waitUntil atNs) :=
  ⟨hs.enqueue, hs.resting, hs.send, hs.buffer⟩

section Runs
variable [Field K] [LinearOrder K] [FloorSemiring K] {api : ControllerApi C K}

private theorem Armed.enqueuePacket (hs : Armed s) {event : Scheduled Handler} {simulator : Scheduler Handler}
    (hnext : s.simulator.runNext = some (event, simulator)) (hhandler : event.handler = .enqueuePacket)
    {codec : Codec K} (h : { s with simulator }.enqueuePacket codec = .ok s') : Armed s' := by
  have hkind : event.handler.isEnqueuePacket = true := by rw [hhandler]; rfl
  have hnone := hs.enqueue.runNext hnext hkind
  have hpaused := hs.not_paused hnext hkind
  have hsend : simulator.waiting Handler.isSendPacket = s.simulator.waiting Handler.isSendPacket :=
    Scheduler.waiting_runNext_of_not hnext (by rw [hhandler]; rfl)
  obtain ⟨-, -, hcases⟩ := enqueuePacket_cases h
  rcases hcases with ⟨hempty, delayNs, usSlept, rfl⟩ | ⟨hne, rfl⟩
  · have hidle := hs.buffer.mp hempty
    constructor
    · simp [Scheduler.Held, scheduleSendPacket, withPacket, scheduleEnqueuePacket, Handler.isEnqueuePacket, hnone]
    · simp [scheduleSendPacket, withPacket, scheduleEnqueuePacket, hpaused]
    · simp [Scheduler.Held, scheduleSendPacket, withPacket, scheduleEnqueuePacket, Handler.isSendPacket, hsend, hidle]
    · simp [scheduleSendPacket, withPacket, scheduleEnqueuePacket, Handler.isSendPacket]
  · have hbusy := fun hnil => hne (hs.buffer.mpr hnil)
    constructor
    · simp [Scheduler.Held, withPacket, scheduleEnqueuePacket, Handler.isEnqueuePacket, hnone]
    · simp [withPacket, scheduleEnqueuePacket, hpaused]
    · simpa [Scheduler.Held, withPacket, scheduleEnqueuePacket, Handler.isSendPacket, hsend] using hs.send
    · simpa [withPacket, scheduleEnqueuePacket, Handler.isSendPacket, hsend] using hbusy

private theorem Armed.sendPacket (hs : Armed s) {event : Scheduled Handler} {simulator : Scheduler Handler}
    (hnext : s.simulator.runNext = some (event, simulator)) {usSlept rand : UInt64}
    (hhandler : event.handler = .sendPacket usSlept) (h : { s with simulator }.sendPacket usSlept rand = .ok s') :
    Armed s' := by
  have hnone := hs.send.runNext hnext (by rw [hhandler]; rfl)
  have henqueue : simulator.waiting Handler.isEnqueuePacket = s.simulator.waiting Handler.isEnqueuePacket :=
    Scheduler.waiting_runNext_of_not hnext (by rw [hhandler]; rfl)
  obtain ⟨bytesToSend, rest, overNs, -, -, hcases⟩ := sendPacket_cases h
  rcases hcases with ⟨rfl, nextSendTstmpUs, rfl⟩ | ⟨hne, delayNs, usSlept, rfl⟩
  · constructor
    · simpa [Scheduler.Held, withoutPacket, scheduleSendOverSleep, Handler.isEnqueuePacket, henqueue] using hs.enqueue
    · simpa [withoutPacket, scheduleSendOverSleep, Handler.isEnqueuePacket, henqueue] using hs.resting
    · simp [Scheduler.Held, withoutPacket, scheduleSendOverSleep, Handler.isSendPacket, hnone]
    · simp [withoutPacket, scheduleSendOverSleep, Handler.isSendPacket, hnone]
  · constructor
    · simpa [Scheduler.Held, scheduleSendPacket, withoutPacket, scheduleSendOverSleep, Handler.isEnqueuePacket,
        henqueue] using hs.enqueue
    · simpa [scheduleSendPacket, withoutPacket, scheduleSendOverSleep, Handler.isEnqueuePacket, henqueue] using
        hs.resting
    · simp [Scheduler.Held, scheduleSendPacket, withoutPacket, scheduleSendOverSleep, Handler.isSendPacket, hnone]
    · simpa [scheduleSendPacket, withoutPacket, scheduleSendOverSleep, Handler.isSendPacket] using hne

/-- Every event keeps the timers in order. -/
theorem Armed.step (hs : Armed s) {event : SenderEvent K} (h : s.step api event = .ok s') : Armed s' := by
  rcases step_cases h with ⟨codec, rand, next, simulator, -, hnext, hcases⟩ |
    ⟨atNs, -, -, -, -, controller, rVin, rSend, rfl⟩ | ⟨atNs, -, rfl⟩ | ⟨atNs, -, hpaused, rfl⟩ | ⟨atNs, -, rfl⟩
  · rcases hcases with ⟨hhandler, h⟩ | ⟨usSlept, hhandler, h⟩ | ⟨bytesToSend, hhandler, h⟩
    · exact hs.enqueuePacket hnext hhandler h
    · exact hs.sendPacket hnext hhandler h
    · exact hs.sendOverSleep hnext hhandler h
  · exact ⟨hs.enqueue, hs.resting, hs.send, hs.buffer⟩
  · have hclear := (hs.waitUntil atNs).cancelAndClear
    exact ⟨hclear.enqueue, fun _ => (hs.waitUntil atNs).waiting_cancelAndClear.1, hclear.send, hclear.buffer⟩
  · have hnone := hs.resting hpaused
    constructor
    · simp [Scheduler.Held, scheduleEnqueuePacket, RmcatSender.waitUntil, Handler.isEnqueuePacket, hnone]
    · simp [scheduleEnqueuePacket]
    · simpa [Scheduler.Held, scheduleEnqueuePacket, RmcatSender.waitUntil, Handler.isSendPacket] using hs.send
    · simpa [scheduleEnqueuePacket, RmcatSender.waitUntil, Handler.isSendPacket] using hs.buffer
  · exact (hs.waitUntil atNs).cancelAndClear

/-- A sender that has been set up and started, by itself. -/
def Started (s : RmcatSender C K) : Prop :=
  ∃ codec controller destIP destPort initBw minBw maxBw nowNs ssrc sequence rtpTsOffset,
    (setup codec controller destIP destPort initBw minBw maxBw nowNs).startApplication ssrc sequence rtpTsOffset = .ok s

omit [FloorSemiring K] in
/-- A sender that starts has nothing in its buffer, and waits to enqueue. -/
theorem Started.eq (hs : Started s) : s.rateShapingBuf = [] ∧ s.rateShapingBytes = 0 ∧ s.paused = false ∧
    s.enqueueEvent = some 0 ∧ s.sendEvent = none ∧ s.simulator.nextUid = 1 ∧
    ∃ atNs, s.simulator.pending = [⟨0, atNs, .enqueuePacket⟩] := by
  obtain ⟨codec, controller, destIP, destPort, initBw, minBw, maxBw, nowNs, ssrc, sequence, rtpTsOffset, h⟩ := hs
  obtain ⟨-, h⟩ := check_bind_eq_ok.mp h
  obtain ⟨-, h⟩ := check_bind_eq_ok.mp h
  cases h
  exact ⟨rfl, rfl, rfl, rfl, rfl, rfl, _, rfl⟩

omit [FloorSemiring K] in
theorem armed_started (hs : Started s) : Armed s := by
  obtain ⟨hbuf, -, hpaused, henqueue, -, -, atNs, hpending⟩ := hs.eq
  constructor
  · simp [Scheduler.Held, Scheduler.waiting, hpending, henqueue, Handler.isEnqueuePacket]
  · simp [hpaused]
  · simp [Scheduler.Held, Scheduler.waiting, hpending, Handler.isSendPacket]
  · simp [Scheduler.waiting, hpending, hbuf, Handler.isSendPacket]

theorem armed_run {events : List (SenderEvent K)} (hs : Started s) (hrun : run (step api) s events = .ok s') :
    Armed s' := by
  refine run_induction (step api) (motive := fun _ s => Armed s) (armed_started hs) ?_ hrun
  intro before event mid next _ hmid hstep
  exact hmid.step hstep

end Runs

/-- A sender with the dummy controller, at a constant rate. -/
def dummySender (bw : ℚ) : Checked (RmcatSender (DummyController ℚ) ℚ) :=
  (setup ⟨1, 1, true⟩ .fresh 10 5 bw bw bw 0).startApplication 7 65535 1

theorem started_dummySender {bw : ℚ} {start : RmcatSender (DummyController ℚ) ℚ} (h : dummySender bw = .ok start) :
    Started start := ⟨_, _, _, _, _, _, _, _, _, _, _, h⟩

end RmcatSender

end Ns3Rmcat.Sender
