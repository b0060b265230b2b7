import Ns3Rmcat.Controller.CcfsApi
import Ns3Rmcat.Sender.RmcatCalls
import Ns3Rmcat.Sender.RmcatSilence

/-! The sender whose controller has the name of CCFS: it gives the socket all that is in its buffer,
as one packet, as soon as the codec has a frame of more than one byte. There is no send timer, so
that a pause leaves nothing behind. -/
namespace Ns3Rmcat.Sender
open Lib Header Controller

abbrev CcfsSender : Type := RmcatSender CcfsController ℚ

namespace RmcatSender

/-- What is sent is what is in the buffer, and not what is asked for. -/
def ccfsSendOverSleep (s : CcfsSender) (_bytesToSend : UInt32) : Checked CcfsSender := do
  let nowUs := s.nowUs
  let (_, controller) ← s.controller.processSendPacket2 s.ssrc nowUs s.sequence s.rateShapingBytes
  let bytesToSend := s.rateShapingBytes
  let header := { RtpHeader.ofPayloadType 96 with
    sequence := s.sequence
    timestamp := s.rtpTsOffset + (nowUs * 90 / 1000).toUInt32
    ssrc := s.ssrc }
  return { s with
    controller
    rateShapingBuf := []
    rateShapingBytes := 0
    sequence := s.sequence + 1
    socket := s.socket ++ [⟨header, bytesToSend, s.destIP, s.destPort⟩] }

/-- A frame of one byte waits for the next one. -/
def ccfsEnqueuePacket (s : CcfsSender) (codec : Codec ℚ) : Checked CcfsSender := do
  let s := { s with codec }
  let bytesToSend := codec.size
  check (0 < bytesToSend)
  check (bytesToSend ≤ defaultPacketSize.toUInt64)
  let s := { s with
    rateShapingBuf := s.rateShapingBuf ++ [bytesToSend.toUInt32]
    rateShapingBytes := s.rateShapingBytes + bytesToSend.toUInt32 }
  let s := s.scheduleEnqueuePacket (seconds codec.secs)
  if bytesToSend = 1 then
    return s
  s.ccfsSendOverSleep s.rateShapingBytes

def ccfsRecvPacket (rounds : ℕ) (s : CcfsSender) (rIPAddress : UInt32) (rport : UInt16) (packet : Octets) :
    Checked CcfsSender := do
  check (rIPAddress = s.destIP)
  check (rport = s.destPort)
  let nowUs := s.nowUs
  let (_, header, _) ← RfbHeader.fresh.deserialize packet
  let (_, controller) ← s.controller.processFeedback2 rounds nowUs header
  let bandwidth := controller.getBandwidth nowUs
  return { s with controller, rVin := bandwidth, rSend := bandwidth }

def ccfsHandle (s : CcfsSender) (codec : Codec ℚ) (rand : UInt64) : Handler → Checked CcfsSender
  | .enqueuePacket => s.ccfsEnqueuePacket codec
  | .sendPacket usSlept => s.sendPacket usSlept rand
  | .sendOverSleep bytesToSend => s.ccfsSendOverSleep bytesToSend

def ccfsStep (rounds : ℕ) (s : CcfsSender) : SenderEvent ℚ → Checked CcfsSender
  | .runNext codec rand =>
    match s.simulator.runNext with
    | none => .error .emptyQueue
    | some (event, simulator) => { s with simulator }.ccfsHandle codec rand event.handler
  | .recvPacket atNs rIPAddress rport packet => (s.waitUntil atNs).ccfsRecvPacket rounds rIPAddress rport packet
  | .pauseResume atNs pause => (s.waitUntil atNs).pauseResume pause
  | .stopApplication atNs => .ok (s.waitUntil atNs).stopApplication

section Steps
variable {rounds : ℕ} {s s' : CcfsSender}

/-- What a sender does that has a frame of more than one byte. -/
theorem ccfsSendOverSleep_ok {bytesToSend : UInt32} (h : s.ccfsSendOverSleep bytesToSend = .ok s') :
    ∃ controller ok,
      s.controller.processSendPacket2 s.ssrc s.nowUs s.sequence s.rateShapingBytes = .ok (ok, controller) ∧
      s' = { s with
        controller
        rateShapingBuf := []
        rateShapingBytes := 0
        sequence := s.sequence + 1
        socket := s.socket ++ [s.stream.mediaPacket ⟨s.sequence, s.nowUs, s.rateShapingBytes, 0, 0⟩] } := by
  obtain ⟨⟨ok, controller⟩, hsend, he⟩ := bind_eq_ok.mp h
  cases he
  exact ⟨controller, ok, hsend, rfl⟩

private theorem ccfsEnqueuePacket_eq (s : CcfsSender) (codec : Codec ℚ) : s.ccfsEnqueuePacket codec = (do
    check (0 < codec.size)
    check (codec.size ≤ 1000)
    let next := s.withPacket codec (seconds codec.secs)
    if codec.size = 1 then
      return next
    next.ccfsSendOverSleep next.rateShapingBytes) := rfl

theorem ccfsEnqueuePacket_cases {codec : Codec ℚ} (h : s.ccfsEnqueuePacket codec = .ok s') :
    0 < codec.size ∧ codec.size ≤ 1000 ∧
      ((codec.size = 1 ∧ s' = s.withPacket codec (seconds codec.secs)) ∨
      (codec.size ≠ 1 ∧ (s.withPacket codec (seconds codec.secs)).ccfsSendOverSleep
        (s.withPacket codec (seconds codec.secs)).rateShapingBytes = .ok s')) := by
  rw [ccfsEnqueuePacket_eq] at h
  obtain ⟨hpos, h⟩ := check_bind_eq_ok.mp h
  obtain ⟨hsize, h⟩ := check_bind_eq_ok.mp h
  refine ⟨hpos, hsize, ?_⟩
  dsimp only at h
  split at h
  · rename_i hone
    cases h
    exact .inl ⟨hone, rfl⟩
  · rename_i hmore
    exact .inr ⟨hmore, h⟩

theorem ccfsRecvPacket_ok {rIPAddress : UInt32} {rport : UInt16} {packet : Octets}
    (h : s.ccfsRecvPacket rounds rIPAddress rport packet = .ok s') :
    ∃ n header left controller ok, RfbHeader.fresh.deserialize packet = .ok (n, header, left) ∧
      s.controller.processFeedback2 rounds s.nowUs header = .ok (ok, controller) ∧
      s' = { s with controller, rVin := controller.getBandwidth s.nowUs, rSend := controller.getBandwidth s.nowUs } := by
  simp only [ccfsRecvPacket] at h
  obtain ⟨-, h⟩ := check_bind_eq_ok.mp h
  obtain ⟨-, h⟩ := check_bind_eq_ok.mp h
  obtain ⟨⟨n, header, left⟩, hread, h⟩ := bind_eq_ok.mp h
  obtain ⟨⟨ok, controller⟩, hfeedback, h⟩ := bind_eq_ok.mp h
  cases h
  exact ⟨n, header, left, controller, ok, hread, hfeedback, rfl⟩

/-- What a sender does takes no time. -/
theorem ccfsHandle_nowNs {codec : Codec ℚ} {rand : UInt64} {handler : Handler}
    (h : s.ccfsHandle codec rand handler = .ok s') : s'.simulator.nowNs = s.simulator.nowNs := by
  cases handler with
  | enqueuePacket =>
    obtain ⟨-, -, ⟨-, rfl⟩ | ⟨-, hsend⟩⟩ := ccfsEnqueuePacket_cases h
    · rfl
    · obtain ⟨controller, ok, -, rfl⟩ := ccfsSendOverSleep_ok hsend
      rfl
  | sendPacket usSlept =>
    obtain ⟨bytesToSend, rest, overNs, -, -, ⟨-, nextSendTstmpUs, rfl⟩ | ⟨-, delayNs, usSlept, rfl⟩⟩ :=
      sendPacket_cases h
    · rfl
    · rfl
  | sendOverSleep bytesToSend =>
    have hsend : s.ccfsSendOverSleep bytesToSend = .ok s' := h
    obtain ⟨controller, ok, -, rfl⟩ := ccfsSendOverSleep_ok hsend
    rfl

/-- The clock of a sender does not go back. -/
theorem nowNs_le_ccfsStep {event : SenderEvent ℚ} (h : s.ccfsStep rounds event = .ok s') :
    s.simulator.nowNs ≤ s'.simulator.nowNs := by
  cases event with
  | runNext codec rand =>
    rw [ccfsStep] at h
    split at h
    · cases h
    · rename_i next simulator hnext
      rw [ccfsHandle_nowNs h]
      exact Scheduler.nowNs_le_runNext hnext
  | recvPacket atNs rIPAddress rport packet =>
    obtain ⟨n, header, left, controller, ok, -, -, rfl⟩ := ccfsRecvPacket_ok h
    exact s.simulator.nowNs_le_waitUntil atNs
  | pauseResume atNs pause =>
    cases pause with
    | true =>
      rw [pauseResume_true h]
      exact s.simulator.nowNs_le_waitUntil atNs
    | false =>
      rw [(pauseResume_false h).2]
      exact s.simulator.nowNs_le_waitUntil atNs
  | stopApplication atNs =>
    cases h
    exact s.simulator.nowNs_le_waitUntil atNs

/-- The events of a sender that it has the identifier of are all that wait, and they are to enqueue. -/
structure CcfsArmed (s : CcfsSender) : Prop where
  enqueue : s.simulator.Held Handler.isEnqueuePacket s.enqueueEvent
  resting : s.paused = true → s.simulator.waiting Handler.isEnqueuePacket = []
  send : s.simulator.waiting Handler.isSendPacket = []
  overSleep : s.simulator.waiting Handler.isSendOverSleep = []

theorem CcfsArmed.waitUntil (hs : CcfsArmed s) (atNs : ℕ) : CcfsArmed (s.waitUntil atNs) :=
  ⟨hs.enqueue, hs.resting, hs.send, hs.overSleep⟩

private theorem CcfsArmed.handler (hs : CcfsArmed s) {next : Scheduled Handler} {simulator : Scheduler Handler}
    (hnext : s.simulator.runNext = some (next, simulator)) : next.handler = .enqueuePacket := by
  have hsend := Scheduler.kind_of_runNext hnext hs.send
  have hover := Scheduler.kind_of_runNext hnext hs.overSleep
  cases hhandler : next.handler with
  | enqueuePacket => rfl
  | sendPacket usSlept =>
    rw [hhandler] at hsend
    cases hsend
  | sendOverSleep bytesToSend =>
    rw [hhandler] at hover
    cases hover

/-- What the next event of such a sender does, or something that comes from outside. -/
theorem CcfsArmed.step_cases (hs : CcfsArmed s) {event : SenderEvent ℚ} (h : s.ccfsStep rounds event = .ok s') :
    (∃ codec rand next simulator, event = .runNext codec rand ∧ s.simulator.runNext = some (next, simulator) ∧
      next.handler = .enqueuePacket ∧ { s with simulator }.ccfsEnqueuePacket codec = .ok s') ∨
    (∃ atNs rIPAddress rport packet, event = .recvPacket atNs rIPAddress rport packet ∧
      (s.waitUntil atNs).ccfsRecvPacket rounds rIPAddress rport packet = .ok s') ∨
    (∃ atNs, event = .pauseResume atNs true ∧ s' = { (s.waitUntil atNs).cancelAndClear with paused := true }) ∨
    (∃ atNs, event = .pauseResume atNs false ∧ s.paused = true ∧ s' = { s.waitUntil atNs with
      rVin := s.initBw, rSend := s.initBw, nextSendTstmpUs := 0, paused := false : CcfsSender
      }.scheduleEnqueuePacket 0) ∨
    (∃ atNs, event = .stopApplication atNs ∧ s' = (s.waitUntil atNs).cancelAndClear) := by
  cases event with
  | runNext codec rand =>
    refine .inl ?_
    rw [ccfsStep] at h
    split at h
    · cases h
    · rename_i next simulator hnext
      have hhandler := hs.handler hnext
      rw [hhandler] at h
      exact ⟨codec, rand, next, simulator, rfl, hnext, hhandler, h⟩
  | recvPacket atNs rIPAddress rport packet => exact .inr (.inl ⟨atNs, rIPAddress, rport, packet, rfl, h⟩)
  | pauseResume atNs pause =>
    cases pause with
    | true => exact .inr (.inr (.inl ⟨atNs, rfl, pauseResume_true h⟩))
    | false => exact .inr (.inr (.inr (.inl ⟨atNs, rfl, pauseResume_false h⟩)))
  | stopApplication atNs =>
    cases h
    exact .inr (.inr (.inr (.inr ⟨atNs, rfl, rfl⟩)))

private theorem CcfsArmed.withPacket (hs : CcfsArmed s) {next : Scheduled Handler} {simulator : Scheduler Handler}
    (hnext : s.simulator.runNext = some (next, simulator)) (codec : Codec ℚ) (delayNs : ℕ) :
    CcfsArmed ({ s with simulator }.withPacket codec delayNs) := by
  have hhandler := hs.handler hnext
  have hkind : next.handler.isEnqueuePacket = true := by rw [hhandler]; rfl
  have hnone := hs.enqueue.runNext hnext hkind
  have hsend : simulator.waiting Handler.isSendPacket = [] :=
    (Scheduler.waiting_runNext_of_not hnext (by rw [hhandler]; rfl)).trans hs.send
  have hover : simulator.waiting Handler.isSendOverSleep = [] :=
    (Scheduler.waiting_runNext_of_not hnext (by rw [hhandler]; rfl)).trans hs.overSleep
  have hpaused : s.paused = false := by
    cases hpaused : s.paused with
    | false => rfl
    | true =>
      have hother := Scheduler.kind_of_runNext hnext (hs.resting hpaused)
      rw [hkind] at hother
      cases hother
  constructor
  · simp [Scheduler.Held, RmcatSender.withPacket, scheduleEnqueuePacket, Handler.isEnqueuePacket, hnone]
  · simp [RmcatSender.withPacket, scheduleEnqueuePacket, hpaused]
  · simp [RmcatSender.withPacket, scheduleEnqueuePacket, Handler.isSendPacket, hsend]
  · simp [RmcatSender.withPacket, scheduleEnqueuePacket, Handler.isSendOverSleep, hover]

private theorem CcfsArmed.rests (hs : CcfsArmed s) : Resting s.cancelAndClear where
  enqueue := Scheduler.waiting_cancel_of_nil (Scheduler.waiting_cancel_of_nil hs.enqueue.cancel _) _
  send := Scheduler.waiting_cancel_of_nil (Scheduler.waiting_cancel_of_nil
    (Scheduler.waiting_cancel_of_nil hs.send _) _) _
  overSleep := Scheduler.waiting_cancel_of_nil (Scheduler.waiting_cancel_of_nil
    (Scheduler.waiting_cancel_of_nil hs.overSleep _) _) _

private theorem CcfsArmed.of_resting (hs : Resting s) : CcfsArmed s :=
  ⟨Scheduler.held_of_nil hs.enqueue, fun _ => hs.enqueue, hs.send, hs.overSleep⟩

/-- Every event keeps the timers in order. -/
theorem CcfsArmed.step (hs : CcfsArmed s) {event : SenderEvent ℚ} (h : s.ccfsStep rounds event = .ok s') :
    CcfsArmed s' := by
  rcases hs.step_cases h with ⟨codec, rand, next, simulator, -, hnext, -, h⟩ |
    ⟨atNs, rIPAddress, rport, packet, -, h⟩ | ⟨atNs, -, rfl⟩ | ⟨atNs, -, hpaused, rfl⟩ | ⟨atNs, -, rfl⟩
  · have hqueued := hs.withPacket hnext codec (seconds codec.secs)
    obtain ⟨-, -, ⟨-, rfl⟩ | ⟨-, h⟩⟩ := ccfsEnqueuePacket_cases h
    · exact hqueued
    · obtain ⟨controller, ok, -, rfl⟩ := ccfsSendOverSleep_ok h
      exact ⟨hqueued.enqueue, hqueued.resting, hqueued.send, hqueued.overSleep⟩
  · obtain ⟨n, header, left, controller, ok, -, -, rfl⟩ := ccfsRecvPacket_ok h
    exact ⟨hs.enqueue, hs.resting, hs.send, hs.overSleep⟩
  · have hrest := (hs.waitUntil atNs).rests
    exact CcfsArmed.of_resting ⟨hrest.enqueue, hrest.send, hrest.overSleep⟩
  · have hnone := hs.resting hpaused
    constructor
    · simp [Scheduler.Held, scheduleEnqueuePacket, RmcatSender.waitUntil, Handler.isEnqueuePacket, hnone]
    · simp [scheduleEnqueuePacket]
    · simp [scheduleEnqueuePacket, RmcatSender.waitUntil, Handler.isSendPacket, hs.send]
    · simp [scheduleEnqueuePacket, RmcatSender.waitUntil, Handler.isSendOverSleep, hs.overSleep]
  · exact CcfsArmed.of_resting (hs.waitUntil atNs).rests

theorem ccfsArmed_started (hs : Started s) : CcfsArmed s := by
  obtain ⟨-, -, hpaused, henqueue, -, -, atNs, hpending⟩ := hs.eq
  constructor
  · simp [Scheduler.Held, Scheduler.waiting, hpending, henqueue, Handler.isEnqueuePacket]
  · simp [hpaused]
  · simp [Scheduler.waiting, hpending, Handler.isSendPacket]
  · simp [Scheduler.waiting, hpending, Handler.isSendOverSleep]

theorem ccfsArmed_run {start : CcfsSender} {events : List (SenderEvent ℚ)} (hstart : Started start)
    (hrun : run (ccfsStep rounds) start events = .ok s) : CcfsArmed s := by
  refine run_induction (ccfsStep rounds) (motive := fun _ s => CcfsArmed s) (ccfsArmed_started hstart) ?_ hrun
  intro before event mid next _ hmid hstep
  exact hmid.step hstep

/-- A sender at rest with nothing in its buffer. -/
structure Quiet (socket : List MediaPacket) (s : CcfsSender) : Prop where
  rests : Resting s
  socket : s.socket = socket
  buffer : s.rateShapingBuf = [] ∧ s.rateShapingBytes = 0

private theorem CcfsArmed.quiet (hs : CcfsArmed s) {event : SenderEvent ℚ} (hsilences : event.silences = true)
    (h : s.ccfsStep rounds event = .ok s') : Quiet s.socket s' := by
  rcases hs.step_cases h with ⟨codec, rand, next, simulator, rfl, -⟩ |
    ⟨atNs, rIPAddress, rport, packet, rfl, -⟩ | ⟨atNs, -, rfl⟩ | ⟨atNs, rfl, -⟩ | ⟨atNs, -, rfl⟩
  · cases hsilences
  · cases hsilences
  · have hrest := (hs.waitUntil atNs).rests
    exact ⟨⟨hrest.enqueue, hrest.send, hrest.overSleep⟩, rfl, rfl, rfl⟩
  · cases hsilences
  · exact ⟨(hs.waitUntil atNs).rests, rfl, rfl, rfl⟩

private theorem Quiet.step {socket : List MediaPacket} (hs : Quiet socket s) {event : SenderEvent ℚ}
    (hquiet : event.resumes = false) (h : s.ccfsStep rounds event = .ok s') : Quiet socket s' := by
  have harmed := CcfsArmed.of_resting hs.rests
  rcases harmed.step_cases h with ⟨codec, rand, next, simulator, -, hnext, -⟩ |
    ⟨atNs, rIPAddress, rport, packet, -, h⟩ | ⟨atNs, -, rfl⟩ | ⟨atNs, rfl, -⟩ | ⟨atNs, -, rfl⟩
  · rw [hs.rests.runNext] at hnext
    cases hnext
  · obtain ⟨n, header, left, controller, ok, -, -, rfl⟩ := ccfsRecvPacket_ok h
    exact ⟨⟨hs.rests.enqueue, hs.rests.send, hs.rests.overSleep⟩, hs.socket, hs.buffer⟩
  · have hrest := (harmed.waitUntil atNs).rests
    exact ⟨⟨hrest.enqueue, hrest.send, hrest.overSleep⟩, hs.socket, rfl, rfl⟩
  · cases hquiet
  · exact ⟨(harmed.waitUntil atNs).rests, hs.socket, rfl, rfl⟩

/-- In every run the sender has the identifier of all that waits; and after a pause or a stop nothing
is due and nothing is sent, whatever happens, until it is resumed. -/
theorem ccfs_run_quiet {start s'' : CcfsSender} {events more : List (SenderEvent ℚ)} {event : SenderEvent ℚ}
    (hstart : Started start) (hrun : run (ccfsStep rounds) start events = .ok s) (hsilences : event.silences = true)
    (hstep : s.ccfsStep rounds event = .ok s') (hquiet : ∀ later ∈ more, later.resumes = false)
    (hmore : run (ccfsStep rounds) s' more = .ok s'') :
    CcfsArmed s ∧ s''.due = none ∧ s''.socket = s.socket ∧ s''.rateShapingBuf = [] := by
  have harmed := ccfsArmed_run hstart hrun
  have hend : Quiet s.socket s'' := by
    refine run_keeps (ccfsStep rounds) (fun mid event next hevent hmid hnext => ?_) hquiet
      (harmed.quiet hsilences hstep) hmore
    exact hmid.step hevent hnext
  refine ⟨harmed, ?_, hend.socket, hend.buffer.1⟩
  rw [due, hend.rests.runNext]
  rfl

end Steps

/-- A sender with the CCFS controller, which starts with the last number. -/
def ccfsSender (nowNs : ℕ) : Checked CcfsSender :=
  (setup ⟨1, 1, true⟩ CcfsController.constructed.reset 10 5 150000 150000 1500000 nowNs).startApplication 7 65535 1

theorem started_ccfsSender {nowNs : ℕ} {start : CcfsSender} (h : ccfsSender nowNs = .ok start) : Started start :=
  ⟨_, _, _, _, _, _, _, _, _, _, _, h⟩

/-- Two frames of one byte and a larger one make a packet, and one more is in the buffer at the pause. -/
def smallFrames : List (SenderEvent ℚ) :=
  [.runNext ⟨1, 1 / 1000, true⟩ 0, .runNext ⟨1, 1 / 1000, true⟩ 0, .runNext ⟨1000, 1 / 100, true⟩ 0,
    .runNext ⟨1, 1 / 1000, true⟩ 0]

theorem ccfs_run_quiet_smallFrames :
    ∃ start s s' s'', ccfsSender 2000000 = .ok start ∧ run (ccfsStep 1) start smallFrames = .ok s ∧
      s.ccfsStep 1 (.pauseResume 14500000 true) = .ok s' ∧ run (ccfsStep 1) s' [.stopApplication 20000000] = .ok s'' ∧
      s.rateShapingBuf = [1] ∧ CcfsArmed s ∧ s''.due = none ∧ s''.socket = s.socket ∧ s''.rateShapingBuf = [] := by
  have hfacts : (ccfsSender 2000000 >>= fun start => run (ccfsStep 1) start smallFrames >>= fun s =>
      s.ccfsStep 1 (.pauseResume 14500000 true) >>= fun s' => run (ccfsStep 1) s' [.stopApplication 20000000] >>=
        fun _ => .ok (decide (s.rateShapingBuf = [1]))) = .ok true := by
    decide +kernel
  obtain ⟨start, hstart, hfacts⟩ := bind_eq_ok.mp hfacts
  obtain ⟨s, hrun, hfacts⟩ := bind_eq_ok.mp hfacts
  obtain ⟨s', hstep, hfacts⟩ := bind_eq_ok.mp hfacts
  obtain ⟨s'', hmore, hfacts⟩ := bind_eq_ok.mp hfacts
  have hone := of_decide_eq_true (Except.ok.inj hfacts)
  exact ⟨start, s, s', s'', hstart, hrun, hstep, hmore, hone,
    ccfs_run_quiet (started_ccfsSender hstart) hrun rfl hstep (by simp [SenderEvent.resumes]) hmore⟩

end RmcatSender

end Ns3Rmcat.Sender
