import Ns3Rmcat.Flow.InFlight
import Ns3Rmcat.Flow.Rmcat
import Ns3Rmcat.Sender.RmcatCoalescing

/-! One CCFS flow as the applications run it: the sender with its codec and its events, the receiver
on the same clock, and the octets that go from one to the other. What the controller and the reports
see of it is a run of the flow that only has these. -/
namespace Ns3Rmcat.Flow
open Lib Header Controller Receiver Sender

/-- What happens in a flow. A packet that arrives is given by how many the socket was given before it. -/
inductive CcfsEvent where
  | sender (event : SenderEvent ℚ)
  | arrive (atNs : ℕ) (index : ℕ)
  | fbTimer (atNs : ℕ)
  | deliver (atNs : ℕ)
  deriving DecidableEq

structure CcfsSystem where
  srcIp : UInt32
  srcPort : UInt16
  sender : CcfsSender
  receiving : Reporting
  /-- The packets that were given to the socket and have not arrived. -/
  underway : List ℕ
  /-- How many of the reports have been delivered. -/
  delivered : ℕ

def FlowEvent.atUs : FlowEvent → UInt64
  | .processSendPacket2 localTimestampUs _ => localTimestampUs
  | .recvPacket atUs _ => atUs
  | .fbTimer atUs => atUs
  | .processFeedback2 nowUs => nowUs

namespace CcfsSystem

/-- The sender has been started, and the receiver waits for the first packet. -/
def start (srcIp : UInt32) (srcPort : UInt16) (sender : CcfsSender) (ssrc : UInt32) : CcfsSystem where
  srcIp := srcIp
  srcPort := srcPort
  sender := sender
  receiving := .start ssrc
  underway := List.range sender.socket.length
  delivered := 0

def step (rounds : ℕ) (s : CcfsSystem) : CcfsEvent → Checked CcfsSystem
  | .sender event => do
    let sender ← s.sender.ccfsStep rounds event
    let sent := sender.socket.length - s.sender.socket.length
    return { s with sender, underway := s.underway ++ List.range' s.sender.socket.length sent }
  | .arrive atNs index =>
    match s.sender.socket[index]? with
    | none => .error .emptyQueue
    | some packet => do
      let header ← RmcatFlow.received packet
      let sender := s.sender.waitUntil atNs
      let receiving ← s.receiving.step (.recvPacket sender.nowUs
        { srcIp := s.srcIp, srcPort := s.srcPort, ssrc := header.ssrc, sequence := header.sequence })
      return { s with sender, receiving, underway := s.underway.erase index }
  | .fbTimer atNs => do
    let sender := s.sender.waitUntil atNs
    let receiving ← s.receiving.step (.fbTimer sender.nowUs)
    return { s with sender, receiving }
  | .deliver atNs =>
    match s.receiving.reports[s.delivered]? with
    | none => .error .emptyQueue
    | some report => do
      let sender ← s.sender.ccfsStep rounds (.recvPacket atNs s.sender.destIP s.sender.destPort report)
      return { s with sender, delivered := s.delivered + 1 }

/-- Reports come from the receiver only; any packet on its way may arrive next, once, and not at the
beginning of time; and the receiver keeps to its timer. -/
def Possible (s : CcfsSystem) : CcfsEvent → Prop
  | .sender event => event.isRecvPacket = false
  | .arrive atNs index => index ∈ s.underway ∧ 0 < (s.sender.waitUntil atNs).nowUs ∧
    ∀ due ∈ s.receiving.receiver.fbEvent, (s.sender.waitUntil atNs).nowUs ≤ due
  | .fbTimer atNs => s.receiving.receiver.fbEvent = some (s.sender.waitUntil atNs).nowUs
  | .deliver _ => True

instance (s : CcfsSystem) : (event : CcfsEvent) → Decidable (s.Possible event)
  | .sender event => inferInstanceAs (Decidable (event.isRecvPacket = false))
  | .arrive atNs index =>
    decidable_of_iff (index ∈ s.underway ∧ 0 < (s.sender.waitUntil atNs).nowUs ∧
      s.receiving.receiver.fbEvent.all ((s.sender.waitUntil atNs).nowUs ≤ ·) = true) (by
        cases h : s.receiving.receiver.fbEvent <;> simp [Possible, h])
  | .fbTimer atNs => inferInstanceAs (Decidable (s.receiving.receiver.fbEvent = some (s.sender.waitUntil atNs).nowUs))
  | .deliver _ => .isTrue trivial

/-- The packets of a flow as the receiver sees them. -/
def first (s : CcfsSystem) : RtpPacket where
  srcIp := s.srcIp
  srcPort := s.srcPort
  ssrc := s.sender.ssrc
  sequence := s.sender.sequence

/-- What the controller and the reports see of a state. -/
def abstraction (s : CcfsSystem) : CcfsFlow where
  sender := s.sender.controller
  sent := s.sender.socket.length
  underway := s.underway
  receiving := s.receiving
  delivered := s.delivered

/-- What they see of an event: of those that run at the sender, a frame of more than one byte. -/
def flowEvents (s : CcfsSystem) : CcfsEvent → List FlowEvent
  | .sender (.runNext codec _) => s.sender.simulator.runNext.toList.flatMap fun next =>
    if codec.size = 1 then [] else
      [.processSendPacket2 { s.sender with simulator := next.2 }.nowUs (s.sender.rateShapingBytes + codec.size.toUInt32)]
  | .sender _ => []
  | .arrive atNs index => [.recvPacket (s.sender.waitUntil atNs).nowUs index]
  | .fbTimer atNs => [.fbTimer (s.sender.waitUntil atNs).nowUs]
  | .deliver atNs => [.processFeedback2 (s.sender.waitUntil atNs).nowUs]

/-- What holds of a flow after any events: the packets on the socket have the numbers of the flow,
and nothing has happened after the clock. -/
structure Sound (first : RtpPacket) (stream : RmcatSender.Stream) (s : CcfsSystem) : Prop where
  armed : RmcatSender.CcfsArmed s.sender
  same : s.sender.stream = stream
  address : s.srcIp = first.srcIp ∧ s.srcPort = first.srcPort ∧ stream.ssrc = first.ssrc
  sequence : s.sender.sequence = first.sequence + UInt16.ofNat s.sender.socket.length
  packets : ∀ (index : ℕ) (packet : MediaPacket), s.sender.socket[index]? = some packet →
    ∃ p : PacketRecord, packet = stream.mediaPacket p ∧ p.sequence = first.sequence + UInt16.ofNat index
  clock : s.receiving.nowUs.toNat ≤ s.sender.clockUs

section Steps
variable {rounds : ℕ} {first : RtpPacket} {stream : RmcatSender.Stream} {s s' : CcfsSystem}

/-- The flow whose steps are those that are possible. -/
abbrev flowStep (rounds : ℕ) (first : RtpPacket) : CcfsFlow → FlowEvent → Checked CcfsFlow :=
  guarded (CcfsFlow.step rounds first) (CcfsFlow.Possible first)

private theorem run_flowStep_one {t t' : CcfsFlow} {event : FlowEvent} (hpossible : t.Possible first event)
    (hstep : t.step rounds first event = .ok t') : run (flowStep rounds first) t [event] = .ok t' :=
  bind_eq_ok.mpr ⟨t', check_bind_eq_ok.mpr ⟨hpossible, hstep⟩, rfl⟩

private theorem Sound.waitUntil (h : Sound first stream s) (atNs : ℕ) {receiving : Reporting} {underway : List ℕ}
    (hnow : receiving.nowUs.toNat ≤ (s.sender.waitUntil atNs).clockUs) :
    Sound first stream { s with sender := s.sender.waitUntil atNs, receiving, underway } where
  armed := h.armed.waitUntil atNs
  same := h.same
  address := h.address
  sequence := h.sequence
  packets := h.packets
  clock := hnow

private theorem Sound.notLate (h : Sound first stream s) {atNs : ℕ}
    (hclock : (s.sender.waitUntil atNs).clockUs < 2 ^ 62) :
    s.receiving.nowUs ≤ (s.sender.waitUntil atNs).nowUs := by
  have hlater : s.sender.clockUs ≤ (s.sender.waitUntil atNs).clockUs :=
    Nat.div_le_div_right (s.sender.simulator.nowNs_le_waitUntil atNs)
  rw [UInt64.le_iff_toNat_le, RmcatSender.toNat_nowUs hclock]
  exact h.clock.trans hlater

private theorem Sound.arrive (h : Sound first stream s) {atNs index : ℕ} (hpossible : s.Possible (.arrive atNs index))
    (hclock : s'.sender.clockUs < 2 ^ 62) (hstep : s.step rounds (.arrive atNs index) = .ok s') :
    Sound first stream s' ∧ run (flowStep rounds first) s.abstraction (s.flowEvents (.arrive atNs index)) =
      .ok s'.abstraction := by
  rw [step] at hstep
  split at hstep
  · cases hstep
  · rename_i packet hpacket
    obtain ⟨p, rfl, hsequence⟩ := h.packets index packet hpacket
    rw [RmcatFlow.received_mediaPacket, ok_bind] at hstep
    obtain ⟨receiving, hreceiving, he⟩ := bind_eq_ok.mp hstep
    cases he
    have hseen : (⟨s.srcIp, s.srcPort, (stream.mediaPacket p).header.ssrc,
        (stream.mediaPacket p).header.sequence⟩ : RtpPacket) = packetAt first index := by
      obtain ⟨hip, hport, hssrc⟩ := h.address
      rw [hip, hport]
      simp only [RmcatSender.Stream.mediaPacket, hsequence, hssrc]
      rfl
    rw [hseen] at hreceiving
    obtain ⟨receiver, hrecv, he⟩ := bind_eq_ok.mp hreceiving
    cases he
    obtain ⟨hunderway, hpositive, hdue⟩ := hpossible
    refine ⟨h.waitUntil atNs (RmcatSender.toNat_nowUs hclock).le, ?_⟩
    refine run_flowStep_one ⟨hunderway, h.notLate hclock, hpositive, hdue⟩ ?_
    exact bind_eq_ok.mpr ⟨_, hreceiving, rfl⟩

private theorem Sound.fbTimer (h : Sound first stream s) {atNs : ℕ} (hpossible : s.Possible (.fbTimer atNs))
    (hclock : s'.sender.clockUs < 2 ^ 62) (hstep : s.step rounds (.fbTimer atNs) = .ok s') :
    Sound first stream s' ∧ run (flowStep rounds first) s.abstraction (s.flowEvents (.fbTimer atNs)) =
      .ok s'.abstraction := by
  obtain ⟨receiving, hreceiving, he⟩ := bind_eq_ok.mp hstep
  cases he
  obtain ⟨⟨receiver, report⟩, hhandler, he⟩ := bind_eq_ok.mp hreceiving
  cases he
  refine ⟨h.waitUntil atNs (RmcatSender.toNat_nowUs hclock).le, ?_⟩
  refine run_flowStep_one ⟨h.notLate hclock, hpossible⟩ ?_
  exact bind_eq_ok.mpr ⟨_, hreceiving, rfl⟩

private theorem Sound.deliver (h : Sound first stream s) {atNs : ℕ} (hstep : s.step rounds (.deliver atNs) = .ok s') :
    Sound first stream s' ∧ run (flowStep rounds first) s.abstraction (s.flowEvents (.deliver atNs)) =
      .ok s'.abstraction := by
  rw [step] at hstep
  split at hstep
  · cases hstep
  · rename_i report hreport
    obtain ⟨sender, hsender, he⟩ := bind_eq_ok.mp hstep
    cases he
    obtain ⟨n, header, left, controller, ok, hread, hfeedback, rfl⟩ := RmcatSender.ccfsRecvPacket_ok hsender
    have hnext : s.abstraction.nextFeedback = .ok header := by
      have hsame : s.abstraction.receiving.reports[s.abstraction.delivered]? = some report := hreport
      rw [CcfsFlow.nextFeedback, hsame]
      exact bind_eq_ok.mpr ⟨_, hread, rfl⟩
    have hlater : s.sender.clockUs ≤ (s.sender.waitUntil atNs).clockUs :=
      Nat.div_le_div_right (s.sender.simulator.nowNs_le_waitUntil atNs)
    refine ⟨?_, ?_⟩
    · have hwait : Sound first stream { s with sender := s.sender.waitUntil atNs } :=
        h.waitUntil atNs (h.clock.trans hlater)
      exact ⟨⟨hwait.armed.enqueue, hwait.armed.resting, hwait.armed.send, hwait.armed.overSleep⟩, hwait.same,
        hwait.address, hwait.sequence, hwait.packets, hwait.clock⟩
    · refine run_flowStep_one ⟨header, hnext⟩ ?_
      refine bind_eq_ok.mpr ⟨header, hnext, ?_⟩
      exact bind_eq_ok.mpr ⟨_, hfeedback, rfl⟩

private theorem Sound.silent (h : Sound first stream s) {sender : CcfsSender} (harmed : RmcatSender.CcfsArmed sender)
    (hclock : s.sender.clockUs ≤ sender.clockUs) (hstream : sender.stream = s.sender.stream)
    (hsequence : sender.sequence = s.sender.sequence) (hsocket : sender.socket = s.sender.socket)
    (hcontroller : sender.controller = s.sender.controller) :
    let s' : CcfsSystem := { s with
      sender
      underway := s.underway ++ List.range' s.sender.socket.length (sender.socket.length - s.sender.socket.length) }
    Sound first stream s' ∧ s'.abstraction = s.abstraction := by
  refine ⟨⟨harmed, hstream.trans h.same, h.address, ?_, ?_, h.clock.trans hclock⟩, ?_⟩
  · rw [hsequence, hsocket]
    exact h.sequence
  · rw [hsocket]
    exact h.packets
  · rw [abstraction, abstraction, hsocket, hcontroller, Nat.sub_self, List.range'_zero, List.append_nil]

/-- A larger frame makes a packet with what waits, and the controller is told of it. -/
theorem sent_ok {sender sender' : CcfsSender} {simulator : Scheduler Handler} {codec : Codec ℚ} {delayNs : ℕ}
    {bytesToSend : UInt32}
    (hsend : ({ sender with simulator }.withPacket codec delayNs).ccfsSendOverSleep bytesToSend = .ok sender') :
    ∃ ok : Bool, sender.controller.processSendPacket2 sender.ssrc
        { sender with simulator : CcfsSender }.nowUs sender.sequence
        (sender.rateShapingBytes + codec.size.toUInt32) = .ok (ok, sender'.controller) ∧
      sender'.stream = sender.stream ∧ sender'.sequence = sender.sequence + 1 ∧
      sender'.socket = sender.socket ++ [sender.stream.mediaPacket ⟨sender.sequence,
        { sender with simulator : CcfsSender }.nowUs, sender.rateShapingBytes + codec.size.toUInt32, 0, 0⟩] ∧
      sender'.simulator.nowNs = simulator.nowNs := by
  obtain ⟨controller, ok, hcontroller, rfl⟩ := RmcatSender.ccfsSendOverSleep_ok hsend
  exact ⟨ok, hcontroller, rfl, rfl, rfl, rfl⟩

private theorem Sound.send (h : Sound first stream s) {simulator : Scheduler Handler} {codec : Codec ℚ} {delayNs : ℕ}
    {bytesToSend : UInt32} {sender : CcfsSender} (harmed : RmcatSender.CcfsArmed sender)
    (hclock : s.sender.simulator.nowNs / 1000 ≤ simulator.nowNs / 1000)
    (hsend : ({ s.sender with simulator }.withPacket codec delayNs).ccfsSendOverSleep bytesToSend = .ok sender) :
    let s' : CcfsSystem := { s with
      sender
      underway := s.underway ++ List.range' s.sender.socket.length (sender.socket.length - s.sender.socket.length) }
    Sound first stream s' ∧ run (flowStep rounds first) s.abstraction
      [.processSendPacket2 { s.sender with simulator }.nowUs (s.sender.rateShapingBytes + codec.size.toUInt32)] =
        .ok s'.abstraction := by
  obtain ⟨ok, hcontroller, hstream, hsequence, hsocket, hnow⟩ := sent_ok hsend
  have hssrc : s.sender.ssrc = first.ssrc := (congrArg RmcatSender.Stream.ssrc h.same).trans h.address.2.2
  have hnumber : s.sender.sequence = (packetAt first s.sender.socket.length).sequence := h.sequence
  have hlength : sender.socket.length = s.sender.socket.length + 1 := by
    rw [hsocket]
    exact List.length_append
  refine ⟨⟨harmed, hstream.trans h.same, h.address, ?_, ?_, ?_⟩, ?_⟩
  · rw [hlength, hsequence, UInt16.ofNat_add, ← UInt16.add_assoc, ← h.sequence]
    rfl
  · intro index found hfound
    rw [hsocket] at hfound
    rcases RmcatSender.getElem?_snoc hfound with hold | ⟨hindex, rfl⟩
    · exact h.packets index found hold
    · refine ⟨_, congrArg (RmcatSender.Stream.mediaPacket · _) h.same, ?_⟩
      rw [hindex]
      exact h.sequence
  · refine h.clock.trans ?_
    rw [RmcatSender.clockUs, RmcatSender.clockUs, hnow]
    exact hclock
  · refine run_flowStep_one trivial ?_
    refine bind_eq_ok.mpr ⟨(ok, sender.controller), ?_, ?_⟩
    · rw [hssrc, hnumber] at hcontroller
      exact hcontroller
    · rw [abstraction, abstraction, hlength, Nat.add_sub_cancel_left]
      rfl

theorem flowEvents_runNext {next : Scheduled Handler} {simulator : Scheduler Handler}
    (hnext : s.sender.simulator.runNext = some (next, simulator)) (codec : Codec ℚ) (rand : UInt64) :
    s.flowEvents (.sender (.runNext codec rand)) = if codec.size = 1 then [] else
      [.processSendPacket2 { s.sender with simulator }.nowUs (s.sender.rateShapingBytes + codec.size.toUInt32)] := by
  rw [flowEvents, hnext, Option.toList_some, List.flatMap_singleton]

private theorem Sound.sender (h : Sound first stream s) {event : SenderEvent ℚ} (hpossible : s.Possible (.sender event))
    (hstep : s.step rounds (.sender event) = .ok s') :
    Sound first stream s' ∧ run (flowStep rounds first) s.abstraction (s.flowEvents (.sender event)) =
      .ok s'.abstraction := by
  obtain ⟨sender, hsender, he⟩ := bind_eq_ok.mp hstep
  cases he
  have harmed := h.armed.step hsender
  have hwait (atNs : ℕ) : s.sender.clockUs ≤ (s.sender.waitUntil atNs).clockUs :=
    Nat.div_le_div_right (s.sender.simulator.nowNs_le_waitUntil atNs)
  have hquiet {s' : CcfsSystem} (hsame : Sound first stream s' ∧ s'.abstraction = s.abstraction) :
      Sound first stream s' ∧ run (flowStep rounds first) s.abstraction [] = .ok s'.abstraction :=
    ⟨hsame.1, congrArg Except.ok hsame.2.symm⟩
  rcases h.armed.step_cases hsender with ⟨codec, rand, next, simulator, rfl, hnext, -, henqueue⟩ |
    ⟨atNs, rIPAddress, rport, packet, rfl, -⟩ | ⟨atNs, rfl, rfl⟩ | ⟨atNs, rfl, -, rfl⟩ | ⟨atNs, rfl, rfl⟩
  · have hclock : s.sender.simulator.nowNs / 1000 ≤ simulator.nowNs / 1000 :=
      Nat.div_le_div_right (Scheduler.nowNs_le_runNext hnext)
    rw [flowEvents_runNext hnext codec rand]
    obtain ⟨-, -, ⟨hone, rfl⟩ | ⟨hmore, hsend⟩⟩ := RmcatSender.ccfsEnqueuePacket_cases henqueue
    · rw [if_pos hone]
      exact hquiet (h.silent harmed hclock rfl rfl rfl rfl)
    · rw [if_neg hmore]
      exact h.send harmed hclock hsend
  · cases hpossible
  · exact hquiet (h.silent harmed (hwait atNs) rfl rfl rfl rfl)
  · exact hquiet (h.silent harmed (hwait atNs) rfl rfl rfl rfl)
  · exact hquiet (h.silent harmed (hwait atNs) rfl rfl rfl rfl)

/-- What an event that is none of the sender's own does to it: the clock goes on, and the socket is given nothing. -/
theorem sender_of_step {event : CcfsEvent} {atNs : ℕ} (hstep : s.step rounds event = .ok s')
    (hevent : event = .fbTimer atNs ∨ event = .deliver atNs ∨ ∃ index, event = .arrive atNs index) :
    s'.sender.simulator.nowNs = (s.sender.waitUntil atNs).simulator.nowNs ∧ s'.sender.socket = s.sender.socket := by
  rcases hevent with rfl | rfl | ⟨index, rfl⟩
  · obtain ⟨receiving, -, he⟩ := bind_eq_ok.mp hstep
    cases he
    exact ⟨rfl, rfl⟩
  · rw [step] at hstep
    split at hstep
    · cases hstep
    · obtain ⟨sender, hsender, he⟩ := bind_eq_ok.mp hstep
      cases he
      obtain ⟨n, header, left, controller, ok, -, -, rfl⟩ := RmcatSender.ccfsRecvPacket_ok hsender
      exact ⟨rfl, rfl⟩
  · rw [step] at hstep
    split at hstep
    · cases hstep
    · obtain ⟨header, -, hstep⟩ := bind_eq_ok.mp hstep
      obtain ⟨receiving, -, he⟩ := bind_eq_ok.mp hstep
      cases he
      exact ⟨rfl, rfl⟩

private theorem nowNs_le_step {event : CcfsEvent} (hstep : s.step rounds event = .ok s') :
    s.sender.simulator.nowNs ≤ s'.sender.simulator.nowNs := by
  cases event with
  | sender event =>
    obtain ⟨sender, hsender, he⟩ := bind_eq_ok.mp hstep
    cases he
    exact RmcatSender.nowNs_le_ccfsStep hsender
  | arrive atNs index =>
    rw [(sender_of_step hstep (.inr (.inr ⟨index, rfl⟩))).1]
    exact s.sender.simulator.nowNs_le_waitUntil atNs
  | fbTimer atNs =>
    rw [(sender_of_step hstep (.inl rfl)).1]
    exact s.sender.simulator.nowNs_le_waitUntil atNs
  | deliver atNs =>
    rw [(sender_of_step hstep (.inr (.inl rfl))).1]
    exact s.sender.simulator.nowNs_le_waitUntil atNs

/-- What the flow sees of an event is one event at most, at the time of that event. -/
theorem flowEvents_atUs {event : CcfsEvent} (hclock : s'.sender.clockUs < 2 ^ 62) (hstep : s.step rounds event = .ok s') :
    (s.flowEvents event).length ≤ 1 ∧ ∀ e ∈ s.flowEvents event, e.atUs.toNat = s'.sender.clockUs := by
  have hnow {sender : CcfsSender} (hsame : s'.sender.simulator.nowNs = sender.simulator.nowNs) :
      sender.nowUs.toNat = s'.sender.clockUs := by
    have hclockUs : s'.sender.clockUs = sender.clockUs := congrArg (· / 1000) hsame
    rw [hclockUs] at hclock ⊢
    exact RmcatSender.toNat_nowUs hclock
  have hone {e : FlowEvent} (he : e.atUs.toNat = s'.sender.clockUs) :
      [e].length ≤ 1 ∧ ∀ f ∈ [e], f.atUs.toNat = s'.sender.clockUs :=
    ⟨Nat.le_refl 1, fun f hf => List.mem_singleton.mp hf ▸ he⟩
  have hnone : ([] : List FlowEvent).length ≤ 1 ∧ ∀ f ∈ ([] : List FlowEvent), f.atUs.toNat = s'.sender.clockUs :=
    ⟨Nat.zero_le 1, by simp⟩
  cases event with
  | sender event =>
    obtain ⟨sender, hsender, he⟩ := bind_eq_ok.mp hstep
    cases he
    cases event with
    | runNext codec rand =>
      rw [RmcatSender.ccfsStep] at hsender
      split at hsender
      · cases hsender
      · rename_i next simulator hnext
        rw [flowEvents, hnext, Option.toList_some, List.flatMap_singleton]
        split
        · exact hnone
        · exact hone (hnow (RmcatSender.ccfsHandle_nowNs hsender))
    | recvPacket atNs rIPAddress rport packet => exact hnone
    | pauseResume atNs pause => exact hnone
    | stopApplication atNs => exact hnone
  | arrive atNs index => exact hone (hnow (sender_of_step hstep (.inr (.inr ⟨index, rfl⟩))).1)
  | fbTimer atNs => exact hone (hnow (sender_of_step hstep (.inl rfl)).1)
  | deliver atNs => exact hone (hnow (sender_of_step hstep (.inr (.inl rfl))).1)

private theorem Sound.step (h : Sound first stream s) {event : CcfsEvent} (hpossible : s.Possible event)
    (hclock : s'.sender.clockUs < 2 ^ 62) (hstep : s.step rounds event = .ok s') :
    Sound first stream s' ∧ run (flowStep rounds first) s.abstraction (s.flowEvents event) = .ok s'.abstraction := by
  cases event with
  | sender event => exact h.sender hpossible hstep
  | arrive atNs index => exact h.arrive hpossible hclock hstep
  | fbTimer atNs => exact h.fbTimer hpossible hclock hstep
  | deliver atNs => exact h.deliver hstep

private theorem clockUs_back {event : CcfsEvent} (hstep : s.step rounds event = .ok s')
    (hclock : s'.sender.clockUs < 2 ^ 62) :
    s.sender.clockUs < 2 ^ 62 :=
  (Nat.div_le_div_right (nowNs_le_step hstep)).trans_lt hclock

end Steps

/-- The flow that the controller and the reports see of some events. -/
def flow (rounds : ℕ) (start : CcfsSystem) (events : List CcfsEvent) : List FlowEvent :=
  observed (step rounds) flowEvents start events

/-- A run of the system up to a state: the sender has been started, and the events are possible. -/
structure Course (rounds : ℕ) (start : CcfsSystem) (events : List CcfsEvent) (s : CcfsSystem) : Prop where
  started : ∃ srcIp srcPort sender ssrc, start = .start srcIp srcPort sender ssrc ∧ RmcatSender.Started sender
  run : run (step rounds) start events = .ok s
  possible : Along (step rounds) Possible start events
  clock : s.sender.clockUs < 2 ^ 62

section Runs
variable {rounds : ℕ} {start s : CcfsSystem} {events : List CcfsEvent}

private theorem sound_start (hstart : ∃ srcIp srcPort sender ssrc, start = .start srcIp srcPort sender ssrc ∧
    RmcatSender.Started sender) : Sound start.first start.sender.stream start := by
  obtain ⟨srcIp, srcPort, sender, ssrc, rfl, hstart⟩ := hstart
  constructor
  · exact RmcatSender.ccfsArmed_started hstart
  · rfl
  · exact ⟨rfl, rfl, rfl⟩
  · rw [CcfsSystem.start, hstart.socket]
    exact (UInt16.add_zero _).symm
  · rw [CcfsSystem.start, hstart.socket]
    simp
  · exact Nat.zero_le _

private theorem pairwise_flow (hclock : s.sender.clockUs < 2 ^ 62) (hrun : Lib.run (step rounds) start events = .ok s) :
    ((flow rounds start events).Pairwise fun e f => e.atUs ≤ f.atUs) ∧
      ∀ e ∈ flow rounds start events, e.atUs.toNat ≤ s.sender.clockUs := by
  induction events using List.reverseRecOn generalizing s with
  | nil => exact ⟨List.Pairwise.nil, by simp [flow, observed]⟩
  | append_singleton events event ih =>
    obtain ⟨mid, hmid, hstep⟩ := (run_snoc _).mp hrun
    obtain ⟨hpairwise, hpast⟩ := ih (clockUs_back hstep hclock) hmid
    obtain ⟨hfew, hnow⟩ := flowEvents_atUs hclock hstep
    have hlater : mid.sender.clockUs ≤ s.sender.clockUs := Nat.div_le_div_right (nowNs_le_step hstep)
    rw [flow, observed_snoc (step rounds) flowEvents hmid, ← flow]
    refine ⟨List.pairwise_append.mpr ⟨hpairwise, ?_, fun e he f hf => ?_⟩, fun e he => ?_⟩
    · cases hevents : mid.flowEvents event with
      | nil => exact List.Pairwise.nil
      | cons e rest =>
        rw [hevents, List.length_cons] at hfew
        rw [List.length_eq_zero_iff.mp (Nat.le_zero.mp (Nat.le_of_succ_le_succ hfew))]
        exact List.pairwise_singleton _ _
    · rw [UInt64.le_iff_toNat_le, hnow f hf]
      exact (hpast e he).trans hlater
    · rcases List.mem_append.mp he with hold | hnew
      · exact (hpast e hold).trans hlater
      · exact (hnow e hnew).le

/-- The flow follows the system. -/
theorem Course.simulates (h : Course rounds start events s) : Sound start.first start.sender.stream s ∧
    Lib.run (flowStep rounds start.first) start.abstraction (flow rounds start events) = .ok s.abstraction :=
  run_simulates (fun _ _ _ => clockUs_back) (fun _ _ _ hp hs hq hstep => Sound.step hs hp hq hstep)
    (sound_start h.started) h.possible h.clock h.run

theorem Course.flow_run (h : Course rounds start events s) :
    Lib.run (flowStep rounds start.first) start.abstraction (flow rounds start events) = .ok s.abstraction :=
  h.simulates.2

/-- The last event of a run. -/
theorem Course.last {event : CcfsEvent} (h : Course rounds start (events ++ [event]) s) :
    ∃ mid, Course rounds start events mid ∧ mid.Possible event ∧ mid.step rounds event = .ok s := by
  obtain ⟨mid, hmid, hstep⟩ := (run_snoc _).mp h.run
  exact ⟨mid, ⟨h.started, hmid, h.possible.init, clockUs_back hstep h.clock⟩, h.possible.last hmid, hstep⟩

/-- What the controller and the reports see of a run of the system is a run of the flow, in which
everything is possible and no time is before an earlier one. -/
theorem run_refines (h : Course rounds start events s) :
    Lib.run (CcfsFlow.step rounds start.first) start.abstraction (flow rounds start events) = .ok s.abstraction ∧
      Along (CcfsFlow.step rounds start.first) (CcfsFlow.Possible start.first) start.abstraction
        (flow rounds start events) ∧
      (flow rounds start events).Pairwise fun e f => e.atUs ≤ f.atUs := by
  obtain ⟨hrefines, halong⟩ := run_guarded.mp h.flow_run
  exact ⟨hrefines, halong, (pairwise_flow h.clock h.run).1⟩

end Runs

/-- A frame of one byte waits for the first of two larger ones; their packets arrive in the other
order, and the report of them is delivered. -/
def overtakingPair : List CcfsEvent :=
  [.sender (.runNext ⟨1, 1 / 1000, true⟩ 0), .sender (.runNext ⟨1000, 1 / 100, true⟩ 0),
    .sender (.runNext ⟨1000, 1, true⟩ 0), .arrive 20000000 1, .arrive 21000000 0, .fbTimer 120000000,
    .deliver 130000000, .sender (.pauseResume 140000000 true)]

theorem course_overtakingPair : ∃ start s, Course 1 start overtakingPair s ∧
    start.sender.controller.inflightPktCount = 0 ∧ s.delivered = 1 ∧ start.first = ⟨10, 5, 7, 65535⟩ ∧
    flow 1 start overtakingPair = [.processSendPacket2 3000 1001, .processSendPacket2 13000 1000, .recvPacket 20000 1,
      .recvPacket 21000 0, .fbTimer 120000, .processFeedback2 130000] := by
  have hfacts : (RmcatSender.ccfsSender 2000000 >>= fun sender =>
      run (guarded (step 1) Possible) (start 10 5 sender 9) overtakingPair >>= fun s =>
      .ok (decide (s.sender.clockUs < 2 ^ 62 ∧ sender.controller.inflightPktCount = 0 ∧ s.delivered = 1 ∧
        (start 10 5 sender 9).first = ⟨10, 5, 7, 65535⟩ ∧ flow 1 (start 10 5 sender 9) overtakingPair =
          [.processSendPacket2 3000 1001, .processSendPacket2 13000 1000, .recvPacket 20000 1, .recvPacket 21000 0,
            .fbTimer 120000, .processFeedback2 130000]))) = .ok true := by
    decide +kernel
  obtain ⟨sender, hsender, hfacts⟩ := bind_eq_ok.mp hfacts
  obtain ⟨s, hrun, hfacts⟩ := bind_eq_ok.mp hfacts
  obtain ⟨hclock, hnone, hone, hfirst, hflow⟩ := of_decide_eq_true (Except.ok.inj hfacts)
  obtain ⟨hrun, halong⟩ := run_guarded.mp hrun
  have hstarted := RmcatSender.started_ccfsSender hsender
  exact ⟨_, s, ⟨⟨10, 5, sender, 9, rfl, hstarted⟩, hrun, halong, hclock⟩, hnone, hone, hfirst, hflow⟩

theorem run_refines_overtakingPair : ∃ start s : CcfsSystem,
    flow 1 start overtakingPair ≠ [] ∧
      Lib.run (CcfsFlow.step 1 start.first) start.abstraction (flow 1 start overtakingPair) = .ok s.abstraction ∧
      Along (CcfsFlow.step 1 start.first) (CcfsFlow.Possible start.first) start.abstraction
        (flow 1 start overtakingPair) ∧
      (flow 1 start overtakingPair).Pairwise fun e f => e.atUs ≤ f.atUs := by
  obtain ⟨start, s, hcourse, -, -, -, hflow⟩ := course_overtakingPair
  have hsome : flow 1 start overtakingPair ≠ [] := by
    rw [hflow]
    exact List.cons_ne_nil _ _
  exact ⟨start, s, hsome, run_refines hcourse⟩

end CcfsSystem

end Ns3Rmcat.Flow
