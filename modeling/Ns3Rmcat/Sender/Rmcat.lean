import Ns3Rmcat.Controller.NadaApi
import Ns3Rmcat.Controller.Dummy
import Ns3Rmcat.Header.CCFeedback
import Ns3Rmcat.Header.Rtp
import Ns3Rmcat.Lib.Scheduler

/-! The sender with its rate shaping buffer: packets of the codec are put into the buffer, taken
out of it at the send rate, and given to the socket a little later, each step by an event that the
simulator runs. The controller is any but the CCFS one. Rates are elements of an ordered field. -/
namespace Ns3Rmcat.Sender
open Lib Header Controller

def defaultPacketSize : UInt32 := 1000

def useBuffer : Bool := true

/-- Largest number of bytes that the buffer is expected to hold. -/
def maxQueueSizeSanity : UInt32 := 80 * 1000 * 1000

/-- The functions of a controller that the sender calls. -/
structure ControllerApi (C K : Type) where
  processSendPacket : C → UInt64 → UInt16 → UInt32 → Checked (Bool × C)
  processFeedbackBatch : C → UInt64 → List FeedbackItem → Checked (Bool × C)
  getBandwidth : C → UInt64 → K

/-- The controller of a sender that is given none. -/
def dummyApi {K : Type} [Field K] : ControllerApi (DummyController K) K where
  processSendPacket := DummyController.processSendPacket
  processFeedbackBatch s nowUs feedbackBatch :=
    Controller.processFeedbackBatch DummyController.processFeedback nowUs s feedbackBatch
  getBandwidth := DummyController.getBandwidth

def nadaApi {K : Type} [Field K] [LinearOrder K] (exp : K → K) : ControllerApi (NadaController K) K where
  processSendPacket := NadaController.processSendPacket
  processFeedbackBatch := NadaController.processFeedbackBatch exp
  getBandwidth := NadaController.getBandwidth

/-- What the codec is at: the size of a frame or packet, and the seconds until the next one. -/
structure Codec (K : Type) where
  size : UInt64
  secs : K
  valid : Bool
  deriving DecidableEq, Repr

/-- The member functions that are scheduled, with their arguments. -/
inductive Handler where
  | enqueuePacket
  | sendPacket (usSlept : UInt64)
  | sendOverSleep (bytesToSend : UInt32)
  deriving DecidableEq, Repr

def Handler.isEnqueuePacket : Handler → Bool
  | .enqueuePacket => true
  | _ => false

def Handler.isSendPacket : Handler → Bool
  | .sendPacket _ => true
  | _ => false

def Handler.isSendOverSleep : Handler → Bool
  | .sendOverSleep _ => true
  | _ => false

structure MediaPacket where
  header : RtpHeader
  size : UInt32
  destIP : UInt32
  destPort : UInt16
  deriving DecidableEq

structure RmcatSender (C K : Type) where
  codec : Codec K
  controller : C
  destIP : UInt32
  destPort : UInt16
  initBw : K
  minBw : K
  maxBw : K
  paused : Bool
  ssrc : UInt32
  sequence : UInt16
  rtpTsOffset : UInt32
  /-- What has been sent to the socket. -/
  socket : List MediaPacket
  simulator : Scheduler Handler
  enqueueEvent : Option ℕ
  sendEvent : Option ℕ
  sendOversleepEvent : Option ℕ
  rVin : K
  rSend : K
  rateShapingBuf : List UInt32
  rateShapingBytes : UInt32
  nextSendTstmpUs : UInt64

namespace RmcatSender
variable {C K : Type}

def setup [Zero K] (codec : Codec K) (controller : C) (destIP : UInt32) (destPort : UInt16) (initBw minBw maxBw : K)
    (nowNs : ℕ) : RmcatSender C K where
  codec := codec
  controller := controller
  destIP := destIP
  destPort := destPort
  initBw := initBw
  minBw := minBw
  maxBw := maxBw
  paused := false
  ssrc := 0
  sequence := 0
  rtpTsOffset := 0
  socket := []
  simulator := .idle nowNs
  enqueueEvent := none
  sendEvent := none
  sendOversleepEvent := none
  rVin := 0
  rSend := 0
  rateShapingBuf := []
  rateShapingBytes := 0
  nextSendTstmpUs := 0

def nowUs (s : RmcatSender C K) : UInt64 := UInt64.ofNat (s.simulator.nowNs / 1000)

def microSeconds (us : UInt64) : ℕ := us.toNat * 1000

/-- How long a packet has to wait that finds the buffer empty. -/
def usToNextSend (s : RmcatSender C K) : UInt64 :=
  if s.nowUs < s.nextSendTstmpUs then s.nextSendTstmpUs - s.nowUs else 0

def scheduleEnqueuePacket (s : RmcatSender C K) (delayNs : ℕ) : RmcatSender C K :=
  let (uid, simulator) := s.simulator.schedule delayNs .enqueuePacket
  { s with enqueueEvent := some uid, simulator }

def scheduleSendPacket (s : RmcatSender C K) (delayNs : ℕ) (usSlept : UInt64) : RmcatSender C K :=
  let (uid, simulator) := s.simulator.schedule delayNs (.sendPacket usSlept)
  { s with sendEvent := some uid, simulator }

def scheduleSendOverSleep (s : RmcatSender C K) (delayNs : ℕ) (bytesToSend : UInt32) : RmcatSender C K :=
  let (uid, simulator) := s.simulator.schedule delayNs (.sendOverSleep bytesToSend)
  { s with sendOversleepEvent := some uid, simulator }

/-- Nothing is due any more, as far as the sender can tell, and the buffer is empty. -/
def cancelAndClear (s : RmcatSender C K) : RmcatSender C K :=
  { s with
    simulator := ((s.simulator.cancel s.enqueueEvent).cancel s.sendEvent).cancel s.sendOversleepEvent
    rateShapingBuf := []
    rateShapingBytes := 0 }

def pauseResume (s : RmcatSender C K) (pause : Bool) : Checked (RmcatSender C K) := do
  check (pause ≠ s.paused)
  let s :=
    if pause then s.cancelAndClear
    else { { s with rVin := s.initBw, rSend := s.initBw : RmcatSender C K }.scheduleEnqueuePacket 0 with
      nextSendTstmpUs := 0 }
  return { s with paused := pause }

def stopApplication (s : RmcatSender C K) : RmcatSender C K := s.cancelAndClear

variable [Field K] [LinearOrder K] [FloorSemiring K]

def seconds (secs : K) : ℕ := ⌊secs * 1000000000⌋₊

def betaV : K := 1 / 100000
def betaS : K := 1 / 100000

/-- The numbers that the sender starts with are random ones. -/
def startApplication (s : RmcatSender C K) (ssrc : UInt32) (sequence : UInt16) (rtpTsOffset : UInt32) :
    Checked (RmcatSender C K) := do
  let s := { s with ssrc, sequence, rtpTsOffset }
  check (s.minBw ≤ s.initBw)
  check (s.initBw ≤ s.maxBw)
  let s := { s with rVin := s.initBw, rSend := s.initBw }
  let s := s.scheduleEnqueuePacket 0
  return { s with nextSendTstmpUs := 0 }

/-- The codec has gone on to its next frame or packet. -/
def enqueuePacket (s : RmcatSender C K) (codec : Codec K) : Checked (RmcatSender C K) := do
  let s := { s with codec }
  let bytesToSend := codec.size
  check (0 < bytesToSend)
  check (bytesToSend ≤ defaultPacketSize.toUInt64)
  let s := { s with
    rateShapingBuf := s.rateShapingBuf ++ [bytesToSend.toUInt32]
    rateShapingBytes := s.rateShapingBytes + bytesToSend.toUInt32 }
  let secsToNextEnqPacket := codec.secs
  let s := s.scheduleEnqueuePacket (seconds secsToNextEnqPacket)
  if !useBuffer then
    return s.scheduleSendPacket 0 (UInt64.ofNat ⌊secsToNextEnqPacket * 1000⌋₊)
  if s.rateShapingBuf.length = 1 then
    return s.scheduleSendPacket (microSeconds s.usToNextSend) s.usToNextSend
  return s

def usToNextSentPacket (s : RmcatSender C K) (bytesToSend : UInt32) : UInt64 :=
  UInt64.ofNat ⌊(bytesToSend.toNat : K) * 8 * 1000 * 1000 / s.rSend⌋₊

/-- The packet that is sent goes to the socket after a random time, up to one percent of the time
that was slept. -/
def sendPacket (s : RmcatSender C K) (usSlept rand : UInt64) : Checked (RmcatSender C K) :=
  match s.rateShapingBuf with
  | [] => .error .assertion
  | bytesToSend :: rateShapingBuf => do
    check (s.rateShapingBytes < maxQueueSizeSanity)
    check (0 < bytesToSend)
    check (bytesToSend ≤ defaultPacketSize)
    let s := { s with rateShapingBuf }
    check (bytesToSend ≤ s.rateShapingBytes)
    let s := { s with rateShapingBytes := s.rateShapingBytes - bytesToSend }
    let oversleepUs := usSlept * (rand % 100) / 10000
    let s := s.scheduleSendOverSleep (microSeconds oversleepUs) bytesToSend
    let usToNext := s.usToNextSentPacket bytesToSend
    if !useBuffer || s.rateShapingBuf.length = 0 then
      return { s with nextSendTstmpUs := s.nowUs + usToNext }
    return s.scheduleSendPacket (microSeconds usToNext) usToNext

section Api
variable (api : ControllerApi C K)

def sendOverSleep (s : RmcatSender C K) (bytesToSend : UInt32) : Checked (RmcatSender C K) := do
  let nowUs := s.nowUs
  let (_, controller) ← api.processSendPacket s.controller nowUs s.sequence bytesToSend
  let header := { RtpHeader.ofPayloadType 96 with
    sequence := s.sequence
    timestamp := s.rtpTsOffset + (nowUs * 90 / 1000).toUInt32
    ssrc := s.ssrc }
  return { s with
    controller
    sequence := s.sequence + 1
    socket := s.socket ++ [⟨header, bytesToSend, s.destIP, s.destPort⟩] }

/-- The rates follow the bandwidth and the length of the buffer, when it holds more than one packet. -/
def calcBufferParams (s : RmcatSender C K) (nowUs : UInt64) : RmcatSender C K :=
  let rRef := api.getBandwidth s.controller nowUs
  let bufferLen : K := if 1 < s.rateShapingBuf.length then s.rateShapingBytes.toNat else 0
  if useBuffer && s.codec.valid then
    let fps := 1 / s.codec.secs
    { s with
      rVin := max s.minBw (rRef - betaV * 8 * bufferLen * fps)
      rSend := rRef + betaS * 8 * bufferLen * fps }
  else { s with rVin := rRef, rSend := rRef }

def recvPacket (s : RmcatSender C K) (rIPAddress : UInt32) (rport : UInt16) (packet : Octets) :
    Checked (RmcatSender C K) := do
  check (rIPAddress = s.destIP)
  check (rport = s.destPort)
  let nowUs := s.nowUs
  let (_, header, _) ← CCFeedbackHeader.fresh.deserialize packet
  if !header.getSsrcList.contains s.ssrc then
    return s.calcBufferParams api nowUs
  match ← header.getMetricList s.ssrc with
  | none => .error .assertion
  | some feedback =>
    let fbBatch := feedback.map fun item => { sequence := item.1, rxTimestampUs := item.2.timestampUs, ecn := item.2.ecn }
    let (_, controller) ← api.processFeedbackBatch s.controller nowUs fbBatch
    return { s with controller }.calcBufferParams api nowUs

end Api

end RmcatSender

/-- What happens to a sender: the simulator runs its next event, for which the codec has a frame
and there is a random number; and what comes from outside, before that event is due. -/
inductive SenderEvent (K : Type) where
  | runNext (codec : Codec K) (rand : UInt64)
  | recvPacket (atNs : ℕ) (rIPAddress : UInt32) (rport : UInt16) (packet : Octets)
  | pauseResume (atNs : ℕ) (pause : Bool)
  | stopApplication (atNs : ℕ)
  deriving DecidableEq

namespace RmcatSender
variable {C K : Type}

def due (s : RmcatSender C K) : Option Handler := s.simulator.runNext.map fun next => next.1.handler

def waitUntil (s : RmcatSender C K) (atNs : ℕ) : RmcatSender C K :=
  { s with simulator := s.simulator.waitUntil atNs }

variable [Field K] [LinearOrder K] [FloorSemiring K] (api : ControllerApi C K)

def handle (s : RmcatSender C K) (codec : Codec K) (rand : UInt64) : Handler → Checked (RmcatSender C K)
  | .enqueuePacket => s.enqueuePacket codec
  | .sendPacket usSlept => s.sendPacket usSlept rand
  | .sendOverSleep bytesToSend => s.sendOverSleep api bytesToSend

def step (s : RmcatSender C K) : SenderEvent K → Checked (RmcatSender C K)
  | .runNext codec rand =>
    match s.simulator.runNext with
    | none => .error .emptyQueue
    | some (event, simulator) => { s with simulator }.handle api codec rand event.handler
  | .recvPacket atNs rIPAddress rport packet => (s.waitUntil atNs).recvPacket api rIPAddress rport packet
  | .pauseResume atNs pause => (s.waitUntil atNs).pauseResume pause
  | .stopApplication atNs => .ok (s.waitUntil atNs).stopApplication

end RmcatSender

end Ns3Rmcat.Sender
