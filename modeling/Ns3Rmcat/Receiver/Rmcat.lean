import Ns3Rmcat.Header.CCFeedbackSize
import Ns3Rmcat.Receiver.Ccfs

/-! The receiver of congestion control feedback: each packet that arrives is added to a feedback
header, which is sent every period, and earlier when it has no room for a packet. -/
namespace Ns3Rmcat.Receiver
open Lib Header CCFeedback

def rmcatFeedbackPeriodUs : UInt64 := 100 * 1000

/-- A report that is sent: the header, and the octets that are made of it. -/
structure Report where
  header : CCFeedbackHeader
  packet : Octets
  deriving DecidableEq

structure RmcatReceiver where
  running : Bool
  waiting : Bool
  ssrc : UInt32
  remoteSsrc : UInt32
  srcIp : UInt32
  srcPort : UInt16
  header : CCFeedbackHeader
  /-- When the scheduled report will be sent, in microseconds. -/
  sendEvent : Option UInt64
  periodUs : UInt64
  deriving DecidableEq

namespace RmcatReceiver

def setup : RmcatReceiver where
  running := false
  waiting := true
  ssrc := 0
  remoteSsrc := 0
  srcIp := 0
  srcPort := 0
  header := .fresh
  sendEvent := none
  periodUs := rmcatFeedbackPeriodUs

/-- The receiver's own number is a random one. -/
def startApplication (r : RmcatReceiver) (nowUs : UInt64) (ssrc : UInt32) : RmcatReceiver :=
  { r with running := true, ssrc, header := r.header.setSendSsrc ssrc, sendEvent := some (nowUs + r.periodUs) }

def stopApplication (r : RmcatReceiver) : RmcatReceiver :=
  { r with running := false, waiting := true, header := r.header.clear, sendEvent := none }

/-- A header without any packets is not sent. -/
def sendFeedback (r : RmcatReceiver) (nowUs : UInt64) (reschedule : Bool) :
    Checked (RmcatReceiver × List Report) := do
  let (r, reports) ←
    if r.running && !r.header.empty then do
      let packet ← r.header.serialize
      .ok ({ r with header := r.header.clear.setSendSsrc r.ssrc }, [⟨r.header, packet⟩])
    else .ok (r, [])
  return (if reschedule then { r with sendEvent := some (nowUs + r.periodUs) } else r, reports)

/-- When the packet does not fit, what there is is sent first. -/
def addFeedback (r : RmcatReceiver) (nowUs : UInt64) (sequence : UInt16) (recvTimestampUs : UInt64) :
    Checked (RmcatReceiver × List Report) := do
  let (res, header) ← r.header.addFeedback r.remoteSsrc sequence recvTimestampUs 0
  let r := { r with header }
  if res = .tooLong then
    let (r, reports) ← r.sendFeedback nowUs false
    let (res, header) ← r.header.addFeedback r.remoteSsrc sequence recvTimestampUs 0
    check (res = .none)
    return ({ r with header }, reports)
  check (res = .none)
  return (r, [])

def recvPacket (r : RmcatReceiver) (nowUs : UInt64) (packet : RtpPacket) :
    Checked (RmcatReceiver × List Report) := do
  if !r.running then
    return (r, [])
  let r ←
    if r.waiting then
      .ok { r with
        waiting := false
        remoteSsrc := packet.ssrc
        srcIp := packet.srcIp
        srcPort := packet.srcPort }
    else do
      check (r.remoteSsrc = packet.ssrc)
      check (r.srcIp = packet.srcIp)
      check (r.srcPort = packet.srcPort)
      .ok r
  r.addFeedback nowUs packet.sequence nowUs

end RmcatReceiver

/-- The receiver, and the reports that it has sent. -/
structure CcfbReporting where
  receiver : RmcatReceiver
  reports : List Report
  deriving DecidableEq

namespace CcfbReporting

def start (nowUs : UInt64) (ssrc : UInt32) : CcfbReporting where
  receiver := RmcatReceiver.setup.startApplication nowUs ssrc
  reports := []

/-- The timer's event is the one that sends a report, and schedules the next one. -/
def step (s : CcfbReporting) : Event → Checked CcfbReporting
  | .recvPacket atUs packet => do
    let (receiver, reports) ← s.receiver.recvPacket atUs packet
    return { receiver, reports := s.reports ++ reports }
  | .fbTimer atUs => do
    let (receiver, reports) ← s.receiver.sendFeedback atUs true
    return { receiver, reports := s.reports ++ reports }

end CcfbReporting

/-- The packets of each period that has ended and had some, in order; some packets have arrived
already in the first one. -/
def periodsFrom (arrived : List (UInt64 × RtpPacket)) : List Event → List (List (UInt64 × RtpPacket))
  | [] => []
  | .recvPacket atUs packet :: events => periodsFrom (arrived ++ [(atUs, packet)]) events
  | .fbTimer _ :: events => (if arrived = [] then [] else [arrived]) ++ periodsFrom [] events

def periods (events : List Event) : List (List (UInt64 × RtpPacket)) := periodsFrom [] events

end Ns3Rmcat.Receiver
