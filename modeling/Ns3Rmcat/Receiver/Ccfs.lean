import Ns3Rmcat.Header.RfbRoundTrip

/-! The CCFS receiver: each packet that arrives is added to a feedback header, which a
timer sends and cleans every period, counted from the first packet on. -/
namespace Ns3Rmcat.Receiver
open Lib Header

/-- What the receiver reads of a packet and of where it comes from. -/
structure RtpPacket where
  srcIp : UInt32
  srcPort : UInt16
  ssrc : UInt32
  sequence : UInt16
  deriving DecidableEq, Repr

structure RmcatCcfsReceiver where
  waiting : Bool
  ssrc : UInt32
  remoteSsrc : UInt32
  srcIp : UInt32
  srcPort : UInt16
  fbPeriodMs : UInt32
  /-- When the scheduled timer handler will run, in microseconds. -/
  fbEvent : Option UInt64
  fbHeader : RfbHeader
  refPointUs : UInt64
  deriving DecidableEq

namespace RmcatCcfsReceiver

/-- The receiver once it is set up and started with a number of its own. -/
def start (ssrc : UInt32) : RmcatCcfsReceiver where
  waiting := true
  ssrc := ssrc
  remoteSsrc := 0
  srcIp := 0
  srcPort := 0
  fbPeriodMs := 100
  fbEvent := none
  fbHeader := RfbHeader.fresh
  refPointUs := 0

def getCurrElapsedTimeMs (r : RmcatCcfsReceiver) (currUs : UInt64) : UInt64 := (currUs - r.refPointUs) / 1000

def schedule (r : RmcatCcfsReceiver) (nowUs : UInt64) : RmcatCcfsReceiver :=
  { r with fbEvent := some (nowUs + r.fbPeriodMs.toUInt64 * 1000) }

def recvPacket (r : RmcatCcfsReceiver) (nowUs : UInt64) (packet : RtpPacket) : Checked RmcatCcfsReceiver := do
  let r := if r.refPointUs = 0 then { r with refPointUs := nowUs : RmcatCcfsReceiver }.schedule nowUs else r
  let r ←
    if r.waiting then
      .ok { r with
        waiting := false
        remoteSsrc := packet.ssrc
        srcIp := packet.srcIp
        srcPort := packet.srcPort
        fbHeader := { r.fbHeader with common := r.fbHeader.common.setSendSsrc r.ssrc } }
    else do
      check (r.remoteSsrc = packet.ssrc)
      check (r.srcIp = packet.srcIp)
      check (r.srcPort = packet.srcPort)
      .ok r
  let recvTimestampMs := r.getCurrElapsedTimeMs nowUs
  return { r with fbHeader := (r.fbHeader.addFeedback r.remoteSsrc packet.sequence recvTimestampMs 0).2 }

/-- The header with its number and its times set, as it is sent. -/
def report (r : RmcatCcfsReceiver) (nowUs : UInt64) : RfbHeader :=
  ((r.fbHeader.increaseFbSeq).setReportTime (r.getCurrElapsedTimeMs nowUs)).setMonitoredTime r.fbPeriodMs.toUInt16

/-- The octets that are sent, and the receiver with a clean header for the next period. -/
def fbTimerHandler (r : RmcatCcfsReceiver) (nowUs : UInt64) : Checked (RmcatCcfsReceiver × Octets) := do
  let fbHeader := r.report nowUs
  let packet ← fbHeader.serialize
  return ({ r.schedule nowUs with fbHeader := fbHeader.cleanReportBlocks }, packet)

end RmcatCcfsReceiver

/-- A packet arrives, or the timer handler runs, each at its time in microseconds. -/
inductive Event where
  | recvPacket (atUs : UInt64) (packet : RtpPacket)
  | fbTimer (atUs : UInt64)
  deriving DecidableEq, Repr

def Event.atUs : Event → UInt64
  | .recvPacket atUs _ => atUs
  | .fbTimer atUs => atUs

/-- The receiver on its clock, and the reports that it has sent. -/
structure Reporting where
  nowUs : UInt64
  receiver : RmcatCcfsReceiver
  reports : List Octets
  deriving DecidableEq

namespace Reporting

def start (ssrc : UInt32) : Reporting where
  nowUs := 0
  receiver := .start ssrc
  reports := []

def step (s : Reporting) : Event → Checked Reporting
  | .recvPacket atUs packet => do
    let receiver ← s.receiver.recvPacket atUs packet
    return { s with nowUs := atUs, receiver }
  | .fbTimer atUs => do
    let (receiver, report) ← s.receiver.fbTimerHandler atUs
    return { nowUs := atUs, receiver, reports := s.reports ++ [report] }

/-- The clock does not go back, and the timer handler runs when it is scheduled, before any
packet that arrives later. -/
def InOrder (s : Reporting) (event : Event) : Prop :=
  s.nowUs ≤ event.atUs ∧
    match event with
    | .recvPacket atUs _ => 0 < atUs ∧ ∀ due ∈ s.receiver.fbEvent, atUs ≤ due
    | .fbTimer atUs => s.receiver.fbEvent = some atUs

instance (s : Reporting) : (event : Event) → Decidable (s.InOrder event)
  | .recvPacket atUs _ =>
    decidable_of_iff (s.nowUs ≤ atUs ∧ 0 < atUs ∧ s.receiver.fbEvent.all (atUs ≤ ·) = true) (by
      cases h : s.receiver.fbEvent <;> simp [InOrder, Event.atUs, h])
  | .fbTimer atUs => inferInstanceAs (Decidable (s.nowUs ≤ atUs ∧ s.receiver.fbEvent = some atUs))

end Reporting

/-- The packets that have arrived since the timer handler ran, in order. -/
def arrivals (events : List Event) : List (UInt64 × RtpPacket) :=
  events.foldl (fun arrived event =>
    match event with
    | .recvPacket atUs packet => arrived ++ [(atUs, packet)]
    | .fbTimer _ => []) []

def timers (events : List Event) : Nat :=
  events.countP fun event => event matches .fbTimer _

def origin (events : List Event) : Nat := (events.head?.map fun event => event.atUs.toNat).getD 0

def elapsedMs (events : List Event) (atUs : UInt64) : Nat := (atUs.toNat - origin events) / 1000

def firstArrival (arrived : List (UInt64 × RtpPacket)) (seq : UInt16) : Option UInt64 :=
  (arrived.find? fun arrival => arrival.2.sequence = seq).map Prod.fst

end Ns3Rmcat.Receiver
