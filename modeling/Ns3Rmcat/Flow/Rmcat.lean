import Ns3Rmcat.Flow.Ccfs
import Ns3Rmcat.Header.RtpRoundTrip
import Ns3Rmcat.Receiver.RmcatDelivery
import Ns3Rmcat.Sender.RmcatCalls

/-! One flow with congestion control feedback from end to end: the sender with its buffer and its
controller, the receiver on the same clock, and between them a network that may lose packets and
reports, may deliver them late and out of order, and may deliver them again. -/
namespace Ns3Rmcat.Flow
open Lib Header Controller Receiver Sender

/-- What happens in a flow. A packet is given by how many packets the socket was given before it, a
report by how many were sent before it. -/
inductive RmcatEvent (K : Type) where
  | sender (event : SenderEvent K)
  | arrive (atNs : ℕ) (index : ℕ)
  | fbTimer (atNs : ℕ)
  | deliver (atNs : ℕ) (index : ℕ)
  deriving DecidableEq

/-- Where the packets of the sender come from, the sender and the receiver, and a history of the
arrivals, each with the time and the packet: those since the last report, and those of each report. -/
structure RmcatFlow (C K : Type) where
  srcIp : UInt32
  srcPort : UInt16
  sender : RmcatSender C K
  receiving : CcfbReporting
  arrived : List (UInt64 × ℕ)
  told : List (List (UInt64 × ℕ))

namespace RmcatFlow
variable {C K : Type}

def start (srcIp : UInt32) (srcPort : UInt16) (sender : RmcatSender C K) (ssrc : UInt32) : RmcatFlow C K where
  srcIp := srcIp
  srcPort := srcPort
  sender := sender
  receiving := .start sender.nowUs ssrc
  arrived := []
  told := []

/-- The header of a packet, as it is read on the other side. -/
def received (packet : MediaPacket) : Checked RtpHeader := do
  let octets ← packet.header.serialize
  let (_, header, _) ← RtpHeader.fresh.deserialize octets
  return header

/-- A packet of the sender is read as it was written. -/
theorem received_mediaPacket (stream : RmcatSender.Stream) (p : PacketRecord) :
    received (stream.mediaPacket p) = .ok (stream.mediaPacket p).header := by
  have htype : (stream.mediaPacket p).header.payloadType ≤ 0x7f := show (96 : UInt8) ≤ 0x7f by decide
  have hcsrcs : (stream.mediaPacket p).header.csrcs.size ≤ 0x0f := Nat.zero_le _
  obtain ⟨octets, n, hoctets, -, -, hread⟩ := RtpHeader.readsBack htype hcsrcs RtpHeader.fresh
  have hback := hread []
  rw [List.append_nil] at hback
  rw [received, hoctets, ok_bind, hback]
  rfl

variable [Field K] [LinearOrder K] [FloorSemiring K] (api : ControllerApi C K)

def step (s : RmcatFlow C K) : RmcatEvent K → Checked (RmcatFlow C K)
  | .sender event => do
    let sender ← s.sender.step api event
    return { s with sender }
  | .arrive atNs index =>
    match s.sender.socket[index]? with
    | none => .error .emptyQueue
    | some packet => do
      let header ← received packet
      let sender := s.sender.waitUntil atNs
      let receiving ← s.receiving.step (.recvPacket sender.nowUs
        { srcIp := s.srcIp, srcPort := s.srcPort, ssrc := header.ssrc, sequence := header.sequence })
      return { s with sender, receiving, arrived := s.arrived ++ [(sender.nowUs, index)] }
  | .fbTimer atNs => do
    let sender := s.sender.waitUntil atNs
    let receiving ← s.receiving.step (.fbTimer sender.nowUs)
    let told := if s.arrived = [] then s.told else s.told ++ [s.arrived]
    return { s with sender, receiving, arrived := [], told }
  | .deliver atNs index =>
    match s.receiving.reports[index]? with
    | none => .error .emptyQueue
    | some report => do
      let sender ← s.sender.step api (.recvPacket atNs s.sender.destIP s.sender.destPort report.packet)
      return { s with sender }

/-- Reports come from the receiver only, and the receiver keeps to its timer. -/
def Possible (s : RmcatFlow C K) : RmcatEvent K → Prop
  | .sender event => event.isRecvPacket = false
  | .arrive atNs _ => ∀ due ∈ s.receiving.receiver.sendEvent, (s.sender.waitUntil atNs).nowUs ≤ due
  | .fbTimer atNs => s.receiving.receiver.sendEvent = some (s.sender.waitUntil atNs).nowUs
  | .deliver _ _ => True

/-- A packet arrives at a time that can be represented. When a report is delivered, no more packets
have been sent since those that it is about, or are in transit, than there are numbers. -/
def Timely (base : C → SenderBasedController K) (s : RmcatFlow C K) : RmcatEvent K → Prop
  | .arrive atNs _ => Representable (s.sender.waitUntil atNs).nowUs
  | .deliver _ index => (base s.sender.controller).inTransitPackets.length ≤ 65536 ∧
    ∀ period ∈ s.told[index]?, ∀ arrival ∈ period, s.sender.socket.length ≤ arrival.2 + 65536
  | _ => True

instance (s : RmcatFlow C K) : (event : RmcatEvent K) → Decidable (s.Possible event)
  | .sender event => inferInstanceAs (Decidable (event.isRecvPacket = false))
  | .arrive atNs _ =>
    decidable_of_iff (s.receiving.receiver.sendEvent.all ((s.sender.waitUntil atNs).nowUs ≤ ·) = true) (by
      cases h : s.receiving.receiver.sendEvent <;> simp [Possible, h])
  | .fbTimer atNs =>
    inferInstanceAs (Decidable (s.receiving.receiver.sendEvent = some (s.sender.waitUntil atNs).nowUs))
  | .deliver _ _ => .isTrue trivial

instance (base : C → SenderBasedController K) (s : RmcatFlow C K) : (event : RmcatEvent K) → Decidable (s.Timely base event)
  | .sender _ => .isTrue trivial
  | .arrive atNs _ => inferInstanceAs (Decidable (Representable (s.sender.waitUntil atNs).nowUs))
  | .fbTimer _ => .isTrue trivial
  | .deliver _ index =>
    inferInstanceAs (Decidable ((base s.sender.controller).inTransitPackets.length ≤ 65536 ∧
      ∀ period ∈ s.told[index]?, ∀ arrival ∈ period, s.sender.socket.length ≤ arrival.2 + 65536))

/-- The packets of a flow as the receiver sees them. -/
def first (s : RmcatFlow C K) : RtpPacket where
  srcIp := s.srcIp
  srcPort := s.srcPort
  ssrc := s.sender.ssrc
  sequence := s.sender.sequence

end RmcatFlow

/-- A packet of a flow that arrives, as the receiver sees it. -/
def arrivalOf (first : RtpPacket) (arrival : UInt64 × ℕ) : UInt64 × RtpPacket :=
  (arrival.1, packetAt first arrival.2)

end Ns3Rmcat.Flow
