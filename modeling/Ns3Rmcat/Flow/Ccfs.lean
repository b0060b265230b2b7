import Ns3Rmcat.Controller.CcfsRun
import Ns3Rmcat.Header.RfbNumbers
import Ns3Rmcat.Receiver.Ccfs

/-! One CCFS flow from end to end: the sender, the packets on their way, which may be lost and
may overtake each other, the receiver on its clock, and its reports, which arrive in order. -/
namespace Ns3Rmcat.Flow
open Lib Header Controller Receiver

/-- What happens in a flow. A packet that arrives is given by its index: how many packets were
sent before it. -/
inductive FlowEvent where
  | processSendPacket2 (localTimestampUs : UInt64) (size : UInt32)
  | recvPacket (atUs : UInt64) (index : ℕ)
  | fbTimer (atUs : UInt64)
  | processFeedback2 (nowUs : UInt64)
  deriving DecidableEq, Repr

def FlowEvent.isSend : FlowEvent → Bool
  | .processSendPacket2 _ _ => true
  | _ => false

def FlowEvent.isDelivery : FlowEvent → Bool
  | .processFeedback2 _ => true
  | _ => false

structure CcfsFlow where
  sender : CcfsController
  sent : ℕ
  /-- The packets that were sent and have not arrived. -/
  underway : List ℕ
  receiving : Reporting
  /-- How many of the reports have been delivered. -/
  delivered : ℕ

/-- The packets of a flow have consecutive numbers and are the same otherwise. -/
def packetAt (first : RtpPacket) (index : ℕ) : RtpPacket :=
  { first with sequence := first.sequence + UInt16.ofNat index }

namespace CcfsFlow

/-- A flow starts with a controller that is reset, and with a receiver that waits. -/
def start (controller : CcfsController) (ssrc : UInt32) : CcfsFlow where
  sender := controller.reset
  sent := 0
  underway := []
  receiving := .start ssrc
  delivered := 0

def nextFeedback (s : CcfsFlow) : Checked RfbHeader :=
  match s.receiving.reports[s.delivered]? with
  | none => .error .emptyQueue
  | some report => do
    let (_, feedback, _) ← RfbHeader.fresh.deserialize report
    return feedback

def step (rounds : Nat) (first : RtpPacket) (s : CcfsFlow) : FlowEvent → Checked CcfsFlow
  | .processSendPacket2 localTimestampUs size => do
    let (_, sender) ← s.sender.processSendPacket2 first.ssrc localTimestampUs (packetAt first s.sent).sequence size
    return { s with sender, sent := s.sent + 1, underway := s.underway ++ [s.sent] }
  | .recvPacket atUs index => do
    let receiving ← s.receiving.step (.recvPacket atUs (packetAt first index))
    return { s with receiving, underway := s.underway.erase index }
  | .fbTimer atUs => do
    let receiving ← s.receiving.step (.fbTimer atUs)
    return { s with receiving }
  | .processFeedback2 nowUs => do
    let feedback ← s.nextFeedback
    let (_, sender) ← s.sender.processFeedback2 rounds nowUs feedback
    return { s with sender, delivered := s.delivered + 1 }

/-- Any packet on its way may arrive next, once; the receiver keeps to its clock; and the next
report is delivered when there is one that can be read. -/
def Possible (first : RtpPacket) (s : CcfsFlow) : FlowEvent → Prop
  | .processSendPacket2 _ _ => True
  | .recvPacket atUs index => index ∈ s.underway ∧ s.receiving.InOrder (.recvPacket atUs (packetAt first index))
  | .fbTimer atUs => s.receiving.InOrder (.fbTimer atUs)
  | .processFeedback2 _ => Returns s.nextFeedback

instance (first : RtpPacket) (s : CcfsFlow) : (event : FlowEvent) → Decidable (s.Possible first event)
  | .processSendPacket2 _ _ => .isTrue trivial
  | .recvPacket atUs index =>
    inferInstanceAs (Decidable (_ ∧ s.receiving.InOrder (.recvPacket atUs (packetAt first index))))
  | .fbTimer atUs => inferInstanceAs (Decidable (s.receiving.InOrder (.fbTimer atUs)))
  | .processFeedback2 _ => inferInstanceAs (Decidable (Returns s.nextFeedback))

/-- A report that is delivered counts no more packets than are in flight. -/
def Covered (s : CcfsFlow) : FlowEvent → Prop
  | .processFeedback2 _ => ∀ feedback count, s.nextFeedback = .ok feedback →
      feedback.getTotalReportCount = .ok count → count ≤ s.sender.inflightPktCount
  | _ => True

end CcfsFlow

/-- The packets that arrived in each period, which the timer handler ends. -/
structure Periods where
  ended : List (List ℕ) := []
  last : List ℕ := []
  deriving DecidableEq, Repr

def Periods.add (periods : Periods) : FlowEvent → Periods
  | .recvPacket _ index => { periods with last := periods.last ++ [index] }
  | .fbTimer _ => { ended := periods.ended ++ [periods.last] }
  | _ => periods

def periods (events : List FlowEvent) : Periods := events.foldl Periods.add {}

def sends (events : List FlowEvent) : ℕ := events.countP FlowEvent.isSend

def deliveries (events : List FlowEvent) : ℕ := events.countP FlowEvent.isDelivery

def numbers (first : RtpPacket) (period : List ℕ) : List UInt16 :=
  period.map fun index => (packetAt first index).sequence

/-- The places that the report of a period takes, holes included. -/
def places (first : RtpPacket) (period : List ℕ) : ℕ := placesOf (numbers first period)

def placesReported (first : RtpPacket) (events : List FlowEvent) : ℕ :=
  (((periods events).ended.take (deliveries events)).map (places first)).sum

/-- The next report takes no more places than there are packets sent and not yet accounted for
by places of earlier reports; they are counted in a 32-bit word. -/
def Fits (first : RtpPacket) (events : List FlowEvent) : Prop :=
  ∀ period, (periods events).ended[deliveries events]? = some period →
    places first period ≤ (sends events - placesReported first events) % 2 ^ 32

/-- No packet arrives in a later period than one that was sent after it, and the packets of a
period are close to each other. -/
structure Ordered (events : List FlowEvent) : Prop where
  across : (periods events).ended.Pairwise fun p q => ∀ a ∈ p, ∀ b ∈ q, a < b
  close : ∀ period ∈ (periods events).ended, ∀ a ∈ period, ∀ b ∈ period, a < b + 100

instance (first : RtpPacket) (events : List FlowEvent) : Decidable (Fits first events) :=
  match h : (periods events).ended[deliveries events]? with
  | none => .isTrue fun period hperiod => by rw [h] at hperiod; cases hperiod
  | some period =>
    decidable_of_iff (places first period ≤ (sends events - placesReported first events) % 2 ^ 32)
      ⟨fun hle period' hperiod => Option.some.inj (h.symm.trans hperiod) ▸ hle, fun hfits => hfits period h⟩

end Ns3Rmcat.Flow
