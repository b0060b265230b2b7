import Ns3Rmcat.Lib.Checked
import Ns3Rmcat.Lib.SerialNumber

/-! The sender-based controller: packets in transit, the history of packets that
feedback has been received for, and the metrics computed from the history.
Rates are elements of an ordered field K; everything else has the code's words. -/
namespace Ns3Rmcat.Controller
open Lib

/-- Minimum number of packets in the log for the metrics to be meaningful. -/
def minPacketLoglen : Nat := 5

/-- Maximum interval between packets, in microseconds. -/
def maxInterPacketTimeUs : UInt64 := 500 * 1000

/-- Default time window of the packet history, in microseconds. -/
def defaultHistoryLengthUs : UInt64 := 500 * 1000

structure PacketRecord where
  sequence : UInt16
  txTimestampUs : UInt64
  size : UInt32
  owdUs : UInt64
  rttUs : UInt64
  deriving DecidableEq, Repr

/-- Lengths of the intervals between loss events, newest first. -/
structure InterLossState where
  intervals : List UInt16 := [0]
  expectedSeq : UInt16 := 0
  initialized : Bool := false
  deriving DecidableEq, Repr

structure FeedbackItem where
  sequence : UInt16
  rxTimestampUs : UInt64
  ecn : UInt8
  deriving DecidableEq, Repr

structure SenderBasedController (K : Type) where
  firstSend : Bool
  lastSequence : UInt16
  baseDelayUs : UInt64
  inTransitPackets : List PacketRecord
  packetHistory : List PacketRecord
  pktSizeSum : UInt32
  initBw : K
  minBw : K
  maxBw : K
  ilState : InterLossState
  historyLengthUs : UInt64
  deriving DecidableEq

namespace SenderBasedController
variable {K : Type} [Field K] [LinearOrder K]

def fresh : SenderBasedController K where
  firstSend := true
  lastSequence := 0
  baseDelayUs := 0
  inTransitPackets := []
  packetHistory := []
  pktSizeSum := 0
  initBw := 150000
  minBw := 150000
  maxBw := 1500000
  ilState := {}
  historyLengthUs := defaultHistoryLengthUs

def setInitBw (s : SenderBasedController K) (initBw : K) : SenderBasedController K :=
  { s with initBw }

def setMinBw (s : SenderBasedController K) (minBw : K) : SenderBasedController K :=
  { s with minBw }

def setMaxBw (s : SenderBasedController K) (maxBw : K) : SenderBasedController K :=
  { s with maxBw }

/-- Every field is assigned the value the constructor gives it. -/
def reset (_ : SenderBasedController K) : SenderBasedController K := fresh

end SenderBasedController

/-- Memory safety of the packets in transit: those sent too long before the
newest one are removed from the front. -/
def evictOld (txTimestampUs : UInt64) : List PacketRecord → Checked (List PacketRecord)
  | [] => .error .emptyQueue
  | front :: rest =>
    if lessThan (front.txTimestampUs + 10 * maxInterPacketTimeUs) txTimestampUs then
      evictOld txTimestampUs rest
    else
      .ok (front :: rest)

/-- Stale entries are removed until the front is not before sequence. -/
def popStale (sequence : UInt16) :
    List PacketRecord → Checked (PacketRecord × List PacketRecord)
  | [] => .error .emptyQueue
  | front :: rest =>
    if lessThan front.sequence sequence then popStale sequence rest else .ok (front, rest)

/-- Garbage collection of the history, which keeps its length within limits. -/
def collectHistory (historyLengthUs : UInt64) :
    List PacketRecord → UInt32 → Checked (List PacketRecord × UInt32)
  | [], _ => .error .emptyQueue
  | front :: rest, pktSizeSum => do
    let lastTimestampUs := ((front :: rest).getLast (by simp)).txTimestampUs
    check (lessThan lastTimestampUs front.txTimestampUs = false)
    if lessThan lastTimestampUs (front.txTimestampUs + historyLengthUs) then
      return (front :: rest, pktSizeSum)
    check (front.size ≤ pktSizeSum)
    collectHistory historyLengthUs rest (pktSizeSum - front.size)

namespace SenderBasedController
variable {K : Type}

def updateInterLossData (s : SenderBasedController K) (sequence : UInt16) :
    Checked (SenderBasedController K) := do
  let il := if s.packetHistory.isEmpty then { expectedSeq := sequence } else s.ilState
  if sequence = il.expectedSeq then
    return { s with ilState :=
      { il with intervals := il.intervals.modifyHead (· + 1), expectedSeq := il.expectedSeq + 1 } }
  check (il.expectedSeq < sequence ∨ (sequence < 50 ∧ 65535 - 50 < il.expectedSeq))
  let shifted := 1 :: il.intervals
  return { s with ilState :=
    { intervals := if 9 < shifted.length then shifted.dropLast else shifted
      expectedSeq := sequence + 1
      initialized := true } }

def processSendPacket (s : SenderBasedController K) (txTimestampUs : UInt64)
    (sequence : UInt16) (size : UInt32) : Checked (Bool × SenderBasedController K) := do
  let s := if s.firstSend then { s with lastSequence := sequence - 1, firstSend := false } else s
  let s := { s with lastSequence := s.lastSequence + 1 }
  if sequence ≠ s.lastSequence then
    return (false, s)
  let queue ← evictOld txTimestampUs
    (s.inTransitPackets ++ [⟨s.lastSequence, txTimestampUs, size, 0, 0⟩])
  return (true, { s with inTransitPackets := queue })

/-- After too long without any feedback the packet history is obsolete. -/
def dropObsolete (s : SenderBasedController K) (packet : PacketRecord) : SenderBasedController K :=
  match s.packetHistory.getLast? with
  | none => s
  | some lastPacket =>
    if lessThan (lastPacket.txTimestampUs + maxInterPacketTimeUs) packet.txTimestampUs then
      { s with packetHistory := [], pktSizeSum := 0 }
    else s

/-- The packet with its delays filled in goes to the back of the history. -/
def recordPacket (s : SenderBasedController K) (packet : PacketRecord) (nowUs rxTimestampUs : UInt64) :
    Checked (SenderBasedController K) := do
  check (packet.owdUs = 0)
  check (packet.rttUs = 0)
  let packet := { packet with
    owdUs := rxTimestampUs - packet.txTimestampUs, rttUs := nowUs - packet.txTimestampUs }
  let s := if s.packetHistory.isEmpty || lessThan packet.owdUs s.baseDelayUs then
    { s with baseDelayUs := packet.owdUs } else s
  let s ← s.updateInterLossData packet.sequence
  return { s with
    packetHistory := s.packetHistory ++ [packet], pktSizeSum := s.pktSizeSum + packet.size }

/-- Feedback that has been matched with the packet it is about. -/
def acceptPacket (s : SenderBasedController K) (packet : PacketRecord) (nowUs rxTimestampUs : UInt64) :
    Checked (Bool × SenderBasedController K) := do
  if s.packetHistory.getLast?.any (fun last => lessThan packet.txTimestampUs last.txTimestampUs) then
    return (false, s)
  let s ← (s.dropObsolete packet).recordPacket packet nowUs rxTimestampUs
  let (history, sum) ← collectHistory s.historyLengthUs s.packetHistory s.pktSizeSum
  return (true, { s with packetHistory := history, pktSizeSum := sum })

def processFeedback (s : SenderBasedController K) (nowUs : UInt64) (sequence : UInt16)
    (rxTimestampUs : UInt64) (_ecn : UInt8) : Checked (Bool × SenderBasedController K) := do
  if lessThan s.lastSequence sequence then
    return (false, s)
  match s.inTransitPackets.getLast? with
  | none => return (true, s)
  | some back =>
    check (back.sequence = s.lastSequence)
    let (front, rest) ← popStale sequence s.inTransitPackets
    if lessThan sequence front.sequence then
      return (true, { s with inTransitPackets := front :: rest })
    let s := { s with inTransitPackets := rest }
    check (sequence = front.sequence)
    s.acceptPacket front nowUs rxTimestampUs

end SenderBasedController

/-- The batch loop of the base class. The feedback function it calls is virtual, so
a derived controller's own one runs for each item. -/
def processFeedbackBatch {S : Type}
    (processFeedback : S → UInt64 → UInt16 → UInt64 → UInt8 → Checked (Bool × S))
    (nowUs : UInt64) : S → List FeedbackItem → Checked (Bool × S)
  | s, [] => .ok (true, s)
  | s, item :: batch => do
    check (lessThan item.rxTimestampUs nowUs = true)
    let (ok, s) ← processFeedback s nowUs item.sequence item.rxTimestampUs item.ecn
    if ok then processFeedbackBatch processFeedback nowUs s batch else return (false, s)

/-- Minimum of a list, as a filter over its samples computes it. -/
def minOf : List UInt64 → Option UInt64
  | [] => none
  | x :: xs => some (xs.foldl min x)

namespace SenderBasedController
variable {K : Type} [Field K] [LinearOrder K]

/-- The newest records of the history, as many as the minimum filters look at. -/
def newest (s : SenderBasedController K) : List PacketRecord := s.packetHistory.reverse.take 15

def getCurrentQdelay (s : SenderBasedController K) : Option UInt64 :=
  minOf (s.newest.map fun p => p.owdUs - s.baseDelayUs)

def getCurrentRTT (s : SenderBasedController K) : Option UInt64 :=
  minOf (s.newest.map fun p => p.rttUs)

def getPktLossInfo (s : SenderBasedController K) : Checked (Option (UInt32 × K)) := do
  if s.packetHistory.length < minPacketLoglen then
    return none
  match s.packetHistory.head?, s.packetHistory.getLast? with
  | some front, some back =>
    let seqSpan := 1 + back.sequence - front.sequence
    check (s.packetHistory.length ≤ seqSpan.toNat)
    let nLoss := UInt32.ofNat (seqSpan.toNat - s.packetHistory.length)
    return some (nLoss, (nLoss.toNat : K) / (seqSpan.toNat : K))
  | _, _ => return none

def getCurrentRecvRate (s : SenderBasedController K) : Checked (Option K) := do
  if s.packetHistory.length < minPacketLoglen then
    return none
  match s.packetHistory.head?, s.packetHistory.getLast? with
  | some front, some back =>
    let firstRxUs := front.txTimestampUs + front.owdUs
    let lastRxUs := back.txTimestampUs + back.owdUs
    check (lessThan firstRxUs (lastRxUs + 1) = true)
    let timeSpanUs := lastRxUs - firstRxUs
    if timeSpanUs = 0 then
      return none
    check (front.size ≤ s.pktSizeSum)
    let bytes := s.pktSizeSum - front.size
    return some (((bytes * 8).toNat : K) * ((1000 : ℕ) : K) * ((1000 : ℕ) : K) / (timeSpanUs.toNat : K))
  | _, _ => return none

/-- Weights of the average inter-loss interval: 1, 1, 1, 1, .8, .6, .4, .2. -/
def weights : List K :=
  (List.range 8).map fun i => if i < 4 then 1 else ((2 * (8 - i) : ℕ) : K) / ((10 : ℕ) : K)

/-- Inner product of the intervals with the weights. -/
def weighted (intervals : List UInt16) : K :=
  (List.zipWith (fun n w => (n.toNat : K) * w) intervals weights).sum

def getLossIntervalInfo (s : SenderBasedController K) : Checked (Option (K × UInt16)) := do
  if s.ilState.initialized = false then
    return none
  let intervals := s.ilState.intervals
  check (2 ≤ intervals.length ∧ intervals.length ≤ 9)
  let iSum0 : K := weighted intervals.dropLast
  let iSum1 : K := weighted intervals.tail
  let wSum : K := ((weights (K := K)).take (intervals.length - 1)).sum
  return some (max iSum0 iSum1 / wSum, intervals.headD 0)

end SenderBasedController

end Ns3Rmcat.Controller
