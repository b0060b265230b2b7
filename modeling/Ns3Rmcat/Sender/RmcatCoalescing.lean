import Ns3Rmcat.Sender.RmcatCcfs
import Ns3Rmcat.Sender.RmcatShaping

/-! What becomes of the frames of the codec in a sender with the CCFS controller: each one goes to
the socket in its turn, in a packet with the frames of one byte that came before it. -/
namespace Ns3Rmcat.Sender
open Lib Header Controller

/-- The frames of a packet: some of one byte, which waited, and then a larger one. -/
structure Burst where
  waited : ℕ
  frame : UInt32
  large : 1 < frame
  fits : frame ≤ defaultPacketSize

namespace Burst

def frames (burst : Burst) : List UInt32 := List.replicate burst.waited 1 ++ [burst.frame]

def size (burst : Burst) : UInt32 := UInt32.ofNat burst.waited + burst.frame

end Burst

namespace RmcatSender
variable {rounds : ℕ} {s s' : CcfsSender} {actions : List (QueueAction UInt32)}

/-- What an event does to the buffer: what runs next is always to enqueue. -/
def ccfsActionsOf (s : CcfsSender) : SenderEvent ℚ → List (QueueAction UInt32)
  | .runNext codec _ => .enqueue codec.size.toUInt32 ::
    if codec.size = 1 then [] else (s.rateShapingBuf ++ [codec.size.toUInt32]).map .dequeue
  | .recvPacket _ _ _ _ => []
  | .pauseResume _ pause => if pause then [.discard] else []
  | .stopApplication _ => [.discard]

private theorem Booked.dequeueAll (hs : Booked actions s) (hbuf : s'.rateShapingBuf = [])
    (hbytes : s'.rateShapingBytes = 0) :
    Booked (actions ++ s.rateShapingBuf.map .dequeue) s' := by
  obtain ⟨settled, hsettled⟩ := hs.fates
  constructor
  · simp [buffered, hbuf, hbytes]
  · rw [hbuf]
    exact ⟨_, replay_dequeues hsettled⟩

/-- What holds of the buffer and of the socket after some actions: only frames of one byte wait, and
what has been taken out of the buffer is what the packets are made of. -/
structure Coalesces (actions : List (QueueAction UInt32)) (s : CcfsSender) : Prop where
  booked : Booked actions s
  ones : ∀ size ∈ s.rateShapingBuf, size = 1
  packets : ∃ bursts : List Burst, dequeues actions = bursts.flatMap Burst.frames ∧
    s.socket.map MediaPacket.size = bursts.map Burst.size

private theorem Coalesces.of_same (hs : Coalesces actions s) (hbuf : s'.rateShapingBuf = s.rateShapingBuf)
    (hbytes : s'.rateShapingBytes = s.rateShapingBytes) (hsocket : s'.socket = s.socket) :
    Coalesces (actions ++ []) s' where
  booked := hs.booked.of_same hbuf hbytes
  ones := hbuf ▸ hs.ones
  packets := by
    rw [List.append_nil, hsocket]
    exact hs.packets

private theorem dequeues_append (actions more : List (QueueAction UInt32)) :
    dequeues (actions ++ more) = dequeues actions ++ dequeues more := List.filterMap_append

theorem Coalesces.discard (hs : Coalesces actions s) (hbuf : s'.rateShapingBuf = []) (hbytes : s'.rateShapingBytes = 0)
    (hsocket : s'.socket = s.socket) : Coalesces (actions ++ [.discard]) s' where
  booked := hs.booked.discard hbuf hbytes
  ones := by simp [hbuf]
  packets := by
    have hnone : dequeues [(.discard : QueueAction UInt32)] = [] := rfl
    rw [dequeues_append, hnone, List.append_nil, hsocket]
    exact hs.packets

private theorem Coalesces.keep (hs : Coalesces actions s) {codec : Codec ℚ} (hone : codec.size = 1) (delayNs : ℕ) :
    Coalesces (actions ++ [.enqueue codec.size.toUInt32]) (s.withPacket codec delayNs) where
  booked := hs.booked.enqueue rfl rfl
  ones := by
    intro size hsize
    rcases List.mem_append.mp hsize with hold | hnew
    · exact hs.ones size hold
    · rw [List.mem_singleton.mp hnew, hone]
      rfl
  packets := by
    have hnone : dequeues [QueueAction.enqueue codec.size.toUInt32] = [] := rfl
    rw [dequeues_append, hnone, List.append_nil]
    exact hs.packets

private theorem dequeues_map (sizes : List UInt32) : dequeues (sizes.map QueueAction.dequeue) = sizes := by
  induction sizes with
  | nil => rfl
  | cons size sizes ih => exact congrArg (size :: ·) ih

/-- The bytes that wait are as many as the frames. -/
theorem Coalesces.bytes (hs : Coalesces actions s) :
    s.rateShapingBuf = List.replicate s.rateShapingBuf.length 1 ∧
      s.rateShapingBytes = UInt32.ofNat s.rateShapingBuf.length := by
  have hbuf : s.rateShapingBuf = List.replicate s.rateShapingBuf.length 1 := List.eq_replicate_of_mem hs.ones
  refine ⟨hbuf, UInt32.toNat_inj.mp ?_⟩
  have hsum : s.buffered = s.rateShapingBuf.length := by
    have hone : (1 : UInt32).toNat = 1 := rfl
    rw [buffered, hbuf, List.map_replicate, List.sum_replicate, List.length_replicate, hone, smul_eq_mul, mul_one]
  rw [hs.booked.bytes, hsum, UInt32.toNat_ofNat']

/-- A larger frame goes to the socket, with those that wait. -/
theorem Coalesces.send (hs : Coalesces actions s) {codec : Codec ℚ} (hpos : 0 < codec.size) (hsize : codec.size ≤ 1000)
    (hmore : codec.size ≠ 1) {delayNs : ℕ} {bytesToSend : UInt32}
    (hsend : (s.withPacket codec delayNs).ccfsSendOverSleep bytesToSend = .ok s') :
    Coalesces (actions ++ .enqueue codec.size.toUInt32 ::
      (s.rateShapingBuf ++ [codec.size.toUInt32]).map .dequeue) s' := by
  obtain ⟨controller, ok, -, rfl⟩ := ccfsSendOverSleep_ok hsend
  obtain ⟨hbuf, hbytes⟩ := hs.bytes
  obtain ⟨bursts, hdequeues, hsocket⟩ := hs.packets
  have hword : codec.size.toUInt32.toNat = codec.size.toNat := by
    rw [UInt64.le_iff_toNat_le] at hsize
    have hbound : (1000 : UInt64).toNat = 1000 := rfl
    rw [UInt64.toNat_toUInt32]
    omega
  have hlarge : 1 < codec.size.toUInt32 := by
    have hone : codec.size.toNat ≠ 1 := fun he => hmore (UInt64.toNat_inj.mp he)
    have hzero : (0 : UInt64).toNat = 0 := rfl
    have hunit : (1 : UInt32).toNat = 1 := rfl
    rw [UInt64.lt_iff_toNat_lt] at hpos
    rw [UInt32.lt_iff_toNat_lt, hword]
    omega
  have hfits : codec.size.toUInt32 ≤ defaultPacketSize := by
    rw [UInt32.le_iff_toNat_le, hword]
    exact UInt64.le_iff_toNat_le.mp hsize
  have hqueued : Booked (actions ++ [.enqueue codec.size.toUInt32]) (s.withPacket codec delayNs) :=
    hs.booked.enqueue rfl rfl
  refine ⟨?_, by simp, bursts ++ [⟨s.rateShapingBuf.length, codec.size.toUInt32, hlarge, hfits⟩], ?_, ?_⟩
  · rw [← List.singleton_append, ← List.append_assoc]
    exact hqueued.dequeueAll rfl rfl
  · have hnone : dequeues [QueueAction.enqueue codec.size.toUInt32] = [] := rfl
    rw [← List.singleton_append, dequeues_append, dequeues_append, hnone, List.nil_append, dequeues_map, hdequeues,
      List.flatMap_append, List.flatMap_singleton, Burst.frames, ← hbuf]
  · have hpacket : (s.withPacket codec delayNs).rateShapingBytes = s.rateShapingBytes + codec.size.toUInt32 := rfl
    have hsame : (s.withPacket codec delayNs).socket = s.socket := rfl
    dsimp only
    rw [List.map_append, List.map_singleton, List.map_append, List.map_singleton, hsame, hsocket, Stream.mediaPacket,
      hpacket, hbytes]
    rfl

private theorem Coalesces.step (hs : Coalesces actions s) (harmed : CcfsArmed s) {event : SenderEvent ℚ}
    (h : s.ccfsStep rounds event = .ok s') : Coalesces (actions ++ s.ccfsActionsOf event) s' := by
  rcases harmed.step_cases h with ⟨codec, rand, next, simulator, rfl, -, -, h⟩ |
    ⟨atNs, rIPAddress, rport, packet, rfl, h⟩ | ⟨atNs, rfl, rfl⟩ | ⟨atNs, rfl, -, rfl⟩ | ⟨atNs, rfl, rfl⟩
  · have hrun : Coalesces actions { s with simulator } :=
      ⟨⟨hs.booked.bytes, hs.booked.fates⟩, hs.ones, hs.packets⟩
    obtain ⟨hpos, hsize, ⟨hone, rfl⟩ | ⟨hmore, hsend⟩⟩ := ccfsEnqueuePacket_cases h
    · rw [ccfsActionsOf, if_pos hone]
      exact hrun.keep hone _
    · rw [ccfsActionsOf, if_neg hmore]
      exact hrun.send hpos hsize hmore hsend
  · obtain ⟨n, header, left, controller, ok, -, -, rfl⟩ := ccfsRecvPacket_ok h
    exact hs.of_same rfl rfl rfl
  · exact hs.discard rfl rfl rfl
  · exact hs.of_same rfl rfl rfl
  · exact hs.discard rfl rfl rfl

/-- In every run of a sender with the CCFS controller: each frame of the codec has gone to the socket
in its turn, or been discarded by a pause or a stop, or waits, and only frames of one byte wait; and
each packet is made of the frames of one byte that waited and of the next larger one. -/
theorem ccfs_run_coalesces {start : CcfsSender} {events : List (SenderEvent ℚ)} (hstart : Started start)
    (hrun : run (ccfsStep rounds) start events = .ok s) :
    let actions := observed (ccfsStep rounds) ccfsActionsOf start events
    (∃ settled, replay actions = some ⟨settled, s.rateShapingBuf⟩ ∧
      enqueues actions = settled.map Prod.fst ++ s.rateShapingBuf ∧
      dequeues actions = (settled.filter fun e => e.2 = .dequeued).map Prod.fst) ∧
    (∀ size ∈ s.rateShapingBuf, size = 1) ∧ s.rateShapingBytes = UInt32.ofNat s.rateShapingBuf.length ∧
    ∃ bursts : List Burst, dequeues actions = bursts.flatMap Burst.frames ∧
      s.socket.map MediaPacket.size = bursts.map Burst.size := by
  obtain ⟨hbuf, hbytes, -⟩ := hstart.eq
  have hcoalesces : Coalesces (observed (ccfsStep rounds) ccfsActionsOf start events) s := by
    refine run_induction (ccfsStep rounds)
      (motive := fun events s => Coalesces (observed (ccfsStep rounds) ccfsActionsOf start events) s) ?_ ?_ hrun
    · refine ⟨⟨by simp [buffered, hbuf, hbytes], [], by rw [hbuf]; rfl⟩, by simp [hbuf], [], rfl, ?_⟩
      rw [hstart.socket]
      rfl
    · intro before event mid next hbefore hmid hstep
      rw [observed_snoc (ccfsStep rounds) ccfsActionsOf hbefore]
      exact hmid.step (ccfsArmed_run hstart hbefore) hstep
  obtain ⟨settled, hsettled⟩ := hcoalesces.booked.fates
  exact ⟨⟨settled, hsettled, accounts_of_replay hsettled⟩, hcoalesces.ones, hcoalesces.bytes.2, hcoalesces.packets⟩

theorem ccfs_run_coalesces_smallFrames :
    ∃ start s, ccfsSender 2000000 = .ok start ∧ run (ccfsStep 1) start smallFrames = .ok s ∧
      s.socket.map MediaPacket.size = [1002] ∧ ∃ bursts : List Burst,
        dequeues (observed (ccfsStep 1) ccfsActionsOf start smallFrames) = bursts.flatMap Burst.frames ∧
          s.socket.map MediaPacket.size = bursts.map Burst.size := by
  have hfacts : (ccfsSender 2000000 >>= fun start => run (ccfsStep 1) start smallFrames >>= fun s =>
      .ok (decide (s.socket.map MediaPacket.size = [1002]))) = .ok true := by
    decide +kernel
  obtain ⟨start, hstart, hfacts⟩ := bind_eq_ok.mp hfacts
  obtain ⟨s, hrun, hfacts⟩ := bind_eq_ok.mp hfacts
  have hsizes := of_decide_eq_true (Except.ok.inj hfacts)
  exact ⟨start, s, hstart, hrun, hsizes, (ccfs_run_coalesces (started_ccfsSender hstart) hrun).2.2.2⟩

end RmcatSender

end Ns3Rmcat.Sender
