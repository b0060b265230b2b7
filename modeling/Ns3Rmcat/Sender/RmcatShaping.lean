import Ns3Rmcat.Lib.QueueHistory
import Ns3Rmcat.Sender.RmcatSteps

/-! The rate shaping buffer of a sender is a queue: what becomes of the packets that are put into
it, when the send timer runs for it, and how long the count of its bytes is right. -/
namespace Ns3Rmcat.Sender
open Lib Header Controller

namespace RmcatSender
variable {C K : Type} {s s' : RmcatSender C K}

def buffered (s : RmcatSender C K) : ℕ := (s.rateShapingBuf.map UInt32.toNat).sum

def actionsOf (s : RmcatSender C K) : SenderEvent K → List (QueueAction UInt32)
  | .runNext codec _ =>
    match s.due with
    | some .enqueuePacket => [.enqueue codec.size.toUInt32]
    | some (.sendPacket _) => s.rateShapingBuf.head?.toList.map .dequeue
    | _ => []
  | .recvPacket _ _ _ _ => []
  | .pauseResume _ pause => if pause then [.discard] else []
  | .stopApplication _ => [.discard]

/-- What the sender keeps of its buffer after any actions: the count of bytes is a 32-bit word. -/
structure Booked (actions : List (QueueAction UInt32)) (s : RmcatSender C K) : Prop where
  bytes : s.rateShapingBytes.toNat = s.buffered % 2 ^ 32
  fates : ∃ settled, replay actions = some ⟨settled, s.rateShapingBuf⟩

theorem Booked.of_same {actions : List (QueueAction UInt32)} (hs : Booked actions s)
    (hbuf : s'.rateShapingBuf = s.rateShapingBuf) (hbytes : s'.rateShapingBytes = s.rateShapingBytes) :
    Booked (actions ++ []) s' := by
  rw [List.append_nil]
  exact ⟨by rw [hbytes, hs.bytes, buffered, buffered, hbuf], by rw [hbuf]; exact hs.fates⟩

theorem Booked.enqueue {actions : List (QueueAction UInt32)} (hs : Booked actions s) {size : UInt32}
    (hbuf : s'.rateShapingBuf = s.rateShapingBuf ++ [size])
    (hbytes : s'.rateShapingBytes = s.rateShapingBytes + size) : Booked (actions ++ [.enqueue size]) s' := by
  obtain ⟨settled, hsettled⟩ := hs.fates
  constructor
  · have hsum : s'.buffered = s.buffered + size.toNat := by simp [buffered, hbuf]
    rw [hbytes, hsum, UInt32.toNat_add, hs.bytes]
    omega
  · refine ⟨settled, ?_⟩
    rw [replay_append, hsettled, hbuf]
    rfl

private theorem Booked.dequeue {actions : List (QueueAction UInt32)} (hs : Booked actions s) {size : UInt32}
    {rest : List UInt32} (hfront : s.rateShapingBuf = size :: rest) (hle : size ≤ s.rateShapingBytes)
    (hbuf : s'.rateShapingBuf = rest) (hbytes : s'.rateShapingBytes = s.rateShapingBytes - size) :
    Booked (actions ++ [.dequeue size]) s' := by
  obtain ⟨settled, hsettled⟩ := hs.fates
  constructor
  · have hsum : s.buffered = size.toNat + s'.buffered := by simp [buffered, hfront, hbuf]
    have hold := hs.bytes
    have hlt := size.toNat_lt
    rw [hbytes, UInt32.toNat_sub_of_le _ _ hle]
    rw [UInt32.le_iff_toNat_le] at hle
    omega
  · refine ⟨settled ++ [(size, .dequeued)], ?_⟩
    rw [replay_append, hsettled, hfront, hbuf]
    simp [QueueHistory.add]

theorem Booked.discard {actions : List (QueueAction UInt32)} (hs : Booked actions s)
    (hbuf : s'.rateShapingBuf = []) (hbytes : s'.rateShapingBytes = 0) : Booked (actions ++ [.discard]) s' := by
  obtain ⟨settled, hsettled⟩ := hs.fates
  constructor
  · simp [buffered, hbuf, hbytes]
  · refine ⟨settled ++ s.rateShapingBuf.map fun size => (size, .discarded), ?_⟩
    rw [replay_append, hsettled, hbuf]
    rfl

/-- What runs next is what is due. -/
theorem due_of_runNext {next : Scheduled Handler} {simulator : Scheduler Handler}
    (h : s.simulator.runNext = some (next, simulator)) : s.due = some next.handler := by
  rw [due, h]
  rfl

variable [Field K] [LinearOrder K] [FloorSemiring K] {api : ControllerApi C K}

private theorem Booked.step {actions : List (QueueAction UInt32)} (hs : Booked actions s) {event : SenderEvent K}
    (h : s.step api event = .ok s') : Booked (actions ++ s.actionsOf event) s' := by
  rcases step_cases h with ⟨codec, rand, next, simulator, rfl, hnext, hcases⟩ |
    ⟨atNs, rIPAddress, rport, packet, rfl, controller, rVin, rSend, rfl⟩ | ⟨atNs, rfl, rfl⟩ | ⟨atNs, rfl, -, rfl⟩ |
    ⟨atNs, rfl, rfl⟩
  · have hdue := due_of_runNext hnext
    rcases hcases with ⟨hhandler, h⟩ | ⟨usSlept, hhandler, h⟩ | ⟨bytesToSend, hhandler, h⟩
    · have hactions : s.actionsOf (.runNext codec rand) = [.enqueue codec.size.toUInt32] := by
        simp [actionsOf, hdue, hhandler]
      rw [hactions]
      obtain ⟨-, -, hcases⟩ := enqueuePacket_cases h
      rcases hcases with ⟨-, delayNs, usSlept, rfl⟩ | ⟨-, rfl⟩
      · exact hs.enqueue rfl rfl
      · exact hs.enqueue rfl rfl
    · obtain ⟨bytesToSend, rest, overNs, hfront, hle, hcases⟩ := sendPacket_cases h
      dsimp only at hfront hle
      have hactions : s.actionsOf (.runNext codec rand) = [.dequeue bytesToSend] := by
        simp [actionsOf, hdue, hhandler, hfront]
      rw [hactions]
      rcases hcases with ⟨-, nextSendTstmpUs, rfl⟩ | ⟨-, delayNs, usSlept, rfl⟩
      · exact hs.dequeue hfront hle rfl rfl
      · exact hs.dequeue hfront hle rfl rfl
    · have hactions : s.actionsOf (.runNext codec rand) = [] := by simp [actionsOf, hdue, hhandler]
      rw [hactions]
      obtain ⟨controller, packet, rfl⟩ := sendOverSleep_cases h
      exact hs.of_same rfl rfl
  · exact hs.of_same rfl rfl
  · exact hs.discard rfl rfl
  · exact hs.of_same rfl rfl
  · exact hs.discard rfl rfl

private theorem booked_run {events : List (SenderEvent K)} {start : RmcatSender C K} (hstart : Started start)
    (hrun : run (step api) start events = .ok s) : Booked (observed (step api) actionsOf start events) s := by
  obtain ⟨hbuf, hbytes, -⟩ := hstart.eq
  refine run_induction (step api) (motive := fun events s => Booked (observed (step api) actionsOf start events) s)
    ⟨by simp [buffered, hbuf, hbytes], [], by rw [hbuf]; rfl⟩ ?_ hrun
  intro before event mid next hrun hmid hstep
  rw [observed_snoc (step api) actionsOf hrun]
  exact hmid.step hstep

/-- The buffer, its count and the send timer agree: after some actions on the buffer every packet
that was put into it has been taken out in its turn, or been discarded, or still waits there. -/
structure Shaped (actions : List (QueueAction UInt32)) (s : RmcatSender C K) : Prop where
  bytes : s.rateShapingBytes.toNat = s.buffered
  armed : s.rateShapingBuf ≠ [] ↔
    ∃ uid, s.sendEvent = some uid ∧ s.simulator.waiting Handler.isSendPacket = [uid]
  idle : s.rateShapingBuf = [] → s.simulator.waiting Handler.isSendPacket = []
  ready : ∀ usSlept, s.due = some (.sendPacket usSlept) →
    ∃ bytesToSend rest, s.rateShapingBuf = bytesToSend :: rest ∧ bytesToSend ≤ s.rateShapingBytes
  fates : ∃ settled, replay actions = some ⟨settled, s.rateShapingBuf⟩ ∧
    enqueues actions = settled.map Prod.fst ++ s.rateShapingBuf ∧
    dequeues actions = (settled.filter fun e => e.2 = .dequeued).map Prod.fst

omit [Field K] [LinearOrder K] [FloorSemiring K] in
private theorem shaped_iff_buffered {actions : List (QueueAction UInt32)} (harmed : Armed s)
    (hbooked : Booked actions s) :
    Shaped actions s ↔ s.buffered < 2 ^ 32 := by
  constructor
  · intro hshaped
    rw [← hshaped.bytes]
    exact s.rateShapingBytes.toNat_lt
  · intro hlt
    have hbytes : s.rateShapingBytes.toNat = s.buffered := by
      rw [hbooked.bytes, Nat.mod_eq_of_lt hlt]
    obtain ⟨settled, hsettled⟩ := hbooked.fates
    refine ⟨hbytes, ?_, harmed.buffer.mp, fun usSlept hdue => ?_, settled, hsettled, accounts_of_replay hsettled⟩
    · rw [ne_eq, harmed.buffer]
      rcases harmed.send.waiting_eq with hnil | ⟨uid, hid, hone⟩
      · simp [hnil]
      · simp [hone, hid]
    · obtain ⟨next, hnext, hhandler⟩ := Option.map_eq_some_iff.mp hdue
      cases hbuf : s.rateShapingBuf with
      | nil =>
        have hother := Scheduler.kind_of_runNext hnext (harmed.buffer.mp hbuf)
        rw [hhandler] at hother
        cases hother
      | cons bytesToSend rest =>
        refine ⟨bytesToSend, rest, rfl, ?_⟩
        rw [UInt32.le_iff_toNat_le, hbytes, buffered, hbuf, List.map_cons, List.sum_cons]
        exact Nat.le_add_right _ _

/-- A packet that is enqueued leaves less than 2^32 bytes in the buffer. -/
def Below (s : RmcatSender C K) : SenderEvent K → Prop
  | .runNext codec _ => s.due = some .enqueuePacket → s.buffered + codec.size.toNat < 2 ^ 32
  | _ => True

instance (s : RmcatSender C K) : (event : SenderEvent K) → Decidable (s.Below event)
  | .runNext codec _ => inferInstanceAs (Decidable (_ → s.buffered + codec.size.toNat < 2 ^ 32))
  | .recvPacket _ _ _ _ => inferInstanceAs (Decidable True)
  | .pauseResume _ _ => inferInstanceAs (Decidable True)
  | .stopApplication _ => inferInstanceAs (Decidable True)

private theorem buffered_step {event : SenderEvent K} (h : s.step api event = .ok s') (hlt : s.buffered < 2 ^ 32) :
    s'.buffered < 2 ^ 32 ↔ s.Below event := by
  rcases step_cases h with ⟨codec, rand, next, simulator, rfl, hnext, hcases⟩ |
    ⟨atNs, rIPAddress, rport, packet, rfl, controller, rVin, rSend, rfl⟩ | ⟨atNs, rfl, rfl⟩ | ⟨atNs, rfl, -, rfl⟩ |
    ⟨atNs, rfl, rfl⟩
  · have hdue := due_of_runNext hnext
    rcases hcases with ⟨hhandler, h⟩ | ⟨usSlept, hhandler, h⟩ | ⟨bytesToSend, hhandler, h⟩
    · obtain ⟨-, hsize, hcases⟩ := enqueuePacket_cases h
      have hsmall : codec.size.toUInt32.toNat = codec.size.toNat := by
        rw [UInt64.le_iff_toNat_le] at hsize
        rw [UInt64.toNat_toUInt32]
        simp only [UInt64.reduceToNat] at hsize
        omega
      have hsum : s'.buffered = s.buffered + codec.size.toNat := by
        rcases hcases with ⟨-, delayNs, usSlept, rfl⟩ | ⟨-, rfl⟩ <;>
          simp [buffered, withPacket, RmcatSender.scheduleSendPacket, scheduleEnqueuePacket, hsmall]
      rw [hsum, Below, hdue, hhandler]
      simp
    · obtain ⟨bytesToSend, rest, overNs, hfront, -, hcases⟩ := sendPacket_cases h
      have hsum : s.buffered = bytesToSend.toNat + s'.buffered := by
        dsimp only at hfront
        rcases hcases with ⟨-, nextSendTstmpUs, rfl⟩ | ⟨-, delayNs, usSlept, rfl⟩ <;>
          simp [buffered, withoutPacket, RmcatSender.scheduleSendPacket, scheduleSendOverSleep, hfront]
      refine iff_of_true (by omega) ?_
      rw [Below, hdue, hhandler]
      exact fun hother => by cases hother
    · obtain ⟨controller, packet, rfl⟩ := sendOverSleep_cases h
      refine iff_of_true hlt ?_
      rw [Below, hdue, hhandler]
      exact fun hother => by cases hother
  · exact iff_of_true hlt trivial
  · exact iff_of_true (by simp [buffered, RmcatSender.cancelAndClear]) trivial
  · exact iff_of_true hlt trivial
  · exact iff_of_true (by simp [buffered, RmcatSender.cancelAndClear]) trivial

private theorem buffered_run {events : List (SenderEvent K)} {start : RmcatSender C K}
    (hstart : start.buffered < 2 ^ 32) (hrun : run (step api) start events = .ok s) :
    (∀ before, before <+: events → ∀ mid, run (step api) start before = .ok mid → mid.buffered < 2 ^ 32) ↔
      Along (step api) Below start events := by
  induction events using List.reverseRecOn generalizing s with
  | nil =>
    refine iff_of_true (fun before hbefore mid hmid => ?_) (along_nil _ _)
    rw [List.prefix_nil.mp hbefore] at hmid
    cases hmid
    exact hstart
  | append_singleton events event ih =>
    obtain ⟨last, hlast, hstep⟩ := (run_snoc _).mp hrun
    constructor
    · intro hall
      have hinit : ∀ before, before <+: events → ∀ mid, run (step api) start before = .ok mid →
          mid.buffered < 2 ^ 32 := fun before hbefore => hall before (hbefore.trans (List.prefix_append _ _))
      refine ((ih hlast).mp hinit).snoc fun mid hmid => ?_
      cases hlast.symm.trans hmid
      exact (buffered_step hstep (hinit events List.prefix_rfl last hlast)).mp (hall _ List.prefix_rfl s hrun)
    · intro halong before hbefore mid hmid
      have hinit := (ih hlast).mpr halong.init
      rcases List.prefix_concat_iff.mp hbefore with rfl | hbefore
      · cases hrun.symm.trans hmid
        exact (buffered_step hstep (hinit events List.prefix_rfl last hlast)).mpr (halong.last hlast)
      · exact hinit before hbefore mid hmid

/-- In a run of a sender its buffer, the count of its bytes and its send timer agree in every state
exactly when no packet that is enqueued brings the buffer to 2^32 bytes. -/
theorem shaped_iff {events : List (SenderEvent K)} {start : RmcatSender C K} (hstart : Started start)
    (hrun : run (step api) start events = .ok s) :
    (∀ before, before <+: events → ∀ mid, run (step api) start before = .ok mid →
      Shaped (observed (step api) actionsOf start before) mid) ↔ Along (step api) Below start events := by
  have hzero : start.buffered < 2 ^ 32 := by simp [buffered, hstart.eq.1]
  rw [← buffered_run hzero hrun]
  refine forall_congr' fun before => imp_congr_right fun _ => forall_congr' fun mid => imp_congr_right fun hmid => ?_
  exact shaped_iff_buffered (armed_run hstart hmid) (booked_run hstart hmid)

/-- Two packets that are sent, a pause that discards two others, and one after it. -/
def shapedEvents : List (SenderEvent ℚ) :=
  [.runNext ⟨1000, 1 / 100, true⟩ 0, .runNext ⟨1, 1, true⟩ 99, .runNext ⟨1, 1, true⟩ 0,
    .runNext ⟨1, 1 / 100, true⟩ 0, .runNext ⟨1000, 1 / 100, true⟩ 0, .runNext ⟨400, 1, true⟩ 0,
    .runNext ⟨1, 1, true⟩ 99, .pauseResume 53350000 true, .pauseResume 60000000 false,
    .runNext ⟨700, 1, true⟩ 0]

theorem shaped_iff_paused : ∃ start s, Started start ∧ run (step dummyApi) start shapedEvents = .ok s ∧
    ∀ before, before <+: shapedEvents → ∀ mid, run (step dummyApi) start before = .ok mid →
      Shaped (observed (step dummyApi) actionsOf start before) mid := by
  have hfacts : (dummySender 150000 >>= fun start => run (step dummyApi) start shapedEvents >>= fun _ =>
      .ok (decide (Along (step dummyApi) Below start shapedEvents))) = .ok true := by
    decide +kernel
  obtain ⟨start, hstart, hfacts⟩ := bind_eq_ok.mp hfacts
  obtain ⟨s, hrun, hfacts⟩ := bind_eq_ok.mp hfacts
  have hstarted := started_dummySender hstart
  refine ⟨start, s, hstarted, hrun, (shaped_iff hstarted hrun).mpr ?_⟩
  exact of_decide_eq_true (Except.ok.inj hfacts)

/-- A packet of 1000 bytes, and the next one a millisecond later. -/
def everyMillisecond : Codec ℚ := ⟨1000, 1 / 1000, true⟩

private theorem seconds_everyMillisecond : seconds everyMillisecond.secs = 1000000 := by
  have hsecs : (1 / 1000 : ℚ) * 1000000000 = ((1000000 : ℕ) : ℚ) := by norm_num
  rw [seconds, everyMillisecond, hsecs, Nat.floor_natCast]

/-- The send timer waits for one time, with packets in the buffer, and the next packet comes at
another. -/
structure Piling (sendNs atNs : ℕ) (s : RmcatSender C ℚ) : Prop where
  nonempty : s.rateShapingBuf ≠ []
  pending : ∃ sendUid usSlept enqueueUid, s.simulator.pending =
    [⟨sendUid, sendNs, .sendPacket usSlept⟩, ⟨enqueueUid, atNs, .enqueuePacket⟩]

private theorem Piling.step (api : ControllerApi C ℚ) {sendNs atNs : ℕ} {s : RmcatSender C ℚ}
    (hs : Piling sendNs atNs s)
    (hlt : atNs < sendNs) : ∃ s', s.step api (.runNext everyMillisecond 0) = .ok s' ∧
      Piling sendNs (atNs + 1000000) s' ∧ s'.buffered = s.buffered + 1000 := by
  obtain ⟨sendUid, usSlept, enqueueUid, hpending⟩ := hs.pending
  have hdistinct : sendUid ≠ enqueueUid := by
    have hnodup := s.simulator.distinct
    rw [hpending] at hnodup
    simpa using hnodup
  have hfirst : earliest s.simulator.pending = some ⟨enqueueUid, atNs, .enqueuePacket⟩ := by
    have hbefore : (⟨enqueueUid, atNs, .enqueuePacket⟩ : Scheduled Handler).before
        ⟨sendUid, sendNs, .sendPacket usSlept⟩ = true := by simp [Scheduled.before, hlt]
    simp [hpending, earliest, hbefore]
  obtain ⟨simulator, hnext⟩ := Scheduler.exists_runNext hfirst
  obtain ⟨-, hnow, -, hrest⟩ := Scheduler.runNext_eq hnext
  have hpos : 0 < everyMillisecond.size := by decide
  obtain ⟨next, henqueue⟩ := enqueuePacket_returns (s := { s with simulator }) hpos (by decide)
  refine ⟨next, ?_, ?_⟩
  · rw [RmcatSender.step, hnext]
    exact henqueue
  · obtain ⟨-, -, hcases⟩ := enqueuePacket_cases henqueue
    rcases hcases with ⟨hempty, -⟩ | ⟨-, rfl⟩
    · exact absurd hempty hs.nonempty
    · refine ⟨⟨by simp [withPacket, scheduleEnqueuePacket], sendUid, usSlept, simulator.nextUid, ?_⟩, ?_⟩
      · simp [withPacket, scheduleEnqueuePacket, Scheduler.schedule, hrest, hpending, hdistinct, hnow,
          seconds_everyMillisecond]
      · simp [buffered, withPacket, scheduleEnqueuePacket, everyMillisecond]

private theorem Piling.run (api : ControllerApi C ℚ) (n : ℕ) {sendNs atNs : ℕ} {s : RmcatSender C ℚ}
    (hs : Piling sendNs atNs s) (hlate : atNs + n * 1000000 ≤ sendNs) :
    ∃ s', Lib.run (RmcatSender.step api) s (List.replicate n (.runNext everyMillisecond 0)) = .ok s' ∧
      s'.buffered = s.buffered + n * 1000 := by
  induction n generalizing s atNs with
  | zero => exact ⟨s, rfl, by simp⟩
  | succ n ih =>
    obtain ⟨next, hstep, hnext, hmore⟩ := hs.step api (by omega)
    obtain ⟨s', hrun, hsum⟩ := ih hnext (by omega)
    exact ⟨s', bind_eq_ok.mpr ⟨next, hstep, hrun⟩, by omega⟩

/-- At one bit per second the second packet has to wait for 8000 seconds, in which 4294966 more
packets come. -/
theorem byte_count_wraps :
    ¬ ∀ (start s : RmcatSender (DummyController ℚ) ℚ) (events : List (SenderEvent ℚ)), Started start →
      run (step dummyApi) start events = .ok s → Shaped (observed (step dummyApi) actionsOf start events) s := by
  intro hall
  have hfacts : (dummySender 1 >>= fun start => run (step dummyApi) start (List.replicate 5 (.runNext everyMillisecond 0))
      >>= fun s => .ok (decide (s.simulator.pending = [⟨5, 8000000000000, .sendPacket 7999999000⟩,
        ⟨6, 3000000, .enqueuePacket⟩] ∧ s.rateShapingBuf = [1000, 1000]))) = .ok true := by
    decide +kernel
  obtain ⟨start, hstart, hfacts⟩ := bind_eq_ok.mp hfacts
  obtain ⟨mid, hmid, hfacts⟩ := bind_eq_ok.mp hfacts
  obtain ⟨hpending, hbuf⟩ := of_decide_eq_true (Except.ok.inj hfacts)
  have hpiling : Piling 8000000000000 3000000 mid := ⟨by simp [hbuf], _, _, _, hpending⟩
  obtain ⟨s, hrun, hsum⟩ := hpiling.run dummyApi 4294966 (by omega)
  have hwhole : run (step dummyApi) start (List.replicate 5 (.runNext everyMillisecond 0) ++
      List.replicate 4294966 (.runNext everyMillisecond 0)) = .ok s := by
    rw [run_append, hmid, ok_bind, hrun]
  have hbytes := (hall start s _ (started_dummySender hstart) hwhole).bytes
  have hlt := s.rateShapingBytes.toNat_lt
  rw [hbytes, hsum, buffered, hbuf] at hlt
  simp at hlt

end RmcatSender

end Ns3Rmcat.Sender
