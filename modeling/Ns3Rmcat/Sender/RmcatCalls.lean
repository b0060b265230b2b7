import Ns3Rmcat.Sender.RmcatSteps
import Ns3Rmcat.Controller.SenderBasedRun

/-! What a sender tells its controller, and what it gives to the socket. The controllers have a
base controller inside, which every call reaches; so that the packets on the socket are those
which the base controller has been told of, in order, and its invariant holds in every run. -/
namespace Ns3Rmcat.Sender
open Lib Header Controller

section Base
variable {C K : Type}

/-- The items of a report, from the metrics that it has for the sender's own number. -/
def feedbackItems (feedback : List (UInt16 × CCFeedback.MetricBlock)) : List FeedbackItem :=
  feedback.map fun item => { sequence := item.1, rxTimestampUs := item.2.timestampUs, ecn := item.2.ecn }

/-- The calls that some items of a batch come to. -/
def feedbackCalls (nowUs : UInt64) (items : List FeedbackItem) : List ControllerCall :=
  items.map fun item => .feedback nowUs item.sequence item.rxTimestampUs item.ecn

@[simp] theorem sentPackets_feedbackCalls (nowUs : UInt64) (items : List FeedbackItem) :
    sentPackets (feedbackCalls nowUs items) = [] := by
  simp [sentPackets, feedbackCalls, List.filterMap_map]

/-- A controller with a base controller inside, which every send reaches, and every item of a
batch up to the one that is refused. -/
structure OverBase (api : ControllerApi C K) (base : C → SenderBasedController K) : Prop where
  send : ∀ {c c' : C} {nowUs : UInt64} {sequence : UInt16} {size : UInt32} {ok : Bool},
    api.processSendPacket c nowUs sequence size = .ok (ok, c') →
      (base c).step (.send nowUs sequence size) = .ok (base c')
  batch : ∀ {c c' : C} {nowUs : UInt64} {items : List FeedbackItem} {ok : Bool},
    api.processFeedbackBatch c nowUs items = .ok (ok, c') →
      ∃ taken, taken <+: items ∧
        run SenderBasedController.step (base c) (feedbackCalls nowUs taken) = .ok (base c')

private theorem items_overBase {S : Type} (base : S → SenderBasedController K) {nowUs : UInt64}
    {processFeedback : S → UInt64 → UInt16 → UInt64 → UInt8 → Checked (Bool × S)}
    (hitem : ∀ {s s' : S} {sequence : UInt16} {rxTimestampUs : UInt64} {ecn : UInt8} {ok : Bool},
      processFeedback s nowUs sequence rxTimestampUs ecn = .ok (ok, s') →
        (base s).step (.feedback nowUs sequence rxTimestampUs ecn) = .ok (base s'))
    {items : List FeedbackItem} {s s' : S} {ok : Bool}
    (h : Controller.processFeedbackBatch processFeedback nowUs s items = .ok (ok, s')) :
    ∃ taken, taken <+: items ∧
      run SenderBasedController.step (base s) (feedbackCalls nowUs taken) = .ok (base s') := by
  induction items generalizing s with
  | nil =>
    cases h
    exact ⟨[], List.prefix_rfl, rfl⟩
  | cons item items ih =>
    obtain ⟨-, h⟩ := check_bind_eq_ok.mp h
    obtain ⟨⟨accepted, mid⟩, hmid, h⟩ := bind_eq_ok.mp h
    have hbase := hitem hmid
    dsimp only at h
    split at h
    · obtain ⟨taken, htaken, hrun⟩ := ih h
      refine ⟨item :: taken, (List.prefix_cons_inj item).mpr htaken, ?_⟩
      exact bind_eq_ok.mpr ⟨base mid, hbase, hrun⟩
    · cases h
      refine ⟨[item], by simp, ?_⟩
      exact bind_eq_ok.mpr ⟨_, hbase, rfl⟩

theorem overBase_dummy [Field K] : OverBase (dummyApi (K := K)) DummyController.base where
  send h := by
    obtain ⟨⟨ok, base⟩, hbase, he⟩ := bind_eq_ok.mp h
    cases he
    exact bind_eq_ok.mpr ⟨_, hbase, rfl⟩
  batch h := by
    refine items_overBase DummyController.base (fun hitem => ?_) h
    exact bind_eq_ok.mpr ⟨_, DummyController.processFeedback_base hitem, rfl⟩

variable [Field K] [LinearOrder K] {exp : K → K}

private theorem updateRate_base {s s' : NadaController K} {nowUs : UInt64} (h : s.updateRate exp nowUs = .ok s') :
    s'.base = s.base := congrArg Prod.fst (NadaController.updateRate_frame h)

/-- A calculation of the rate does not change what is known about the packets. -/
theorem overBase_nada : OverBase (nadaApi exp) NadaController.base where
  send h := by
    obtain ⟨accepted, base, lastTimeCalcUs, valid, hbase, rfl⟩ := NadaController.processSendPacket_ok h
    exact bind_eq_ok.mpr ⟨_, hbase, rfl⟩
  batch h := by
    obtain ⟨accepted, mid, hitems, hcases⟩ := NadaController.processFeedbackBatch_ok h
    obtain ⟨taken, htaken, hrun⟩ := items_overBase NadaController.base (fun hitem => by
      obtain ⟨accepted, base, hbase, hcases⟩ := NadaController.processFeedback_ok hitem
      refine bind_eq_ok.mpr ⟨(accepted, base), hbase, ?_⟩
      rcases hcases with ⟨-, last, valid, rfl⟩ | ⟨-, hrate⟩
      · rfl
      · rw [updateRate_base hrate]
        rfl) hitems
    refine ⟨taken, htaken, ?_⟩
    rcases hcases with ⟨-, last, valid, rfl⟩ | ⟨-, hrate⟩
    · exact hrun
    · rw [updateRate_base hrate]
      exact hrun

end Base

def SenderEvent.isRecvPacket {K : Type} : SenderEvent K → Bool
  | .recvPacket .. => true
  | _ => false

namespace RmcatSender
variable {C K : Type}

/-- What stays the same of a sender: the fields of its packets, and where they go. -/
structure Stream where
  ssrc : UInt32
  rtpTsOffset : UInt32
  destIP : UInt32
  destPort : UInt16
  deriving DecidableEq

def stream (s : RmcatSender C K) : Stream := ⟨s.ssrc, s.rtpTsOffset, s.destIP, s.destPort⟩

/-- The packet that the socket is given when the controller is told of one. -/
def Stream.mediaPacket (stream : Stream) (p : PacketRecord) : MediaPacket where
  header := { RtpHeader.ofPayloadType 96 with
    sequence := p.sequence
    timestamp := stream.rtpTsOffset + (p.txTimestampUs * 90 / 1000).toUInt32
    ssrc := stream.ssrc }
  size := p.size
  destIP := stream.destIP
  destPort := stream.destPort

/-- From one state of a sender to a later one, in which its base controller has had some calls. -/
structure Follows (base : C → SenderBasedController K) (s s' : RmcatSender C K) (calls : List ControllerCall) :
    Prop where
  clock : s.simulator.nowNs ≤ s'.simulator.nowNs
  stream : s'.stream = s.stream
  controller : run SenderBasedController.step (base s.controller) calls = .ok (base s'.controller)
  sequence : s'.sequence = s.sequence + UInt16.ofNat (sentPackets calls).length
  socket : s'.socket = s.socket ++ (sentPackets calls).map s.stream.mediaPacket
  /-- A packet is sent with the next number, at the time of the event, and alone. -/
  sent : sentPackets calls = [] ∨ ∃ size, sentPackets calls = [⟨s.sequence, s'.nowUs, size, 0, 0⟩]

section Steps
variable {base : C → SenderBasedController K} {api : ControllerApi C K} {s mid s' : RmcatSender C K}

theorem Follows.silent (hclock : s.simulator.nowNs ≤ s'.simulator.nowNs) (hstream : s'.stream = s.stream)
    (hcontroller : s'.controller = s.controller) (hsequence : s'.sequence = s.sequence)
    (hsocket : s'.socket = s.socket) : Follows base s s' [] where
  clock := hclock
  stream := hstream
  controller := by
    rw [hcontroller]
    rfl
  sequence := hsequence.trans (UInt16.add_zero _).symm
  socket := hsocket.trans (List.append_nil _).symm
  sent := .inl rfl

theorem Follows.of_frame (h : Follows base mid s' calls) (hclock : s.simulator.nowNs ≤ mid.simulator.nowNs)
    (hstream : mid.stream = s.stream) (hcontroller : mid.controller = s.controller)
    (hsequence : mid.sequence = s.sequence) (hsocket : mid.socket = s.socket) : Follows base s s' calls where
  clock := hclock.trans h.clock
  stream := h.stream.trans hstream
  controller := hcontroller ▸ h.controller
  sequence := hsequence ▸ h.sequence
  socket := by
    rw [h.socket, hsocket, hstream]
  sent := hsequence ▸ h.sent

private theorem sendOverSleep_follows (hover : OverBase api base) {bytesToSend : UInt32}
    (h : s.sendOverSleep api bytesToSend = .ok s') :
    Follows base s s' [.send s.nowUs s.sequence bytesToSend] := by
  obtain ⟨⟨ok, controller⟩, hsend, he⟩ := bind_eq_ok.mp h
  cases he
  constructor
  · exact Nat.le_refl _
  · rfl
  · exact bind_eq_ok.mpr ⟨_, hover.send hsend, rfl⟩
  · rfl
  · rfl
  · exact .inr ⟨bytesToSend, rfl⟩

variable [Field K] [LinearOrder K] [FloorSemiring K]

private theorem enqueuePacket_follows {codec : Codec K} (h : s.enqueuePacket codec = .ok s') : Follows base s s' [] :=
    by
  obtain ⟨-, -, hcases⟩ := enqueuePacket_cases h
  rcases hcases with ⟨-, delayNs, usSlept, rfl⟩ | ⟨-, rfl⟩
  · exact Follows.silent (Nat.le_refl _) rfl rfl rfl rfl
  · exact Follows.silent (Nat.le_refl _) rfl rfl rfl rfl

private theorem sendPacket_follows {usSlept rand : UInt64} (h : s.sendPacket usSlept rand = .ok s') :
    Follows base s s' [] := by
  obtain ⟨bytesToSend, rest, overNs, -, -, hcases⟩ := sendPacket_cases h
  rcases hcases with ⟨-, nextSendTstmpUs, rfl⟩ | ⟨-, delayNs, usSlept, rfl⟩
  · exact Follows.silent (Nat.le_refl _) rfl rfl rfl rfl
  · exact Follows.silent (Nat.le_refl _) rfl rfl rfl rfl

omit [FloorSemiring K] in
/-- What a sender does with a packet that comes from the receiver: it has been read into a fresh
header, and the controller has had some of the items for the sender's own number. -/
theorem recvPacket_follows (hover : OverBase api base) {rIPAddress : UInt32} {rport : UInt16} {packet : Octets}
    (h : s.recvPacket api rIPAddress rport packet = .ok s') :
    ∃ n header left, CCFeedbackHeader.fresh.deserialize packet = .ok (n, header, left) ∧
      ((s.ssrc ∉ header.getSsrcList ∧ Follows base s s' []) ∨
        ∃ feedback taken, header.getMetricList s.ssrc = .ok (some feedback) ∧ taken <+: feedbackItems feedback ∧
          Follows base s s' (feedbackCalls s.nowUs taken)) := by
  simp only [recvPacket] at h
  obtain ⟨-, h⟩ := check_bind_eq_ok.mp h
  obtain ⟨-, h⟩ := check_bind_eq_ok.mp h
  obtain ⟨⟨n, header, left⟩, hread, h⟩ := bind_eq_ok.mp h
  refine ⟨n, header, left, hread, ?_⟩
  dsimp only at h
  split at h
  · rename_i hother
    obtain ⟨rVin, rSend, he⟩ := calcBufferParams_frame api s s.nowUs
    rw [he] at h
    cases h
    exact .inl ⟨by simpa using hother, Follows.silent (Nat.le_refl _) rfl rfl rfl rfl⟩
  · obtain ⟨feedback, hlist, h⟩ := bind_eq_ok.mp h
    cases feedback with
    | none => cases h
    | some feedback =>
      obtain ⟨⟨ok, controller⟩, hbatch, h⟩ := bind_eq_ok.mp h
      obtain ⟨rVin, rSend, he⟩ := calcBufferParams_frame api { s with controller } s.nowUs
      dsimp only at h
      rw [he] at h
      cases h
      obtain ⟨taken, htaken, hrun⟩ := hover.batch hbatch
      refine .inr ⟨feedback, taken, hlist, htaken, Nat.le_refl _, rfl, hrun, ?_, ?_, ?_⟩
      · rw [sentPackets_feedbackCalls]
        exact (UInt16.add_zero _).symm
      · rw [sentPackets_feedbackCalls]
        exact (List.append_nil _).symm
      · exact .inl (sentPackets_feedbackCalls _ _)

/-- An event that is no packet from the receiver makes no call, or sends a packet. -/
theorem step_sends (hover : OverBase api base) {event : SenderEvent K}
    (hevent : event.isRecvPacket = false) (h : s.step api event = .ok s') :
    Follows base s s' [] ∨ ∃ size, Follows base s s' [.send s'.nowUs s.sequence size] := by
  cases event with
  | runNext codec rand =>
    rw [RmcatSender.step] at h
    split at h
    · cases h
    · rename_i next simulator hnext
      have hclock := Scheduler.nowNs_le_runNext hnext
      have hframe {calls : List ControllerCall} (hmid : Follows base { s with simulator } s' calls) :
          Follows base s s' calls := hmid.of_frame hclock rfl rfl rfl rfl
      cases hhandler : next.handler with
      | enqueuePacket =>
        rw [hhandler] at h
        exact .inl (hframe (enqueuePacket_follows h))
      | sendPacket usSlept =>
        rw [hhandler] at h
        exact .inl (hframe (sendPacket_follows h))
      | sendOverSleep bytesToSend =>
        rw [hhandler] at h
        have hsend := hframe (sendOverSleep_follows hover h)
        obtain ⟨controller, packet, rfl⟩ := sendOverSleep_cases h
        exact .inr ⟨bytesToSend, hsend⟩
  | recvPacket atNs rIPAddress rport packet => cases hevent
  | pauseResume atNs pause =>
    have hclock := s.simulator.nowNs_le_waitUntil atNs
    cases pause with
    | true =>
      rw [pauseResume_true h]
      exact .inl (Follows.silent hclock rfl rfl rfl rfl)
    | false =>
      rw [(pauseResume_false h).2]
      exact .inl (Follows.silent hclock rfl rfl rfl rfl)
  | stopApplication atNs =>
    cases h
    exact .inl (Follows.silent (s.simulator.nowNs_le_waitUntil atNs) rfl rfl rfl rfl)

/-- Every event tells the base controller of some calls, and the socket of what is sent in them. -/
theorem step_follows (hover : OverBase api base) {event : SenderEvent K} (h : s.step api event = .ok s') :
    ∃ calls, Follows base s s' calls := by
  cases hevent : event.isRecvPacket with
  | false =>
    rcases step_sends hover hevent h with hsilent | ⟨size, hsend⟩
    · exact ⟨_, hsilent⟩
    · exact ⟨_, hsend⟩
  | true =>
    cases event with
    | recvPacket atNs rIPAddress rport packet =>
      have hclock := s.simulator.nowNs_le_waitUntil atNs
      obtain ⟨n, header, left, -, ⟨-, hmid⟩ | ⟨feedback, taken, -, -, hmid⟩⟩ := recvPacket_follows hover h
      · exact ⟨_, hmid.of_frame hclock rfl rfl rfl rfl⟩
      · exact ⟨_, hmid.of_frame hclock rfl rfl rfl rfl⟩
    | _ => cases hevent

end Steps

/-- The packets that have been sent by a sender that began with some number: the numbers follow
each other, and no time is later than the next one or the clock. -/
structure Numbered (first : UInt16) (nowUs : ℕ) (sent : List PacketRecord) : Prop where
  sequence : ∀ (i : ℕ) (p : PacketRecord), sent[i]? = some p → p.sequence = first + UInt16.ofNat i
  sorted : sent.Pairwise fun p q => p.txTimestampUs.toNat ≤ q.txTimestampUs.toNat
  past : ∀ p ∈ sent, p.txTimestampUs.toNat ≤ nowUs

private theorem numbered_nil (first : UInt16) (nowUs : ℕ) : Numbered first nowUs [] :=
  ⟨by simp, List.Pairwise.nil, by simp⟩

private theorem Numbered.later {first : UInt16} {nowUs laterUs : ℕ} {sent : List PacketRecord}
    (h : Numbered first nowUs sent) (hle : nowUs ≤ laterUs) : Numbered first laterUs sent :=
  ⟨h.sequence, h.sorted, fun p hp => (h.past p hp).trans hle⟩

/-- What is found in a list with one more element is found in the list, or is that element. -/
theorem getElem?_snoc {A : Type} {list : List A} {last a : A} {i : ℕ} (h : (list ++ [last])[i]? = some a) :
    list[i]? = some a ∨ i = list.length ∧ a = last := by
  rw [List.getElem?_append] at h
  split at h
  · exact .inl h
  · rename_i hi
    rw [List.getElem?_singleton] at h
    split at h
    · rename_i hzero
      cases h
      exact .inr ⟨by omega, rfl⟩
    · cases h

private theorem Numbered.snoc {first : UInt16} {nowUs : ℕ} {sent : List PacketRecord} {packet : PacketRecord}
    (h : Numbered first nowUs sent) (hsequence : packet.sequence = first + UInt16.ofNat sent.length)
    (htime : packet.txTimestampUs.toNat = nowUs) : Numbered first nowUs (sent ++ [packet]) := by
  refine ⟨fun i p hp => ?_, ?_, fun p hp => ?_⟩
  · rcases getElem?_snoc hp with hold | ⟨rfl, rfl⟩
    · exact h.sequence i p hold
    · exact hsequence
  · rw [List.pairwise_append]
    refine ⟨h.sorted, List.pairwise_singleton _ _, fun p hp q hq => ?_⟩
    rw [List.mem_singleton.mp hq, htime]
    exact h.past p hp
  · rcases List.mem_append.mp hp with hold | hnew
    · exact h.past p hold
    · rw [List.mem_singleton.mp hnew, htime]

private theorem Numbered.sentInOrder {first : UInt16} {nowUs : ℕ} {sent : List PacketRecord}
    (h : Numbered first nowUs sent) (hclock : nowUs < 2 ^ 62) : SentInOrder sent where
  consecutive := by
    refine List.isChain_iff_getElem.mpr fun i hi => ?_
    rw [h.sequence i _ (List.getElem?_eq_getElem (by omega)), h.sequence (i + 1) _ (List.getElem?_eq_getElem hi),
      UInt16.add_assoc, UInt16.ofNat_add]
    rfl
  timeOrdered := ⟨h.sorted, fun p hp => (h.past p hp).trans_lt hclock⟩

/-- The clock of a sender, in microseconds and without the end of a 64-bit word. -/
def clockUs (s : RmcatSender C K) : ℕ := s.simulator.nowNs / 1000

theorem toNat_nowUs {s : RmcatSender C K} (h : s.clockUs < 2 ^ 62) : s.nowUs.toNat = s.clockUs := by
  rw [nowUs, UInt64.toNat_ofNat']
  exact Nat.mod_eq_of_lt (h.trans (by norm_num))

/-- The rates of a base controller are set after it has been constructed, and that is all. -/
def IsNew [Field K] (controller : SenderBasedController K) : Prop :=
  ∃ initBw minBw maxBw, controller = ((SenderBasedController.fresh.setInitBw initBw).setMinBw minBw).setMaxBw maxBw

theorem IsNew.runInvariant [Field K] {controller : SenderBasedController K} (h : IsNew controller) :
    SenderBasedController.RunInvariant [] controller := by
  obtain ⟨initBw, minBw, maxBw, rfl⟩ := h
  have hfresh := SenderBasedController.RunInvariant.start (K := K)
  exact ⟨hfresh.firstSend, hfresh.lastSequence, hfresh.order, hfresh.window, hfresh.pktSizeSum,
    hfresh.historyLengthUs⟩

/-- The socket and the base controller of a sender after some calls of the controller: the packets
on the socket are those that the controller has been told of, and the controller is in order. -/
structure InStep (base : C → SenderBasedController K) (start s : RmcatSender C K) (calls : List ControllerCall) :
    Prop where
  clock : start.simulator.nowNs ≤ s.simulator.nowNs
  stream : s.stream = start.stream
  controller : run SenderBasedController.step (base start.controller) calls = .ok (base s.controller)
  sequence : s.sequence = start.sequence + UInt16.ofNat (sentPackets calls).length
  socket : s.socket = (sentPackets calls).map start.stream.mediaPacket
  numbered : Numbered start.sequence s.clockUs (sentPackets calls)
  invariant : SenderBasedController.RunInvariant (sentPackets calls) (base s.controller)

private theorem runInvariant_append {calls more : List ControllerCall} {s s' : SenderBasedController K}
    (hsent : SentInOrder (sentPackets (calls ++ more))) (h : SenderBasedController.RunInvariant (sentPackets calls) s)
    (hrun : run SenderBasedController.step s more = .ok s') :
    SenderBasedController.RunInvariant (sentPackets (calls ++ more)) s' := by
  refine run_induction SenderBasedController.step (motive := fun more s' =>
    SentInOrder (sentPackets (calls ++ more)) →
      SenderBasedController.RunInvariant (sentPackets (calls ++ more)) s') ?_ ?_ hrun hsent
  · intro _
    rwa [List.append_nil]
  · intro more call mid next _ ih hstep hsent
    rw [← List.append_assoc] at hsent ⊢
    refine SenderBasedController.step_invariant hsent (ih ?_) hstep
    rw [sentPackets_append] at hsent
    exact hsent.init

section Runs
variable {base : C → SenderBasedController K} {api : ControllerApi C K} {start s s' : RmcatSender C K}
  {calls more : List ControllerCall}

theorem InStep.follows (h : InStep base start s calls) (hnext : Follows base s s' more)
    (hclock : s'.clockUs < 2 ^ 62) : InStep base start s' (calls ++ more) := by
  have hlater : s.clockUs ≤ s'.clockUs := Nat.div_le_div_right hnext.clock
  have hnumbered : Numbered start.sequence s'.clockUs (sentPackets (calls ++ more)) := by
    rw [sentPackets_append]
    rcases hnext.sent with hnone | ⟨size, hone⟩
    · rw [hnone, List.append_nil]
      exact h.numbered.later hlater
    · rw [hone]
      exact (h.numbered.later hlater).snoc h.sequence (toNat_nowUs hclock)
  constructor
  · exact h.clock.trans hnext.clock
  · exact hnext.stream.trans h.stream
  · rw [run_append, h.controller, ok_bind]
    exact hnext.controller
  · rw [hnext.sequence, h.sequence, sentPackets_append, List.length_append, UInt16.ofNat_add, UInt16.add_assoc]
  · rw [hnext.socket, h.socket, h.stream, sentPackets_append, List.map_append]
  · exact hnumbered
  · exact runInvariant_append (hnumbered.sentInOrder hclock) h.invariant hnext.controller

theorem inStep_start (hsocket : start.socket = []) (hinvariant : SenderBasedController.RunInvariant [] (base start.controller)) :
    InStep base start start [] where
  clock := Nat.le_refl _
  stream := rfl
  controller := rfl
  sequence := (UInt16.add_zero _).symm
  socket := hsocket
  numbered := numbered_nil _ _
  invariant := hinvariant

variable [Field K] [LinearOrder K]

omit [Field K] in
private theorem startApplication_fields {ssrc : UInt32} {sequence : UInt16} {rtpTsOffset : UInt32}
    (h : s.startApplication ssrc sequence rtpTsOffset = .ok s') :
    s'.controller = s.controller ∧ s'.socket = s.socket := by
  obtain ⟨-, h⟩ := check_bind_eq_ok.mp h
  obtain ⟨-, h⟩ := check_bind_eq_ok.mp h
  cases h
  exact ⟨rfl, rfl⟩

theorem Started.socket (hs : Started start) : start.socket = [] := by
  obtain ⟨codec, controller, destIP, destPort, initBw, minBw, maxBw, nowNs, ssrc, sequence, rtpTsOffset, h⟩ := hs
  exact (startApplication_fields h).2

variable [FloorSemiring K]

/-- In every run of a sender, with pauses, stops and whatever comes from the network, the packets
that the socket is given are those that the controller is told of, in order and with the numbers
and times that it is told, and the controller's queue and history are made of them. -/
theorem run_inStep (hover : OverBase api base) (hstart : Started start) (hnew : IsNew (base start.controller))
    {events : List (SenderEvent K)} (hrun : run (step api) start events = .ok s) (hclock : s.clockUs < 2 ^ 62) :
    ∃ calls, InStep base start s calls := by
  refine run_induction (step api) (motive := fun _ s => s.clockUs < 2 ^ 62 → ∃ calls, InStep base start s calls)
    (fun _ => ⟨[], inStep_start hstart.socket hnew.runInvariant⟩) ?_ hrun hclock
  intro events event mid next _ ih hstep hclock
  obtain ⟨more, hmore⟩ := step_follows hover hstep
  have hearlier : mid.clockUs ≤ next.clockUs := Nat.div_le_div_right hmore.clock
  obtain ⟨calls, hcalls⟩ := ih (hearlier.trans_lt hclock)
  exact ⟨calls ++ more, hcalls.follows hmore hclock⟩

end Runs

/-- A sender with the NADA controller, which starts with the last number. -/
def nadaSender (nowNs : ℕ) : Checked (RmcatSender (NadaController ℚ) ℚ) :=
  (setup ⟨1, 1, true⟩ (((NadaController.fresh.setInitBw 150000).setMinBw 150000).setMaxBw 1500000) 10 5 150000 150000
    1500000 nowNs).startApplication 7 65535 1

theorem started_nadaSender {nowNs : ℕ} {start : RmcatSender (NadaController ℚ) ℚ} (h : nadaSender nowNs = .ok start) :
    Started start ∧ IsNew start.controller.base := by
  refine ⟨⟨_, _, _, _, _, _, _, _, _, _, _, h⟩, ?_⟩
  rw [(startApplication_fields h).1]
  exact ⟨_, _, _, rfl⟩

/-- A report that the packet with the last number arrived after three milliseconds. -/
def oneArrival : Checked Octets := do
  let (_, header) ← (CCFeedbackHeader.fresh.setSendSsrc 3).addFeedback 7 65535 5000 0
  header.serialize

/-- A packet is sent and reported, and the sender is paused with another one in its buffer. -/
theorem run_inStep_reported :
    ∃ packet start s calls, oneArrival = .ok packet ∧ nadaSender 2000000 = .ok start ∧
      run (step (nadaApi fun x => 1 + x)) start [.runNext ⟨1000, 1 / 100, true⟩ 0, .runNext ⟨1, 1, true⟩ 99,
        .runNext ⟨1, 1, true⟩ 0, .recvPacket 8000000 10 5 packet, .runNext ⟨1000, 1 / 100, true⟩ 0,
        .pauseResume 13000000 true] = .ok s ∧
      s.controller.base.packetHistory.length = 1 ∧ InStep NadaController.base start s calls := by
  have hfacts : (oneArrival >>= fun packet => nadaSender 2000000 >>= fun start =>
      run (step (nadaApi fun x => 1 + x)) start [.runNext ⟨1000, 1 / 100, true⟩ 0, .runNext ⟨1, 1, true⟩ 99,
        .runNext ⟨1, 1, true⟩ 0, .recvPacket 8000000 10 5 packet, .runNext ⟨1000, 1 / 100, true⟩ 0,
        .pauseResume 13000000 true] >>= fun s =>
      .ok (decide (s.controller.base.packetHistory.length = 1 ∧ s.clockUs < 2 ^ 62))) = .ok true := by
    decide +kernel
  obtain ⟨packet, hpacket, hfacts⟩ := bind_eq_ok.mp hfacts
  obtain ⟨start, hstart, hfacts⟩ := bind_eq_ok.mp hfacts
  obtain ⟨s, hrun, hfacts⟩ := bind_eq_ok.mp hfacts
  obtain ⟨hlength, hclock⟩ := of_decide_eq_true (Except.ok.inj hfacts)
  obtain ⟨hstarted, hnew⟩ := started_nadaSender hstart
  obtain ⟨calls, hcalls⟩ := run_inStep overBase_nada hstarted hnew hrun hclock
  exact ⟨packet, start, s, calls, hpacket, hstart, hrun, hlength, hcalls⟩

end RmcatSender

end Ns3Rmcat.Sender
