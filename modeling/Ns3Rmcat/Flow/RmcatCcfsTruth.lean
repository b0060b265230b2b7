import Ns3Rmcat.Flow.RmcatCcfs
import Ns3Rmcat.Receiver.CcfsReports

/-! What the controller of a CCFS flow is told is true: it has a call for each packet on the socket
and for each report, and each report tells the packets that arrived in its period and when. -/
namespace Ns3Rmcat.Flow
open Lib Header Controller Receiver Sender

section Covered
variable {rounds : ℕ} {first : RtpPacket} {start : CcfsFlow} {flow : List FlowEvent}

/-- A flow in which nothing has been sent, and whose controller knows of nothing in flight. -/
structure Idle (first : RtpPacket) (start : CcfsFlow) : Prop where
  accounted : Accounted first [] start
  known : Known 0 {} start

private theorem Idle.covered (hstart : Idle first start) {s : CcfsFlow}
    (hrun : run (CcfsFlow.step rounds first) start flow = .ok s)
    (hpossible : Along (CcfsFlow.step rounds first) (CcfsFlow.Possible first) start flow) (hordered : Ordered flow)
    (hcount : sends flow < 2 ^ 32) (e : FlowEvent) : s.Covered e := by
  have haccounted : Accounted first flow s := by
    refine run_induction (CcfsFlow.step rounds first) (motive := Accounted first) hstart.accounted ?_ hrun
    intro events event mid s' _ hmid hstep
    exact hmid.step hstep
  have hknown : Known (sends flow) (periods flow) s := by
    clear hordered hcount haccounted
    induction flow using List.reverseRecOn generalizing s with
    | nil =>
      cases hrun
      exact hstart.known
    | append_singleton events event ih =>
      obtain ⟨mid, hmid, hstep⟩ := (run_snoc _).mp hrun
      rw [sends_snoc, periods_snoc]
      exact (ih hmid hpossible.init).step (hpossible.last hmid) hstep
  cases e with
  | processFeedback2 nowUs =>
    intro feedback count hnext hreported
    rw [← List.append_nil flow] at hordered hcount
    have hcovered : s.Covered (.processFeedback2 nowUs) :=
      (haccounted.covered_iff ⟨feedback, hnext⟩).mpr (hknown.fits hordered hcount)
    exact hcovered feedback count hnext hreported
  | processSendPacket2 localTimestampUs size => trivial
  | recvPacket atUs index => trivial
  | fbTimer atUs => trivial

end Covered

def heard (first : RtpPacket) (flow : List FlowEvent) : List Event :=
  flow.filterMap fun
    | .recvPacket atUs index => some (.recvPacket atUs (packetAt first index))
    | .fbTimer atUs => some (.fbTimer atUs)
    | _ => none

def callsOf (first : RtpPacket) (s : CcfsFlow) : FlowEvent → List CcfsCall
  | .processSendPacket2 localTimestampUs size =>
    [.processSendPacket2 first.ssrc localTimestampUs (packetAt first s.sent).sequence size]
  | .processFeedback2 nowUs => s.nextFeedback.toOption.toList.map (.processFeedback2 nowUs)
  | _ => []

def feedbacks (calls : List CcfsCall) : List RfbHeader :=
  calls.filterMap fun
    | .processFeedback2 _ feedback => some feedback
    | _ => none

/-- The packets that some calls tell of, each with its SSRC. -/
def packetsOf (calls : List CcfsCall) : List (UInt32 × PacketRecord) :=
  calls.filterMap fun
    | .processSendPacket2 ssrc localTimestampUs sequence size => some (ssrc, ⟨sequence, localTimestampUs, size, 0, 0⟩)
    | .processFeedback2 _ _ => none

/-- What a packet that is told of is on the socket. -/
def onSocket (stream : RmcatSender.Stream) (sent : UInt32 × PacketRecord) : MediaPacket :=
  { stream with ssrc := sent.1 : RmcatSender.Stream }.mediaPacket sent.2

/-- A report tells what arrived in the period that some events end with, each number once and when it
arrived first, and its own time and number. -/
structure Tells (first : RtpPacket) (before : List Event) (atUs : UInt64) (feedback : RfbHeader) : Prop where
  reportTimeMs : feedback.reportTimeMs.toNat = elapsedMs before atUs
  fbSeq : feedback.fbSeq = UInt16.ofNat (timers before + 1)
  arrivals : ∀ ssrc seq, lookup? feedback.reportBlocks ssrc seq =
    if ssrc = first.ssrc then
      (firstArrival (Receiver.arrivals before) seq).map fun firstUs => ⟨0, UInt64.ofNat (elapsedMs before firstUs)⟩
    else none

section Truth
variable {rounds : ℕ} {first : RtpPacket} {start s s' : CcfsFlow} {flow : List FlowEvent} {calls : List CcfsCall}

private theorem feedbacks_append (calls more : List CcfsCall) :
    feedbacks (calls ++ more) = feedbacks calls ++ feedbacks more :=
  List.filterMap_append

private theorem packetsOf_append (calls more : List CcfsCall) :
    packetsOf (calls ++ more) = packetsOf calls ++ packetsOf more :=
  List.filterMap_append

private theorem heard_append (first : RtpPacket) (flow more : List FlowEvent) :
    heard first (flow ++ more) = heard first flow ++ heard first more := List.filterMap_append

private theorem exists_timer {events : List Event} {k : ℕ} (hk : k < timers events) :
    ∃ before atUs after, events = before ++ .fbTimer atUs :: after ∧ timers before = k := by
  induction events using List.reverseRecOn with
  | nil => cases hk
  | append_singleton events event ih =>
    have hearlier (hlt : k < timers events) :
        ∃ before atUs after, events ++ [event] = before ++ .fbTimer atUs :: after ∧ timers before = k := by
      obtain ⟨before, atUs, after, he, hbefore⟩ := ih hlt
      exact ⟨before, atUs, after ++ [event], by rw [he]; simp, hbefore⟩
    cases event with
    | recvPacket atUs packet =>
      rw [timers_recv] at hk
      exact hearlier hk
    | fbTimer atUs =>
      rw [timers_timer] at hk
      rcases Nat.lt_succ_iff_lt_or_eq.mp hk with hlt | rfl
      · exact hearlier hlt
      · exact ⟨events, atUs, [], rfl, rfl⟩

/-- What has been told is what the receiver has heard, report by report. -/
structure Informed (first : RtpPacket) (ssrc : UInt32) (events : List Event) (calls : List CcfsCall) (s : CcfsFlow) :
    Prop where
  follows : events = [] ∧ s.receiving = .start ssrc ∨ Follows first events s.receiving
  reports : AllReported first events s.receiving.reports
  delivered : s.delivered = (feedbacks calls).length
  told : ∀ k feedback, (feedbacks calls)[k]? = some feedback → ∃ before atUs after,
    events = before ++ .fbTimer atUs :: after ∧ timers before = k ∧ Tells first before atUs feedback

private theorem Informed.hear {ssrc : UInt32} {events : List Event} (h : Informed first ssrc events calls s)
    {event : Event} (horder : s.receiving.InOrder event) (hflow : SameFlow first [event])
    (hnarrow : NarrowArrivals (arrivals events)) (hshort : elapsedMs (events ++ [event]) event.atUs < 2 ^ 32)
    {receiving : Reporting} (hstep : s.receiving.step event = .ok receiving) {underway : List ℕ} :
    Informed first ssrc (events ++ [event]) calls { s with receiving, underway } := by
  have htold : ∀ k feedback, (feedbacks calls)[k]? = some feedback → ∃ before atUs after,
      events ++ [event] = before ++ .fbTimer atUs :: after ∧ timers before = k ∧ Tells first before atUs feedback := by
    intro k feedback hk
    obtain ⟨before, atUs, after, he, hbefore⟩ := h.told k feedback hk
    exact ⟨before, atUs, after ++ [event], by rw [he]; simp, hbefore⟩
  suffices hnext : Follows first (events ++ [event]) receiving ∧ AllReported first (events ++ [event]) receiving.reports by
    exact ⟨.inr hnext.1, hnext.2, h.delivered, htold⟩
  have hreports := h.reports
  rcases h.follows with ⟨rfl, hstart⟩ | hfollows
  · rw [hstart] at horder hstep hreports
    obtain ⟨s', hs', hnone, hfollows⟩ := follows_first horder hflow
    cases hstep.symm.trans hs'
    refine ⟨hfollows, ?_⟩
    rw [hnone]
    cases event with
    | recvPacket atUs packet => exact hreports.recv
    | fbTimer atUs => cases horder.2
  · cases event with
    | recvPacket atUs packet =>
      obtain ⟨s', hs', hsame, hnext⟩ := follows_recv hfollows horder (hflow atUs packet (by simp))
      cases hstep.symm.trans hs'
      refine ⟨hnext, ?_⟩
      rw [hsame]
      exact hreports.recv
    | fbTimer atUs =>
      rw [elapsedMs, origin_append hfollows.nonempty] at hshort
      obtain ⟨s', bytes, hs', hmore, hbytes, hnext⟩ := follows_timer hfollows horder hnarrow hshort
      cases hstep.symm.trans hs'
      refine ⟨hnext, ?_⟩
      rw [hmore]
      exact hreports.timer (hfollows.timer_at horder).1 hbytes

private theorem Informed.deliver {ssrc : UInt32} {events : List Event} (h : Informed first ssrc events calls s)
    {feedback : RfbHeader} (hnext : s.nextFeedback = .ok feedback) (nowUs : UInt64) (sender : CcfsController) :
    Informed first ssrc events (calls ++ [.processFeedback2 nowUs feedback])
      { s with sender, delivered := s.delivered + 1 } := by
  have hfeedbacks : feedbacks (calls ++ [.processFeedback2 nowUs feedback]) = feedbacks calls ++ [feedback] :=
    feedbacks_append _ _
  refine ⟨h.follows, h.reports, ?_, ?_⟩
  · rw [hfeedbacks, List.length_append, ← h.delivered]
    rfl
  · intro k found hk
    rw [hfeedbacks] at hk
    rcases RmcatSender.getElem?_snoc hk with hold | ⟨hlast, rfl⟩
    · exact h.told k found hold
    · rw [CcfsFlow.nextFeedback, h.delivered, ← hlast] at hnext
      split at hnext
      · cases hnext
      · rename_i report hreport
        obtain ⟨hlength, hall⟩ := h.reports
        have hlt : k < timers events := hlength ▸ (List.getElem?_eq_some_iff.mp hreport).1
        obtain ⟨before, atUs, after, he, hbefore⟩ := exists_timer hlt
        obtain ⟨-, bytes, hbytes, n, g, left, hread, -, htime, hseq, harrivals, -⟩ := hall before atUs after he
        rw [hbefore] at hbytes
        cases hreport.symm.trans hbytes
        rw [hread] at hnext
        cases hnext
        exact ⟨before, atUs, after, he, hbefore, htime, hseq, harrivals⟩

private theorem Informed.send {ssrc : UInt32} {events : List Event} (h : Informed first ssrc events calls s)
    {call : CcfsCall} (hsend : feedbacks [call] = []) {sender : CcfsController} {sent : ℕ} {underway : List ℕ} :
    Informed first ssrc events (calls ++ [call]) { s with sender, sent, underway } := by
  have hfeedbacks : feedbacks (calls ++ [call]) = feedbacks calls := by
    rw [feedbacks_append, hsend, List.append_nil]
  refine ⟨h.follows, h.reports, ?_, ?_⟩
  · rw [hfeedbacks]
    exact h.delivered
  · rw [hfeedbacks]
    exact h.told

/-- What a flow tells its controller: the controller has had the calls of the flow, and each report
among them tells what the receiver has heard. -/
private theorem informed_run {ssrc : UInt32} (hreceiving : start.receiving = .start ssrc)
    (hdelivered : start.delivered = 0) (hrun : run (CcfsFlow.step rounds first) start flow = .ok s)
    (hpossible : Along (CcfsFlow.step rounds first) (CcfsFlow.Possible first) start flow)
    (hnarrow : ∀ before, before <+: heard first flow → NarrowArrivals (arrivals before))
    (hshort : ∀ event ∈ heard first flow, elapsedMs (heard first flow) event.atUs < 2 ^ 32) :
    run (CcfsController.step rounds) start.sender (observed (CcfsFlow.step rounds first) (callsOf first) start flow) =
        .ok s.sender ∧
      Informed first ssrc (heard first flow) (observed (CcfsFlow.step rounds first) (callsOf first) start flow) s := by
  induction flow using List.reverseRecOn generalizing s with
  | nil =>
    cases hrun
    refine ⟨rfl, .inl ⟨rfl, hreceiving⟩, ⟨?_, ?_⟩, hdelivered, ?_⟩
    · rw [hreceiving]
      rfl
    · intro before atUs after he
      exact absurd he (by simp [heard])
    · intro k feedback hk
      cases hk
  | append_singleton flow event ih =>
    obtain ⟨mid, hmid, hstep⟩ := (run_snoc _).mp hrun
    have hheard := heard_append first flow [event]
    have hearlier : ∀ other ∈ heard first flow, elapsedMs (heard first flow) other.atUs < 2 ^ 32 := by
      intro other hother
      have hlt := hshort other (by rw [hheard]; exact List.mem_append_left _ hother)
      rwa [hheard, elapsedMs, origin_append (List.ne_nil_of_mem hother)] at hlt
    have hprefix : heard first flow <+: heard first (flow ++ [event]) := by
      rw [hheard]
      exact List.prefix_append _ _
    obtain ⟨hcontroller, hinformed⟩ := ih hmid hpossible.init (fun before hbefore => hnarrow before (hbefore.trans hprefix))
      hearlier
    have horder := hpossible.last hmid
    rw [observed_snoc (CcfsFlow.step rounds first) (callsOf first) hmid, run_append, hcontroller, ok_bind]
    have hhears {heardEvent : Event} (hone : heard first [event] = [heardEvent])
        (hthis : mid.receiving.InOrder heardEvent) (hflow : SameFlow first [heardEvent]) {receiving : Reporting}
        {underway : List ℕ} (hreceiving : mid.receiving.step heardEvent = .ok receiving) :
        Informed first ssrc (heard first (flow ++ [event]))
          (observed (CcfsFlow.step rounds first) (callsOf first) start flow) { mid with receiving, underway } := by
      have hlt := hshort heardEvent (by rw [hheard, hone]; simp)
      rw [hheard, hone] at hlt ⊢
      exact hinformed.hear hthis hflow (hnarrow _ hprefix) hlt hreceiving
    cases event with
    | processSendPacket2 localTimestampUs size =>
      obtain ⟨⟨ok, sender⟩, hsend, he⟩ := bind_eq_ok.mp hstep
      cases he
      have hsame : heard first (flow ++ [.processSendPacket2 localTimestampUs size]) = heard first flow :=
        hheard.trans (List.append_nil _)
      rw [hsame]
      exact ⟨bind_eq_ok.mpr ⟨sender, bind_eq_ok.mpr ⟨_, hsend, rfl⟩, rfl⟩, hinformed.send rfl⟩
    | recvPacket atUs index =>
      obtain ⟨receiving, hreceiving, he⟩ := bind_eq_ok.mp hstep
      cases he
      have hcalls : callsOf first mid (.recvPacket atUs index) = [] := rfl
      refine ⟨rfl, ?_⟩
      rw [hcalls, List.append_nil]
      exact hhears rfl horder.2 (fun _ _ hmem => by cases List.mem_singleton.mp hmem; exact ⟨rfl, rfl, rfl⟩) hreceiving
    | fbTimer atUs =>
      obtain ⟨receiving, hreceiving, he⟩ := bind_eq_ok.mp hstep
      cases he
      have hcalls : callsOf first mid (.fbTimer atUs) = [] := rfl
      refine ⟨rfl, ?_⟩
      rw [hcalls, List.append_nil]
      exact hhears rfl horder (fun _ _ hmem => by cases List.mem_singleton.mp hmem) hreceiving
    | processFeedback2 nowUs =>
      obtain ⟨feedback, hnext, hstep⟩ := bind_eq_ok.mp hstep
      obtain ⟨⟨ok, sender⟩, hfeedback, he⟩ := bind_eq_ok.mp hstep
      cases he
      have hsame : heard first (flow ++ [.processFeedback2 nowUs]) = heard first flow := hheard.trans (List.append_nil _)
      have hcalls : callsOf first mid (.processFeedback2 nowUs) = [.processFeedback2 nowUs feedback] := by
        rw [callsOf, hnext]
        rfl
      rw [hsame, hcalls]
      exact ⟨bind_eq_ok.mpr ⟨sender, bind_eq_ok.mpr ⟨_, hfeedback, rfl⟩, rfl⟩, hinformed.deliver hnext nowUs sender⟩

end Truth

namespace CcfsSystem

/-- The calls that the controller has had after some events. -/
def calls (rounds : ℕ) (start : CcfsSystem) (events : List CcfsEvent) : List CcfsCall :=
  observed (CcfsFlow.step rounds start.first) (callsOf start.first) start.abstraction (flow rounds start events)

/-- A report that is delivered counts no more packets than the controller has in flight. -/
def Covered (s : CcfsSystem) (event : CcfsEvent) : Prop := ∀ e ∈ s.flowEvents event, s.abstraction.Covered e

section Runs
variable {rounds : ℕ} {start s : CcfsSystem} {events : List CcfsEvent}

private theorem Course.idle (h : Course rounds start events s) (hnone : start.sender.controller.inflightPktCount = 0) :
    Idle start.first start.abstraction := by
  obtain ⟨srcIp, srcPort, sender, ssrc, rfl, hstart⟩ := h.started
  have hsocket := hstart.socket
  constructor
  · refine ⟨⟨rfl, Nat.le_refl 0⟩, gathers_start _ _, rfl, ?_, Nat.le_refl 0, congrArg UInt32.toNat hnone⟩
    intro i report period hreport
    cases hreport
  · constructor
    · exact congrArg List.length hsocket
    · intro index hindex
      have hnil : List.range sender.socket.length = [] := by rw [hsocket]; rfl
      rw [abstraction, CcfsSystem.start, hnil] at hindex
      cases hindex
    · simp
    · simp

private theorem socket_step {first : RtpPacket} {stream : RmcatSender.Stream} {s' : CcfsSystem}
    (h : Sound first stream s)
    {event : CcfsEvent} (hpossible : s.Possible event) (hstep : s.step rounds event = .ok s') :
    s'.sender.socket = s.sender.socket ++
      (packetsOf ((s.flowEvents event).flatMap (callsOf first s.abstraction))).map (onSocket stream) := by
  have hsilent (hsame : s'.sender.socket = s.sender.socket) (hnone : packetsOf
      ((s.flowEvents event).flatMap (callsOf first s.abstraction)) = []) : s'.sender.socket = s.sender.socket ++
        (packetsOf ((s.flowEvents event).flatMap (callsOf first s.abstraction))).map (onSocket stream) := by
    rw [hnone, List.map_nil, List.append_nil, hsame]
  cases event with
  | sender event =>
    obtain ⟨sender, hsender, he⟩ := bind_eq_ok.mp hstep
    cases he
    rcases h.armed.step_cases hsender with ⟨codec, rand, next, simulator, rfl, hnext, -, henqueue⟩ |
      ⟨atNs, rIPAddress, rport, packet, rfl, -⟩ | ⟨atNs, rfl, rfl⟩ | ⟨atNs, rfl, -, rfl⟩ | ⟨atNs, rfl, rfl⟩
    · have hevents := flowEvents_runNext hnext codec rand
      obtain ⟨-, -, ⟨hone, rfl⟩ | ⟨hmore, hsend⟩⟩ := RmcatSender.ccfsEnqueuePacket_cases henqueue
      · refine hsilent rfl ?_
        rw [hevents, if_pos hone]
        rfl
      · obtain ⟨ok, -, -, -, hsocket, -⟩ := sent_ok hsend
        have hnumber : s.sender.sequence = (packetAt first s.sender.socket.length).sequence := h.sequence
        have hstream : { stream with ssrc := first.ssrc : RmcatSender.Stream } = s.sender.stream := by
          rw [h.same, ← h.address.2.2]
        rw [hevents, if_neg hmore, List.flatMap_singleton, callsOf, hsocket, hnumber, ← hstream]
        rfl
    · cases hpossible
    · exact hsilent rfl rfl
    · exact hsilent rfl rfl
    · exact hsilent rfl rfl
  | arrive atNs index => exact hsilent (sender_of_step hstep (.inr (.inr ⟨index, rfl⟩))).2 rfl
  | fbTimer atNs => exact hsilent (sender_of_step hstep (.inl rfl)).2 rfl
  | deliver atNs =>
    refine hsilent (sender_of_step hstep (.inr (.inl rfl))).2 ?_
    rw [flowEvents, List.flatMap_singleton, callsOf, packetsOf, List.filterMap_map]
    exact List.filterMap_eq_nil_iff.mpr fun _ _ => rfl

private theorem Course.socket (h : Course rounds start events s) :
    s.sender.socket = (packetsOf (calls rounds start events)).map (onSocket start.sender.stream) := by
  induction events using List.reverseRecOn generalizing s with
  | nil =>
    obtain ⟨srcIp, srcPort, sender, ssrc, rfl, hstart⟩ := h.started
    cases h.run
    exact hstart.socket
  | append_singleton events event ih =>
    obtain ⟨mid, hmid, hpossible, hstep⟩ := h.last
    obtain ⟨hsound, hflow⟩ := hmid.simulates
    have hnow : observed (CcfsFlow.step rounds start.first) (callsOf start.first) mid.abstraction
        (mid.flowEvents event) = (mid.flowEvents event).flatMap (callsOf start.first mid.abstraction) :=
      observed_of_length_le_one _ _ (flowEvents_atUs h.clock hstep).1
    have hlonger : flow rounds start (events ++ [event]) = flow rounds start events ++ mid.flowEvents event :=
      observed_snoc (step rounds) flowEvents hmid.run event
    rw [socket_step hsound hpossible hstep, ih hmid, ← List.map_append, ← packetsOf_append, calls, calls, hlonger,
      observed_append _ _ (run_guarded.mp hflow).1, hnow]

/-- In every run of the system, in each period of which close packets arrive, the controller has a call
for each packet on the socket and each report, in order, and each report tells it what has arrived in its period. -/
theorem run_tells (h : Course rounds start events s)
    (hnarrow : ∀ before, before <+: heard start.first (flow rounds start events) → NarrowArrivals (arrivals before))
    (hshort : ∀ event ∈ heard start.first (flow rounds start events),
      elapsedMs (heard start.first (flow rounds start events)) event.atUs < 2 ^ 32) :
    Lib.run (CcfsController.step rounds) start.sender.controller (calls rounds start events) = .ok s.sender.controller ∧
      s.sender.socket = (packetsOf (calls rounds start events)).map (onSocket start.sender.stream) ∧
      (feedbacks (calls rounds start events)).length = s.delivered ∧
      ∀ k feedback, (feedbacks (calls rounds start events))[k]? = some feedback → ∃ before atUs after,
        heard start.first (flow rounds start events) = before ++ .fbTimer atUs :: after ∧ timers before = k ∧
          Tells start.first before atUs feedback := by
  obtain ⟨hrefines, halong⟩ := run_guarded.mp h.flow_run
  obtain ⟨ssrc, hreceiving, hdelivered⟩ : ∃ ssrc, start.receiving = .start ssrc ∧ start.delivered = 0 := by
    obtain ⟨srcIp, srcPort, sender, ssrc, rfl, -⟩ := h.started
    exact ⟨ssrc, rfl, rfl⟩
  obtain ⟨hcontroller, hinformed⟩ := informed_run hreceiving hdelivered hrefines halong hnarrow hshort
  exact ⟨hcontroller, h.socket, hinformed.delivered.symm, hinformed.told⟩

end Runs

theorem run_tells_overtakingPair : ∃ start s : CcfsSystem, s.delivered = 1 ∧
    Lib.run (CcfsController.step 1) start.sender.controller (calls 1 start overtakingPair) = .ok s.sender.controller ∧
      s.sender.socket = (packetsOf (calls 1 start overtakingPair)).map (onSocket start.sender.stream) ∧
      (feedbacks (calls 1 start overtakingPair)).length = s.delivered ∧
      ∀ k feedback, (feedbacks (calls 1 start overtakingPair))[k]? = some feedback → ∃ before atUs after,
        heard start.first (flow 1 start overtakingPair) = before ++ .fbTimer atUs :: after ∧ timers before = k ∧
          Tells start.first before atUs feedback := by
  obtain ⟨start, s, hcourse, -, hone, hfirst, hflow⟩ := course_overtakingPair
  have hheard : heard start.first (flow 1 start overtakingPair) =
      [.recvPacket 20000 ⟨10, 5, 7, 0⟩, .recvPacket 21000 ⟨10, 5, 7, 65535⟩, .fbTimer 120000] := by
    rw [hfirst, hflow]
    rfl
  refine ⟨start, s, hone, run_tells hcourse ?_ ?_⟩
  · intro before hbefore
    rw [hheard] at hbefore
    have hall : ∀ before ∈ [.recvPacket 20000 ⟨10, 5, 7, 0⟩, .recvPacket 21000 ⟨10, 5, 7, 65535⟩,
        Event.fbTimer 120000].inits, ∀ arrival ∈ arrivals before, ahead 65535 arrival.2.sequence < 100 := by
      decide +kernel
    exact ⟨65535, hall before ((List.mem_inits _ _).mpr hbefore)⟩
  · rw [hheard]
    decide +kernel

end CcfsSystem

end Ns3Rmcat.Flow
