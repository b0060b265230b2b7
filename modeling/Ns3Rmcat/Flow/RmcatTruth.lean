import Ns3Rmcat.Controller.SenderBasedOnce
import Ns3Rmcat.Controller.SenderBasedDelay
import Ns3Rmcat.Controller.SenderBasedRate
import Ns3Rmcat.Flow.Rmcat

/-! What the controller of a flow believes is true: each packet that it has accepted is one that
was sent and has arrived, with the delay that it had, up to half a millisecond; and so its queuing
delay is the true one, up to a millisecond. -/
namespace Ns3Rmcat.Flow
open Lib Header Controller Receiver Sender

section Batch
variable {K : Type} {s s' : SenderBasedController K} {sent : List PacketRecord} {w : UInt64}
  {nowUs rxTimestampUs : UInt64} {sequence : UInt16} {ecn : UInt8} {b : Bool}

private theorem recorded_position (h : SenderBasedController.Ordered sent s) {packet : PacketRecord}
    (hsome : s.recorded sequence = some packet) :
    ∃ j, sent[j]? = some packet ∧ sent.length ≤ j + s.inTransitPackets.length := by
  obtain ⟨n, hn, hqueue, -⟩ := h.order
  rw [SenderBasedController.recorded] at hsome
  split at hsome
  · cases hsome
  · obtain ⟨hpop, -⟩ := Option.filter_eq_some_iff.mp hsome
    obtain ⟨⟨front, rest⟩, hpop, rfl⟩ := Option.map_eq_some_iff.mp hpop
    cases hpopped : popStale sequence s.inTransitPackets with
    | error e =>
      rw [hpopped] at hpop
      cases hpop
    | ok found =>
      rw [hpopped] at hpop
      cases hpop
      obtain ⟨k, hk, -⟩ := popStale_ok hpopped
      refine ⟨n + k, ?_, ?_⟩
      · rw [hqueue, List.drop_drop] at hk
        rw [← List.head?_drop, hk]
        rfl
      · rw [hqueue, List.length_drop]
        omega

/-- What a batch adds to the packets that have been accepted: packets that are in transit, with the
times of their items. -/
private theorem batch_accepted (hzero : ∀ p ∈ sent, p.owdUs = 0 ∧ p.rttUs = 0) {items : List FeedbackItem}
    {accepted accepted' : List PacketRecord} (hord : SenderBasedController.Ordered sent s)
    (hfew : s.inTransitPackets.length ≤ 65536) (hbased : SenderBasedController.Based w s accepted)
    (hitems : ∀ item ∈ items, ∀ (j : ℕ) (packet : PacketRecord), sent[j]? = some packet → sent.length ≤ j + 65536 →
      packet.sequence = item.sequence → (item.rxTimestampUs - packet.txTimestampUs - w).toNat < 2 ^ 63)
    (hrun : run (traced SenderBasedController.step SenderBasedController.acceptedPackets) (s, accepted)
      (feedbackCalls nowUs items) = .ok (s', accepted')) :
    SenderBasedController.Based w s' accepted' ∧ ∀ p ∈ accepted', p ∈ accepted ∨
      ∃ item ∈ items, ∃ (j : ℕ) (packet : PacketRecord), sent[j]? = some packet ∧ sent.length ≤ j + 65536 ∧
        packet.sequence = item.sequence ∧ p = packet.received nowUs item.rxTimestampUs := by
  induction items generalizing s accepted with
  | nil =>
    cases hrun
    exact ⟨hbased, fun p hp => .inl hp⟩
  | cons item items ih =>
    obtain ⟨⟨mid, between⟩, hmid, hrun⟩ := bind_eq_ok.mp hrun
    obtain ⟨hstep, rfl⟩ := (traced_eq_ok _ _).mp hmid
    obtain ⟨⟨ok, next⟩, hfeedback, he⟩ := bind_eq_ok.mp hstep
    cases he
    have hposition : ∀ packet, s.recorded item.sequence = some packet →
        ∃ j, sent[j]? = some packet ∧ sent.length ≤ j + 65536 ∧ packet.sequence = item.sequence := by
      intro packet hsome
      obtain ⟨j, hj, hrecent⟩ := recorded_position hord hsome
      refine ⟨j, hj, by omega, ?_⟩
      rcases SenderBasedController.processFeedback_records hfeedback with ⟨hnone, -⟩ |
        ⟨found, -, -, hsequence, hfound, -⟩
      · cases hnone.symm.trans hsome
      · cases hfound.symm.trans hsome
        exact hsequence
    have hwithin : s.DelayWithin w (.feedback nowUs item.sequence item.rxTimestampUs item.ecn) := by
      intro packet hsome
      obtain ⟨j, hj, hrecent, hsequence⟩ := hposition packet hsome
      exact hitems item List.mem_cons_self j packet hj hrecent hsequence
    obtain ⟨hbased', haccepted⟩ := ih (SenderBasedController.feedback_ordered hord hzero hfeedback)
      ((SenderBasedController.length_inTransit_le hfeedback).trans hfew) (hbased.step hwithin hstep)
      (fun item hitem => hitems item (List.mem_cons_of_mem _ hitem)) hrun
    refine ⟨hbased', fun p hp => ?_⟩
    rcases haccepted p hp with hbetween | ⟨item', hitem', hrest⟩
    · rw [SenderBasedController.acceptedPackets] at hbetween
      cases hsome : s.recorded item.sequence with
      | none =>
        rw [hsome] at hbetween
        exact .inl hbetween
      | some packet =>
        rw [hsome, Option.elim_some, List.mem_append, List.mem_singleton] at hbetween
        rcases hbetween with hold | rfl
        · split at hold
          · cases hold
          · exact .inl hold
        · obtain ⟨j, hj, hrecent, hsequence⟩ := hposition packet hsome
          exact .inr ⟨item, List.mem_cons_self, j, packet, hj, hrecent, hsequence, rfl⟩
    · exact .inr ⟨item', List.mem_cons_of_mem _ hitem', hrest⟩

end Batch

/-- Where the half of the circle begins in which the delays lie: a time that is read may be so much
before the one that was meant. -/
def earliestDelayUs : UInt64 := 0 - 505

/-- A packet that the controller has accepted, and an arrival that has been reported: the packet is
the one that was sent and arrived, and what the controller takes for its arrival is near to it. -/
structure Vouches (told : List (List (UInt64 × ℕ))) (sent : List PacketRecord) (p : PacketRecord)
    (arrival : UInt64 × ℕ) : Prop where
  told : arrival ∈ told.flatten
  sent : sent[arrival.2]? = some p.asSent
  representable : Representable arrival.1
  later : p.txTimestampUs.toNat ≤ arrival.1.toNat
  time : Within 505 p.rxTimestampUs arrival.1

section Vouched
variable {told : List (List (UInt64 × ℕ))} {sent : List PacketRecord} {p : PacketRecord} {arrival : UInt64 × ℕ}

private theorem Vouches.mono (h : Vouches told sent p arrival) {told' : List (List (UInt64 × ℕ))}
    (htold : told.flatten ⊆ told'.flatten) (more : List PacketRecord) : Vouches told' (sent ++ more) p arrival := by
  refine ⟨htold h.told, ?_, h.representable, h.later, h.time⟩
  rw [List.getElem?_append_left (List.getElem?_eq_some_iff.mp h.sent).1]
  exact h.sent

private theorem position_unique {first : UInt16} {nowUs : ℕ} (hnumbered : RmcatSender.Numbered first nowUs sent)
    {i j : ℕ} {q : PacketRecord} (hp : sent[i]? = some p) (hq : sent[j]? = some q) (hi : sent.length ≤ i + 65536)
    (hj : sent.length ≤ j + 65536) (hsequence : p.sequence = q.sequence) : i = j := by
  have hpi := hnumbered.sequence i p hp
  have hqj := hnumbered.sequence j q hq
  have hlti := (List.getElem?_eq_some_iff.mp hp).1
  have hltj := (List.getElem?_eq_some_iff.mp hq).1
  have hwords : first + UInt16.ofNat i = first + UInt16.ofNat j := by rw [← hpi, ← hqj, hsequence]
  have hequal := congrArg UInt16.toNat ((UInt16.add_right_inj first).mp hwords)
  simp only [UInt16.toNat_ofNat'] at hequal
  omega

end Vouched

namespace RmcatFlow
variable {C K : Type}

/-- What the receiver has heard, as far as it matters for what it tells: packets that were sent
before they arrived. -/
structure Heard (first : RtpPacket) (sent : List PacketRecord) (s : RmcatFlow C K) : Prop where
  address : s.srcIp = first.srcIp ∧ s.srcPort = first.srcPort
  receiver : ∃ events, Serves first events s.receiving ∧
    Receiver.arrivals events = s.arrived.map (arrivalOf first) ∧
    Receiver.periods events = s.told.map (List.map (arrivalOf first))
  due : ∀ due ∈ s.receiving.receiver.sendEvent, due.toNat ≤ s.sender.clockUs + 100000
  sent : ∀ arrival ∈ s.arrived ++ s.told.flatten, Representable arrival.1 ∧
    ∃ p, sent[arrival.2]? = some p ∧ p.txTimestampUs.toNat ≤ arrival.1.toNat

/-- What the controller has accepted, and why. -/
structure Believes (base : C → SenderBasedController K) (start s : RmcatFlow C K) (calls : List ControllerCall)
    (accepted : List PacketRecord) : Prop where
  accepts : run (traced SenderBasedController.step SenderBasedController.acceptedPackets)
    (base start.sender.controller, []) calls = .ok (base s.sender.controller, accepted)
  based : SenderBasedController.Based earliestDelayUs (base s.sender.controller) accepted
  vouched : ∀ p ∈ accepted, ∃ arrival, Vouches s.told (sentPackets calls) p arrival

/-- A flow after some calls of the sender's controller. -/
structure Truthful (base : C → SenderBasedController K) (start s : RmcatFlow C K) (calls : List ControllerCall)
    (accepted : List PacketRecord) : Prop where
  inStep : RmcatSender.InStep base start.sender s.sender calls
  heard : Heard start.first (sentPackets calls) s
  believes : Believes base start s calls accepted

section Steps
variable {base : C → SenderBasedController K} {api : ControllerApi C K} {start s s' : RmcatFlow C K}
  {calls more : List ControllerCall} {accepted : List PacketRecord} {first : RtpPacket} {sent : List PacketRecord}

private theorem Heard.later (h : Heard first sent s) {sender : RmcatSender C K}
    (hclock : s.sender.clockUs ≤ sender.clockUs)
    (more : List PacketRecord) : Heard first (sent ++ more) { s with sender } where
  address := h.address
  receiver := h.receiver
  due := fun due hdue => (h.due due hdue).trans (Nat.add_le_add_right hclock _)
  sent := by
    intro arrival hmem
    obtain ⟨hrepresentable, p, hp, hle⟩ := h.sent arrival hmem
    refine ⟨hrepresentable, p, ?_, hle⟩
    rw [List.getElem?_append_left (List.getElem?_eq_some_iff.mp hp).1]
    exact hp

private theorem Heard.arrive (h : Heard first sent s) {sender : RmcatSender C K}
    (hclock : s.sender.clockUs ≤ sender.clockUs) (hnow : sender.nowUs.toNat = sender.clockUs) {index : ℕ}
    {p : PacketRecord} (hsent : sent[index]? = some p) (hbefore : p.txTimestampUs.toNat ≤ sender.clockUs)
    (hpossible : ∀ due ∈ s.receiving.receiver.sendEvent, sender.nowUs ≤ due)
    (htime : Representable sender.nowUs) {receiving : CcfbReporting}
    (hstep : s.receiving.step (.recvPacket sender.nowUs (packetAt first index)) = .ok receiving) :
    Heard first sent { s with sender, receiving, arrived := s.arrived ++ [(sender.nowUs, index)] } := by
  obtain ⟨events, hserves, harrivals, hperiods⟩ := h.receiver
  have hontime : s.receiving.OnTime (.recvPacket sender.nowUs (packetAt first index)) := by
    intro due hdue
    have hle := UInt64.le_iff_toNat_le.mp (hpossible due hdue)
    have hlater := h.due due hdue
    omega
  have hflow : (packetAt first index).ssrc = first.ssrc ∧ (packetAt first index).srcIp = first.srcIp ∧
      (packetAt first index).srcPort = first.srcPort := ⟨rfl, rfl, rfl⟩
  obtain ⟨-, -, hsendEvent, -⟩ := hserves.keeps.recv_ok hflow hstep
  refine ⟨h.address, ⟨events ++ [.recvPacket sender.nowUs (packetAt first index)], ?_, ?_, ?_⟩, ?_, ?_⟩
  · exact hserves.recv hflow hontime htime hstep
  · rw [arrivals_recv, harrivals, List.map_append]
    rfl
  · rw [periods_recv, hperiods]
  · dsimp only
    rw [hsendEvent]
    exact fun due hdue => (h.due due hdue).trans (Nat.add_le_add_right hclock _)
  · intro arrival hmem
    rw [List.append_assoc, List.mem_append, List.mem_append, List.mem_singleton] at hmem
    rcases hmem with hold | hnew | hold
    · exact h.sent arrival (List.mem_append_left _ hold)
    · rw [hnew]
      refine ⟨htime, p, hsent, ?_⟩
      rw [hnow]
      exact hbefore
    · exact h.sent arrival (List.mem_append_right _ hold)

/-- A period ends. -/
theorem Heard.timer (h : Heard first sent s) {sender : RmcatSender C K}
    (hnow : sender.nowUs.toNat = sender.clockUs) (hclock : sender.clockUs < 2 ^ 62) {receiving : CcfbReporting}
    (hstep : s.receiving.step (.fbTimer sender.nowUs) = .ok receiving) :
    Heard first sent { s with
      sender, receiving, arrived := [], told := if s.arrived = [] then s.told else s.told ++ [s.arrived] } := by
  obtain ⟨events, hserves, harrivals, hperiods⟩ := h.receiver
  obtain ⟨-, hsendEvent, -, -⟩ := hserves.keeps.timer_ok hstep
  refine ⟨h.address, ⟨events ++ [.fbTimer sender.nowUs], hserves.timer hstep, ?_, ?_⟩, ?_, ?_⟩
  · rw [arrivals_timer]
    rfl
  · rw [periods_timer, hperiods, harrivals]
    by_cases hnil : s.arrived = []
    · simp [hnil]
    · simp [hnil]
  · dsimp only
    intro due hdue
    rw [hsendEvent, hserves.periodUs, Option.mem_some] at hdue
    have hword : (100000 : UInt64).toNat = 100000 := rfl
    rw [← hdue, UInt64.toNat_add, hnow, hword]
    omega
  · intro arrival hmem
    refine h.sent arrival ?_
    rw [List.nil_append] at hmem
    dsimp only at hmem
    split at hmem
    · exact List.mem_append_right _ hmem
    · rw [List.flatten_append, List.mem_append] at hmem
      rcases hmem with hold | hnew
      · exact List.mem_append_right _ hold
      · exact List.mem_append_left _ (by simpa using hnew)

private theorem Believes.send (h : Believes base start s calls accepted) {sender : RmcatSender C K}
    (hnext : RmcatSender.Follows base s.sender sender more)
    (hmore : more = [] ∨ ∃ txTimestampUs sequence size, more = [.send txTimestampUs sequence size]) :
    Believes base start { s with sender } (calls ++ more) accepted := by
  have hcontroller := hnext.controller
  have hkept : run (traced SenderBasedController.step SenderBasedController.acceptedPackets)
      (base s.sender.controller, accepted) more = .ok (base sender.controller, accepted) ∧
      SenderBasedController.Based earliestDelayUs (base sender.controller) accepted := by
    rcases hmore with rfl | ⟨txTimestampUs, sequence, size, rfl⟩
    · have hsame : base s.sender.controller = base sender.controller := Except.ok.inj hcontroller
      rw [← hsame]
      exact ⟨rfl, h.based⟩
    · obtain ⟨next, hstep, he⟩ := bind_eq_ok.mp hcontroller
      rw [← Except.ok.inj he]
      have hwithin : (base s.sender.controller).DelayWithin earliestDelayUs (.send txTimestampUs sequence size) :=
        trivial
      exact ⟨bind_eq_ok.mpr ⟨_, (traced_eq_ok _ _).mpr ⟨hstep, rfl⟩, rfl⟩, h.based.step hwithin hstep⟩
  refine ⟨?_, hkept.2, fun p hp => ?_⟩
  · rw [run_append, h.accepts, ok_bind]
    exact hkept.1
  · obtain ⟨arrival, harrival⟩ := h.vouched p hp
    rw [sentPackets_append]
    exact ⟨arrival, harrival.mono (List.Subset.refl _) _⟩

/-- A delay that is not long, as far as the times are near. -/
theorem toNat_delay {txTimestampUs rxTimestampUs : UInt64} (hle : txTimestampUs.toNat ≤ rxTimestampUs.toNat + 505)
    (hlt : rxTimestampUs.toNat < 2 ^ 62) :
    (rxTimestampUs - txTimestampUs - earliestDelayUs).toNat = rxTimestampUs.toNat + 505 - txTimestampUs.toNat := by
  have htx := txTimestampUs.toNat_lt
  have hword : earliestDelayUs.toNat = 2 ^ 64 - 505 := rfl
  rw [UInt64.toNat_sub, UInt64.toNat_sub, hword]
  omega

/-- The arrival that an item of a delivered report is about, and its packet. -/
structure About (first : RtpPacket) (sent : List PacketRecord) (period : List (UInt64 × ℕ)) (item : FeedbackItem)
    (arrival : UInt64 × ℕ) (packet : PacketRecord) : Prop where
  mem : arrival ∈ period
  sequence : item.sequence = first.sequence + UInt16.ofNat arrival.2
  time : Within 505 item.rxTimestampUs arrival.1
  representable : Representable arrival.1
  sent : sent[arrival.2]? = some packet
  later : packet.txTimestampUs.toNat ≤ arrival.1.toNat

private theorem Heard.about (h : Heard first sent s) {period : List (UInt64 × ℕ)} (hperiod : period ∈ s.told)
    {packet : Octets} {feedback : List (UInt16 × CCFeedback.MetricBlock)}
    (hdelivers : Delivers first (period.map (arrivalOf first)) packet feedback) {taken : List FeedbackItem}
    (htaken : taken <+: feedbackItems feedback) :
    ∀ item ∈ taken, ∃ arrival packet, About first sent period item arrival packet := by
  intro item hitem
  obtain ⟨entry, hentry, rfl⟩ := List.mem_map.mp (htaken.subset hitem)
  obtain ⟨heard, hheard, haccounts⟩ := hdelivers.sound entry hentry
  obtain ⟨arrival, harrival, rfl⟩ := List.mem_map.mp hheard
  have hmem : arrival ∈ s.arrived ++ s.told.flatten :=
    List.mem_append_right _ (List.mem_flatten.mpr ⟨period, hperiod, harrival⟩)
  obtain ⟨hrepresentable, p, hp, hle⟩ := h.sent arrival hmem
  exact ⟨arrival, p, harrival, haccounts.sequence, haccounts.time, hrepresentable, hp, hle⟩

private theorem Believes.batch (h : Believes base start s calls accepted)
    (hin : RmcatSender.InStep base start.sender s.sender calls) {sender : RmcatSender C K} {nowUs : UInt64}
    {taken : List FeedbackItem} (hnext : RmcatSender.Follows base s.sender sender (feedbackCalls nowUs taken))
    {period : List (UInt64 × ℕ)} (hperiod : period ∈ s.told)
    (habout : ∀ item ∈ taken, ∃ arrival packet,
      About start.first (sentPackets calls) period item arrival packet)
    (hfew : (base s.sender.controller).inTransitPackets.length ≤ 65536)
    (hrecent : ∀ arrival ∈ period, s.sender.socket.length ≤ arrival.2 + 65536) :
    ∃ accepted', Believes base start { s with sender } (calls ++ feedbackCalls nowUs taken) accepted' := by
  have hzero := SenderBasedController.sentPackets_fresh calls
  have hlength : s.sender.socket.length = (sentPackets calls).length := by
    rw [hin.socket, List.length_map]
  -- The number of an item is that of no other packet which may still be in transit.
  have hunique : ∀ item ∈ taken, ∀ (j : ℕ) (packet : PacketRecord), (sentPackets calls)[j]? = some packet →
      (sentPackets calls).length ≤ j + 65536 → packet.sequence = item.sequence →
        ∃ arrival, About start.first (sentPackets calls) period item arrival packet := by
    intro item hitem j packet hj hlast hsequence
    obtain ⟨arrival, sentPacket, hthis⟩ := habout item hitem
    have hnumber := hin.numbered.sequence _ _ hthis.sent
    have hindex : j = arrival.2 := by
      refine position_unique hin.numbered hj hthis.sent hlast ?_ ?_
      · rw [← hlength]
        exact hrecent arrival hthis.mem
      · rw [hsequence, hthis.sequence, hnumber]
        rfl
    rw [hindex] at hj
    cases hj.symm.trans hthis.sent
    exact ⟨arrival, hthis⟩
  have hwithin : ∀ item ∈ taken, ∀ (j : ℕ) (packet : PacketRecord), (sentPackets calls)[j]? = some packet →
      (sentPackets calls).length ≤ j + 65536 → packet.sequence = item.sequence →
        (item.rxTimestampUs - packet.txTimestampUs - earliestDelayUs).toNat < 2 ^ 63 := by
    intro item hitem j packet hj hlast hsequence
    obtain ⟨arrival, hthis⟩ := hunique item hitem j packet hj hlast hsequence
    obtain ⟨hbelow, habove⟩ := hthis.time
    obtain ⟨-, hsmall⟩ := hthis.representable
    have hlater := hthis.later
    rw [toNat_delay (by omega) (by omega)]
    omega
  obtain ⟨accepted', htraced⟩ := (run_traced SenderBasedController.step SenderBasedController.acceptedPackets
    (g := accepted)).mpr hnext.controller
  obtain ⟨hbased, haccepted⟩ := batch_accepted hzero hin.invariant.ordered hfew h.based hwithin htraced
  refine ⟨accepted', ?_, hbased, fun p hp => ?_⟩
  · rw [run_append, h.accepts, ok_bind]
    exact htraced
  · rw [sentPackets_append, sentPackets_feedbackCalls, List.append_nil]
    rcases haccepted p hp with hold | ⟨item, hitem, j, packet, hj, hlast, hsequence, rfl⟩
    · exact h.vouched p hold
    · obtain ⟨arrival, hthis⟩ := hunique item hitem j packet hj hlast hsequence
      have hpacket : (packet.received nowUs item.rxTimestampUs).asSent = packet := by
        obtain ⟨howd, hrtt⟩ := hzero packet (List.mem_of_getElem? hj)
        cases packet
        simp_all [PacketRecord.received, PacketRecord.asSent]
      refine ⟨arrival, List.mem_flatten.mpr ⟨period, hperiod, hthis.mem⟩, ?_, hthis.representable, hthis.later, ?_⟩
      · rw [hpacket]
        exact hthis.sent
      · rw [PacketRecord.received_rxTimestampUs]
        exact hthis.time

private theorem Believes.wait (h : Believes base start s calls accepted)
    (hcontroller : s'.sender.controller = s.sender.controller)
    (htold : s.told.flatten ⊆ s'.told.flatten) : Believes base start s' calls accepted := by
  refine ⟨hcontroller ▸ h.accepts, hcontroller ▸ h.based, fun p hp => ?_⟩
  obtain ⟨arrival, harrival⟩ := h.vouched p hp
  have hmono := harrival.mono htold []
  rw [List.append_nil] at hmono
  exact ⟨arrival, hmono⟩

private theorem waitUntil_inStep (h : RmcatSender.InStep base start.sender s.sender calls) {atNs : ℕ}
    (hclock : (s.sender.waitUntil atNs).clockUs < 2 ^ 62) :
    RmcatSender.InStep base start.sender (s.sender.waitUntil atNs) calls := by
  have hsilent : RmcatSender.Follows base s.sender (s.sender.waitUntil atNs) [] :=
    RmcatSender.Follows.silent (s.sender.simulator.nowNs_le_waitUntil atNs) rfl rfl rfl rfl
  have hnext := h.follows hsilent hclock
  rwa [List.append_nil] at hnext

private theorem Heard.delivers (h : Heard first sent s) {index : ℕ} {report : Report}
    (hreport : s.receiving.reports[index]? = some report) :
    ∃ period, s.told[index]? = some period ∧
      ∃ feedback, Delivers first (period.map (arrivalOf first)) report.packet feedback := by
  obtain ⟨events, hserves, -, hperiods⟩ := h.receiver
  have hdelivered := hserves.delivered
  rw [hperiods, List.forall₂_map_left_iff, List.forall₂_iff_get] at hdelivered
  obtain ⟨hlength, hall⟩ := hdelivered
  obtain ⟨hlt, rfl⟩ := List.getElem?_eq_some_iff.mp hreport
  exact ⟨_, List.getElem?_eq_getElem (hlength ▸ hlt), hall index (hlength ▸ hlt) hlt⟩

variable [Field K] [LinearOrder K] [FloorSemiring K]

private theorem Truthful.sender (h : Truthful base start s calls accepted) (hover : OverBase api base)
    {event : SenderEvent K} (hpossible : s.Possible (.sender event)) (hclock : s'.sender.clockUs < 2 ^ 62)
    (hstep : s.step api (.sender event) = .ok s') : ∃ calls' accepted', Truthful base start s' calls' accepted' := by
  obtain ⟨sender, hsender, he⟩ := bind_eq_ok.mp hstep
  cases he
  obtain ⟨more, hnext, hmore⟩ : ∃ more, RmcatSender.Follows base s.sender sender more ∧
      (more = [] ∨ ∃ txTimestampUs sequence size, more = [.send txTimestampUs sequence size]) := by
    rcases RmcatSender.step_sends hover hpossible hsender with hsilent | ⟨size, hsend⟩
    · exact ⟨_, hsilent, .inl rfl⟩
    · exact ⟨_, hsend, .inr ⟨_, _, _, rfl⟩⟩
  refine ⟨calls ++ more, accepted, h.inStep.follows hnext hclock, ?_, h.believes.send hnext hmore⟩
  rw [sentPackets_append]
  exact h.heard.later (Nat.div_le_div_right hnext.clock) _

private theorem Truthful.arrive (h : Truthful base start s calls accepted) {atNs index : ℕ}
    (hpossible : s.Possible (.arrive atNs index)) (htimely : s.Timely base (.arrive atNs index))
    (hclock : s'.sender.clockUs < 2 ^ 62) (hstep : s.step api (.arrive atNs index) = .ok s') :
    Truthful base start s' calls accepted := by
  rw [step] at hstep
  split at hstep
  · cases hstep
  · rename_i packet hpacket
    rw [h.inStep.socket, List.getElem?_map, Option.map_eq_some_iff] at hpacket
    obtain ⟨p, hp, rfl⟩ := hpacket
    rw [received_mediaPacket, ok_bind] at hstep
    obtain ⟨receiving, hreceiving, he⟩ := bind_eq_ok.mp hstep
    cases he
    have hseen : (⟨s.srcIp, s.srcPort, (start.sender.stream.mediaPacket p).header.ssrc,
        (start.sender.stream.mediaPacket p).header.sequence⟩ : RtpPacket) = packetAt start.first index := by
      obtain ⟨hip, hport⟩ := h.heard.address
      have hsequence := h.inStep.numbered.sequence index p hp
      rw [hip, hport]
      simp only [RmcatSender.Stream.mediaPacket, hsequence]
      rfl
    rw [hseen] at hreceiving
    have hin := waitUntil_inStep h.inStep hclock
    have hpast := hin.numbered.past p (List.mem_of_getElem? hp)
    have hlater : s.sender.clockUs ≤ (s.sender.waitUntil atNs).clockUs :=
      Nat.div_le_div_right (s.sender.simulator.nowNs_le_waitUntil atNs)
    refine ⟨hin, ?_, h.believes.wait rfl (List.Subset.refl _)⟩
    exact h.heard.arrive hlater (RmcatSender.toNat_nowUs hclock) hp hpast hpossible htimely hreceiving

private theorem Truthful.fbTimer (h : Truthful base start s calls accepted) {atNs : ℕ}
    (hclock : s'.sender.clockUs < 2 ^ 62)
    (hstep : s.step api (.fbTimer atNs) = .ok s') : Truthful base start s' calls accepted := by
  obtain ⟨receiving, hreceiving, he⟩ := bind_eq_ok.mp hstep
  cases he
  refine ⟨waitUntil_inStep h.inStep hclock, ?_, h.believes.wait rfl ?_⟩
  · exact h.heard.timer (RmcatSender.toNat_nowUs hclock) hclock hreceiving
  · dsimp only
    split
    · exact List.Subset.refl _
    · rw [List.flatten_append]
      exact List.subset_append_left _ _

private theorem Truthful.deliver (h : Truthful base start s calls accepted) (hover : OverBase api base) {atNs index : ℕ}
    (htimely : s.Timely base (.deliver atNs index)) (hclock : s'.sender.clockUs < 2 ^ 62)
    (hstep : s.step api (.deliver atNs index) = .ok s') :
    ∃ calls' accepted', Truthful base start s' calls' accepted' := by
  rw [step] at hstep
  split at hstep
  · cases hstep
  · rename_i report hreport
    obtain ⟨sender, hsender, he⟩ := bind_eq_ok.mp hstep
    cases he
    obtain ⟨period, hperiod, feedback, hdelivers⟩ := h.heard.delivers hreport
    obtain ⟨n, header, hread, hssrcs, hlist⟩ := hdelivers.read
    have hssrc : (s.sender.waitUntil atNs).ssrc = start.first.ssrc :=
      congrArg RmcatSender.Stream.ssrc h.inStep.stream
    have hwait : s.sender.clockUs ≤ (s.sender.waitUntil atNs).clockUs :=
      Nat.div_le_div_right (s.sender.simulator.nowNs_le_waitUntil atNs)
    obtain ⟨n', header', left, hread', hcases⟩ := RmcatSender.recvPacket_follows hover hsender
    cases hread.symm.trans hread'
    rw [hssrc] at hcases
    rcases hcases with ⟨hother, -⟩ | ⟨feedback', taken, hlist', htaken, hnext⟩
    · rw [hssrcs] at hother
      exact absurd (List.mem_singleton_self _) hother
    · cases hlist.symm.trans hlist'
      have hfollows : RmcatSender.Follows base s.sender sender (feedbackCalls (s.sender.waitUntil atNs).nowUs taken) :=
        hnext.of_frame (s.sender.simulator.nowNs_le_waitUntil atNs) rfl rfl rfl rfl
      obtain ⟨hfew, hrecent⟩ := htimely
      obtain ⟨accepted', hbelieves⟩ := h.believes.batch h.inStep hfollows (List.mem_of_getElem? hperiod)
        (h.heard.about (List.mem_of_getElem? hperiod) hdelivers htaken) hfew (hrecent period hperiod)
      refine ⟨_, accepted', h.inStep.follows hfollows hclock, ?_, hbelieves⟩
      rw [sentPackets_append]
      exact h.heard.later (Nat.div_le_div_right hfollows.clock) _

private theorem Truthful.step (h : Truthful base start s calls accepted) (hover : OverBase api base)
    {event : RmcatEvent K}
    (hpossible : s.Possible event) (htimely : s.Timely base event) (hclock : s'.sender.clockUs < 2 ^ 62)
    (hstep : s.step api event = .ok s') : ∃ calls' accepted', Truthful base start s' calls' accepted' := by
  cases event with
  | sender event => exact h.sender hover hpossible hclock hstep
  | arrive atNs index => exact ⟨_, _, h.arrive hpossible htimely hclock hstep⟩
  | fbTimer atNs => exact ⟨_, _, h.fbTimer hclock hstep⟩
  | deliver atNs index => exact h.deliver hover htimely hclock hstep

private theorem clockUs_le_step (hover : OverBase api base) {event : RmcatEvent K} (hstep : s.step api event = .ok s') :
    s.sender.clockUs ≤ s'.sender.clockUs := by
  refine Nat.div_le_div_right ?_
  cases event with
  | sender event =>
    obtain ⟨sender, hsender, he⟩ := bind_eq_ok.mp hstep
    cases he
    obtain ⟨more, hnext⟩ := RmcatSender.step_follows hover hsender
    exact hnext.clock
  | arrive atNs index =>
    rw [RmcatFlow.step] at hstep
    split at hstep
    · cases hstep
    · obtain ⟨header, -, hstep⟩ := bind_eq_ok.mp hstep
      obtain ⟨receiving, -, he⟩ := bind_eq_ok.mp hstep
      cases he
      exact s.sender.simulator.nowNs_le_waitUntil atNs
  | fbTimer atNs =>
    obtain ⟨receiving, -, he⟩ := bind_eq_ok.mp hstep
    cases he
    exact s.sender.simulator.nowNs_le_waitUntil atNs
  | deliver atNs index =>
    rw [RmcatFlow.step] at hstep
    split at hstep
    · cases hstep
    · obtain ⟨sender, hsender, he⟩ := bind_eq_ok.mp hstep
      cases he
      obtain ⟨more, hnext⟩ := RmcatSender.step_follows hover hsender
      exact hnext.clock

end Steps

section Runs
variable {base : C → SenderBasedController K} {srcIp : UInt32} {srcPort : UInt16} {sender : RmcatSender C K}
  {ssrc : UInt32}

private theorem truthful_start (hsocket : sender.socket = [])
    (hinvariant : SenderBasedController.RunInvariant [] (base sender.controller))
    (hhistory : (base sender.controller).packetHistory = []) (hclock : sender.clockUs < 2 ^ 62) :
    Truthful base (.start srcIp srcPort sender ssrc) (.start srcIp srcPort sender ssrc) [] [] where
  inStep := RmcatSender.inStep_start hsocket hinvariant
  heard := by
    refine ⟨⟨rfl, rfl⟩, ⟨[], serves_start _ _ _, rfl, rfl⟩, ?_, by simp [start]⟩
    intro due hdue
    have hdue' : sender.nowUs + rmcatFeedbackPeriodUs = due := Option.some.inj hdue
    have hword : rmcatFeedbackPeriodUs.toNat = 100000 := rfl
    rw [← hdue', UInt64.toNat_add, RmcatSender.toNat_nowUs hclock, hword]
    exact Nat.mod_le _ _
  believes := by
    refine ⟨rfl, ⟨?_, fun _ => rfl, by simp, fun hne => absurd rfl hne, by simp⟩, by simp⟩
    exact hhistory ▸ List.suffix_rfl

variable [Field K] [LinearOrder K] [FloorSemiring K] {api : ControllerApi C K}

variable (base api) in
/-- A run of a flow up to a state: the sender has been started with a controller that is new, and
the events are possible and timely. -/
structure Course (start : RmcatFlow C K) (events : List (RmcatEvent K)) (s : RmcatFlow C K) : Prop where
  started : ∃ srcIp srcPort sender ssrc, start = .start srcIp srcPort sender ssrc ∧ RmcatSender.Started sender ∧
    RmcatSender.IsNew (base sender.controller)
  run : run (step api) start events = .ok s
  possible : Along (step api) Possible start events
  timely : Along (step api) (Timely base) start events
  clock : s.sender.clockUs < 2 ^ 62

theorem truthful_run (hover : OverBase api base) {start s : RmcatFlow C K} {events : List (RmcatEvent K)}
    (h : Course base api start events s) : ∃ calls accepted, Truthful base start s calls accepted := by
  obtain ⟨⟨srcIp, srcPort, sender, ssrc, rfl, hstart, hnew⟩, hrun, hpossible, htimely, hclock⟩ := h
  induction events using List.reverseRecOn generalizing s with
  | nil =>
    cases hrun
    have hhistory : (base sender.controller).packetHistory = [] := by
      obtain ⟨initBw, minBw, maxBw, hbase⟩ := hnew
      rw [hbase]
      rfl
    exact ⟨[], [], truthful_start hstart.socket hnew.runInvariant hhistory hclock⟩
  | append_singleton events event ih =>
    obtain ⟨mid, hmid, hstep⟩ := (run_snoc _).mp hrun
    obtain ⟨calls, accepted, hcalls⟩ := ih ((clockUs_le_step hover hstep).trans_lt hclock) hmid hpossible.init
      htimely.init
    exact hcalls.step hover (hpossible.last hmid) (htimely.last hmid) hclock hstep

end Runs

end RmcatFlow

end Ns3Rmcat.Flow
