import Ns3Rmcat.Flow.Ccfs

/-! The packets in flight of a CCFS flow: every report takes as many of them as its window has
places, so that the count follows what was sent and which windows were reported. -/
namespace Ns3Rmcat.Flow
open Lib Header RfbHeader Controller Receiver

section Reports
variable {s s' : CcfsController} {feedback : RfbHeader} {count : UInt32}

private theorem validateFeedback_inflight {valid : Bool} (h : s.validateFeedback feedback = .ok (valid, s'))
    (hcount : feedback.getTotalReportCount = .ok count) :
    count ≤ s.inflightPktCount ∧ s'.inflightPktCount = s.inflightPktCount - count := by
  rw [CcfsController.validateFeedback] at h
  dsimp only at h
  split at h
  · -- Without streams the count is zero.
    rename_i hnone
    cases h
    obtain ⟨-, hcount⟩ := check_bind_eq_ok.mp hcount
    have hkeys : feedback.reportBlocks.keys = [] := List.map_eq_nil_iff.mp hnone
    rw [hkeys] at hcount
    cases hcount
    exact ⟨UInt32.zero_le, (UInt32.sub_zero _).symm⟩
  · obtain ⟨⟨remains, s1⟩, hremains, h⟩ := bind_eq_ok.mp h
    obtain ⟨again, -, h⟩ := bind_eq_ok.mp h
    cases h
    obtain ⟨reported, hreported, hremains⟩ := bind_eq_ok.mp hremains
    cases hcount.symm.trans hreported
    obtain ⟨-, hremains⟩ := check_bind_eq_ok.mp hremains
    obtain ⟨hle, hremains⟩ := check_bind_eq_ok.mp hremains
    cases hremains
    exact ⟨hle, rfl⟩

private theorem startFeedback2_inflight {period : Except Bool ParsedPeriod}
    (h : s.startFeedback2 feedback = .ok (period, s')) (hcount : feedback.getTotalReportCount = .ok count) :
    count ≤ s.inflightPktCount ∧ s'.inflightPktCount = s.inflightPktCount - count := by
  obtain ⟨⟨valid, s1⟩, hvalid, h⟩ := bind_eq_ok.mp h
  have hinflight := validateFeedback_inflight hvalid hcount
  dsimp only at h
  split at h
  · cases h
    exact hinflight
  · split at h
    · cases h
      exact hinflight
    · generalize hparse : CcfsController.parseFeedback _ feedback _ _ = parsed at h
      obtain ⟨data, s2⟩ := parsed
      obtain ⟨sent, rfl⟩ := CcfsController.parseFeedback_ok hparse
      cases h
      exact hinflight

private theorem processFeedback2_inflight {rounds : Nat} {nowUs : UInt64} {result : Bool}
    (h : s.processFeedback2 rounds nowUs feedback = .ok (result, s'))
    (hcount : feedback.getTotalReportCount = .ok count) :
    count ≤ s.inflightPktCount ∧ s'.inflightPktCount = s.inflightPktCount - count := by
  rcases CcfsController.processFeedback2_ok h with hunused | ⟨period, s1, hused, hcontrol⟩
  · exact startFeedback2_inflight hunused hcount
  · have hrecords := CcfsController.controlFeedback2_records hcontrol
    obtain ⟨hle, hinflight⟩ := startFeedback2_inflight hused hcount
    exact ⟨hle, (congrArg CcfsController.Records.inflightPktCount hrecords).trans hinflight⟩

end Reports

/-- A receiver that has gathered some numbers of the one stream since its last report. -/
structure Gathers (ssrc : UInt32) (seqs : List UInt16) (r : RmcatCcfsReceiver) : Prop where
  source : r.waiting = false → r.remoteSsrc = ssrc
  gathered : Gathered ssrc seqs r.fbHeader

section Receiver
variable {ssrc : UInt32} {seqs : List UInt16} {r r' : RmcatCcfsReceiver} {nowUs : UInt64}

theorem gathers_start (ssrc receiverSsrc : UInt32) : Gathers ssrc [] (.start receiverSsrc) where
  source := nofun
  gathered := ⟨⟨tidy_fresh, by simp [RmcatCcfsReceiver.start, fresh, lookup?]⟩, fun hne => absurd rfl hne⟩

private theorem gathered_setSendSsrc {h : RfbHeader} (hh : Gathered ssrc seqs h) (sendSsrc : UInt32) :
    Gathered ssrc seqs { h with common := h.common.setSendSsrc sendSsrc } :=
  hh.of_same ⟨⟨hh.tidy.filled, hh.tidy.ecn, hh.tidy.packetType, hh.tidy.typeOrCnt, hh.tidy.length⟩, hh.tidy.current⟩
    rfl rfl

private theorem Gathers.recvPacket {packet : RtpPacket} (hr : Gathers ssrc seqs r) (hssrc : packet.ssrc = ssrc)
    (h : r.recvPacket nowUs packet = .ok r') : Gathers ssrc (seqs ++ [packet.sequence]) r' := by
  rw [RmcatCcfsReceiver.recvPacket] at h
  dsimp only at h
  generalize hclock : (if r.refPointUs = 0 then _ else r) = r0 at h
  have hsame : r0.waiting = r.waiting ∧ r0.remoteSsrc = r.remoteSsrc ∧ r0.fbHeader = r.fbHeader := by
    subst hclock
    split <;> exact ⟨rfl, rfl, rfl⟩
  obtain ⟨hwaiting, hremote, hheader⟩ := hsame
  have hgathered : Gathered ssrc seqs r0.fbHeader := by
    rw [hheader]
    exact hr.gathered
  cases hw : r0.waiting with
  | true =>
    rw [hw, if_pos rfl] at h
    cases h
    subst hssrc
    exact ⟨fun _ => rfl, (gathered_setSendSsrc hgathered r0.ssrc).addFeedback packet.sequence _⟩
  | false =>
    rw [hw, if_neg Bool.false_ne_true] at h
    obtain ⟨-, h⟩ := check_bind_eq_ok.mp h
    obtain ⟨-, h⟩ := check_bind_eq_ok.mp h
    obtain ⟨-, h⟩ := check_bind_eq_ok.mp h
    cases h
    have hsource : r0.remoteSsrc = ssrc := hremote.trans (hr.source (hwaiting.symm.trans hw))
    refine ⟨fun _ => hsource, ?_⟩
    dsimp only
    rw [hsource]
    exact hgathered.addFeedback packet.sequence _

private theorem Gathers.fbTimerHandler {report : Octets} (hr : Gathers ssrc seqs r)
    (h : r.fbTimerHandler nowUs = .ok (r', report)) :
    Gathers ssrc [] r' ∧ ∀ n g left, fresh.deserialize report = .ok (n, g, left) →
      ∃ count, g.getTotalReportCount = .ok count ∧ count.toNat = placesOf seqs := by
  obtain ⟨packet, hpacket, h⟩ := bind_eq_ok.mp h
  cases h
  have htidy : Tidy (r.report nowUs) :=
    ((hr.gathered.tidy.apply .increaseFbSeq).apply (.setReportTime _)).apply (.setMonitoredTime _)
  have hgathered : Gathered ssrc seqs (r.report nowUs) := hr.gathered.of_same htidy rfl rfl
  exact ⟨⟨hr.source, hgathered.clean⟩, fun n g left hread => hgathered.count_of_read hgathered.length hpacket hread⟩

end Receiver

section Histories
variable {events : List FlowEvent}

theorem periods_snoc (events : List FlowEvent) (event : FlowEvent) :
    periods (events ++ [event]) = (periods events).add event := by
  rw [periods, List.foldl_append]
  rfl

theorem sends_snoc (events : List FlowEvent) (event : FlowEvent) :
    sends (events ++ [event]) = sends events + if event.isSend then 1 else 0 := by
  rw [sends, List.countP_append, List.countP_singleton]
  rfl

private theorem deliveries_snoc (events : List FlowEvent) (event : FlowEvent) :
    deliveries (events ++ [event]) = deliveries events + if event.isDelivery then 1 else 0 := by
  rw [deliveries, List.countP_append, List.countP_singleton]
  rfl

private theorem placesReported_of_periods (first : RtpPacket) {events' : List FlowEvent}
    (hended : (periods events').ended = (periods events).ended) (hdeliveries : deliveries events' = deliveries events) :
    placesReported first events' = placesReported first events := by
  rw [placesReported, placesReported, hended, hdeliveries]

private theorem placesReported_fbTimer (first : RtpPacket) (atUs : UInt64)
    (hle : deliveries events ≤ (periods events).ended.length) :
    placesReported first (events ++ [.fbTimer atUs]) = placesReported first events := by
  rw [placesReported, placesReported, periods_snoc, deliveries_snoc]
  simp only [Periods.add, FlowEvent.isDelivery, Bool.false_eq_true, if_false, Nat.add_zero, List.take_append_of_le_length hle]

private theorem placesReported_processFeedback2 (first : RtpPacket) (nowUs : UInt64) {period : List ℕ}
    (hperiod : (periods events).ended[deliveries events]? = some period) :
    placesReported first (events ++ [.processFeedback2 nowUs]) = placesReported first events + places first period := by
  rw [placesReported, placesReported, periods_snoc, deliveries_snoc]
  simp only [Periods.add, FlowEvent.isDelivery, if_true, List.take_add_one, hperiod, Option.toList_some, List.map_append, List.sum_append,
    List.map_cons, List.map_nil, List.sum_singleton]

end Histories

/-- What holds of a flow after some events. -/
structure Accounted (first : RtpPacket) (events : List FlowEvent) (s : CcfsFlow) : Prop where
  delivered : s.delivered = deliveries events ∧ deliveries events ≤ (periods events).ended.length
  gathers : Gathers first.ssrc (numbers first (periods events).last) s.receiving.receiver
  reports : s.receiving.reports.length = (periods events).ended.length
  /-- Every report that can be read has the count of its period. -/
  readable : ∀ (i : ℕ) (report : Octets) (period : List ℕ), s.receiving.reports[i]? = some report →
    (periods events).ended[i]? = some period → ∀ n g left, fresh.deserialize report = .ok (n, g, left) →
      ∃ count, g.getTotalReportCount = .ok count ∧ count.toNat = places first period
  reported : placesReported first events ≤ sends events
  inflight : s.sender.inflightPktCount.toNat = (sends events - placesReported first events) % 2 ^ 32

section Steps
variable {first : RtpPacket} {events : List FlowEvent} {rounds : Nat} {s s' : CcfsFlow}

private theorem accounted_start (controller : CcfsController) (ssrc : UInt32) :
    Accounted first [] (.start controller ssrc) where
  delivered := ⟨rfl, Nat.le_refl 0⟩
  gathers := gathers_start first.ssrc ssrc
  reports := rfl
  readable := nofun
  reported := Nat.le_refl 0
  inflight := rfl

private theorem Accounted.send {localTimestampUs : UInt64} {size : UInt32} (h : Accounted first events s)
    (hstep : s.step rounds first (.processSendPacket2 localTimestampUs size) = .ok s') :
    Accounted first (events ++ [.processSendPacket2 localTimestampUs size]) s' := by
  obtain ⟨⟨result, sender⟩, hsend, he⟩ := bind_eq_ok.mp hstep
  cases he
  obtain ⟨ok, base, sent, lastSent, start, -, rfl⟩ := CcfsController.processSendPacket2_ok hsend
  have hperiods : periods (events ++ [.processSendPacket2 localTimestampUs size]) = periods events :=
    periods_snoc events _
  have hdeliveries : deliveries (events ++ [.processSendPacket2 localTimestampUs size]) = deliveries events :=
    deliveries_snoc events _
  have hsends : sends (events ++ [.processSendPacket2 localTimestampUs size]) = sends events + 1 :=
    sends_snoc events _
  have hreported := placesReported_of_periods first (congrArg Periods.ended hperiods) hdeliveries
  have hle := h.reported
  constructor
  · rw [hperiods, hdeliveries]
    exact h.delivered
  · rw [hperiods]
    exact h.gathers
  · rw [hperiods]
    exact h.reports
  · rw [hperiods]
    exact h.readable
  · rw [hreported, hsends]
    omega
  · rw [hreported, hsends]
    have hinflight := h.inflight
    dsimp only
    rw [UInt32.toNat_add]
    simp only [UInt32.reduceToNat]
    omega

private theorem Accounted.arrive {atUs : UInt64} {index : ℕ} (h : Accounted first events s)
    (hstep : s.step rounds first (.recvPacket atUs index) = .ok s') :
    Accounted first (events ++ [.recvPacket atUs index]) s' := by
  obtain ⟨receiving, hreceiving, he⟩ := bind_eq_ok.mp hstep
  cases he
  obtain ⟨receiver, hrecv, he⟩ := bind_eq_ok.mp hreceiving
  cases he
  have hperiods : periods (events ++ [.recvPacket atUs index]) =
      { periods events with last := (periods events).last ++ [index] } := periods_snoc events _
  have hended : (periods (events ++ [.recvPacket atUs index])).ended = (periods events).ended := by rw [hperiods]
  have hdeliveries : deliveries (events ++ [.recvPacket atUs index]) = deliveries events := deliveries_snoc events _
  have hsends : sends (events ++ [.recvPacket atUs index]) = sends events := sends_snoc events _
  have hreported := placesReported_of_periods first hended hdeliveries
  constructor
  · rw [hended, hdeliveries]
    exact h.delivered
  · rw [hperiods, numbers, List.map_append]
    exact h.gathers.recvPacket rfl hrecv
  · rw [hended]
    exact h.reports
  · rw [hended]
    exact h.readable
  · rw [hreported, hsends]
    exact h.reported
  · rw [hreported, hsends]
    exact h.inflight

private theorem Accounted.timer {atUs : UInt64} (h : Accounted first events s)
    (hstep : s.step rounds first (.fbTimer atUs) = .ok s') : Accounted first (events ++ [.fbTimer atUs]) s' := by
  obtain ⟨receiving, hreceiving, he⟩ := bind_eq_ok.mp hstep
  cases he
  obtain ⟨⟨receiver, report⟩, hhandler, he⟩ := bind_eq_ok.mp hreceiving
  cases he
  obtain ⟨hgathers, hread⟩ := h.gathers.fbTimerHandler hhandler
  have hperiods : periods (events ++ [.fbTimer atUs]) = { ended := (periods events).ended ++ [(periods events).last] } :=
    periods_snoc events _
  have hdeliveries : deliveries (events ++ [.fbTimer atUs]) = deliveries events := deliveries_snoc events _
  have hsends : sends (events ++ [.fbTimer atUs]) = sends events := sends_snoc events _
  have hreported := placesReported_fbTimer first atUs h.delivered.2
  have hlength := h.reports
  constructor
  · rw [hperiods, hdeliveries]
    refine ⟨h.delivered.1, h.delivered.2.trans ?_⟩
    simp
  · rw [hperiods]
    exact hgathers
  · rw [hperiods]
    simp [hlength]
  · rw [hperiods]
    intro i report' period hreport hperiod n g left hg
    dsimp only at hreport hperiod
    by_cases hi : i < s.receiving.reports.length
    · rw [List.getElem?_append_left hi] at hreport
      rw [List.getElem?_append_left (hlength ▸ hi)] at hperiod
      exact h.readable i report' period hreport hperiod n g left hg
    · -- It is the report of the period that has just ended.
      rw [List.getElem?_append_right (Nat.le_of_not_lt hi), List.getElem?_singleton] at hreport
      rw [List.getElem?_append_right (hlength ▸ Nat.le_of_not_lt hi), ← hlength, List.getElem?_singleton] at hperiod
      split at hreport
      · rename_i hlast
        rw [if_pos hlast] at hperiod
        cases hreport
        cases hperiod
        exact hread n g left hg
      · cases hreport
  · rw [hreported, hsends]
    exact h.reported
  · rw [hreported, hsends]
    exact h.inflight

private theorem Accounted.nextFeedback {feedback : RfbHeader} (h : Accounted first events s)
    (hnext : s.nextFeedback = .ok feedback) : ∃ period count, (periods events).ended[deliveries events]? = some period ∧
      feedback.getTotalReportCount = .ok count ∧ count.toNat = places first period := by
  rw [CcfsFlow.nextFeedback] at hnext
  rw [h.delivered.1] at hnext
  split at hnext
  · cases hnext
  · rename_i report hreport
    obtain ⟨⟨n, g, left⟩, hread, he⟩ := bind_eq_ok.mp hnext
    cases he
    have hlt : deliveries events < (periods events).ended.length := by
      rw [← h.reports]
      exact (List.getElem?_eq_some_iff.mp hreport).1
    have hperiod := List.getElem?_eq_getElem hlt
    obtain ⟨count, hcount, hplaces⟩ := h.readable _ report _ hreport hperiod n _ left hread
    exact ⟨_, count, hperiod, hcount, hplaces⟩

private theorem Accounted.deliver {nowUs : UInt64} (h : Accounted first events s)
    (hstep : s.step rounds first (.processFeedback2 nowUs) = .ok s') :
    Accounted first (events ++ [.processFeedback2 nowUs]) s' := by
  obtain ⟨feedback, hnext, hstep⟩ := bind_eq_ok.mp hstep
  obtain ⟨⟨result, sender⟩, hfeedback, he⟩ := bind_eq_ok.mp hstep
  cases he
  obtain ⟨period, count, hperiod, hcount, hplaces⟩ := h.nextFeedback hnext
  obtain ⟨hle, hinflight⟩ := processFeedback2_inflight hfeedback hcount
  have hperiods : periods (events ++ [.processFeedback2 nowUs]) = periods events := periods_snoc events _
  have hdeliveries : deliveries (events ++ [.processFeedback2 nowUs]) = deliveries events + 1 :=
    deliveries_snoc events _
  have hsends : sends (events ++ [.processFeedback2 nowUs]) = sends events := sends_snoc events _
  have hreported := placesReported_processFeedback2 first nowUs hperiod
  have hlt := (List.getElem?_eq_some_iff.mp hperiod).1
  have henough := UInt32.le_iff_toNat_le.mp hle
  rw [h.inflight, hplaces] at henough
  have hold := h.reported
  constructor
  · rw [hperiods, hdeliveries]
    exact ⟨congrArg (· + 1) h.delivered.1, hlt⟩
  · rw [hperiods]
    exact h.gathers
  · rw [hperiods]
    exact h.reports
  · rw [hperiods]
    exact h.readable
  · rw [hreported, hsends]
    omega
  · rw [hreported, hsends]
    dsimp only
    rw [hinflight, UInt32.toNat_sub_of_le _ _ hle, h.inflight, hplaces]
    omega

/-- Every event keeps the account. -/
theorem Accounted.step {event : FlowEvent} (h : Accounted first events s) (hstep : s.step rounds first event = .ok s') :
    Accounted first (events ++ [event]) s' := by
  cases event with
  | processSendPacket2 localTimestampUs size => exact h.send hstep
  | recvPacket atUs index => exact h.arrive hstep
  | fbTimer atUs => exact h.timer hstep
  | processFeedback2 nowUs => exact h.deliver hstep

private theorem accounted_run {controller : CcfsController} {ssrc : UInt32}
    (hrun : run (CcfsFlow.step rounds first) (.start controller ssrc) events = .ok s) : Accounted first events s := by
  refine run_induction (CcfsFlow.step rounds first) (motive := Accounted first) (accounted_start controller ssrc) ?_ hrun
  intro events event mid s' _ hmid hstep
  exact hmid.step hstep

/-- A report that is delivered is covered exactly when its window fits. -/
theorem Accounted.covered_iff {nowUs : UInt64} (h : Accounted first events s)
    (hnext : Returns s.nextFeedback) : s.Covered (.processFeedback2 nowUs) ↔ Fits first events := by
  obtain ⟨feedback, hfeedback⟩ := hnext
  obtain ⟨period, count, hperiod, hcount, hplaces⟩ := h.nextFeedback hfeedback
  have hle : count ≤ s.sender.inflightPktCount ↔
      places first period ≤ (sends events - placesReported first events) % 2 ^ 32 := by
    rw [UInt32.le_iff_toNat_le, h.inflight, hplaces]
  constructor
  · intro hcovered period' hperiod'
    cases hperiod.symm.trans hperiod'
    exact hle.mp (hcovered feedback count hfeedback hcount)
  · intro hfits feedback' count' hfeedback' hcount'
    cases hfeedback.symm.trans hfeedback'
    cases hcount.symm.trans hcount'
    exact hle.mpr (hfits period hperiod)

end Steps

section Ordered
variable {first : RtpPacket} {events : List FlowEvent} {rounds : Nat} {s : CcfsFlow}

private theorem ended_append (before after : List FlowEvent) :
    (periods before).ended <+: (periods (before ++ after)).ended := by
  induction after using List.reverseRecOn with
  | nil => rw [List.append_nil]
  | append_singleton after event ih =>
    rw [← List.append_assoc, periods_snoc]
    cases event with
    | fbTimer atUs => exact ih.trans (List.prefix_append _ _)
    | processSendPacket2 localTimestampUs size => exact ih
    | recvPacket atUs index => exact ih
    | processFeedback2 nowUs => exact ih

/-- Only packets that were sent are on their way or have arrived. -/
structure Known (count : ℕ) (periods : Periods) (s : CcfsFlow) : Prop where
  sent : s.sent = count
  underway : ∀ index ∈ s.underway, index < count
  last : ∀ index ∈ periods.last, index < count
  ended : ∀ period ∈ periods.ended, ∀ index ∈ period, index < count

theorem Known.step {count : ℕ} {periods : Periods} {event : FlowEvent} {s' : CcfsFlow} (h : Known count periods s)
    (hpossible : s.Possible first event) (hstep : s.step rounds first event = .ok s') :
    Known (count + if event.isSend then 1 else 0) (periods.add event) s' := by
  cases event with
  | processSendPacket2 localTimestampUs size =>
    obtain ⟨⟨result, sender⟩, -, he⟩ := bind_eq_ok.mp hstep
    cases he
    constructor
    · exact congrArg (· + 1) h.sent
    · intro index hindex
      rcases List.mem_append.mp hindex with hold | hnew
      · exact (h.underway index hold).trans (Nat.lt_succ_self _)
      · rw [List.mem_singleton.mp hnew, h.sent]
        exact Nat.lt_succ_self _
    · exact fun index hindex => (h.last index hindex).trans (Nat.lt_succ_self _)
    · exact fun period hperiod index hindex => (h.ended period hperiod index hindex).trans (Nat.lt_succ_self _)
  | recvPacket atUs index =>
    obtain ⟨receiving, -, he⟩ := bind_eq_ok.mp hstep
    cases he
    constructor
    · exact h.sent
    · exact fun other hother => h.underway other (List.mem_of_mem_erase hother)
    · intro other hother
      rcases List.mem_append.mp hother with hold | hnew
      · exact h.last other hold
      · rw [List.mem_singleton.mp hnew]
        exact h.underway index hpossible.1
    · exact h.ended
  | fbTimer atUs =>
    obtain ⟨receiving, -, he⟩ := bind_eq_ok.mp hstep
    cases he
    constructor
    · exact h.sent
    · exact h.underway
    · exact nofun
    · intro period hperiod
      rcases List.mem_append.mp hperiod with hold | hnew
      · exact h.ended period hold
      · rw [List.mem_singleton.mp hnew]
        exact h.last
  | processFeedback2 nowUs =>
    obtain ⟨feedback, -, hstep⟩ := bind_eq_ok.mp hstep
    obtain ⟨⟨result, sender⟩, -, he⟩ := bind_eq_ok.mp hstep
    cases he
    exact ⟨h.sent, h.underway, h.last, h.ended⟩

private theorem known_run {controller : CcfsController} {ssrc : UInt32}
    (hpossible : Along (CcfsFlow.step rounds first) (CcfsFlow.Possible first) (.start controller ssrc) events)
    (hrun : run (CcfsFlow.step rounds first) (.start controller ssrc) events = .ok s) :
    Known (sends events) (periods events) s := by
  induction events using List.reverseRecOn generalizing s with
  | nil =>
    cases hrun
    exact ⟨rfl, nofun, nofun, nofun⟩
  | append_singleton events event ih =>
    obtain ⟨mid, hmid, hstep⟩ := (run_snoc _).mp hrun
    rw [sends_snoc, periods_snoc]
    exact (ih hpossible.init hmid).step (hpossible.last hmid) hstep

private theorem ahead_packetAt (first : RtpPacket) {a b : ℕ} (hle : a ≤ b) (hlt : b - a < 65536) :
    ahead (packetAt first a).sequence (packetAt first b).sequence = b - a := by
  have hsum : (packetAt first b).sequence = (packetAt first a).sequence + UInt16.ofNat (b - a) := by
    rw [packetAt, packetAt, UInt16.add_assoc, ← UInt16.ofNat_add, Nat.add_sub_cancel' hle]
  rw [hsum, ahead_add _ hlt]

private theorem places_narrow (first : RtpPacket) {period : List ℕ} (hne : period ≠ [])
    (hnarrow : ∀ a ∈ period, ∀ b ∈ period, a < b + 100) :
    ∃ lo ∈ period, ∃ hi ∈ period, lo ≤ hi ∧ places first period = hi - lo + 1 := by
  obtain ⟨least, hleast, hmin⟩ :=
    Finset.exists_min_image period.toFinset id ((List.toFinset_nonempty_iff period).mpr hne)
  rw [List.mem_toFinset] at hleast
  have hclose : ∀ seq ∈ numbers first period, ahead (packetAt first least).sequence seq < 100 := by
    intro seq hseq
    obtain ⟨index, hindex, rfl⟩ := List.mem_map.mp hseq
    have hle : least ≤ index := hmin index (List.mem_toFinset.mpr hindex)
    have hlt := hnarrow index hindex least hleast
    rw [ahead_packetAt first hle (by omega)]
    omega
  have hseqs : numbers first period ≠ [] := mt List.map_eq_nil_iff.mp hne
  obtain ⟨loSeq, hloSeq, hiSeq, hhiSeq, hsize, hshort, -⟩ := windowBounds_narrow hseqs hclose
  obtain ⟨lo, hlo, rfl⟩ := List.mem_map.mp hloSeq
  obtain ⟨hi, hhi, rfl⟩ := List.mem_map.mp hhiSeq
  have hle : lo ≤ hi := by
    by_contra hlt
    have hback := hnarrow lo hlo hi hhi
    have hway := ahead_packetAt first (Nat.le_of_not_le hlt) (by omega)
    have hfirst := (packetAt first lo).sequence.toNat_lt
    have hsecond := (packetAt first hi).sequence.toNat_lt
    rw [ahead_eq] at hshort hway
    omega
  have hforth := hnarrow hi hhi lo hlo
  refine ⟨lo, hlo, hi, hhi, hle, ?_⟩
  rw [places, placesOf, hsize, ahead_packetAt first hle (by omega)]
  omega

private theorem sum_places_le (first : RtpPacket) {list : List (List ℕ)} {bound : ℕ}
    (hacross : list.Pairwise fun p q => ∀ a ∈ p, ∀ b ∈ q, a < b)
    (hnarrow : ∀ period ∈ list, ∀ a ∈ period, ∀ b ∈ period, a < b + 100)
    (hbound : ∀ period ∈ list, ∀ index ∈ period, index < bound) : (list.map (places first)).sum ≤ bound := by
  induction list using List.reverseRecOn generalizing bound with
  | nil => exact Nat.zero_le bound
  | append_singleton list period ih =>
    rw [List.pairwise_append] at hacross
    rw [List.map_append, List.sum_append, List.map_singleton, List.sum_singleton]
    have hnarrow' : ∀ other ∈ list, ∀ a ∈ other, ∀ b ∈ other, a < b + 100 :=
      fun other hother => hnarrow other (List.mem_append_left _ hother)
    by_cases hne : period = []
    · subst hne
      exact ih hacross.1 hnarrow' fun other hother => hbound other (List.mem_append_left _ hother)
    · obtain ⟨lo, hlo, hi, hhi, hle, hplaces⟩ := places_narrow first hne (hnarrow period (by simp))
      -- The earlier periods end before the first packet of this one.
      have hrest : (list.map (places first)).sum ≤ lo :=
        ih hacross.1 hnarrow' fun other hother index hindex =>
          hacross.2.2 other hother period (List.mem_singleton_self _) index hindex lo hlo
      have hlast := hbound period (by simp) hi hhi
      omega

/-- The windows of ordered periods fit, whatever happens after them. -/
theorem Known.fits {before after : List FlowEvent} (hknown : Known (sends before) (periods before) s)
    (hordered : Ordered (before ++ after)) (hcount : sends (before ++ after) < 2 ^ 32) : Fits first before := by
  intro period hperiod
  have hinitial := (List.take_prefix (deliveries before + 1) (periods before).ended).trans (ended_append before after)
  have hsum : placesReported first before + places first period ≤ sends before := by
    have hle := sum_places_le first (hordered.across.sublist hinitial.sublist)
      (fun period hmem => hordered.close period (hinitial.subset hmem))
      fun period hmem => hknown.ended period (List.mem_of_mem_take hmem)
    rw [List.take_add_one, hperiod] at hle
    simpa [placesReported] using hle
  have hsends : sends before ≤ sends (before ++ after) := by
    rw [sends, sends, List.countP_append]
    exact Nat.le_add_right _ _
  rw [Nat.mod_eq_of_lt (by omega)]
  omega

private theorem Ordered.fits {controller : CcfsController} {ssrc : UInt32} {before after : List FlowEvent}
    {event : FlowEvent} (hordered : Ordered events)
    (hpossible : Along (CcfsFlow.step rounds first) (CcfsFlow.Possible first) (.start controller ssrc) events)
    (hcount : sends events < 2 ^ 32) (he : events = before ++ event :: after)
    (hrun : run (CcfsFlow.step rounds first) (.start controller ssrc) before = .ok s) : Fits first before := by
  subst he
  exact (known_run hpossible.init hrun).fits hordered hcount

end Ordered

section Runs
variable {first : RtpPacket} {events : List FlowEvent} {rounds : Nat} {controller : CcfsController} {ssrc : UInt32}

private theorem covered_along_iff
    (hpossible : Along (CcfsFlow.step rounds first) (CcfsFlow.Possible first) (.start controller ssrc) events) :
    Along (CcfsFlow.step rounds first) CcfsFlow.Covered (.start controller ssrc) events ↔
      ∀ before nowUs after, events = before ++ .processFeedback2 nowUs :: after →
        Returns (run (CcfsFlow.step rounds first) (.start controller ssrc) before) → Fits first before := by
  constructor
  · rintro hcovered before nowUs after he ⟨s, hrun⟩
    have hnext : Returns s.nextFeedback := hpossible before _ after he s hrun
    exact ((accounted_run hrun).covered_iff hnext).mp (hcovered before _ after he s hrun)
  · intro hfits before event after he s hrun
    cases event with
    | processFeedback2 nowUs =>
      have hnext : Returns s.nextFeedback := hpossible before _ after he s hrun
      exact ((accounted_run hrun).covered_iff hnext).mpr (hfits before nowUs after he ⟨s, hrun⟩)
    | processSendPacket2 localTimestampUs size => trivial
    | recvPacket atUs index => trivial
    | fbTimer atUs => trivial

/-- In every run of a flow the reports that are delivered are covered by the packets in flight
exactly when the window of each of them fits, as all windows of ordered periods do. -/
theorem reports_covered_iff
    (hpossible : Along (CcfsFlow.step rounds first) (CcfsFlow.Possible first) (.start controller ssrc) events) :
    (Along (CcfsFlow.step rounds first) CcfsFlow.Covered (.start controller ssrc) events ↔
      ∀ before nowUs after, events = before ++ .processFeedback2 nowUs :: after →
        Returns (run (CcfsFlow.step rounds first) (.start controller ssrc) before) → Fits first before) ∧
    (Ordered events → sends events < 2 ^ 32 →
      Along (CcfsFlow.step rounds first) CcfsFlow.Covered (.start controller ssrc) events) := by
  refine ⟨covered_along_iff hpossible, fun hordered hcount => (covered_along_iff hpossible).mpr ?_⟩
  rintro before nowUs after he ⟨s, hrun⟩
  exact hordered.fits hpossible hcount he hrun

end Runs

/-- Packets that overtake each other within a period, across the end of the number range. -/
theorem reports_covered_iff_overtaking :
    let first : RtpPacket := ⟨1, 5000, 77, 65534⟩
    let events : List FlowEvent := [.processSendPacket2 1000 1000, .processSendPacket2 11000 1000,
      .processSendPacket2 21000 1000, .recvPacket 31000 2, .recvPacket 51000 0, .fbTimer 131000,
      .processFeedback2 150000, .processSendPacket2 160000 1000, .recvPacket 190000 3, .fbTimer 231000,
      .processFeedback2 250000]
    Along (CcfsFlow.step 1 first) CcfsFlow.Covered (.start .constructed 9) events := by
  intro first events
  have hordered : Ordered events := ⟨by decide, by decide⟩
  exact (reports_covered_iff (by decide +kernel)).2 hordered (by decide)

/-- The second of three packets arrives after the report that has a place for it already, and is
reported once more when nothing is in flight. -/
theorem late_packet_not_covered :
    let first : RtpPacket := ⟨1, 5000, 77, 1⟩
    let events : List FlowEvent := [.processSendPacket2 1000 1000, .processSendPacket2 11000 1000,
      .processSendPacket2 21000 1000, .recvPacket 31000 0, .recvPacket 51000 2, .fbTimer 131000,
      .recvPacket 140000 1, .processFeedback2 150000, .fbTimer 231000]
    let last : FlowEvent := .processFeedback2 250000
    Along (CcfsFlow.step 1 first) (CcfsFlow.Possible first) (.start .constructed 9) (events ++ [last]) ∧
      ¬ Along (CcfsFlow.step 1 first) CcfsFlow.Covered (.start .constructed 9) (events ++ [last]) ∧
      ∃ s, run (CcfsFlow.step 1 first) (.start .constructed 9) events = .ok s ∧ s.sender.inflightPktCount = 0 ∧
        (s.step 1 first last).map CcfsFlow.sent = .error .assertion := by
  intro first events last
  have hpossible : Along (CcfsFlow.step 1 first) (CcfsFlow.Possible first) (.start .constructed 9)
      (events ++ [last]) := by decide +kernel
  have hfacts : (run (CcfsFlow.step 1 first) (.start .constructed 9) events).map (fun s =>
      decide (s.sender.inflightPktCount = 0 ∧ (s.step 1 first last).map CcfsFlow.sent = .error .assertion ∧
        (s.nextFeedback >>= getTotalReportCount) = .ok 1)) = .ok true := by
    decide +kernel
  obtain ⟨s, hrun, hdecided⟩ := map_eq_ok.mp hfacts
  obtain ⟨hnone, hfatal, hone⟩ := of_decide_eq_true hdecided
  obtain ⟨feedback, hfeedback, hcount⟩ := bind_eq_ok.mp hone
  refine ⟨hpossible, fun hcovered => ?_, s, hrun, hnone, hfatal⟩
  have hle := hcovered.last hrun feedback 1 hfeedback hcount
  rw [hnone] at hle
  exact absurd hle (by decide)

end Ns3Rmcat.Flow
