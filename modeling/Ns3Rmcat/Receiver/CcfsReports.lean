import Ns3Rmcat.Receiver.Ccfs

/-! What the reports of the CCFS receiver tell, read on the other side: the packets
that arrived in each period and when, over any run in which they fit a report. -/
namespace Ns3Rmcat.Receiver
open Lib Header RfbHeader

theorem arrivals_recv (events : List Event) (atUs : UInt64) (packet : RtpPacket) :
    arrivals (events ++ [.recvPacket atUs packet]) = arrivals events ++ [(atUs, packet)] := by
  simp [arrivals]

theorem arrivals_timer (events : List Event) (atUs : UInt64) :
    arrivals (events ++ [.fbTimer atUs]) = [] := by
  simp [arrivals]

theorem timers_recv (events : List Event) (atUs : UInt64) (packet : RtpPacket) :
    timers (events ++ [.recvPacket atUs packet]) = timers events := by
  simp [timers]

theorem timers_timer (events : List Event) (atUs : UInt64) :
    timers (events ++ [.fbTimer atUs]) = timers events + 1 := by
  simp [timers]

theorem origin_append {events : List Event} (hne : events ≠ []) (more : List Event) :
    origin (events ++ more) = origin events := by
  obtain ⟨event, rest, rfl⟩ := List.exists_cons_of_ne_nil hne
  rfl

/-- The first arrival of a number is the new one only when it had not arrived. -/
theorem firstArrival_snoc (arrived : List (UInt64 × RtpPacket)) (atUs : UInt64) (packet : RtpPacket)
    (seq : UInt16) : firstArrival (arrived ++ [(atUs, packet)]) seq =
      (firstArrival arrived seq).or (if packet.sequence = seq then some atUs else none) := by
  unfold firstArrival
  rw [List.find?_append]
  cases h : arrived.find? fun arrival => arrival.2.sequence = seq with
  | some arrival => rfl
  | none =>
    by_cases hseq : packet.sequence = seq
    · simp [hseq]
    · simp [hseq]

theorem firstArrival_mem {arrived : List (UInt64 × RtpPacket)} {seq : UInt16} {atUs : UInt64}
    (h : firstArrival arrived seq = some atUs) : ∃ packet, (atUs, packet) ∈ arrived ∧ packet.sequence = seq := by
  obtain ⟨⟨firstUs, packet⟩, hfind, rfl⟩ := Option.map_eq_some_iff.mp h
  exact ⟨packet, List.mem_of_find?_eq_some hfind, by simpa using List.find?_some hfind⟩

/-- What a header has recorded about one number of the flow. -/
def recorded (ssrc : UInt32) (refUs : UInt64) (arrived : List (UInt64 × RtpPacket)) (ssrc' : UInt32)
    (seq : UInt16) : Option RfbMetricBlock :=
  if ssrc' = ssrc then (firstArrival arrived seq).map fun atUs => ⟨0, (atUs - refUs) / 1000⟩ else none

/-- A header that holds the packets of the period so far, after so many reports. -/
structure Holds (ssrc : UInt32) (refUs : UInt64) (arrived : List (UInt64 × RtpPacket)) (count : Nat)
    (h : RfbHeader) : Prop where
  tidy : Tidy h
  settled : h.reportBlocks ≠ ∅ → Settled h
  fbSeq : h.fbSeq = UInt16.ofNat count
  entries : ∀ ssrc' seq, lookup? h.reportBlocks ssrc' seq = recorded ssrc refUs arrived ssrc' seq

private theorem addFeedback_fbSeq (h : RfbHeader) (ssrc : UInt32) (seq : UInt16) (ts : UInt64) (ecn : UInt8) :
    (h.addFeedback ssrc seq ts ecn).2.fbSeq = h.fbSeq := by
  rcases h.addFeedback_cases ssrc seq ts ecn with ⟨-, he⟩ | ⟨-, -, he⟩ | ⟨-, -, he⟩
  · rw [he]
  · rw [he]
  · rw [he, update_snd]
    rfl

private theorem Holds.addFeedback {ssrc : UInt32} {refUs : UInt64} {arrived : List (UInt64 × RtpPacket)} {count : Nat}
    {h : RfbHeader} (hh : Holds ssrc refUs arrived count h) (atUs : UInt64) (packet : RtpPacket) :
    Holds ssrc refUs (arrived ++ [(atUs, packet)]) count
      (h.addFeedback ssrc packet.sequence ((atUs - refUs) / 1000) 0).2 ∧
    Settled (h.addFeedback ssrc packet.sequence ((atUs - refUs) / 1000) 0).2 := by
  have hsettled : Settled (h.addFeedback ssrc packet.sequence ((atUs - refUs) / 1000) 0).2 :=
    @settled_apply h (.addFeedback ssrc packet.sequence ((atUs - refUs) / 1000) 0) UInt8.zero_le hh.settled
  refine ⟨⟨hh.tidy.addFeedback _ _ _ _, fun _ => hsettled, ?_, fun ssrc' seq => ?_⟩, hsettled⟩
  · rw [addFeedback_fbSeq]
    exact hh.fbSeq
  · have hold := hh.entries ssrc packet.sequence
    rw [recorded, if_pos rfl] at hold
    rcases h.addFeedback_cases ssrc packet.sequence ((atUs - refUs) / 1000) 0 with
      ⟨hbad, -⟩ | ⟨-, hsome, he⟩ | ⟨-, hnone, he⟩
    · exact absurd hbad (by decide)
    · -- The number has arrived before, so that its first arrival stays.
      rw [he, hh.entries, recorded, recorded, firstArrival_snoc]
      rw [hold, Option.isSome_map] at hsome
      obtain ⟨firstUs, hfirst⟩ := Option.isSome_iff_exists.mp hsome
      by_cases hs : packet.sequence = seq
      · subst hs
        rw [hfirst]
        rfl
      · rw [if_neg hs, Option.or_none]
    · rw [hold, Option.map_eq_none_iff] at hnone
      rw [he, update_snd]
      simp only [withEntry, lookup?_recordEntry, hh.entries, recorded, firstArrival_snoc]
      by_cases hk : ssrc' = ssrc
      · subst hk
        by_cases hs : packet.sequence = seq
        · subst hs
          simp [hnone]
        · simp [hs]
      · simp [hk, Ne.symm hk]

private theorem Holds.clean {ssrc : UInt32} {refUs : UInt64} {arrived : List (UInt64 × RtpPacket)} {count : Nat}
    {h : RfbHeader} (hh : Holds ssrc refUs arrived count h) :
    Holds ssrc refUs [] count h.cleanReportBlocks ∧ Settled h.cleanReportBlocks := by
  have hsettled : Settled h.cleanReportBlocks := settled_update _
  refine ⟨⟨hh.tidy.clean, fun _ => hsettled, ?_, fun ssrc' seq => ?_⟩, hsettled⟩
  · rw [cleanReportBlocks, update_snd]
    exact hh.fbSeq
  · rw [cleanReportBlocks, update_snd]
    simp [lookup?, recorded, firstArrival]

private theorem Holds.key {ssrc : UInt32} {refUs : UInt64} {arrived : List (UInt64 × RtpPacket)} {count : Nat}
    {h : RfbHeader} (hh : Holds ssrc refUs arrived count h) {ssrc' : UInt32} (hmem : ssrc' ∈ h.reportBlocks) :
    ssrc' = ssrc := by
  by_contra hne
  refine hh.tidy.filled.notMem (fun seq => ?_) hmem
  rw [hh.entries, recorded, if_neg hne]

private theorem Holds.length_toList {ssrc : UInt32} {refUs : UInt64} {arrived : List (UInt64 × RtpPacket)} {count : Nat}
    {h : RfbHeader} (hh : Holds ssrc refUs arrived count h) : h.reportBlocks.toList.length ≤ 1 :=
  length_toList_le_one fun _ hmem => hh.key hmem

/-- The numbers that arrived in a period lie in some window of at most 100 consecutive numbers. -/
def NarrowArrivals (arrived : List (UInt64 × RtpPacket)) : Prop :=
  ∃ first, ∀ arrival ∈ arrived, ahead first arrival.2.sequence < 100

private theorem Holds.narrow {ssrc : UInt32} {refUs : UInt64} {arrived : List (UInt64 × RtpPacket)} {count : Nat}
    {h : RfbHeader} (hh : Holds ssrc refUs arrived count h) (hnarrow : NarrowArrivals arrived)
    {ssrc' : UInt32} {rb : RfbReportBlock} (hrb : h.reportBlocks[ssrc']? = some rb) : Narrow rb := by
  obtain ⟨first, hfirst⟩ := hnarrow
  refine ⟨first, fun seq hseq => ?_⟩
  have hentry := hh.entries ssrc' seq
  rw [lookup?_eq, hrb] at hentry
  obtain ⟨mb, hmb⟩ := Option.isSome_iff_exists.mp (Std.ExtTreeMap.isSome_getElem?_iff_mem.mpr hseq)
  rw [Option.bind_some, hmb, recorded] at hentry
  split at hentry
  · obtain ⟨atUs, hat, -⟩ := Option.map_eq_some_iff.mp hentry.symm
    obtain ⟨packet, hmem, rfl⟩ := firstArrival_mem hat
    exact hfirst _ hmem
  · cases hentry

private theorem Holds.encodedLen_le {ssrc : UInt32} {refUs : UInt64} {arrived : List (UInt64 × RtpPacket)} {count : Nat}
    {h : RfbHeader} (hh : Holds ssrc refUs arrived count h) (hnarrow : NarrowArrivals arrived) :
    encodedLen h.reportBlocks ≤ 228 := by
  have hblock : ∀ rb ∈ h.reportBlocks.toList, blockLen (calcCountEndSeq rb.2).1.toNat ≤ 208 := by
    intro rb hrb
    have hget := mem_toList.mp hrb
    have hsize := windowSize_narrow (hh.narrow hnarrow hget)
    rw [toNat_count (hh.tidy.filled rb.1 rb.2 hget) (by omega), blockLen]
    omega
  have hone := hh.length_toList
  rw [encodedLen]
  cases hblocks : h.reportBlocks.toList with
  | nil => simp
  | cons rb rest =>
    rw [hblocks, List.length_cons] at hone
    have hrest : rest = [] := List.eq_nil_of_length_eq_zero (by omega)
    have hlen := hblock rb (by simp [hblocks])
    rw [hrest, List.map_cons, List.map_nil, List.sum_cons, List.sum_nil]
    omega

private theorem Holds.complete {ssrc : UInt32} {refUs nowUs : UInt64} {arrived : List (UInt64 × RtpPacket)}
    {count : Nat} {h : RfbHeader} (hh : Holds ssrc refUs arrived count h) (hsettled : Settled h)
    (hnarrow : NarrowArrivals arrived) (hshort : (nowUs.toNat - refUs.toNat) / 1000 < 2 ^ 32)
    (hnow : refUs.toNat ≤ nowUs.toNat)
    (harrived : ∀ arrival ∈ arrived, refUs.toNat ≤ arrival.1.toNat ∧ arrival.1.toNat ≤ nowUs.toNat ∧
      nowUs.toNat ≤ arrival.1.toNat + 100000) (monitored : UInt16) :
    Complete ((h.increaseFbSeq.setReportTime ((nowUs - refUs) / 1000)).setMonitoredTime monitored) := by
  have hmilli {atUs : UInt64} (hle : refUs.toNat ≤ atUs.toNat) :
      ((atUs - refUs) / 1000).toNat = (atUs.toNat - refUs.toNat) / 1000 := by
    rw [UInt64.toNat_div, UInt64.toNat_sub_of_le _ _ (UInt64.le_iff_toNat_le.mpr hle)]
    rfl
  have hlen := hh.encodedLen_le hnarrow
  refine ⟨((hh.tidy.apply .increaseFbSeq).apply (.setReportTime _)).apply (.setMonitoredTime _), hsettled, ?_, ?_,
    ?_, ?_⟩
  · exact hlen.trans (by decide)
  · exact fun ssrc' rb hrb => (windowSize_narrow (hh.narrow hnarrow hrb)).trans_lt (by decide)
  · exact (hmilli hnow).trans_lt hshort
  · intro ssrc' seq mb hmb
    have hentry := (hh.entries ssrc' seq).symm.trans hmb
    rw [recorded] at hentry
    split at hentry
    · obtain ⟨atUs, hat, rfl⟩ := Option.map_eq_some_iff.mp hentry
      obtain ⟨packet, hmem, -⟩ := firstArrival_mem hat
      obtain ⟨h1, h2, h3⟩ := harrived _ hmem
      dsimp only at h1 h2 h3
      have hts := hmilli h1
      have htime := hmilli hnow
      simp only [setMonitoredTime, setReportTime]
      omega
    · cases hentry

def SameFlow (flow : RtpPacket) (events : List Event) : Prop :=
  ∀ atUs packet, Event.recvPacket atUs packet ∈ events →
    packet.ssrc = flow.ssrc ∧ packet.srcIp = flow.srcIp ∧ packet.srcPort = flow.srcPort

/-- What holds of a receiver after some events, the first of which is a packet. -/
structure Follows (flow : RtpPacket) (events : List Event) (s : Reporting) : Prop where
  nonempty : events ≠ []
  waiting : s.receiver.waiting = false
  source : s.receiver.remoteSsrc = flow.ssrc ∧ s.receiver.srcIp = flow.srcIp ∧ s.receiver.srcPort = flow.srcPort
  period : s.receiver.fbPeriodMs = 100
  reference : s.receiver.refPointUs.toNat = origin events ∧ 0 < origin events
  /-- The period that goes on began on the clock, and ends when the timer handler runs. -/
  due : ∃ beginUs : UInt64, beginUs.toNat = origin events + 100000 * timers events ∧
    beginUs ≤ s.nowUs ∧ s.receiver.fbEvent = some (beginUs + 100000) ∧
    ∀ arrival ∈ arrivals events, beginUs ≤ arrival.1 ∧ arrival.1 ≤ s.nowUs
  holds : Holds flow.ssrc s.receiver.refPointUs (arrivals events) (timers events) s.receiver.fbHeader
  settled : Settled s.receiver.fbHeader

private theorem recvPacket_first (ssrc : UInt32) (nowUs : UInt64) (packet : RtpPacket) :
    (RmcatCcfsReceiver.start ssrc).recvPacket nowUs packet = .ok
      { waiting := false, ssrc := ssrc, remoteSsrc := packet.ssrc, srcIp := packet.srcIp, srcPort := packet.srcPort,
        fbPeriodMs := 100, fbEvent := some (nowUs + 100000), refPointUs := nowUs
        fbHeader := ({ fresh with common := fresh.common.setSendSsrc ssrc }.addFeedback packet.ssrc
          packet.sequence ((nowUs - nowUs) / 1000) 0).2 } := by
  have hperiod : (100 : UInt32).toUInt64 * 1000 = 100000 := by decide
  rw [RmcatCcfsReceiver.recvPacket, RmcatCcfsReceiver.start, RmcatCcfsReceiver.schedule]
  simp only [if_true, hperiod, ok_bind, pure_eq_ok]
  rfl

private theorem step_recv {s : Reporting} {r : RmcatCcfsReceiver} {atUs : UInt64} {packet : RtpPacket}
    (h : s.receiver.recvPacket atUs packet = .ok r) :
    s.step (.recvPacket atUs packet) = .ok { s with nowUs := atUs, receiver := r } := by
  rw [Reporting.step, h]
  rfl

private theorem recvPacket_next {r : RmcatCcfsReceiver} (nowUs : UInt64) {packet : RtpPacket}
    (hstarted : r.refPointUs ≠ 0) (hwaiting : r.waiting = false) (hssrc : r.remoteSsrc = packet.ssrc)
    (hip : r.srcIp = packet.srcIp) (hport : r.srcPort = packet.srcPort) :
    r.recvPacket nowUs packet = .ok { r with
      fbHeader := (r.fbHeader.addFeedback r.remoteSsrc packet.sequence ((nowUs - r.refPointUs) / 1000) 0).2 } := by
  rw [RmcatCcfsReceiver.recvPacket]
  simp only [if_neg hstarted, hwaiting, Bool.false_eq_true, if_false, check_of hssrc, check_of hip,
    check_of hport, ok_bind]
  rfl

/-- The first event of a run is a packet, from which the periods are counted. -/
theorem follows_first {ssrc : UInt32} {flow : RtpPacket} {event : Event}
    (horder : (Reporting.start ssrc).InOrder event) (hflow : SameFlow flow [event]) :
    ∃ s, (Reporting.start ssrc).step event = .ok s ∧ s.reports = [] ∧ Follows flow [event] s := by
  cases event with
  | fbTimer atUs => cases horder.2
  | recvPacket atUs packet =>
    obtain ⟨hssrc, hip, hport⟩ := hflow atUs packet (by simp)
    have hpos : 0 < atUs.toNat := UInt64.lt_iff_toNat_lt.mp horder.2.1
    have hempty : Holds flow.ssrc atUs [] 0 { fresh with common := fresh.common.setSendSsrc ssrc } :=
      ⟨⟨⟨filled_empty, by simp [fresh, lookup?], rfl, rfl, tidy_fresh.length⟩, by simp [fresh]⟩,
        fun hne => absurd rfl hne, rfl, by simp [fresh, lookup?, recorded, firstArrival]⟩
    obtain ⟨hholds, hsettled⟩ := hempty.addFeedback atUs packet
    rw [← hssrc] at hholds hsettled
    refine ⟨_, step_recv (recvPacket_first ssrc atUs packet), rfl, ?_⟩
    exact
      { nonempty := by simp
        waiting := rfl
        source := ⟨hssrc, hip, hport⟩
        period := rfl
        reference := ⟨rfl, hpos⟩
        due := ⟨atUs, rfl, UInt64.le_refl _, rfl, by simp [arrivals]⟩
        holds := hssrc ▸ hholds
        settled := hsettled }

/-- Any other packet of the flow leaves the run as it should be. -/
theorem follows_recv {flow packet : RtpPacket} {events : List Event} {s : Reporting} {atUs : UInt64}
    (hs : Follows flow events s) (horder : s.InOrder (.recvPacket atUs packet))
    (hflow : packet.ssrc = flow.ssrc ∧ packet.srcIp = flow.srcIp ∧ packet.srcPort = flow.srcPort) :
    ∃ s', s.step (.recvPacket atUs packet) = .ok s' ∧ s'.reports = s.reports ∧
      Follows flow (events ++ [.recvPacket atUs packet]) s' := by
  obtain ⟨hssrc, hip, hport⟩ := hs.source
  have hstarted : s.receiver.refPointUs ≠ 0 := by
    intro h0
    have href := hs.reference
    rw [h0] at href
    simp only [UInt64.reduceToNat] at href
    omega
  obtain ⟨hholds, hsettled⟩ := hs.holds.addFeedback atUs packet
  rw [← hssrc] at hsettled
  obtain ⟨beginUs, hbegin, hle, hdue, harrived⟩ := hs.due
  have hrecv := recvPacket_next atUs hstarted hs.waiting (hssrc.trans hflow.1.symm)
    (hip.trans hflow.2.1.symm) (hport.trans hflow.2.2.symm)
  refine ⟨_, step_recv hrecv, rfl, ?_⟩
  exact
    { nonempty := by simp
      waiting := hs.waiting
      source := hs.source
      period := hs.period
      reference := by
        rw [origin_append hs.nonempty]
        exact hs.reference
      due := by
        refine ⟨beginUs, ?_, UInt64.le_trans hle horder.1, hdue, fun arrival harrival => ?_⟩
        · rw [origin_append hs.nonempty, timers_recv]
          exact hbegin
        · rw [arrivals_recv, List.mem_append, List.mem_singleton] at harrival
          rcases harrival with hold | rfl
          · exact ⟨(harrived arrival hold).1, UInt64.le_trans (harrived arrival hold).2 horder.1⟩
          · exact ⟨UInt64.le_trans hle horder.1, UInt64.le_refl _⟩
      holds := by
        rw [arrivals_recv, timers_recv, hssrc]
        exact hholds
      settled := hsettled }

/-- The octets of a report, read into a fresh header, tell the packets of the period that the
events before it end with, when they arrived first, and the time and number of the report. -/
def Reported (flow : RtpPacket) (before : List Event) (atUs : UInt64) (bytes : Octets) : Prop :=
  ∃ n g left, fresh.deserialize bytes = .ok (n, g, left) ∧ n.toNat = bytes.length ∧
    g.reportTimeMs.toNat = elapsedMs before atUs ∧ g.fbSeq = UInt16.ofNat (timers before + 1) ∧
    (∀ ssrc seq, lookup? g.reportBlocks ssrc seq =
      if ssrc = flow.ssrc then
        (firstArrival (arrivals before) seq).map fun firstUs => ⟨0, UInt64.ofNat (elapsedMs before firstUs)⟩
      else none) ∧
    (arrivals before = [] → g.reportBlocks = ∅)

private theorem step_timer {s : Reporting} {r : RmcatCcfsReceiver} {atUs : UInt64} {bytes : Octets}
    (h : s.receiver.fbTimerHandler atUs = .ok (r, bytes)) :
    s.step (.fbTimer atUs) = .ok { nowUs := atUs, receiver := r, reports := s.reports ++ [bytes] } := by
  rw [Reporting.step, h]
  rfl

private theorem evenButLast_of_length {blocks : List (UInt32 × RfbReportBlock)} (h : blocks.length ≤ 1) :
    EvenButLast blocks := by
  match blocks, h with
  | [], _ => simp [EvenButLast]
  | [rb], _ => simp [EvenButLast]

/-- When the timer handler runs, one period after its begin. -/
theorem Follows.timer_at {flow : RtpPacket} {events : List Event} {s : Reporting} {atUs : UInt64}
    (hs : Follows flow events s) (horder : s.InOrder (.fbTimer atUs)) :
    atUs.toNat = origin events + 100000 * (timers events + 1) ∧
      ∀ arrival ∈ arrivals events, origin events ≤ arrival.1.toNat ∧ arrival.1.toNat ≤ atUs.toNat ∧
        atUs.toNat ≤ arrival.1.toNat + 100000 := by
  obtain ⟨beginUs, hbegin, hle, hdue, harrived⟩ := hs.due
  obtain ⟨hnow, hat⟩ := horder
  have heq : beginUs + 100000 = atUs := Option.some.inj (hdue.symm.trans hat)
  have hnext := congrArg UInt64.toNat heq
  have hlt := beginUs.toNat_lt
  rw [UInt64.le_iff_toNat_le] at hle
  have hclock : s.nowUs.toNat ≤ atUs.toNat := UInt64.le_iff_toNat_le.mp hnow
  rw [UInt64.toNat_add] at hnext
  simp only [UInt64.reduceToNat] at hnext
  -- The clock has not gone back, so that the time of the handler has not wrapped.
  have hexact : atUs.toNat = beginUs.toNat + 100000 := by omega
  refine ⟨by rw [hexact, hbegin, Nat.mul_succ, Nat.add_assoc], fun arrival harrival => ?_⟩
  obtain ⟨h1, h2⟩ := harrived arrival harrival
  rw [UInt64.le_iff_toNat_le] at h1 h2
  omega

/-- The timer handler sends the packets of the period, and the next period begins. -/
theorem follows_timer {flow : RtpPacket} {events : List Event} {s : Reporting} {atUs : UInt64}
    (hs : Follows flow events s) (horder : s.InOrder (.fbTimer atUs)) (hnarrow : NarrowArrivals (arrivals events))
    (hshort : elapsedMs events atUs < 2 ^ 32) :
    ∃ s' bytes, s.step (.fbTimer atUs) = .ok s' ∧ s'.reports = s.reports ++ [bytes] ∧
      Reported flow events atUs bytes ∧ Follows flow (events ++ [.fbTimer atUs]) s' := by
  obtain ⟨hat, harrived⟩ := hs.timer_at horder
  have href := hs.reference.1
  have helapsed {timeUs : UInt64} (hle : origin events ≤ timeUs.toNat) :
      ((timeUs - s.receiver.refPointUs) / 1000).toNat = elapsedMs events timeUs := by
    rw [UInt64.toNat_div, UInt64.toNat_sub_of_le _ _ (UInt64.le_iff_toNat_le.mpr (href ▸ hle)), href]
    rfl
  have hshort' : (atUs.toNat - s.receiver.refPointUs.toNat) / 1000 < 2 ^ 32 := href ▸ hshort
  have hcomplete := hs.holds.complete hs.settled hnarrow hshort' (by omega) (href ▸ harrived)
    s.receiver.fbPeriodMs.toUInt16
  obtain ⟨bytes, n, g, left, hbytes, hread, hn, hblocks, htime, hseq, -⟩ :=
    hcomplete.deserialize_serialize (evenButLast_of_length hs.holds.length_toList) []
  rw [List.append_nil] at hread
  have hhandler : s.receiver.fbTimerHandler atUs = .ok ({ s.receiver.schedule atUs with
      fbHeader := (s.receiver.report atUs).cleanReportBlocks }, bytes) := by
    rw [RmcatCcfsReceiver.fbTimerHandler]
    exact bind_eq_ok.mpr ⟨bytes, hbytes, rfl⟩
  have hfbSeq : s.receiver.fbHeader.fbSeq + 1 = UInt16.ofNat (timers events + 1) := by
    rw [hs.holds.fbSeq]
    exact (UInt16.ofNat_add _ _).symm
  refine ⟨_, bytes, step_timer hhandler, rfl, ⟨n, g, left, hread, hn, ?_, ?_, fun ssrc seq => ?_, fun hnone => ?_⟩, ?_⟩
  · rw [htime]
    exact helapsed (by omega)
  · rw [hseq]
    exact hfbSeq
  · rw [hblocks]
    refine (hs.holds.entries ssrc seq).trans ?_
    rw [recorded]
    by_cases hk : ssrc = flow.ssrc
    · rw [if_pos hk, if_pos hk]
      refine Option.map_congr fun firstUs hfirst => ?_
      obtain ⟨packet, hmem, -⟩ := firstArrival_mem hfirst
      rw [← helapsed (harrived _ hmem).1, UInt64.ofNat_toNat]
    · rw [if_neg hk, if_neg hk]
  · rw [hblocks]
    refine Std.ExtTreeMap.eq_empty_iff_forall_not_mem.mpr fun ssrc => hs.holds.tidy.filled.notMem fun seq => ?_
    rw [hs.holds.entries, hnone, recorded]
    simp [firstArrival]
  · have hperiod : s.receiver.fbPeriodMs.toUInt64 * 1000 = 100000 := by
      rw [hs.period]
      decide
    have hreport : Holds flow.ssrc s.receiver.refPointUs (arrivals events) (timers events + 1)
        (s.receiver.report atUs) :=
      ⟨((hs.holds.tidy.apply .increaseFbSeq).apply (.setReportTime _)).apply (.setMonitoredTime _),
        fun _ => hs.settled, hfbSeq, hs.holds.entries⟩
    exact
      { nonempty := by simp
        waiting := hs.waiting
        source := hs.source
        period := hs.period
        reference := by
          rw [origin_append hs.nonempty]
          exact hs.reference
        due := by
          refine ⟨atUs, ?_, UInt64.le_refl _, ?_, by simp [arrivals_timer]⟩
          · rw [origin_append hs.nonempty, timers_timer]
            exact hat
          · rw [← hperiod]
            rfl
        holds := by
          rw [arrivals_timer, timers_timer]
          exact hreport.clean.1
        settled := hreport.clean.2 }

/-- The reports sent so far are those of the timer events so far. -/
def AllReported (flow : RtpPacket) (events : List Event) (reports : List Octets) : Prop :=
  reports.length = timers events ∧
    ∀ before atUs after, events = before ++ .fbTimer atUs :: after →
      atUs.toNat = origin before + 100000 * (timers before + 1) ∧
        ∃ bytes, reports[timers before]? = some bytes ∧ Reported flow before atUs bytes

theorem AllReported.recv {flow packet : RtpPacket} {events : List Event} {reports : List Octets} {atUs : UInt64}
    (h : AllReported flow events reports) : AllReported flow (events ++ [.recvPacket atUs packet]) reports := by
  refine ⟨by rw [timers_recv]; exact h.1, fun before timerUs after he => ?_⟩
  rcases snoc_eq_append_cons he with ⟨-, -, hd⟩ | ⟨rest, -, hcs⟩
  · cases hd
  · exact h.2 before timerUs rest hcs

theorem AllReported.timer {flow : RtpPacket} {events : List Event} {reports : List Octets} {atUs : UInt64}
    {bytes : Octets} (h : AllReported flow events reports)
    (hat : atUs.toNat = origin events + 100000 * (timers events + 1)) (hbytes : Reported flow events atUs bytes) :
    AllReported flow (events ++ [.fbTimer atUs]) (reports ++ [bytes]) := by
  refine ⟨by rw [timers_timer, List.length_append, h.1]; rfl, fun before timerUs after he => ?_⟩
  rcases snoc_eq_append_cons he with ⟨-, rfl, hd⟩ | ⟨rest, -, hcs⟩
  · cases hd
    exact ⟨hat, bytes, by rw [← h.1]; simp, hbytes⟩
  · obtain ⟨hat', bytes', hget, hbytes'⟩ := h.2 before timerUs rest hcs
    refine ⟨hat', bytes', ?_, hbytes'⟩
    rw [List.getElem?_append_left (List.getElem?_eq_some_iff.mp hget).1]
    exact hget

/-- Over any run on one flow whose periods are narrow and whose clock lasts, the receiver never
stops, and each report, read into a fresh header, tells the packets of its period: each number
once, with its first arrival, and the time and ordinal of the report. -/
theorem reports_what_arrived {ssrc : UInt32} {flow : RtpPacket} {events : List Event}
    (horder : Along Reporting.step Reporting.InOrder (.start ssrc) events) (hflow : SameFlow flow events)
    (hnarrow : ∀ before, before <+: events → NarrowArrivals (arrivals before))
    (hshort : ∀ event ∈ events, elapsedMs events event.atUs < 2 ^ 32) :
    ∃ s, run Reporting.step (.start ssrc) events = .ok s ∧ AllReported flow events s.reports := by
  suffices h : ∃ s, run Reporting.step (.start ssrc) events = .ok s ∧
      (events = [] ∧ s = .start ssrc ∨ Follows flow events s) ∧ AllReported flow events s.reports by
    obtain ⟨s, hrun, -, hall⟩ := h
    exact ⟨s, hrun, hall⟩
  induction events using List.reverseRecOn with
  | nil => exact ⟨_, rfl, .inl ⟨rfl, rfl⟩, rfl, by simp⟩
  | append_singleton events event ih =>
    have hmem : ∀ {other}, other ∈ events → other ∈ events ++ [event] := fun h => List.mem_append_left _ h
    obtain ⟨s, hrun, hs, hall⟩ := ih horder.init (fun atUs packet hp => hflow atUs packet (hmem hp))
      (fun before hbefore => hnarrow before (hbefore.trans (List.prefix_append _ _)))
      (fun other hother => by
        have hlt := hshort other (hmem hother)
        rwa [elapsedMs, origin_append (List.ne_nil_of_mem hother)] at hlt)
    have hnext := horder.last hrun
    rcases hs with ⟨rfl, rfl⟩ | hs
    · obtain ⟨s', hstep, hreports, hs'⟩ := follows_first hnext hflow
      refine ⟨s', (run_snoc _).mpr ⟨_, hrun, hstep⟩, .inr hs', ?_⟩
      cases event with
      | recvPacket atUs packet =>
        rw [hreports]
        exact hall.recv
      | fbTimer atUs => cases hnext.2
    · cases event with
      | recvPacket atUs packet =>
        obtain ⟨s', hstep, hreports, hs'⟩ := follows_recv hs hnext (hflow atUs packet (by simp))
        refine ⟨s', (run_snoc _).mpr ⟨s, hrun, hstep⟩, .inr hs', ?_⟩
        rw [hreports]
        exact hall.recv
      | fbTimer atUs =>
        have hlt := hshort (.fbTimer atUs) (by simp)
        rw [elapsedMs, origin_append hs.nonempty] at hlt
        obtain ⟨s', bytes, hstep, hreports, hbytes, hs'⟩ :=
          follows_timer hs hnext (hnarrow events (List.prefix_append _ _)) hlt
        refine ⟨s', (run_snoc _).mpr ⟨s, hrun, hstep⟩, .inr hs', ?_⟩
        rw [hreports]
        exact hall.timer (hs.timer_at hnext).1 hbytes

/-- Two packets across the end of the number range, a repeated one, and a period without any. -/
theorem reports_what_arrived_two_periods :
    let packet (sequence : UInt16) : RtpPacket := ⟨1, 5000, 77, sequence⟩
    let events : List Event := [.recvPacket 5000 (packet 0), .recvPacket 9500 (packet 65535),
      .recvPacket 20000 (packet 0), .fbTimer 105000, .fbTimer 205000]
    ∃ s, run Reporting.step (.start 9) events = .ok s ∧ AllReported (packet 0) events s.reports := by
  intro packet events
  refine reports_what_arrived (by decide +kernel) ?_ ?_ (by decide +kernel)
  · intro atUs other hother
    simp only [events, List.mem_cons, Event.recvPacket.injEq, List.not_mem_nil, or_false, reduceCtorEq] at hother
    rcases hother with ⟨-, rfl⟩ | ⟨-, rfl⟩ | ⟨-, rfl⟩
    all_goals exact ⟨rfl, rfl, rfl⟩
  · intro before hbefore
    have hall : ∀ before ∈ events.inits, ∀ arrival ∈ arrivals before, ahead 65535 arrival.2.sequence < 100 := by
      decide +kernel
    exact ⟨65535, hall before ((List.mem_inits _ _).mpr hbefore)⟩

end Ns3Rmcat.Receiver
