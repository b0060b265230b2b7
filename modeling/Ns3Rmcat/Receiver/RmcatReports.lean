import Ns3Rmcat.Receiver.CcfsReports
import Ns3Rmcat.Receiver.Rmcat

/-! What the reports of the receiver tell about the packets of each period, and the runs in
which it stops: at a packet that comes a second time, and at a report of times that wrap. -/
namespace Ns3Rmcat.Receiver
open Lib Header CCFeedback CCFeedbackHeader

/-- The packets of the period that goes on after some events, in which some have arrived already. -/
def arrivalsFrom (arrived : List (UInt64 × RtpPacket)) (events : List Event) : List (UInt64 × RtpPacket) :=
  events.foldl (fun arrived event =>
    match event with
    | .recvPacket atUs packet => arrived ++ [(atUs, packet)]
    | .fbTimer _ => []) arrived

private theorem periodsFrom_recv (arrived : List (UInt64 × RtpPacket)) (events : List Event) (atUs : UInt64)
    (packet : RtpPacket) :
    periodsFrom arrived (events ++ [.recvPacket atUs packet]) = periodsFrom arrived events := by
  induction events generalizing arrived with
  | nil => rfl
  | cons event events ih =>
    cases event with
    | recvPacket => exact ih _
    | fbTimer =>
      rw [List.cons_append, periodsFrom, periodsFrom, ih]

private theorem periodsFrom_timer (arrived : List (UInt64 × RtpPacket)) (events : List Event) (atUs : UInt64) :
    periodsFrom arrived (events ++ [.fbTimer atUs]) = periodsFrom arrived events ++
      if arrivalsFrom arrived events = [] then [] else [arrivalsFrom arrived events] := by
  induction events generalizing arrived with
  | nil => exact List.append_nil _
  | cons event events ih =>
    cases event with
    | recvPacket => exact ih _
    | fbTimer =>
      rw [List.cons_append, periodsFrom, periodsFrom, ih, List.append_assoc]
      rfl

theorem periods_recv (events : List Event) (atUs : UInt64) (packet : RtpPacket) :
    periods (events ++ [.recvPacket atUs packet]) = periods events := periodsFrom_recv [] events atUs packet

theorem periods_timer (events : List Event) (atUs : UInt64) :
    periods (events ++ [.fbTimer atUs]) =
      periods events ++ if arrivals events = [] then [] else [arrivals events] := periodsFrom_timer [] events atUs

/-- What is recorded of a period: each number of the flow that arrived, with its first arrival. -/
def firstArrivals (flow : RtpPacket) (arrived : List (UInt64 × RtpPacket)) (ssrc : UInt32) (seq : UInt16) :
    Option MetricBlock :=
  if ssrc = flow.ssrc then (firstArrival arrived seq).map fun atUs => ⟨0, atUs, 0⟩ else none

/-- A report tells a period: its header has the numbers that arrived, and has been written out. -/
structure Tells (flow : RtpPacket) (arrived : List (UInt64 × RtpPacket)) (report : Report) : Prop where
  entries : ∀ ssrc seq, lookup? report.header.reportBlocks ssrc seq = firstArrivals flow arrived ssrc seq
  packet : report.header.serialize = .ok report.packet

/-- Fewer than all 65536 numbers arrived. -/
def LacksNumber (arrived : List (UInt64 × RtpPacket)) : Prop :=
  ∃ seq, ∀ arrival ∈ arrived, arrival.2.sequence ≠ seq

/-- What holds of a running receiver after some events of a flow. -/
structure Keeps (flow : RtpPacket) (events : List Event) (s : CcfbReporting) : Prop where
  running : s.receiver.running = true
  source : s.receiver.waiting = false →
    s.receiver.remoteSsrc = flow.ssrc ∧ s.receiver.srcIp = flow.srcIp ∧ s.receiver.srcPort = flow.srcPort
  kept : Kept s.receiver.header
  entries : ∀ ssrc seq, lookup? s.receiver.header.reportBlocks ssrc seq = firstArrivals flow (arrivals events) ssrc seq
  first : ∀ arrival ∈ arrivals events, firstArrival (arrivals events) arrival.2.sequence = some arrival.1
  told : List.Forall₂ (Tells flow) (periods events) s.reports

/-- An event that does not stop the receiver: a packet whose number has not arrived in the period
yet, and a report whose latest time is the latest one also as a word of NTP time. -/
def Harmless (before : List Event) : Event → Prop
  | .recvPacket _ packet => ∀ arrival ∈ arrivals before, arrival.2.sequence ≠ packet.sequence
  | .fbTimer _ => ∀ latest ∈ arrivals before, (∀ arrival ∈ arrivals before, arrival.1 ≤ latest.1) →
    ∀ arrival ∈ arrivals before, usToNtp arrival.1 ≤ usToNtp latest.1

instance (before : List Event) : (event : Event) → Decidable (Harmless before event)
  | .recvPacket _ packet =>
    inferInstanceAs (Decidable (∀ arrival ∈ arrivals before, arrival.2.sequence ≠ packet.sequence))
  | .fbTimer _ =>
    inferInstanceAs (Decidable (∀ latest ∈ arrivals before, (∀ arrival ∈ arrivals before, arrival.1 ≤ latest.1) →
      ∀ arrival ∈ arrivals before, usToNtp arrival.1 ≤ usToNtp latest.1))

theorem firstArrival_isSome {arrived : List (UInt64 × RtpPacket)} {seq : UInt16} :
    (firstArrival arrived seq).isSome ↔ ∃ arrival ∈ arrived, arrival.2.sequence = seq := by
  simp [firstArrival]

theorem mem_arrivals {events : List Event} {arrival : UInt64 × RtpPacket} (h : arrival ∈ arrivals events) :
    Event.recvPacket arrival.1 arrival.2 ∈ events := by
  induction events using List.reverseRecOn with
  | nil => cases h
  | append_singleton events event ih =>
    cases event with
    | recvPacket atUs packet =>
      rw [arrivals_recv, List.mem_append, List.mem_singleton] at h
      rcases h with hold | rfl
      · exact List.mem_append_left _ (ih hold)
      · simp
    | fbTimer atUs =>
      rw [arrivals_timer] at h
      cases h

/-- A number that no packet of a run has is left out in each of its periods. -/
theorem lacksNumber_of_run {events : List Event} (seq : UInt16)
    (h : ∀ atUs packet, Event.recvPacket atUs packet ∈ events → packet.sequence ≠ seq) :
    ∀ before, before <+: events → LacksNumber (arrivals before) :=
  fun _ hbefore => ⟨seq, fun _ hmem => h _ _ (hbefore.subset (mem_arrivals hmem))⟩

private theorem firstArrival_eq_none {arrived : List (UInt64 × RtpPacket)} {seq : UInt16} :
    firstArrival arrived seq = none ↔ ∀ arrival ∈ arrived, arrival.2.sequence ≠ seq := by
  simp [firstArrival]

theorem keeps_start (nowUs : UInt64) (ssrc : UInt32) (flow : RtpPacket) :
    Keeps flow [] (.start nowUs ssrc) where
  running := rfl
  source := by
    intro h
    cases h
  kept := kept_fresh.setSendSsrc ssrc
  entries := by
    intro ssrc' seq
    simp [CcfbReporting.start, RmcatReceiver.setup, RmcatReceiver.startApplication, setSendSsrc,
      CCFeedbackHeader.fresh, lookup?, firstArrivals, arrivals, firstArrival]
  first := by simp [arrivals]
  told := .nil

private theorem neededLength_le {blocks : Std.ExtTreeMap UInt32 ReportBlock} (ssrc : UInt32)
    (hkeys : ∀ key ∈ blocks, key = ssrc) : neededLength blocks ≤ 65535 := by
  have hplaces (rb : ReportBlock) : places rb < 65536 := by
    rw [places]
    split
    · exact ahead_lt _ _
    · decide
  have hone := length_toList_le_one hkeys
  rw [neededLength]
  generalize blocks.toList = entries at hone ⊢
  rcases entries with - | ⟨rb, - | ⟨other, more⟩⟩
  · simp
  · have hlt := hplaces rb.2
    simp only [List.map_cons, List.map_nil, List.sum_cons, List.sum_nil, blockWords]
    omega
  · simp only [List.length_cons] at hone
    omega

/-- The entries that a header has are those of the arrivals of the period. -/
theorem Keeps.entry_iff {flow : RtpPacket} {events : List Event} {s : CcfbReporting} (hs : Keeps flow events s)
    {tsUs : UInt64} :
    (∃ ssrc seq mb, lookup? s.receiver.header.reportBlocks ssrc seq = some mb ∧ mb.timestampUs = tsUs) ↔
      ∃ arrival ∈ arrivals events, arrival.1 = tsUs := by
  constructor
  · rintro ⟨ssrc, seq, mb, hmb, rfl⟩
    rw [hs.entries, firstArrivals] at hmb
    split at hmb
    · obtain ⟨atUs, hat, rfl⟩ := Option.map_eq_some_iff.mp hmb
      obtain ⟨packet, hmem, -⟩ := firstArrival_mem hat
      exact ⟨_, hmem, rfl⟩
    · cases hmb
  · rintro ⟨arrival, hmem, rfl⟩
    refine ⟨flow.ssrc, arrival.2.sequence, ⟨0, arrival.1, 0⟩, ?_, rfl⟩
    rw [hs.entries, firstArrivals, if_pos rfl, hs.first arrival hmem]
    rfl

theorem Keeps.reportBlocks_empty {flow : RtpPacket} {events : List Event} {s : CcfbReporting}
    (hs : Keeps flow events s) : s.receiver.header.reportBlocks = ∅ ↔ arrivals events = [] := by
  constructor
  · intro hempty
    rw [List.eq_nil_iff_forall_not_mem]
    intro arrival hmem
    obtain ⟨ssrc, seq, mb, hmb, -⟩ := hs.entry_iff.mpr ⟨arrival, hmem, rfl⟩
    rw [hempty] at hmb
    simp [lookup?] at hmb
  · intro hnil
    refine ext_lookup? hs.kept.filled filled_empty fun ssrc seq => ?_
    rw [hs.entries, hnil]
    simp [firstArrivals, firstArrival, lookup?]

private theorem Keeps.returns_serialize {flow : RtpPacket} {events : List Event} {s : CcfbReporting}
    (hs : Keeps flow events s) (hne : s.receiver.header.reportBlocks ≠ ∅) (atUs : UInt64) :
    Returns s.receiver.header.serialize ↔ Harmless events (.fbTimer atUs) := by
  have hle : ∀ arrival ∈ arrivals events, arrival.1 ≤ s.receiver.header.latestTsUs := by
    intro arrival hmem
    obtain ⟨ssrc, seq, mb, hmb, hts⟩ := hs.entry_iff.mpr ⟨arrival, hmem, rfl⟩
    rw [← hts]
    exact hs.kept.latest ssrc seq mb hmb
  obtain ⟨last, hlast, hlatest⟩ : ∃ arrival ∈ arrivals events, arrival.1 = s.receiver.header.latestTsUs := by
    rcases hs.kept.attained with ⟨hempty, -⟩ | hentry
    · exact absurd hempty hne
    · exact hs.entry_iff.mp hentry
  rw [hs.kept.returns_serialize hne]
  constructor
  · intro hall latest hmem hmax arrival harrival
    have heq : latest.1 = s.receiver.header.latestTsUs :=
      UInt64.le_antisymm (hle latest hmem) (hlatest ▸ hmax last hlast)
    obtain ⟨ssrc, seq, mb, hmb, hts⟩ := hs.entry_iff.mpr ⟨arrival, harrival, rfl⟩
    rw [heq, ← hts]
    exact hall ssrc seq mb hmb
  · intro hharmless ssrc seq mb hmb
    obtain ⟨arrival, hmem, hts⟩ := hs.entry_iff.mp ⟨ssrc, seq, mb, hmb, rfl⟩
    rw [← hts, ← hlatest]
    exact hharmless last hlast (hlatest ▸ hle) arrival hmem

/-- A packet of the flow is added, whether it is the first one or not. -/
theorem Keeps.recvPacket_eq {flow : RtpPacket} {events : List Event} {s : CcfbReporting} (hs : Keeps flow events s)
    (nowUs : UInt64) {packet : RtpPacket}
    (hflow : packet.ssrc = flow.ssrc ∧ packet.srcIp = flow.srcIp ∧ packet.srcPort = flow.srcPort) :
    s.receiver.recvPacket nowUs packet =
      { s.receiver with
        waiting := false
        remoteSsrc := flow.ssrc
        srcIp := flow.srcIp
        srcPort := flow.srcPort : RmcatReceiver }.addFeedback nowUs packet.sequence nowUs := by
  obtain ⟨hssrc, hip, hport⟩ := hflow
  rw [RmcatReceiver.recvPacket]
  simp only [hs.running, Bool.not_true, Bool.false_eq_true, if_false]
  cases hwaiting : s.receiver.waiting with
  | true =>
    simp only [if_true, ok_bind, hssrc, hip, hport]
  | false =>
    obtain ⟨hssrc', hip', hport'⟩ := hs.source hwaiting
    simp only [Bool.false_eq_true, if_false, check_of (hssrc'.trans hssrc.symm), check_of (hip'.trans hip.symm),
      check_of (hport'.trans hport.symm), ok_bind]
    rw [← hssrc', ← hip', ← hport', ← hwaiting, ← hs.running]

/-- The header has room for any number that has not arrived, and no use for one that has. -/
theorem Keeps.addFeedback {flow : RtpPacket} {events : List Event} {s : CcfbReporting} (hs : Keeps flow events s)
    (atUs : UInt64) {packet : RtpPacket} (hlacks : LacksNumber (arrivals events ++ [(atUs, packet)])) :
    (firstArrival (arrivals events) packet.sequence = none ∧
      s.receiver.header.addFeedback flow.ssrc packet.sequence atUs 0 =
        .ok (.none, s.receiver.header.added flow.ssrc packet.sequence atUs 0) ∧
      Kept (s.receiver.header.added flow.ssrc packet.sequence atUs 0)) ∨
    (firstArrival (arrivals events) packet.sequence ≠ none ∧
      s.receiver.header.addFeedback flow.ssrc packet.sequence atUs 0 = .ok (.duplicate, s.receiver.header)) := by
  have hentry : ∀ seq, lookup? s.receiver.header.reportBlocks flow.ssrc seq =
      (firstArrival (arrivals events) seq).map fun atUs => ⟨0, atUs, 0⟩ := by
    intro seq
    rw [hs.entries, firstArrivals, if_pos rfl]
  have hshort : neededLength (s.receiver.header.withEntry flow.ssrc packet.sequence atUs 0) ≤ 65535 := by
    refine neededLength_le flow.ssrc fun key hmem => ?_
    rw [withEntry, mem_recordEntry] at hmem
    rcases hmem with rfl | hold
    · rfl
    · by_contra hne
      refine hs.kept.filled.notMem (fun seq => ?_) hold
      rw [hs.entries, firstArrivals, if_neg hne]
  have hfills : ¬ s.receiver.header.Fills flow.ssrc packet.sequence := by
    obtain ⟨seq, hseq⟩ := hlacks
    intro hall
    rcases hall seq with heq | hsome
    · exact hseq (atUs, packet) (by simp) heq
    · rw [hentry, Option.isSome_map, firstArrival_isSome] at hsome
      obtain ⟨arrival, hmem, heq⟩ := hsome
      exact hseq arrival (List.mem_append_left _ hmem) heq
  rcases addFeedback_cases hs.kept flow.ssrc packet.sequence atUs 0 with ⟨hecn, -⟩ | ⟨-, hsome, hok⟩ |
    ⟨hecn, hnone, ⟨hfull, -⟩ | ⟨-, hlong, -⟩ | ⟨-, -, hok⟩⟩
  · exact absurd hecn (by decide)
  · refine .inr ⟨fun hnone => ?_, hok⟩
    rw [hentry, hnone] at hsome
    cases hsome
  · exact absurd hfull hfills
  · exact absurd hlong (Nat.not_lt.mpr hshort)
  · refine .inl ⟨?_, hok, hs.kept.added hecn hnone hfills hshort⟩
    rwa [hentry, Option.map_eq_none_iff] at hnone

/-- A packet is recorded when its number is new in the period, and stops the receiver otherwise. -/
theorem Keeps.recv {flow : RtpPacket} {events : List Event} {s : CcfbReporting} (hs : Keeps flow events s)
    (atUs : UInt64) {packet : RtpPacket}
    (hflow : packet.ssrc = flow.ssrc ∧ packet.srcIp = flow.srcIp ∧ packet.srcPort = flow.srcPort)
    (hlacks : LacksNumber (arrivals events ++ [(atUs, packet)])) :
    (Harmless events (.recvPacket atUs packet) ∧ ∃ s', s.step (.recvPacket atUs packet) = .ok s' ∧
      Keeps flow (events ++ [.recvPacket atUs packet]) s') ∨
    (¬ Harmless events (.recvPacket atUs packet) ∧ ¬ Returns (s.step (.recvPacket atUs packet))) := by
  rw [CcfbReporting.step, hs.recvPacket_eq atUs hflow, RmcatReceiver.addFeedback]
  rcases hs.addFeedback atUs hlacks with ⟨hnew, hok, hkept⟩ | ⟨hold, hok⟩
  · refine .inl ⟨firstArrival_eq_none.mp hnew, ?_⟩
    simp only [hok, ok_bind, reduceCtorEq, if_false, check_of, pure_eq_ok, List.append_nil]
    refine ⟨_, rfl, ?_⟩
    exact
      { running := hs.running
        source := fun _ => ⟨rfl, rfl, rfl⟩
        kept := hkept
        entries := by
          intro ssrc seq
          rw [arrivals_recv, firstArrivals, firstArrival_snoc]
          simp only [added, withEntry, lookup?_recordEntry, hs.entries, firstArrivals]
          by_cases hssrc : ssrc = flow.ssrc
          · subst hssrc
            by_cases hseq : packet.sequence = seq
            · subst hseq
              simp [hnew]
            · simp [hseq]
          · simp [hssrc, Ne.symm hssrc]
        first := by
          intro arrival hmem
          rw [arrivals_recv, List.mem_append, List.mem_singleton] at hmem
          rw [arrivals_recv, firstArrival_snoc]
          rcases hmem with hmem | rfl
          · rw [hs.first arrival hmem]
            rfl
          · rw [hnew]
            simp
        told := by
          rw [periods_recv]
          exact hs.told }
  · refine .inr ⟨fun hharmless => hold (firstArrival_eq_none.mpr hharmless), ?_⟩
    simp only [hok, ok_bind, reduceCtorEq, if_false, check_of_not, error_bind, not_false_eq_true]
    exact not_returns_error _

/-- A report that is due is sent, unless its times do not let it be written out. -/
theorem Keeps.timer {flow : RtpPacket} {events : List Event} {s : CcfbReporting} (hs : Keeps flow events s)
    (atUs : UInt64) :
    (Harmless events (.fbTimer atUs) ∧ ∃ s', s.step (.fbTimer atUs) = .ok s' ∧
      Keeps flow (events ++ [.fbTimer atUs]) s') ∨
    (¬ Harmless events (.fbTimer atUs) ∧ ¬ Returns (s.step (.fbTimer atUs))) := by
  have hnothing : ∀ ssrc seq, (none : Option MetricBlock) =
      firstArrivals flow (arrivals (events ++ [.fbTimer atUs])) ssrc seq := by
    simp [arrivals_timer, firstArrivals, firstArrival]
  have hfirst : ∀ arrival ∈ arrivals (events ++ [.fbTimer atUs]),
      firstArrival (arrivals (events ++ [.fbTimer atUs])) arrival.2.sequence = some arrival.1 := by
    simp [arrivals_timer]
  by_cases hempty : s.receiver.header.reportBlocks = ∅
  · have hnil := hs.reportBlocks_empty.mp hempty
    have hskip : s.receiver.header.empty = true := by
      rw [CCFeedbackHeader.empty, hempty]
      rfl
    refine .inl ⟨by simp [Harmless, hnil], ?_⟩
    simp only [CcfbReporting.step, RmcatReceiver.sendFeedback, hs.running, hskip, Bool.not_true, Bool.and_false,
      Bool.false_eq_true, if_false, ok_bind, pure_eq_ok, if_true, List.append_nil]
    refine ⟨_, rfl, rfl, hs.source, hs.kept, fun ssrc seq => ?_, hfirst, ?_⟩
    · rw [← hnothing, hempty]
      simp [lookup?]
    · rw [periods_timer, if_pos hnil, List.append_nil]
      exact hs.told
  · have hnil : arrivals events ≠ [] := fun hnil => hempty (hs.reportBlocks_empty.mpr hnil)
    have hsent : s.receiver.header.empty = false := by
      simpa [CCFeedbackHeader.empty] using hempty
    rw [← hs.returns_serialize hempty]
    simp only [CcfbReporting.step, RmcatReceiver.sendFeedback, hs.running, hsent, Bool.not_false, Bool.and_self, if_true]
    cases hpacket : s.receiver.header.serialize with
    | error e => exact .inr ⟨not_returns_error e, not_returns_error e⟩
    | ok packet =>
      simp only [ok_bind, pure_eq_ok]
      refine .inl ⟨returns_ok _, _, rfl, rfl, hs.source, ?_, fun ssrc seq => ?_, hfirst, ?_⟩
      · exact kept_fresh.setSendSsrc s.receiver.ssrc
      · rw [← hnothing]
        simp [clear, setSendSsrc, lookup?]
      · rw [periods_timer, if_neg hnil]
        exact List.rel_append hs.told (.cons ⟨hs.entries, hpacket⟩ .nil)

/-- One event of the flow that leaves a number out takes the run on when it is harmless, and stops
it when it is not. -/
private theorem Keeps.step {flow : RtpPacket} {events : List Event} {event : Event} {s : CcfbReporting}
    (hs : Keeps flow events s) (hflow : SameFlow flow (events ++ [event]))
    (hlacks : LacksNumber (arrivals (events ++ [event]))) :
    (Harmless events event ∧ ∃ s', s.step event = .ok s' ∧ Keeps flow (events ++ [event]) s') ∨
    (¬ Harmless events event ∧ ¬ Returns (s.step event)) := by
  cases event with
  | recvPacket atUs packet =>
    rw [arrivals_recv] at hlacks
    exact hs.recv atUs (hflow atUs packet (by simp)) hlacks
  | fbTimer atUs => exact hs.timer atUs

/-- Whether all events of a run are harmless, each after those before it. -/
def AllHarmless (events : List Event) : Prop :=
  ∀ before event after, events = before ++ event :: after → Harmless before event

instance (events : List Event) : Decidable (AllHarmless events) :=
  decidable_of_iff (∀ i : Fin events.length, Harmless (events.take i) events[i]) (by
    constructor
    · rintro hall before event after rfl
      have hone := hall ⟨before.length, by simp⟩
      simpa using hone
    · intro hall i
      refine hall (events.take i) events[i] (events.drop (i + 1)) ?_
      rw [Fin.getElem_fin, List.getElem_cons_drop, List.take_append_drop])

private theorem allHarmless_snoc {events : List Event} {event : Event} :
    AllHarmless (events ++ [event]) ↔ AllHarmless events ∧ Harmless events event := by
  constructor
  · intro hall
    exact ⟨fun before event' after he => hall before event' (after ++ [event]) (by simp [he]), hall events event [] rfl⟩
  · rintro ⟨hall, hlast⟩ before event' after he
    rcases snoc_eq_append_cons he with ⟨-, rfl, rfl⟩ | ⟨rest, -, he⟩
    · exact hlast
    · exact hall before event' rest he

/-- A run of events of one flow goes on exactly as long as they are harmless. -/
theorem keeps_run (nowUs : UInt64) (ssrc : UInt32) {flow : RtpPacket} {events : List Event}
    (hflow : SameFlow flow events) (hlacks : ∀ before, before <+: events → LacksNumber (arrivals before)) :
    (AllHarmless events ∧ ∃ s, run CcfbReporting.step (.start nowUs ssrc) events = .ok s ∧ Keeps flow events s) ∨
    (¬ AllHarmless events ∧ ¬ Returns (run CcfbReporting.step (.start nowUs ssrc) events)) := by
  induction events using List.reverseRecOn with
  | nil => exact .inl ⟨fun before event after he => absurd he.symm (by simp), _, rfl, keeps_start nowUs ssrc flow⟩
  | append_singleton events event ih =>
    rw [allHarmless_snoc]
    rcases ih (fun atUs packet hmem => hflow atUs packet (List.mem_append_left _ hmem))
      fun before hbefore => hlacks before (hbefore.trans (List.prefix_append _ _)) with
      ⟨hall, s, hs, hkeeps⟩ | ⟨hnot, hstop⟩
    · rcases hkeeps.step hflow (hlacks _ List.prefix_rfl) with ⟨hlast, s', hs', hkeeps'⟩ | ⟨hlast, hstop⟩
      · exact .inl ⟨⟨hall, hlast⟩, s', (run_snoc _).mpr ⟨s, hs, hs'⟩, hkeeps'⟩
      · refine .inr ⟨fun h => hlast h.2, ?_⟩
        rintro ⟨s', hs'⟩
        obtain ⟨mid, hmid, hlast'⟩ := (run_snoc _).mp hs'
        cases hs.symm.trans hmid
        exact hstop ⟨s', hlast'⟩
    · refine .inr ⟨fun h => hnot h.1, ?_⟩
      rintro ⟨s', hs'⟩
      obtain ⟨mid, hmid, -⟩ := (run_snoc _).mp hs'
      exact hstop ⟨mid, hmid⟩

/-- A run of the receiver on one flow stops at no check and tells every period in one report, with
each number that arrived at its first time and no other one, exactly when no number arrives twice
in a period, and no report has a time whose word is above that of its latest time. -/
theorem reportsOnce_iff (nowUs : UInt64) (ssrc : UInt32) {flow : RtpPacket} {events : List Event}
    (hflow : SameFlow flow events) (hlacks : ∀ before, before <+: events → LacksNumber (arrivals before)) :
    (∃ s, run CcfbReporting.step (.start nowUs ssrc) events = .ok s ∧
      List.Forall₂ (Tells flow) (periods events) s.reports ∧
      ∀ ssrc seq, lookup? s.receiver.header.reportBlocks ssrc seq =
        firstArrivals flow (arrivals events) ssrc seq) ↔ AllHarmless events := by
  rcases keeps_run nowUs ssrc hflow hlacks with ⟨hall, s, hs, hkeeps⟩ | ⟨hnot, hstop⟩
  · exact iff_of_true ⟨s, hs, hkeeps.told, hkeeps.entries⟩ hall
  · refine iff_of_false ?_ hnot
    rintro ⟨s, hs, -⟩
    exact hstop ⟨s, hs⟩

/-- Packets that are reordered around the end of the numbers, and a number that comes again in
the next period. -/
def reorderedPackets : List Event :=
  let flow : RtpPacket := { srcIp := 10, srcPort := 5, ssrc := 7, sequence := 0 }
  [.recvPacket 1000000 { flow with sequence := 65534 }, .recvPacket 1010000 { flow with sequence := 1 },
    .recvPacket 1010000 { flow with sequence := 65535 }, .fbTimer 1100000,
    .recvPacket 1120000 { flow with sequence := 1 }, .fbTimer 1200000, .fbTimer 1300000]

theorem reportsOnce_iff_reordered :
    ∃ s, run CcfbReporting.step (.start 900000 3) reorderedPackets = .ok s ∧
      List.Forall₂ (Tells ⟨10, 5, 7, 0⟩) (periods reorderedPackets) s.reports ∧
      ∀ ssrc seq, lookup? s.receiver.header.reportBlocks ssrc seq =
        firstArrivals ⟨10, 5, 7, 0⟩ (arrivals reorderedPackets) ssrc seq := by
  refine (reportsOnce_iff 900000 3 ?_ (lacksNumber_of_run 100 ?_)).mpr (by decide +kernel)
  · simp only [SameFlow, reorderedPackets]
    grind
  · simp only [reorderedPackets]
    grind

/-- A packet that the network brings twice in a period stops the receiver. -/
theorem duplicate_stops_receiver :
    ¬ ∀ (nowUs : UInt64) (ssrc : UInt32) (flow : RtpPacket) (events : List Event), SameFlow flow events →
      (events.map Event.atUs).Pairwise (· ≤ ·) → (∀ before, before <+: events → LacksNumber (arrivals before)) →
      ∃ s, run CcfbReporting.step (.start nowUs ssrc) events = .ok s ∧
        List.Forall₂ (Tells flow) (periods events) s.reports ∧
        ∀ ssrc seq, lookup? s.receiver.header.reportBlocks ssrc seq =
          firstArrivals flow (arrivals events) ssrc seq := by
  intro hall
  have hstop : run CcfbReporting.step (.start 900000 3)
      [.recvPacket 1000000 ⟨10, 5, 7, 1⟩, .recvPacket 1010000 ⟨10, 5, 7, 1⟩] = .error .assertion := by
    decide +kernel
  obtain ⟨s, hs, -⟩ := hall 900000 3 ⟨10, 5, 7, 1⟩
    [.recvPacket 1000000 ⟨10, 5, 7, 1⟩, .recvPacket 1010000 ⟨10, 5, 7, 1⟩] (by simp only [SameFlow]; grind)
    (by decide) (lacksNumber_of_run 2 (by grind))
  cases hstop.symm.trans hs

end Ns3Rmcat.Receiver
