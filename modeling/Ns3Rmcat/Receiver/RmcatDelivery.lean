import Ns3Rmcat.Receiver.RmcatReports
import Ns3Rmcat.Header.CCFeedbackRoundTrip
import Ns3Rmcat.Header.CCFeedbackQuery

/-! The reports of the receiver, read by the sender. In every run on a clock that keeps to the
period, each report lists the packets of its period, each number once, and at most 505 microseconds
from the time at which it arrived. -/
namespace Ns3Rmcat.Receiver
open Lib Header CCFeedback CCFeedbackHeader

/-- Two times that are not far from each other. -/
def Within (us : ℕ) (a b : UInt64) : Prop := a.toNat ≤ b.toNat + us ∧ b.toNat ≤ a.toNat + us

instance (us : ℕ) (a b : UInt64) : Decidable (Within us a b) :=
  inferInstanceAs (Decidable (a.toNat ≤ b.toNat + us ∧ b.toNat ≤ a.toNat + us))

/-- An entry of a report is about a packet that arrived. -/
structure Accounts (entry : UInt16 × MetricBlock) (arrival : UInt64 × RtpPacket) : Prop where
  sequence : entry.1 = arrival.2.sequence
  ecn : entry.2.ecn = 0
  time : Within 505 entry.2.timestampUs arrival.1

/-- A report as the sender reads it: it is about the flow alone, and what it lists for the flow are
the packets that arrived, each number once. -/
structure Delivers (flow : RtpPacket) (arrived : List (UInt64 × RtpPacket)) (packet : Octets)
    (feedback : List (UInt16 × MetricBlock)) : Prop where
  read : ∃ n header, CCFeedbackHeader.fresh.deserialize packet = .ok (n, header, []) ∧
    header.getSsrcList = [flow.ssrc] ∧ header.getMetricList flow.ssrc = .ok (some feedback)
  once : (feedback.map Prod.fst).Nodup
  complete : ∀ arrival ∈ arrived, ∃ entry ∈ feedback, Accounts entry arrival
  sound : ∀ entry ∈ feedback, ∃ arrival ∈ arrived, Accounts entry arrival

namespace CcfbReporting

/-- A packet arrives in the period that goes on, and the timer's event is run when it is due. -/
def OnTime (s : CcfbReporting) : Event → Prop
  | .recvPacket atUs _ => ∀ due ∈ s.receiver.sendEvent, atUs.toNat ≤ due.toNat ∧ due.toNat ≤ atUs.toNat + 100000
  | .fbTimer atUs => s.receiver.sendEvent = some atUs

instance (s : CcfbReporting) : (event : Event) → Decidable (s.OnTime event)
  | .recvPacket atUs _ =>
    decidable_of_iff
      (s.receiver.sendEvent.all (fun due => atUs.toNat ≤ due.toNat ∧ due.toNat ≤ atUs.toNat + 100000) = true) (by
        cases h : s.receiver.sendEvent <;> simp [OnTime, h])
  | .fbTimer atUs => inferInstanceAs (Decidable (s.receiver.sendEvent = some atUs))

end CcfbReporting

/-- A time that is more than a millisecond, and fits a word of NTP time. -/
def Representable (atUs : UInt64) : Prop := 1000 ≤ atUs.toNat ∧ atUs.toNat < 65536000000

instance (atUs : UInt64) : Decidable (Representable atUs) :=
  inferInstanceAs (Decidable (1000 ≤ atUs.toNat ∧ atUs.toNat < 65536000000))

section Steps
variable {flow : RtpPacket} {events : List Event} {s s' : CcfbReporting}

private theorem Keeps.lacksNumber (hs : Keeps flow events s) {atUs : UInt64} {packet : RtpPacket}
    (hflow : packet.ssrc = flow.ssrc ∧ packet.srcIp = flow.srcIp ∧ packet.srcPort = flow.srcPort)
    (h : s.step (.recvPacket atUs packet) = .ok s') : LacksNumber (arrivals events ++ [(atUs, packet)]) := by
  by_contra hall
  have harrived : ∀ seq, packet.sequence = seq ∨ (lookup? s.receiver.header.reportBlocks flow.ssrc seq).isSome := by
    intro seq
    by_contra hnot
    obtain ⟨hnew, hnone⟩ := not_or.mp hnot
    refine hall ⟨seq, fun arrival hmem heq => ?_⟩
    rcases List.mem_append.mp hmem with hold | hlast
    · rw [hs.entries, firstArrivals, if_pos rfl, Option.isSome_map] at hnone
      exact hnone (firstArrival_isSome.mpr ⟨arrival, hold, heq⟩)
    · rw [List.mem_singleton.mp hlast] at heq
      exact hnew heq
  rw [CcfbReporting.step, hs.recvPacket_eq atUs hflow, RmcatReceiver.addFeedback] at h
  rcases addFeedback_cases hs.kept flow.ssrc packet.sequence atUs 0 with ⟨hecn, -⟩ | ⟨-, -, hok⟩ |
    ⟨-, -, ⟨-, hok⟩ | ⟨hfills, -⟩ | ⟨hfills, -⟩⟩
  · exact absurd hecn (by decide)
  · simp only [hok, ok_bind, reduceCtorEq, if_false, check_of_not, error_bind, not_false_eq_true] at h
  · simp only [hok, error_bind, reduceCtorEq] at h
  · exact hfills harrived
  · exact hfills harrived

/-- A packet that is recorded sends no report, and leaves the timer alone. -/
theorem Keeps.recv_ok (hs : Keeps flow events s) {atUs : UInt64} {packet : RtpPacket}
    (hflow : packet.ssrc = flow.ssrc ∧ packet.srcIp = flow.srcIp ∧ packet.srcPort = flow.srcPort)
    (h : s.step (.recvPacket atUs packet) = .ok s') :
    Keeps flow (events ++ [.recvPacket atUs packet]) s' ∧ s'.reports = s.reports ∧
      s'.receiver.sendEvent = s.receiver.sendEvent ∧ s'.receiver.periodUs = s.receiver.periodUs := by
  have hlacks := hs.lacksNumber hflow h
  have hkeeps : Keeps flow (events ++ [.recvPacket atUs packet]) s' := by
    rcases hs.recv atUs hflow hlacks with ⟨-, next, hnext, hkeeps⟩ | ⟨-, hstop⟩
    · cases h.symm.trans hnext
      exact hkeeps
    · exact absurd ⟨s', h⟩ hstop
  refine ⟨hkeeps, ?_⟩
  rw [CcfbReporting.step, hs.recvPacket_eq atUs hflow, RmcatReceiver.addFeedback] at h
  rcases hs.addFeedback atUs hlacks with ⟨-, hok, -⟩ | ⟨-, hok⟩
  · simp only [hok, ok_bind, reduceCtorEq, if_false, check_of, pure_eq_ok, List.append_nil] at h
    cases h
    exact ⟨rfl, rfl, rfl⟩
  · simp only [hok, ok_bind, reduceCtorEq, if_false, check_of_not, error_bind, not_false_eq_true] at h

/-- The timer's event sends the header as it is, unless it is empty, and is due again a period later. -/
theorem Keeps.timer_ok (hs : Keeps flow events s) {atUs : UInt64} (h : s.step (.fbTimer atUs) = .ok s') :
    Keeps flow (events ++ [.fbTimer atUs]) s' ∧ s'.receiver.sendEvent = some (atUs + s.receiver.periodUs) ∧
      s'.receiver.periodUs = s.receiver.periodUs ∧
      ((arrivals events = [] ∧ s'.reports = s.reports) ∨
        (arrivals events ≠ [] ∧ ∃ packet, s.receiver.header.serialize = .ok packet ∧
          s'.reports = s.reports ++ [⟨s.receiver.header, packet⟩])) := by
  have hkeeps : Keeps flow (events ++ [.fbTimer atUs]) s' := by
    rcases hs.timer atUs with ⟨-, next, hnext, hkeeps⟩ | ⟨-, hstop⟩
    · cases h.symm.trans hnext
      exact hkeeps
    · exact absurd ⟨s', h⟩ hstop
  refine ⟨hkeeps, ?_⟩
  by_cases hempty : s.receiver.header.reportBlocks = ∅
  · have hskip : s.receiver.header.empty = true := by
      rw [CCFeedbackHeader.empty, hempty]
      rfl
    simp only [CcfbReporting.step, RmcatReceiver.sendFeedback, hs.running, hskip, Bool.not_true, Bool.and_false,
      Bool.false_eq_true, if_false, ok_bind, pure_eq_ok, if_true, List.append_nil] at h
    cases h
    exact ⟨rfl, rfl, .inl ⟨hs.reportBlocks_empty.mp hempty, rfl⟩⟩
  · have hsent : s.receiver.header.empty = false := by
      simpa [CCFeedbackHeader.empty] using hempty
    simp only [CcfbReporting.step, RmcatReceiver.sendFeedback, hs.running, hsent, Bool.not_false, Bool.and_self,
      if_true] at h
    cases hpacket : s.receiver.header.serialize with
    | error e =>
      rw [hpacket] at h
      cases h
    | ok packet =>
      simp only [hpacket, ok_bind, pure_eq_ok] at h
      cases h
      exact ⟨rfl, rfl, .inr ⟨fun hnil => hempty (hs.reportBlocks_empty.mpr hnil), packet, rfl, rfl⟩⟩

/-- The times of a period that goes on: all of them in it, and on the clock. -/
structure OnClock (arrived : List (UInt64 × RtpPacket)) (due : UInt64) : Prop where
  representable : ∀ arrival ∈ arrived, Representable arrival.1
  inPeriod : ∀ arrival ∈ arrived, arrival.1.toNat ≤ due.toNat ∧ due.toNat ≤ arrival.1.toNat + 100000

private theorem Keeps.getSsrcList (hs : Keeps flow events s) (hne : arrivals events ≠ []) :
    s.receiver.header.getSsrcList = [flow.ssrc] := by
  have hkeys : ∀ ssrc ∈ s.receiver.header.reportBlocks, ssrc = flow.ssrc := by
    intro ssrc hmem
    by_contra hother
    refine hs.kept.filled.notMem (fun seq => ?_) hmem
    rw [hs.entries, firstArrivals, if_neg hother]
  have hlength : s.receiver.header.getSsrcList.length ≤ 1 := by
    rw [CCFeedbackHeader.getSsrcList, ← Std.ExtTreeMap.map_fst_toList_eq_keys, List.length_map]
    exact length_toList_le_one hkeys
  have hempty : s.receiver.header.getSsrcList ≠ [] := by
    intro hnil
    refine hne (hs.reportBlocks_empty.mp (Std.ExtTreeMap.ext_getElem? fun ssrc => ?_))
    rw [Std.ExtTreeMap.getElem?_empty, ← Option.not_isSome_iff_eq_none, Std.ExtTreeMap.isSome_getElem?_iff_mem,
      ← Std.ExtTreeMap.mem_keys]
    rw [CCFeedbackHeader.getSsrcList] at hnil
    rw [hnil]
    exact List.not_mem_nil
  obtain ⟨ssrc, hssrc⟩ : ∃ ssrc, s.receiver.header.getSsrcList = [ssrc] := by
    refine List.length_eq_one_iff.mp ?_
    have hpos := List.length_pos_iff.mpr hempty
    omega
  have hmem : ssrc ∈ s.receiver.header.getSsrcList := by
    rw [hssrc]
    exact List.mem_singleton_self _
  rw [hssrc, hkeys ssrc (Std.ExtTreeMap.mem_keys.mp hmem)]

private theorem Keeps.timesFit (hs : Keeps flow events s) {due : UInt64} (hclock : OnClock (arrivals events) due) :
    TimesFit s.receiver.header := by
  intro ssrc seq mb hmb
  obtain ⟨arrival, hmem, hts⟩ := hs.entry_iff.mp ⟨ssrc, seq, mb, hmb, rfl⟩
  obtain ⟨last, hlast, hlatest⟩ : ∃ last ∈ arrivals events, last.1 = s.receiver.header.latestTsUs := by
    rcases hs.kept.attained with ⟨hempty, -⟩ | hentry
    · rw [hs.reportBlocks_empty.mp hempty] at hmem
      cases hmem
    · exact hs.entry_iff.mp hentry
  obtain ⟨hleast, hmost⟩ := hclock.representable arrival hmem
  obtain ⟨-, hnear⟩ := hclock.inPeriod arrival hmem
  obtain ⟨hle, -⟩ := hclock.inPeriod last hlast
  rw [← hts, ← hlatest]
  exact ⟨hleast, hmost, by omega⟩

private theorem Keeps.readBack_iff (hs : Keeps flow events s) (htimes : TimesFit s.receiver.header) {seq : UInt16} :
    (∃ mb, lookup? s.receiver.header.readBack.reportBlocks flow.ssrc seq = some mb) ↔
      ∃ arrival ∈ arrivals events, arrival.2.sequence = seq := by
  have hback := (hs.kept.readsBack htimes).sequences flow.ssrc seq
  rw [hs.entries, firstArrivals, if_pos rfl, Option.isSome_map] at hback
  rw [← firstArrival_isSome, ← hback, Option.isSome_iff_exists]

private theorem Keeps.accounts (hs : Keeps flow events s) (htimes : TimesFit s.receiver.header)
    {arrival : UInt64 × RtpPacket} (hmem : arrival ∈ arrivals events) {mb : MetricBlock}
    (hmb : lookup? s.receiver.header.readBack.reportBlocks flow.ssrc arrival.2.sequence = some mb) :
    Accounts (arrival.2.sequence, mb) arrival := by
  have hentry : lookup? s.receiver.header.reportBlocks flow.ssrc arrival.2.sequence = some ⟨0, arrival.1, 0⟩ := by
    rw [hs.entries, firstArrivals, if_pos rfl, hs.first arrival hmem]
    rfl
  obtain ⟨hecn, hbelow, habove, -⟩ := (hs.kept.readsBack htimes).metrics _ _ _ _ hentry hmb
  exact ⟨rfl, hecn, hbelow, habove⟩

private theorem Keeps.delivers (hs : Keeps flow events s) (hne : arrivals events ≠ []) {due : UInt64}
    (hclock : OnClock (arrivals events) due) {packet : Octets} (hpacket : s.receiver.header.serialize = .ok packet) :
    ∃ feedback, Delivers flow (arrivals events) packet feedback := by
  have htimes := hs.timesFit hclock
  have hblocks : s.receiver.header.reportBlocks ≠ ∅ := fun hempty => hne (hs.reportBlocks_empty.mp hempty)
  obtain ⟨bytes, n, hbytes, -, -, hread⟩ := hs.kept.deserialize_serialize hblocks htimes []
  cases hpacket.symm.trans hbytes
  rw [List.append_nil] at hread
  have hssrcs := hs.getSsrcList hne
  -- The one block of the header that is read has a number, and lacks one.
  obtain ⟨rb, hrb⟩ : ∃ rb, s.receiver.header.reportBlocks[flow.ssrc]? = some rb := by
    have hmem : flow.ssrc ∈ s.receiver.header.getSsrcList := by
      rw [hssrcs]
      exact List.mem_singleton_self _
    exact Option.isSome_iff_exists.mp (Std.ExtTreeMap.isSome_getElem?_iff_mem.mpr (Std.ExtTreeMap.mem_keys.mp hmem))
  have hback := s.receiver.header.getElem?_readBack flow.ssrc
  rw [hrb, Option.map_some] at hback
  have hlookup (seq : UInt16) : lookup? s.receiver.header.readBack.reportBlocks flow.ssrc seq =
      (stampedBlock (usToNtp s.receiver.header.latestTsUs) (s.receiver.header.sentBlock rb))[seq]? := by
    rw [lookup?_eq, hback]
    rfl
  obtain ⟨beginSeq, feedback, hlist, hlists⟩ := getMetricList_lists hback (by
      obtain ⟨arrival, hmem⟩ := List.exists_mem_of_ne_nil _ hne
      obtain ⟨mb, hmb⟩ := (hs.readBack_iff htimes).mpr ⟨arrival, hmem, rfl⟩
      intro hempty
      rw [hlookup, hempty, Std.ExtTreeMap.getElem?_empty] at hmb
      cases hmb) (by
      obtain ⟨seq, hseq⟩ := hs.kept.lacks flow.ssrc rb hrb
      refine ⟨seq, fun hmem => hseq ?_⟩
      rw [← Std.ExtTreeMap.isSome_getElem?_iff_mem, getElem?_stampedBlock, getElem?_sentBlock, Option.isSome_map,
        Option.isSome_map] at hmem
      exact Std.ExtTreeMap.isSome_getElem?_iff_mem.mp hmem)
  refine ⟨feedback, ⟨n, s.receiver.header.readBack, hread, ?_, hlist⟩, ?_, ?_, ?_⟩
  · rw [(hs.kept.readsBack htimes).ssrcs, hssrcs]
  · rw [List.nodup_iff_pairwise_ne, List.pairwise_map]
    refine hlists.ordered.imp fun hlt heq => ?_
    rw [heq] at hlt
    exact lt_irrefl _ hlt
  · intro arrival hmem
    obtain ⟨mb, hmb⟩ := (hs.readBack_iff htimes).mpr ⟨arrival, hmem, rfl⟩
    refine ⟨(arrival.2.sequence, mb), (hlists.entries _ _).mpr ?_, hs.accounts htimes hmem hmb⟩
    rw [← hlookup]
    exact hmb
  · rintro ⟨seq, mb⟩ hmem
    have hmb := (hlists.entries seq mb).mp hmem
    rw [← hlookup] at hmb
    obtain ⟨arrival, harrival, rfl⟩ := (hs.readBack_iff htimes).mp ⟨mb, hmb⟩
    exact ⟨arrival, harrival, hs.accounts htimes harrival hmb⟩

/-- What holds of a receiver on its clock after some events of a flow. -/
structure Serves (flow : RtpPacket) (events : List Event) (s : CcfbReporting) : Prop where
  keeps : Keeps flow events s
  periodUs : s.receiver.periodUs = 100000
  onClock : ∃ due, s.receiver.sendEvent = some due ∧ OnClock (arrivals events) due
  delivered : List.Forall₂ (fun arrived report => ∃ feedback, Delivers flow arrived report.packet feedback)
    (periods events) s.reports

theorem serves_start (nowUs : UInt64) (ssrc : UInt32) (flow : RtpPacket) : Serves flow [] (.start nowUs ssrc) where
  keeps := keeps_start nowUs ssrc flow
  periodUs := rfl
  onClock := ⟨_, rfl, by simp [arrivals], by simp [arrivals]⟩
  delivered := .nil

theorem Serves.recv (hs : Serves flow events s) {atUs : UInt64} {packet : RtpPacket}
    (hflow : packet.ssrc = flow.ssrc ∧ packet.srcIp = flow.srcIp ∧ packet.srcPort = flow.srcPort)
    (hontime : s.OnTime (.recvPacket atUs packet)) (htime : Representable atUs)
    (h : s.step (.recvPacket atUs packet) = .ok s') : Serves flow (events ++ [.recvPacket atUs packet]) s' := by
  obtain ⟨hkeeps, hreports, hsendEvent, hperiodUs⟩ := hs.keeps.recv_ok hflow h
  obtain ⟨due, hdue, hclock⟩ := hs.onClock
  refine ⟨hkeeps, hperiodUs.trans hs.periodUs, ⟨due, hsendEvent.trans hdue, ?_, ?_⟩, ?_⟩
  · intro arrival hmem
    rw [arrivals_recv, List.mem_append, List.mem_singleton] at hmem
    rcases hmem with hold | rfl
    · exact hclock.representable arrival hold
    · exact htime
  · intro arrival hmem
    rw [arrivals_recv, List.mem_append, List.mem_singleton] at hmem
    rcases hmem with hold | rfl
    · exact hclock.inPeriod arrival hold
    · exact hontime due hdue
  · rw [periods_recv, hreports]
    exact hs.delivered

theorem Serves.timer (hs : Serves flow events s) {atUs : UInt64} (h : s.step (.fbTimer atUs) = .ok s') :
    Serves flow (events ++ [.fbTimer atUs]) s' := by
  obtain ⟨hkeeps, hsendEvent, hperiodUs, hreports⟩ := hs.keeps.timer_ok h
  obtain ⟨due, -, hclock⟩ := hs.onClock
  have hnone : arrivals (events ++ [.fbTimer atUs]) = [] := arrivals_timer events atUs
  refine ⟨hkeeps, hperiodUs.trans hs.periodUs, ⟨_, hsendEvent, by simp [hnone], by simp [hnone]⟩, ?_⟩
  rw [periods_timer]
  rcases hreports with ⟨hnil, hreports⟩ | ⟨hne, packet, hpacket, hreports⟩
  · rw [hreports, if_pos hnil, List.append_nil]
    exact hs.delivered
  · rw [hreports, if_neg hne]
    exact List.rel_append hs.delivered (.cons (hs.keeps.delivers hne hclock hpacket) .nil)

end Steps

section Runs
variable {flow : RtpPacket} {events : List Event} {nowUs : UInt64} {ssrc : UInt32}

private theorem serves_run (hflow : SameFlow flow events) (htimes : ∀ event ∈ events, Representable event.atUs)
    {s : CcfbReporting} (hontime : Along CcfbReporting.step CcfbReporting.OnTime (.start nowUs ssrc) events)
    (hrun : run CcfbReporting.step (.start nowUs ssrc) events = .ok s) : Serves flow events s := by
  induction events using List.reverseRecOn generalizing s with
  | nil =>
    cases hrun
    exact serves_start nowUs ssrc flow
  | append_singleton events event ih =>
    obtain ⟨mid, hmid, hstep⟩ := (run_snoc _).mp hrun
    have hserves : Serves flow events mid :=
      ih (fun atUs packet hmem => hflow atUs packet (List.mem_append_left _ hmem))
        (fun event hmem => htimes event (List.mem_append_left _ hmem)) hontime.init hmid
    cases event with
    | recvPacket atUs packet =>
      exact hserves.recv (hflow atUs packet (by simp)) (hontime.last hmid) (htimes (.recvPacket atUs packet) (by simp))
        hstep
    | fbTimer atUs => exact hserves.timer hstep

/-- No number arrives twice in a period. -/
def NoneTwice (events : List Event) : Prop :=
  ∀ before atUs packet after, events = before ++ .recvPacket atUs packet :: after →
    ∀ arrival ∈ arrivals before, arrival.2.sequence ≠ packet.sequence

private theorem allHarmless_iff (htimes : ∀ event ∈ events, Representable event.atUs) :
    AllHarmless events ↔ NoneTwice events := by
  constructor
  · intro hall before atUs packet after he
    exact hall before (.recvPacket atUs packet) after he
  · intro hnone before event after he
    cases event with
    | recvPacket atUs packet => exact hnone before atUs packet after he
    | fbTimer atUs =>
      intro latest hlatest hmax arrival harrival
      have hmem : Event.recvPacket latest.1 latest.2 ∈ events := by
        rw [he]
        exact List.mem_append_left _ (mem_arrivals hlatest)
      exact usToNtp_mono (hmax arrival harrival) (htimes _ hmem).2

/-- On a clock that keeps to the period, the receiver of one flow tells the sender of each period in
one report, with every packet that arrived and no other one, its number once and its time within
505 microseconds, exactly when no number arrives twice in a period. -/
theorem run_delivers_iff (hflow : SameFlow flow events)
    (hlacks : ∀ before, before <+: events → LacksNumber (arrivals before))
    (htimes : ∀ event ∈ events, Representable event.atUs)
    (hontime : Along CcfbReporting.step CcfbReporting.OnTime (.start nowUs ssrc) events) :
    (∃ s, run CcfbReporting.step (.start nowUs ssrc) events = .ok s ∧
      List.Forall₂ (fun arrived report => ∃ feedback, Delivers flow arrived report.packet feedback)
        (periods events) s.reports) ↔ NoneTwice events := by
  rw [← allHarmless_iff htimes]
  rcases keeps_run nowUs ssrc hflow hlacks with ⟨hall, s, hs, -⟩ | ⟨hnot, hstop⟩
  · exact iff_of_true ⟨s, hs, (serves_run hflow htimes hontime hs).delivered⟩ hall
  · refine iff_of_false ?_ hnot
    rintro ⟨s, hs, -⟩
    exact hstop ⟨s, hs⟩

theorem run_delivers_iff_reordered :
    ∃ s, run CcfbReporting.step (.start 1000000 3) reorderedPackets = .ok s ∧
      List.Forall₂ (fun arrived report => ∃ feedback, Delivers ⟨10, 5, 7, 0⟩ arrived report.packet feedback)
        (periods reorderedPackets) s.reports := by
  have hflow : SameFlow ⟨10, 5, 7, 0⟩ reorderedPackets := by
    simp only [SameFlow, reorderedPackets]
    grind
  have hlacks : ∀ before, before <+: reorderedPackets → LacksNumber (arrivals before) := by
    refine lacksNumber_of_run 100 ?_
    simp only [reorderedPackets]
    grind
  have htimes : ∀ event ∈ reorderedPackets, Representable event.atUs := by decide
  refine (run_delivers_iff hflow hlacks htimes (by decide +kernel)).mpr ?_
  exact (allHarmless_iff htimes).mp (by decide +kernel)

end Runs

end Ns3Rmcat.Receiver
