import Ns3Rmcat.Controller.SenderBasedRun
import Ns3Rmcat.Lib.RunLengths

/-! The intervals between losses against the numbers that are accepted into the history: an
interval is the length of a run without gaps, counted with 16 bits. -/
namespace Ns3Rmcat.Controller
open Lib

/-- The number that follows another one, the last number being followed by zero. -/
def follows (a b : UInt16) : Bool := b == a + 1

def gapFreeRuns (accepted : List UInt16) : List Nat := runLengths follows accepted

/-- What the inter-loss state says about some accepted numbers. -/
structure Counts (il : InterLossState) (accepted : List UInt16) : Prop where
  intervals : il.intervals = ((gapFreeRuns accepted).take 9).map UInt16.ofNat
  expectedSeq : ∀ last ∈ accepted.getLast?, il.expectedSeq = last + 1
  initialized : il.initialized = true ↔ 2 ≤ (gapFreeRuns accepted).length

namespace SenderBasedController
variable {K : Type} {s s' : SenderBasedController K} {accepted : List UInt16}

private theorem updateInterLossData_first {sequence : UInt16} (hempty : s.packetHistory = [])
    (h : s.updateInterLossData sequence = .ok s') : Counts s'.ilState [sequence] := by
  rw [updateInterLossData, hempty] at h
  simp only [List.isEmpty_nil, if_true, pure_eq_ok, Except.ok.injEq] at h
  subst h
  exact ⟨rfl, by simp, by simp [gapFreeRuns]⟩

private theorem updateInterLossData_next {sequence : UInt16} (hhistory : s.packetHistory ≠ [])
    (hne : accepted ≠ []) (hcounts : Counts s.ilState accepted) (h : s.updateInterLossData sequence = .ok s') :
    Counts s'.ilState (accepted ++ [sequence]) := by
  obtain ⟨last, hlast⟩ : ∃ last, last ∈ accepted.getLast? := by
    cases hl : accepted.getLast? with
    | none => exact absurd (List.getLast?_eq_none_iff.mp hl) hne
    | some last => exact ⟨last, rfl⟩
  have hexpected := hcounts.expectedSeq last hlast
  obtain ⟨newest, older, hruns⟩ : ∃ newest older, gapFreeRuns accepted = newest :: older := by
    cases hr : gapFreeRuns accepted with
    | nil => exact absurd (runLengths_eq_nil.mp hr) hne
    | cons newest older => exact ⟨newest, older, rfl⟩
  have hintervals := hcounts.intervals
  have hinitialized := hcounts.initialized
  rw [hruns] at hintervals hinitialized
  rw [updateInterLossData] at h
  simp only [List.isEmpty_eq_false_iff.mpr hhistory, Bool.false_eq_true, if_false] at h
  split at h
  · rename_i hnext
    have hfollows : follows last sequence = true := by simp [follows, hnext, hexpected]
    have hsnoc : gapFreeRuns (accepted ++ [sequence]) = (newest + 1) :: older := by
      rw [gapFreeRuns, runLengths_snoc_of hlast hfollows, ← gapFreeRuns, hruns]
      rfl
    cases h
    refine ⟨?_, ?_, ?_⟩
    · rw [hsnoc, hintervals]
      simp
    · simp [hnext]
    · rw [hsnoc]
      simpa using hinitialized
  · rename_i hgap
    have hbreak : ∀ l ∈ accepted.getLast?, follows l sequence = false := by
      intro l hl
      rw [hlast] at hl
      cases hl
      simpa [follows, ← hexpected] using hgap
    have hsnoc : gapFreeRuns (accepted ++ [sequence]) = 1 :: newest :: older := by
      rw [gapFreeRuns, runLengths_snoc_of_not hbreak, ← gapFreeRuns, hruns]
    obtain ⟨-, h⟩ := check_bind_eq_ok.mp h
    cases h
    refine ⟨?_, by simp, by rw [hsnoc]; simp⟩
    rw [hsnoc, hintervals]
    -- Nine intervals are kept: the new one, and the eight newest of the others.
    have hkept := dropLast_take_cons (1 : UInt16) ((newest :: older).map UInt16.ofNat) 9
    rw [← List.map_take] at hkept
    rw [hkept, List.map_take]
    rfl

/-- The packet that a feedback puts into the history, if it does. -/
def recorded (s : SenderBasedController K) (sequence : UInt16) : Option PacketRecord :=
  if lessThan s.lastSequence sequence then none
  else ((popStale sequence s.inTransitPackets).toOption.map Prod.fst).filter fun packet =>
    !lessThan sequence packet.sequence &&
      !s.packetHistory.getLast?.any fun last => lessThan packet.txTimestampUs last.txTimestampUs

/-- The numbers accepted since the history was last empty or cleared, after a further call. -/
def acceptedNumbers (accepted : List UInt16) (s : SenderBasedController K) : ControllerCall → List UInt16
  | .send .. => accepted
  | .feedback _ sequence _ _ => (s.recorded sequence).elim accepted fun packet =>
    if (s.dropObsolete packet).packetHistory = [] then [sequence] else accepted ++ [sequence]

/-- What a feedback does to the history: nothing, or it records a packet and collects garbage. -/
theorem processFeedback_records {nowUs rxTimestampUs : UInt64} {sequence : UInt16} {ecn : UInt8} {b : Bool}
    (h : s.processFeedback nowUs sequence rxTimestampUs ecn = .ok (b, s')) :
    (s.recorded sequence = none ∧ ∃ queue, s' = { s with inTransitPackets := queue }) ∨
      ∃ (packet : PacketRecord) (rest : List PacketRecord) (mid : SenderBasedController K), packet.sequence = sequence ∧
        s.recorded sequence = some packet ∧
        ({ s.dropObsolete packet with inTransitPackets := rest } : SenderBasedController K).recordPacket packet nowUs
          rxTimestampUs = .ok mid ∧
        ∃ history sum, collectHistory mid.historyLengthUs mid.packetHistory mid.pktSizeSum = .ok (history, sum) ∧
          s' = { mid with packetHistory := history, pktSizeSum := sum } := by
  rcases processFeedback_cases h with ⟨hfuture, -, rfl⟩ | ⟨hpast, hqueue, -, rfl⟩ |
    ⟨hpast, front, rest, hpop, hbefore, -, rfl⟩ | ⟨hpast, packet, rest, hpop, rfl, hacc⟩
  · exact .inl ⟨by rw [recorded, if_pos hfuture], _, rfl⟩
  · refine .inl ⟨?_, _, rfl⟩
    rw [recorded, hqueue]
    simp [popStale, Except.toOption]
  · refine .inl ⟨?_, _, rfl⟩
    simp [recorded, hpast, hpop, Except.toOption, hbefore]
  · have hself : lessThan packet.sequence packet.sequence = false := by simp [lessThan]
    rcases acceptPacket_cases hacc with ⟨-, rfl, last, hlast, hearly⟩ |
      ⟨-, hlate, mid, hmid, history, sum, hcol, rfl⟩
    · refine .inl ⟨?_, _, rfl⟩
      have hany : s.packetHistory.getLast?.any (fun last => lessThan packet.txTimestampUs last.txTimestampUs) = true :=
        (Option.any_eq_true _ _).mpr ⟨last, hlast, hearly⟩
      simp [recorded, hpast, hpop, Except.toOption, hany]
    · rw [dropObsolete_queue] at hmid
      refine .inr ⟨packet, rest, mid, rfl, ?_, hmid, history, sum, hcol, rfl⟩
      simp [recorded, hpast, hpop, Except.toOption, hself, hlate]

private theorem processFeedback_recorded {nowUs rxTimestampUs : UInt64} {sequence : UInt16} {ecn : UInt8} {b : Bool}
    (h : s.processFeedback nowUs sequence rxTimestampUs ecn = .ok (b, s')) :
    (s.recorded sequence = none ∧ s'.packetHistory = s.packetHistory ∧ s'.ilState = s.ilState) ∨
      ∃ (packet : PacketRecord) (before next : SenderBasedController K), s.recorded sequence = some packet ∧
        before.packetHistory = (s.dropObsolete packet).packetHistory ∧ before.ilState = s.ilState ∧
        before.updateInterLossData sequence = .ok next ∧ s'.packetHistory ≠ [] ∧ s'.ilState = next.ilState := by
  rcases processFeedback_records h with ⟨hnone, queue, rfl⟩ | ⟨packet, rest, mid, rfl, hsome, hmid, history, sum, hcol, rfl⟩
  · exact .inl ⟨hnone, rfl, rfl⟩
  · obtain ⟨baseDelayUs, next, hnext, hil⟩ := recordPacket_interLoss hmid
    refine .inr ⟨packet, { s.dropObsolete packet with inTransitPackets := rest, baseDelayUs := baseDelayUs },
      next, hsome, rfl, ?_, hnext, collectHistory_ne_nil hcol, hil⟩
    rcases dropObsolete_cases (s := s) packet with hd | hd <;> rw [hd]

/-- The inter-loss state and the numbers accepted since the history was last empty or cleared. -/
structure Tracks (s : SenderBasedController K) (accepted : List UInt16) : Prop where
  empty : accepted = [] ↔ s.packetHistory = []
  counts : accepted ≠ [] → Counts s.ilState accepted

private theorem step_tracks {call : ControllerCall} (h : Tracks s accepted) (hstep : s.step call = .ok s') :
    Tracks s' (acceptedNumbers accepted s call) := by
  cases call with
  | send txTimestampUs sequence size =>
    obtain ⟨⟨ok, next⟩, hsend, hnext⟩ := bind_eq_ok.mp hstep
    cases hnext
    obtain ⟨lastSequence, queue, rfl⟩ := processSendPacket_frame hsend
    exact ⟨h.empty, h.counts⟩
  | feedback nowUs sequence rxTimestampUs ecn =>
    obtain ⟨⟨ok, next⟩, hfeedback, hnext⟩ := bind_eq_ok.mp hstep
    cases hnext
    rcases processFeedback_recorded hfeedback with ⟨hnone, hhistory, hil⟩ |
      ⟨packet, before, updated, hsome, hbefore, hstart, hupdate, hhistory, hil⟩
    · simp only [acceptedNumbers, hnone, Option.elim_none]
      exact ⟨by rw [hhistory]; exact h.empty, fun hne => by rw [hil]; exact h.counts hne⟩
    · simp only [acceptedNumbers, hsome, Option.elim_some]
      rw [← hbefore]
      by_cases hempty : before.packetHistory = []
      · rw [if_pos hempty]
        exact ⟨by simp [hhistory], fun _ => hil ▸ updateInterLossData_first hempty hupdate⟩
      · -- The history has not been cleared, so that it is the one of the accepted numbers.
        rw [if_neg hempty]
        refine ⟨by simp [hhistory], fun _ => ?_⟩
        have hne : accepted ≠ [] := by
          rintro rfl
          refine hempty (hbefore.trans ?_)
          rcases dropObsolete_cases (s := s) packet with hd | hd
          · rw [hd]
            exact h.empty.mp rfl
          · rw [hd]
        exact hil ▸ updateInterLossData_next hempty hne (hstart.symm ▸ h.counts hne) hupdate

private theorem run_tracks {s0 : SenderBasedController K} (hempty : s0.packetHistory = []) {calls : List ControllerCall}
    (hrun : run (traced step acceptedNumbers) (s0, []) calls = .ok (s, accepted)) : Tracks s accepted := by
  refine run_induction (traced step acceptedNumbers) (motive := fun _ t => Tracks t.1 t.2)
    ⟨by simp [hempty], fun hne => absurd rfl hne⟩ ?_ hrun
  intro cs c mid next hmid ih hstep
  obtain ⟨hnext, hnumbers⟩ := (traced_eq_ok step acceptedNumbers).mp hstep
  rw [hnumbers]
  exact step_tracks ih hnext

section Exactness
variable [Field K] [LinearOrder K]

/-- The intervals are the true lengths of the newest runs, and what is read from them is right. -/
structure TellsRuns (s : SenderBasedController K) (accepted : List UInt16) : Prop where
  intervals : s.ilState.intervals.map UInt16.toNat = (gapFreeRuns accepted).take 9
  initialized : s.ilState.initialized = true ↔ 2 ≤ (gapFreeRuns accepted).length
  expectedSeq : ∀ last ∈ accepted.getLast?, s.ilState.expectedSeq = last + 1
  currentInterval : 2 ≤ (gapFreeRuns accepted).length → ∃ avgInterval current,
    s.getLossIntervalInfo = .ok (some (avgInterval, current)) ∧ current.toNat = (gapFreeRuns accepted).headD 0

private theorem map_toNat_ofNat_eq_iff (lengths : List Nat) :
    (lengths.map UInt16.ofNat).map UInt16.toNat = lengths ↔ ∀ n ∈ lengths, n < 65536 := by
  induction lengths with
  | nil => simp
  | cons n lengths ih =>
    simp only [List.map_cons, List.cons.injEq, ih, List.mem_cons, forall_eq_or_imp, UInt16.toNat_ofNat']
    refine and_congr_left fun _ => ⟨fun hmod => ?_, Nat.mod_eq_of_lt⟩
    omega

/-- In every run the inter-loss state tells the true lengths of the runs of accepted numbers
exactly as long as none of the newest nine has 65536 numbers or more. -/
theorem intervals_tell_runs_iff {s0 : SenderBasedController K} (hempty : s0.packetHistory = [])
    {calls : List ControllerCall}
    (hrun : run (traced step acceptedNumbers) (s0, []) calls = .ok (s, accepted)) (hne : accepted ≠ []) :
    TellsRuns s accepted ↔ ∀ n ∈ (gapFreeRuns accepted).take 9, n < 65536 := by
  have hcounts := (run_tracks hempty hrun).counts hne
  have hexact := map_toNat_ofNat_eq_iff ((gapFreeRuns accepted).take 9)
  rw [← hcounts.intervals] at hexact
  refine ⟨fun h => hexact.mp h.intervals, fun hfits => ?_⟩
  refine ⟨hexact.mpr hfits, hcounts.initialized, hcounts.expectedSeq, fun htwo => ?_⟩
  have hlength : 2 ≤ s.ilState.intervals.length ∧ s.ilState.intervals.length ≤ 9 := by
    rw [hcounts.intervals]
    simp only [List.length_map, List.length_take]
    omega
  obtain ⟨avgInterval, hinfo⟩ : ∃ avgInterval,
      s.getLossIntervalInfo = .ok (some (avgInterval, s.ilState.intervals.headD 0)) := by
    rw [getLossIntervalInfo, if_neg (by simp [hcounts.initialized.mpr htwo])]
    dsimp only
    rw [check_of hlength, ok_bind]
    exact ⟨_, rfl⟩
  refine ⟨avgInterval, _, hinfo, ?_⟩
  rw [hcounts.intervals]
  cases hruns : gapFreeRuns accepted with
  | nil => simp [hruns] at htwo
  | cons newest older =>
    rw [hruns] at hfits
    simp only [List.take_succ_cons, List.map_cons, List.headD_cons, UInt16.toNat_ofNat']
    exact Nat.mod_eq_of_lt (hfits newest (by simp))

end Exactness

/-- Four packets are sent, of which the third is not reported. -/
theorem intervals_tell_runs_iff_gap :
    ∃ s : SenderBasedController ℚ, run (traced step acceptedNumbers) (fresh, []) [.send 1000 65534 1200,
        .send 2000 65535 1200, .send 3000 0 1200, .send 4000 1 1200, .feedback 9000 65534 5000 0,
        .feedback 9500 65535 6000 0, .feedback 9900 1 7000 0] = .ok (s, [65534, 65535, 1]) ∧
      gapFreeRuns [65534, 65535, 1] = [1, 2] ∧ TellsRuns s [65534, 65535, 1] := by
  obtain ⟨s, hrun⟩ : ∃ s : SenderBasedController ℚ, run (traced step acceptedNumbers) (fresh, [])
      [.send 1000 65534 1200, .send 2000 65535 1200, .send 3000 0 1200, .send 4000 1 1200,
        .feedback 9000 65534 5000 0, .feedback 9500 65535 6000 0, .feedback 9900 1 7000 0] =
          .ok (s, [65534, 65535, 1]) := ⟨_, rfl⟩
  exact ⟨s, hrun, by decide, (intervals_tell_runs_iff rfl hrun (by simp)).mpr (by decide)⟩

/-- A packet every seven microseconds, and at once the feedback about it. -/
def burst (i : Nat) : List ControllerCall :=
  [.send (1000 + 7 * UInt64.ofNat i) (UInt16.ofNat i) 1200,
   .feedback (51000 + 7 * UInt64.ofNat i) (UInt16.ofNat i) (26000 + 7 * UInt64.ofNat i) 0]

/-- The state after n packets of a burst, and the numbers accepted until then. -/
structure Streamed (n : Nat) (s : SenderBasedController K) (accepted : List UInt16) : Prop where
  firstSend : s.firstSend = false
  lastSequence : s.lastSequence + 1 = UInt16.ofNat n
  inTransitPackets : s.inTransitPackets = []
  head : ∃ first rest, s.packetHistory = first :: rest ∧ first.txTimestampUs = 1000
  last : ∀ last ∈ s.packetHistory.getLast?, 1000 ≤ last.txTimestampUs.toNat ∧ last.txTimestampUs.toNat ≤ 1000 + 7 * n
  expectedSeq : s.ilState.expectedSeq = UInt16.ofNat n
  historyLengthUs : s.historyLengthUs = defaultHistoryLengthUs
  accepted : accepted = (List.range n).map UInt16.ofNat

private theorem received_txTimestampUs (packet : PacketRecord) (nowUs rxTimestampUs : UInt64) :
    (packet.received nowUs rxTimestampUs).txTimestampUs = packet.txTimestampUs := rfl

private theorem recordPacket_next {packet : PacketRecord} (nowUs rxTimestampUs : UInt64)
    (hhistory : s.packetHistory ≠ [])
    (hzero : packet.owdUs = 0 ∧ packet.rttUs = 0) (hnext : packet.sequence = s.ilState.expectedSeq) :
    ∃ baseDelayUs, s.recordPacket packet nowUs rxTimestampUs = .ok { s with
      baseDelayUs := baseDelayUs
      ilState := { s.ilState with
        intervals := s.ilState.intervals.modifyHead (· + 1), expectedSeq := s.ilState.expectedSeq + 1 }
      packetHistory := s.packetHistory ++ [packet.received nowUs rxTimestampUs]
      pktSizeSum := s.pktSizeSum + packet.size } := by
  have hupdate (baseDelayUs : UInt64) :
      ({ s with baseDelayUs } : SenderBasedController K).updateInterLossData packet.sequence = .ok { s with
        baseDelayUs
        ilState := { s.ilState with
          intervals := s.ilState.intervals.modifyHead (· + 1), expectedSeq := s.ilState.expectedSeq + 1 } } := by
    rw [updateInterLossData]
    simp only [List.isEmpty_eq_false_iff.mpr hhistory, Bool.false_eq_true, if_false, hnext, if_true, pure_eq_ok]
  rw [recordPacket, check_of hzero.1, ok_bind, check_of hzero.2, ok_bind]
  dsimp only
  split
  · refine ⟨rxTimestampUs - packet.txTimestampUs, ?_⟩
    rw [hupdate, ok_bind]
    rfl
  · refine ⟨s.baseDelayUs, ?_⟩
    rw [hupdate s.baseDelayUs, ok_bind]
    rfl

private theorem acceptPacket_next (s : SenderBasedController K) (packet : PacketRecord) {first last : PacketRecord}
    {rest : List PacketRecord} (nowUs rxTimestampUs : UInt64)
    (hhistory : s.packetHistory = first :: rest) (hlast : last ∈ s.packetHistory.getLast?)
    (hzero : packet.owdUs = 0 ∧ packet.rttUs = 0) (hnext : packet.sequence = s.ilState.expectedSeq)
    (hlength : s.historyLengthUs = defaultHistoryLengthUs)
    (hfirst : first.txTimestampUs.toNat ≤ packet.txTimestampUs.toNat)
    (hlate : last.txTimestampUs.toNat ≤ packet.txTimestampUs.toNat)
    (hwithin : packet.txTimestampUs.toNat < first.txTimestampUs.toNat + 500000)
    (hclose : packet.txTimestampUs.toNat ≤ last.txTimestampUs.toNat + 500000)
    (hbound : packet.txTimestampUs.toNat < 2 ^ 62) :
    s.packetHistory.getLast?.any (fun last => lessThan packet.txTimestampUs last.txTimestampUs) = false ∧
    s.dropObsolete packet = s ∧
    ∃ baseDelayUs, s.acceptPacket packet nowUs rxTimestampUs = .ok (true, { s with
      baseDelayUs := baseDelayUs
      ilState := { s.ilState with
        intervals := s.ilState.intervals.modifyHead (· + 1), expectedSeq := s.ilState.expectedSeq + 1 }
      packetHistory := s.packetHistory ++ [packet.received nowUs rxTimestampUs]
      pktSizeSum := s.pktSizeSum + packet.size }) := by
  have hany : s.packetHistory.getLast?.any
      (fun last => lessThan packet.txTimestampUs last.txTimestampUs) = false := by
    rw [hlast, Option.any_some]
    exact (lessThan_eq_false_iff_le (by omega) (by omega)).mpr hlate
  have hdrop : s.dropObsolete packet = s := by
    have hadd : (last.txTimestampUs + maxInterPacketTimeUs).toNat = last.txTimestampUs.toNat + 500000 :=
      toNat_add_historyLength (by omega)
    rw [dropObsolete, hlast]
    dsimp only
    rw [if_neg]
    rw [lessThan_iff_lt (by omega) (by omega)]
    omega
  obtain ⟨baseDelayUs, hrecord⟩ := recordPacket_next nowUs rxTimestampUs (by simp [hhistory]) hzero hnext
  refine ⟨hany, hdrop, baseDelayUs, ?_⟩
  have hcollect (sum : UInt32) : collectHistory s.historyLengthUs
      (s.packetHistory ++ [packet.received nowUs rxTimestampUs]) sum =
        .ok (s.packetHistory ++ [packet.received nowUs rxTimestampUs], sum) := by
    have hadd : (first.txTimestampUs + s.historyLengthUs).toNat = first.txTimestampUs.toNat + 500000 := by
      rw [hlength]
      exact toNat_add_historyLength (by omega)
    have hback : (first :: (rest ++ [packet.received nowUs rxTimestampUs])).getLast (by simp) =
        packet.received nowUs rxTimestampUs := by simp
    have hordered : lessThan packet.txTimestampUs first.txTimestampUs = false :=
      (lessThan_eq_false_iff_le (by omega) (by omega)).mpr hfirst
    have hkept : lessThan packet.txTimestampUs (first.txTimestampUs + s.historyLengthUs) = true := by
      rw [lessThan_iff_lt (by omega) (by omega), hadd]
      exact hwithin
    rw [hhistory, List.cons_append, collectHistory, hback]
    simp only [received_txTimestampUs, hordered, hkept, check_of, ok_bind, if_true, pure_eq_ok]
  rw [acceptPacket, if_neg (by simp [hany]), hdrop, hrecord, ok_bind, hcollect, ok_bind]
  rfl

private theorem burst_step {n : Nat} (hn : n < 65536) (h : Streamed n s accepted) :
    ∃ s' accepted', run (traced step acceptedNumbers) (s, accepted) (burst n) = .ok (s', accepted') ∧
      Streamed (n + 1) s' accepted' := by
  obtain ⟨first, rest, hhistory, hfirst⟩ := h.head
  obtain ⟨last, hlast⟩ : ∃ last, last ∈ s.packetHistory.getLast? := by
    rw [hhistory, List.getLast?_eq_some_getLast (by simp)]
    exact ⟨_, rfl⟩
  obtain ⟨hearly, hlate⟩ := h.last last hlast
  have htime : ((1000 : UInt64) + 7 * UInt64.ofNat n).toNat = 1000 + 7 * n := by
    simp only [UInt64.toNat_add, UInt64.toNat_mul, UInt64.reduceToNat, UInt64.toNat_ofNat']
    omega
  let packet : PacketRecord := ⟨UInt16.ofNat n, 1000 + 7 * UInt64.ofNat n, 1200, 0, 0⟩
  have htx : packet.txTimestampUs.toNat = 1000 + 7 * n := htime
  have hfirstTx : first.txTimestampUs.toNat = 1000 := by rw [hfirst]; rfl
  obtain ⟨k, hk, hevict⟩ := evictOld_newest [] packet
  obtain rfl : k = 0 := Nat.le_zero.mp hk
  let sent : SenderBasedController K :=
    { s with firstSend := false, lastSequence := packet.sequence, inTransitPackets := [packet] }
  have hsend : s.processSendPacket packet.txTimestampUs packet.sequence packet.size = .ok (true, sent) := by
    have hqueue : evictOld packet.txTimestampUs ([] ++ [⟨UInt16.ofNat n, packet.txTimestampUs, packet.size, 0, 0⟩]) =
        .ok [packet] := hevict
    simp only [processSendPacket, h.firstSend, h.lastSequence, h.inTransitPackets, Bool.false_eq_true, if_false, ne_eq]
    rw [if_neg (not_not.mpr rfl), hqueue, ok_bind]
    rfl
  have hself : lessThan packet.sequence packet.sequence = false := by simp [lessThan]
  have hpop : popStale packet.sequence [packet] = .ok (packet, []) := by simp [popStale, hself]
  obtain ⟨hany, hdrop, baseDelayUs, haccept⟩ := acceptPacket_next { sent with inTransitPackets := [] } packet
    (51000 + 7 * UInt64.ofNat n) (26000 + 7 * UInt64.ofNat n) hhistory hlast ⟨rfl, rfl⟩
    h.expectedSeq.symm h.historyLengthUs (by omega) (by omega) (by omega) (by omega) (by omega)
  let final : SenderBasedController K := { sent with
    baseDelayUs := baseDelayUs
    inTransitPackets := []
    ilState := { s.ilState with
      intervals := s.ilState.intervals.modifyHead (· + 1), expectedSeq := s.ilState.expectedSeq + 1 }
    packetHistory := s.packetHistory ++ [packet.received (51000 + 7 * UInt64.ofNat n) (26000 + 7 * UInt64.ofNat n)]
    pktSizeSum := s.pktSizeSum + packet.size }
  have hfeedback : sent.processFeedback (51000 + 7 * UInt64.ofNat n) packet.sequence (26000 + 7 * UInt64.ofNat n) 0 =
      .ok (true, final) := by
    have hback : sent.inTransitPackets.getLast? = some packet := rfl
    rw [processFeedback, if_neg (by simp [sent, hself]), hback]
    dsimp only
    rw [check_of rfl, ok_bind, hpop, ok_bind]
    dsimp only
    rw [if_neg (by simp [hself]), check_of rfl, ok_bind]
    exact haccept
  have hrecorded : acceptedNumbers accepted sent (.feedback (51000 + 7 * UInt64.ofNat n) packet.sequence
      (26000 + 7 * UInt64.ofNat n) 0) = accepted ++ [packet.sequence] := by
    have hsome : sent.recorded packet.sequence = some packet := by
      have hsent : popStale packet.sequence sent.inTransitPackets = .ok (packet, []) := hpop
      have hlater : sent.packetHistory.getLast?.any
          (fun last => lessThan packet.txTimestampUs last.txTimestampUs) = false := hany
      have hpast : lessThan sent.lastSequence packet.sequence = false := hself
      simp [recorded, hpast, hsent, Except.toOption, hself, hlater]
    have hqueue := dropObsolete_queue (s := sent) packet []
    have hkept := congrArg packetHistory hdrop
    have hkeeps : (sent.dropObsolete packet).packetHistory = s.packetHistory :=
      (congrArg packetHistory hqueue).symm.trans hkept
    simp only [acceptedNumbers, hsome, Option.elim_some, hkeeps]
    rw [if_neg (by simp [hhistory])]
  refine ⟨final, accepted ++ [packet.sequence], ?_, ?_⟩
  · refine bind_eq_ok.mpr ⟨(sent, accepted), (traced_eq_ok step acceptedNumbers).mpr ⟨?_, rfl⟩, ?_⟩
    · exact bind_eq_ok.mpr ⟨(true, sent), hsend, rfl⟩
    · refine bind_eq_ok.mpr ⟨(final, _), (traced_eq_ok step acceptedNumbers).mpr ⟨?_, hrecorded.symm⟩, rfl⟩
      exact bind_eq_ok.mpr ⟨(true, final), hfeedback, rfl⟩
  · have hnext : UInt16.ofNat n + 1 = UInt16.ofNat (n + 1) := by simp [UInt16.ofNat_add]
    refine ⟨rfl, hnext, rfl, ⟨first, _, congrArg (· ++ [_]) hhistory, hfirst⟩, ?_, ?_, h.historyLengthUs, ?_⟩
    · intro l hl
      have hl : l = packet.received (51000 + 7 * UInt64.ofNat n) (26000 + 7 * UInt64.ofNat n) := by
        simpa [final] using hl.symm
      rw [hl, received_txTimestampUs, htx]
      omega
    · rw [← hnext, ← h.expectedSeq]
    · rw [h.accepted, List.range_succ, List.map_append]
      rfl

private theorem run_burst {n : Nat} (hn : n < 65536) :
    ∃ (s : SenderBasedController ℚ) (accepted : List UInt16),
      run (traced step acceptedNumbers) (fresh, []) ((List.range (n + 1)).flatMap burst) = .ok (s, accepted) ∧
        Streamed (n + 1) s accepted := by
  induction n with
  | zero =>
    let s : SenderBasedController ℚ := { fresh with
      firstSend := false
      baseDelayUs := 25000
      packetHistory := [⟨0, 1000, 1200, 25000, 50000⟩]
      pktSizeSum := 1200
      ilState := { intervals := [1], expectedSeq := 1 } }
    have hfirst : run (traced step acceptedNumbers) (fresh, []) (burst 0) = .ok (s, [0]) := by decide +kernel
    refine ⟨s, [0], hfirst, rfl, rfl, rfl, ⟨_, [], rfl, rfl⟩, fun last hlast => ?_, rfl, rfl, rfl⟩
    cases hlast
    decide
  | succ n ih =>
    obtain ⟨s, accepted, hrun, hstreamed⟩ := ih (by omega)
    obtain ⟨s', accepted', hburst, hnext⟩ := burst_step hn hstreamed
    refine ⟨s', accepted', ?_, hnext⟩
    rw [List.range_succ, List.flatMap_append, run_append, hrun, ok_bind, List.flatMap_singleton]
    exact hburst

private theorem gapFreeRuns_range (n : Nat) : gapFreeRuns ((List.range (n + 1)).map UInt16.ofNat) = [n + 1] := by
  rw [gapFreeRuns, runLengths_of_isChain (by simp), List.length_map, List.length_range]
  rw [List.isChain_map, List.isChain_range]
  intro m _
  simp [follows, UInt16.ofNat_add]

/-- After 65536 packets in order the interval is told to be zero. -/
theorem long_burst_is_lost : ∃ (s : SenderBasedController ℚ) (accepted : List UInt16),
    run (traced step acceptedNumbers) (fresh, []) ((List.range 65536).flatMap burst) = .ok (s, accepted) ∧
      gapFreeRuns accepted = [65536] ∧ s.ilState.intervals = [0] ∧ ¬ TellsRuns s accepted := by
  obtain ⟨s, accepted, hrun, hstreamed⟩ := run_burst (n := 65535) (by omega)
  have hruns : gapFreeRuns accepted = [65536] := by
    rw [hstreamed.accepted]
    exact gapFreeRuns_range 65535
  have hne : accepted ≠ [] := by
    rintro rfl
    simp [gapFreeRuns] at hruns
  have hintervals : s.ilState.intervals = [0] := by
    rw [((run_tracks rfl hrun).counts hne).intervals, hruns]
    rfl
  refine ⟨s, accepted, hrun, hruns, hintervals, fun h => ?_⟩
  have htrue := h.intervals
  rw [hruns, hintervals] at htrue
  simp at htrue

end SenderBasedController

end Ns3Rmcat.Controller
