import Ns3Rmcat.Controller.InterLoss
import Ns3Rmcat.Controller.SenderBasedMetrics

/-! The base delay against the one-way delays that are accepted into the history. The two clocks
need not agree, so that the delays may wrap; what is needed is that they lie in one half of the
64-bit circle. -/
namespace Ns3Rmcat.Controller
open Lib

private theorem lessThan_iff_within {start a b : UInt64} (ha : (a - start).toNat < 2 ^ 63)
    (hb : (b - start).toNat < 2 ^ 63) :
    lessThan a b = true ↔ (a - start).toNat < (b - start).toNat := by
  have hstart := start.toNat_lt
  have halt := a.toNat_lt
  have hblt := b.toNat_lt
  simp only [lessThan, decide_eq_true_eq, UInt64.lt_iff_toNat_lt, UInt64.toNat_sub] at ha hb ⊢
  omega

/-- How far a word is above another one that is not after it. -/
theorem sub_within {start a b : UInt64} (hb : (b - start).toNat < 2 ^ 63)
    (hle : (a - start).toNat ≤ (b - start).toNat) :
    (b - a).toNat = (b - start).toNat - (a - start).toNat := by
  have hstart := start.toNat_lt
  have halt := a.toNat_lt
  have hblt := b.toNat_lt
  simp only [UInt64.toNat_sub] at hb hle ⊢
  omega

private theorem min_le_both (a b : UInt64) : min a b ≤ a ∧ min a b ≤ b := by
  have hmin : min a b = if a ≤ b then a else b := rfl
  rw [hmin]
  split
  · rename_i hle
    exact ⟨UInt64.le_refl a, hle⟩
  · rename_i hlt
    rw [UInt64.le_iff_toNat_le] at hlt
    exact ⟨UInt64.le_iff_toNat_le.mpr (by omega), UInt64.le_refl b⟩

theorem minOf_least {xs : List UInt64} {x : UInt64} (h : minOf xs = some x) : ∀ y ∈ xs, x ≤ y := by
  cases xs with
  | nil => cases h
  | cons first xs =>
    rw [minOf] at h
    cases h
    induction xs generalizing first with
    | nil =>
      intro y hy
      rw [List.mem_singleton.mp hy]
      exact UInt64.le_refl _
    | cons second xs ih =>
      have hrest := ih (min first second)
      have hstart := hrest _ List.mem_cons_self
      obtain ⟨hfirst, hsecond⟩ := min_le_both first second
      intro y hy
      rw [List.foldl_cons]
      rcases List.mem_cons.mp hy with rfl | hy
      · exact UInt64.le_trans hstart hfirst
      rcases List.mem_cons.mp hy with rfl | hy
      · exact UInt64.le_trans hstart hsecond
      · exact hrest y (List.mem_cons_of_mem _ hy)

namespace SenderBasedController
variable {K : Type} {s s' : SenderBasedController K} {accepted : List PacketRecord} {w : UInt64}

/-- The packets accepted since the history was last empty or cleared, after a further call. -/
def acceptedPackets (accepted : List PacketRecord) (s : SenderBasedController K) : ControllerCall → List PacketRecord
  | .send .. => accepted
  | .feedback nowUs sequence rxTimestampUs _ => (s.recorded sequence).elim accepted fun packet =>
    (if (s.dropObsolete packet).packetHistory = [] then [] else accepted) ++ [packet.received nowUs rxTimestampUs]

/-- The one-way delay of a packet that is accepted is in the half of the circle that begins at w. -/
def DelayWithin (w : UInt64) (s : SenderBasedController K) : ControllerCall → Prop
  | .send .. => True
  | .feedback _ sequence rxTimestampUs _ =>
    ∀ packet ∈ s.recorded sequence, (rxTimestampUs - packet.txTimestampUs - w).toNat < 2 ^ 63

instance (w : UInt64) (s : SenderBasedController K) : DecidablePred (s.DelayWithin w) := fun call => by
  cases call <;> unfold DelayWithin <;> infer_instance

/-- The base delay is the smallest one of some packets, the newest of which are the history. -/
structure Based (w : UInt64) (s : SenderBasedController K) (accepted : List PacketRecord) : Prop where
  history : s.packetHistory <:+ accepted
  empty : s.packetHistory = [] → accepted = []
  within : ∀ p ∈ accepted, (p.owdUs - w).toNat < 2 ^ 63
  attained : accepted ≠ [] → ∃ p ∈ accepted, s.baseDelayUs = p.owdUs
  least : ∀ p ∈ accepted, (s.baseDelayUs - w).toNat ≤ (p.owdUs - w).toNat

private theorem recordPacket_base {packet : PacketRecord} {nowUs rxTimestampUs : UInt64}
    (h : s.recordPacket packet nowUs rxTimestampUs = .ok s') :
    s'.baseDelayUs = if s.packetHistory = [] ∨ lessThan (rxTimestampUs - packet.txTimestampUs) s.baseDelayUs = true then
      rxTimestampUs - packet.txTimestampUs else s.baseDelayUs := by
  simp only [recordPacket, bind_eq_ok, check_eq_ok, exists_const, pure_eq_ok, Except.ok.injEq, Bool.or_eq_true,
    List.isEmpty_iff] at h
  obtain ⟨-, -, next, hnext, rfl⟩ := h
  have hframe := congrArg baseDelayUs (updateInterLossData_frame hnext)
  split at hframe <;> rename_i hcase
  · rw [if_pos hcase]
    exact hframe
  · rw [if_neg hcase]
    exact hframe

/-- One more accepted packet: the base delay of the packets before it is kept, or the packet has it. -/
theorem Based.record {packet : PacketRecord} {nowUs rxTimestampUs : UInt64} {kept : List PacketRecord}
    (h : Based w s kept) (hwithin : (rxTimestampUs - packet.txTimestampUs - w).toNat < 2 ^ 63)
    (hrecord : s.recordPacket packet nowUs rxTimestampUs = .ok s') :
    Based w s' (kept ++ [packet.received nowUs rxTimestampUs]) := by
  have hhistory : s'.packetHistory = s.packetHistory ++ [packet.received nowUs rxTimestampUs] :=
    congrArg packetHistory (recordPacket_ok hrecord)
  have hbase := recordPacket_base hrecord
  have howd : (packet.received nowUs rxTimestampUs).owdUs = rxTimestampUs - packet.txTimestampUs := rfl
  refine ⟨?_, ?_, ?_, ?_, ?_⟩
  · rw [hhistory]
    obtain ⟨older, holder⟩ := h.history
    exact ⟨older, by rw [← List.append_assoc, holder]⟩
  · rw [hhistory]
    exact fun hnil => absurd hnil (by simp)
  · intro p hp
    rcases List.mem_append.mp hp with hold | hnew
    · exact h.within p hold
    · rw [List.mem_singleton.mp hnew, howd]
      exact hwithin
  · intro _
    split at hbase
    · exact ⟨_, List.mem_append_right _ (List.mem_singleton_self _), hbase⟩
    · rename_i hkept
      have hne : kept ≠ [] := fun hnil => hkept (.inl (List.suffix_nil.mp (hnil ▸ h.history)))
      obtain ⟨p, hp, hattained⟩ := h.attained hne
      exact ⟨p, List.mem_append_left _ hp, hbase.trans hattained⟩
  · intro p hp
    have hold : kept ≠ [] → (s.baseDelayUs - w).toNat < 2 ^ 63 := by
      intro hne
      obtain ⟨q, hq, hattained⟩ := h.attained hne
      rw [hattained]
      exact h.within q hq
    split at hbase
    · rename_i hnew
      rcases List.mem_append.mp hp with hp | hp
      · have hne : kept ≠ [] := List.ne_nil_of_mem hp
        have hlt := (lessThan_iff_within hwithin (hold hne)).mp (hnew.resolve_left (mt h.empty hne))
        have hle := h.least p hp
        rw [hbase]
        omega
      · rw [hbase, List.mem_singleton.mp hp, howd]
    · rename_i hkept
      obtain ⟨hne, hlater⟩ := not_or.mp hkept
      rw [hbase]
      rcases List.mem_append.mp hp with hp | hp
      · exact h.least p hp
      · have hkeptNe : kept ≠ [] := fun hnil => hne (List.suffix_nil.mp (hnil ▸ h.history))
        rw [lessThan_iff_within hwithin (hold hkeptNe)] at hlater
        rw [List.mem_singleton.mp hp, howd]
        exact Nat.le_of_not_lt hlater

private theorem Based.drop (h : Based w s accepted) (packet : PacketRecord) (rest : List PacketRecord) :
    Based w { s.dropObsolete packet with inTransitPackets := rest }
      (if (s.dropObsolete packet).packetHistory = [] then [] else accepted) := by
  split
  · rename_i hnil
    exact ⟨by rw [hnil], fun _ => rfl, by simp, fun hne => absurd rfl hne, by simp⟩
  · rename_i hne
    rcases dropObsolete_cases (s := s) packet with hsame | hempty
    · rw [hsame]
      exact ⟨h.history, h.empty, h.within, h.attained, h.least⟩
    · rw [hempty] at hne
      exact absurd rfl hne

theorem Based.step {call : ControllerCall} (h : Based w s accepted) (hwithin : s.DelayWithin w call)
    (hstep : s.step call = .ok s') : Based w s' (acceptedPackets accepted s call) := by
  cases call with
  | send txTimestampUs sequence size =>
    obtain ⟨⟨ok, next⟩, hsend, hnext⟩ := bind_eq_ok.mp hstep
    cases hnext
    obtain ⟨lastSequence, queue, rfl⟩ := processSendPacket_frame hsend
    exact ⟨h.history, h.empty, h.within, h.attained, h.least⟩
  | feedback nowUs sequence rxTimestampUs ecn =>
    obtain ⟨⟨ok, next⟩, hfeedback, hnext⟩ := bind_eq_ok.mp hstep
    cases hnext
    rcases processFeedback_records hfeedback with ⟨hnone, queue, rfl⟩ |
      ⟨packet, rest, mid, rfl, hsome, hmid, history, sum, hcollect, rfl⟩
    · simp only [acceptedPackets, hnone, Option.elim_none]
      exact ⟨h.history, h.empty, h.within, h.attained, h.least⟩
    · simp only [acceptedPackets, hsome, Option.elim_some]
      have hrecorded := (h.drop packet rest).record (hwithin packet hsome) hmid
      -- Garbage collection leaves the base delay alone, and an end of the history.
      refine ⟨?_, fun hnil => absurd hnil (collectHistory_ne_nil hcollect), hrecorded.within, hrecorded.attained,
        hrecorded.least⟩
      exact (collectHistory_isSuffix hcollect).trans hrecorded.history

/-- What the delays in a history are worth: the base delay is the smallest one that has been
accepted, none in the history wraps below it, and the queuing delay is the smallest excess over
it of the last packets, which are 15 unless the history is shorter. -/
structure DelaysExact (w : UInt64) (s : SenderBasedController K) (accepted : List PacketRecord) : Prop where
  history : s.packetHistory <:+ accepted
  attained : ∃ p ∈ accepted, s.baseDelayUs = p.owdUs
  least : ∀ p ∈ accepted, (s.baseDelayUs - w).toNat ≤ (p.owdUs - w).toNat
  above : ∀ p ∈ s.packetHistory, (p.owdUs - s.baseDelayUs).toNat < 2 ^ 63
  qdelay : ∃ qdelayUs, s.getCurrentQdelay = some qdelayUs ∧
    (∃ p ∈ s.packetHistory.drop (s.packetHistory.length - 15), qdelayUs = p.owdUs - s.baseDelayUs) ∧
    ∀ p ∈ s.packetHistory.drop (s.packetHistory.length - 15),
      qdelayUs.toNat ≤ (p.owdUs - w).toNat - (s.baseDelayUs - w).toNat

private theorem run_based {s0 : SenderBasedController K} (hempty : s0.packetHistory = []) {calls : List ControllerCall}
    (hrun : run (traced step acceptedPackets) (s0, []) calls = .ok (s, accepted))
    (hwithin : Along step (DelayWithin w) s0 calls) : Based w s accepted := by
  have hstart : Based w s0 [] := ⟨by rw [hempty], fun _ => rfl, by simp, fun hne => absurd rfl hne, by simp⟩
  refine run_induction (traced step acceptedPackets)
    (motive := fun calls t => Along step (DelayWithin w) s0 calls → Based w t.1 t.2) (fun _ => hstart) ?_ hrun hwithin
  intro cs c mid next hmid ih hstep hwithin
  obtain ⟨hnext, haccepted⟩ := (traced_eq_ok step acceptedPackets).mp hstep
  have hcontroller : run step s0 cs = .ok mid.1 := (run_traced step acceptedPackets).mp ⟨mid.2, hmid⟩
  rw [haccepted]
  exact (ih hwithin.init).step (hwithin.last hcontroller) hnext

/-- In every run whose accepted one-way delays lie in one half of the circle, the queuing delay
is the smallest excess over the smallest delay since the history was last empty or cleared. -/
theorem run_delays_exact {s0 : SenderBasedController K} (hempty : s0.packetHistory = []) {calls : List ControllerCall}
    (hrun : run (traced step acceptedPackets) (s0, []) calls = .ok (s, accepted))
    (hwithin : Along step (DelayWithin w) s0 calls) (hne : s.packetHistory ≠ []) : DelaysExact w s accepted := by
  have h := run_based hempty hrun hwithin
  have hacceptedNe : accepted ≠ [] := fun hnil => hne (List.suffix_nil.mp (hnil ▸ h.history))
  have hexcess : ∀ p ∈ s.packetHistory,
      (p.owdUs - s.baseDelayUs).toNat = (p.owdUs - w).toNat - (s.baseDelayUs - w).toNat := fun p hp =>
    sub_within (h.within p (h.history.subset hp)) (h.least p (h.history.subset hp))
  have hnewest : s.newest = (s.packetHistory.drop (s.packetHistory.length - 15)).reverse := List.take_reverse
  refine ⟨h.history, h.attained hacceptedNe, h.least, ?_, ?_⟩
  · intro p hp
    have hp' := h.within p (h.history.subset hp)
    rw [hexcess p hp]
    omega
  · obtain ⟨qdelayUs, hqdelay⟩ : ∃ qdelayUs, s.getCurrentQdelay = some qdelayUs := by
      obtain ⟨last, hlast⟩ := List.getLast?_isSome.mpr hne |> Option.isSome_iff_exists.mp
      obtain ⟨older, holder⟩ := List.getLast?_eq_some_iff.mp hlast
      rw [getCurrentQdelay, newest, holder, List.reverse_append]
      exact ⟨_, rfl⟩
    refine ⟨qdelayUs, hqdelay, ?_, ?_⟩
    · obtain ⟨p, hp, he⟩ := List.mem_map.mp (minOf_mem hqdelay)
      rw [hnewest, List.mem_reverse] at hp
      exact ⟨p, hp, he.symm⟩
    · intro p hp
      have hp' : p ∈ s.newest := by rwa [hnewest, List.mem_reverse]
      rw [← hexcess p (List.mem_of_mem_drop hp)]
      exact UInt64.le_iff_toNat_le.mp (minOf_least hqdelay _ (List.mem_map_of_mem hp'))

/-- The receiver's clock is 30 milliseconds behind, so that the first delay wraps and the second one does not. -/
theorem run_delays_exact_skewed :
    ∃ s : SenderBasedController ℚ, run (traced step acceptedPackets) (fresh, []) [.send 90000 1 1200,
        .send 100000 2 1200, .feedback 150000 1 70000 0, .feedback 160000 2 105000 0] =
          .ok (s, [⟨1, 90000, 1200, 0 - 20000, 60000⟩, ⟨2, 100000, 1200, 5000, 60000⟩]) ∧
      DelaysExact (0 - 30000) s [⟨1, 90000, 1200, 0 - 20000, 60000⟩, ⟨2, 100000, 1200, 5000, 60000⟩] := by
  obtain ⟨s, hrun, hne⟩ : ∃ s : SenderBasedController ℚ, run (traced step acceptedPackets) (fresh, [])
      [.send 90000 1 1200, .send 100000 2 1200, .feedback 150000 1 70000 0, .feedback 160000 2 105000 0] =
        .ok (s, [⟨1, 90000, 1200, 0 - 20000, 60000⟩, ⟨2, 100000, 1200, 5000, 60000⟩]) ∧ s.packetHistory ≠ [] :=
    ⟨_, rfl, by decide⟩
  exact ⟨s, hrun, run_delays_exact rfl hrun (by decide) hne⟩

end SenderBasedController

end Ns3Rmcat.Controller
