import Ns3Rmcat.Controller.CcfsRun
import Ns3Rmcat.Controller.Dummy
import Ns3Rmcat.Controller.NadaApi
import Ns3Rmcat.Lib.SlidingWindow

/-! How long packets stay in transit in each of the controllers when no feedback comes: the base
controller removes what was sent ten times the maximum interval before, in the unit of the
times that it is given. -/
namespace Ns3Rmcat.Controller
open Lib

/-- The part of a controller that sending reads and writes. -/
structure Transit where
  firstSend : Bool
  lastSequence : UInt16
  inTransitPackets : List PacketRecord

def evicted (txTimestampUs : UInt64) (p : PacketRecord) : Bool :=
  lessThan (p.txTimestampUs + 10 * maxInterPacketTimeUs) txTimestampUs

private theorem evicted_iff {txTimestampUs : UInt64} {p : PacketRecord}
    (hle : p.txTimestampUs.toNat ≤ txTimestampUs.toNat) (hnow : txTimestampUs.toNat < 2 ^ 63) :
    evicted txTimestampUs p = true ↔ p.txTimestampUs.toNat + 5000000 < txTimestampUs.toNat := by
  have hlimit : (10 * maxInterPacketTimeUs).toNat = 5000000 := rfl
  simp only [evicted, lessThan, decide_eq_true_eq, UInt64.lt_iff_toNat_lt, UInt64.toNat_sub, UInt64.toNat_add, hlimit]
  omega

private theorem evicted_self (p : PacketRecord) : evicted p.txTimestampUs p = false := by
  have ht := p.txTimestampUs.toNat_lt
  simp only [evicted, lessThan, maxInterPacketTimeUs, decide_eq_false_iff_not, UInt64.lt_iff_toNat_lt,
    UInt64.toNat_sub, UInt64.toNat_add, UInt64.toNat_mul, UInt64.reduceToNat]
  omega

private theorem evictOld_eq_dropWhile (queue : List PacketRecord) (newest : PacketRecord) :
    evictOld newest.txTimestampUs (queue ++ [newest]) =
      .ok ((queue ++ [newest]).dropWhile (evicted newest.txTimestampUs)) := by
  induction queue with
  | nil =>
    have hself := evicted_self newest
    rw [List.nil_append, List.dropWhile_cons_of_neg (by simp [hself]), evictOld]
    rw [evicted] at hself
    simp [hself]
  | cons front queue ih =>
    have hstep : evictOld newest.txTimestampUs (front :: (queue ++ [newest])) =
        if evicted newest.txTimestampUs front = true then evictOld newest.txTimestampUs (queue ++ [newest])
        else .ok (front :: (queue ++ [newest])) := rfl
    rw [List.cons_append, hstep]
    by_cases hold : evicted newest.txTimestampUs front = true
    · rw [if_pos hold, List.dropWhile_cons_of_pos hold]
      exact ih
    · rw [if_neg hold, List.dropWhile_cons_of_neg hold]

namespace SenderBasedController
variable {K : Type}

def transit (s : SenderBasedController K) : Transit := ⟨s.firstSend, s.lastSequence, s.inTransitPackets⟩

private theorem processSendPacket_transit {s : SenderBasedController K} {sequence : UInt16}
    (hnext : s.firstSend = true ∨ sequence = s.lastSequence + 1) (txTimestampUs : UInt64) (size : UInt32) :
    ∃ s', s.processSendPacket txTimestampUs sequence size = .ok (true, s') ∧
      s'.transit = ⟨false, sequence, List.dropWhile (evicted txTimestampUs)
        (s.inTransitPackets ++ [⟨sequence, txTimestampUs, size, 0, 0⟩])⟩ := by
  have hevict := evictOld_eq_dropWhile s.inTransitPackets ⟨sequence, txTimestampUs, size, 0, 0⟩
  rw [processSendPacket]
  cases hfirst : s.firstSend with
  | true =>
    simp only [if_true, UInt16.sub_add_cancel, ne_eq, not_true_eq_false, if_false, hevict, ok_bind]
    refine ⟨_, rfl, ?_⟩
    rfl
  | false =>
    have hsequence : sequence = s.lastSequence + 1 := by
      rcases hnext with htrue | hsequence
      · rw [hfirst] at htrue
        cases htrue
      · exact hsequence
    subst hsequence
    simp only [Bool.false_eq_true, if_false, ne_eq, not_true_eq_false, hevict, ok_bind]
    refine ⟨_, rfl, ?_⟩
    rw [transit, hfirst]

end SenderBasedController

/-- A controller whose own function packets are sent through. -/
inductive SendingController (K : Type) where
  | base (s : SenderBasedController K)
  | nada (s : NadaController K)
  | dummy (s : DummyController K)
  | ccfs (s : CcfsController)

/-- A packet that is sent, at a time in microseconds. -/
structure Sent where
  ssrc : UInt32
  timeUs : UInt64
  sequence : UInt16
  size : UInt32
  deriving DecidableEq, Repr

namespace SendingController
variable {K : Type}

def send (s : SendingController K) (p : Sent) : Checked (SendingController K) :=
  match s with
  | .base s => do
    let (_, s) ← s.processSendPacket p.timeUs p.sequence p.size
    return .base s
  | .nada s => do
    let (_, s) ← s.processSendPacket p.timeUs p.sequence p.size
    return .nada s
  | .dummy s => do
    let (_, s) ← s.processSendPacket p.timeUs p.sequence p.size
    return .dummy s
  | .ccfs s => do
    let (_, s) ← s.processSendPacket2 p.ssrc p.timeUs p.sequence p.size
    return .ccfs s

def transit : SendingController K → Transit
  | .base s => s.transit
  | .nada s => s.base.transit
  | .dummy s => s.base.transit
  | .ccfs s => s.base.transit

/-- How many microseconds the records of a controller count as one. -/
def timeUnit : SendingController K → UInt64
  | .base _ => 1
  | .nada _ => 1
  | .dummy _ => 1
  | .ccfs _ => 1000

end SendingController

def Sent.record (unit : UInt64) (p : Sent) : PacketRecord := ⟨p.sequence, p.timeUs / unit, p.size, 0, 0⟩

namespace SendingController
variable {K : Type} {s : SendingController K}

private theorem send_transit {p : Sent} (hnext : s.transit.firstSend = true ∨ p.sequence = s.transit.lastSequence + 1) :
    ∃ s', s.send p = .ok s' ∧ s'.timeUnit = s.timeUnit ∧
      s'.transit = ⟨false, p.sequence, (s.transit.inTransitPackets ++ [p.record s.timeUnit]).dropWhile
        (evicted (p.timeUs / s.timeUnit))⟩ := by
  have hone : p.timeUs / 1 = p.timeUs := UInt64.div_one
  cases s with
  | base s =>
    obtain ⟨next, hsend, htransit⟩ := SenderBasedController.processSendPacket_transit hnext p.timeUs p.size
    refine ⟨.base next, ?_, rfl, ?_⟩
    · rw [send, hsend]
      rfl
    · rw [timeUnit, Sent.record, hone]
      exact htransit
  | nada s =>
    obtain ⟨next, hsend, htransit⟩ := SenderBasedController.processSendPacket_transit hnext p.timeUs p.size
    obtain ⟨after, hafter, hbase⟩ : ∃ after, s.processSendPacket p.timeUs p.sequence p.size = .ok (true, after) ∧
        after.base = next := by
      rw [NadaController.processSendPacket, hsend]
      simp only [ok_bind, Bool.true_eq_false, if_false]
      split <;> exact ⟨_, rfl, rfl⟩
    refine ⟨.nada after, ?_, rfl, ?_⟩
    · rw [send, hafter]
      rfl
    · rw [timeUnit, Sent.record, hone, transit, hbase]
      exact htransit
  | dummy s =>
    obtain ⟨next, hsend, htransit⟩ := SenderBasedController.processSendPacket_transit hnext p.timeUs p.size
    refine ⟨.dummy { s with base := next }, ?_, rfl, ?_⟩
    · rw [send, DummyController.processSendPacket, hsend]
      rfl
    · rw [timeUnit, Sent.record, hone]
      exact htransit
  | ccfs s =>
    obtain ⟨next, hsend, htransit⟩ := SenderBasedController.processSendPacket_transit hnext (p.timeUs / 1000) p.size
    obtain ⟨⟨ok, after⟩, hafter⟩ := s.processSendPacket2_returns p.ssrc p.timeUs p.sequence p.size
    obtain ⟨ok', base, sent, lastSent, start, hbase, hframe⟩ := CcfsController.processSendPacket2_ok hafter
    cases hsend.symm.trans hbase
    refine ⟨.ccfs after, ?_, rfl, ?_⟩
    · rw [send, hafter]
      rfl
    · rw [hframe]
      exact htransit

/-- A packet was sent more than 5000000 units before another one. -/
def tooOld (unit : UInt64) (now p : Sent) : Bool :=
  p.timeUs.toNat / unit.toNat + 5000000 < now.timeUs.toNat / unit.toNat

private theorem tooOld_mono {unit : UInt64} {now later : Sent} (h : now.timeUs ≤ later.timeUs) (p : Sent)
    (hold : tooOld unit now p = true) : tooOld unit later p = true := by
  have hle := Nat.div_le_div_right (c := unit.toNat) (UInt64.le_iff_toNat_le.mp h)
  rw [tooOld, decide_eq_true_iff] at hold ⊢
  omega

private theorem evicted_record {unit : UInt64} {now p : Sent} (hle : p.timeUs ≤ now.timeUs)
    (hnow : now.timeUs.toNat < 2 ^ 63) : evicted (now.timeUs / unit) (p.record unit) = tooOld unit now p := by
  have hdiv := Nat.div_le_div_right (c := unit.toNat) (UInt64.le_iff_toNat_le.mp hle)
  have hsmall := Nat.div_le_self now.timeUs.toNat unit.toNat
  have hrecord : (p.record unit).txTimestampUs.toNat = p.timeUs.toNat / unit.toNat := UInt64.toNat_div _ _
  have hunit : (now.timeUs / unit).toNat = now.timeUs.toNat / unit.toNat := UInt64.toNat_div _ _
  rw [Bool.eq_iff_iff, tooOld, decide_eq_true_iff, evicted_iff (by omega) (by omega), hrecord, hunit]

/-- Packets with consecutive numbers, sent at simulation times that never decrease. -/
structure SentOn (sends : List Sent) : Prop where
  consecutive : sends.IsChain fun p q => q.sequence = p.sequence + 1
  sorted : sends.Pairwise fun p q => p.timeUs ≤ q.timeUs
  early : ∀ p ∈ sends, p.timeUs.toNat < 2 ^ 63

private theorem SentOn.init {before after : List Sent} (h : SentOn (before ++ after)) : SentOn before :=
  ⟨List.IsChain.left_of_append h.consecutive, (List.pairwise_append.mp h.sorted).1,
    fun p hp => h.early p (List.mem_append_left after hp)⟩

private theorem dropWhile_congr_mem {A : Type} {p q : A → Bool} {l : List A} (h : ∀ x ∈ l, p x = q x) :
    l.dropWhile p = l.dropWhile q := by
  induction l with
  | nil => rfl
  | cons x l ih =>
    have hx := h x List.mem_cons_self
    have hl := ih fun y hy => h y (List.mem_cons_of_mem x hy)
    by_cases hp : p x = true
    · rw [List.dropWhile_cons_of_pos hp, List.dropWhile_cons_of_pos (hx ▸ hp), hl]
    · rw [List.dropWhile_cons_of_neg hp, List.dropWhile_cons_of_neg (hx ▸ hp)]

/-- A controller through which nothing has been sent yet. -/
def Unused (s : SendingController K) : Prop := s.transit.firstSend = true ∧ s.transit.inTransitPackets = []

/-- The packets in transit are what is left of those sent, when the old ones have been removed
from the front. -/
private theorem run_transit {start : SendingController K} (hunused : Unused start) {sends : List Sent}
    (hsends : SentOn sends) :
    ∃ s, run send start sends = .ok s ∧ s.timeUnit = start.timeUnit ∧ s.transit.firstSend = sends.isEmpty ∧
      (sends = [] → s.transit.inTransitPackets = []) ∧ ∀ last ∈ sends.getLast?,
        s.transit.lastSequence = last.sequence ∧ s.transit.inTransitPackets =
          (sends.dropWhile (tooOld start.timeUnit last)).map (Sent.record start.timeUnit) := by
  induction sends using List.reverseRecOn with
  | nil => exact ⟨start, rfl, rfl, hunused.1, fun _ => hunused.2, by simp⟩
  | append_singleton before now ih =>
    obtain ⟨mid, hmid, hunit, hfirst, hnone, hlast⟩ := ih hsends.init
    have hnext : mid.transit.firstSend = true ∨ now.sequence = mid.transit.lastSequence + 1 := by
      cases hprev : before.getLast? with
      | none => exact .inl (by simp [hfirst, List.getLast?_eq_none_iff.mp hprev])
      | some last =>
        have hchain := (List.isChain_append.mp hsends.consecutive).2.2 last hprev now rfl
        exact .inr (by rw [hchain, (hlast last hprev).1])
    obtain ⟨s, hsend, hsame, htransit⟩ := send_transit hnext
    refine ⟨s, (run_snoc send).mpr ⟨mid, hmid, hsend⟩, hsame.trans hunit, by simp [htransit], by simp, ?_⟩
    intro last hget
    obtain rfl : now = last := by simpa using hget
    refine ⟨by rw [htransit], ?_⟩
    have hqueue : ∃ old, (∀ p, old p = true → tooOld start.timeUnit now p = true) ∧
        mid.transit.inTransitPackets = (before.dropWhile old).map (Sent.record start.timeUnit) := by
      cases hprev : before.getLast? with
      | none =>
        have hnil := List.getLast?_eq_none_iff.mp hprev
        exact ⟨fun _ => false, by simp, by simp [hnone hnil, hnil]⟩
      | some last =>
        have hle : last.timeUs ≤ now.timeUs :=
          (List.pairwise_append.mp hsends.sorted).2.2 last (List.mem_of_getLast? hprev) now (by simp)
        exact ⟨tooOld start.timeUnit last, tooOld_mono hle, (hlast last hprev).2⟩
    obtain ⟨old, hold, hmidQueue⟩ := hqueue
    have hmembers : ∀ p ∈ before.dropWhile old ++ [now],
        (evicted (now.timeUs / start.timeUnit) ∘ Sent.record start.timeUnit) p = tooOld start.timeUnit now p := by
      intro p hp
      rw [Function.comp_apply]
      refine evicted_record ?_ (hsends.early now (by simp))
      rcases List.mem_append.mp hp with hbefore | hnow
      · exact (List.pairwise_append.mp hsends.sorted).2.2 p ((List.dropWhile_sublist _).subset hbefore) now (by simp)
      · rw [List.mem_singleton.mp hnow]
        exact UInt64.le_refl _
    have hkept : (before.dropWhile old ++ [now]).dropWhile
        (evicted (now.timeUs / start.timeUnit) ∘ Sent.record start.timeUnit) =
          (before ++ [now]).dropWhile (tooOld start.timeUnit now) := by
      rw [dropWhile_congr_mem hmembers, dropWhile_dropWhile_append hold]
    rw [htransit, hunit, hmidQueue, ← List.map_singleton (f := Sent.record start.timeUnit), ← List.map_append,
      List.dropWhile_map, hkept]

/-- After the send of a packet: those in transit are the last of the packets sent, this one among
them, and were all sent at most 5000000 microseconds before it. -/
def Bounded (sends : List Sent) (now : Sent) (s : SendingController K) : Prop :=
  ∃ lost kept, sends = lost ++ kept ∧ s.transit.inTransitPackets = kept.map (Sent.record s.timeUnit) ∧
    kept.getLast? = some now ∧ ∀ p ∈ kept, now.timeUs.toNat ≤ p.timeUs.toNat + 5000000

def AlwaysBounded (start : SendingController K) (sends : List Sent) : Prop :=
  ∀ before now after, sends = before ++ now :: after →
    ∃ s, run send start (before ++ [now]) = .ok s ∧ Bounded (before ++ [now]) now s

/-- A packet that was sent more than 5000000 microseconds before another one has gone by then. -/
def Gone (unit : UInt64) (sends : List Sent) : Prop :=
  sends.Pairwise fun p now => now.timeUs.toNat ≤ p.timeUs.toNat + 5000000 ∨ tooOld unit now p = true

private theorem dropWhile_tooOld {sends : List Sent} (hsends : SentOn sends) (unit : UInt64) (now : Sent) :
    sends.dropWhile (tooOld unit now) = sends.filter fun p => !tooOld unit now p := by
  refine (dropWhile_eq_filter_iff fun p _ hp => hp).mpr ⟨fun p _ hp => hp, hsends.sorted.imp ?_⟩
  intro p q hle hq
  have hdiv := Nat.div_le_div_right (c := unit.toNat) (UInt64.le_iff_toNat_le.mp hle)
  rw [tooOld, decide_eq_true_iff] at hq ⊢
  omega

private theorem bounded_iff {start : SendingController K} (hunused : Unused start) {before : List Sent} {now : Sent}
    (hsends : SentOn (before ++ [now])) :
    (∃ s, run send start (before ++ [now]) = .ok s ∧ Bounded (before ++ [now]) now s) ↔
      ∀ p ∈ before, now.timeUs.toNat ≤ p.timeUs.toNat + 5000000 ∨ tooOld start.timeUnit now p = true := by
  obtain ⟨s, hrun, hunit, -, -, hlast⟩ := run_transit hunused hsends
  obtain ⟨-, hqueue⟩ := hlast now (by simp)
  have hself : tooOld start.timeUnit now now = false := by simp [tooOld]
  have hsplit := List.takeWhile_append_dropWhile (p := tooOld start.timeUnit now) (l := before ++ [now])
  have hfilter := dropWhile_tooOld hsends start.timeUnit now
  constructor
  · rintro ⟨s', hrun', lost, kept, he, hkept, -, hbound⟩ p hp
    cases hrun.symm.trans hrun'
    have hlength : kept.length = ((before ++ [now]).dropWhile (tooOld start.timeUnit now)).length := by
      simpa using congrArg List.length (hkept.symm.trans hqueue)
    obtain rfl := List.append_inj_right' (he.symm.trans hsplit.symm) hlength
    by_cases hold : tooOld start.timeUnit now p = true
    · exact .inr hold
    · refine .inl (hbound p ?_)
      rw [hfilter, List.mem_filter]
      exact ⟨List.mem_append_left _ hp, by simp [hold]⟩
  · intro h
    refine ⟨s, hrun, _, _, hsplit.symm, by rw [hqueue, hunit], ?_, fun p hp => ?_⟩
    · rw [hfilter, List.filter_append, List.getLast?_append]
      simp [hself]
    · rw [hfilter, List.mem_filter] at hp
      rcases List.mem_append.mp hp.1 with hbefore | hnow
      · rcases h p hbefore with hin | hold
        · exact hin
        · simp [hold] at hp
      · rw [List.mem_singleton.mp hnow]
        omega

/-- In every controller packets stay in transit for 5 seconds at most exactly when those that were
sent earlier are too old in its unit. -/
private theorem alwaysBounded_iff_gone {start : SendingController K} (hunused : Unused start) {sends : List Sent}
    (hsends : SentOn sends) : AlwaysBounded start sends ↔ Gone start.timeUnit sends := by
  induction sends using List.reverseRecOn with
  | nil => simp [AlwaysBounded, Gone]
  | append_singleton before now ih =>
    have hnow := bounded_iff hunused hsends
    have hbefore := ih hsends.init
    rw [Gone, List.pairwise_append, ← Gone, ← hbefore]
    constructor
    · intro h
      refine ⟨fun earlier p after he => ?_, List.pairwise_singleton _ _, fun p hp q hq => ?_⟩
      · exact h earlier p (after ++ [now]) (by rw [he]; simp)
      · rw [List.mem_singleton.mp hq]
        exact hnow.mp (h before now [] rfl) p hp
    · rintro ⟨hearlier, -, hlast⟩ earlier p after he
      rcases snoc_eq_append_cons he with ⟨rfl, rfl, rfl⟩ | ⟨rest, rfl, hrest⟩
      · exact hnow.mpr fun q hq => hlast q hq _ (List.mem_singleton_self _)
      · exact hearlier earlier p rest hrest

/-- The times of a CCFS controller are milliseconds, and its packets stay for 5000 seconds. -/
def SilentOrShort (sends : List Sent) : Prop :=
  sends.Pairwise fun p now => now.timeUs.toNat ≤ p.timeUs.toNat + 5000000 ∨
    p.timeUs.toNat / 1000 + 5000000 < now.timeUs.toNat / 1000

/-- The bound holds in each run of sends of the base controller, NADA and the dummy; in the CCFS
controller exactly when no two sends are more than 5 and no more than 5000 seconds apart. -/
theorem alwaysBounded_iff {start : SendingController K} (hunused : Unused start) {sends : List Sent}
    (hsends : SentOn sends) :
    AlwaysBounded start sends ↔ ∀ s, start = .ccfs s → SilentOrShort sends := by
  rw [alwaysBounded_iff_gone hunused hsends, Gone]
  have hmicro (h : start.timeUnit = 1) :
      sends.Pairwise fun p now => now.timeUs.toNat ≤ p.timeUs.toNat + 5000000 ∨ tooOld start.timeUnit now p = true := by
    refine List.pairwise_of_forall fun p now => ?_
    rw [tooOld, decide_eq_true_iff, h]
    simp only [UInt64.reduceToNat, Nat.div_one]
    omega
  cases start with
  | base s => exact ⟨fun _ s' he => (by cases he), fun _ => hmicro rfl⟩
  | nada s => exact ⟨fun _ s' he => (by cases he), fun _ => hmicro rfl⟩
  | dummy s => exact ⟨fun _ s' he => (by cases he), fun _ => hmicro rfl⟩
  | ccfs s =>
    have hsame : (sends.Pairwise fun p now => now.timeUs.toNat ≤ p.timeUs.toNat + 5000000 ∨
        tooOld (SendingController.ccfs (K := K) s).timeUnit now p = true) ↔ SilentOrShort sends :=
      List.Pairwise.iff fun {p now} => or_congr_right decide_eq_true_iff
    rw [hsame]
    exact ⟨fun h _ _ => h, fun h => h s rfl⟩

/-- Two packets that are sent six seconds apart. -/
def sixSecondsApart : List Sent := [⟨7, 0, 1, 1200⟩, ⟨7, 6000000, 2, 1200⟩]

private theorem sentOn_sixSecondsApart : SentOn sixSecondsApart := by
  refine ⟨?_, ?_, ?_⟩
  · simp [sixSecondsApart]
  · simp [sixSecondsApart]
  · simp [sixSecondsApart]

theorem alwaysBounded_iff_nada :
    AlwaysBounded (.nada NadaController.fresh : SendingController ℚ) sixSecondsApart ∧
      (AlwaysBounded (.ccfs CcfsController.constructed.reset : SendingController ℚ) sixSecondsApart ↔
        SilentOrShort sixSecondsApart) := by
  refine ⟨(alwaysBounded_iff ⟨rfl, rfl⟩ sentOn_sixSecondsApart).mpr fun s he => (by cases he), ?_⟩
  rw [alwaysBounded_iff ⟨rfl, rfl⟩ sentOn_sixSecondsApart]
  exact ⟨fun h => h _ rfl, fun h _ _ => h⟩

/-- A CCFS controller keeps the first packet. -/
theorem ccfs_keeps_packets : SentOn sixSecondsApart ∧
    (∃ s : SendingController ℚ, run send (.ccfs CcfsController.constructed.reset) sixSecondsApart = .ok s ∧
      s.transit.inTransitPackets = [⟨1, 0, 1200, 0, 0⟩, ⟨2, 6000, 1200, 0, 0⟩]) ∧
    ¬ AlwaysBounded (.ccfs CcfsController.constructed.reset : SendingController ℚ) sixSecondsApart := by
  have hunused : Unused (.ccfs CcfsController.constructed.reset : SendingController ℚ) := ⟨rfl, rfl⟩
  refine ⟨sentOn_sixSecondsApart, ?_, ?_⟩
  · obtain ⟨s, hrun, -, -, -, hlast⟩ := run_transit hunused sentOn_sixSecondsApart
    exact ⟨s, hrun, (hlast ⟨7, 6000000, 2, 1200⟩ rfl).2.trans (by decide +kernel)⟩
  · rw [alwaysBounded_iff_gone hunused sentOn_sixSecondsApart, Gone]
    decide +kernel

end SendingController

end Ns3Rmcat.Controller
