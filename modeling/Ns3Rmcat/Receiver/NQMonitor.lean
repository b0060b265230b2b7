import Ns3Rmcat.Lib.OrderedMap

/-! The monitor of a network queue: snapshots of the queue, for each SSRC in the order in which
they were taken. The receiver takes them, and the sender looks one up and deletes older ones. -/
namespace Ns3Rmcat.Receiver
open Lib

namespace UtilNQMonitor

structure Entry where
  timeUs : UInt64 := 0
  seq : UInt16 := 0
  remainPkts : UInt32 := 0
  remainBytes : UInt32 := 0
  delayUs : UInt64 := 0
  deriving DecidableEq, Repr

abbrev QEntries := List Entry

end UtilNQMonitor

structure UtilNQMonitor where
  mapSsrc : Std.ExtTreeMap UInt32 UtilNQMonitor.QEntries
  dataRate : UInt32
  deriving DecidableEq

/-- What is done with a monitor. A snapshot has the time, and the packets and bytes in the queue. -/
inductive MonitorCall where
  | addSnapshot (nowUs : UInt64) (nPackets nBytes : UInt32) (ssrc : UInt32) (seq : UInt16)
  | delOlds (timeUs : UInt64)
  deriving DecidableEq, Repr

namespace UtilNQMonitor

def ofDataRate (dataRate : UInt32) : UtilNQMonitor := ⟨∅, dataRate / 8⟩

/-- The entry of a snapshot: the delay is the time in which the bytes leave the queue. -/
def entryOf (m : UtilNQMonitor) (nowUs : UInt64) (nPackets nBytes : UInt32) (seq : UInt16) : Entry where
  timeUs := nowUs
  seq := seq
  remainPkts := nPackets
  remainBytes := nBytes
  delayUs := nBytes.toUInt64 * 1000 * 1000 / m.dataRate.toUInt64

def addSnapshot (m : UtilNQMonitor) (nowUs : UInt64) (nPackets nBytes : UInt32) (ssrc : UInt32) (seq : UInt16) :
    UtilNQMonitor :=
  let entry := m.entryOf nowUs nPackets nBytes seq
  match m.mapSsrc[ssrc]? with
  | none => { m with mapSsrc := m.mapSsrc.insert ssrc [entry] }
  | some qentr => { m with mapSsrc := m.mapSsrc.insert ssrc (qentr ++ [entry]) }

/-- The loop over the snapshots of one SSRC. Both of its branches end in a break, so that it makes
one round at most. -/
def delOld (timeUs : UInt64) : QEntries → QEntries
  | [] => []
  | front :: qentr => if front.timeUs ≤ timeUs then qentr else front :: qentr

def delOlds (m : UtilNQMonitor) (timeUs : UInt64) : UtilNQMonitor :=
  { m with mapSsrc := m.mapSsrc.map fun _ qentr => delOld timeUs qentr }

def getEntry (m : UtilNQMonitor) (ssrc : UInt32) (seq : UInt16) : Entry :=
  match m.mapSsrc[ssrc]? with
  | none => {}
  | some qentr => (qentr.find? (·.seq = seq)).getD {}

def apply (m : UtilNQMonitor) : MonitorCall → UtilNQMonitor
  | .addSnapshot nowUs nPackets nBytes ssrc seq => m.addSnapshot nowUs nPackets nBytes ssrc seq
  | .delOlds timeUs => m.delOlds timeUs

def entries (m : UtilNQMonitor) (ssrc : UInt32) : QEntries := m.mapSsrc.getD ssrc []

/-- The snapshots of each SSRC are in the order of their times. -/
def InOrder (m : UtilNQMonitor) : Prop :=
  ∀ ssrc, (m.entries ssrc).Pairwise fun a b => a.timeUs ≤ b.timeUs

/-- Deleting leaves the snapshots after a time, all of them and in their order, and no others. -/
def DeletesOlds (m : UtilNQMonitor) (timeUs : UInt64) : Prop :=
  ∀ ssrc, (m.delOlds timeUs).entries ssrc = (m.entries ssrc).filter fun e => timeUs < e.timeUs

/-- No SSRC has more than one snapshot up to a time. -/
def OneOld (m : UtilNQMonitor) (timeUs : UInt64) : Prop :=
  ∀ ssrc, ((m.entries ssrc).filter fun e => e.timeUs ≤ timeUs).length ≤ 1

instance (m : UtilNQMonitor) (timeUs : UInt64) : Decidable (m.OneOld timeUs) :=
  decidable_of_iff (∀ e ∈ m.mapSsrc.toList, (e.2.filter fun e => e.timeUs ≤ timeUs).length ≤ 1) (by
    constructor
    · intro hall ssrc
      rw [entries, Std.ExtTreeMap.getD_eq_getD_getElem?]
      cases hold : m.mapSsrc[ssrc]? with
      | none => exact Nat.zero_le 1
      | some qentr => exact hall (ssrc, qentr) (mem_toList.mpr hold)
    · intro hone e he
      have hold := hone e.1
      rw [entries, Std.ExtTreeMap.getD_eq_getD_getElem?, mem_toList.mp he] at hold
      exact hold)

section Deleting
variable {m : UtilNQMonitor} {timeUs : UInt64}

private theorem entries_delOlds (m : UtilNQMonitor) (timeUs : UInt64) (ssrc : UInt32) :
    (m.delOlds timeUs).entries ssrc = delOld timeUs (m.entries ssrc) := by
  rw [entries, entries, delOlds, Std.ExtTreeMap.getD_eq_getD_getElem?, Std.ExtTreeMap.getD_eq_getD_getElem?,
    Std.ExtTreeMap.getElem?_map]
  cases m.mapSsrc[ssrc]? <;> rfl

private theorem entries_addSnapshot (m : UtilNQMonitor) (nowUs : UInt64) (nPackets nBytes : UInt32)
    (ssrc other : UInt32) (seq : UInt16) :
    (m.addSnapshot nowUs nPackets nBytes ssrc seq).entries other =
      if ssrc = other then m.entries ssrc ++ [m.entryOf nowUs nPackets nBytes seq] else m.entries other := by
  have hstored : (m.addSnapshot nowUs nPackets nBytes ssrc seq).mapSsrc =
      m.mapSsrc.insert ssrc (m.entries ssrc ++ [m.entryOf nowUs nPackets nBytes seq]) := by
    rw [addSnapshot, entries, Std.ExtTreeMap.getD_eq_getD_getElem?]
    cases m.mapSsrc[ssrc]? <;> rfl
  rw [entries, hstored, Std.ExtTreeMap.getD_insert]
  simp only [Std.compare_eq_iff_eq]
  rfl

private theorem delOld_eq_filter_iff {qentr : QEntries} (h : qentr.Pairwise fun a b => a.timeUs ≤ b.timeUs) :
    (delOld timeUs qentr = qentr.filter fun e => timeUs < e.timeUs) ↔
      (qentr.filter fun e => e.timeUs ≤ timeUs).length ≤ 1 := by
  cases qentr with
  | nil => simp [delOld]
  | cons front qentr =>
    obtain ⟨hfront, -⟩ := List.pairwise_cons.mp h
    by_cases hold : front.timeUs ≤ timeUs
    · have hnew : ¬ timeUs < front.timeUs := UInt64.not_lt.mpr hold
      have hone (others : QEntries) : others.length + 1 ≤ 1 ↔ others = [] := by
        rw [← List.length_eq_zero_iff]
        omega
      rw [delOld, if_pos hold, List.filter_cons_of_neg (by simpa using hnew),
        List.filter_cons_of_pos (by simpa using hold), List.length_cons, hone, eq_comm, List.filter_eq_self,
        List.filter_eq_nil_iff]
      simp only [decide_eq_true_eq, UInt64.not_le]
    · have hlater : ∀ e ∈ front :: qentr, timeUs < e.timeUs := by
        intro e he
        rw [UInt64.not_le] at hold
        rcases List.mem_cons.mp he with rfl | he
        · exact hold
        · exact UInt64.lt_of_lt_of_le hold (hfront e he)
      have hnone : ((front :: qentr).filter fun e => e.timeUs ≤ timeUs) = [] := by
        rw [List.filter_eq_nil_iff]
        intro e he
        simpa using hlater e he
      rw [delOld, if_neg hold, hnone]
      refine iff_of_true (List.filter_eq_self.mpr fun e he => ?_).symm (Nat.zero_le _)
      simpa using hlater e he

/-- The old snapshots are really deleted exactly when there is no more than one of each SSRC. -/
theorem deletesOlds_iff (hordered : m.InOrder) : m.DeletesOlds timeUs ↔ m.OneOld timeUs := by
  refine forall_congr' fun ssrc => ?_
  rw [entries_delOlds]
  exact delOld_eq_filter_iff (hordered ssrc)

end Deleting

section Runs
variable {m : UtilNQMonitor} {calls : List MonitorCall}

/-- The time of the snapshot that is taken, if one is. -/
def snapshotUs? : MonitorCall → Option UInt64
  | .addSnapshot nowUs _ _ _ _ => some nowUs
  | .delOlds _ => none

/-- What calls keep: the snapshots are in order, and none is after a time that has come. -/
structure Kept (m : UtilNQMonitor) (nowUs : UInt64) : Prop where
  ordered : m.InOrder
  past : ∀ ssrc, ∀ e ∈ m.entries ssrc, e.timeUs ≤ nowUs

private theorem delOld_sublist (timeUs : UInt64) (qentr : QEntries) : (delOld timeUs qentr).Sublist qentr := by
  cases qentr with
  | nil => exact List.Sublist.refl []
  | cons front qentr =>
    rw [delOld]
    split
    · exact List.sublist_cons_self front qentr
    · exact List.Sublist.refl _

private theorem Kept.later {nowUs laterUs : UInt64} (h : Kept m nowUs) (hle : nowUs ≤ laterUs) : Kept m laterUs :=
  ⟨h.ordered, fun ssrc e he => UInt64.le_trans (h.past ssrc e he) hle⟩

private theorem Kept.addSnapshot {nowUs : UInt64} (h : Kept m nowUs) (nPackets nBytes : UInt32) (ssrc : UInt32)
    (seq : UInt16) : Kept (m.addSnapshot nowUs nPackets nBytes ssrc seq) nowUs := by
  constructor
  · intro other
    rw [entries_addSnapshot]
    split
    · refine List.pairwise_append.mpr ⟨h.ordered ssrc, List.pairwise_singleton _ _, fun a ha b hb => ?_⟩
      rw [List.mem_singleton.mp hb]
      exact h.past ssrc a ha
    · exact h.ordered other
  · intro other e he
    rw [entries_addSnapshot] at he
    split at he
    · rcases List.mem_append.mp he with hold | hnew
      · exact h.past ssrc e hold
      · rw [List.mem_singleton.mp hnew]
        exact UInt64.le_refl nowUs
    · exact h.past other e he

private theorem Kept.delOlds {nowUs : UInt64} (h : Kept m nowUs) (timeUs : UInt64) : Kept (m.delOlds timeUs) nowUs := by
  constructor
  · intro ssrc
    rw [entries_delOlds]
    exact (h.ordered ssrc).sublist (delOld_sublist timeUs _)
  · intro ssrc e he
    rw [entries_delOlds] at he
    exact h.past ssrc e ((delOld_sublist timeUs _).subset he)

private theorem inOrder_foldl {nowUs : UInt64} (h : Kept m nowUs)
    (hstart : ∀ time ∈ calls.filterMap snapshotUs?, nowUs ≤ time)
    (hclock : (calls.filterMap snapshotUs?).Pairwise (· ≤ ·)) : (calls.foldl apply m).InOrder := by
  induction calls generalizing m nowUs with
  | nil => exact h.ordered
  | cons call calls ih =>
    cases call with
    | addSnapshot time nPackets nBytes ssrc seq =>
      obtain ⟨hfirst, hclock⟩ := List.pairwise_cons.mp hclock
      have hlater : nowUs ≤ time := hstart time List.mem_cons_self
      exact ih ((h.later hlater).addSnapshot nPackets nBytes ssrc seq) hfirst hclock
    | delOlds timeUs => exact ih (h.delOlds timeUs) hstart hclock

private theorem inOrder_run {dataRate : UInt32} (hclock : (calls.filterMap snapshotUs?).Pairwise (· ≤ ·)) :
    (calls.foldl apply (ofDataRate dataRate)).InOrder := by
  have hnone (ssrc : UInt32) : (ofDataRate dataRate).entries ssrc = [] := Std.ExtTreeMap.getD_empty
  have hstart : Kept (ofDataRate dataRate) 0 := by
    refine ⟨fun ssrc => ?_, fun ssrc e he => ?_⟩
    · rw [hnone]
      exact List.Pairwise.nil
    · rw [hnone] at he
      cases he
  exact inOrder_foldl hstart (fun time _ => UInt64.zero_le) hclock

end Runs

/-- Three snapshots of one stream and one of another. -/
def fourSnapshots : List MonitorCall :=
  [.addSnapshot 10000 2 3000 7 1, .addSnapshot 20000 3 4500 7 2, .addSnapshot 30000 1 1500 7 3,
    .addSnapshot 30000 1 1500 9 1]

theorem deletesOlds_iff_first : (fourSnapshots.foldl apply (ofDataRate 1000000)).DeletesOlds 10000 := by
  refine (deletesOlds_iff (inOrder_run ?_)).mpr ?_
  · decide
  · decide +kernel

/-- With two old snapshots of a stream, the second one remains and is found. -/
theorem second_old_remains :
    let m := fourSnapshots.foldl apply (ofDataRate 1000000)
    m.InOrder ∧ (m.delOlds 20000).getEntry 7 2 = ⟨20000, 2, 3, 4500, 36000⟩ ∧ ¬ m.DeletesOlds 20000 := by
  refine ⟨inOrder_run (by decide), by decide +kernel, fun hdeletes => ?_⟩
  have hseven := hdeletes 7
  revert hseven
  decide +kernel

end UtilNQMonitor

end Ns3Rmcat.Receiver
