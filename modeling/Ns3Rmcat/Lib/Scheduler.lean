import Mathlib

/-! A clock and the events that are scheduled on it. Each event has an identifier, by which it can
be cancelled, and the one that is due first runs next, once. -/
namespace Ns3Rmcat.Lib

/-- An event that waits for its time, and what it will run. -/
structure Scheduled (H : Type) where
  uid : ℕ
  atNs : ℕ
  handler : H
  deriving DecidableEq, Repr

section Order
variable {H : Type}

/-- Events at the same time run in the order in which they were scheduled. -/
def Scheduled.before (e f : Scheduled H) : Bool := e.atNs < f.atNs || (e.atNs == f.atNs && e.uid < f.uid)

def earliest : List (Scheduled H) → Option (Scheduled H)
  | [] => none
  | e :: es =>
    match earliest es with
    | none => some e
    | some f => some (if f.before e then f else e)

theorem earliest_eq_none {es : List (Scheduled H)} : earliest es = none ↔ es = [] := by
  cases es with
  | nil => simp [earliest]
  | cons e es =>
    rw [earliest]
    cases earliest es <;> simp

theorem earliest_cons {es : List (Scheduled H)} {first e : Scheduled H} (h : earliest (first :: es) = some e) :
    (es = [] ∧ e = first) ∨ ∃ f, earliest es = some f ∧ e = if f.before first then f else first := by
  rw [earliest] at h
  cases hrest : earliest es with
  | none =>
    rw [hrest] at h
    exact .inl ⟨earliest_eq_none.mp hrest, (Option.some.inj h).symm⟩
  | some f =>
    rw [hrest] at h
    exact .inr ⟨f, rfl, (Option.some.inj h).symm⟩

theorem earliest_mem {es : List (Scheduled H)} {e : Scheduled H} (h : earliest es = some e) : e ∈ es := by
  induction es generalizing e with
  | nil => cases h
  | cons first es ih =>
    rcases earliest_cons h with ⟨-, rfl⟩ | ⟨f, hf, rfl⟩
    · exact List.mem_cons_self
    · split
      · exact List.mem_cons_of_mem _ (ih hf)
      · exact List.mem_cons_self

theorem atNs_le_of_before {e f : Scheduled H} (h : f.before e = true) : f.atNs ≤ e.atNs := by
  simp only [Scheduled.before, Bool.or_eq_true, Bool.and_eq_true, decide_eq_true_eq, beq_iff_eq] at h
  omega

theorem atNs_le_of_not_before {e f : Scheduled H} (h : ¬ f.before e = true) : e.atNs ≤ f.atNs := by
  simp only [Scheduled.before, Bool.or_eq_true, Bool.and_eq_true, decide_eq_true_eq, beq_iff_eq] at h
  omega

theorem earliest_le {es : List (Scheduled H)} {e f : Scheduled H} (h : earliest es = some e) (hf : f ∈ es) :
    e.atNs ≤ f.atNs := by
  induction es generalizing e with
  | nil => cases h
  | cons first es ih =>
    rcases earliest_cons h with ⟨rfl, rfl⟩ | ⟨g, hg, rfl⟩
    · rw [List.mem_singleton.mp hf]
    · rcases List.mem_cons.mp hf with rfl | hf
      · split
        · rename_i hbefore
          exact atNs_le_of_before hbefore
        · exact le_rfl
      · split
        · exact ih hg hf
        · rename_i hbefore
          exact (atNs_le_of_not_before hbefore).trans (ih hg hf)

end Order

/-- The clock of a simulation. No identifier is given twice, and no event is late. -/
structure Scheduler (H : Type) where
  nowNs : ℕ
  nextUid : ℕ
  pending : List (Scheduled H)
  distinct : (pending.map Scheduled.uid).Nodup
  given : ∀ e ∈ pending, e.uid < nextUid
  notLate : ∀ e ∈ pending, nowNs ≤ e.atNs

namespace Scheduler
variable {H : Type}

def idle (nowNs : ℕ) : Scheduler H where
  nowNs := nowNs
  nextUid := 0
  pending := []
  distinct := List.nodup_nil
  given := by simp
  notLate := by simp

def schedule (s : Scheduler H) (delayNs : ℕ) (handler : H) : ℕ × Scheduler H :=
  (s.nextUid, {
    nowNs := s.nowNs
    nextUid := s.nextUid + 1
    pending := s.pending ++ [⟨s.nextUid, s.nowNs + delayNs, handler⟩]
    distinct := by
      rw [List.map_append, List.nodup_append]
      refine ⟨s.distinct, List.nodup_singleton _, ?_⟩
      intro uid huid other hother
      obtain ⟨e, he, rfl⟩ := List.mem_map.mp huid
      obtain rfl : other = s.nextUid := by simpa using hother
      exact (s.given e he).ne
    given := by
      intro e he
      rcases List.mem_append.mp he with hold | hnew
      · exact Nat.lt_succ_of_lt (s.given e hold)
      · rw [List.mem_singleton.mp hnew]
        exact Nat.lt_succ_self _
    notLate := by
      intro e he
      rcases List.mem_append.mp he with hold | hnew
      · exact s.notLate e hold
      · rw [List.mem_singleton.mp hnew]
        exact Nat.le_add_right _ _ })

/-- An identifier that is not one of an event that waits is left alone. -/
def cancel (s : Scheduler H) (id : Option ℕ) : Scheduler H where
  nowNs := s.nowNs
  nextUid := s.nextUid
  pending := s.pending.filter fun e => some e.uid ≠ id
  distinct := s.distinct.sublist (List.filter_sublist.map _)
  given := fun e he => s.given e (List.mem_of_mem_filter he)
  notLate := fun e he => s.notLate e (List.mem_of_mem_filter he)

def runNext (s : Scheduler H) : Option (Scheduled H × Scheduler H) :=
  match h : earliest s.pending with
  | none => none
  | some e => some (e, {
      nowNs := e.atNs
      nextUid := s.nextUid
      pending := s.pending.filter fun f => f.uid ≠ e.uid
      distinct := s.distinct.sublist (List.filter_sublist.map _)
      given := fun f hf => s.given f (List.mem_of_mem_filter hf)
      notLate := fun _ hf => earliest_le h (List.mem_of_mem_filter hf) })

/-- The clock goes on to a time, but not past an event that waits. -/
def waitUntil (s : Scheduler H) (atNs : ℕ) : Scheduler H where
  nowNs := max s.nowNs (match earliest s.pending with | none => atNs | some e => min atNs e.atNs)
  nextUid := s.nextUid
  pending := s.pending
  distinct := s.distinct
  given := s.given
  notLate := by
    intro e he
    have hnow := s.notLate e he
    cases h : earliest s.pending with
    | none =>
      rw [earliest_eq_none.mp h] at he
      cases he
    | some f =>
      have hle := earliest_le h he
      simp only [max_le_iff]
      omega

/-- Identifiers of the events that wait to run a handler of some kind. -/
def waiting (s : Scheduler H) (kind : H → Bool) : List ℕ :=
  (s.pending.filter fun e => kind e.handler).map Scheduled.uid

variable (s : Scheduler H) (kind : H → Bool)

theorem nodup_waiting : (s.waiting kind).Nodup := s.distinct.sublist (List.filter_sublist.map _)

@[simp] theorem waiting_schedule (delayNs : ℕ) (handler : H) : (s.schedule delayNs handler).2.waiting kind =
    s.waiting kind ++ if kind handler then [s.nextUid] else [] := by
  rw [waiting, schedule, List.filter_append, List.map_append, ← waiting]
  cases h : kind handler <;> simp [h]

theorem mem_pending_schedule {s : Scheduler H} {delayNs : ℕ} {handler : H} {e : Scheduled H} :
    e ∈ (s.schedule delayNs handler).2.pending ↔ e ∈ s.pending ∨ e = ⟨s.nextUid, s.nowNs + delayNs, handler⟩ := by
  rw [schedule, List.mem_append, List.mem_singleton]

@[simp] theorem schedule_fst (delayNs : ℕ) (handler : H) : (s.schedule delayNs handler).1 = s.nextUid := rfl

@[simp] theorem waiting_waitUntil (atNs : ℕ) : (s.waitUntil atNs).waiting kind = s.waiting kind := rfl

@[simp] theorem waiting_cancel (id : Option ℕ) : (s.cancel id).waiting kind =
    (s.waiting kind).filter fun uid => some uid ≠ id := by
  rw [waiting, cancel, waiting, List.filter_map, List.filter_comm]
  rfl

variable {s kind}

theorem waiting_lt {uid : ℕ} (h : uid ∈ s.waiting kind) : uid < s.nextUid := by
  obtain ⟨e, he, rfl⟩ := List.mem_map.mp h
  exact s.given e (List.mem_of_mem_filter he)

theorem runNext_eq {e : Scheduled H} {s' : Scheduler H} (h : s.runNext = some (e, s')) :
    earliest s.pending = some e ∧ s'.nowNs = e.atNs ∧ s'.nextUid = s.nextUid ∧
      s'.pending = s.pending.filter fun f => f.uid ≠ e.uid := by
  rw [runNext] at h
  split at h
  · cases h
  · rename_i hfirst
    cases h
    exact ⟨hfirst, rfl, rfl, rfl⟩

theorem mem_pending_runNext {e f : Scheduled H} {s' : Scheduler H} (h : s.runNext = some (e, s')) (hf : f ∈ s'.pending) :
    f ∈ s.pending := by
  rw [(runNext_eq h).2.2.2] at hf
  exact List.mem_of_mem_filter hf

/-- The clock does not go back. -/
theorem nowNs_le_runNext {e : Scheduled H} {s' : Scheduler H} (h : s.runNext = some (e, s')) : s.nowNs ≤ s'.nowNs := by
  obtain ⟨hfirst, hnow, -⟩ := runNext_eq h
  rw [hnow]
  exact s.notLate e (earliest_mem hfirst)

theorem nowNs_le_waitUntil (s : Scheduler H) (atNs : ℕ) : s.nowNs ≤ (s.waitUntil atNs).nowNs := Nat.le_max_left _ _

/-- It does not go past an event that waits, either. -/
theorem runNext_nowNs_le {e f : Scheduled H} {s' : Scheduler H} (h : s.runNext = some (e, s')) (hf : f ∈ s.pending) :
    s'.nowNs ≤ f.atNs := by
  obtain ⟨hfirst, hnow, -⟩ := runNext_eq h
  rw [hnow]
  exact earliest_le hfirst hf

theorem exists_runNext {e : Scheduled H} (h : earliest s.pending = some e) : ∃ s', s.runNext = some (e, s') := by
  rw [runNext]
  split
  · rename_i hnone
    cases hnone.symm.trans h
  · rename_i hfirst
    cases hfirst.symm.trans h
    exact ⟨_, rfl⟩

theorem runNext_eq_none : s.runNext = none ↔ s.pending = [] := by
  rw [← earliest_eq_none, runNext]
  split
  · rename_i h
    exact iff_of_true rfl h
  · rename_i h
    exact iff_of_false (Option.some_ne_none _) (by simp [h])

theorem waiting_runNext {e : Scheduled H} {s' : Scheduler H} (h : s.runNext = some (e, s')) :
    s'.waiting kind = (s.waiting kind).filter fun uid => uid ≠ e.uid := by
  rw [waiting, (runNext_eq h).2.2.2, waiting, List.filter_map, List.filter_comm]
  rfl

/-- An event of the kind is one of those that wait before it runs. -/
theorem mem_waiting_runNext (kind : H → Bool) {e : Scheduled H} {s' : Scheduler H} (h : s.runNext = some (e, s'))
    (hkind : kind e.handler = true) : e.uid ∈ s.waiting kind :=
  List.mem_map_of_mem (List.mem_filter.mpr ⟨earliest_mem (runNext_eq h).1, hkind⟩)

/-- Where no event of a kind waits, those that wait are of other kinds. -/
theorem kind_of_mem (hnone : s.waiting kind = []) {e : Scheduled H} (he : e ∈ s.pending) : kind e.handler = false := by
  rw [waiting, List.map_eq_nil_iff, List.filter_eq_nil_iff] at hnone
  exact Bool.eq_false_iff.mpr (hnone e he)

/-- What runs next is of no kind of which no event waits. -/
theorem kind_of_runNext {e : Scheduled H} {s' : Scheduler H} (h : s.runNext = some (e, s')) (hnone : s.waiting kind = []) :
    kind e.handler = false :=
  kind_of_mem hnone (earliest_mem (runNext_eq h).1)

/-- An event of another kind takes none of them away. -/
theorem waiting_runNext_of_not {e : Scheduled H} {s' : Scheduler H} (h : s.runNext = some (e, s'))
    (hkind : kind e.handler = false) : s'.waiting kind = s.waiting kind := by
  rw [waiting_runNext h, List.filter_eq_self]
  intro uid huid
  obtain ⟨f, hf, rfl⟩ := List.mem_map.mp huid
  obtain ⟨hmem, hf⟩ := List.mem_filter.mp hf
  have hne : f.uid ≠ e.uid := by
    intro heq
    have hsame : f = e := List.inj_on_of_nodup_map s.distinct hmem (earliest_mem (runNext_eq h).1) heq
    rw [hsame, hkind] at hf
    cases hf
  simpa using hne

/-- The next event is the one that runs. -/
theorem exists_runNext_of_mem {uid : ℕ} (h : uid ∈ s.waiting kind) : ∃ e s', s.runNext = some (e, s') := by
  obtain ⟨e, he, -⟩ := List.mem_map.mp h
  cases hnext : s.runNext with
  | none =>
    rw [runNext_eq_none.mp hnext] at he
    cases he
  | some next => exact ⟨next.1, next.2, rfl⟩

/-- No event of the kind waits but the one with a certain identifier. -/
def Held (s : Scheduler H) (kind : H → Bool) (id : Option ℕ) : Prop := ∀ uid ∈ s.waiting kind, id = some uid

instance (s : Scheduler H) (kind : H → Bool) (id : Option ℕ) : Decidable (s.Held kind id) :=
  inferInstanceAs (Decidable (∀ uid ∈ s.waiting kind, id = some uid))

theorem held_of_nil {id : Option ℕ} (h : s.waiting kind = []) : s.Held kind id := by
  intro uid huid
  rw [h] at huid
  cases huid

theorem Held.waiting_eq {id : Option ℕ} (h : s.Held kind id) :
    s.waiting kind = [] ∨ ∃ uid, id = some uid ∧ s.waiting kind = [uid] := by
  match hwaiting : s.waiting kind, s.nodup_waiting kind with
  | [], _ => exact .inl rfl
  | [uid], _ => exact .inr ⟨uid, h uid (by rw [hwaiting]; exact List.mem_cons_self), rfl⟩
  | uid :: other :: rest, hnodup =>
    have hfirst := h uid (by rw [hwaiting]; simp)
    have hsecond := h other (by rw [hwaiting]; simp)
    have heq : uid = other := Option.some.inj (hfirst.symm.trans hsecond)
    simp [heq] at hnodup

/-- Such an event can be cancelled. -/
theorem Held.cancel {id : Option ℕ} (h : s.Held kind id) : (s.cancel id).waiting kind = [] := by
  rw [waiting_cancel, List.filter_eq_nil_iff]
  intro uid huid
  simp [h uid huid]

theorem Held.cancel_other {id : Option ℕ} (h : s.Held kind id) (other : Option ℕ) : (s.cancel other).Held kind id := by
  intro uid huid
  rw [waiting_cancel] at huid
  exact h uid (List.mem_of_mem_filter huid)

theorem waiting_cancel_of_nil (h : s.waiting kind = []) (id : Option ℕ) : (s.cancel id).waiting kind = [] := by
  rw [waiting_cancel, h]
  rfl

/-- When such an event runs, none waits any more. -/
theorem Held.runNext {id : Option ℕ} (h : s.Held kind id) {e : Scheduled H} {s' : Scheduler H}
    (hnext : s.runNext = some (e, s')) (hkind : kind e.handler = true) : s'.waiting kind = [] := by
  have hmem := mem_waiting_runNext kind hnext hkind
  rw [waiting_runNext hnext, List.filter_eq_nil_iff]
  intro uid huid
  have heq : uid = e.uid := Option.some.inj ((h uid huid).symm.trans (h e.uid hmem))
  simp [heq]

end Scheduler

end Ns3Rmcat.Lib
