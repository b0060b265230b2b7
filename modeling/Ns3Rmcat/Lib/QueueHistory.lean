import Mathlib

/-! The history of a queue: what is put into it and taken out of it, and when it is emptied. Each
element that was put in has been taken out once and in order, or been discarded, or still waits. -/
namespace Ns3Rmcat.Lib

inductive QueueAction (A : Type) where
  | enqueue (a : A)
  | dequeue (a : A)
  | discard
  deriving DecidableEq, Repr

/-- What became of an element that does not wait any more. -/
inductive Fate where
  | dequeued
  | discarded
  deriving DecidableEq, Repr

/-- The elements of a queue in the order in which they were put in: first those that are settled. -/
structure QueueHistory (A : Type) where
  settled : List (A × Fate)
  waiting : List A
  deriving DecidableEq, Repr

section History
variable {A : Type}

def enqueues (actions : List (QueueAction A)) : List A :=
  actions.filterMap fun
    | .enqueue a => some a
    | _ => none

def dequeues (actions : List (QueueAction A)) : List A :=
  actions.filterMap fun
    | .dequeue a => some a
    | _ => none

variable [DecidableEq A]

/-- Only the element at the front can be taken out. -/
def QueueHistory.add (h : QueueHistory A) : QueueAction A → Option (QueueHistory A)
  | .enqueue a => some { h with waiting := h.waiting ++ [a] }
  | .dequeue a =>
    match h.waiting with
    | [] => none
    | front :: rest => if a = front then some ⟨h.settled ++ [(front, .dequeued)], rest⟩ else none
  | .discard => some ⟨h.settled ++ h.waiting.map fun a => (a, .discarded), []⟩

/-- All actions of a list, on a queue that is empty at first. -/
def replay (actions : List (QueueAction A)) : Option (QueueHistory A) := actions.foldlM QueueHistory.add ⟨[], []⟩

theorem replay_append (actions more : List (QueueAction A)) :
    replay (actions ++ more) = replay actions >>= fun h => more.foldlM QueueHistory.add h := List.foldlM_append

/-- All that waits is taken out, in order. -/
theorem replay_dequeues {actions : List (QueueAction A)} {settled : List (A × Fate)} {waiting : List A}
    (h : replay actions = some ⟨settled, waiting⟩) :
    replay (actions ++ waiting.map .dequeue) = some ⟨settled ++ waiting.map fun a => (a, .dequeued), []⟩ := by
  induction waiting generalizing actions settled with
  | nil => simpa using h
  | cons front waiting ih =>
    have hfront : replay (actions ++ [.dequeue front]) = some ⟨settled ++ [(front, .dequeued)], waiting⟩ := by
      rw [replay_append, h]
      simp [QueueHistory.add]
    have hrest := ih hfront
    rw [List.append_assoc, List.append_assoc] at hrest
    exact hrest

/-- A history accounts for every element that was put in, and for every one that was taken out. -/
theorem accounts_of_replay {actions : List (QueueAction A)} {h : QueueHistory A} (hreplay : replay actions = some h) :
    enqueues actions = h.settled.map Prod.fst ++ h.waiting ∧
      dequeues actions = (h.settled.filter fun e => e.2 = .dequeued).map Prod.fst := by
  induction actions using List.reverseRecOn generalizing h with
  | nil =>
    cases hreplay
    exact ⟨rfl, rfl⟩
  | append_singleton actions action ih =>
    rw [replay_append, Option.bind_eq_bind, Option.bind_eq_some_iff] at hreplay
    obtain ⟨before, hbefore, hadd⟩ := hreplay
    obtain ⟨henqueues, hdequeues⟩ := ih hbefore
    rw [List.foldlM_cons, Option.bind_eq_bind, Option.bind_eq_some_iff] at hadd
    obtain ⟨after, hadd, he⟩ := hadd
    obtain rfl : after = h := Option.some.inj he
    have hfirst : enqueues (actions ++ [action]) = enqueues actions ++ enqueues [action] := List.filterMap_append
    have hsecond : dequeues (actions ++ [action]) = dequeues actions ++ dequeues [action] := List.filterMap_append
    rw [hfirst, hsecond, henqueues, hdequeues]
    cases action with
    | enqueue a =>
      cases hadd
      simp [enqueues, dequeues]
    | dequeue a =>
      rw [QueueHistory.add] at hadd
      split at hadd
      · cases hadd
      · rename_i front rest hwaiting
        split at hadd
        · rename_i heq
          cases hadd
          simp [enqueues, dequeues, hwaiting, heq]
        · cases hadd
    | discard =>
      cases hadd
      simp [enqueues, dequeues, List.filter_map, Function.comp_def]

end History

end Ns3Rmcat.Lib
