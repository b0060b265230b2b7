import Mathlib

/-! A queue whose elements leave one at a time: each when it has come and the one before it has had its
time. What holds of the times at which they leave, over any history of such a queue. -/
namespace Ns3Rmcat.Lib

/-- An element leaves, and the next one has to wait until it has had its time. -/
structure Departure (A : Type) where
  atUs : ℕ
  element : A
  holdUs : ℕ
  deriving DecidableEq, Repr

/-- What happens at a paced queue. After a restart nothing has to wait for what has left before. -/
inductive PacedAction (A : Type) where
  | enqueue (atUs : ℕ) (element : A)
  | dequeue (departure : Departure A)
  | discard
  | restart
  deriving DecidableEq, Repr

/-- The elements that wait, each since a time, and when the first of them need not wait any more. -/
structure PacedQueue (A : Type) where
  freeUs : ℕ
  waiting : List (ℕ × A)
  deriving DecidableEq, Repr

def departures {A : Type} (actions : List (PacedAction A)) : List (Departure A) :=
  actions.filterMap fun
    | .dequeue departure => some departure
    | _ => none

section Departures
variable {A : Type}

theorem departures_append (actions more : List (PacedAction A)) :
    departures (actions ++ more) = departures actions ++ departures more := List.filterMap_append

theorem mem_departures {actions : List (PacedAction A)} {departure : Departure A} :
    departure ∈ departures actions ↔ .dequeue departure ∈ actions := by
  rw [departures, List.mem_filterMap]
  constructor
  · rintro ⟨action, hmem, he⟩
    cases action with
    | dequeue other =>
      cases he
      exact hmem
    | enqueue atUs element => cases he
    | discard => cases he
    | restart => cases he
  · exact fun hmem => ⟨_, hmem, rfl⟩

def heldUs (gone : List (Departure A)) : ℕ := (gone.map Departure.holdUs).sum

theorem heldUs_cons (departure : Departure A) (gone : List (Departure A)) :
    heldUs (departure :: gone) = departure.holdUs + heldUs gone := by
  simp [heldUs]

theorem heldUs_snoc (gone : List (Departure A)) (departure : Departure A) :
    heldUs (gone ++ [departure]) = heldUs gone + departure.holdUs := by
  simp [heldUs]

end Departures

namespace PacedQueue
variable {A : Type} [DecidableEq A]

/-- Only the element at the front can leave, and only at its time. -/
def add (q : PacedQueue A) : PacedAction A → Option (PacedQueue A)
  | .enqueue atUs element => some { q with waiting := q.waiting ++ [(atUs, element)] }
  | .dequeue departure =>
    match q.waiting with
    | [] => none
    | front :: rest =>
      if front.2 = departure.element ∧ departure.atUs = max front.1 q.freeUs then
        some ⟨departure.atUs + departure.holdUs, rest⟩
      else none
  | .discard => some { q with waiting := [] }
  | .restart => some { q with freeUs := 0 }

def replay (q : PacedQueue A) (actions : List (PacedAction A)) : Option (PacedQueue A) := actions.foldlM add q

section Replay
variable {q q' : PacedQueue A} {actions : List (PacedAction A)}

theorem replay_append (q : PacedQueue A) (actions more : List (PacedAction A)) :
    q.replay (actions ++ more) = (q.replay actions).bind fun mid => mid.replay more := List.foldlM_append

theorem replay_snoc {action : PacedAction A} : q.replay (actions ++ [action]) = some q' ↔
    ∃ mid, q.replay actions = some mid ∧ mid.add action = some q' := by
  rw [replay_append, Option.bind_eq_some_iff]
  simp [replay]

theorem add_dequeue {departure : Departure A} : q.add (.dequeue departure) = some q' ↔
    ∃ sinceUs rest, q.waiting = (sinceUs, departure.element) :: rest ∧ departure.atUs = max sinceUs q.freeUs ∧
      q' = ⟨departure.atUs + departure.holdUs, rest⟩ := by
  rw [add]
  split
  · rename_i hnil
    simp [hnil]
  · rename_i front rest hwaiting
    obtain ⟨sinceUs, element⟩ := front
    rw [Option.ite_none_right_eq_some, hwaiting]
    constructor
    · rintro ⟨⟨rfl, hat⟩, he⟩
      exact ⟨sinceUs, rest, rfl, hat, (Option.some.inj he).symm⟩
    · rintro ⟨since, rest', hcons, hat, rfl⟩
      cases hcons
      exact ⟨⟨rfl, hat⟩, rfl⟩

/-- Without a restart, the next departure waits for the last one. -/
theorem freeUs_eq (hrestart : .restart ∉ actions) (h : q.replay actions = some q') :
    (departures actions = [] ∧ q'.freeUs = q.freeUs) ∨
      ∃ gone last, departures actions = gone ++ [last] ∧ q'.freeUs = last.atUs + last.holdUs := by
  induction actions using List.reverseRecOn generalizing q' with
  | nil =>
    cases h
    exact .inl ⟨rfl, rfl⟩
  | append_singleton actions action ih =>
    obtain ⟨mid, hmid, hadd⟩ := replay_snoc.mp h
    have hbefore := ih (fun hmem => hrestart (List.mem_append_left _ hmem)) hmid
    rw [departures_append]
    cases action with
    | enqueue atUs element =>
      cases hadd
      rwa [show departures [PacedAction.enqueue atUs element] = [] from rfl, List.append_nil]
    | dequeue departure =>
      obtain ⟨sinceUs, rest, -, -, rfl⟩ := add_dequeue.mp hadd
      exact .inr ⟨departures actions, departure, rfl, rfl⟩
    | discard =>
      cases hadd
      rwa [show departures [PacedAction.discard (A := A)] = [] from rfl, List.append_nil]
    | restart => exact absurd (List.mem_append_right actions List.mem_cons_self) hrestart

/-- What the next departure waits for is the last one, unless there has been a restart since. -/
theorem freeUs_cases (h : q.replay actions = some q') :
    q'.freeUs = q.freeUs ∨ q'.freeUs = 0 ∨ ∃ departure ∈ departures actions, q'.freeUs = departure.atUs + departure.holdUs := by
  induction actions using List.reverseRecOn generalizing q' with
  | nil =>
    cases h
    exact .inl rfl
  | append_singleton actions action ih =>
    obtain ⟨mid, hmid, hadd⟩ := replay_snoc.mp h
    have hbefore : mid.freeUs = q.freeUs ∨ mid.freeUs = 0 ∨
        ∃ departure ∈ departures (actions ++ [action]), mid.freeUs = departure.atUs + departure.holdUs := by
      rw [departures_append]
      rcases ih hmid with hsame | hzero | ⟨departure, hmem, hfree⟩
      · exact .inl hsame
      · exact .inr (.inl hzero)
      · exact .inr (.inr ⟨departure, List.mem_append_left _ hmem, hfree⟩)
    cases action with
    | enqueue atUs element =>
      cases hadd
      exact hbefore
    | dequeue departure =>
      obtain ⟨sinceUs, rest, -, -, rfl⟩ := add_dequeue.mp hadd
      exact .inr (.inr ⟨departure, mem_departures.mpr (List.mem_append_right _ List.mem_cons_self), rfl⟩)
    | discard =>
      cases hadd
      exact hbefore
    | restart =>
      cases hadd
      exact .inr (.inl rfl)

/-- All departures from the first one on take their time, one after the other. -/
theorem heldUs_le (hrestart : .restart ∉ actions) (h : q.replay actions = some q') {first : Departure A}
    {more : List (Departure A)} (hgone : departures actions = first :: more) :
    first.atUs + heldUs (first :: more) ≤ q'.freeUs := by
  induction actions using List.reverseRecOn generalizing q' more with
  | nil => cases hgone
  | append_singleton actions action ih =>
    obtain ⟨mid, hmid, hadd⟩ := replay_snoc.mp h
    have hearlier := fun hmem => hrestart (List.mem_append_left _ hmem)
    rw [departures_append] at hgone
    cases action with
    | enqueue atUs element =>
      cases hadd
      exact ih hearlier hmid ((List.append_nil _).symm.trans hgone)
    | dequeue departure =>
      obtain ⟨sinceUs, rest, -, hat, rfl⟩ := add_dequeue.mp hadd
      cases hbefore : departures actions with
      | nil =>
        rw [hbefore] at hgone
        cases hgone
        simp [heldUs]
      | cons first' between =>
        rw [hbefore] at hgone
        obtain ⟨rfl, rfl⟩ := List.cons.inj hgone
        have hle := ih hearlier hmid hbefore
        have hmore : heldUs (first' :: between.append [departure]) = heldUs (first' :: between) + departure.holdUs :=
          heldUs_snoc (first' :: between) departure
        refine (congrArg (first'.atUs + ·) hmore).le.trans ?_
        simp only
        omega
    | discard =>
      cases hadd
      exact ih hearlier hmid ((List.append_nil _).symm.trans hgone)
    | restart => exact absurd (List.mem_append_right actions List.mem_cons_self) hrestart

/-- The queue never goes faster: from one departure to a later one it takes the time of all that
leave between them, and of the first. -/
theorem departs_after (hrestart : .restart ∉ actions) (h : q.replay actions = some q') {first last : Departure A}
    {between : List (Departure A)} (hgone : departures actions = first :: between ++ [last]) :
    first.atUs + heldUs (first :: between) ≤ last.atUs := by
  have hall := heldUs_le hrestart h (hgone.trans (List.cons_append ..))
  rw [← List.cons_append, heldUs_snoc] at hall
  rcases freeUs_eq hrestart h with ⟨hnone, -⟩ | ⟨gone, last', hgone', hfree⟩
  · rw [hnone] at hgone
    cases hgone
  · obtain ⟨-, hlast⟩ := List.append_inj' (hgone'.symm.trans hgone) rfl
    cases hlast
    omega

/-- It never goes slower: the elements that wait leave in order, back to back. -/
theorem freeUs_le {atUs : ℕ} (hpast : ∀ w ∈ q.waiting, w.1 ≤ atUs) (hrestart : .restart ∉ actions)
    (hdiscard : .discard ∉ actions) (h : q.replay actions = some q')
    (hlength : (departures actions).length ≤ q.waiting.length) :
    (departures actions).map Departure.element = (q.waiting.take (departures actions).length).map Prod.snd ∧
      (∃ more, q'.waiting = q.waiting.drop (departures actions).length ++ more) ∧
      q'.freeUs ≤ max atUs q.freeUs + heldUs (departures actions) := by
  induction actions using List.reverseRecOn generalizing q' with
  | nil =>
    cases h
    refine ⟨rfl, ⟨[], (List.append_nil _).symm⟩, ?_⟩
    exact (le_max_right _ _).trans (Nat.le_add_right _ _)
  | append_singleton actions action ih =>
    obtain ⟨mid, hmid, hadd⟩ := replay_snoc.mp h
    have hrestart' := fun hmem => hrestart (List.mem_append_left [action] hmem)
    have hdiscard' := fun hmem => hdiscard (List.mem_append_left [action] hmem)
    rw [departures_append] at hlength ⊢
    cases action with
    | enqueue sinceUs element =>
      cases hadd
      rw [show departures [PacedAction.enqueue sinceUs element] = [] from rfl, List.append_nil] at hlength ⊢
      obtain ⟨helements, ⟨more, hmore⟩, hfree⟩ := ih hrestart' hdiscard' hmid hlength
      refine ⟨helements, ⟨more ++ [(sinceUs, element)], ?_⟩, hfree⟩
      rw [hmore, List.append_assoc]
    | dequeue departure =>
      obtain ⟨sinceUs, rest, hfront, hat, rfl⟩ := add_dequeue.mp hadd
      rw [show departures [PacedAction.dequeue departure] = [departure] from rfl, List.length_append] at hlength
      rw [show departures [PacedAction.dequeue departure] = [departure] from rfl, List.length_append, heldUs_snoc]
      obtain ⟨helements, ⟨more, hmore⟩, hfree⟩ := ih hrestart' hdiscard' hmid (Nat.le_of_succ_le hlength)
      -- The element is one of those that have waited.
      obtain ⟨w, hw⟩ : ∃ w, q.waiting[(departures actions).length]? = some w :=
        ⟨_, List.getElem?_eq_getElem hlength⟩
      have hdrop : q.waiting.drop (departures actions).length = w :: q.waiting.drop ((departures actions).length + 1) := by
        obtain ⟨hlt, rfl⟩ := List.getElem?_eq_some_iff.mp hw
        exact List.drop_eq_getElem_cons hlt
      rw [hdrop, hfront, List.cons_append] at hmore
      cases hmore
      have hsince := hpast _ (List.mem_of_getElem? hw)
      refine ⟨?_, ⟨more, rfl⟩, ?_⟩
      · rw [List.map_append, helements, List.length_singleton, List.take_add_one, hw, List.map_append]
        rfl
      · simp only at hsince ⊢
        omega
    | discard => exact absurd (List.mem_append_right actions List.mem_cons_self) hdiscard
    | restart => exact absurd (List.mem_append_right actions List.mem_cons_self) hrestart

omit [DecidableEq A] in
/-- When fewer leave than have waited, one of those is at the front. -/
theorem exists_front {atUs n : ℕ} (hpast : ∀ w ∈ q.waiting, w.1 ≤ atUs) (hlength : n < q.waiting.length)
    {more : List (ℕ × A)} (hmore : q'.waiting = q.waiting.drop n ++ more) :
    ∃ front ∈ q'.waiting.head?, front.1 ≤ atUs := by
  rw [List.drop_eq_getElem_cons hlength] at hmore
  refine ⟨q.waiting[n], ?_, hpast _ (List.getElem_mem hlength)⟩
  rw [hmore]
  rfl

end Replay

end PacedQueue

end Ns3Rmcat.Lib
