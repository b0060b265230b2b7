import Mathlib

/-! Computations that stop at a failed check, and runs of a step function made
of them. A run is the list of calls made so far; its rules are stated once here. -/
namespace Ns3Rmcat.Lib

/-- What can stop a computation before it returns. -/
inductive Fault where
  | assertion
  | endOfBuffer
  | emptyQueue
  | outOfFuel
  deriving DecidableEq, Repr

abbrev Checked (α : Type) := Except Fault α

/-- An assertion: it either does nothing or stops the computation. -/
def check (p : Prop) [Decidable p] : Checked Unit :=
  if p then .ok () else .error .assertion

section Binds
variable {α β : Type}

@[simp] theorem ok_bind (a : α) (f : α → Checked β) : (Except.ok a >>= f) = f a := rfl

@[simp] theorem error_bind (e : Fault) (f : α → Checked β) :
    ((Except.error e : Checked α) >>= f) = .error e := rfl

@[simp] theorem pure_eq_ok (a : α) : (pure a : Checked α) = .ok a := rfl

theorem bind_eq_ok {x : Checked α} {f : α → Checked β} {b : β} :
    (x >>= f) = .ok b ↔ ∃ a, x = .ok a ∧ f a = .ok b := by
  cases x <;> simp

theorem map_eq_ok {x : Checked α} {f : α → β} {b : β} : x.map f = .ok b ↔ ∃ a, x = .ok a ∧ f a = b := by
  cases x <;> simp [Except.map]

@[simp] theorem check_of {p : Prop} [Decidable p] (h : p) : check p = .ok () := if_pos h

@[simp] theorem check_of_not {p : Prop} [Decidable p] (h : ¬ p) :
    check p = .error .assertion := if_neg h

@[simp] theorem check_eq_ok {p : Prop} [Decidable p] {u : Unit} : check p = .ok u ↔ p := by
  by_cases h : p <;> simp [h]

theorem check_bind_eq_ok {p : Prop} [Decidable p] {f : Unit → Checked β} {b : β} :
    (check p >>= f) = .ok b ↔ p ∧ f () = .ok b := by
  by_cases h : p <;> simp [h]

/-- A computation returns when it ends with a value. -/
def Returns (x : Checked α) : Prop := ∃ a, x = .ok a

@[simp] theorem returns_ok (a : α) : Returns (.ok a : Checked α) := ⟨a, rfl⟩

@[simp] theorem not_returns_error (e : Fault) : ¬ Returns (.error e : Checked α) := by
  rintro ⟨a, h⟩
  cases h

theorem returns_bind {x : Checked α} {f : α → Checked β} :
    Returns (x >>= f) ↔ ∃ a, x = .ok a ∧ Returns (f a) := by
  constructor
  · rintro ⟨b, hb⟩
    obtain ⟨a, ha, hf⟩ := bind_eq_ok.mp hb
    exact ⟨a, ha, b, hf⟩
  · rintro ⟨a, ha, b, hf⟩
    exact ⟨b, bind_eq_ok.mpr ⟨a, ha, hf⟩⟩

theorem returns_bind_ok {x : Checked α} {f : α → β} :
    Returns (x >>= fun a => .ok (f a)) ↔ Returns x := by
  rw [returns_bind]
  simp [Returns]

instance (x : Checked α) : Decidable (Returns x) :=
  match x with
  | .ok a => .isTrue ⟨a, rfl⟩
  | .error e => .isFalse (not_returns_error e)

end Binds

section Runs
variable {S C : Type} (step : S → C → Checked S)

/-- All calls of a list, made one after the other. -/
def run : S → List C → Checked S
  | s, [] => .ok s
  | s, c :: cs => step s c >>= fun next => run next cs

@[simp] theorem run_nil (s : S) : run step s [] = .ok s := rfl

theorem run_append (s : S) (cs ds : List C) :
    run step s (cs ++ ds) = run step s cs >>= fun mid => run step mid ds := by
  induction cs generalizing s with
  | nil => rfl
  | cons c cs ih =>
    cases h : step s c with
    | error e => simp [run, h]
    | ok next => simp [run, h, ih]

theorem run_snoc {s s' : S} {cs : List C} {c : C} :
    run step s (cs ++ [c]) = .ok s' ↔ ∃ mid, run step s cs = .ok mid ∧ step mid c = .ok s' := by
  rw [run_append, bind_eq_ok]
  simp [run, bind_eq_ok]

/-- The rule for a property of a whole run: it holds before the first call, and
each call carries it from the calls made before to the calls made after. -/
theorem run_induction {init : S} {motive : List C → S → Prop} (start : motive [] init)
    (next : ∀ cs c mid s', run step init cs = .ok mid → motive cs mid →
      step mid c = .ok s' → motive (cs ++ [c]) s')
    {cs : List C} {s : S} (h : run step init cs = .ok s) : motive cs s := by
  induction cs using List.reverseRecOn generalizing s with
  | nil =>
    cases h
    exact start
  | append_singleton cs c ih =>
    obtain ⟨mid, hmid, hc⟩ := (run_snoc step).mp h
    exact next cs c mid s hmid (ih hmid) hc

/-- What each call of a kind keeps a run of such calls keeps. -/
theorem run_keeps {motive : S → Prop} {p : C → Prop}
    (one : ∀ s c next, p c → motive s → step s c = .ok next → motive next) {s s' : S} {cs : List C}
    (hall : ∀ c ∈ cs, p c) (hs : motive s) (h : run step s cs = .ok s') : motive s' := by
  induction cs generalizing s with
  | nil =>
    cases h
    exact hs
  | cons c cs ih =>
    obtain ⟨next, hnext, h⟩ := bind_eq_ok.mp h
    have hkept := one s c next (hall c List.mem_cons_self) hs hnext
    exact ih (fun d hd => hall d (List.mem_cons_of_mem _ hd)) hkept h

/-- What each call of a list leaves alone a run of them leaves alone. -/
theorem run_frame {O : Type} {f : S → O} {p : C → Prop}
    (one : ∀ s c next, p c → step s c = .ok next → f next = f s) {s s' : S} {cs : List C}
    (hall : ∀ c ∈ cs, p c) (h : run step s cs = .ok s') : f s' = f s :=
  run_keeps step (motive := fun t => f t = f s)
    (fun t c next hc ht hnext => (one t c next hc hnext).trans ht) hall rfl h

/-- What each call makes of an old value a run makes of it call by call. -/
theorem run_foldl {O : Type} {f : S → O} {g : O → C → O}
    (one : ∀ s c next, step s c = .ok next → f next = g (f s) c) {s s' : S} {cs : List C}
    (h : run step s cs = .ok s') : f s' = cs.foldl g (f s) := by
  induction cs generalizing s with
  | nil =>
    cases h
    rfl
  | cons c cs ih =>
    obtain ⟨next, hnext, h⟩ := bind_eq_ok.mp h
    rw [List.foldl_cons, ← one s c next hnext]
    exact ih h

/-- Calls that may be exchanged wherever an invariant holds may be made in any order. -/
theorem run_perm {inv : S → Prop} (keeps : ∀ s c s', inv s → step s c = .ok s' → inv s')
    (exchange : ∀ s c d s', inv s → run step s [c, d] = .ok s' → run step s [d, c] = .ok s') {cs ds : List C}
    (hperm : cs.Perm ds) {s s' : S} (hs : inv s) (h : run step s cs = .ok s') : run step s ds = .ok s' := by
  induction hperm generalizing s with
  | nil => exact h
  | cons c _ ih =>
    obtain ⟨next, hnext, h⟩ := bind_eq_ok.mp h
    rw [run, hnext]
    exact ih (keeps s c next hs hnext) h
  | swap c d cs =>
    rw [show d :: c :: cs = [d, c] ++ cs from rfl, run_append] at h
    obtain ⟨mid, hmid, h⟩ := bind_eq_ok.mp h
    rw [show c :: d :: cs = [c, d] ++ cs from rfl, run_append, exchange s d c mid hs hmid]
    exact h
  | trans _ _ ih1 ih2 => exact ih2 hs (ih1 hs h)

section Observed
variable {O : Type} (f : S → C → List O)

/-- What is observed at the calls of a run, each at the state that it is made in. -/
def observed : S → List C → List O
  | _, [] => []
  | s, c :: cs => f s c ++ match step s c with
    | .ok next => observed next cs
    | .error _ => []

theorem observed_snoc {s mid : S} {cs : List C} (hmid : run step s cs = .ok mid) (c : C) :
    observed step f s (cs ++ [c]) = observed step f s cs ++ f mid c := by
  induction cs generalizing s with
  | nil =>
    cases hmid
    rw [List.nil_append, observed, observed, List.nil_append]
    cases step mid c <;> exact List.append_nil _
  | cons b cs ih =>
    obtain ⟨next, hnext, hrest⟩ := bind_eq_ok.mp hmid
    rw [List.cons_append, observed, observed, hnext]
    simp only [ih hrest, List.append_assoc]

theorem observed_append {s mid : S} {cs : List C} (hmid : run step s cs = .ok mid) (ds : List C) :
    observed step f s (cs ++ ds) = observed step f s cs ++ observed step f mid ds := by
  induction cs generalizing s with
  | nil =>
    cases hmid
    rfl
  | cons b cs ih =>
    obtain ⟨next, hnext, hrest⟩ := bind_eq_ok.mp hmid
    rw [List.cons_append, observed, observed, hnext]
    simp only [ih hrest, List.append_assoc]

/-- Of one call or none, what is observed at it. -/
theorem observed_of_length_le_one {s : S} {cs : List C} (h : cs.length ≤ 1) :
    observed step f s cs = cs.flatMap (f s) := by
  match cs, h with
  | [], _ => rfl
  | [c], _ =>
    have hone : observed step f s ([] ++ [c]) = f s c := observed_snoc step f (by rfl) c
    rw [List.flatMap_singleton]
    exact hone

/-- What is observed in a run is observed at one of its calls. -/
theorem mem_observed {s s' : S} {cs : List C} (h : run step s cs = .ok s') {o : O} (ho : o ∈ observed step f s cs) :
    ∃ before c after mid next, cs = before ++ c :: after ∧ run step s before = .ok mid ∧ step mid c = .ok next ∧
      run step next after = .ok s' ∧ o ∈ f mid c := by
  induction cs generalizing s with
  | nil => cases ho
  | cons c cs ih =>
    obtain ⟨next, hnext, hrest⟩ := bind_eq_ok.mp h
    rw [observed, hnext] at ho
    rcases List.mem_append.mp ho with hfirst | hlater
    · exact ⟨[], c, cs, s, next, rfl, rfl, hnext, hrest, hfirst⟩
    · obtain ⟨before, d, after, mid, last, rfl, hmid, hlast, hafter, hd⟩ := ih hrest hlater
      exact ⟨c :: before, d, after, mid, last, rfl, bind_eq_ok.mpr ⟨next, hnext, hmid⟩, hlast, hafter, hd⟩

end Observed

section Traced
variable {G : Type} (f : G → S → C → G)

/-- A step that carries a history variable along, which the step itself does not read. -/
def traced (sg : S × G) (c : C) : Checked (S × G) := (step sg.1 c).map fun next => (next, f sg.2 sg.1 c)

theorem traced_eq_ok {s s' : S} {g g' : G} {c : C} :
    traced step f (s, g) c = .ok (s', g') ↔ step s c = .ok s' ∧ g' = f g s c := by
  rw [traced, map_eq_ok]
  constructor
  · rintro ⟨next, hnext, he⟩
    cases he
    exact ⟨hnext, rfl⟩
  · rintro ⟨hnext, rfl⟩
    exact ⟨s', hnext, rfl⟩

/-- The history variable can be forgotten, and every run has one. -/
theorem run_traced {s s' : S} {g : G} {cs : List C} :
    (∃ g', run (traced step f) (s, g) cs = .ok (s', g')) ↔ run step s cs = .ok s' := by
  induction cs generalizing s g with
  | nil => simp
  | cons c cs ih =>
    simp only [run, bind_eq_ok]
    constructor
    · rintro ⟨g', ⟨next, mid⟩, hnext, hrun⟩
      exact ⟨next, ((traced_eq_ok step f).mp hnext).1, ih.mp ⟨g', hrun⟩⟩
    · rintro ⟨next, hnext, hrun⟩
      obtain ⟨g', hg'⟩ := (ih (g := f g s c)).mpr hrun
      exact ⟨g', (next, f g s c), (traced_eq_ok step f).mpr ⟨hnext, rfl⟩, hg'⟩

end Traced

/-- An entry of a list with one more at its end is that one or an entry of the list. -/
theorem snoc_eq_append_cons {A : Type} {cs before after : List A} {c d : A}
    (h : cs ++ [c] = before ++ d :: after) :
    (after = [] ∧ before = cs ∧ d = c) ∨ ∃ rest, after = rest ++ [c] ∧ cs = before ++ d :: rest := by
  rcases List.eq_nil_or_concat after with rfl | ⟨rest, e, rfl⟩
  · obtain ⟨rfl, hd⟩ := List.append_inj' h rfl
    cases hd
    exact .inl ⟨rfl, rfl, rfl⟩
  · rw [List.concat_eq_append] at h ⊢
    have hd : cs ++ [c] = (before ++ d :: rest) ++ [e] := by simpa using h
    obtain ⟨hcs, he⟩ := List.append_inj' hd rfl
    cases he
    exact .inr ⟨rest, rfl, hcs⟩

/-- p holds of every call of the run, at the state the call is made in. -/
def Along (p : S → C → Prop) (init : S) (cs : List C) : Prop :=
  ∀ before c after, cs = before ++ c :: after → ∀ s, run step init before = .ok s → p s c

variable {step}

theorem Along.init {p : S → C → Prop} {s : S} {cs ds : List C}
    (h : Along step p s (cs ++ ds)) : Along step p s cs := by
  intro before c after he mid hmid
  exact h before c (after ++ ds) (by simp [he]) mid hmid

theorem Along.rest {p : S → C → Prop} {s mid : S} {cs ds : List C}
    (h : Along step p s (cs ++ ds)) (hmid : run step s cs = .ok mid) : Along step p mid ds := by
  intro before c after he last hlast
  refine h (cs ++ before) c after (by simp [he]) last ?_
  rw [run_append, hmid]
  exact hlast

theorem Along.last {p : S → C → Prop} {s mid : S} {cs : List C} {c : C}
    (h : Along step p s (cs ++ [c])) (hmid : run step s cs = .ok mid) : p mid c :=
  h cs c [] rfl mid hmid

theorem Along.snoc {p : S → C → Prop} {s : S} {cs : List C} {c : C}
    (h : Along step p s cs) (hc : ∀ mid, run step s cs = .ok mid → p mid c) :
    Along step p s (cs ++ [c]) := by
  intro before d after he mid hmid
  rcases snoc_eq_append_cons he with ⟨rfl, rfl, rfl⟩ | ⟨rest, rfl, hcs⟩
  · exact hc mid hmid
  · exact h before d rest hcs mid hmid

theorem along_nil (p : S → C → Prop) (s : S) : Along step p s [] := by
  intro before c after he
  exact absurd he.symm (by simp)

theorem along_cons {p : S → C → Prop} {s : S} {c : C} {cs : List C} :
    Along step p s (c :: cs) ↔ p s c ∧ ∀ next, step s c = .ok next → Along step p next cs := by
  constructor
  · intro h
    refine ⟨h [] c cs rfl s rfl, fun next hnext before d after he mid hmid => ?_⟩
    exact h (c :: before) d after (by rw [he]; rfl) mid (bind_eq_ok.mpr ⟨next, hnext, hmid⟩)
  · rintro ⟨hc, hcs⟩ before d after he mid hmid
    cases before with
    | nil =>
      cases he
      cases hmid
      exact hc
    | cons b before =>
      cases he
      obtain ⟨next, hnext, hrest⟩ := bind_eq_ok.mp hmid
      exact hcs next hnext before d after rfl mid hrest

/-- A step that is only taken where a property of the call holds. -/
def guarded (step : S → C → Checked S) (p : S → C → Prop) [∀ s c, Decidable (p s c)] (s : S) (c : C) : Checked S := do
  check (p s c)
  step s c

/-- A run that is guarded throughout is a run in which the property holds of every call. -/
theorem run_guarded {p : S → C → Prop} [∀ s c, Decidable (p s c)] {s s' : S} {cs : List C} :
    run (guarded step p) s cs = .ok s' ↔ run step s cs = .ok s' ∧ Along step p s cs := by
  induction cs generalizing s with
  | nil => simp [run, along_nil]
  | cons c cs ih =>
    rw [along_cons, run, run, bind_eq_ok, bind_eq_ok]
    constructor
    · rintro ⟨next, hnext, hrest⟩
      obtain ⟨hp, hnext⟩ := check_bind_eq_ok.mp hnext
      obtain ⟨hrun, halong⟩ := ih.mp hrest
      refine ⟨⟨next, hnext, hrun⟩, hp, fun other hother => ?_⟩
      cases hnext.symm.trans hother
      exact halong
    · rintro ⟨⟨next, hnext, hrun⟩, hp, halong⟩
      exact ⟨next, check_bind_eq_ok.mpr ⟨hp, hnext⟩, ih.mpr ⟨hrun, halong next hnext⟩⟩

/-- Properties that agree on every call that returns agree along a run that returns. -/
theorem along_congr {p q : S → C → Prop} {s s' : S} {cs : List C} (hrun : run step s cs = .ok s')
    (h : ∀ s c next, step s c = .ok next → (p s c ↔ q s c)) : Along step p s cs ↔ Along step q s cs := by
  induction cs generalizing s with
  | nil => simp [along_nil]
  | cons c cs ih =>
    obtain ⟨next, hnext, hrest⟩ := bind_eq_ok.mp hrun
    rw [along_cons, along_cons, h s c next hnext]
    refine and_congr_right fun _ => forall_congr' fun other => imp_congr_right fun hother => ?_
    cases hnext.symm.trans hother
    exact ih hrest

/-- What holds after a run, and of every state before one of which it holds, holds throughout. -/
theorem of_run {q : S → Prop} (back : ∀ s c next, step s c = .ok next → q next → q s) {s s' : S} {cs : List C}
    (h : run step s cs = .ok s') (hs : q s') : q s := by
  induction cs generalizing s with
  | nil =>
    cases h
    exact hs
  | cons c cs ih =>
    obtain ⟨next, hnext, hrest⟩ := bind_eq_ok.mp h
    exact back s c next hnext (ih hrest)

/-- The rule for a simulation. Where an invariant holds, what is observed at a step that is allowed
takes the abstraction of the state to that of the next one; then what is observed in a run does. -/
theorem run_simulates {T O : Type} {abstractStep : T → O → Checked T} {abstraction : S → T} {f : S → C → List O}
    {p : S → C → Prop} {q inv : S → Prop} (back : ∀ s c next, step s c = .ok next → q next → q s)
    (one : ∀ s c next, p s c → inv s → q next → step s c = .ok next →
      inv next ∧ run abstractStep (abstraction s) (f s c) = .ok (abstraction next))
    {s s' : S} {cs : List C} (hs : inv s) (halong : Along step p s cs) (hlast : q s') (h : run step s cs = .ok s') :
    inv s' ∧ run abstractStep (abstraction s) (observed step f s cs) = .ok (abstraction s') := by
  induction cs generalizing s with
  | nil =>
    cases h
    exact ⟨hs, rfl⟩
  | cons c cs ih =>
    obtain ⟨next, hnext, hrest⟩ := bind_eq_ok.mp h
    obtain ⟨hp, halong⟩ := along_cons.mp halong
    obtain ⟨hinv, hstep⟩ := one s c next hp hs (of_run back hrest hlast) hnext
    obtain ⟨hinv', hrun⟩ := ih hinv (halong next hnext) hrest
    refine ⟨hinv', ?_⟩
    rw [observed, hnext, run_append, hstep, ok_bind]
    exact hrun

/-- Whether a property holds of every call can be found out by making the calls. -/
instance decidableAlong (p : S → C → Prop) [∀ s c, Decidable (p s c)] :
    (s : S) → (cs : List C) → Decidable (Along step p s cs)
  | s, [] => .isTrue (along_nil p s)
  | s, c :: cs =>
    match h : step s c with
    | .error e => decidable_of_iff (p s c) (by simp [along_cons, h])
    | .ok next =>
      have := decidableAlong p next cs
      decidable_of_iff (p s c ∧ Along step p next cs) (by simp [along_cons, h])

/-- A run returns exactly when each of its calls is safe, provided that safety
decides one call in every state that the run's own calls reach. -/
theorem run_returns_iff {p : S → C → Prop} {init : S} {cs : List C}
    (one : ∀ before c after, cs = before ++ c :: after → ∀ s, run step init before = .ok s →
      (Returns (step s c) ↔ p s c)) :
    Returns (run step init cs) ↔ Along step p init cs := by
  induction cs using List.reverseRecOn with
  | nil => simp [Along]
  | append_singleton cs c ih =>
    have ih := ih fun before d after he => one before d (after ++ [c]) (by simp [he])
    rw [run_append, returns_bind]
    constructor
    · rintro ⟨mid, hmid, hc⟩
      refine (ih.mp ⟨mid, hmid⟩).snoc fun other ho => ?_
      cases hmid.symm.trans ho
      refine (one cs c [] rfl mid hmid).mp ?_
      obtain ⟨s', hs⟩ := hc
      exact ⟨s', by simpa [run, bind_eq_ok] using hs⟩
    · intro h
      obtain ⟨mid, hmid⟩ := ih.mpr h.init
      obtain ⟨s', hs⟩ := (one cs c [] rfl mid hmid).mpr (h.last hmid)
      exact ⟨mid, hmid, s', by simp [run, hs]⟩

end Runs

end Ns3Rmcat.Lib
