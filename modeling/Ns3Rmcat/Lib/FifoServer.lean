import Mathlib

/-! A server that takes jobs in the order in which they come, one after the other: each job is
served once it has arrived and the one before it has departed. -/
namespace Ns3Rmcat.Lib

section Server
variable {J : Type} (arrival service : J → Int)

/-- When a job departs, from when the one before it did. -/
def departure (before : Int) (j : J) : Int := max (arrival j) before + service j

/-- How long each job of a list stays, from when the job before the list departed. -/
def sojourns : Int → List J → List Int
  | _, [] => []
  | before, j :: js =>
    (departure arrival service before j - arrival j) :: sojourns (departure arrival service before j) js

/-- What holds of each job of a list and of when the job before it departed. -/
def AtEach (p : Int → J → Prop) : Int → List J → Prop
  | _, [] => True
  | before, j :: js => p before j ∧ AtEach p (departure arrival service before j) js

variable {arrival service} {fast : J → Int}

/-- No job departs before it has arrived. -/
theorem sojourns_nonneg (hservice : ∀ j, 0 ≤ service j) (before : Int) (js : List J) :
    ∀ t ∈ sojourns arrival service before js, 0 ≤ t := by
  induction js generalizing before with
  | nil => simp [sojourns]
  | cons j js ih =>
    have hj := hservice j
    have hfirst : 0 ≤ departure arrival service before j - arrival j := by rw [departure]; omega
    rw [sojourns]
    exact List.forall_mem_cons.mpr ⟨hfirst, ih _⟩

theorem departure_mono (hfast : ∀ j, fast j ≤ service j) {before before' : Int} (hle : before ≤ before') (j : J) :
    departure arrival fast before j ≤ departure arrival service before' j :=
  Int.add_le_add (max_le_max_left _ hle) (hfast j)

/-- With shorter services no job stays longer. -/
theorem sojourns_mono (hfast : ∀ j, fast j ≤ service j) {before before' : Int} (hle : before ≤ before')
    (js : List J) : List.Forall₂ (· ≤ ·) (sojourns arrival fast before js) (sojourns arrival service before' js) := by
  induction js generalizing before before' with
  | nil => exact .nil
  | cons j js ih =>
    have hnext := @departure_mono J arrival _ _ hfast _ _ hle j
    exact .cons (Int.sub_le_sub_right hnext _) (ih hnext)

/-- What allows earlier departures holds with shorter services, too. -/
theorem AtEach.mono {p : Int → J → Prop} (hp : ∀ before before' j, before ≤ before' → p before' j → p before j)
    (hfast : ∀ j, fast j ≤ service j) {before before' : Int} (hle : before ≤ before') {js : List J}
    (h : AtEach arrival service p before' js) : AtEach arrival fast p before js := by
  induction js generalizing before before' with
  | nil => trivial
  | cons j js ih => exact ⟨hp before before' j hle h.1, ih (departure_mono hfast hle j) h.2⟩

end Server

end Ns3Rmcat.Lib
