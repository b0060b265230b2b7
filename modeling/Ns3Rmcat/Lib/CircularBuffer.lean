import Mathlib

/-! A circular buffer with a cell for each of some consecutive times: the cell of the oldest time
is at the head, and a cell is found by wrapping around the end once. -/
namespace Ns3Rmcat.Lib

/-- A place that may be beyond the end, wrapped around it. -/
def wrapped (size i : ℕ) : ℕ := if size ≤ i then i - size else i

theorem wrapped_lt {size i : ℕ} (h : i < 2 * size) : wrapped size i < size := by
  rw [wrapped]
  split <;> omega

/-- Two places that are less than a round apart stay different. -/
theorem wrapped_ne {size i j : ℕ} (hlt : i < j) (hnear : j < i + size) :
    wrapped size i ≠ wrapped size j := by
  rw [wrapped, wrapped]
  split <;> split <;> omega

section Cells
variable {α : Type} {cells : List α} {head : ℕ} {oldest : ℤ} {f g : ℤ → α}

/-- The cells hold what f has at the times from the oldest one on. -/
structure Shows (cells : List α) (head : ℕ) (oldest : ℤ) (f : ℤ → α) : Prop where
  headLt : head < cells.length
  cell : ∀ k < cells.length, cells[wrapped cells.length (head + k)]? = some (f (oldest + k))

namespace Shows

/-- What f has at times that have no cell does not matter. -/
theorem congr (h : Shows cells head oldest f)
    (hsame : ∀ t, oldest ≤ t → t < oldest + cells.length → f t = g t) : Shows cells head oldest g := by
  refine ⟨h.headLt, fun k hk => ?_⟩
  rw [h.cell k hk, hsame _ (by omega) (by omega)]

/-- The cell at the head is that of the oldest time. -/
theorem cell_head (h : Shows cells head oldest f) : cells[head]? = some (f oldest) := by
  have hcell := h.cell 0 (by have := h.headLt; omega)
  rw [Nat.add_zero, wrapped, if_neg (Nat.not_le.mpr h.headLt)] at hcell
  simpa using hcell

/-- The cell of a time is changed. -/
theorem modify (h : Shows cells head oldest f) {k : ℕ} (hk : k < cells.length) (change : α → α) :
    Shows (cells.modify (wrapped cells.length (head + k)) change) head oldest
      fun t => if t = oldest + k then change (f t) else f t := by
  refine ⟨by simpa using h.headLt, fun i hi => ?_⟩
  rw [List.length_modify] at hi ⊢
  rw [List.getElem?_modify, h.cell i hi]
  by_cases hik : i = k
  · subst hik
    simp
  · have hne : wrapped cells.length (head + k) ≠ wrapped cells.length (head + i) := by
      rcases Nat.lt_or_gt_of_ne hik with hlt | hlt
      · exact (wrapped_ne (by omega) (by omega)).symm
      · exact wrapped_ne (by omega) (by omega)
    have htime : ¬ oldest + (i : ℤ) = oldest + k := by omega
    simp [hne, htime]

/-- The cell of the oldest time is emptied, and becomes that of the time after the newest one. -/
theorem advance (h : Shows cells head oldest f) (empty : α) :
    Shows (cells.set head empty) (wrapped cells.length (head + 1)) (oldest + 1)
      fun t => if t = oldest + cells.length then empty else f t := by
  have hhead := h.headLt
  refine ⟨?_, fun i hi => ?_⟩
  · rw [List.length_set]
    exact wrapped_lt (by omega)
  · rw [List.length_set] at hi ⊢
    by_cases hlast : i + 1 = cells.length
    · have hplace : wrapped cells.length (wrapped cells.length (head + 1) + i) = head := by
        simp only [wrapped]
        split <;> split <;> omega
      have htime : oldest + 1 + (i : ℤ) = oldest + cells.length := by omega
      rw [hplace, List.getElem?_set_self hhead, if_pos htime]
    · have hplace : wrapped cells.length (wrapped cells.length (head + 1) + i) =
          wrapped cells.length (head + (i + 1)) := by
        simp only [wrapped]
        split <;> split <;> split <;> omega
      have hne : head ≠ wrapped cells.length (head + (i + 1)) := by
        rw [wrapped]
        split <;> omega
      have htime : ¬ oldest + 1 + (i : ℤ) = oldest + cells.length := by omega
      rw [hplace, List.getElem?_set_ne hne, h.cell (i + 1) (by omega), if_neg htime]
      congr 2
      omega

/-- With the same value in all cells the head may be anywhere. -/
theorem const {empty : α} (hcells : ∀ cell ∈ cells, cell = empty) (hhead : head < cells.length) (oldest : ℤ) :
    Shows cells head oldest fun _ => empty := by
  refine ⟨hhead, fun k hk => ?_⟩
  have hlt : wrapped cells.length (head + k) < cells.length := wrapped_lt (by omega)
  rw [List.getElem?_eq_getElem hlt, hcells _ (List.getElem_mem hlt)]

/-- Every cell is that of some time. -/
theorem mem (h : Shows cells head oldest f) {cell : α} (hcell : cell ∈ cells) :
    ∃ k < cells.length, cell = f (oldest + k) := by
  obtain ⟨i, hi, rfl⟩ := List.getElem_of_mem hcell
  have hhead := h.headLt
  refine ⟨wrapped cells.length (i + (cells.length - head)), wrapped_lt (by omega), ?_⟩
  have hplace : wrapped cells.length (head + wrapped cells.length (i + (cells.length - head))) = i := by
    simp only [wrapped]
    split <;> split <;> omega
  have hsome := h.cell (wrapped cells.length (i + (cells.length - head))) (wrapped_lt (by omega))
  rw [hplace, List.getElem?_eq_getElem hi] at hsome
  exact Option.some.inj hsome

end Shows

end Cells

end Ns3Rmcat.Lib
