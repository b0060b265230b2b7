import Mathlib.Data.List.SplitBy

/-! Lengths of the maximal runs of a list, in which each element is related to the one
before it. The newest run is the last of the list, and comes first here. -/
namespace Ns3Rmcat.Lib

variable {α : Type} (r : α → α → Bool)

/-- Lengths of the maximal runs, newest first. -/
def runLengths (l : List α) : List Nat := ((l.splitBy r).map List.length).reverse

@[simp] theorem runLengths_nil : runLengths r [] = [] := rfl

@[simp] theorem runLengths_singleton (x : α) : runLengths r [x] = [1] := rfl

variable {r}

theorem runLengths_eq_nil {l : List α} : runLengths r l = [] ↔ l = [] := by
  simp [runLengths]

/-- An element that is not related to the last one begins a run. -/
theorem runLengths_snoc_of_not {l : List α} {x : α} (h : ∀ last ∈ l.getLast?, r last x = false) :
    runLengths r (l ++ [x]) = 1 :: runLengths r l := by
  rw [runLengths, List.splitBy_append_cons [] h]
  simp [runLengths, List.splitBy, List.splitBy.loop]

theorem splitBy_snoc {l : List α} {x last : α} (hlast : last ∈ l.getLast?) (h : r last x = true) :
    ∃ older newest, l.splitBy r = older ++ [newest] ∧ (l ++ [x]).splitBy r = older ++ [newest ++ [x]] := by
  have hne : l ≠ [] := List.ne_nil_of_mem (List.mem_of_getLast? hlast)
  rcases List.eq_nil_or_concat (l.splitBy r) with hnil | ⟨older, newest, hsplit⟩
  · exact absurd (List.splitBy_eq_nil.mp hnil) hne
  rw [List.concat_eq_append] at hsplit
  refine ⟨older, newest, hsplit, ?_⟩
  obtain ⟨hflatten, hnil, hchain, hbreaks⟩ := List.splitBy_eq_iff.mp hsplit
  have hnewest : newest ≠ [] := by
    rintro rfl
    exact hnil (by simp)
  refine List.splitBy_eq_iff.mpr ⟨?_, ?_, ?_, ?_⟩
  · simp [hflatten]
  · intro hmem
    rcases List.mem_append.mp hmem with hold | hnew
    · exact hnil (List.mem_append_left _ hold)
    · simp at hnew
  · intro group hgroup
    rcases List.mem_append.mp hgroup with hold | hnew
    · exact hchain group (List.mem_append_left _ hold)
    · rw [List.mem_singleton.mp hnew, List.isChain_append]
      refine ⟨hchain newest (by simp), List.isChain_singleton x, fun a ha b hb => ?_⟩
      have hend : newest.getLast? = l.getLast? := by
        rw [hflatten, List.flatten_append]
        simp [List.getLast?_append, List.getLast?_eq_some_getLast hnewest]
      rw [hend, hlast] at ha
      cases ha
      cases hb
      exact h
  · rw [List.isChain_append] at hbreaks ⊢
    refine ⟨hbreaks.1, List.isChain_singleton _, fun a ha b hb => ?_⟩
    obtain ⟨hane, hbne, hr⟩ := hbreaks.2.2 a ha newest (by simp)
    cases hb
    refine ⟨hane, by simp, ?_⟩
    rw [List.head_append_of_ne_nil hnewest]
    exact hr

/-- An element that is related to the last one makes the newest run longer. -/
theorem runLengths_snoc_of {l : List α} {x last : α} (hlast : last ∈ l.getLast?) (h : r last x = true) :
    runLengths r (l ++ [x]) = (runLengths r l).modifyHead (· + 1) := by
  obtain ⟨older, newest, hsplit, hsnoc⟩ := splitBy_snoc hlast h
  rw [runLengths, runLengths, hsnoc, hsplit]
  simp

/-- A list without a break is one run. -/
theorem runLengths_of_isChain {l : List α} (hne : l ≠ []) (h : l.IsChain fun a b => r a b) :
    runLengths r l = [l.length] := by
  rw [runLengths, List.splitBy_of_isChain hne h]
  rfl

/-- A queue that keeps its n newest elements drops the oldest one when another comes. -/
theorem dropLast_take_cons (x : α) (l : List α) (n : Nat) :
    (if n < (x :: l.take n).length then (x :: l.take n).dropLast else x :: l.take n) = (x :: l).take n := by
  split
  · rename_i hfull
    rw [List.dropLast_eq_take]
    simp only [List.length_cons, List.length_take] at hfull ⊢
    have hn : n ≤ l.length := by omega
    rw [Nat.min_eq_left hn, Nat.add_sub_cancel]
    cases n with
    | zero => rfl
    | succ n => simp [List.take_take]
  · rename_i hfits
    simp only [List.length_cons, List.length_take] at hfits
    rw [List.take_of_length_le (l := l) (by omega), List.take_of_length_le (by simp only [List.length_cons]; omega)]

end Ns3Rmcat.Lib
