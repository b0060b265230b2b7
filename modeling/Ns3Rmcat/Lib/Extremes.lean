import Mathlib

/-! Loops over a list that keep the best entry so far, or its value. -/
namespace Ns3Rmcat.Lib

variable {A B C : Type} [LinearOrder B]

/-- A loop that keeps what it notes about an entry until a larger one comes ends with the first
one of the largest entries, unless none is larger than what it began with. -/
theorem foldl_argmax (key : A → B) (note : A → C) (value : C → B) (hnote : ∀ x, value (note x) = key x) (start : C)
    (xs : List A) :
    xs.foldl (fun best x => if value best < key x then note x else best) start =
      match xs.argmax key with
      | none => start
      | some largest => if value start < key largest then note largest else start := by
  induction xs using List.reverseRecOn with
  | nil => rfl
  | append_singleton xs x ih =>
    rw [List.foldl_append, ih, List.argmax_concat, List.foldl_cons, List.foldl_nil]
    cases xs.argmax key with
    | none => rfl
    | some largest =>
      by_cases hstart : value start < key largest
      · by_cases hlargest : key largest < key x
        · have hx := hstart.trans hlargest
          simp only [hstart, hnote, hlargest, hx, if_true]
        · simp only [hstart, hnote, hlargest, if_true, if_false]
      · by_cases hlargest : key largest < key x
        · simp only [hstart, hlargest, if_true, if_false]
        · have hx := not_lt.mpr ((not_lt.mp hlargest).trans (not_lt.mp hstart))
          simp only [hstart, hlargest, hx, if_false]

/-- A loop that keeps the smallest value ends with the least of all values and its start. -/
theorem foldl_isLeast (key : A → B) (start : B) (xs : List A) :
    IsLeast (insert start {b | ∃ x ∈ xs, key x = b})
      (xs.foldl (fun least x => if key x < least then key x else least) start) := by
  induction xs using List.reverseRecOn with
  | nil => simp
  | append_singleton xs x ih =>
    rw [List.foldl_append, List.foldl_cons, List.foldl_nil]
    obtain ⟨hmem, hleast⟩ := ih
    generalize xs.foldl (fun least x => if key x < least then key x else least) start = least at hmem hleast
    have hsub : insert start {b | ∃ x ∈ xs, key x = b} ⊆ insert start {b | ∃ y ∈ xs ++ [x], key y = b} := by
      rintro b (rfl | ⟨y, hy, rfl⟩)
      · exact .inl rfl
      · exact .inr ⟨y, List.mem_append_left _ hy, rfl⟩
    have hcases : ∀ b ∈ insert start {b | ∃ y ∈ xs ++ [x], key y = b}, least ≤ b ∨ b = key x := by
      rintro b (rfl | ⟨y, hy, rfl⟩)
      · exact .inl (hleast (.inl rfl))
      · rcases List.mem_append.mp hy with hy | hy
        · exact .inl (hleast (.inr ⟨y, hy, rfl⟩))
        · rw [List.mem_singleton.mp hy]
          exact .inr rfl
    split
    · rename_i hlt
      refine ⟨.inr ⟨x, by simp, rfl⟩, fun b hb => ?_⟩
      rcases hcases b hb with hle | rfl
      · exact hlt.le.trans hle
      · exact le_rfl
    · rename_i hge
      refine ⟨hsub hmem, fun b hb => ?_⟩
      rcases hcases b hb with hle | rfl
      · exact hle
      · exact not_lt.mp hge

end Ns3Rmcat.Lib
