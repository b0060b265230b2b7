import Mathlib

/-! Queues from whose front old entries are removed: removing them step by step, and when
what remains is exactly the entries that are not stale. -/
namespace Ns3Rmcat.Lib

variable {P : Type}

/-- Entries that are removed early are removed later, too. -/
theorem dropWhile_dropWhile_append {old older : P → Bool} (h : ∀ x, older x = true → old x = true)
    (entries more : List P) :
    (entries.dropWhile older ++ more).dropWhile old = (entries ++ more).dropWhile old := by
  induction entries with
  | nil => rfl
  | cons x entries ih =>
    by_cases hx : older x = true
    · rw [List.dropWhile_cons_of_pos hx, ih, List.cons_append, List.dropWhile_cons_of_pos (h x hx)]
    · rw [List.dropWhile_cons_of_neg hx]

/-- The entries that remain after the old ones have been removed from the front are those
that are not stale, exactly when every stale entry is old and all stale ones come first. -/
theorem dropWhile_eq_filter_iff {old stale : P → Bool} {entries : List P}
    (h : ∀ x ∈ entries, old x = true → stale x = true) :
    entries.dropWhile old = entries.filter (fun x => !stale x) ↔
      (∀ x ∈ entries, stale x = true → old x = true) ∧
        entries.Pairwise fun x y => stale y = true → stale x = true := by
  induction entries with
  | nil => simp
  | cons x entries ih =>
    have hx := h x List.mem_cons_self
    have ih := ih fun y hy => h y (List.mem_cons_of_mem x hy)
    rw [List.pairwise_cons]
    by_cases hold : old x = true
    · rw [List.dropWhile_cons_of_pos hold, List.filter_cons_of_neg (by simp [hx hold]), ih]
      simp [hold, hx hold]
    · rw [List.dropWhile_cons_of_neg hold, eq_comm, List.filter_eq_self]
      constructor
      · intro hfresh
        have hnone : ∀ y ∈ x :: entries, ¬ stale y = true := fun y hy => by simpa using hfresh y hy
        refine ⟨fun y hy hs => absurd hs (hnone y hy), fun y hy hs => ?_, ?_⟩
        · exact absurd hs (hnone y (List.mem_cons_of_mem x hy))
        · exact List.pairwise_of_forall_mem_list fun a ha b hb hs => absurd hs (hnone b (List.mem_cons_of_mem x hb))
      · rintro ⟨hall, hfirst, -⟩ y hy
        have hfresh : ¬ stale x = true := fun hs => hold (hall x List.mem_cons_self hs)
        rcases List.mem_cons.mp hy with rfl | hy
        · simpa using hfresh
        · simpa using fun hs => hfresh (hfirst y hy hs)

/-- What remains is all that is not stale when there are as many of both. -/
theorem dropWhile_eq_filter_of_length {old stale : P → Bool} {entries : List P}
    (h : ∀ x ∈ entries, old x = true → stale x = true)
    (hlen : (entries.dropWhile old).length = (entries.filter fun x => !stale x).length) :
    entries.dropWhile old = entries.filter fun x => !stale x := by
  have hsub : (entries.filter fun x => !stale x).Sublist (entries.dropWhile old) := by
    clear hlen
    induction entries with
    | nil => exact List.Sublist.refl []
    | cons x entries ih =>
      by_cases hold : old x = true
      · rw [List.dropWhile_cons_of_pos hold, List.filter_cons_of_neg (by simp [h x List.mem_cons_self hold])]
        exact ih fun y hy => h y (List.mem_cons_of_mem x hy)
      · rw [List.dropWhile_cons_of_neg hold]
        exact List.filter_sublist
  exact (hsub.eq_of_length hlen.symm).symm

end Ns3Rmcat.Lib
