import Mathlib

/-! Amounts that are booked on accounts, and sums of machine words that do not wrap. -/
namespace Ns3Rmcat.Lib

section Ledger
variable {E A : Type} [DecidableEq A] (account : E → A) (amount : E → ℕ)

def booked (entries : List E) : ℕ := (entries.map amount).sum

def bookedOn (entries : List E) (a : A) : ℕ := booked amount (entries.filter fun e => account e = a)

@[simp] theorem booked_nil : booked amount [] = 0 := rfl

@[simp] theorem bookedOn_nil (a : A) : bookedOn account amount [] a = 0 := rfl

theorem booked_cons (e : E) (entries : List E) : booked amount (e :: entries) = amount e + booked amount entries :=
  List.sum_cons

theorem booked_append (entries others : List E) :
    booked amount (entries ++ others) = booked amount entries + booked amount others := by
  simp [booked]

theorem bookedOn_cons (e : E) (entries : List E) (a : A) :
    bookedOn account amount (e :: entries) a =
      (if account e = a then amount e else 0) + bookedOn account amount entries a := by
  unfold bookedOn
  by_cases h : account e = a
  · simp [h, booked_cons]
  · simp [h]

theorem bookedOn_snoc (entries : List E) (e : E) (a : A) :
    bookedOn account amount (entries ++ [e]) a =
      bookedOn account amount entries a + if account e = a then amount e else 0 := by
  unfold bookedOn
  rw [List.filter_append, booked_append]
  by_cases h : account e = a
  · simp [h, booked_cons]
  · simp [h]

theorem booked_le {bound : ℕ} {entries : List E} (h : ∀ e ∈ entries, amount e ≤ bound) :
    booked amount entries ≤ entries.length * bound := by
  induction entries with
  | nil => simp
  | cons e entries ih =>
    have hfirst := h e (by simp)
    have hrest := ih fun e' he' => h e' (List.mem_cons_of_mem _ he')
    rw [booked_cons, List.length_cons, Nat.add_mul, Nat.one_mul]
    omega

/-- An entry is booked on one account at most, so that several hold no more than everything. -/
theorem sum_bookedOn_le {accounts : List A} (h : accounts.Nodup) (entries : List E) :
    (accounts.map (bookedOn account amount entries)).sum ≤ booked amount entries := by
  induction entries with
  | nil =>
    apply le_of_eq
    apply List.sum_eq_zero
    intro n hn
    obtain ⟨a, -, rfl⟩ := List.mem_map.mp hn
    rfl
  | cons e entries ih =>
    have hone : (accounts.map fun a => if account e = a then amount e else 0).sum ≤ amount e := by
      rw [← List.sum_toFinset _ h, Finset.sum_ite_eq]
      split <;> omega
    have hsplit : accounts.map (bookedOn account amount (e :: entries)) = accounts.map fun a =>
        (if account e = a then amount e else 0) + bookedOn account amount entries a := by
      apply List.map_congr_left
      intro a _
      exact bookedOn_cons account amount e entries a
    rw [hsplit, List.sum_map_add, booked_cons]
    exact Nat.add_le_add hone ih

theorem bookedOn_le (entries : List E) (a : A) : bookedOn account amount entries a ≤ booked amount entries := by
  simpa using sum_bookedOn_le account amount (List.nodup_singleton a) entries

/-- More accounts hold at least as much. -/
theorem sum_map_le_of_subset {accounts others : List A} (h : accounts.Nodup) (h' : others.Nodup)
    (hsubset : ∀ a ∈ accounts, a ∈ others) (f : A → ℕ) : (accounts.map f).sum ≤ (others.map f).sum := by
  rw [← List.sum_toFinset _ h, ← List.sum_toFinset _ h']
  apply Finset.sum_le_sum_of_subset
  intro a ha
  exact List.mem_toFinset.mpr (hsubset a (List.mem_toFinset.mp ha))

omit [DecidableEq A] in
/-- Entries under distinct accounts, each account with distinct ones of its own. -/
theorem nodup_flatMap_map {B : Type} {accounts : List A} (h : accounts.Nodup) {entries : A → List B}
    (hentries : ∀ a ∈ accounts, (entries a).Nodup) :
    (accounts.flatMap fun a => (entries a).map fun b => (a, b)).Nodup := by
  rw [List.nodup_flatMap]
  refine ⟨fun a ha => (hentries a ha).map fun b b' hb => (Prod.mk.inj hb).2, h.imp fun hne => ?_⟩
  intro e he he'
  obtain ⟨b, -, rfl⟩ := List.mem_map.mp he
  obtain ⟨b', -, hb'⟩ := List.mem_map.mp he'
  exact hne (Prod.mk.inj hb').1.symm

end Ledger

/-- The words of a list added to a start, which is a sum of numbers while that is a word. -/
theorem foldl_add_toNat {E : Type} (f : E → UInt64) (entries : List E) (start : UInt64)
    (h : start.toNat + (entries.map fun e => (f e).toNat).sum < 2 ^ 64) :
    (entries.foldl (fun tot e => tot + f e) start).toNat = start.toNat + (entries.map fun e => (f e).toNat).sum := by
  induction entries generalizing start with
  | nil => simp
  | cons e entries ih =>
    rw [List.map_cons, List.sum_cons] at h ⊢
    have hadd : (start + f e).toNat = start.toNat + (f e).toNat := by
      rw [UInt64.toNat_add]
      omega
    rw [List.foldl_cons, ih (start + f e) (by omega), hadd]
    omega

end Ns3Rmcat.Lib
