import Mathlib

/-! Unsigned words read as serial numbers: the comparison that supports
wrapping, and the runs of consecutive numbers that may wrap past the last one. -/
namespace Ns3Rmcat.Lib

/-- A "less than" for unsigned words that supports wrapping: rhs comes after lhs
when the way up from lhs to rhs is shorter than the way down. -/
def lessThan {α : Type} [Sub α] [LT α] [DecidableLT α] (lhs rhs : α) : Bool :=
  decide (rhs - lhs < lhs - rhs)

theorem toNat_max (a b : UInt64) : (max a b).toNat = max a.toNat b.toNat := by
  have hmax : max a b = if a ≤ b then b else a := rfl
  rw [hmax]
  split <;> rename_i h <;> rw [UInt64.le_iff_toNat_le] at h <;> omega

/-- How far b lies after a, going up and wrapping at the end. -/
def ahead (a b : UInt16) : Nat := (b - a).toNat

theorem ahead_lt (a b : UInt16) : ahead a b < 65536 := (b - a).toNat_lt

theorem ahead_eq (a b : UInt16) : ahead a b = (b.toNat + 65536 - a.toNat) % 65536 := by
  have ha := a.toNat_lt
  simp only [ahead, UInt16.toNat_sub]
  omega

@[simp] theorem ahead_self (a : UInt16) : ahead a a = 0 := by simp [ahead]

theorem ahead_eq_zero_iff {a b : UInt16} : ahead a b = 0 ↔ a = b := by
  have ha := a.toNat_lt
  have hb := b.toNat_lt
  rw [ahead_eq, ← UInt16.toNat_inj]
  omega

/-- Seen from the next number, all numbers but the first are one nearer. -/
theorem ahead_succ {a b : UInt16} (h : a ≠ b) : ahead a b = ahead (a + 1) b + 1 := by
  have ha := a.toNat_lt
  have hb := b.toNat_lt
  have hne : a.toNat ≠ b.toNat := fun he => h (UInt16.toNat_inj.mp he)
  have hone : (a + 1).toNat = (a.toNat + 1) % 65536 := by
    rw [UInt16.toNat_add]
    rfl
  rw [ahead_eq, ahead_eq, hone]
  omega

theorem ahead_inj {a b c : UInt16} : ahead a b = ahead a c ↔ b = c := by
  have ha := a.toNat_lt
  have hb := b.toNat_lt
  have hc := c.toNat_lt
  rw [ahead_eq, ahead_eq, ← UInt16.toNat_inj]
  omega

theorem ahead_left_inj {a b c : UInt16} : ahead a c = ahead b c ↔ a = b := by
  have ha := a.toNat_lt
  have hb := b.toNat_lt
  have hc := c.toNat_lt
  rw [ahead_eq, ahead_eq, ← UInt16.toNat_inj]
  omega

theorem ahead_add (a : UInt16) {n : Nat} (h : n < 65536) : ahead a (a + UInt16.ofNat n) = n := by
  have ha := a.toNat_lt
  rw [ahead_eq]
  simp only [UInt16.toNat_add, UInt16.toNat_ofNat']
  omega

theorem add_ahead (a b : UInt16) : a + UInt16.ofNat (ahead a b) = b := by
  rw [← ahead_inj (a := a), ahead_add a (ahead_lt a b)]

theorem lessThan_iff_ahead {a b : UInt16} :
    lessThan a b = true ↔ 0 < ahead a b ∧ ahead a b < 32768 := by
  have ha := a.toNat_lt
  have hb := b.toNat_lt
  rw [ahead_eq]
  simp only [lessThan, decide_eq_true_eq, UInt16.lt_iff_toNat_lt, UInt16.toNat_sub]
  omega

/-- The same comparison, by the distance the other way. -/
theorem lessThan_iff_behind {a b : UInt16} : lessThan b a = true ↔ 32768 < ahead a b := by
  have ha := a.toNat_lt
  have hb := b.toNat_lt
  rw [lessThan_iff_ahead, ahead_eq, ahead_eq]
  omega

theorem lessThan_eq_false_iff {a b : UInt16} :
    lessThan a b = false ↔ a = b ∨ 32768 ≤ ahead a b := by
  rw [← Bool.not_eq_true, lessThan_iff_ahead, ← ahead_eq_zero_iff]
  omega

/-- Below the middle of the range the wrapping order is the usual one. -/
theorem lessThan_iff_lt {a b : UInt64} (ha : a.toNat < 2 ^ 63) (hb : b.toNat < 2 ^ 63) :
    lessThan a b = true ↔ a.toNat < b.toNat := by
  simp only [lessThan, decide_eq_true_eq, UInt64.lt_iff_toNat_lt, UInt64.toNat_sub]
  omega

theorem lessThan_eq_false_iff_le {a b : UInt64} (ha : a.toNat < 2 ^ 63) (hb : b.toNat < 2 ^ 63) :
    lessThan a b = false ↔ b.toNat ≤ a.toNat := by
  rw [← Bool.not_eq_true, lessThan_iff_lt ha hb, Nat.not_lt]

/-- The numbers first, first + 1, … of a loop with a wrapping counter. -/
def consecutive (first : UInt16) (n : Nat) : List UInt16 :=
  (List.range n).map fun i => first + UInt16.ofNat i

@[simp] theorem length_consecutive (first : UInt16) (n : Nat) : (consecutive first n).length = n := by
  simp [consecutive]

theorem consecutive_succ (first : UInt16) (n : Nat) : consecutive first (n + 1) = first :: consecutive (first + 1) n := by
  rw [consecutive, List.range_succ_eq_map, List.map_cons, List.map_map, consecutive]
  refine congrArg₂ _ (UInt16.add_zero first) (List.map_congr_left fun i _ => ?_)
  rw [Function.comp_apply, Nat.succ_eq_add_one, UInt16.ofNat_add, UInt16.add_assoc, UInt16.add_comm (UInt16.ofNat i)]
  rfl

theorem mem_consecutive {first s : UInt16} {n : Nat} (hn : n ≤ 65536) :
    s ∈ consecutive first n ↔ ahead first s < n := by
  simp only [consecutive, List.mem_map, List.mem_range]
  constructor
  · rintro ⟨i, hi, rfl⟩
    rw [ahead_add first (by omega)]
    exact hi
  · intro h
    exact ⟨ahead first s, h, add_ahead first s⟩

/-- They come in the order of the circle from the first one on. -/
theorem sorted_consecutive (first : UInt16) {n : Nat} (hn : n ≤ 65536) :
    (consecutive first n).Pairwise fun a b => ahead first a < ahead first b := by
  rw [consecutive, List.pairwise_map]
  refine List.pairwise_lt_range.imp_of_mem fun {i j} hi hj hij => ?_
  rw [List.mem_range] at hi hj
  rwa [ahead_add first (by omega), ahead_add first (by omega)]

theorem nodup_consecutive (first : UInt16) {n : Nat} (hn : n ≤ 65536) :
    (consecutive first n).Nodup :=
  (sorted_consecutive first hn).imp fun {a b} hlt he => by
    rw [he] at hlt
    exact Nat.lt_irrefl _ hlt

end Ns3Rmcat.Lib
