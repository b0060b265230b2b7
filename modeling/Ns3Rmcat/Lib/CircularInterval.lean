import Ns3Rmcat.Lib.SerialNumber

/-! Circular intervals of 16-bit numbers, given by their first number and their number of
places, and the shortest of them that contain a set. -/
namespace Ns3Rmcat.Lib

/-- The interval contains the set, and no shorter one does. -/
structure Shortest (S : UInt16 → Prop) (first : UInt16) (n : Nat) : Prop where
  covers : ∀ s, S s → ahead first s < n
  least : ∀ other m, (∀ s, S s → ahead other s < m) → n ≤ m

variable {S : UInt16 → Prop} {first last : UInt16} {n : Nat}

/-- An interval is shortest when the arcs without numbers of the set leave room for it. -/
theorem shortest_of_free (hcovers : ∀ s, S s → ahead first s < n)
    (hfree : ∀ p m, m ≤ 65536 → (∀ s, S s → m ≤ ahead p s) → m + n ≤ 65536) : Shortest S first n := by
  refine ⟨hcovers, fun other m hother => ?_⟩
  by_cases hm : m < 65536
  · -- The rest of the circle, behind the other interval, is free.
    have hrest := hfree (other + UInt16.ofNat m) (65536 - m) (by omega) fun s hs => by
      have hlt := hother s hs
      have h1 := other.toNat_lt
      have h2 := s.toNat_lt
      rw [ahead_eq] at hlt ⊢
      simp only [UInt16.toNat_add, UInt16.toNat_ofNat']
      omega
    omega
  · have hall := hfree 0 0 (by omega) fun s _ => Nat.zero_le _
    omega

/-- An interval between two numbers of the set is shortest when it is less than half the circle. -/
theorem shortest_of_half (hfirst : S first) (hlast : S last) (hcovers : ∀ s, S s → ahead first s ≤ ahead first last)
    (hhalf : ahead first last < 32767) : Shortest S first (ahead first last + 1) := by
  refine ⟨fun s hs => Nat.lt_succ_of_le (hcovers s hs), fun other m hother => ?_⟩
  have h1 := hother first hfirst
  have h2 := hother last hlast
  have := other.toNat_lt
  have := first.toNat_lt
  have := last.toNat_lt
  rw [ahead_eq] at h1 h2 hhalf ⊢
  omega

end Ns3Rmcat.Lib
