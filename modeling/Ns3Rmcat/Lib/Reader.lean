import Ns3Rmcat.Lib.Octets

/-! Readers that settle: each of their runs returns with a postcondition or rejects its input,
by a failed assertion or by a read past the end. The rules compose readers one after the other. -/
namespace Ns3Rmcat.Lib

/-- The faults by which a reader turns its input down. -/
def Fault.Rejects : Fault → Prop
  | .assertion | .endOfBuffer => True
  | .emptyQueue | .outOfFuel => False

section Settling
variable {α β : Type}

/-- The computation rejects, or returns a value that has the postcondition. -/
def Settles (x : Checked α) (post : α → Prop) : Prop :=
  match x with
  | .ok a => post a
  | .error fault => fault.Rejects

@[simp] theorem settles_ok {a : α} {post : α → Prop} : Settles (.ok a) post ↔ post a := Iff.rfl

@[simp] theorem settles_error {fault : Fault} {post : α → Prop} :
    Settles (.error fault : Checked α) post ↔ fault.Rejects := Iff.rfl

theorem Settles.bind {x : Checked α} {f : α → Checked β} {mid : α → Prop} {post : β → Prop}
    (hx : Settles x mid) (hf : ∀ a, mid a → Settles (f a) post) : Settles (x >>= f) post := by
  cases x with
  | ok a => exact hf a hx
  | error fault => exact hx

theorem Settles.mono {x : Checked α} {post post' : α → Prop} (hx : Settles x post)
    (h : ∀ a, post a → post' a) : Settles x post' := by
  cases x with
  | ok a => exact h a hx
  | error fault => exact hx

/-- What follows an assertion may rely on it. -/
theorem settles_check {p : Prop} [Decidable p] {f : Unit → Checked β} {post : β → Prop}
    (hf : p → Settles (f ()) post) : Settles (check p >>= f) post := by
  by_cases h : p
  · rw [check_of h]
    exact hf h
  · rw [check_of_not h]
    exact trivial

/-- Two continuations of an assertion that agree where it holds. -/
theorem check_bind_congr {p : Prop} [Decidable p] {f g : Unit → Checked β} (h : p → f () = g ()) :
    (check p >>= f) = (check p >>= g) := by
  by_cases hp : p
  · rw [check_of hp]
    exact h hp
  · rw [check_of_not hp]
    rfl

end Settling

/-- The rest of s behind its first n octets, of which none is missing. -/
structure Taken (n : Nat) (s rest : Octets) : Prop where
  enough : n ≤ s.length
  rest_eq : rest = s.drop n

namespace Taken

theorem zero (s : Octets) : Taken 0 s s := ⟨Nat.zero_le _, rfl⟩

theorem trans {m n : Nat} {s mid rest : Octets} (h : Taken m s mid) (h' : Taken n mid rest) :
    Taken (m + n) s rest := by
  obtain ⟨hm, rfl⟩ := h
  obtain ⟨hn, rfl⟩ := h'
  rw [List.length_drop] at hn
  exact ⟨by omega, List.drop_drop⟩

theorem length {n : Nat} {s rest : Octets} (h : Taken n s rest) : s.length = n + rest.length := by
  obtain ⟨hn, rfl⟩ := h
  rw [List.length_drop]
  omega

end Taken

/-- The word that two octets of a buffer make, from the octet with this index on. -/
def wordAt (s : Octets) (i : Nat) : UInt16 := (s.getD i 0).toUInt16 <<< 8 ||| (s.getD (i + 1) 0).toUInt16

theorem wordAt_drop (s : Octets) (n i : Nat) : wordAt (s.drop n) i = wordAt s (n + i) := by
  simp only [wordAt, List.getD_eq_getElem?_getD, List.getElem?_drop, Nat.add_assoc]

def longAt (s : Octets) (i : Nat) : UInt32 := (wordAt s i).toUInt32 <<< 16 ||| (wordAt s (i + 2)).toUInt32

theorem longAt_drop (s : Octets) (n i : Nat) : longAt (s.drop n) i = longAt s (n + i) := by
  simp only [longAt, wordAt_drop, Nat.add_assoc]

theorem wordAt_take {s : Octets} {n i : Nat} (h : i + 2 ≤ n) : wordAt (s.take n) i = wordAt s i := by
  simp only [wordAt, List.getD_eq_getElem?_getD]
  rw [List.getElem?_take_of_lt (by omega), List.getElem?_take_of_lt (by omega)]

theorem longAt_take {s : Octets} {n i : Nat} (h : i + 4 ≤ n) : longAt (s.take n) i = longAt s i := by
  rw [longAt, wordAt_take (by omega), wordAt_take (by omega), longAt]

/-- What a read does is a matter of how many octets there are. -/
theorem readU8_eq (s : Octets) :
    readU8 s = if 1 ≤ s.length then .ok (s.getD 0 0, s.drop 1) else .error .endOfBuffer := by
  cases s with
  | nil => rfl
  | cons b rest => simp

theorem readNtohU16_eq (s : Octets) :
    readNtohU16 s = if 2 ≤ s.length then .ok (wordAt s 0, s.drop 2) else .error .endOfBuffer := by
  match s with
  | [] => rfl
  | [_] => rfl
  | hi :: lo :: rest =>
    rw [if_pos (by simp)]
    rfl

theorem readNtohU32_eq (s : Octets) :
    readNtohU32 s = if 4 ≤ s.length then .ok (longAt s 0, s.drop 4) else .error .endOfBuffer := by
  rw [readNtohU32, readNtohU16_eq]
  by_cases h2 : 2 ≤ s.length
  · rw [if_pos h2]
    simp only [ok_bind, readNtohU16_eq, List.length_drop, wordAt_drop]
    by_cases h4 : 4 ≤ s.length
    · rw [if_pos (show 2 ≤ s.length - 2 by omega), if_pos h4]
      simp only [ok_bind, List.drop_drop]
      rfl
    · rw [if_neg (show ¬ 2 ≤ s.length - 2 by omega), if_neg h4]
      rfl
  · rw [if_neg h2, if_neg (show ¬ 4 ≤ s.length by omega)]
    rfl

/-- The words of a buffer, written again. -/
theorem eq_writeHtonU16_append {s : Octets} (h : 2 ≤ s.length) : s = writeHtonU16 (wordAt s 0) ++ s.drop 2 :=
  eq_append_of_readNtohU16 (by rw [readNtohU16_eq, if_pos h])

theorem eq_writeHtonU32_append {s : Octets} (h : 4 ≤ s.length) : s = writeHtonU32 (longAt s 0) ++ s.drop 4 :=
  eq_append_of_readNtohU32 (by rw [readNtohU32_eq, if_pos h])

def longsAt (s : Octets) (i n : Nat) : List UInt32 := (List.range n).map fun k => longAt s (i + 4 * k)

@[simp] theorem length_longsAt (s : Octets) (i n : Nat) : (longsAt s i n).length = n := by
  rw [longsAt, List.length_map, List.length_range]

theorem longsAt_drop (s : Octets) (k i n : Nat) : longsAt (s.drop k) i n = longsAt s (k + i) n := by
  simp only [longsAt, longAt_drop, Nat.add_assoc]

/-- Octets that are nothing but long words are these words, written. -/
theorem flatMap_longsAt {s : Octets} {n : Nat} (h : s.length = 4 * n) : (longsAt s 0 n).flatMap writeHtonU32 = s := by
  induction n generalizing s with
  | zero => exact (List.length_eq_zero_iff.mp h).symm
  | succ n ih =>
    have hrest : (longsAt (s.drop 4) 0 n).flatMap writeHtonU32 = s.drop 4 := ih (by rw [List.length_drop]; omega)
    have hlongs : longsAt s 0 (n + 1) = longAt s 0 :: longsAt (s.drop 4) 0 n := by
      rw [longsAt, List.range_succ_eq_map, List.map_cons, List.map_map, longsAt]
      refine congrArg _ (List.map_congr_left fun k _ => ?_)
      rw [longAt_drop, Function.comp_apply, show 0 + 4 * (k + 1) = 4 + (0 + 4 * k) by omega]
    rw [hlongs, List.flatMap_cons, hrest]
    exact (eq_writeHtonU32_append (by omega)).symm

theorem readU8_settles (s : Octets) : Settles (readU8 s) fun read => Taken 1 s read.2 := by
  cases s with
  | nil => exact trivial
  | cons b rest => exact ⟨by simp, rfl⟩

theorem readNtohU16_settles (s : Octets) :
    Settles (readNtohU16 s) fun read => Taken 2 s read.2 ∧ read.1 = wordAt s 0 := by
  match s with
  | [] => exact trivial
  | [_] => exact trivial
  | hi :: lo :: rest => exact ⟨⟨by simp, rfl⟩, rfl⟩

theorem readNtohU32_settles (s : Octets) : Settles (readNtohU32 s) fun read => Taken 4 s read.2 := by
  refine (readNtohU16_settles s).bind fun hi hhi => ?_
  refine (readNtohU16_settles hi.2).bind fun lo hlo => ?_
  exact hhi.1.trans hlo.1

end Ns3Rmcat.Lib
