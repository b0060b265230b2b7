import Ns3Rmcat.Lib.Checked

/-! Octet buffers: words written in network byte order, and a read position that
moves over the octets that are left. Reading past the end is a fault. -/
namespace Ns3Rmcat.Lib

abbrev Octets := List UInt8

def writeU8 (v : UInt8) : Octets := [v]

def writeHtonU16 (v : UInt16) : Octets := [(v >>> 8).toUInt8, v.toUInt8]

def writeHtonU32 (v : UInt32) : Octets :=
  writeHtonU16 (v >>> 16).toUInt16 ++ writeHtonU16 v.toUInt16

def readU8 : Octets → Checked (UInt8 × Octets)
  | [] => .error .endOfBuffer
  | b :: rest => .ok (b, rest)

def readNtohU16 (s : Octets) : Checked (UInt16 × Octets) := do
  let (hi, s) ← readU8 s
  let (lo, s) ← readU8 s
  return (hi.toUInt16 <<< 8 ||| lo.toUInt16, s)

def readNtohU32 (s : Octets) : Checked (UInt32 × Octets) := do
  let (hi, s) ← readNtohU16 s
  let (lo, s) ← readNtohU16 s
  return (hi.toUInt32 <<< 16 ||| lo.toUInt32, s)

@[simp] theorem length_writeHtonU16 (v : UInt16) : (writeHtonU16 v).length = 2 := rfl

@[simp] theorem length_writeHtonU32 (v : UInt32) : (writeHtonU32 v).length = 4 := rfl

@[simp] theorem readU8_cons (b : UInt8) (rest : Octets) : readU8 (b :: rest) = .ok (b, rest) := rfl

/-- The upper and the lower half of a number, shifted apart and joined again. -/
theorem shift_or_low (n k : Nat) : (n >>> k) <<< k ||| n % 2 ^ k = n := by
  rw [Nat.shiftRight_eq_div_pow, Nat.shiftLeft_eq, Nat.mul_comm,
    ← Nat.two_pow_add_eq_or_of_lt (Nat.mod_lt _ (Nat.two_pow_pos k)), Nat.div_add_mod]

theorem join_halves16 (v : UInt16) :
    (v >>> 8).toUInt8.toUInt16 <<< 8 ||| v.toUInt8.toUInt16 = v := by
  have hv := v.toNat_lt
  apply UInt16.toNat_inj.mp
  have h := shift_or_low v.toNat 8
  simp only [Nat.shiftRight_eq_div_pow, Nat.shiftLeft_eq] at h
  simp only [UInt16.toNat_or, UInt16.toNat_shiftLeft, UInt8.toNat_toUInt16, UInt16.toNat_toUInt8,
    UInt16.toNat_shiftRight, Nat.shiftRight_eq_div_pow, Nat.shiftLeft_eq]
  have e8 : UInt16.toNat 8 % 16 = 8 := rfl
  rw [e8]
  have hdiv : v.toNat / 2 ^ 8 % 2 ^ 8 = v.toNat / 2 ^ 8 := by omega
  have hmul : v.toNat / 2 ^ 8 * 2 ^ 8 % 2 ^ 16 = v.toNat / 2 ^ 8 * 2 ^ 8 := by omega
  rw [hdiv, hmul, h]

theorem join_halves32 (v : UInt32) :
    (v >>> 16).toUInt16.toUInt32 <<< 16 ||| v.toUInt16.toUInt32 = v := by
  have hv := v.toNat_lt
  apply UInt32.toNat_inj.mp
  have h := shift_or_low v.toNat 16
  simp only [Nat.shiftRight_eq_div_pow, Nat.shiftLeft_eq] at h
  simp only [UInt32.toNat_or, UInt32.toNat_shiftLeft, UInt16.toNat_toUInt32, UInt32.toNat_toUInt16,
    UInt32.toNat_shiftRight, Nat.shiftRight_eq_div_pow, Nat.shiftLeft_eq]
  have e16 : UInt32.toNat 16 % 32 = 16 := rfl
  rw [e16]
  have hdiv : v.toNat / 2 ^ 16 % 2 ^ 16 = v.toNat / 2 ^ 16 := by omega
  have hmul : v.toNat / 2 ^ 16 * 2 ^ 16 % 2 ^ 32 = v.toNat / 2 ^ 16 * 2 ^ 16 := by omega
  rw [hdiv, hmul, h]

/-- Reading undoes writing and leaves the octets that follow. -/
@[simp] theorem readNtohU16_write (v : UInt16) (rest : Octets) :
    readNtohU16 (writeHtonU16 v ++ rest) = .ok (v, rest) :=
  congrArg (fun w => (.ok (w, rest) : Checked _)) (join_halves16 v)

/-- A 32-bit read is two 16-bit reads. -/
theorem readNtohU32_words (hi lo : UInt16) (rest : Octets) :
    readNtohU32 (writeHtonU16 hi ++ (writeHtonU16 lo ++ rest)) =
      .ok (hi.toUInt32 <<< 16 ||| lo.toUInt32, rest) := by
  simp [readNtohU32]

@[simp] theorem readNtohU32_write (v : UInt32) (rest : Octets) :
    readNtohU32 (writeHtonU32 v ++ rest) = .ok (v, rest) := by
  rw [writeHtonU32, List.append_assoc, readNtohU32_words, join_halves32]

def writeWords (ws : List UInt16) : Octets := ws.flatMap writeHtonU16

@[simp] theorem writeWords_nil : writeWords [] = [] := rfl

theorem writeWords_cons (w : UInt16) (ws : List UInt16) :
    writeWords (w :: ws) = writeHtonU16 w ++ writeWords ws := rfl

theorem writeWords_append (us vs : List UInt16) : writeWords (us ++ vs) = writeWords us ++ writeWords vs :=
  List.flatMap_append

theorem length_writeWords (ws : List UInt16) : (writeWords ws).length = 2 * ws.length := by
  induction ws with
  | nil => rfl
  | cons w ws ih =>
    rw [writeWords_cons, List.length_append, ih, length_writeHtonU16, List.length_cons]
    omega

theorem drop_writeWords (ws : List UInt16) (n : Nat) : (writeWords ws).drop (2 * n) = writeWords (ws.drop n) := by
  induction n generalizing ws with
  | zero => rfl
  | succ n ih =>
    cases ws with
    | nil => rfl
    | cons w ws => exact ih ws

theorem writeHtonU32_words (v : UInt32) :
    writeHtonU32 v = writeWords [(v >>> 16).toUInt16, v.toUInt16] := rfl

theorem toNat_join (hi lo : UInt8) :
    (hi.toUInt16 <<< 8 ||| lo.toUInt16).toNat = 256 * hi.toNat + lo.toNat := by
  have hhi := hi.toNat_lt
  have hor := Nat.two_pow_add_eq_or_of_lt (i := 8) lo.toNat_lt hi.toNat
  have e8 : UInt16.toNat 8 % 16 = 8 := rfl
  have hmul : hi.toNat * 2 ^ 8 % 2 ^ 16 = 2 ^ 8 * hi.toNat := by omega
  simp only [UInt16.toNat_or, UInt16.toNat_shiftLeft, UInt8.toNat_toUInt16, e8, Nat.shiftLeft_eq]
  rw [hmul, ← hor]

/-- Any two octets are those of the word that they make. -/
theorem writeHtonU16_join (hi lo : UInt8) : writeHtonU16 (hi.toUInt16 <<< 8 ||| lo.toUInt16) = [hi, lo] := by
  have hhi := hi.toNat_lt
  have hlo := lo.toNat_lt
  have hword := toNat_join hi lo
  have h1 : ((hi.toUInt16 <<< 8 ||| lo.toUInt16) >>> 8).toUInt8 = hi := by
    apply UInt8.toNat_inj.mp
    have e8 : UInt16.toNat 8 % 16 = 8 := rfl
    rw [UInt16.toNat_toUInt8, UInt16.toNat_shiftRight, e8, Nat.shiftRight_eq_div_pow, hword]
    omega
  have h2 : (hi.toUInt16 <<< 8 ||| lo.toUInt16).toUInt8 = lo := by
    apply UInt8.toNat_inj.mp
    rw [UInt16.toNat_toUInt8, hword]
    omega
  rw [writeHtonU16, h1, h2]

theorem writeHtonU32_join (hi lo : UInt16) :
    writeHtonU32 (hi.toUInt32 <<< 16 ||| lo.toUInt32) = writeHtonU16 hi ++ writeHtonU16 lo := by
  have hhi := hi.toNat_lt
  have hlo := lo.toNat_lt
  have e16 : UInt32.toNat 16 % 32 = 16 := rfl
  have hor := Nat.two_pow_add_eq_or_of_lt (i := 16) lo.toNat_lt hi.toNat
  have hmul : hi.toNat * 2 ^ 16 % 2 ^ 32 = 2 ^ 16 * hi.toNat := by omega
  have hword : (hi.toUInt32 <<< 16 ||| lo.toUInt32).toNat = 65536 * hi.toNat + lo.toNat := by
    simp only [UInt32.toNat_or, UInt32.toNat_shiftLeft, UInt16.toNat_toUInt32, e16, Nat.shiftLeft_eq]
    rw [hmul, ← hor]
  have h1 : ((hi.toUInt32 <<< 16 ||| lo.toUInt32) >>> 16).toUInt16 = hi := by
    apply UInt16.toNat_inj.mp
    rw [UInt32.toNat_toUInt16, UInt32.toNat_shiftRight, e16, Nat.shiftRight_eq_div_pow, hword]
    omega
  have h2 : (hi.toUInt32 <<< 16 ||| lo.toUInt32).toUInt16 = lo := by
    apply UInt16.toNat_inj.mp
    rw [UInt32.toNat_toUInt16, hword]
    omega
  rw [writeHtonU32, h1, h2]

/-- What has been read, written again, is what the buffer began with. -/
theorem eq_append_of_readNtohU16 {s rest : Octets} {v : UInt16} (h : readNtohU16 s = .ok (v, rest)) :
    s = writeHtonU16 v ++ rest := by
  match s with
  | [] => cases h
  | [_] => cases h
  | hi :: lo :: rest' =>
    have hread : (hi.toUInt16 <<< 8 ||| lo.toUInt16, rest') = (v, rest) := Except.ok.inj h
    obtain ⟨rfl, rfl⟩ := Prod.mk.inj hread
    rw [writeHtonU16_join]
    rfl

theorem eq_append_of_readNtohU32 {s rest : Octets} {v : UInt32} (h : readNtohU32 s = .ok (v, rest)) :
    s = writeHtonU32 v ++ rest := by
  obtain ⟨⟨hi, mid⟩, hhi, h⟩ := bind_eq_ok.mp h
  obtain ⟨⟨lo, rest'⟩, hlo, h⟩ := bind_eq_ok.mp h
  cases h
  rw [eq_append_of_readNtohU16 hhi, eq_append_of_readNtohU16 hlo, writeHtonU32_join, List.append_assoc]

/-- What is read from words is the first of them. -/
theorem readNtohU16_eq_ok {ws : List UInt16} {v : UInt16} {rest : Octets}
    (h : readNtohU16 (writeWords ws) = .ok (v, rest)) : ∃ us, ws = v :: us ∧ rest = writeWords us := by
  cases ws with
  | nil => cases h
  | cons w us =>
    rw [writeWords_cons, readNtohU16_write] at h
    cases h
    exact ⟨us, rfl, rfl⟩

theorem readNtohU32_eq_ok {ws : List UInt16} {v : UInt32} {rest : Octets}
    (h : readNtohU32 (writeWords ws) = .ok (v, rest)) :
    ∃ hi lo us, ws = hi :: lo :: us ∧ v = hi.toUInt32 <<< 16 ||| lo.toUInt32 ∧ rest = writeWords us := by
  obtain ⟨⟨hi, rest1⟩, h1, h⟩ := bind_eq_ok.mp h
  obtain ⟨us1, rfl, rfl⟩ := readNtohU16_eq_ok h1
  obtain ⟨⟨lo, rest2⟩, h2, h⟩ := bind_eq_ok.mp h
  obtain ⟨us, rfl, rfl⟩ := readNtohU16_eq_ok h2
  cases h
  exact ⟨hi, lo, us, rfl, rfl, rfl⟩

end Ns3Rmcat.Lib
