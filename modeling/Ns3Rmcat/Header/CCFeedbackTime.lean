import Ns3Rmcat.Header.CCFeedback

/-! Arrival times in a congestion control feedback header: from microseconds to a word in
NTP format, to an offset from the latest time, and back. -/
namespace Ns3Rmcat.Header.CCFeedback
open Lib

private theorem floor_div (n d : Nat) : (n / d : ℚ).floor.toNat = n / d := by
  have hfloor : (n / d : ℚ).floor = ((n / d : Nat) : Int) := by
    rw [Int.natCast_div]
    exact Rat.floor_natCast_div_natCast n d
  rw [hfloor, Int.toNat_natCast]

private theorem usToNtp_eq (tsUs : UInt64) : usToNtp tsUs = UInt32.ofNat (tsUs.toNat * 65536 / 1000000) := by
  have hcast : ((tsUs.toNat : ℚ) / 1000 / 1000) * 0x10000 = ((tsUs.toNat * 65536 : Nat) : ℚ) / (1000000 : Nat) := by
    push_cast
    ring
  rw [usToNtp, hcast, floor_div]

/-- Times below 65536 seconds have a word that does not wrap. -/
theorem toNat_usToNtp {tsUs : UInt64} (h : tsUs.toNat < 65536000000) :
    (usToNtp tsUs).toNat = tsUs.toNat * 65536 / 1000000 := by
  rw [usToNtp_eq, UInt32.toNat_ofNat']
  omega

theorem toNat_ntpToUs (ntp : UInt32) : (ntpToUs ntp).toNat = ntp.toNat * 1000000 / 65536 := by
  have hcast : ((ntp.toNat : ℚ) / 0x10000) * 1000 * 1000 = ((ntp.toNat * 1000000 : Nat) : ℚ) / (65536 : Nat) := by
    push_cast
    ring
  have hlt := ntp.toNat_lt
  rw [ntpToUs, hcast, floor_div, UInt64.toNat_ofNat']
  omega

theorem usToNtp_mono {earlier later : UInt64} (hle : earlier ≤ later) (h : later.toNat < 65536000000) :
    usToNtp earlier ≤ usToNtp later := by
  rw [UInt64.le_iff_toNat_le] at hle
  rw [UInt32.le_iff_toNat_le, toNat_usToNtp h, toNat_usToNtp (by omega)]
  omega

/-- Whole steps of a distance of times, rounded to the nearest. -/
def stepsOf (ntp ntpRef : UInt32) : Nat := (ntpRef.toNat - ntp.toNat + 32) / 64

/-- An offset is its steps as a 16-bit word, or the over-range code if that word is larger. -/
theorem ntpToAto_steps {ntp ntpRef : UInt32} (hle : ntp ≤ ntpRef) :
    ∃ ato, ntpToAto ntp ntpRef = .ok ato ∧ ato.toNat = min (stepsOf ntp ntpRef % 65536) 0x1FFE := by
  have hsub : (ntpRef - ntp).toNat = ntpRef.toNat - ntp.toNat := UInt32.toNat_sub_of_le _ _ hle
  have hword : ((ntpRef - ntp + ((1 : UInt32) <<< 5)) >>> 6).toUInt16.toNat = stepsOf ntp ntpRef % 65536 := by
    have e6 : UInt32.toNat 6 % 32 = 6 := rfl
    have e32 : ((1 : UInt32) <<< 5).toNat = 32 := rfl
    have hlt := ntpRef.toNat_lt
    rw [UInt32.toNat_toUInt16, UInt32.toNat_shiftRight, e6, Nat.shiftRight_eq_div_pow, UInt32.toNat_add, hsub, e32,
      stepsOf]
    omega
  have hmin (a b : UInt16) : (min a b).toNat = min a.toNat b.toNat := by
    have hdef : min a b = if a ≤ b then a else b := rfl
    rw [hdef]
    split
    · rename_i hab
      exact (min_eq_left (UInt16.le_iff_toNat_le.mp hab)).symm
    · rename_i hab
      rw [UInt16.not_le, UInt16.lt_iff_toNat_lt] at hab
      exact (min_eq_right hab.le).symm
  refine ⟨min ((ntpRef - ntp + ((1 : UInt32) <<< 5)) >>> 6).toUInt16 overrange, ?_, ?_⟩
  · rw [ntpToAto, check_of hle, ok_bind]
    rfl
  · rw [hmin, hword]
    rfl

private theorem ntpToAto_near {ntp ntpRef : UInt32} (hle : ntp.toNat ≤ ntpRef.toNat)
    (hnear : ntpRef.toNat - ntp.toNat ≤ 524000) :
    ∃ ato, ntpToAto ntp ntpRef = .ok ato ∧ ato.toNat = (ntpRef.toNat - ntp.toNat + 32) / 64 := by
  obtain ⟨ato, hato, hsteps⟩ := ntpToAto_steps (UInt32.le_iff_toNat_le.mpr hle)
  refine ⟨ato, hato, ?_⟩
  rw [hsteps, stepsOf]
  omega

private theorem toNat_shiftAto (ato : UInt16) : (ato.toUInt32 <<< 6).toNat = ato.toNat * 64 := by
  have hlt := ato.toNat_lt
  have e6 : UInt32.toNat 6 % 32 = 6 := rfl
  rw [UInt32.toNat_shiftLeft, e6, Nat.shiftLeft_eq, UInt16.toNat_toUInt32]
  omega

/-- An offset that is read goes back at most to the start of the clock. -/
theorem atoToNtp_near {ato : UInt16} {ntpRef : UInt32} (hato : ato.toNat < 0x1FFF)
    (hle : ato.toNat * 64 ≤ ntpRef.toNat) :
    ∃ ntp, atoToNtp ato ntpRef = .ok ntp ∧ ntp.toNat = ntpRef.toNat - ato.toNat * 64 := by
  have hle' : ato.toUInt32 <<< 6 ≤ ntpRef := by
    rw [UInt32.le_iff_toNat_le, toNat_shiftAto]
    exact hle
  refine ⟨ntpRef - ato.toUInt32 <<< 6, ?_, ?_⟩
  · rw [atoToNtp, check_of (UInt16.lt_iff_toNat_lt.mpr hato), ok_bind]
    simp only [check_of hle', ok_bind, pure_eq_ok]
  · rw [UInt32.toNat_sub_of_le _ _ hle', toNat_shiftAto]

theorem atoToNtp_ok {ato : UInt16} {ntpRef ntp : UInt32} (h : atoToNtp ato ntpRef = .ok ntp) :
    ato.toNat * 64 ≤ ntpRef.toNat := by
  obtain ⟨-, h⟩ := check_bind_eq_ok.mp h
  obtain ⟨hle, -⟩ := check_bind_eq_ok.mp h
  rwa [UInt32.le_iff_toNat_le, toNat_shiftAto] at hle

/-- What a time becomes when it is sent with a latest time and read again. -/
def decodedUs (latestTsUs tsUs : UInt64) : Nat :=
  let ntpRef := latestTsUs.toNat * 65536 / 1000000
  let ntp := tsUs.toNat * 65536 / 1000000
  (ntpRef - (ntpRef - ntp + 32) / 64 * 64) * 1000000 / 65536

/-- A time that can be sent: at least a millisecond, and not too far before the latest one. -/
structure TimeFits (latestTsUs tsUs : UInt64) : Prop where
  least : 1000 ≤ tsUs.toNat
  le : tsUs.toNat ≤ latestTsUs.toNat
  near : latestTsUs.toNat ≤ tsUs.toNat + 7900000
  latest : latestTsUs.toNat < 65536000000

/-- The whole way of a time: an offset that can be sent, and the time that is read from it. -/
theorem TimeFits.roundTrip {latestTsUs tsUs : UInt64} (h : TimeFits latestTsUs tsUs) :
    ∃ ato ntp, ntpToAto (usToNtp tsUs) (usToNtp latestTsUs) = .ok ato ∧ ato < unavailable ∧
      atoToNtp ato (usToNtp latestTsUs) = .ok ntp ∧ (ntpToUs ntp).toNat = decodedUs latestTsUs tsUs := by
  obtain ⟨hleast, hle, hnear, hlatest⟩ := h
  have hntp := toNat_usToNtp (lt_of_le_of_lt hle hlatest)
  have href := toNat_usToNtp hlatest
  have hbefore : (usToNtp tsUs).toNat ≤ (usToNtp latestTsUs).toNat := by omega
  obtain ⟨ato, hato, hatoNat⟩ := ntpToAto_near hbefore (by omega)
  have hoffset : ato.toNat * 64 ≤ (usToNtp latestTsUs).toNat := by omega
  obtain ⟨ntp, hback, hbackNat⟩ := atoToNtp_near (by omega) hoffset
  refine ⟨ato, ntp, hato, ?_, hback, ?_⟩
  · rw [UInt16.lt_iff_toNat_lt, hatoNat]
    simp only [unavailable, UInt16.reduceToNat]
    omega
  · rw [toNat_ntpToUs, hbackNat, hatoNat, hntp, href]
    rfl

/-- The time that is read is less than half an offset step, and two roundings, away. -/
theorem TimeFits.decodedUs_near {latestTsUs tsUs : UInt64} (h : TimeFits latestTsUs tsUs) :
    decodedUs latestTsUs tsUs ≤ tsUs.toNat + 505 ∧ tsUs.toNat ≤ decodedUs latestTsUs tsUs + 505 := by
  obtain ⟨hleast, hle, hnear, hlatest⟩ := h
  unfold decodedUs
  dsimp only
  omega

theorem decodedUs_le_latest (latestTsUs tsUs : UInt64) :
    decodedUs latestTsUs tsUs ≤ latestTsUs.toNat * 65536 / 1000000 * 1000000 / 65536 := by
  unfold decodedUs
  dsimp only
  omega

/-- Times that are read are in the order of those that were sent. -/
theorem decodedUs_mono {latestTsUs earlier later : UInt64} (hle : earlier.toNat ≤ later.toNat) :
    decodedUs latestTsUs earlier ≤ decodedUs latestTsUs later := by
  unfold decodedUs
  dsimp only
  omega

/-- An offset that says how far a time is before another: the nearest number of steps, or the
over-range code for more of them, and a time that is read from it near the one that was sent. -/
structure Quantizes (ntp ntpRef : UInt32) (ato : UInt16) : Prop where
  nearest : ato.toNat = min (stepsOf ntp ntpRef) 0x1FFE
  available : ato ≠ unavailable
  recovered : ∃ back, atoToNtp ato ntpRef = .ok back ∧
    (ato ≠ overrange → back.toNat ≤ ntp.toNat + 32 ∧ ntp.toNat ≤ back.toNat + 32)

/-- Offsets are right unless their steps wrap in 16 bits and do not end up over range, or the
nearest step lies before the start of the clock. -/
theorem quantizes_iff {ntp ntpRef : UInt32} (hle : ntp ≤ ntpRef) :
    (∃ ato, ntpToAto ntp ntpRef = .ok ato ∧ Quantizes ntp ntpRef ato) ↔
      (stepsOf ntp ntpRef < 65536 ∨ 0x1FFE ≤ stepsOf ntp ntpRef % 65536) ∧
        min (stepsOf ntp ntpRef) 0x1FFE * 64 ≤ ntpRef.toNat := by
  obtain ⟨ato, hato, hword⟩ := ntpToAto_steps hle
  constructor
  · rintro ⟨ato', hato', hq⟩
    cases hato.symm.trans hato'
    obtain ⟨back, hback, -⟩ := hq.recovered
    have hoffset := atoToNtp_ok hback
    have hnearest := hq.nearest
    omega
  · rintro ⟨hwrap, hclock⟩
    have hnearest : ato.toNat = min (stepsOf ntp ntpRef) 0x1FFE := by omega
    obtain ⟨back, hback, hbackNat⟩ := @atoToNtp_near ato ntpRef (by omega) (by omega)
    refine ⟨ato, hato, hnearest, ?_, back, hback, fun hin => ?_⟩
    · rintro rfl
      simp only [unavailable, UInt16.reduceToNat] at hnearest
      omega
    · have hne : ato.toNat ≠ 0x1FFE := fun he => hin (UInt16.toNat_inj.mp he)
      rw [UInt32.le_iff_toNat_le] at hle
      rw [stepsOf] at hnearest
      omega

/-- A time of one second before the latest one is sent and read as it should be. -/
theorem quantizes_iff_second : ∃ ato, ntpToAto 65536 131072 = .ok ato ∧ Quantizes 65536 131072 ato :=
  (quantizes_iff (by decide)).mpr (by decide)

/-- A time of 64 seconds before the latest one is sent as the latest one, and the first one of
the clock, sent half a step later, cannot be read. -/
theorem offsets_that_fail :
    (¬ ∃ ato, ntpToAto 65536 4259840 = .ok ato ∧ Quantizes 65536 4259840 ato) ∧
      ¬ ∃ ato, ntpToAto 0 32 = .ok ato ∧ Quantizes 0 32 ato := by
  constructor
  · rintro ⟨ato, hato, hq⟩
    cases (show ntpToAto 65536 4259840 = .ok 0 from rfl).symm.trans hato
    exact absurd hq.nearest (by decide)
  · rintro ⟨ato, hato, hq⟩
    cases (show ntpToAto 0 32 = .ok 1 from rfl).symm.trans hato
    obtain ⟨back, hback, -⟩ := hq.recovered
    cases (show atoToNtp 1 32 = .error .assertion from rfl).symm.trans hback

end Ns3Rmcat.Header.CCFeedback
