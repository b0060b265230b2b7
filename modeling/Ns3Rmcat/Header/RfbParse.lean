import Ns3Rmcat.Header.RfbOpening

/-! Reading any octets as an RTP feedback header: exactly when the reader takes the octets of its
packet, and when the count of those that are left goes wrong. -/
namespace Ns3Rmcat.Header
open Lib
open CCFeedbackHeader (Subtracts)

namespace RfbHeader

/-- What reading a buffer into a fresh header does, whatever is in the buffer: it rejects it or
takes the octets of its packet and returns their number, the length that is left never goes below
zero, and with no more octets than those of the packet it does not come to their end. -/
structure ConsumesPacket (start : Octets) : Prop where
  exact : Settles (fresh.deserialize start) fun read =>
    read.1.toNat = packetLen start ∧ Taken (packetLen start) start read.2.2
  noUnderflow : ∀ sub, Subtracts sub → fresh.deserializeWith sub start = fresh.deserialize start
  within : packetLen start < start.length → fresh.deserialize (start.take (packetLen start)) ≠ .error .endOfBuffer

def reportTime (start : Octets) : UInt64 := (longAt start 12).toUInt64

/-- The octets behind the fixed part begin with whole blocks that are in time, and with them so
many octets of the length are left. -/
structure Begins (start : Octets) (blocks : List RfbWireBlock) (rest : Octets) (n : Nat) : Prop where
  octets : start.drop 20 = blocks.flatMap RfbWireBlock.octets ++ rest
  inTime : ∀ b ∈ blocks, InTime (reportTime start) b.metrics
  left : totalSize blocks + n = packetLen start - 20

/-- Report blocks with which nothing goes wrong. When they use up the length, none of them is
padded and the size of their report is that of the packet. No block that follows them has more
metric blocks than there is room for, in time and in the buffer, or in time and to the end of the
packet when the buffer goes on behind it. -/
structure Fits (start : Octets) : Prop where
  filled : ∀ blocks rest, Begins start blocks rest 0 → (∀ b ∈ blocks, b.metrics.length % 2 = 0) ∧
    storedLength (wordAt start 2) (blocks.flatMap (RfbWireBlock.calls · (reportTime start))) = wordAt start 2
  room : ∀ blocks rest n, Begins start blocks rest n → 8 ≤ n → ∀ (b : RfbWireBlock) (more : Octets),
    rest = b.octets ++ more → InTime (reportTime start) b.metrics → b.size ≤ n
  uncut : packetLen start < start.length → ∀ blocks rest n,
    Begins (start.take (packetLen start)) blocks rest n → 8 ≤ n → ¬ CutOff (reportTime start) rest

/-- The buffers that are read as they should be. A length field of zero does not count the fixed
part that every packet has, and one of three not all of that of a report. -/
structure Consumable (start : Octets) : Prop where
  zero : wordAt start 2 = 0 → start.length ≤ 4
  three : wordAt start 2 = 3 → Accepted start → start.length ≤ 16
  blocks : 4 ≤ wordAt start 2 → Accepted start → Fits start

section Reading
variable {start : Octets}

/-- What follows the loop. -/
def finish (read : RfbHeader × Octets) : Checked (UInt32 × RfbHeader × Octets) :=
  read.1.getSerializedSize >>= fun size => .ok (size, read.1, read.2)

private theorem finish_settles (read : RfbHeader × Octets) : Settles (finish read) fun result =>
    3 ≤ read.1.common.length ∧ result.1.toNat = 4 * (read.1.common.length.toNat + 1) ∧ result.2 = read :=
  (getSerializedSize_settles read.1).bind fun _ hsize => ⟨hsize.1, hsize.2, rfl⟩

private theorem finish_ne_endOfBuffer (read : RfbHeader × Octets) : finish read ≠ .error .endOfBuffer := by
  intro hend
  rw [finish, getSerializedSize] at hend
  by_cases hlength : 3 ≤ read.1.common.length
  · rw [check_of hlength] at hend
    cases hend
  · rw [check_of_not hlength] at hend
    cases hend

private theorem Begins.deserializeWith {blocks : List RfbWireBlock} {rest : Octets} {n : Nat}
    (h : Begins start blocks rest n)
    (hfour : 4 ≤ wordAt start 2) (haccepted : Accepted start) (hlong : 20 ≤ start.length) :
    ∃ rounds, ∀ sub, Subtracts sub → fresh.deserializeWith sub start =
      deserializeBlocksWith sub (rounds + 1) (UInt64.ofNat n) (addBlocks blocks (openedHeader start)) rest >>= finish := by
  have hge := packetLen_ge hfour
  have hlt := packetLen_lt start
  have hleft := h.left
  have hlength := flatMap_octets_ge blocks
  have hrounds : blocks.length ≤ (start.drop 20).length := by
    rw [h.octets, List.length_append]
    omega
  refine ⟨(start.drop 20).length - blocks.length, fun sub hsub => ?_⟩
  have hwords : (4 * ((openedHeader start).common.length.toUInt64 + 1)).toNat = packetLen start := by
    have hfield := (wordAt start 2).toNat_lt
    change (4 * ((wordAt start 2).toUInt64 + 1)).toNat = _
    simp only [UInt64.toNat_mul, UInt64.toNat_add, UInt16.toNat_toUInt64, UInt64.reduceToNat, packetLen]
    omega
  have htwenty : 20 ≤ 4 * ((openedHeader start).common.length.toUInt64 + 1) := by
    rw [UInt64.le_iff_toNat_le, hwords]
    exact hge
  have hlenLeft : 4 * ((openedHeader start).common.length.toUInt64 + 1) - 20 = UInt64.ofNat (totalSize blocks + n) := by
    apply UInt64.toNat_inj.mp
    rw [UInt64.toNat_sub_of_le _ _ htwenty, hwords, hleft, UInt64.toNat_ofNat', Nat.mod_eq_of_lt (by omega)]
    rfl
  have hsplit : (start.drop 20).length + 1 = blocks.length + ((start.drop 20).length - blocks.length + 1) := by omega
  rw [deserializeWith_fresh, haccepted.openReport hlong, ok_bind]
  dsimp only
  rw [hsub _ _ htwenty, ok_bind, hlenLeft, hsplit, h.octets,
    deserializeBlocksWith_blocks hsub (by omega) h.inTime]
  rfl

private theorem Begins.mod_four {blocks : List RfbWireBlock} {rest : Octets} {n : Nat} (h : Begins start blocks rest n)
    (hfour : 4 ≤ wordAt start 2) : n % 4 = 0 := by
  have hge := packetLen_ge hfour
  have hleft := h.left
  have hmod := totalSize_mod_four blocks
  have hlen : packetLen start = 4 * ((wordAt start 2).toNat + 1) := rfl
  omega

private theorem Begins.lt {blocks : List RfbWireBlock} {rest : Octets} {n : Nat} (h : Begins start blocks rest n) :
    n < 2 ^ 64 := by
  have hlt := packetLen_lt start
  have hleft := h.left
  omega

private theorem exists_begins (start : Octets) :
    ∃ blocks rest n, Begins start blocks rest n ∧ Ends (addBlocks blocks (openedHeader start)) n rest := by
  have hlt := packetLen_lt start
  obtain ⟨blocks, rest, n, hleft, hoctets, htime, hends⟩ :=
    exists_blocks_ends (packetLen start - 20) (by omega) (openedHeader start) (start.drop 20)
  exact ⟨blocks, rest, n, ⟨hoctets, htime, hleft.symm⟩, hends⟩

private theorem common_length_addBlocks (blocks : List RfbWireBlock) :
    (addBlocks blocks (openedHeader start)).common.length =
    storedLength (wordAt start 2) (blocks.flatMap (RfbWireBlock.calls · (reportTime start))) :=
  (common_length_foldl rfl (additions_calls blocks (reportTime start))).2

/-- Reading a buffer that is read as it should be does the same however it subtracts, and takes
the packet or rejects it. -/
private theorem Fits.run (h : Fits start) (hfour : 4 ≤ wordAt start 2) (haccepted : Accepted start)
    (hlong : 20 ≤ start.length) :
    ∃ result, (∀ sub, Subtracts sub → fresh.deserializeWith sub start = result) ∧
      Settles result fun read => read.1.toNat = packetLen start ∧ Taken (packetLen start) start read.2.2 := by
  obtain ⟨blocks, rest, n, hbegins, hends⟩ := exists_begins start
  obtain ⟨rounds, hrun⟩ := hbegins.deserializeWith hfour haccepted hlong
  have hn := hbegins.lt
  cases hends with
  | done hzero =>
    subst hzero
    obtain ⟨heven, hstored⟩ := h.filled blocks rest hbegins
    refine ⟨finish (addBlocks blocks (openedHeader start), rest), fun sub hsub => ?_, ?_⟩
    · rw [hrun sub hsub, deserializeBlocksWith_done, ok_bind]
    · refine (finish_settles _).mono fun result hresult => ?_
      obtain ⟨-, hsize, hread⟩ := hresult
      dsimp only at hsize
      rw [common_length_addBlocks, hstored] at hsize
      refine ⟨hsize, ?_⟩
      have hoctets := (totalSize_octets blocks).2.mpr heven
      have hleft := hbegins.left
      have hge := packetLen_ge hfour
      have hdrop := congrArg List.length hbegins.octets
      rw [List.length_drop, List.length_append] at hdrop
      refine ⟨by omega, ?_⟩
      have hrest : result.2.2 = rest := congrArg Prod.snd hread
      have hsplit : packetLen start = 20 + (blocks.flatMap RfbWireBlock.octets).length := by omega
      rw [hrest, hsplit, ← List.drop_drop, hbegins.octets, List.drop_left]
  | refused hbad =>
    refine ⟨.error .assertion, fun sub hsub => ?_, trivial⟩
    rw [hrun sub hsub, hbad sub rounds hsub]
    rfl
  | cutOff hge hcut =>
    refine ⟨.error .endOfBuffer, fun sub hsub => ?_, trivial⟩
    rw [hrun sub hsub, deserializeBlocksWith_cutOff hsub hn hge hcut]
    rfl
  | overrun b more hge hrest htime hover =>
    rw [reportTimeMs_addBlocks] at htime
    exact absurd (h.room blocks rest n hbegins hge b more hrest htime) (Nat.not_le.mpr hover)

private theorem deserializeWith_rejected {fault : Fault} (h : openReport start = .error fault)
    (sub : UInt64 → UInt64 → Checked UInt64) : fresh.deserializeWith sub start = .error fault := by
  rw [deserializeWith_fresh, h]
  rfl

private theorem reportTime_packet (h : 16 ≤ packetLen start) :
    reportTime (start.take (packetLen start)) = reportTime start := by
  rw [reportTime, longAt_take h, reportTime]

private theorem Begins.of_packet {blocks : List RfbWireBlock} {rest : Octets} {n : Nat} (hlong : 20 ≤ packetLen start)
    (hle : packetLen start ≤ start.length) (h : Begins (start.take (packetLen start)) blocks rest n) :
    Begins start blocks (rest ++ start.drop (packetLen start)) n := by
  obtain ⟨hoctets, htime, hleft⟩ := h
  rw [reportTime_packet (by omega)] at htime
  rw [packetLen_packet] at hleft
  refine ⟨?_, htime, hleft⟩
  have hlength : (start.take (packetLen start)).length = packetLen start := List.length_take_of_le hle
  rw [← List.append_assoc, ← hoctets, ← List.drop_append_of_le_length (by omega), List.take_append_drop]

/-- The packet by itself is not too short to be read, when nothing can go wrong with its blocks. -/
theorem Consumable.within (h : Consumable start) (hlt : packetLen start < start.length) :
    fresh.deserialize (start.take (packetLen start)) ≠ .error .endOfBuffer := by
  have hlength : (start.take (packetLen start)).length = packetLen start := List.length_take_of_le hlt.le
  have hfield : packetLen start = 4 * ((wordAt start 2).toNat + 1) := rfl
  rw [← deserializeWith_wrappingSub]
  rcases openReport_cases (start.take (packetLen start)) with ⟨haccepted, hlong, hopen⟩ | ⟨hshort, hopen⟩ | hbad
  · rw [hlength] at hlong
    have haccepted' := (accepted_packet (by omega)).mp haccepted
    have hfour : 4 ≤ wordAt start 2 := by
      rw [UInt16.le_iff_toNat_le]
      simp only [UInt16.reduceToNat]
      omega
    have hfits := h.blocks hfour haccepted'
    obtain ⟨blocks, rest, n, hbegins, hends⟩ := exists_begins (start.take (packetLen start))
    obtain ⟨rounds, hrun⟩ := hbegins.deserializeWith (by rwa [wordAt_packet]) haccepted (by rwa [hlength])
    rw [hrun _ subtracts_wrappingSub]
    cases hends with
    | done hzero =>
      subst hzero
      rw [deserializeBlocksWith_done, ok_bind]
      exact finish_ne_endOfBuffer _
    | refused hbad =>
      rw [hbad _ rounds subtracts_wrappingSub]
      intro hend
      cases hend
    | cutOff hge hcut =>
      rw [reportTimeMs_addBlocks] at hcut
      have hcut' : CutOff (reportTime (start.take (packetLen start))) rest := hcut
      rw [reportTime_packet (by omega)] at hcut'
      exact absurd hcut' (hfits.uncut hlt blocks rest n hbegins hge)
    | overrun b more hge hrest htime hover =>
      rw [reportTimeMs_addBlocks] at htime
      have htime' : InTime (reportTime (start.take (packetLen start))) b.metrics := htime
      rw [reportTime_packet (by omega)] at htime'
      have hroom := hfits.room blocks _ n (hbegins.of_packet hlong hlt.le) hge b (more ++ start.drop (packetLen start))
        (by rw [hrest, List.append_assoc]) htime'
      exact absurd hroom (Nat.not_le.mpr hover)
  · exfalso
    rw [hlength] at hshort
    rcases hshort with h8 | ⟨hthree, h12⟩ | ⟨haccepted, h20⟩
    · have hzero : wordAt start 2 = 0 := UInt16.toNat_inj.mp (by rw [UInt16.toNat_zero]; omega)
      have hfew := h.zero hzero
      rw [hzero] at hfield
      simp only [UInt16.toNat_zero] at hfield
      omega
    · rw [wordAt_packet, UInt16.le_iff_toNat_le] at hthree
      simp only [UInt16.reduceToNat] at hthree
      omega
    · have hthree := UInt16.le_iff_toNat_le.mp haccepted.length
      rw [wordAt_packet] at hthree
      simp only [UInt16.reduceToNat] at hthree
      have haccepted' := (accepted_packet (by omega)).mp haccepted
      have heq : wordAt start 2 = 3 := UInt16.toNat_inj.mp (by simp only [UInt16.reduceToNat]; omega)
      have hfew := h.three heq haccepted'
      omega
  · rw [deserializeWith_rejected hbad]
    intro hend
    cases hend

private theorem Consumable.consumes (h : Consumable start) : ConsumesPacket start := by
  have hwithin := h.within
  -- Either way the run is the same for all subtractions.
  obtain ⟨result, hrun, hexact⟩ : ∃ result, (∀ sub, Subtracts sub → fresh.deserializeWith sub start = result) ∧
      Settles result fun read => read.1.toNat = packetLen start ∧ Taken (packetLen start) start read.2.2 := by
    rcases openReport_cases start with ⟨haccepted, hlong, -⟩ | ⟨-, hopen⟩ | hopen
    · have hfour : 4 ≤ wordAt start 2 := by
        have hthree := UInt16.le_iff_toNat_le.mp haccepted.length
        rw [UInt16.le_iff_toNat_le]
        simp only [UInt16.reduceToNat] at hthree ⊢
        by_contra hless
        have heq : wordAt start 2 = 3 := UInt16.toNat_inj.mp (by simp only [UInt16.reduceToNat]; omega)
        have := h.three heq haccepted
        omega
      exact (h.blocks hfour haccepted).run hfour haccepted hlong
    · exact ⟨_, fun sub _ => deserializeWith_rejected hopen sub, trivial⟩
    · exact ⟨_, fun sub _ => deserializeWith_rejected hopen sub, trivial⟩
  have hread : fresh.deserialize start = result := by
    rw [← deserializeWith_wrappingSub]
    exact hrun _ subtracts_wrappingSub
  exact ⟨by rwa [hread], fun sub hsub => by rw [hread, hrun sub hsub], hwithin⟩

private theorem Begins.long {blocks : List RfbWireBlock} {rest : Octets} {n : Nat} (h : Begins start blocks rest n)
    (hsome : blocks ≠ [] ∨ 0 < rest.length) : 20 ≤ start.length := by
  have hge := flatMap_octets_ge blocks
  have hdrop := congrArg List.length h.octets
  rw [List.length_drop, List.length_append] at hdrop
  rcases hsome with hblocks | hrest
  · have hpos := List.length_pos_iff.mpr hblocks
    omega
  · omega

private theorem ConsumesPacket.fits (h : ConsumesPacket start) (hfour : 4 ≤ wordAt start 2)
    (haccepted : Accepted start) :
    Fits start where
  filled := by
    intro blocks rest hbegins
    rcases List.eq_nil_or_concat' blocks with rfl | ⟨before, last, hblocks⟩
    · exact ⟨by simp, storedLength_nil _⟩
    have hlong := hbegins.long (.inl (by rw [hblocks]; simp))
    obtain ⟨rounds, hrun⟩ := hbegins.deserializeWith hfour haccepted hlong
    have hread : fresh.deserialize start = finish (addBlocks blocks (openedHeader start), rest) := by
      rw [← deserializeWith_wrappingSub, hrun _ subtracts_wrappingSub, deserializeBlocksWith_done, ok_bind]
    have hstored := four_le_storedLength hfour (blocks.flatMap (RfbWireBlock.calls · (reportTime start)))
    rw [← common_length_addBlocks] at hstored ⊢
    have hcheck : 3 ≤ (addBlocks blocks (openedHeader start)).common.length := by
      rw [UInt16.le_iff_toNat_le]
      simp only [UInt16.reduceToNat]
      omega
    have hexact := h.exact
    have hfinish := finish_settles (addBlocks blocks (openedHeader start), rest)
    obtain ⟨size, hsize⟩ : ∃ size, finish (addBlocks blocks (openedHeader start), rest) =
        .ok (size, addBlocks blocks (openedHeader start), rest) :=
      ⟨_, by rw [finish, getSerializedSize, check_of hcheck]; rfl⟩
    rw [hread, hsize] at hexact
    rw [hsize] at hfinish
    obtain ⟨hreturned, htaken⟩ := hexact
    obtain ⟨-, htold, -⟩ := hfinish
    dsimp only at hreturned htaken htold
    refine ⟨(totalSize_octets blocks).2.mp ?_, ?_⟩
    · have hleft := hbegins.left
      have hge := packetLen_ge hfour
      have hdrop := congrArg List.length hbegins.octets
      rw [List.length_drop, List.length_append, htaken.length] at hdrop
      omega
    · apply UInt16.toNat_inj.mp
      have hfield : packetLen start = 4 * ((wordAt start 2).toNat + 1) := rfl
      omega
  room := by
    intro blocks rest n hbegins hge b more hrest htime
    by_contra hover
    have hlong := hbegins.long (.inr (by rw [hrest, List.length_append, b.length_octets]; omega))
    obtain ⟨rounds, hrun⟩ := hbegins.deserializeWith hfour haccepted hlong
    have htime' : InTime (addBlocks blocks (openedHeader start)).reportTimeMs b.metrics := by
      rw [reportTimeMs_addBlocks]
      exact htime
    have hstrict : fresh.deserializeWith strictSub start = .error .emptyQueue := by
      rw [hrun _ subtracts_strictSub, hrest,
        deserializeBlocksWith_overrun hbegins.lt hge (hbegins.mod_four hfour) htime' (Nat.lt_of_not_le hover)]
      rfl
    have hexact := h.exact
    rw [← h.noUnderflow _ subtracts_strictSub, hstrict] at hexact
    exact hexact
  uncut := by
    intro hlt blocks rest n hbegins hge hcut
    have hlength : (start.take (packetLen start)).length = packetLen start := List.length_take_of_le hlt.le
    have hlong := packetLen_ge hfour
    obtain ⟨rounds, hrun⟩ := hbegins.deserializeWith (by rwa [wordAt_packet])
      ((accepted_packet (by omega)).mpr haccepted) (by rwa [hlength])
    have hcut' : CutOff (addBlocks blocks (openedHeader (start.take (packetLen start)))).reportTimeMs rest := by
      rw [reportTimeMs_addBlocks]
      change CutOff (reportTime (start.take (packetLen start))) rest
      rwa [reportTime_packet (by omega)]
    refine h.within hlt ?_
    rw [← deserializeWith_wrappingSub, hrun _ subtracts_wrappingSub,
      deserializeBlocksWith_cutOff subtracts_wrappingSub hbegins.lt hge hcut']
    rfl

private theorem ConsumesPacket.consumable (h : ConsumesPacket start) : Consumable start where
  zero := by
    intro hzero
    by_contra hlong
    have hfour : packetLen start = 4 := by rw [packetLen, hzero]; rfl
    have hlength : (start.take (packetLen start)).length = packetLen start := List.length_take_of_le (by omega)
    refine h.within (by omega) ?_
    rw [← deserializeWith_wrappingSub]
    refine deserializeWith_rejected ?_ _
    rw [openReport_eq, if_neg (by omega)]
  three := by
    intro hthree haccepted
    by_contra hlong
    have hsixteen : packetLen start = 16 := by rw [packetLen, hthree]; rfl
    have hlength : (start.take (packetLen start)).length = packetLen start := List.length_take_of_le (by omega)
    refine h.within (by omega) ?_
    rw [← deserializeWith_wrappingSub]
    exact deserializeWith_rejected (((accepted_packet (by omega)).mpr haccepted).openReport_short (by omega) (by omega)) _
  blocks := h.fits

/-- A buffer is read as it should be exactly when its length field counts the fixed part, or the
reading does not come to what it does not count, and nothing goes wrong with its report blocks. -/
theorem consumesPacket_iff (start : Octets) : ConsumesPacket start ↔ Consumable start :=
  ⟨ConsumesPacket.consumable, Consumable.consumes⟩

end Reading

/-- The report of one packet, of 32 octets, is accepted without the last two, which are padding.
With a length of 28 octets, it takes the length below zero and is read to its end and further. -/
theorem consumesPacket_fails :
    (∃ h, fresh.deserialize [0x8e, 205, 0, 7, 0, 0, 0, 1, 0, 0, 0, 0, 0, 0, 0, 9, 0, 0, 0, 0,
        0, 0, 0, 7, 0, 1, 0, 10, 0xa0, 4, 0, 0] = .ok (32, h, [0, 0])) ∧
      ¬ ConsumesPacket [0x8e, 205, 0, 7, 0, 0, 0, 1, 0, 0, 0, 0, 0, 0, 0, 9, 0, 0, 0, 0,
        0, 0, 0, 7, 0, 1, 0, 10, 0xa0, 4, 0, 0] ∧
      fresh.deserializeWith strictSub [0x8e, 205, 0, 6, 0, 0, 0, 1, 0, 0, 0, 0, 0, 0, 0, 9, 0, 0, 0, 0,
        0, 0, 0, 7, 0, 1, 0, 10, 0xa0, 4, 0, 0] = .error .emptyQueue ∧
      ¬ ConsumesPacket [0x8e, 205, 0, 6, 0, 0, 0, 1, 0, 0, 0, 0, 0, 0, 0, 9, 0, 0, 0, 0,
        0, 0, 0, 7, 0, 1, 0, 10, 0xa0, 4, 0, 0] := by
  have hrun : (fresh.deserialize [0x8e, 205, 0, 7, 0, 0, 0, 1, 0, 0, 0, 0, 0, 0, 0, 9, 0, 0, 0, 0,
      0, 0, 0, 7, 0, 1, 0, 10, 0xa0, 4, 0, 0]).map (fun read => (read.1, read.2.2)) = .ok (32, [0, 0]) := by
    decide +kernel
  have hstrict : (fresh.deserializeWith strictSub [0x8e, 205, 0, 6, 0, 0, 0, 1, 0, 0, 0, 0, 0, 0, 0, 9, 0, 0, 0, 0,
      0, 0, 0, 7, 0, 1, 0, 10, 0xa0, 4, 0, 0]) = .error .emptyQueue := by decide +kernel
  obtain ⟨⟨size, h, rest⟩, hread, hfacts⟩ := map_eq_ok.mp hrun
  obtain ⟨rfl, rfl⟩ : size = 32 ∧ rest = [0, 0] := Prod.mk.inj hfacts
  refine ⟨⟨h, hread⟩, fun hconsumes => ?_, hstrict, fun hconsumes => ?_⟩
  · have hexact := hconsumes.exact
    rw [hread] at hexact
    have hlength : (32 : Nat) = 32 + 2 := hexact.2.length
    exact absurd hlength (by decide)
  · have hexact := hconsumes.exact
    rw [← hconsumes.noUnderflow _ subtracts_strictSub, hstrict] at hexact
    exact hexact

end RfbHeader

end Ns3Rmcat.Header
