import Ns3Rmcat.Header.Rtp
import Ns3Rmcat.Lib.OrderedMap

/-! Writing and reading RTP headers and common RTCP headers: reading gives back every field of a
header that was written, and writing gives back every octet of one that was read. -/
namespace Ns3Rmcat.Header
open Lib

/-- What is written of a header is read as the same header, up to its last octet and no further. -/
def ReadsBack {H : Type} (serialize : Checked Octets) (getSerializedSize : Checked UInt32)
    (deserialize : Octets → Checked (UInt32 × H × Octets)) (h : H) : Prop :=
  ∃ bytes n, serialize = .ok bytes ∧ getSerializedSize = .ok n ∧ n.toNat = bytes.length ∧
    ∀ rest, deserialize (bytes ++ rest) = .ok (n, h, rest)

/-- The header that is read from some octets is written as the same octets. -/
def WritesBack {H : Type} (serialize : H → Checked Octets) (deserialize : Octets → Checked (UInt32 × H × Octets))
    (bytes : Octets) : Prop :=
  ∃ n h, n.toNat = bytes.length ∧ serialize h = .ok bytes ∧ ∀ rest, deserialize (bytes ++ rest) = .ok (n, h, rest)

namespace RtcpHeader

/-- The octets of a common header. -/
structure IsHeader (bytes : Octets) : Prop where
  length : bytes.length = 8
  version : bytes.getD 0 0 >>> 6 = rtpVersion

private theorem readsBack {h : RtcpHeader} (htype : h.typeOrCnt ≤ 0x1f) :
    ReadsBack h.serialize (.ok h.getSerializedSize) deserialize h := by
  obtain ⟨bytes, hbytes⟩ : ∃ bytes, h.serializeCommon = .ok bytes :=
    ⟨_, by rw [serializeCommon, check_of htype]; rfl⟩
  refine ⟨bytes, _, hbytes, rfl, (length_serializeCommon hbytes).symm, fun rest => ?_⟩
  rw [deserialize, deserializeCommon_serializeCommon (n := h.getSerializedSize) hbytes rfl]
  rfl

private theorem firstOctet_read {octet : UInt8} (hversion : octet >>> 6 = rtpVersion) :
    rtpHdrSetBit ((0 : UInt8) ||| (rtpVersion <<< 6)) 5 (rtpHdrGetBit octet 5) ||| (octet &&& 0x1f &&& 0x1f) = octet ∧
      octet &&& 0x1f ≤ 0x1f := by
  have hall : ∀ o : Fin 256, UInt8.ofNat o >>> 6 = rtpVersion →
      rtpHdrSetBit ((0 : UInt8) ||| (rtpVersion <<< 6)) 5 (rtpHdrGetBit (UInt8.ofNat o) 5) |||
        (UInt8.ofNat o &&& 0x1f &&& 0x1f) = UInt8.ofNat o ∧ UInt8.ofNat o &&& 0x1f ≤ 0x1f := by decide +kernel
  simpa using hall ⟨octet.toNat, octet.toNat_lt⟩ (by simpa using hversion)

private theorem writesBack {bytes : Octets} (h : IsHeader bytes) : WritesBack serialize deserialize bytes := by
  obtain ⟨hlength, hversion⟩ := h
  obtain ⟨octet1, packetType, length, sendSsrc, rfl⟩ : ∃ octet1 packetType length sendSsrc,
      bytes = octet1 :: packetType :: (writeHtonU16 length ++ writeHtonU32 sendSsrc) := by
    match bytes with
    | [] => cases hlength
    | [_] => cases hlength
    | octet1 :: packetType :: tail =>
      have htail : tail.length = 6 := by simpa using hlength
      have hlong : (tail.drop 2).drop 4 = [] := List.length_eq_zero_iff.mp (by simp [htail])
      refine ⟨octet1, packetType, wordAt tail 0, longAt (tail.drop 2) 0, congrArg _ (congrArg _ ?_)⟩
      have hword := eq_writeHtonU32_append (s := tail.drop 2) (by simp [htail])
      rw [hlong, List.append_nil] at hword
      rw [← hword]
      exact eq_writeHtonU16_append (by omega)
  rw [List.getD_cons_zero] at hversion
  obtain ⟨hoctet, htype⟩ := firstOctet_read hversion
  let h : RtcpHeader :=
    { padding := rtpHdrGetBit octet1 5, typeOrCnt := octet1 &&& 0x1f, packetType, length, sendSsrc }
  refine ⟨h.getSerializedSize, h, by simp [getSerializedSize], ?_, fun rest => ?_⟩
  · rw [serialize, serializeCommon, check_of htype, ok_bind, firstOctet, hoctet]
    rfl
  · simp only [deserialize, deserializeCommon, List.cons_append, List.append_assoc, readU8_cons, ok_bind,
      readNtohU16_write, readNtohU32_write, hversion, check_of, pure_eq_ok, getSerializedSize]
    rfl

end RtcpHeader

namespace RtpHeader

private theorem firstOctet_fields {h : RtpHeader} (hcsrcs : h.csrcs.size ≤ 0x0f) :
    h.firstOctet >>> 6 = rtpVersion ∧ rtpHdrGetBit h.firstOctet 5 = h.padding ∧
      rtpHdrGetBit h.firstOctet 4 = h.extension ∧ (h.firstOctet &&& 0x0f).toNat = h.csrcs.size := by
  have hfin : ∀ (padding extension : Bool) (count : Fin 16),
      let octet := rtpHdrSetBit (rtpHdrSetBit ((0 : UInt8) ||| (rtpVersion <<< 6)) 5 padding) 4 extension |||
        (UInt8.ofNat count &&& 0x0f)
      octet >>> 6 = rtpVersion ∧ rtpHdrGetBit octet 5 = padding ∧ rtpHdrGetBit octet 4 = extension ∧
        (octet &&& 0x0f).toNat = count := by decide +kernel
  exact hfin h.padding h.extension ⟨h.csrcs.size, Nat.lt_succ_of_le hcsrcs⟩

private theorem secondOctet_fields {h : RtpHeader} (htype : h.payloadType ≤ 0x7f) :
    rtpHdrGetBit h.secondOctet 7 = h.marker ∧ h.secondOctet &&& 0x7f = h.payloadType := by
  have hfin : ∀ (marker : Bool) (payloadType : Fin 128),
      let octet := rtpHdrSetBit 0 7 marker ||| (UInt8.ofNat payloadType &&& 0x7f)
      rtpHdrGetBit octet 7 = marker ∧ octet &&& 0x7f = UInt8.ofNat payloadType := by decide +kernel
  have hlt : h.payloadType.toNat < 128 := Nat.lt_succ_of_le (UInt8.le_iff_toNat_le.mp htype)
  simpa [secondOctet] using hfin h.marker ⟨h.payloadType.toNat, hlt⟩

private theorem octets_read {octet1 : UInt8} (octet2 : UInt8) (hversion : octet1 >>> 6 = rtpVersion) :
    rtpHdrSetBit (rtpHdrSetBit ((0 : UInt8) ||| (rtpVersion <<< 6)) 5 (rtpHdrGetBit octet1 5)) 4
        (rtpHdrGetBit octet1 4) ||| (octet1 &&& 0x0f &&& 0x0f) = octet1 ∧ (octet1 &&& 0x0f).toNat ≤ 0x0f ∧
      rtpHdrSetBit 0 7 (rtpHdrGetBit octet2 7) ||| (octet2 &&& 0x7f &&& 0x7f) = octet2 ∧ octet2 &&& 0x7f ≤ 0x7f := by
  have hfirst : ∀ o : Fin 256, UInt8.ofNat o >>> 6 = rtpVersion →
      rtpHdrSetBit (rtpHdrSetBit ((0 : UInt8) ||| (rtpVersion <<< 6)) 5 (rtpHdrGetBit (UInt8.ofNat o) 5)) 4
        (rtpHdrGetBit (UInt8.ofNat o) 4) ||| (UInt8.ofNat o &&& 0x0f &&& 0x0f) = UInt8.ofNat o ∧
          (UInt8.ofNat o &&& 0x0f).toNat ≤ 0x0f := by decide +kernel
  have hsecond : ∀ o : Fin 256, rtpHdrSetBit 0 7 (rtpHdrGetBit (UInt8.ofNat o) 7) |||
      (UInt8.ofNat o &&& 0x7f &&& 0x7f) = UInt8.ofNat o ∧ UInt8.ofNat o &&& 0x7f ≤ 0x7f := by decide +kernel
  have h1 := hfirst ⟨octet1.toNat, octet1.toNat_lt⟩ (by simpa using hversion)
  have h2 := hsecond ⟨octet2.toNat, octet2.toNat_lt⟩
  simp only [UInt8.ofNat_toNat] at h1 h2
  exact ⟨h1.1, h1.2, h2⟩

private theorem deserializeCsrcs_write {l : List UInt32} {csrcs : Std.ExtTreeSet UInt32} (hnodup : l.Nodup)
    (hnew : ∀ csrc ∈ l, csrc ∉ csrcs) (rest : Octets) :
    deserializeCsrcs l.length csrcs (l.flatMap writeHtonU32 ++ rest) =
      .ok (l.foldl (fun csrcs csrc => csrcs.insert csrc) csrcs, rest) := by
  induction l generalizing csrcs with
  | nil => rfl
  | cons csrc l ih =>
    obtain ⟨hfirst, hnodup⟩ := List.nodup_cons.mp hnodup
    have hlacks : csrcs.contains csrc = false := by
      rw [← Bool.not_eq_true, Std.ExtTreeSet.contains_iff_mem]
      exact hnew csrc List.mem_cons_self
    rw [List.length_cons, deserializeCsrcs, List.flatMap_cons, List.append_assoc, readNtohU32_write, ok_bind]
    dsimp only
    rw [check_of hlacks, ok_bind, List.foldl_cons]
    refine ih hnodup fun other hother hmem => ?_
    rcases Std.ExtTreeSet.mem_insert.mp hmem with heq | hold
    · rw [Std.compare_eq_iff_eq] at heq
      exact hfirst (heq ▸ hother)
    · exact hnew other (List.mem_cons_of_mem _ hother) hold

private theorem getSerializedSize_eq {h : RtpHeader} (hcsrcs : h.csrcs.size ≤ 0x0f) :
    ∃ n, h.getSerializedSize = .ok n ∧ n.toNat = 12 + 4 * h.csrcs.size := by
  have hfin : ∀ count : Fin 16, ((2 + 2 + 4 + 4 + (UInt32.ofNat count &&& 0x0f) * 4 : UInt32)).toNat =
      12 + 4 * (count : Nat) := by decide
  refine ⟨_, ?_, hfin ⟨h.csrcs.size, Nat.lt_succ_of_le hcsrcs⟩⟩
  rw [getSerializedSize, check_of hcsrcs]
  rfl

section Octets
variable (octet1 octet2 : UInt8) (sequence : UInt16) (timestamp ssrc : UInt32) (csrcs : List UInt32)

def octetsOf : Octets :=
  octet1 :: octet2 :: (writeHtonU16 sequence ++ (writeHtonU32 timestamp ++ (writeHtonU32 ssrc ++
    csrcs.flatMap writeHtonU32)))

def headerOf : RtpHeader where
  padding := rtpHdrGetBit octet1 5
  extension := rtpHdrGetBit octet1 4
  marker := rtpHdrGetBit octet2 7
  payloadType := octet2 &&& 0x7f
  sequence := sequence
  timestamp := timestamp
  ssrc := ssrc
  csrcs := Std.ExtTreeSet.ofList csrcs

private theorem length_octetsOf :
    (octetsOf octet1 octet2 sequence timestamp ssrc csrcs).length = 12 + 4 * csrcs.length := by
  have hlongs : (csrcs.flatMap writeHtonU32).length = 4 * csrcs.length := by
    induction csrcs with
    | nil => rfl
    | cons csrc csrcs ih =>
      rw [List.flatMap_cons, List.length_append, ih, length_writeHtonU32, List.length_cons]
      omega
  simp only [octetsOf, List.length_cons, List.length_append, length_writeHtonU16, length_writeHtonU32, hlongs]
  omega

variable {octet1 csrcs}

private theorem deserialize_octetsOf (g : RtpHeader) (hversion : octet1 >>> 6 = rtpVersion)
    (hcount : (octet1 &&& 0x0f).toNat = csrcs.length) (hfew : csrcs.length ≤ 0x0f) (hnodup : csrcs.Nodup) :
    ∃ n, n.toNat = 12 + 4 * csrcs.length ∧
      (headerOf octet1 octet2 sequence timestamp ssrc csrcs).getSerializedSize = .ok n ∧
      ∀ rest, g.deserialize (octetsOf octet1 octet2 sequence timestamp ssrc csrcs ++ rest) =
        .ok (n, headerOf octet1 octet2 sequence timestamp ssrc csrcs, rest) := by
  have hsize : (headerOf octet1 octet2 sequence timestamp ssrc csrcs).csrcs.size = csrcs.length :=
    size_ofList_of_nodup hnodup
  obtain ⟨n, hn, hnum⟩ := getSerializedSize_eq (hsize.trans_le hfew)
  rw [hsize] at hnum
  refine ⟨n, hnum, hn, fun rest => ?_⟩
  have hread : deserializeCsrcs csrcs.length ∅ (csrcs.flatMap writeHtonU32 ++ rest) =
      .ok (Std.ExtTreeSet.ofList csrcs, rest) := by
    rw [deserializeCsrcs_write hnodup (fun csrc _ => Std.ExtTreeSet.not_mem_empty), Std.ExtTreeSet.ofList_eq_foldl]
  simp only [deserialize, octetsOf, List.cons_append, List.append_assoc, readU8_cons, ok_bind, readNtohU16_write,
    readNtohU32_write, hcount, hread, hversion, check_of]
  rw [headerOf] at hn
  rw [hn]
  rfl

end Octets

private theorem serialize_eq {h : RtpHeader} (htype : h.payloadType ≤ 0x7f) (hcsrcs : h.csrcs.size ≤ 0x0f) :
    h.serialize = .ok (octetsOf h.firstOctet h.secondOctet h.sequence h.timestamp h.ssrc h.csrcs.toList) := by
  rw [serialize, check_of hcsrcs, check_of htype]
  rfl

private theorem headerOf_octets {h : RtpHeader} (htype : h.payloadType ≤ 0x7f) (hcsrcs : h.csrcs.size ≤ 0x0f) :
    headerOf h.firstOctet h.secondOctet h.sequence h.timestamp h.ssrc h.csrcs.toList = h := by
  obtain ⟨-, hpadding, hextension, -⟩ := firstOctet_fields hcsrcs
  obtain ⟨hmarker, htype'⟩ := secondOctet_fields htype
  simp only [headerOf, hpadding, hextension, hmarker, htype', ofList_toList]

theorem readsBack {h : RtpHeader} (htype : h.payloadType ≤ 0x7f) (hcsrcs : h.csrcs.size ≤ 0x0f) (g : RtpHeader) :
    ReadsBack h.serialize h.getSerializedSize g.deserialize h := by
  have hlength : h.csrcs.toList.length = h.csrcs.size := Std.ExtTreeSet.length_toList
  obtain ⟨hversion, -, -, hcount⟩ := firstOctet_fields hcsrcs
  obtain ⟨n, hnum, hsize, hread⟩ := deserialize_octetsOf h.secondOctet h.sequence h.timestamp h.ssrc g hversion
    (hcount.trans hlength.symm) (hlength.trans_le hcsrcs) (nodup_toList_set h.csrcs)
  rw [headerOf_octets htype hcsrcs] at hsize hread
  exact ⟨_, n, serialize_eq htype hcsrcs, hsize, hnum.trans (length_octetsOf ..).symm, hread⟩

/-- The octets of a header whose sources are in increasing order. -/
structure IsHeader (bytes : Octets) : Prop where
  version : bytes.getD 0 0 >>> 6 = rtpVersion
  length : bytes.length = 12 + 4 * (bytes.getD 0 0 &&& 0x0f).toNat
  increasing : (longsAt bytes 12 (bytes.getD 0 0 &&& 0x0f).toNat).Pairwise (· < ·)

private theorem exists_octetsOf {bytes : Octets} (h : IsHeader bytes) : ∃ octet1 octet2 sequence timestamp ssrc csrcs,
    bytes = octetsOf octet1 octet2 sequence timestamp ssrc csrcs ∧ octet1 >>> 6 = rtpVersion ∧
      csrcs.length = (octet1 &&& 0x0f).toNat ∧ csrcs.Pairwise (· < ·) := by
  obtain ⟨hversion, hlength, hincreasing⟩ := h
  obtain ⟨octet1, tail1, rfl⟩ := List.exists_cons_of_length_pos (l := bytes) (by omega)
  obtain ⟨octet2, tail, rfl⟩ := List.exists_cons_of_length_pos (l := tail1) (by
    rw [List.length_cons] at hlength
    omega)
  simp only [List.getD_cons_zero, List.length_cons] at hversion hlength hincreasing
  refine ⟨octet1, octet2, wordAt tail 0, longAt tail 2, longAt tail 6, longsAt tail 10 (octet1 &&& 0x0f).toNat,
    congrArg _ (congrArg _ ?_), hversion, length_longsAt .., ?_⟩
  · have h1 := eq_writeHtonU16_append (s := tail) (by omega)
    have h2 := eq_writeHtonU32_append (s := tail.drop 2) (by rw [List.length_drop]; omega)
    have h3 := eq_writeHtonU32_append (s := tail.drop 6) (by rw [List.length_drop]; omega)
    have h4 := flatMap_longsAt (s := tail.drop 10) (n := (octet1 &&& 0x0f).toNat) (by rw [List.length_drop]; omega)
    rw [longAt_drop, List.drop_drop] at h2 h3
    rw [longsAt_drop] at h4
    rw [h4, ← h3, ← h2, ← h1]
  · rwa [← longsAt_drop _ 2 10, List.drop_succ_cons, List.drop_succ_cons, List.drop_zero] at hincreasing

private theorem writesBack {bytes : Octets} (h : IsHeader bytes) (g : RtpHeader) :
    WritesBack serialize g.deserialize bytes := by
  obtain ⟨octet1, octet2, sequence, timestamp, ssrc, csrcs, rfl, hversion, hcount, hincreasing⟩ := exists_octetsOf h
  obtain ⟨hoctet1, hfew, hoctet2, htype⟩ := octets_read octet2 hversion
  have hnodup : csrcs.Nodup := hincreasing.imp fun hlt => UInt32.ne_of_lt hlt
  obtain ⟨n, hnum, -, hread⟩ := deserialize_octetsOf octet2 sequence timestamp ssrc g hversion hcount.symm
    (hcount.trans_le hfew) hnodup
  have hsize : (headerOf octet1 octet2 sequence timestamp ssrc csrcs).csrcs.size = csrcs.length :=
    size_ofList_of_nodup hnodup
  have hsorted : (headerOf octet1 octet2 sequence timestamp ssrc csrcs).csrcs.toList = csrcs :=
    toList_ofList (hincreasing.imp fun hlt => Std.compare_eq_lt.mpr hlt)
  refine ⟨n, _, hnum.trans (length_octetsOf ..).symm, ?_, hread⟩
  have hfirst : (headerOf octet1 octet2 sequence timestamp ssrc csrcs).firstOctet = octet1 := by
    rw [firstOctet, hsize, hcount, UInt8.ofNat_toNat]
    exact hoctet1
  rw [serialize_eq htype (hsize.trans_le (hcount.trans_le hfew)), hsorted, hfirst,
    show (headerOf octet1 octet2 sequence timestamp ssrc csrcs).secondOctet = octet2 from hoctet2]
  rfl

end RtpHeader

/-- Reading undoes writing and writing undoes reading, for RTP headers and common RTCP headers. -/
theorem headers_round_trip :
    (∀ (h g : RtpHeader), h.payloadType ≤ 127 → h.csrcs.size ≤ 15 →
      ReadsBack h.serialize h.getSerializedSize g.deserialize h) ∧
    (∀ h : RtcpHeader, h.typeOrCnt ≤ 31 → ReadsBack h.serialize (.ok h.getSerializedSize) RtcpHeader.deserialize h) ∧
    (∀ (bytes : Octets) (g : RtpHeader), RtpHeader.IsHeader bytes →
      WritesBack RtpHeader.serialize g.deserialize bytes) ∧
    ∀ bytes : Octets, RtcpHeader.IsHeader bytes → WritesBack RtcpHeader.serialize RtcpHeader.deserialize bytes :=
  ⟨fun _ g htype hcsrcs => RtpHeader.readsBack htype hcsrcs g, fun _ htype => RtcpHeader.readsBack htype,
    fun _ g h => RtpHeader.writesBack h g, fun _ h => RtcpHeader.writesBack h⟩

/-- A media packet with two contributing sources, a feedback packet, and octets of both kinds. -/
theorem headers_round_trip_media :
    (let media : RtpHeader := { RtpHeader.ofPayloadType 96 with marker := true, csrcs := .ofList [(9 : UInt32), 5] }
     ReadsBack media.serialize media.getSerializedSize RtpHeader.fresh.deserialize media) ∧
    (let feedback : RtcpHeader := { typeOrCnt := 15, packetType := rtpFb }
     ReadsBack feedback.serialize (.ok feedback.getSerializedSize) RtcpHeader.deserialize feedback) ∧
    WritesBack RtpHeader.serialize RtpHeader.fresh.deserialize
      [0xb1, 0xe0, 0, 1, 0, 0, 0, 2, 0, 0, 0, 3, 0, 0, 0, 4] ∧
    WritesBack RtcpHeader.serialize RtcpHeader.deserialize [0xaf, 205, 0, 1, 0, 0, 0, 7] :=
  ⟨headers_round_trip.1 _ _ (by decide) (by
      rw [size_ofList_of_nodup (by decide)]
      decide),
    headers_round_trip.2.1 _ (by decide),
    headers_round_trip.2.2.1 _ _ ⟨by decide, by decide, by decide⟩,
    headers_round_trip.2.2.2 _ ⟨by decide, by decide⟩⟩

end Ns3Rmcat.Header
