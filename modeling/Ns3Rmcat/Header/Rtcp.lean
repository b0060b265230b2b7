import Ns3Rmcat.Lib.Reader

/-! The common RTCP header, and the two octets of one metric block, which both
feedback headers write and read in the same way. -/
namespace Ns3Rmcat.Header
open Lib

def rtpVersion : UInt8 := 2
def rtpFb : UInt8 := 205
def rtcpRtpfbRfb : UInt8 := 14
def rtcpRtpfbCc : UInt8 := 15

def rtpHdrSetBit (val pos : UInt8) (bit : Bool) : UInt8 :=
  if bit then val ||| (1 <<< pos) else val &&& ~~~(1 <<< pos)

def rtpHdrGetBit (val pos : UInt8) : Bool := (val &&& (1 <<< pos)) != 0

structure RtcpHeader where
  padding : Bool := false
  typeOrCnt : UInt8 := 0
  packetType : UInt8 := 0
  length : UInt16 := 1
  sendSsrc : UInt32 := 0
  deriving DecidableEq, Repr

namespace RtcpHeader

def setSendSsrc (h : RtcpHeader) (sendSsrc : UInt32) : RtcpHeader := { h with sendSsrc }

def firstOctet (h : RtcpHeader) : UInt8 :=
  rtpHdrSetBit ((0 : UInt8) ||| (rtpVersion <<< 6)) 5 h.padding ||| (h.typeOrCnt &&& 0x1f)

def serializeCommon (h : RtcpHeader) : Checked Octets := do
  check (h.typeOrCnt ≤ 0x1f)
  return writeU8 h.firstOctet ++ (writeU8 h.packetType ++ (writeHtonU16 h.length ++ writeHtonU32 h.sendSsrc))

/-- The size is asked for at the end, and the function that tells it is virtual: it is
the one of the header that is being read. -/
def deserializeCommon (getSerializedSize : RtcpHeader → Checked UInt32) (start : Octets) :
    Checked (RtcpHeader × Octets) := do
  let (octet1, start) ← readU8 start
  let version := octet1 >>> 6
  let (packetType, start) ← readU8 start
  let (length, start) ← readNtohU16 start
  let (sendSsrc, start) ← readNtohU32 start
  let h : RtcpHeader :=
    { padding := rtpHdrGetBit octet1 5, typeOrCnt := octet1 &&& 0x1f, packetType, length, sendSsrc }
  check (version = rtpVersion)
  let _ ← getSerializedSize h
  return (h, start)

def getSerializedSize (_ : RtcpHeader) : UInt32 := 1 + 1 + 2 + 4

def serialize (h : RtcpHeader) : Checked Octets := h.serializeCommon

/-- The number of bytes that is returned, the header, and the octets that were not read. -/
def deserialize (start : Octets) : Checked (UInt32 × RtcpHeader × Octets) := do
  let (h, start) ← deserializeCommon (fun h => .ok h.getSerializedSize) start
  return (h.getSerializedSize, h, start)

/-- The header that the first octets of a buffer make. -/
def commonAt (start : Octets) : RtcpHeader where
  padding := rtpHdrGetBit (start.getD 0 0) 5
  typeOrCnt := start.getD 0 0 &&& 0x1f
  packetType := start.getD 1 0
  length := wordAt start 2
  sendSsrc := longAt start 4

/-- All of the fixed part is read before anything is checked. -/
theorem deserializeCommon_eq (getSerializedSize : RtcpHeader → Checked UInt32) (start : Octets) :
    deserializeCommon getSerializedSize start =
      if 8 ≤ start.length then check (start.getD 0 0 >>> 6 = rtpVersion) >>= fun _ =>
        getSerializedSize (commonAt start) >>= fun _ => .ok (commonAt start, start.drop 8)
      else .error .endOfBuffer := by
  have hgetD : (start.drop 1).getD 0 0 = start.getD 1 0 := by
    simp only [List.getD_eq_getElem?_getD, List.getElem?_drop]
  have hword : wordAt (start.drop 2) 0 = wordAt start 2 := wordAt_drop start 2 0
  have hlong : longAt (start.drop 4) 0 = longAt start 4 := longAt_drop start 4 0
  rw [deserializeCommon, readU8_eq]
  by_cases h1 : 1 ≤ start.length
  · rw [if_pos h1]
    simp only [ok_bind, readU8_eq, List.length_drop, List.drop_drop, hgetD]
    by_cases h2 : 1 ≤ start.length - 1
    · rw [if_pos h2]
      simp only [ok_bind, readNtohU16_eq, List.length_drop, List.drop_drop, hword]
      by_cases h4 : 2 ≤ start.length - 2
      · rw [if_pos h4]
        simp only [ok_bind, readNtohU32_eq, List.length_drop, List.drop_drop, hlong]
        by_cases h8 : 8 ≤ start.length
        · rw [if_pos (show 4 ≤ start.length - 4 by omega), if_pos h8]
          rfl
        · rw [if_neg (show ¬ 4 ≤ start.length - 4 by omega), if_neg h8]
          rfl
      · rw [if_neg h4, if_neg (show ¬ 8 ≤ start.length by omega)]
        rfl
    · rw [if_neg h2, if_neg (show ¬ 8 ≤ start.length by omega)]
      rfl
  · rw [if_neg h1, if_neg (show ¬ 8 ≤ start.length by omega)]
    rfl

/-- The fixed part takes eight octets. What it asks the size for, the size may rely on. -/
theorem deserializeCommon_settles {getSerializedSize : RtcpHeader → Checked UInt32} {least : UInt16}
    (hsize : ∀ h, Settles (getSerializedSize h) fun _ => least ≤ h.length) (start : Octets) :
    Settles (deserializeCommon getSerializedSize start) fun read =>
      Taken 8 start read.2 ∧ read.1.length = wordAt start 2 ∧ least ≤ read.1.length := by
  refine (readU8_settles start).bind fun octet1 h1 => ?_
  refine (readU8_settles octet1.2).bind fun packetType h2 => ?_
  refine (readNtohU16_settles packetType.2).bind fun length h3 => ?_
  refine (readNtohU32_settles length.2).bind fun sendSsrc h4 => ?_
  have hlength : length.1 = wordAt start 2 := by
    rw [h3.2, h2.rest_eq, h1.rest_eq, wordAt_drop, wordAt_drop]
  refine settles_check fun _ => (hsize _).bind fun size hleast => ?_
  exact ⟨h1.trans (h2.trans (h3.1.trans h4)), hlength, hleast⟩

private theorem firstOctet_fields {h : RtcpHeader} (ht : h.typeOrCnt ≤ 0x1f) :
    h.firstOctet >>> 6 = rtpVersion ∧ rtpHdrGetBit h.firstOctet 5 = h.padding ∧
      h.firstOctet &&& 0x1f = h.typeOrCnt := by
  have hfin : ∀ (b : Bool) (t : Fin 32),
      let h : RtcpHeader := { padding := b, typeOrCnt := UInt8.ofNat t }
      h.firstOctet >>> 6 = rtpVersion ∧ rtpHdrGetBit h.firstOctet 5 = b ∧
        h.firstOctet &&& 0x1f = UInt8.ofNat t := by decide +kernel
  have hlt : h.typeOrCnt.toNat < 32 := Nat.lt_succ_of_le ht
  simpa [firstOctet] using hfin h.padding ⟨h.typeOrCnt.toNat, hlt⟩

/-- Reading undoes writing, in a header whose size can be told. -/
theorem deserializeCommon_serializeCommon {h : RtcpHeader} {bytes rest : Octets} {n : UInt32}
    {getSerializedSize : RtcpHeader → Checked UInt32} (hbytes : h.serializeCommon = .ok bytes)
    (hsize : getSerializedSize h = .ok n) :
    deserializeCommon getSerializedSize (bytes ++ rest) = .ok (h, rest) := by
  obtain ⟨ht, hb⟩ := check_bind_eq_ok.mp hbytes
  cases hb
  obtain ⟨hversion, hpadding, htype⟩ := firstOctet_fields ht
  simp only [deserializeCommon, writeU8, List.append_assoc, List.cons_append, List.nil_append, readU8_cons,
    ok_bind, readNtohU16_write, readNtohU32_write, hversion, hpadding, htype, check_of, hsize, pure_eq_ok]

theorem length_serializeCommon {h : RtcpHeader} {bytes : Octets} (hbytes : h.serializeCommon = .ok bytes) :
    bytes.length = 8 := by
  obtain ⟨-, hb⟩ := check_bind_eq_ok.mp hbytes
  cases hb
  rfl

end RtcpHeader

/-- The octets of a packet that was not received, or of one with its ECN and offset. -/
def metricOctets : Option (UInt8 × UInt16) → Octets
  | none => writeU8 (rtpHdrSetBit 0 7 false) ++ writeU8 0
  | some (ecn, ato) =>
    writeU8 (rtpHdrSetBit 0 7 true ||| ((ecn &&& 0x03) <<< 5) ||| (ato >>> 8).toUInt8) ++
      writeU8 ((0 : UInt8) ||| (ato &&& 0xff).toUInt8)

/-- What a metric block reads from its two octets. -/
def parseMetric (octet1 octet2 : UInt8) : Option (UInt8 × UInt16) :=
  if rtpHdrGetBit octet1 7 then
    some ((octet1 >>> 5) &&& 0x03, ((octet1.toUInt16 <<< 8) &&& (0x1f00 : UInt16)) ||| octet2.toUInt16)
  else none

/-- A metric block that its two octets have room for. -/
def MetricFits : Option (UInt8 × UInt16) → Prop
  | none => True
  | some (ecn, ato) => ecn ≤ 0x03 ∧ ato ≤ 0x1fff

@[simp] theorem length_metricOctets (metric : Option (UInt8 × UInt16)) : (metricOctets metric).length = 2 := by
  cases metric <;> rfl

private theorem firstMetricOctet_fields {ecn hi : UInt8} (he : ecn ≤ 0x03) (hh : hi ≤ 0x1f) :
    let octet1 := rtpHdrSetBit 0 7 true ||| ((ecn &&& 0x03) <<< 5) ||| hi
    rtpHdrGetBit octet1 7 = true ∧ (octet1 >>> 5) &&& 0x03 = ecn ∧
      (octet1.toUInt16 <<< 8) &&& (0x1f00 : UInt16) = hi.toUInt16 <<< 8 := by
  have hfin : ∀ (e : Fin 4) (h : Fin 32),
      let octet1 := rtpHdrSetBit 0 7 true ||| ((UInt8.ofNat e &&& 0x03) <<< 5) ||| UInt8.ofNat h
      rtpHdrGetBit octet1 7 = true ∧ (octet1 >>> 5) &&& 0x03 = UInt8.ofNat e ∧
        (octet1.toUInt16 <<< 8) &&& (0x1f00 : UInt16) = (UInt8.ofNat h).toUInt16 <<< 8 := by decide +kernel
  have hecn : ecn.toNat < 4 := Nat.lt_succ_of_le he
  have hhi : hi.toNat < 32 := Nat.lt_succ_of_le hh
  simpa using hfin ⟨ecn.toNat, hecn⟩ ⟨hi.toNat, hhi⟩

/-- Reading a metric block undoes writing it. -/
theorem parseMetric_metricOctets {metric : Option (UInt8 × UInt16)} (hfits : MetricFits metric) :
    ∃ octet1 octet2, metricOctets metric = [octet1, octet2] ∧ parseMetric octet1 octet2 = metric := by
  cases metric with
  | none => exact ⟨_, _, rfl, rfl⟩
  | some pair =>
    obtain ⟨ecn, ato⟩ := pair
    obtain ⟨he, ha⟩ := hfits
    have hhi : (ato >>> 8).toUInt8 ≤ 0x1f := by
      rw [UInt16.le_iff_toNat_le] at ha
      rw [UInt8.le_iff_toNat_le]
      simp only [UInt16.toNat_toUInt8, UInt16.toNat_shiftRight, UInt16.reduceToNat, UInt8.reduceToNat,
        Nat.shiftRight_eq_div_pow, Nat.reduceMod, Nat.reducePow] at ha ⊢
      omega
    obtain ⟨hbit, hecn, hato⟩ := firstMetricOctet_fields he hhi
    refine ⟨_, _, rfl, ?_⟩
    have hlow : ((0 : UInt8) ||| (ato &&& 0xff).toUInt8) = ato.toUInt8 := by
      rw [UInt8.zero_or, UInt16.toUInt8_and]
      exact UInt8.and_neg_one
    simp only [parseMetric, hbit, if_true, hecn, hato, hlow, join_halves16]

/-- The octets of the metric blocks for some numbers of a report block. -/
def writeMetrics {M : Type} (metricOf : Option M → Checked (Option (UInt8 × UInt16)))
    (rb : Std.ExtTreeMap UInt16 M) : List UInt16 → Checked Octets
  | [] => .ok []
  | seq :: seqs => do
    let metric ← metricOf rb[seq]?
    let rest ← writeMetrics metricOf rb seqs
    return metricOctets metric ++ rest

theorem length_writeMetrics {M : Type} {metricOf : Option M → Checked (Option (UInt8 × UInt16))}
    {rb : Std.ExtTreeMap UInt16 M} {seqs : List UInt16} {bytes : Octets}
    (hbytes : writeMetrics metricOf rb seqs = .ok bytes) : bytes.length = 2 * seqs.length := by
  induction seqs generalizing bytes with
  | nil =>
    cases hbytes
    rfl
  | cons seq seqs ih =>
    obtain ⟨metric, -, hrest⟩ := bind_eq_ok.mp hbytes
    obtain ⟨rest, hr, he⟩ := bind_eq_ok.mp hrest
    cases he
    rw [List.length_append, length_metricOctets, ih hr, List.length_cons]
    omega

/-- Metric blocks can be written when each of them can. -/
theorem returns_writeMetrics {M : Type} {metricOf : Option M → Checked (Option (UInt8 × UInt16))}
    {rb : Std.ExtTreeMap UInt16 M} {seqs : List UInt16} :
    Returns (writeMetrics metricOf rb seqs) ↔ ∀ seq ∈ seqs, Returns (metricOf rb[seq]?) := by
  induction seqs with
  | nil => simp [writeMetrics]
  | cons seq seqs ih =>
    rw [List.forall_mem_cons, ← ih, writeMetrics, returns_bind]
    constructor
    · rintro ⟨metric, hmetric, hrest⟩
      exact ⟨⟨metric, hmetric⟩, returns_bind_ok.mp hrest⟩
    · rintro ⟨⟨metric, hmetric⟩, hrest⟩
      exact ⟨metric, hmetric, returns_bind_ok.mpr hrest⟩

def octetPairs (metrics : List (UInt8 × UInt8)) : Octets := metrics.flatMap fun octets => [octets.1, octets.2]

theorem octetPairs_cons (octets : UInt8 × UInt8) (metrics : List (UInt8 × UInt8)) :
    octetPairs (octets :: metrics) = octets.1 :: octets.2 :: octetPairs metrics := rfl

@[simp] theorem length_octetPairs (metrics : List (UInt8 × UInt8)) :
    (octetPairs metrics).length = 2 * metrics.length := by
  induction metrics with
  | nil => rfl
  | cons octets metrics ih =>
    rw [octetPairs_cons, List.length_cons, List.length_cons, ih, List.length_cons]
    omega

theorem octetPairs_inj {metrics metrics' : List (UInt8 × UInt8)} (h : octetPairs metrics = octetPairs metrics') :
    metrics = metrics' := by
  induction metrics generalizing metrics' with
  | nil =>
    cases metrics' with
    | nil => rfl
    | cons octets metrics' => cases h
  | cons octets metrics ih =>
    cases metrics' with
    | nil => cases h
    | cons octets' metrics' =>
      rw [octetPairs_cons, octetPairs_cons, List.cons.injEq, List.cons.injEq] at h
      exact congrArg₂ _ (Prod.ext h.1 h.2.1) (ih h.2.2)

/-- Octets of which there is an even number are those of metric blocks. -/
theorem exists_octetPairs {n : Nat} {s : Octets} (h : s.length = 2 * n) :
    ∃ metrics : List (UInt8 × UInt8), metrics.length = n ∧ s = octetPairs metrics := by
  induction n generalizing s with
  | zero => exact ⟨[], rfl, List.length_eq_zero_iff.mp h⟩
  | succ n ih =>
    match s with
    | [] => cases h
    | [_] => simp only [List.length_cons, List.length_nil] at h; omega
    | octet1 :: octet2 :: s =>
      obtain ⟨metrics, rfl, rfl⟩ := ih (s := s) (by simp only [List.length_cons] at h; omega)
      exact ⟨(octet1, octet2) :: metrics, rfl, rfl⟩

/-- The octets that follow a report block of so many metric blocks. -/
def paddingOf (count : UInt16) : Octets := if count % 2 = 1 then writeHtonU16 0 else []

theorem odd_iff (count : UInt16) : count % 2 = 1 ↔ count.toNat % 2 = 1 := by
  rw [← UInt16.toNat_inj]
  simp

theorem paddingOf_even {count : UInt16} (h : count.toNat % 2 = 0) : paddingOf count = [] := by
  refine if_neg fun hodd => ?_
  rw [odd_iff] at hodd
  omega

theorem length_paddingOf (count : UInt16) : (paddingOf count).length = 2 * (count.toNat % 2) := by
  unfold paddingOf
  by_cases hodd : count % 2 = 1
  · rw [if_pos hodd, length_writeHtonU16, (odd_iff count).mp hodd]
  · rw [if_neg hodd, List.length_nil]
    rw [odd_iff] at hodd
    omega

end Ns3Rmcat.Header
