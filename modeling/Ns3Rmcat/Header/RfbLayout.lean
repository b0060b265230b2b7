import Ns3Rmcat.Header.CCFeedbackParse
import Ns3Rmcat.Header.RfbReading
import Ns3Rmcat.Header.RfbSize

/-! Any octets read as report blocks of an RTP feedback header: as many whole blocks as have room
in the length that is left, and one of four ends. -/
namespace Ns3Rmcat.Header
open Lib
open CCFeedbackHeader (Subtracts)

/-- A report block as it is read: its last number, and a metric block for each number up to that.
The padding of an odd number of metric blocks is counted, but it is not read. -/
structure RfbWireBlock where
  ssrc : UInt32
  endSeq : UInt16
  metrics : List (UInt8 × UInt8)
  few : metrics.length ≤ 65535

/-- The eight octets before the metric blocks. -/
def blockHead (ssrc : UInt32) (count endSeq : UInt16) : Octets :=
  writeHtonU32 ssrc ++ (writeHtonU16 count ++ writeHtonU16 endSeq)

@[simp] theorem length_blockHead (ssrc : UInt32) (count endSeq : UInt16) : (blockHead ssrc count endSeq).length = 8 := rfl

/-- None of the offsets goes back further than the time of the report. -/
def InTime (time : UInt64) (metrics : List (UInt8 × UInt8)) : Prop :=
  ∀ octets ∈ metrics, ∀ metric ∈ parseMetric octets.1 octets.2, metric.2.toUInt64 ≤ time

/-- What is added for metric blocks of some numbers of an SSRC. -/
def metricCalls (ssrc : UInt32) (time : UInt64) (seqs : List UInt16) (metrics : List (UInt8 × UInt8)) : List RfbCall :=
  (seqs.zip metrics).filterMap fun entry => (parseMetric entry.2.1 entry.2.2).map fun metric =>
    .addFeedback ssrc entry.1 (time - metric.2.toUInt64) metric.1

namespace RfbWireBlock

def count (b : RfbWireBlock) : UInt16 := UInt16.ofNat b.metrics.length

private theorem toNat_count (b : RfbWireBlock) : b.count.toNat = b.metrics.length := by
  have hfew := b.few
  rw [count, UInt16.toNat_ofNat']
  omega

def octets (b : RfbWireBlock) : Octets := blockHead b.ssrc b.count b.endSeq ++ octetPairs b.metrics

theorem length_octets (b : RfbWireBlock) : b.octets.length = 8 + 2 * b.metrics.length := by
  rw [octets, List.length_append, length_blockHead, length_octetPairs]

/-- What the length counts for the block. -/
def size (b : RfbWireBlock) : Nat := blockLen b.metrics.length

def calls (b : RfbWireBlock) (time : UInt64) : List RfbCall :=
  metricCalls b.ssrc time (RfbHeader.windowSeqs (b.count, b.endSeq)) b.metrics

end RfbWireBlock

def totalSize (blocks : List RfbWireBlock) : Nat := (blocks.map RfbWireBlock.size).sum

private theorem totalSize_cons (b : RfbWireBlock) (blocks : List RfbWireBlock) :
    totalSize (b :: blocks) = b.size + totalSize blocks := by
  rw [totalSize, List.map_cons, List.sum_cons, totalSize]

theorem flatMap_octets_ge (blocks : List RfbWireBlock) :
    8 * blocks.length ≤ (blocks.flatMap RfbWireBlock.octets).length := by
  induction blocks with
  | nil => simp
  | cons b blocks ih =>
    rw [List.flatMap_cons, List.length_append, b.length_octets, List.length_cons]
    omega

/-- The padding is counted and not read: blocks have as many octets as are counted when none of
them is padded. -/
theorem totalSize_octets (blocks : List RfbWireBlock) :
    (blocks.flatMap RfbWireBlock.octets).length ≤ totalSize blocks ∧
      ((blocks.flatMap RfbWireBlock.octets).length = totalSize blocks ↔ ∀ b ∈ blocks, b.metrics.length % 2 = 0) := by
  induction blocks with
  | nil => simp [totalSize]
  | cons b blocks ih =>
    obtain ⟨hle, heq⟩ := ih
    have hsize : b.size = 8 + (b.metrics.length + b.metrics.length % 2) * 2 := rfl
    rw [List.flatMap_cons, List.length_append, b.length_octets, totalSize_cons, hsize, List.forall_mem_cons, ← heq]
    constructor <;> omega

theorem totalSize_mod_four (blocks : List RfbWireBlock) : totalSize blocks % 4 = 0 := by
  induction blocks with
  | nil => rfl
  | cons b blocks ih =>
    have hsize : b.size = 8 + (b.metrics.length + b.metrics.length % 2) * 2 := rfl
    rw [totalSize_cons, hsize]
    omega

namespace RfbHeader

/-- A header to which everything has been added that some blocks tell. -/
def addBlocks (blocks : List RfbWireBlock) (g : RfbHeader) : RfbHeader :=
  (blocks.flatMap (RfbWireBlock.calls · g.reportTimeMs)).foldl apply g

private theorem reportTimeMs_metricCalls (ssrc : UInt32) (time : UInt64) (seqs : List UInt16)
    (metrics : List (UInt8 × UInt8)) (g : RfbHeader) :
    ((metricCalls ssrc time seqs metrics).foldl apply g).reportTimeMs = g.reportTimeMs := by
  unfold metricCalls
  induction seqs.zip metrics generalizing g with
  | nil => rfl
  | cons entry entries ih =>
    rw [List.filterMap_cons]
    cases parseMetric entry.2.1 entry.2.2 with
    | none => exact ih g
    | some metric => exact (ih _).trans (reportTimeMs_addFeedback ..)

private theorem addBlocks_singleton (b : RfbWireBlock) (g : RfbHeader) :
    addBlocks [b] g = (b.calls g.reportTimeMs).foldl apply g := by
  rw [addBlocks, List.flatMap_singleton]

private theorem reportTimeMs_addBlocks_singleton (b : RfbWireBlock) (g : RfbHeader) :
    (addBlocks [b] g).reportTimeMs = g.reportTimeMs := by
  rw [addBlocks_singleton]
  exact reportTimeMs_metricCalls ..

private theorem addBlocks_cons (b : RfbWireBlock) (blocks : List RfbWireBlock) (g : RfbHeader) :
    addBlocks (b :: blocks) g = addBlocks blocks (addBlocks [b] g) := by
  have htime := reportTimeMs_addBlocks_singleton b g
  rw [addBlocks_singleton] at htime ⊢
  rw [addBlocks, List.flatMap_cons, List.foldl_append, addBlocks, htime]

theorem reportTimeMs_addBlocks (blocks : List RfbWireBlock) (g : RfbHeader) :
    (addBlocks blocks g).reportTimeMs = g.reportTimeMs := by
  induction blocks generalizing g with
  | nil => rfl
  | cons b blocks ih => rw [addBlocks_cons, ih, reportTimeMs_addBlocks_singleton]

private theorem deserializeMetrics_append {ssrc : UInt32} {seqs : List UInt16} {metrics : List (UInt8 × UInt8)}
    {g : RfbHeader}
    (hlength : seqs.length = metrics.length) (htime : InTime g.reportTimeMs metrics) (more : List UInt16)
    (rest : Octets) :
    deserializeMetrics ssrc (seqs ++ more) g (octetPairs metrics ++ rest) =
      deserializeMetrics ssrc more ((metricCalls ssrc g.reportTimeMs seqs metrics).foldl apply g) rest := by
  induction seqs generalizing metrics g with
  | nil =>
    obtain rfl := List.length_eq_zero_iff.mp hlength.symm
    rfl
  | cons seq seqs ih =>
    cases metrics with
    | nil => cases hlength
    | cons octets metrics =>
      have hlength' : seqs.length = metrics.length := Nat.succ.inj hlength
      have htime' : InTime g.reportTimeMs metrics := fun octets ho => htime octets (List.mem_cons_of_mem _ ho)
      rw [List.cons_append, octetPairs_cons, List.cons_append, List.cons_append, deserializeMetrics]
      simp only [readU8_cons, ok_bind, metricCalls, List.zip_cons_cons, List.filterMap_cons]
      cases hparse : parseMetric octets.1 octets.2 with
      | none => exact ih hlength' htime'
      | some metric =>
        obtain ⟨ecn, ato⟩ := metric
        have hle : ato.toUInt64 ≤ g.reportTimeMs := htime octets List.mem_cons_self (ecn, ato) hparse
        have hread := ih (g := (g.addFeedback ssrc seq (g.reportTimeMs - ato.toUInt64) ecn).2) hlength'
          (by rwa [reportTimeMs_addFeedback])
        rw [reportTimeMs_addFeedback] at hread
        simp only [atoToTs, check_of hle, ok_bind, pure_eq_ok, Option.map_some, List.foldl_cons]
        exact hread

private theorem deserializeMetrics_inTime {ssrc : UInt32} {seqs : List UInt16} {metrics : List (UInt8 × UInt8)}
    {g : RfbHeader} (hlength : seqs.length = metrics.length) (htime : InTime g.reportTimeMs metrics) (rest : Octets) :
    deserializeMetrics ssrc seqs g (octetPairs metrics ++ rest) =
      .ok ((metricCalls ssrc g.reportTimeMs seqs metrics).foldl apply g, rest) := by
  have hread : deserializeMetrics ssrc (seqs ++ []) g (octetPairs metrics ++ rest) = _ :=
    deserializeMetrics_append hlength htime [] rest
  rwa [List.append_nil] at hread

private theorem deserializeMetrics_cut {ssrc : UInt32} {seqs : List UInt16} {metrics : List (UInt8 × UInt8)}
    {g : RfbHeader} {last : Octets} (hlength : metrics.length < seqs.length) (htime : InTime g.reportTimeMs metrics)
    (hlast : last.length < 2) :
    deserializeMetrics ssrc seqs g (octetPairs metrics ++ last) = .error .endOfBuffer := by
  have htake : (seqs.take metrics.length).length = metrics.length := List.length_take_of_le hlength.le
  rw [← List.take_append_drop metrics.length seqs, deserializeMetrics_append htake htime]
  obtain ⟨seq, more, hmore⟩ := List.exists_cons_of_length_pos (l := seqs.drop metrics.length)
    (by rw [List.length_drop]; omega)
  rw [hmore, deserializeMetrics]
  rcases last with - | ⟨octet1, - | ⟨octet2, last⟩⟩
  · rfl
  · rfl
  · simp only [List.length_cons] at hlast
    omega

/-- Some octets have metric blocks in time for all the numbers, or end before that, or there is
an offset that goes back too far. -/
private theorem deserializeMetrics_classify (ssrc : UInt32) (seqs : List UInt16) (g : RfbHeader) (start : Octets) :
    (∃ metrics rest, metrics.length = seqs.length ∧ start = octetPairs metrics ++ rest ∧ InTime g.reportTimeMs metrics) ∨
    (∃ metrics last, metrics.length < seqs.length ∧ start = octetPairs metrics ++ last ∧ last.length < 2 ∧
      InTime g.reportTimeMs metrics) ∨
    deserializeMetrics ssrc seqs g start = .error .assertion := by
  induction seqs generalizing g start with
  | nil => exact .inl ⟨[], start, rfl, rfl, by simp [InTime]⟩
  | cons seq seqs ih =>
    match start with
    | [] => exact .inr (.inl ⟨[], [], Nat.succ_pos _, rfl, Nat.two_pos, by simp [InTime]⟩)
    | [octet] => exact .inr (.inl ⟨[], [octet], Nat.succ_pos _, rfl, Nat.one_lt_two, by simp [InTime]⟩)
    | octet1 :: octet2 :: start =>
      -- What is known of the rest is known of all, when the first metric block is in time.
      have hcons {g' : RfbHeader} (htime : g'.reportTimeMs = g.reportTimeMs)
          (hfirst : ∀ metric ∈ parseMetric octet1 octet2, metric.2.toUInt64 ≤ g.reportTimeMs)
          (hread : deserializeMetrics ssrc (seq :: seqs) g (octet1 :: octet2 :: start) =
            deserializeMetrics ssrc seqs g' start) :
          (∃ metrics rest, metrics.length = (seq :: seqs).length ∧
            octet1 :: octet2 :: start = octetPairs metrics ++ rest ∧ InTime g.reportTimeMs metrics) ∨
          (∃ metrics last, metrics.length < (seq :: seqs).length ∧
            octet1 :: octet2 :: start = octetPairs metrics ++ last ∧ last.length < 2 ∧ InTime g.reportTimeMs metrics) ∨
          deserializeMetrics ssrc (seq :: seqs) g (octet1 :: octet2 :: start) = .error .assertion := by
        have hall {metrics : List (UInt8 × UInt8)} (h : InTime g'.reportTimeMs metrics) :
            InTime g.reportTimeMs ((octet1, octet2) :: metrics) :=
          List.forall_mem_cons.mpr ⟨hfirst, htime ▸ h⟩
        rcases ih g' start with ⟨metrics, rest, hlength, rfl, hin⟩ | ⟨metrics, last, hlength, rfl, hlast, hin⟩ | hbad
        · exact .inl ⟨(octet1, octet2) :: metrics, rest, congrArg Nat.succ hlength, rfl, hall hin⟩
        · exact .inr (.inl ⟨(octet1, octet2) :: metrics, last, Nat.succ_lt_succ hlength, rfl, hlast, hall hin⟩)
        · exact .inr (.inr (hread.trans hbad))
      cases hparse : parseMetric octet1 octet2 with
      | none =>
        refine hcons rfl (by simp [hparse]) ?_
        rw [deserializeMetrics]
        simp only [readU8_cons, ok_bind, hparse]
      | some metric =>
        obtain ⟨ecn, ato⟩ := metric
        by_cases hle : ato.toUInt64 ≤ g.reportTimeMs
        · refine hcons (reportTimeMs_addFeedback g ssrc seq (g.reportTimeMs - ato.toUInt64) ecn) ?_ ?_
          · intro metric hmetric
            rw [hparse] at hmetric
            cases hmetric
            exact hle
          · rw [deserializeMetrics]
            simp only [readU8_cons, ok_bind, hparse, atoToTs, check_of hle, pure_eq_ok]
        · refine .inr (.inr ?_)
          rw [deserializeMetrics]
          simp only [readU8_cons, ok_bind, hparse, atoToTs, check_of_not hle]
          rfl

/-- The loop, with the subtractions from the length that is left done by sub. -/
def deserializeBlocksWith (sub : UInt64 → UInt64 → Checked UInt64) : Nat → UInt64 → RfbHeader → Octets →
    Checked (RfbHeader × Octets)
  | 0, _, _, _ => .error .outOfFuel
  | rounds + 1, lenLeft, h, start => do
    if lenLeft = 0 then
      return (h, start)
    check (8 ≤ lenLeft)
    let (ssrc, start) ← readNtohU32 start
    let (count, start) ← readNtohU16 start
    let padding := count % 2
    let (endSeq, start) ← readNtohU16 start
    let lenLeft ← sub lenLeft 8
    if count = 0 then
      deserializeBlocksWith sub rounds lenLeft h start
    else
      let (h, start) ← deserializeMetrics ssrc (windowSeqs (count, endSeq)) h start
      let lenLeft ← sub lenLeft (count.toUInt64 * 2)
      if padding ≠ 0 then
        let lenLeft ← sub lenLeft 2
        deserializeBlocksWith sub rounds lenLeft h start
      else deserializeBlocksWith sub rounds lenLeft h start

def wrappingSub (a b : UInt64) : Checked UInt64 := .ok (a - b)

/-- A subtraction that stops below zero, with a fault that no reader has of its own. -/
def strictSub (a b : UInt64) : Checked UInt64 := if b ≤ a then .ok (a - b) else .error .emptyQueue

theorem subtracts_wrappingSub : Subtracts wrappingSub := fun _ _ _ => rfl

theorem subtracts_strictSub : Subtracts strictSub := fun _ _ h => if_pos h

theorem deserializeBlocksWith_wrappingSub (rounds : Nat) (lenLeft : UInt64) (g : RfbHeader) (start : Octets) :
    deserializeBlocksWith wrappingSub rounds lenLeft g start = deserializeBlocks rounds lenLeft g start := by
  induction rounds generalizing lenLeft g start with
  | zero => rfl
  | succ rounds ih =>
    rw [deserializeBlocksWith, deserializeBlocks]
    split
    · rfl
    refine check_bind_congr fun _ => bind_congr fun ssrc => bind_congr fun count => bind_congr fun endSeq => ?_
    simp only [wrappingSub, ok_bind]
    split
    · exact ih _ _ _
    · refine bind_congr fun read => ?_
      split
      · exact ih _ _ _
      · exact ih _ _ _

section Loop
variable {sub : UInt64 → UInt64 → Checked UInt64} {rounds n : Nat} {g : RfbHeader} {rest : Octets}

private theorem deserializeBlocksWith_head (hsub : Subtracts sub) (hn : n < 2 ^ 64) (hge : 8 ≤ n) (ssrc : UInt32)
    (count endSeq : UInt16) :
    deserializeBlocksWith sub (rounds + 1) (UInt64.ofNat n) g (blockHead ssrc count endSeq ++ rest) =
      (deserializeMetrics ssrc (windowSeqs (count, endSeq)) g rest >>= fun read =>
        sub (UInt64.ofNat (n - 8)) (count.toUInt64 * 2) >>= fun lenLeft =>
          (if count % 2 ≠ 0 then sub lenLeft 2 else .ok lenLeft) >>= fun lenLeft =>
            deserializeBlocksWith sub rounds lenLeft read.1 read.2) := by
  have hlen : (UInt64.ofNat n).toNat = n := by rw [UInt64.toNat_ofNat', Nat.mod_eq_of_lt hn]
  have hne : UInt64.ofNat n ≠ 0 := by
    rw [ne_eq, ← UInt64.toNat_inj, hlen]
    exact fun he => absurd hge (by rw [he]; decide)
  have hge8 : 8 ≤ UInt64.ofNat n := by rwa [UInt64.le_iff_toNat_le, hlen]
  have hleft : UInt64.ofNat n - 8 = UInt64.ofNat (n - 8) := by
    apply UInt64.toNat_inj.mp
    rw [UInt64.toNat_sub_of_le _ _ hge8, hlen, UInt64.toNat_ofNat', Nat.mod_eq_of_lt (by omega)]
    rfl
  rw [deserializeBlocksWith, if_neg hne, check_of hge8, blockHead]
  simp only [List.append_assoc, ok_bind, readNtohU32_write, readNtohU16_write, hsub _ _ hge8, hleft]
  by_cases hcount : count = 0
  · -- A round without metric blocks goes on at once.
    subst hcount
    have hnone : windowSeqs (0, endSeq) = [] := rfl
    have hzero : sub (UInt64.ofNat (n - 8)) ((0 : UInt16).toUInt64 * 2) = .ok (UInt64.ofNat (n - 8)) := by
      have hz : (0 : UInt16).toUInt64 * 2 = 0 := rfl
      rw [hz, hsub _ _ UInt64.zero_le, UInt64.sub_zero]
    rw [if_pos rfl, hnone, deserializeMetrics, ok_bind, hzero]
    rfl
  · rw [if_neg hcount]
    refine bind_congr fun read => bind_congr fun lenLeft => ?_
    split
    · rfl
    · rfl

private theorem deserializeBlocksWith_block (hsub : Subtracts sub) {b : RfbWireBlock} (hn : b.size + n < 2 ^ 64)
    (htime : InTime g.reportTimeMs b.metrics) :
    deserializeBlocksWith sub (rounds + 1) (UInt64.ofNat (b.size + n)) g (b.octets ++ rest) =
      deserializeBlocksWith sub rounds (UInt64.ofNat n) (addBlocks [b] g) rest := by
  have hcount := b.toNat_count
  have hsize : b.size = 8 + (b.metrics.length + b.metrics.length % 2) * 2 := rfl
  have hlength : (windowSeqs (b.count, b.endSeq)).length = b.metrics.length := by
    rw [length_windowSeqs, hcount]
  have hfew := b.few
  have hn' : n < 2 ^ 64 := Nat.lt_of_le_of_lt (Nat.le_add_left n b.size) hn
  have htoNat : (UInt64.ofNat n).toNat = n := by rw [UInt64.toNat_ofNat', Nat.mod_eq_of_lt hn']
  have hleft : (UInt64.ofNat (b.size + n - 8)).toNat = b.size + n - 8 := by
    rw [UInt64.toNat_ofNat', Nat.mod_eq_of_lt (by omega)]
  have hdouble : (b.count.toUInt64 * 2).toNat = b.metrics.length * 2 := by
    rw [UInt64.toNat_mul, UInt16.toNat_toUInt64, hcount]
    simp only [UInt64.reduceToNat]
    omega
  have hroom : b.count.toUInt64 * 2 ≤ UInt64.ofNat (b.size + n - 8) := by
    rw [UInt64.le_iff_toNat_le, hleft, hdouble]
    omega
  have hparity : b.count % 2 ≠ 0 ↔ b.metrics.length % 2 = 1 := by
    rw [ne_eq, ← UInt16.toNat_inj, UInt16.toNat_mod, hcount]
    simp
  have hadd : addBlocks [b] g =
      (metricCalls b.ssrc g.reportTimeMs (windowSeqs (b.count, b.endSeq)) b.metrics).foldl apply g :=
    addBlocks_singleton b g
  have hrest : (UInt64.ofNat (b.size + n - 8) - b.count.toUInt64 * 2).toNat = b.metrics.length % 2 * 2 + n := by
    rw [UInt64.toNat_sub_of_le _ _ hroom, hleft, hdouble]
    omega
  rw [RfbWireBlock.octets, List.append_assoc, deserializeBlocksWith_head hsub hn (by omega),
    deserializeMetrics_inTime hlength htime, ok_bind, hsub _ _ hroom, ok_bind, hadd]
  by_cases hodd : b.metrics.length % 2 = 1
  · have htwo : 2 ≤ UInt64.ofNat (b.size + n - 8) - b.count.toUInt64 * 2 := by
      rw [UInt64.le_iff_toNat_le, hrest]
      simp only [UInt64.reduceToNat]
      omega
    have hlast : UInt64.ofNat (b.size + n - 8) - b.count.toUInt64 * 2 - 2 = UInt64.ofNat n := by
      apply UInt64.toNat_inj.mp
      rw [UInt64.toNat_sub_of_le _ _ htwo, hrest, htoNat]
      simp only [UInt64.reduceToNat]
      omega
    rw [if_pos (hparity.mpr hodd), hsub _ _ htwo, hlast]
    rfl
  · have hlast : UInt64.ofNat (b.size + n - 8) - b.count.toUInt64 * 2 = UInt64.ofNat n := by
      apply UInt64.toNat_inj.mp
      rw [hrest, htoNat]
      omega
    rw [if_neg (by rw [hparity]; exact hodd), hlast]
    rfl

/-- Whole blocks for which there is room are read and added, one after the other. -/
theorem deserializeBlocksWith_blocks (hsub : Subtracts sub) {blocks : List RfbWireBlock}
    (hn : totalSize blocks + n < 2 ^ 64) (htime : ∀ b ∈ blocks, InTime g.reportTimeMs b.metrics) :
    deserializeBlocksWith sub (blocks.length + rounds) (UInt64.ofNat (totalSize blocks + n)) g
        (blocks.flatMap RfbWireBlock.octets ++ rest) =
      deserializeBlocksWith sub rounds (UInt64.ofNat n) (addBlocks blocks g) rest := by
  induction blocks generalizing g with
  | nil =>
    rw [List.length_nil, Nat.zero_add, totalSize, List.map_nil, List.sum_nil, Nat.zero_add]
    rfl
  | cons b blocks ih =>
    rw [totalSize_cons, Nat.add_assoc] at hn ⊢
    have hmore : ∀ b' ∈ blocks, InTime (addBlocks [b] g).reportTimeMs b'.metrics := fun b' hb' => by
      rw [reportTimeMs_addBlocks]
      exact htime b' (List.mem_cons_of_mem _ hb')
    rw [List.length_cons, Nat.add_right_comm, List.flatMap_cons, List.append_assoc,
      deserializeBlocksWith_block hsub hn (htime b List.mem_cons_self), addBlocks_cons b blocks]
    exact ih (by omega) hmore

theorem deserializeBlocksWith_done : deserializeBlocksWith sub (rounds + 1) (UInt64.ofNat 0) g rest = .ok (g, rest) :=
  rfl

private theorem deserializeBlocksWith_short (hpos : 0 < n) (hlt : n < 8) :
    deserializeBlocksWith sub (rounds + 1) (UInt64.ofNat n) g rest = .error .assertion := by
  have hlen : (UInt64.ofNat n).toNat = n := by rw [UInt64.toNat_ofNat', Nat.mod_eq_of_lt (by omega)]
  have hne : UInt64.ofNat n ≠ 0 := by
    rw [ne_eq, ← UInt64.toNat_inj, hlen]
    exact hpos.ne'
  have hfew : ¬ 8 ≤ UInt64.ofNat n := by
    rw [UInt64.le_iff_toNat_le, hlen]
    exact Nat.not_le.mpr hlt
  rw [deserializeBlocksWith, if_neg hne, check_of_not hfew]
  rfl

/-- The octets end before the block that they begin with, of which nothing is too late. -/
def CutOff (time : UInt64) (s : Octets) : Prop :=
  s.length < 8 ∨ ∃ ssrc count endSeq metrics last, s = blockHead ssrc count endSeq ++ (octetPairs metrics ++ last) ∧
    metrics.length < count.toNat ∧ last.length < 2 ∧ InTime time metrics

theorem deserializeBlocksWith_cutOff (hsub : Subtracts sub) (hn : n < 2 ^ 64) (hge : 8 ≤ n)
    (hcut : CutOff g.reportTimeMs rest) :
    deserializeBlocksWith sub (rounds + 1) (UInt64.ofNat n) g rest = .error .endOfBuffer := by
  rcases hcut with hshort | ⟨ssrc, count, endSeq, metrics, last, rfl, hfew, hlast, htime⟩
  · have hlen : (UInt64.ofNat n).toNat = n := by rw [UInt64.toNat_ofNat', Nat.mod_eq_of_lt hn]
    have hne : UInt64.ofNat n ≠ 0 := by
      rw [ne_eq, ← UInt64.toNat_inj, hlen]
      exact fun he => absurd hge (by rw [he]; decide)
    have hge8 : 8 ≤ UInt64.ofNat n := by rwa [UInt64.le_iff_toNat_le, hlen]
    rw [deserializeBlocksWith, if_neg hne, check_of hge8, ok_bind, readNtohU32_eq]
    by_cases h4 : 4 ≤ rest.length
    · rw [if_pos h4]
      simp only [ok_bind, readNtohU16_eq, List.length_drop]
      by_cases h6 : 2 ≤ rest.length - 4
      · simp only [if_pos h6, ok_bind, List.length_drop, if_neg (show ¬ 2 ≤ rest.length - 4 - 2 by omega)]
        rfl
      · rw [if_neg h6]
        rfl
    · rw [if_neg h4]
      rfl
  · have hcount : metrics.length < (windowSeqs (count, endSeq)).length := by rwa [length_windowSeqs]
    rw [deserializeBlocksWith_head hsub hn hge, deserializeMetrics_cut hcount htime hlast]
    rfl

/-- A whole block that has no room takes the length below zero. -/
theorem deserializeBlocksWith_overrun {b : RfbWireBlock} (hn : n < 2 ^ 64) (hge : 8 ≤ n) (hmod : n % 4 = 0)
    (htime : InTime g.reportTimeMs b.metrics) (hover : n < b.size) :
    deserializeBlocksWith strictSub (rounds + 1) (UInt64.ofNat n) g (b.octets ++ rest) = .error .emptyQueue := by
  have hcount := b.toNat_count
  have hsize : b.size = 8 + (b.metrics.length + b.metrics.length % 2) * 2 := rfl
  have hlength : (windowSeqs (b.count, b.endSeq)).length = b.metrics.length := by
    rw [length_windowSeqs, hcount]
  have hfew := b.few
  have hleft : (UInt64.ofNat (n - 8)).toNat = n - 8 := by
    rw [UInt64.toNat_ofNat', Nat.mod_eq_of_lt (by omega)]
  have hdouble : (b.count.toUInt64 * 2).toNat = b.metrics.length * 2 := by
    rw [UInt64.toNat_mul, UInt16.toNat_toUInt64, hcount]
    simp only [UInt64.reduceToNat]
    omega
  have hroom : ¬ b.count.toUInt64 * 2 ≤ UInt64.ofNat (n - 8) := by
    rw [UInt64.le_iff_toNat_le, hleft, hdouble]
    omega
  rw [RfbWireBlock.octets, List.append_assoc, deserializeBlocksWith_head subtracts_strictSub hn hge,
    deserializeMetrics_inTime hlength htime, ok_bind, strictSub, if_neg hroom]
  rfl

end Loop

/-- How reading ends, from a header and octets where no whole block is read any more: the length
is used up, an assertion fails, the octets end, or the block there takes the length below zero. -/
inductive Ends (g : RfbHeader) (n : Nat) (rest : Octets) : Prop where
  | done (h : n = 0)
  | refused (h : ∀ sub rounds, Subtracts sub →
      deserializeBlocksWith sub (rounds + 1) (UInt64.ofNat n) g rest = .error .assertion)
  | cutOff (hge : 8 ≤ n) (h : CutOff g.reportTimeMs rest)
  | overrun (b : RfbWireBlock) (more : Octets) (hge : 8 ≤ n) (hrest : rest = b.octets ++ more)
      (htime : InTime g.reportTimeMs b.metrics) (h : n < b.size)

private theorem ends_or_block {g : RfbHeader} {n : Nat} (hn : n < 2 ^ 64) (rest : Octets) :
    Ends g n rest ∨ ∃ (b : RfbWireBlock) (more : Octets), rest = b.octets ++ more ∧
      InTime g.reportTimeMs b.metrics ∧ b.size ≤ n := by
  rcases Nat.eq_zero_or_pos n with hzero | hpos
  · exact .inl (.done hzero)
  rcases Nat.lt_or_ge n 8 with hlt | hge
  · exact .inl (.refused fun sub rounds _ => deserializeBlocksWith_short hpos hlt)
  rcases Nat.lt_or_ge rest.length 8 with hshort | hlong
  · exact .inl (.cutOff hge (.inl hshort))
  have hssrc := readNtohU32_eq rest
  rw [if_pos (by omega)] at hssrc
  have hcount := readNtohU16_eq (rest.drop 4)
  rw [if_pos (by rw [List.length_drop]; omega)] at hcount
  have hend := readNtohU16_eq ((rest.drop 4).drop 2)
  rw [if_pos (by rw [List.length_drop, List.length_drop]; omega)] at hend
  generalize hs : longAt rest 0 = ssrc at hssrc
  generalize hc : wordAt (rest.drop 4) 0 = count at hcount
  generalize he : wordAt ((rest.drop 4).drop 2) 0 = endSeq at hend
  generalize hb : ((rest.drop 4).drop 2).drop 2 = body at hend
  have hrest : rest = blockHead ssrc count endSeq ++ body := by
    rw [eq_append_of_readNtohU32 hssrc, eq_append_of_readNtohU16 hcount, eq_append_of_readNtohU16 hend, blockHead]
    simp only [List.append_assoc]
  clear hssrc hcount hend hs hc he hb
  have hseqs := length_windowSeqs (count, endSeq)
  rcases deserializeMetrics_classify ssrc (windowSeqs (count, endSeq)) g body with
    ⟨metrics, more, hlength, rfl, htime⟩ | ⟨metrics, last, hlength, rfl, hlast, htime⟩ | hbad
  · have hlt := count.toNat_lt
    let b : RfbWireBlock := ⟨ssrc, endSeq, metrics, by rw [hlength, hseqs]; dsimp only; omega⟩
    have hcount : b.count = count := by
      apply UInt16.toNat_inj.mp
      rw [b.toNat_count]
      exact hlength.trans hseqs
    have hoctets : rest = b.octets ++ more := by
      rw [hrest, RfbWireBlock.octets, hcount, List.append_assoc]
    by_cases hsize : b.size ≤ n
    · exact .inr ⟨b, more, hoctets, htime, hsize⟩
    · exact .inl (.overrun b more hge hoctets htime (Nat.lt_of_not_le hsize))
  · rw [hseqs] at hlength
    exact .inl (.cutOff hge (.inr ⟨ssrc, count, endSeq, metrics, last, hrest, hlength, hlast, htime⟩))
  · refine .inl (.refused fun sub rounds hsub => ?_)
    rw [hrest, deserializeBlocksWith_head hsub hn hge, hbad]
    rfl

/-- Any octets are whole blocks that are read, and others where reading ends. -/
theorem exists_blocks_ends (n : Nat) (hn : n < 2 ^ 64) (g : RfbHeader) (start : Octets) :
    ∃ blocks rest m, n = totalSize blocks + m ∧ start = blocks.flatMap RfbWireBlock.octets ++ rest ∧
      (∀ b ∈ blocks, InTime g.reportTimeMs b.metrics) ∧ Ends (addBlocks blocks g) m rest := by
  induction n using Nat.strong_induction_on generalizing g start with
  | _ n ih =>
    rcases ends_or_block (g := g) hn start with hends | ⟨b, more, rfl, htime, hsize⟩
    · exact ⟨[], start, n, (Nat.zero_add n).symm, rfl, by simp, hends⟩
    · have hpos : 0 < b.size := Nat.lt_of_lt_of_le (by decide) (Nat.le_add_right 8 _)
      obtain ⟨blocks, rest, m, hm, rfl, hall, hends⟩ := ih (n - b.size) (by omega) (by omega) (addBlocks [b] g) more
      rw [reportTimeMs_addBlocks] at hall
      refine ⟨b :: blocks, rest, m, ?_, ?_, List.forall_mem_cons.mpr ⟨htime, hall⟩, ?_⟩
      · rw [totalSize_cons]
        omega
      · rw [List.flatMap_cons, List.append_assoc]
      · rwa [addBlocks_cons b blocks]

end RfbHeader

end Ns3Rmcat.Header
