import Ns3Rmcat.Controller.CcfsApi

/-! The packets that the CCFS controller has stored as sent. Access by a key makes records
that no packet belongs to; when this happens is stated here call by call, and so the runs
in which the store has nothing but packets that were sent. -/
namespace Ns3Rmcat.Controller
open Lib Header

namespace CcfsController

def lastSequences (s : CcfsController) (sent : Std.ExtTreeMap UInt32 SentRtpStream) : List (UInt32 × UInt16) :=
  sent.keys.map fun ssrc => (ssrc, s.lastSentRtpMap.getD ssrc 0)

/-- The store after a report: an entry is touched for the end of each stream of the report, and
then for the last number of each stream of the store. -/
def storeAfter (s : CcfsController) (feedback : RfbHeader) : Std.ExtTreeMap UInt32 SentRtpStream :=
  if findEndSequences feedback = [] then s.sentRtpSsrcMap
  else
    let sent := touchAll (findEndSequences feedback) {} s.sentRtpSsrcMap
    touchAll (s.lastSequences sent) {} sent

section Reports
variable {s s' : CcfsController} {feedback : RfbHeader}

theorem sumSentBytes_store (ssrcSeqs : List (UInt32 × UInt16)) (tot : UInt64)
    (sent : Std.ExtTreeMap UInt32 SentRtpStream) :
    (sumSentBytes ssrcSeqs tot sent).2 = touchAll ssrcSeqs {} sent := by
  induction ssrcSeqs generalizing tot sent with
  | nil => rfl
  | cons e ssrcSeqs ih =>
    rw [sumSentBytes]
    exact ih _ _

theorem validateFeedback_store {valid : Bool} (h : s.validateFeedback feedback = .ok (valid, s')) :
    s'.sentRtpSsrcMap = s.storeAfter feedback ∧
      ∀ ssrc, s'.lastSentRtpMap.getD ssrc 0 = s.lastSentRtpMap.getD ssrc 0 := by
  rw [validateFeedback] at h
  dsimp only at h
  split at h
  · rename_i hnone
    cases h
    rw [storeAfter, if_pos hnone]
    exact ⟨rfl, fun _ => rfl⟩
  · rename_i hsome
    rw [storeAfter, if_neg hsome]
    obtain ⟨⟨remains, s1⟩, hremains, h⟩ := bind_eq_ok.mp h
    obtain ⟨count, -, h⟩ := bind_eq_ok.mp h
    cases h
    obtain ⟨reported, -, hremains⟩ := bind_eq_ok.mp hremains
    obtain ⟨-, hremains⟩ := check_bind_eq_ok.mp hremains
    obtain ⟨-, hremains⟩ := check_bind_eq_ok.mp hremains
    cases hremains
    dsimp only
    refine ⟨?_, getD_insertAll_self fun e he => ?_⟩
    · rw [sumSentBytes_store, sumSentBytes_store]
      rfl
    · obtain ⟨ssrc, -, rfl⟩ := List.mem_map.mp he
      rfl

/-- Records that are there stay as they are. -/
theorem getSentRtp_storeAfter (hstore : s'.sentRtpSsrcMap = s.storeAfter feedback) {ssrc : UInt32} {seq : UInt16}
    {record : SentRtpRecord} (h : s.getSentRtp ssrc seq = some record) : s'.getSentRtp ssrc seq = some record := by
  rw [getSentRtp] at h ⊢
  rw [hstore, storeAfter]
  split
  · exact h
  · rw [lookup?_touchAll, lookup?_touchAll, h]
    simp

private theorem mem_storeAfter {ssrc : UInt32} (h : ssrc ∈ feedback.getSsrcList) : ssrc ∈ s.storeAfter feedback := by
  have hmem : (ssrc, feedback.getEndSeqInSsrc ssrc) ∈ findEndSequences feedback :=
    List.mem_map.mpr ⟨ssrc, h, rfl⟩
  rw [storeAfter, if_neg (List.ne_nil_of_mem hmem)]
  exact (mem_touchAll _ _ _ _).mpr (.inl ((mem_touchAll _ _ _ _).mpr (.inr ⟨_, hmem⟩)))

private theorem parseFeedback_store {beginMs endMs : UInt32} {parsed : ParsedFBData}
    (hmem : ∀ ssrc ∈ feedback.getSsrcList, ssrc ∈ s.sentRtpSsrcMap)
    (h : s.parseFeedback feedback beginMs endMs = (parsed, s')) : s'.sentRtpSsrcMap = s.sentRtpSsrcMap := by
  rw [parseFeedback] at h
  generalize ({} : ParsedFBData) = start at h
  generalize feedback.getSsrcList = ssrcs at h hmem
  induction ssrcs generalizing s start with
  | nil =>
    cases h
    rfl
  | cons ssrc ssrcs ih =>
    rw [List.foldl_cons] at h
    have hsame := insert_getD_of_mem (hmem ssrc (by simp))
    dsimp only at h
    rw [hsame] at h
    exact ih _ h fun ssrc' h' => hmem ssrc' (List.mem_cons_of_mem _ h')

private theorem startFeedback2_store {period : Except Bool ParsedPeriod}
    (h : s.startFeedback2 feedback = .ok (period, s')) :
    s'.sentRtpSsrcMap = s.storeAfter feedback ∧
      ∀ ssrc, s'.lastSentRtpMap.getD ssrc 0 = s.lastSentRtpMap.getD ssrc 0 := by
  obtain ⟨⟨valid, s1⟩, hvalid, h⟩ := bind_eq_ok.mp h
  have hstore := validateFeedback_store hvalid
  dsimp only at h
  split at h
  · cases h
    exact hstore
  · split at h
    · cases h
      exact hstore
    · generalize hparse : parseFeedback _ feedback _ _ = parsed at h
      obtain ⟨data, s2⟩ := parsed
      cases h
      have hsame := parseFeedback_store (fun ssrc hssrc => by rw [hstore.1]; exact mem_storeAfter hssrc) hparse
      obtain ⟨sent, rfl⟩ := parseFeedback_ok hparse
      exact ⟨hsame.trans hstore.1, hstore.2⟩

/-- Nothing but the access by keys changes the store when a report comes. -/
theorem processFeedback2_store {rounds : Nat} {nowUs : UInt64} {result : Bool}
    (h : s.processFeedback2 rounds nowUs feedback = .ok (result, s')) :
    s'.sentRtpSsrcMap = s.storeAfter feedback ∧
      ∀ ssrc, s'.lastSentRtpMap.getD ssrc 0 = s.lastSentRtpMap.getD ssrc 0 := by
  rcases processFeedback2_ok h with hunused | ⟨period, s1, hused, hcontrol⟩
  · exact startFeedback2_store hunused
  · have hrecords := controlFeedback2_records hcontrol
    obtain ⟨hstore, hlast⟩ := startFeedback2_store hused
    refine ⟨(congrArg Records.sentRtpSsrcMap hrecords).trans hstore, fun ssrc => ?_⟩
    rw [show s'.lastSentRtpMap = s1.lastSentRtpMap from congrArg Records.lastSentRtpMap hrecords]
    exact hlast ssrc

end Reports

section Sends
variable {s s' : CcfsController} {ssrc : UInt32} {localTimestampUs : UInt64} {sequence : UInt16} {size : UInt32}

/-- A record that is not yet too old when a packet is sent. -/
def Kept (localTimestampUs : UInt64) (record : SentRtpRecord) : Bool :=
  !(record.localTimestampUs / 1000 + kCcfsSentRtpKeepTimeMs < localTimestampUs / 1000)

theorem kept_self (localTimestampUs : UInt64) (size : UInt32) (totSentBytes : UInt64) :
    Kept localTimestampUs ⟨localTimestampUs, size, totSentBytes⟩ = true := by
  have hlt := localTimestampUs.toNat_lt
  simp only [Kept, kCcfsSentRtpKeepTimeMs, Bool.not_eq_true', decide_eq_false_iff_not, UInt64.lt_iff_toNat_lt,
    UInt64.toNat_add, UInt64.toNat_div, UInt64.reduceToNat]
  omega

/-- The total that a further packet of a stream goes on from. -/
def lastTotal (s : CcfsController) (ssrc : UInt32) : UInt64 :=
  if s.base.firstSend then 0
  else ((s.getSentRtp ssrc (s.lastSentRtpMap.getD ssrc 0)).getD {}).totSentBytes

theorem processSendPacket2_store {result : Bool}
    (h : s.processSendPacket2 ssrc localTimestampUs sequence size = .ok (result, s')) :
    s'.lastSentRtpMap = s.lastSentRtpMap.insert ssrc sequence ∧
      s'.sentRtpSsrcMap = s.sentRtpSsrcMap.insert ssrc
        (((if s.base.firstSend then s.sentRtpSsrcMap.getD ssrc ∅
          else (s.sentRtpSsrcMap.getD ssrc ∅).insertIfNew (s.lastSentRtpMap.getD ssrc 0) {}).insert sequence
            ⟨localTimestampUs, size, s.lastTotal ssrc + size.toUInt64⟩).filter fun _ => Kept localTimestampUs) := by
  obtain ⟨⟨ok, base⟩, hbase, h⟩ := bind_eq_ok.mp h
  cases h
  refine ⟨rfl, ?_⟩
  have htotal : (if s.base.firstSend then ({} : SentRtpRecord)
      else (s.sentRtpSsrcMap.getD ssrc ∅).getD (s.lastSentRtpMap.getD ssrc 0) {}).totSentBytes = s.lastTotal ssrc := by
    rw [lastTotal]
    split
    · rfl
    · rw [Std.ExtTreeMap.getD_eq_getD_getElem?]
      rfl
  dsimp only
  rw [htotal]
  rfl

/-- What is in the store after a packet has been sent. -/
theorem processSendPacket2_lookup {result : Bool}
    (h : s.processSendPacket2 ssrc localTimestampUs sequence size = .ok (result, s')) (ssrc' : UInt32) (seq' : UInt16) :
    s'.getSentRtp ssrc' seq' =
      if ssrc ≠ ssrc' then s.getSentRtp ssrc' seq'
      else if sequence = seq' then some ⟨localTimestampUs, size, s.lastTotal ssrc + size.toUInt64⟩
      else if s.base.firstSend = false ∧ s.lastSentRtpMap.getD ssrc 0 = seq' ∧ s.getSentRtp ssrc seq' = none then
        (some {}).filter (Kept localTimestampUs)
      else (s.getSentRtp ssrc seq').filter (Kept localTimestampUs) := by
  obtain ⟨-, hstore⟩ := processSendPacket2_store h
  have hself := kept_self localTimestampUs size (s.lastTotal ssrc + size.toUInt64)
  unfold getSentRtp lookup?
  rw [hstore, Std.ExtTreeMap.getD_insert]
  by_cases hssrc : ssrc = ssrc'
  · subst hssrc
    simp only [Std.compare_self, if_true, ne_eq, not_true_eq_false, if_false]
    rw [Std.ExtTreeMap.getElem?_filter', Std.ExtTreeMap.getElem?_insert]
    by_cases hseq : sequence = seq'
    · subst hseq
      simp [hself]
    · simp only [Std.compare_eq_iff_eq, hseq, if_false]
      cases hfirst : s.base.firstSend with
      | true => simp
      | false =>
        simp only [Bool.false_eq_true, if_false, true_and, Std.ExtTreeMap.getElem?_insertIfNew, Std.compare_eq_iff_eq]
        by_cases hlast : s.lastSentRtpMap.getD ssrc 0 = seq'
        · subst hlast
          simp only [true_and, Std.ExtTreeMap.mem_iff_isSome_getElem?, Bool.not_eq_true, Option.isSome_eq_false_iff,
            Option.isNone_iff_eq_none]
          split <;> rfl
        · simp [hlast]
  · simp [hssrc]

end Sends

/-- There is a record of each of some packets. -/
def AllPresent (s : CcfsController) (ssrcSeqs : List (UInt32 × UInt16)) : Prop :=
  ∀ e ∈ ssrcSeqs, (s.getSentRtp e.1 e.2).isSome

instance (s : CcfsController) (ssrcSeqs : List (UInt32 × UInt16)) : Decidable (s.AllPresent ssrcSeqs) :=
  List.decidableBAll _ ssrcSeqs

/-- The keys that a call accesses are in the store, so that it makes no record by the way. A
send that makes one gets rid of it at once when the clock is past the time that records are kept. -/
def KeysPresent (s : CcfsController) : CcfsCall → Prop
  | .processSendPacket2 ssrc localTimestampUs sequence _ =>
    s.base.firstSend = true ∨ s.lastSentRtpMap.getD ssrc 0 = sequence ∨
      kCcfsSentRtpKeepTimeMs < localTimestampUs / 1000 ∨ (s.getSentRtp ssrc (s.lastSentRtpMap.getD ssrc 0)).isSome
  | .processFeedback2 _ feedback =>
    findEndSequences feedback = [] ∨
      (s.AllPresent (findEndSequences feedback) ∧ s.AllPresent (s.lastSequences s.sentRtpSsrcMap))

/-- What a call may do to the store: a send adds its own packet, and a report adds nothing. -/
def AddsOnlySent (s s' : CcfsController) : CcfsCall → Prop
  | .processSendPacket2 ssrc localTimestampUs sequence size =>
    ∀ ssrc' seq' record, s'.getSentRtp ssrc' seq' = some record → s.getSentRtp ssrc' seq' = some record ∨
      (ssrc' = ssrc ∧ seq' = sequence ∧ record.localTimestampUs = localTimestampUs ∧ record.size = size)
  | .processFeedback2 _ _ => s'.sentRtpSsrcMap = s.sentRtpSsrcMap

section Calls
variable {s s' : CcfsController}

private theorem storeAfter_eq_self_iff {feedback : RfbHeader} (nowUs : UInt64) :
    s.storeAfter feedback = s.sentRtpSsrcMap ↔ s.KeysPresent (.processFeedback2 nowUs feedback) := by
  rw [storeAfter, KeysPresent]
  by_cases hnone : findEndSequences feedback = []
  · simp [hnone]
  · rw [if_neg hnone]
    simp only [hnone, false_or]
    constructor
    · intro hsame
      have hends : touchAll (findEndSequences feedback) {} s.sentRtpSsrcMap = s.sentRtpSsrcMap := by
        refine touchAll_eq_self_iff.mpr fun e he => ?_
        rw [← hsame, lookup?_touchAll]
        split
        · rfl
        · rw [lookup?_touchAll, if_pos he]
          rfl
      rw [hends] at hsame
      exact ⟨touchAll_eq_self_iff.mp hends, touchAll_eq_self_iff.mp hsame⟩
    · rintro ⟨hends, hlasts⟩
      rw [touchAll_eq_self_iff.mpr hends]
      exact touchAll_eq_self_iff.mpr hlasts

private theorem kept_default (localTimestampUs : UInt64) :
    Kept localTimestampUs {} = true ↔ ¬ kCcfsSentRtpKeepTimeMs < localTimestampUs / 1000 := by
  simp [Kept]

private theorem addsOnlySent_iff {rounds : Nat} {call : CcfsCall} (hstep : s.step rounds call = .ok s') :
    AddsOnlySent s s' call ↔ s.KeysPresent call := by
  cases call with
  | processFeedback2 nowUs feedback =>
    obtain ⟨⟨result, s1⟩, hfeedback, hs1⟩ := bind_eq_ok.mp hstep
    cases hs1
    rw [← storeAfter_eq_self_iff, ← (processFeedback2_store hfeedback).1]
    rfl
  | processSendPacket2 ssrc localTimestampUs sequence size =>
    obtain ⟨⟨result, s1⟩, hsend, hs1⟩ := bind_eq_ok.mp hstep
    cases hs1
    have hlookup := processSendPacket2_lookup hsend
    constructor
    · intro honly
      by_contra habsent
      simp only [KeysPresent, not_or, Bool.not_eq_true, Option.isSome_eq_false_iff,
        Option.isNone_iff_eq_none] at habsent
      obtain ⟨hfirst, hlast, htime, hnone⟩ := habsent
      -- The record that is made stays in the store, though no packet belongs to it.
      have hphantom := hlookup ssrc (s.lastSentRtpMap.getD ssrc 0)
      rw [if_neg (by simp), if_neg (Ne.symm hlast), if_pos ⟨hfirst, rfl, hnone⟩, Option.filter_some_pos] at hphantom
      · rcases honly _ _ _ hphantom with hold | ⟨-, hseq, -⟩
        · rw [hnone] at hold
          cases hold
        · exact hlast hseq
      · exact (kept_default localTimestampUs).mpr htime
    · intro hpresent ssrc' seq' record hrecord
      rw [hlookup] at hrecord
      split at hrecord
      · exact .inl hrecord
      · rename_i hssrc
        obtain rfl : ssrc = ssrc' := not_not.mp hssrc
        split at hrecord
        · rename_i hseq
          cases hrecord
          exact .inr ⟨rfl, hseq.symm, rfl, rfl⟩
        · split at hrecord
          · rename_i hseq hphantom
            obtain ⟨hfirst, rfl, hnone⟩ := hphantom
            obtain ⟨hdefault, hkept⟩ := Option.filter_eq_some_iff.mp hrecord
            cases hdefault
            have htime := (kept_default localTimestampUs).mp hkept
            rcases hpresent with hfirst' | hlast | hlate | hthere
            · rw [hfirst] at hfirst'
              cases hfirst'
            · exact absurd hlast.symm hseq
            · exact absurd hlate htime
            · rw [hnone] at hthere
              cases hthere
          · exact .inl (Option.filter_eq_some_iff.mp hrecord).1

end Calls

instance (s : CcfsController) (call : CcfsCall) : Decidable (s.KeysPresent call) :=
  match call with
  | .processSendPacket2 _ _ _ _ => inferInstanceAs (Decidable (_ ∨ _))
  | .processFeedback2 _ _ => inferInstanceAs (Decidable (_ ∨ _))

/-- The setters and the reset access no key of the store. -/
def ApiKeysPresent (s : CcfsController) : CcfsApiCall → Prop
  | .call call => s.KeysPresent call
  | _ => True

instance (s : CcfsController) (call : CcfsApiCall) : Decidable (s.ApiKeysPresent call) :=
  match call with
  | .call call => inferInstanceAs (Decidable (s.KeysPresent call))
  | .setInitBw _ | .setMinBw _ | .setMaxBw _ | .reset => .isTrue trivial

/-- A call of a program that returns adds nothing to the store but what it sends. -/
def ApiAddsOnlySent (rounds : Nat) (s : CcfsController) (call : CcfsApiCall) : Prop :=
  ∀ next, s.apiStep rounds call = .ok next →
    match call with
    | .call call => AddsOnlySent s next call
    | _ => next.sentRtpSsrcMap = s.sentRtpSsrcMap

/-- Every record of the store has the time and the size of a call that sent the packet. -/
def SentBy (calls : List CcfsApiCall) (s : CcfsController) : Prop :=
  ∀ ssrc seq record, s.getSentRtp ssrc seq = some record →
    .call (.processSendPacket2 ssrc record.localTimestampUs seq record.size) ∈ calls

section Runs
variable {s s' : CcfsController} {rounds : Nat} {calls : List CcfsApiCall} {call : CcfsApiCall}

private theorem apiAddsOnlySent_iff (hstep : s.apiStep rounds call = .ok s') :
    ApiAddsOnlySent rounds s call ↔ s.ApiKeysPresent call := by
  cases call with
  | call call =>
    refine Iff.trans ⟨fun h => h s' hstep, fun h next hnext => ?_⟩ (addsOnlySent_iff hstep)
    cases hstep.symm.trans hnext
    exact h
  | setInitBw initBw | setMinBw minBw | setMaxBw maxBw | reset =>
    refine iff_of_true (fun next hnext => ?_) trivial
    cases hnext
    rfl

private theorem SentBy.step (h : SentBy calls s) (honly : ApiAddsOnlySent rounds s call)
    (hstep : s.apiStep rounds call = .ok s') : SentBy (calls ++ [call]) s' := by
  have hadds := honly s' hstep
  intro ssrc seq record hrecord
  have hkeep (hold : s.getSentRtp ssrc seq = some record) :
      .call (.processSendPacket2 ssrc record.localTimestampUs seq record.size) ∈ calls ++ [call] :=
    List.mem_append_left _ (h ssrc seq record hold)
  have hsame (hstore : s'.sentRtpSsrcMap = s.sentRtpSsrcMap) :
      .call (.processSendPacket2 ssrc record.localTimestampUs seq record.size) ∈ calls ++ [call] := by
    apply hkeep
    rw [getSentRtp, ← hstore]
    exact hrecord
  cases call with
  | setInitBw initBw | setMinBw minBw | setMaxBw maxBw | reset => exact hsame hadds
  | call call =>
    cases call with
    | processFeedback2 nowUs feedback => exact hsame hadds
    | processSendPacket2 ssrc' localTimestampUs sequence size =>
      rcases hadds ssrc seq record hrecord with hold | ⟨rfl, rfl, rfl, rfl⟩
      · exact hkeep hold
      · simp

private theorem run_sentBy (hrun : run (apiStep rounds) constructed calls = .ok s)
    (honly : Along (apiStep rounds) (ApiAddsOnlySent rounds) constructed calls) : SentBy calls s := by
  revert honly
  refine run_induction (apiStep rounds)
    (motive := fun calls s => Along (apiStep rounds) (ApiAddsOnlySent rounds) constructed calls → SentBy calls s)
    (fun _ ssrc seq record hrecord => ?_) (fun calls call mid s' hmid ih hstep honly => ?_) hrun
  · simp [getSentRtp, lookup?, constructed] at hrecord
  · exact (ih honly.init).step (honly.last hmid) hstep

end Runs

/-- In every run of a program, the calls add nothing to the store but what they send exactly
when they find the keys that they access. In such a run everything in the store was sent. -/
theorem store_run {s : CcfsController} {rounds : Nat} {calls : List CcfsApiCall}
    (hrun : run (apiStep rounds) constructed calls = .ok s) :
    (Along (apiStep rounds) (ApiAddsOnlySent rounds) constructed calls ↔
      Along (apiStep rounds) ApiKeysPresent constructed calls) ∧
    (Along (apiStep rounds) ApiKeysPresent constructed calls → SentBy calls s) := by
  have hiff := along_congr hrun fun _ _ _ hnext => apiAddsOnlySent_iff hnext
  exact ⟨hiff, fun hpresent => run_sentBy hrun (hiff.mpr hpresent)⟩

/-- A first packet with the number 0 finds its key on a further stream too. -/
theorem store_run_two_streams :
    let calls : List CcfsApiCall :=
      [.reset, .call (.processSendPacket2 1 1000000 7 1200), .call (.processSendPacket2 2 1010000 0 400),
       .call (.processFeedback2 1100000 (reportOf [(1, 7, 1020)] 1090))]
    ∃ s, run (apiStep 1) constructed calls = .ok s ∧ s.getSentRtp 2 0 = some ⟨1010000, 400, 400⟩ ∧ SentBy calls s := by
  intro calls
  have hfacts : (run (apiStep 1) constructed calls).map
      (fun s => decide (s.getSentRtp 2 0 = some ⟨1010000, 400, 400⟩)) = .ok true := by
    decide +kernel
  obtain ⟨s, hrun, hdecided⟩ := map_eq_ok.mp hfacts
  have hpresent : Along (apiStep 1) ApiKeysPresent constructed calls := by decide +kernel
  exact ⟨s, hrun, of_decide_eq_true hdecided, (store_run hrun).2 hpresent⟩

/-- The first packet of a further stream, and a report about a stream that is not known, make
records of nothing. The report makes the stream too. -/
theorem records_of_nothing :
    let sends : List CcfsApiCall :=
      [.reset, .call (.processSendPacket2 1 1000000 7 1200), .call (.processSendPacket2 2 1010000 8 400)]
    let report : CcfsApiCall := .call (.processFeedback2 1100000 (reportOf [(1, 7, 1020), (3, 5, 1020)] 1090))
    (∃ s, run (apiStep 1) constructed sends = .ok s ∧ s.getSentRtp 2 0 = some ⟨0, 0, 0⟩ ∧ ¬ SentBy sends s) ∧
    (run (apiStep 1) constructed sends).map (fun s => s.sentRtpSsrcMap.keys) = .ok [1, 2] ∧
    (run (apiStep 1) constructed (sends ++ [report])).map
      (fun s => (s.sentRtpSsrcMap.keys, s.getSentRtp 3 5, s.getSentRtp 3 0)) =
        .ok ([1, 2, 3], some ⟨0, 0, 0⟩, some ⟨0, 0, 0⟩) := by
  intro sends report
  refine ⟨?_, by decide +kernel, by decide +kernel⟩
  have hfacts : (run (apiStep 1) constructed sends).map (fun s => decide (s.getSentRtp 2 0 = some ⟨0, 0, 0⟩)) =
      .ok true := by
    decide +kernel
  obtain ⟨s, hrun, hdecided⟩ := map_eq_ok.mp hfacts
  have hrecord := of_decide_eq_true hdecided
  refine ⟨s, hrun, hrecord, fun hsent => ?_⟩
  have hcall := hsent 2 0 _ hrecord
  simp [sends] at hcall

end CcfsController

end Ns3Rmcat.Controller
