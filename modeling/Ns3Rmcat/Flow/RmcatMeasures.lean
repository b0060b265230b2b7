import Ns3Rmcat.Flow.RmcatTruth

/-! What the controller of a flow measures, against what happened on the network: the packets that
it has accepted, their queuing delay, and the rate at which they were received. -/
namespace Ns3Rmcat.Flow
open Lib Header Controller Receiver Sender

/-- The delays that some packets of the controller had on their way from the socket to the receiver. -/
def trueDelays (told : List (List (UInt64 × ℕ))) (sent : List PacketRecord) (ps : List PacketRecord) : Set ℕ :=
  {delayUs | ∃ p ∈ ps, ∃ arrival, Vouches told sent p arrival ∧ delayUs = arrival.1.toNat - p.txTimestampUs.toNat}

section Delays
variable {told : List (List (UInt64 × ℕ))} {sent : List PacketRecord} {p : PacketRecord} {arrival : UInt64 × ℕ}

private theorem Vouches.delay (h : Vouches told sent p arrival) :
    arrival.1.toNat - p.txTimestampUs.toNat ≤ (p.owdUs - earliestDelayUs).toNat ∧
      (p.owdUs - earliestDelayUs).toNat ≤ arrival.1.toNat - p.txTimestampUs.toNat + 1010 := by
  obtain ⟨hbelow, habove⟩ := h.time
  obtain ⟨-, hsmall⟩ := h.representable
  have hlater := h.later
  have howd : p.owdUs = p.rxTimestampUs - p.txTimestampUs := by
    rw [PacketRecord.rxTimestampUs, UInt64.add_comm]
    exact (UInt64.add_sub_cancel _ _).symm
  rw [howd, RmcatFlow.toNat_delay (by omega) (by omega)]
  omega

private theorem least_near {ps : List PacketRecord} (hvouched : ∀ p ∈ ps, ∃ arrival, Vouches told sent p arrival)
    {least : PacketRecord} (hmem : least ∈ ps)
    (hleast : ∀ p ∈ ps, (least.owdUs - earliestDelayUs).toNat ≤ (p.owdUs - earliestDelayUs).toNat) :
    ∃ delayUs, IsLeast (trueDelays told sent ps) delayUs ∧ delayUs ≤ (least.owdUs - earliestDelayUs).toNat ∧
      (least.owdUs - earliestDelayUs).toNat ≤ delayUs + 1010 := by
  obtain ⟨arrival, harrival⟩ := hvouched least hmem
  have hin : arrival.1.toNat - least.txTimestampUs.toNat ∈ trueDelays told sent ps :=
    ⟨least, hmem, arrival, harrival, rfl⟩
  have hsome := Nat.sInf_mem ⟨_, hin⟩
  refine ⟨sInf (trueDelays told sent ps), ⟨hsome, fun delayUs hdelay => Nat.sInf_le hdelay⟩, ?_, ?_⟩
  · exact (Nat.sInf_le hin).trans harrival.delay.1
  · obtain ⟨p, hp, other, hother, heq⟩ := hsome
    rw [heq]
    exact (hleast p hp).trans hother.delay.2

end Delays

namespace RmcatFlow
variable {C K : Type} {base : C → SenderBasedController K} {start s : RmcatFlow C K} {calls : List ControllerCall}
  {accepted : List PacketRecord}

private theorem Truthful.qdelay (h : Truthful base start s calls accepted) {qdelayUs : UInt64}
    (hqdelay : (base s.sender.controller).getCurrentQdelay = some qdelayUs) :
    ∃ leastUs newestUs, IsLeast (trueDelays s.told (sentPackets calls) accepted) leastUs ∧
      IsLeast (trueDelays s.told (sentPackets calls) (base s.sender.controller).newest) newestUs ∧
      newestUs ≤ leastUs + qdelayUs.toNat + 1010 ∧ leastUs + qdelayUs.toNat ≤ newestUs + 1010 := by
  have hbased := h.believes.based
  have hnewest : ∀ p ∈ (base s.sender.controller).newest, p ∈ accepted := fun p hp =>
    hbased.history.subset (List.mem_reverse.mp (List.mem_of_mem_take hp))
  -- The packet with the smallest excess over the base delay, and the one that has the base delay.
  obtain ⟨p, hp, hexcess⟩ := List.mem_map.mp (minOf_mem hqdelay)
  obtain ⟨q, hq, hbase⟩ := hbased.attained (List.ne_nil_of_mem (hnewest p hp))
  have habove : ∀ r ∈ accepted, (r.owdUs - (base s.sender.controller).baseDelayUs).toNat =
      (r.owdUs - earliestDelayUs).toNat - ((base s.sender.controller).baseDelayUs - earliestDelayUs).toNat :=
    fun r hr => sub_within (hbased.within r hr) (hbased.least r hr)
  have hsmallest : ∀ r ∈ (base s.sender.controller).newest,
      (p.owdUs - earliestDelayUs).toNat ≤ (r.owdUs - earliestDelayUs).toNat := by
    intro r hr
    have hle := UInt64.le_iff_toNat_le.mp (minOf_least hqdelay _ (List.mem_map_of_mem hr))
    rw [← hexcess, habove p (hnewest p hp), habove r (hnewest r hr)] at hle
    have hleast := hbased.least r (hnewest r hr)
    have hleast' := hbased.least p (hnewest p hp)
    omega
  obtain ⟨newestUs, hnewestUs, hbelow, hover⟩ := least_near (fun r hr => h.believes.vouched r (hnewest r hr)) hp hsmallest
  have hleast := hbased.least
  rw [hbase] at hleast habove
  obtain ⟨leastUs, hleastUs, hbelow', hover'⟩ := least_near h.believes.vouched hq hleast
  refine ⟨leastUs, newestUs, hleastUs, hnewestUs, ?_⟩
  have hvalue := habove p (hnewest p hp)
  rw [hbase] at hexcess
  rw [hexcess] at hvalue
  have hfloor := hleast p (hnewest p hp)
  omega

/-- The receiving rate that the controller computes is that of the packets that arrived, over a time
that is the true one up to a millisecond. -/
private theorem Truthful.recvRate [Field K] (h : Truthful base start s calls accepted) {rrateBps : K}
    (hrate : (base s.sender.controller).getCurrentRecvRate = .ok (some rrateBps))
    (hbytes : bytesOf (base s.sender.controller).packetHistory < 2 ^ 29) :
    ∃ front back arrivalFront arrivalBack, ∃ spanUs : ℕ,
      (base s.sender.controller).packetHistory.head? = some front ∧
      (base s.sender.controller).packetHistory.getLast? = some back ∧
      Vouches s.told (sentPackets calls) front arrivalFront ∧ Vouches s.told (sentPackets calls) back arrivalBack ∧
      rrateBps = 8 * 10 ^ 6 * (bytesOf (base s.sender.controller).packetHistory.tail : K) / (spanUs : K) ∧
      arrivalFront.1.toNat + spanUs ≤ arrivalBack.1.toNat + 1010 ∧
      arrivalBack.1.toNat ≤ arrivalFront.1.toNat + spanUs + 1010 := by
  have hlen : minPacketLoglen ≤ (base s.sender.controller).packetHistory.length := by
    by_contra hshort
    rw [SenderBasedController.getCurrentRecvRate, if_pos (Nat.lt_of_not_le hshort)] at hrate
    cases hrate
  have hne : (base s.sender.controller).packetHistory ≠ [] := by
    intro hnil
    rw [hnil] at hlen
    exact absurd hlen (by decide)
  obtain ⟨front, hfront⟩ : ∃ front, (base s.sender.controller).packetHistory.head? = some front :=
    ⟨_, List.head?_eq_some_head hne⟩
  obtain ⟨back, hback⟩ : ∃ back, (base s.sender.controller).packetHistory.getLast? = some back :=
    ⟨_, List.getLast?_eq_some_getLast hne⟩
  have hvouched : ∀ p ∈ (base s.sender.controller).packetHistory,
      ∃ arrival, Vouches s.told (sentPackets calls) p arrival := fun p hp =>
    h.believes.vouched p (h.believes.based.history.subset hp)
  obtain ⟨arrivalFront, hvouchedFront⟩ := hvouched front (List.mem_of_mem_head? hfront)
  obtain ⟨arrivalBack, hvouchedBack⟩ := hvouched back (List.mem_of_mem_getLast? hback)
  have hhistory : (base s.sender.controller).packetHistory = front :: (base s.sender.controller).packetHistory.tail :=
    (List.cons_head?_tail hfront).symm
  have htotal : bytesOf (base s.sender.controller).packetHistory =
      front.size.toNat + bytesOf (base s.sender.controller).packetHistory.tail := by
    rw [hhistory, bytesOf_cons, List.tail_cons]
  have hsum := h.inStep.invariant.pktSizeSum
  rw [htotal] at hsum
  obtain ⟨-, hbits⟩ := (SenderBasedController.bits_eq_iff hsum).mpr (by omega)
  rw [SenderBasedController.getCurrentRecvRate_eq hlen hfront hback] at hrate
  obtain ⟨horder, hrate⟩ := check_bind_eq_ok.mp hrate
  split at hrate
  · cases hrate
  · obtain ⟨-, hrate⟩ := check_bind_eq_ok.mp hrate
    have hspan := (SenderBasedController.lessThan_add_one _ _).mp horder
    have hwords : (back.rxTimestampUs - front.rxTimestampUs).toNat =
        (2 ^ 64 - front.rxTimestampUs.toNat + back.rxTimestampUs.toNat) % 2 ^ 64 := UInt64.toNat_sub _ _
    obtain ⟨hbelow, habove⟩ := hvouchedFront.time
    obtain ⟨hbelow', habove'⟩ := hvouchedBack.time
    obtain ⟨-, hsmall⟩ := hvouchedFront.representable
    obtain ⟨-, hsmall'⟩ := hvouchedBack.representable
    refine ⟨front, back, arrivalFront, arrivalBack, (back.rxTimestampUs - front.rxTimestampUs).toNat, hfront, hback,
      hvouchedFront, hvouchedBack, ?_, ?_, ?_⟩
    · rw [← Option.some.inj (Except.ok.inj hrate), hbits]
      push_cast
      ring
    · omega
    · omega

section Runs
variable [Field K] [LinearOrder K] [FloorSemiring K] {api : ControllerApi C K} {events : List (RmcatEvent K)}

/-- Whatever the network does with packets and reports: each packet that the controller of a flow
has accepted since it last cleared its history is a packet that was sent, with its number, size and
time, and that did arrive when the controller takes it to have arrived, or within 505 microseconds
of it; and the history is made of the last of them. -/
theorem run_accepts_arrivals (hover : OverBase api base) (h : Course base api start events s) :
    ∃ calls accepted, RmcatSender.InStep base start.sender s.sender calls ∧
      run (traced SenderBasedController.step SenderBasedController.acceptedPackets)
        (base start.sender.controller, []) calls = .ok (base s.sender.controller, accepted) ∧
      (base s.sender.controller).packetHistory <:+ accepted ∧
      ∀ p ∈ accepted, ∃ arrival, Vouches s.told (sentPackets calls) p arrival := by
  obtain ⟨calls, accepted, htruth⟩ := truthful_run hover h
  exact ⟨calls, accepted, htruth.inStep, htruth.believes.accepts, htruth.believes.based.history,
    htruth.believes.vouched⟩

/-- The queuing delay is the smallest true delay of the last packets of the history, over the
smallest one since the history was cleared, up to 1010 microseconds. -/
theorem run_qdelay_near (hover : OverBase api base) (h : Course base api start events s) {qdelayUs : UInt64}
    (hqdelay : (base s.sender.controller).getCurrentQdelay = some qdelayUs) :
    ∃ calls accepted leastUs newestUs, RmcatSender.InStep base start.sender s.sender calls ∧
      run (traced SenderBasedController.step SenderBasedController.acceptedPackets)
        (base start.sender.controller, []) calls = .ok (base s.sender.controller, accepted) ∧
      IsLeast (trueDelays s.told (sentPackets calls) accepted) leastUs ∧
      IsLeast (trueDelays s.told (sentPackets calls) (base s.sender.controller).newest) newestUs ∧
      newestUs ≤ leastUs + qdelayUs.toNat + 1010 ∧ leastUs + qdelayUs.toNat ≤ newestUs + 1010 := by
  obtain ⟨calls, accepted, htruth⟩ := truthful_run hover h
  obtain ⟨leastUs, newestUs, hnear⟩ := htruth.qdelay hqdelay
  exact ⟨calls, accepted, leastUs, newestUs, htruth.inStep, htruth.believes.accepts, hnear⟩

/-- The receiving rate is that of the bytes of the history after its first packet, over the time
between the true arrivals of its first and last packets, up to 1010 microseconds. -/
theorem run_recvRate_near (hover : OverBase api base) (h : Course base api start events s) {rrateBps : K}
    (hrate : (base s.sender.controller).getCurrentRecvRate = .ok (some rrateBps))
    (hbytes : bytesOf (base s.sender.controller).packetHistory < 2 ^ 29) :
    ∃ calls, RmcatSender.InStep base start.sender s.sender calls ∧
      ∃ front back arrivalFront arrivalBack, ∃ spanUs : ℕ,
        (base s.sender.controller).packetHistory.head? = some front ∧
        (base s.sender.controller).packetHistory.getLast? = some back ∧
        Vouches s.told (sentPackets calls) front arrivalFront ∧ Vouches s.told (sentPackets calls) back arrivalBack ∧
        rrateBps = 8 * 10 ^ 6 * (bytesOf (base s.sender.controller).packetHistory.tail : K) / (spanUs : K) ∧
        arrivalFront.1.toNat + spanUs ≤ arrivalBack.1.toNat + 1010 ∧
        arrivalBack.1.toNat ≤ arrivalFront.1.toNat + spanUs + 1010 := by
  obtain ⟨calls, accepted, htruth⟩ := truthful_run hover h
  exact ⟨calls, htruth.inStep, htruth.recvRate hrate hbytes⟩

end Runs

/-- A packet of 100 bytes, from the codec to the socket. -/
def sendOne : List (RmcatEvent ℚ) := List.replicate 3 (.sender (.runNext ⟨100, 1 / 100, true⟩ 0))

/-- Ten packets, ten milliseconds apart, of which eight arrive after 25 milliseconds; the report of
them is delivered twice. -/
def reportedFlow : List (RmcatEvent ℚ) :=
  (List.range 10).flatMap (fun k => sendOne ++ if 2 ≤ k then [.arrive ((10 * k + 5) * 1000000) (k - 2)] else []) ++
    .fbTimer 100000000 :: sendOne ++ [.deliver 105000000 0, .deliver 106000000 0]

private theorem course_reportedFlow : ∃ start s, ∃ rrateBps : ℚ,
    Course NadaController.base (nadaApi fun x => 1 + x) start reportedFlow s ∧
      s.sender.controller.base.packetHistory.length = 8 ∧ s.sender.controller.base.getCurrentQdelay = some 0 ∧
      s.sender.controller.base.getCurrentRecvRate = .ok (some rrateBps) ∧
      bytesOf s.sender.controller.base.packetHistory < 2 ^ 29 := by
  have hfacts : (RmcatSender.nadaSender 0 >>= fun sender =>
      run (guarded (step (nadaApi fun x => 1 + x)) fun s event => s.Possible event ∧ s.Timely NadaController.base event)
        (.start 10 5 sender 3) reportedFlow >>= fun s => s.sender.controller.base.getCurrentRecvRate >>= fun rate =>
      .ok (decide (s.sender.clockUs < 2 ^ 62 ∧ s.sender.controller.base.packetHistory.length = 8 ∧
        s.sender.controller.base.getCurrentQdelay = some 0 ∧ rate.isSome ∧
        bytesOf s.sender.controller.base.packetHistory < 2 ^ 29))) = .ok true := by
    decide +kernel
  obtain ⟨sender, hsender, hfacts⟩ := bind_eq_ok.mp hfacts
  obtain ⟨s, hrun, hfacts⟩ := bind_eq_ok.mp hfacts
  obtain ⟨rate, hrate, hfacts⟩ := bind_eq_ok.mp hfacts
  obtain ⟨hclock, hlength, hqdelay, hsome, hbytes⟩ := of_decide_eq_true (Except.ok.inj hfacts)
  obtain ⟨rrateBps, rfl⟩ := Option.isSome_iff_exists.mp hsome
  obtain ⟨hrun, halong⟩ := run_guarded.mp hrun
  obtain ⟨hstarted, hnew⟩ := RmcatSender.started_nadaSender hsender
  refine ⟨_, s, rrateBps, ⟨⟨10, 5, sender, 3, rfl, hstarted, hnew⟩, hrun, ?_, ?_, hclock⟩, hlength, hqdelay, hrate, hbytes⟩
  · exact fun before event after he mid hmid => (halong before event after he mid hmid).1
  · exact fun before event after he mid hmid => (halong before event after he mid hmid).2

theorem run_accepts_arrivals_reported : ∃ start s : RmcatFlow (NadaController ℚ) ℚ, s.sender.controller.base.packetHistory.length = 8 ∧
    ∃ calls accepted, RmcatSender.InStep NadaController.base start.sender s.sender calls ∧
      run (traced SenderBasedController.step SenderBasedController.acceptedPackets)
        (start.sender.controller.base, []) calls = .ok (s.sender.controller.base, accepted) ∧
      s.sender.controller.base.packetHistory <:+ accepted ∧
      ∀ p ∈ accepted, ∃ arrival, Vouches s.told (sentPackets calls) p arrival := by
  obtain ⟨start, s, -, hcourse, hlength, -⟩ := course_reportedFlow
  exact ⟨start, s, hlength, run_accepts_arrivals overBase_nada hcourse⟩

theorem run_qdelay_near_reported : ∃ start s : RmcatFlow (NadaController ℚ) ℚ, ∃ calls accepted leastUs newestUs,
    RmcatSender.InStep NadaController.base start.sender s.sender calls ∧
      run (traced SenderBasedController.step SenderBasedController.acceptedPackets)
        (start.sender.controller.base, []) calls = .ok (s.sender.controller.base, accepted) ∧
      IsLeast (trueDelays s.told (sentPackets calls) accepted) leastUs ∧
      IsLeast (trueDelays s.told (sentPackets calls) s.sender.controller.base.newest) newestUs ∧
      newestUs ≤ leastUs + (0 : UInt64).toNat + 1010 ∧ leastUs + (0 : UInt64).toNat ≤ newestUs + 1010 := by
  obtain ⟨start, s, -, hcourse, -, hqdelay, -⟩ := course_reportedFlow
  exact ⟨start, s, run_qdelay_near overBase_nada hcourse hqdelay⟩

theorem run_recvRate_near_reported : ∃ start s : RmcatFlow (NadaController ℚ) ℚ, ∃ rrateBps : ℚ,
    s.sender.controller.base.getCurrentRecvRate = .ok (some rrateBps) ∧
    ∃ calls, RmcatSender.InStep NadaController.base start.sender s.sender calls ∧
      ∃ front back arrivalFront arrivalBack, ∃ spanUs : ℕ,
        s.sender.controller.base.packetHistory.head? = some front ∧
        s.sender.controller.base.packetHistory.getLast? = some back ∧
        Vouches s.told (sentPackets calls) front arrivalFront ∧ Vouches s.told (sentPackets calls) back arrivalBack ∧
        rrateBps = 8 * 10 ^ 6 * (bytesOf s.sender.controller.base.packetHistory.tail : ℚ) / (spanUs : ℚ) ∧
        arrivalFront.1.toNat + spanUs ≤ arrivalBack.1.toNat + 1010 ∧
        arrivalBack.1.toNat ≤ arrivalFront.1.toNat + spanUs + 1010 := by
  obtain ⟨start, s, rrateBps, hcourse, -, -, hrate, hbytes⟩ := course_reportedFlow
  exact ⟨start, s, rrateBps, hrate, run_recvRate_near overBase_nada hcourse hrate hbytes⟩

end RmcatFlow

end Ns3Rmcat.Flow
