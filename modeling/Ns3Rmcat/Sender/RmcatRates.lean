import Ns3Rmcat.Sender.RmcatPacing

/-! The rate at which packets leave the rate shaping buffer: never above the send rate, and never below
it while packets wait. -/
namespace Ns3Rmcat.Sender
open Lib Header Controller

namespace RmcatSender
variable {C K : Type} {s s' : RmcatSender C K}

def bytesOf (gone : List (Departure UInt32)) : ℕ := (gone.map fun departure => departure.element.toNat).sum

private theorem bytesOf_cons (departure : Departure UInt32) (gone : List (Departure UInt32)) :
    bytesOf (departure :: gone) = departure.element.toNat + bytesOf gone := by
  simp [bytesOf]

private theorem bytesOf_le_buffered {gone : List (Departure UInt32)} (size : UInt32)
    (helements : gone.map Departure.element = (s.rateShapingBuf ++ [size]).take gone.length)
    (hlength : gone.length ≤ s.rateShapingBuf.length) : bytesOf gone ≤ s.buffered := by
  rw [List.take_append_of_le_length hlength] at helements
  have hsum : s.buffered = ((s.rateShapingBuf.take gone.length).map UInt32.toNat).sum +
      ((s.rateShapingBuf.drop gone.length).map UInt32.toNat).sum := by
    rw [← List.sum_append, ← List.map_append, List.take_append_drop]
    rfl
  rw [hsum, ← helements, List.map_map]
  exact Nat.le_add_right _ _

section Rates
variable [Field K] [LinearOrder K] [IsStrictOrderedRing K] [FloorSemiring K] {api : ControllerApi C K}
  {start mid : RmcatSender C K} {q : PacedQueue UInt32} {events before after : List (SenderEvent K)}

private theorem usAtRate_bounds {rateBps : K} (hpos : 0 < rateBps) (bytesToSend : UInt32) :
    rateBps * usAtRate rateBps bytesToSend ≤ 8 * 10 ^ 6 * bytesToSend.toNat ∧
      8 * 10 ^ 6 * (bytesToSend.toNat : K) ≤ rateBps * (usAtRate rateBps bytesToSend + 1) := by
  have hbits : ((bytesToSend.toNat * 8 * 1000 * 1000 : ℕ) : K) = 8 * 10 ^ 6 * bytesToSend.toNat := by
    push_cast
    ring
  have hbelow := Nat.floor_le (div_nonneg (Nat.cast_nonneg (bytesToSend.toNat * 8 * 1000 * 1000)) hpos.le)
  have habove := Nat.lt_floor_add_one (((bytesToSend.toNat * 8 * 1000 * 1000 : ℕ) : K) / rateBps)
  rw [← usAtRate, le_div_iff₀' hpos, hbits] at hbelow
  rw [← usAtRate, div_lt_iff₀' hpos, hbits] at habove
  exact ⟨hbelow, habove.le⟩

omit [IsStrictOrderedRing K] in
private theorem departure_of_step {event : SenderEvent K} (h : s.step api event = .ok s') {gone : Departure UInt32}
    (hgone : .dequeue gone ∈ s.pacedActions event) {p : K → Prop} (hp : s.AtSend p event) :
    gone.atUs = s'.clockUs ∧ gone.holdUs = usAtRate s.rSend gone.element ∧ gone.element.toNat ≤ 1000 ∧ p s.rSend := by
  rcases step_cases h with ⟨codec, rand, next, simulator, rfl, hnext, hcases⟩ |
    ⟨atNs, rIPAddress, rport, packet, rfl, controller, rVin, rSend, rfl⟩ | ⟨atNs, rfl, rfl⟩ | ⟨atNs, rfl, -, rfl⟩ |
    ⟨atNs, rfl, rfl⟩
  · rcases hcases with ⟨hhandler, h⟩ | ⟨usSlept, hhandler, h⟩ | ⟨bytesToSend, hhandler, h⟩
    · simp [pacedActions, hnext, hhandler] at hgone
    · obtain ⟨bytesToSend, rest, overNs, hfront, -, hsize, hcases⟩ := sendPacket_ok h
      dsimp only at hfront
      obtain rfl : gone = ⟨simulator.nowNs / 1000, bytesToSend, usAtRate s.rSend bytesToSend⟩ := by
        simpa [pacedActions, hnext, hhandler, hfront] using hgone
      have hrate : p s.rSend := hp (by rw [due_of_runNext hnext, hhandler]; rfl)
      refine ⟨?_, rfl, hsize, hrate⟩
      rcases hcases with ⟨-, rfl⟩ | ⟨-, rfl⟩ <;> rfl
    · simp [pacedActions, hnext, hhandler] at hgone
  · simp [pacedActions] at hgone
  · simp [pacedActions] at hgone
  · simp [pacedActions] at hgone
  · simp [pacedActions] at hgone

omit [IsStrictOrderedRing K] in
private theorem departure_of_run (hrun : run (step api) s events = .ok s') {gone : Departure UInt32}
    (hgone : gone ∈ departures (observed (step api) pacedActions s events)) {p : K → Prop}
    (hp : Along (step api) (AtSend p) s events) : gone.atUs ≤ s'.clockUs ∧ gone.element.toNat ≤ 1000 ∧
      ∃ rate, p rate ∧ gone.holdUs = usAtRate rate gone.element := by
  obtain ⟨before, event, after, mid, next, he, hmid, hnext, hafter, hmem⟩ :=
    mem_observed _ pacedActions hrun (mem_departures.mp hgone)
  obtain ⟨hat, hhold, hsize, hrate⟩ := departure_of_step hnext hmem (hp before event after he mid hmid)
  exact ⟨hat.le.trans (clockUs_le_run hafter), hsize, mid.rSend, hrate, hhold⟩

private theorem bytesOf_le {gone : List (Departure UInt32)} {mostBps : K} (hmost : ∀ departure ∈ gone, ∃ rate : K,
    (1 ≤ rate ∧ rate ≤ mostBps) ∧ departure.holdUs = usAtRate rate departure.element) :
    8 * 10 ^ 6 * (bytesOf gone : K) ≤ mostBps * (heldUs gone + gone.length) := by
  induction gone with
  | nil => simp [bytesOf, heldUs]
  | cons departure gone ih =>
    obtain ⟨rate, ⟨hone, hle⟩, hhold⟩ := hmost departure List.mem_cons_self
    have hmore := ih fun other hother => hmost other (List.mem_cons_of_mem _ hother)
    have hpos : 0 < rate := zero_lt_one.trans_le hone
    -- A microsecond is lost at most.
    have habove := (usAtRate_bounds hpos departure.element).2
    rw [← hhold] at habove
    have hthis : 8 * 10 ^ 6 * (departure.element.toNat : K) ≤ mostBps * (departure.holdUs + 1) := by
      exact habove.trans (mul_le_mul_of_nonneg_right hle (by positivity))
    rw [bytesOf_cons, heldUs_cons, List.length_cons]
    push_cast
    linarith

private theorem le_bytesOf {gone : List (Departure UInt32)} {leastBps : K} (hleast : ∀ departure ∈ gone, ∃ rate : K,
    (1 ≤ rate ∧ leastBps ≤ rate) ∧ departure.holdUs = usAtRate rate departure.element) :
    leastBps * (heldUs gone : K) ≤ 8 * 10 ^ 6 * bytesOf gone := by
  induction gone with
  | nil => simp [bytesOf, heldUs]
  | cons departure gone ih =>
    obtain ⟨rate, ⟨hone, hle⟩, hhold⟩ := hleast departure List.mem_cons_self
    have hmore := ih fun other hother => hleast other (List.mem_cons_of_mem _ hother)
    have hpos : 0 < rate := zero_lt_one.trans_le hone
    have hbelow := (usAtRate_bounds hpos departure.element).1
    rw [← hhold] at hbelow
    have hthis : leastBps * (departure.holdUs : K) ≤ 8 * 10 ^ 6 * departure.element.toNat := by
      exact (mul_le_mul_of_nonneg_right hle (Nat.cast_nonneg _)).trans hbelow
    rw [bytesOf_cons, heldUs_cons]
    push_cast
    linarith

omit [IsStrictOrderedRing K] in
private theorem kind_of_pacedActions {event : SenderEvent K} :
    (.restart ∈ s.pacedActions event → event.resumes = true) ∧
      (.discard ∈ s.pacedActions event → event.silences = true) := by
  cases event with
  | runNext codec rand =>
    refine ⟨fun h => ?_, fun h => ?_⟩
    all_goals
      obtain ⟨next, -, h⟩ := List.mem_flatMap.mp h
      cases hhandler : next.1.handler <;> simp [hhandler] at h
  | recvPacket atNs rIPAddress rport packet => exact ⟨fun h => by simp [pacedActions] at h, fun h => by simp [pacedActions] at h⟩
  | pauseResume atNs pause =>
    cases pause with
    | true => exact ⟨fun h => by simp [pacedActions] at h, fun _ => rfl⟩
    | false => exact ⟨fun _ => rfl, fun h => by simp [pacedActions] at h⟩
  | stopApplication atNs => exact ⟨fun h => by simp [pacedActions] at h, fun _ => rfl⟩

omit [IsStrictOrderedRing K] in
private theorem not_observed (hrun : run (step api) s events = .ok s') {action : PacedAction UInt32}
    {kind : SenderEvent K → Bool}
    (hkind : ∀ (t : RmcatSender C K) (event : SenderEvent K), action ∈ t.pacedActions event → kind event = true)
    (hno : ∀ event ∈ events, kind event = false) : action ∉ observed (step api) pacedActions s events := by
  intro hmem
  obtain ⟨before, event, after, mid, next, rfl, -, -, -, haction⟩ := mem_observed _ pacedActions hrun hmem
  have hother := hno event (by simp)
  rw [hkind mid event haction] at hother
  cases hother

omit [IsStrictOrderedRing K] in
private theorem not_restart (hrun : run (step api) s events = .ok s')
    (hresumes : ∀ event ∈ events, event.resumes = false) :
    .restart ∉ observed (step api) pacedActions s events :=
  not_observed hrun (fun _ _ => kind_of_pacedActions.1) hresumes

omit [IsStrictOrderedRing K] in
private theorem not_discard (hrun : run (step api) s events = .ok s')
    (hkeeps : ∀ event ∈ events, event.silences = false) :
    .discard ∉ observed (step api) pacedActions s events :=
  not_observed hrun (fun _ _ => kind_of_pacedActions.2) hkeeps

/-- The sender is never faster than its send rate: over any stretch of a run without a resume, the
packets that leave the buffer before the last one have their time at the highest rate of the
stretch, up to a microsecond each. -/
theorem run_keeps_rate {mostBps : K} (hstart : Started start) (hbefore : run (step api) start before = .ok mid)
    (hrun : run (step api) mid after = .ok s) (hclock : s.clockUs < 2 ^ 62)
    (hrate : Along (step api) (AtSend (1 ≤ ·)) start before)
    (hmost : Along (step api) (AtSend fun rate => 1 ≤ rate ∧ rate ≤ mostBps) mid after)
    (hresumes : ∀ event ∈ after, event.resumes = false) {first last : Departure UInt32} {between : List (Departure UInt32)}
    (hgone : departures (observed (step api) pacedActions mid after) = first :: between ++ [last]) :
    first.atUs ≤ last.atUs ∧ 8 * 10 ^ 6 * (bytesOf (first :: between) : K) ≤
      mostBps * ((last.atUs - first.atUs : ℕ) + (between.length + 1)) := by
  have hclock' : mid.clockUs < 2 ^ 62 := (clockUs_le_run hrun).trans_lt hclock
  obtain ⟨q, -, hpaced, harmed⟩ := paced_run (paced_started hstart) (armed_started hstart) hrate hbefore hclock'
  have hone : Along (step api) (AtSend (1 ≤ ·)) mid after := along_mono (fun _ => And.left) hmost
  obtain ⟨q', hreplay, -⟩ := paced_run hpaced harmed hone hrun hclock
  have htime := PacedQueue.departs_after (not_restart hrun hresumes) hreplay hgone
  have hrates : ∀ departure ∈ first :: between, ∃ rate : K,
      (1 ≤ rate ∧ rate ≤ mostBps) ∧ departure.holdUs = usAtRate rate departure.element := by
    intro departure hmem
    have hin : departure ∈ departures (observed (step api) pacedActions mid after) := by
      rw [hgone]
      exact List.mem_append_left _ hmem
    exact (departure_of_run hrun hin hmost).2.2
  have hpos : 0 ≤ mostBps := by
    obtain ⟨rate, ⟨hone, hle⟩, -⟩ := hrates first List.mem_cons_self
    exact zero_le_one.trans (hone.trans hle)
  have hheld : (heldUs (first :: between) : K) ≤ (last.atUs - first.atUs : ℕ) := Nat.cast_le.mpr (by omega)
  refine ⟨by omega, (bytesOf_le hrates).trans (mul_le_mul_of_nonneg_left ?_ hpos)⟩
  rw [List.length_cons]
  push_cast
  linarith

omit [IsStrictOrderedRing K] in
private theorem paused_step {event : SenderEvent K} (h : s.step api event = .ok s') (hkeeps : event.silences = false)
    (hpaused : s.paused = false) : s'.paused = false ∧ event.resumes = false := by
  rcases step_cases h with ⟨codec, rand, next, simulator, rfl, -, hcases⟩ |
    ⟨atNs, rIPAddress, rport, packet, rfl, controller, rVin, rSend, rfl⟩ | ⟨atNs, rfl, rfl⟩ |
    ⟨atNs, rfl, hother, rfl⟩ | ⟨atNs, rfl, rfl⟩
  · refine ⟨?_, rfl⟩
    rcases hcases with ⟨-, h⟩ | ⟨usSlept, -, h⟩ | ⟨bytesToSend, -, h⟩
    · obtain ⟨-, -, ⟨-, rfl⟩ | ⟨-, rfl⟩⟩ := enqueuePacket_ok h <;> exact hpaused
    · obtain ⟨bytesToSend, rest, overNs, -, -, -, ⟨-, rfl⟩ | ⟨-, rfl⟩⟩ := sendPacket_ok h <;> exact hpaused
    · obtain ⟨controller, packet, rfl⟩ := sendOverSleep_cases h
      exact hpaused
  · exact ⟨hpaused, rfl⟩
  · cases hkeeps
  · rw [hpaused] at hother
    cases hother
  · cases hkeeps

omit [IsStrictOrderedRing K] in
private theorem not_resumed (hrun : run (step api) s events = .ok s')
    (hkeeps : ∀ event ∈ events, event.silences = false)
    (hpaused : s.paused = false) : ∀ event ∈ events, event.resumes = false := by
  induction events generalizing s with
  | nil => simp
  | cons first events ih =>
    obtain ⟨next, hnext, hrest⟩ := bind_eq_ok.mp hrun
    obtain ⟨hpaused', hno⟩ := paused_step hnext (hkeeps first List.mem_cons_self) hpaused
    intro event hevent
    rcases List.mem_cons.mp hevent with rfl | hmem
    · exact hno
    · exact ih hrest (fun other hother => hkeeps other (List.mem_cons_of_mem _ hother)) hpaused' event hmem

omit [IsStrictOrderedRing K] in
private theorem Paced.come (hs : Paced q s) (harmed : Armed s) {codec : Codec K} {rand : UInt64}
    (hdue : s.due = some .enqueuePacket) (hclock : s'.clockUs < 2 ^ 62) (h : s.step api (.runNext codec rand) = .ok s') :
    Paced { q with waiting := q.waiting ++ [(s'.clockUs, codec.size.toUInt32)] } s' ∧ s'.paused = false := by
  obtain ⟨⟨next, simulator⟩, hnext, hhandler⟩ := Option.map_eq_some_iff.mp hdue
  have hkind : next.handler.isEnqueuePacket = true := by
    rw [show next.handler = .enqueuePacket from hhandler]
    rfl
  refine ⟨?_, (paused_step h rfl (harmed.not_paused hnext hkind)).1⟩
  have henqueue : { s with simulator }.enqueuePacket codec = .ok s' := by
    simp only [RmcatSender.step, hnext] at h
    rwa [show next.handler = .enqueuePacket from hhandler] at h
  have hclockUs : s'.clockUs = simulator.nowNs / 1000 := by
    obtain ⟨-, -, ⟨-, rfl⟩ | ⟨-, rfl⟩⟩ := enqueuePacket_ok henqueue <;> rfl
  rw [hclockUs]
  exact hs.enqueuePacket harmed hnext hhandler hclock henqueue

private theorem freeUs_run {leastBps : K} (hleast : 1 ≤ leastBps) (hrun : run (step api) s events = .ok s')
    (hrate : Along (step api) (AtSend (leastBps ≤ ·)) s events)
    (hreplay : PacedQueue.replay ⟨0, []⟩ (observed (step api) pacedActions s events) = some q) :
    leastBps * (q.freeUs : K) ≤ leastBps * s'.clockUs + 8 * 10 ^ 9 := by
  have hpos : 0 < leastBps := zero_lt_one.trans_le hleast
  have hzero (hfree : q.freeUs = 0) : leastBps * (q.freeUs : K) ≤ leastBps * s'.clockUs + 8 * 10 ^ 9 := by
    rw [hfree, Nat.cast_zero, mul_zero]
    positivity
  rcases PacedQueue.freeUs_cases hreplay with hfree | hfree | ⟨departure, hgone, hfree⟩
  · exact hzero hfree
  · exact hzero hfree
  · obtain ⟨hpast, hsize, rate, hle, hhold⟩ := departure_of_run hrun hgone hrate
    have hbelow := (usAtRate_bounds (hpos.trans_le hle) departure.element).1
    rw [← hhold] at hbelow
    have hpast' : leastBps * (departure.atUs : K) ≤ leastBps * s'.clockUs :=
      mul_le_mul_of_nonneg_left (Nat.cast_le.mpr hpast) hpos.le
    have hhold' : leastBps * (departure.holdUs : K) ≤ rate * departure.holdUs :=
      mul_le_mul_of_nonneg_right hle (Nat.cast_nonneg _)
    have hsize' : (departure.element.toNat : K) ≤ 1000 := by exact_mod_cast hsize
    rw [hfree]
    push_cast
    linarith

omit [FloorSemiring K] in
private theorem scaled_le {leastBps bytes : K} (hpos : 0 < leastBps) {clockUs cameUs freeUs held : ℕ}
    (hfree : leastBps * (freeUs : K) ≤ leastBps * cameUs + 8 * 10 ^ 9)
    (hheld : leastBps * (held : K) ≤ 8 * 10 ^ 6 * bytes) (hwait : clockUs - cameUs ≤ (freeUs - cameUs) + held) :
    leastBps * ((clockUs - cameUs : ℕ) : K) ≤ 8 * 10 ^ 6 * (bytes + 1000) := by
  have hfirst : leastBps * ((freeUs - cameUs : ℕ) : K) ≤ 8 * 10 ^ 9 := by
    rcases le_total freeUs cameUs with hle | hle
    · rw [Nat.sub_eq_zero_of_le hle, Nat.cast_zero, mul_zero]
      positivity
    · rw [Nat.cast_sub hle]
      linarith
  have hcast : ((clockUs - cameUs : ℕ) : K) ≤ ((freeUs - cameUs : ℕ) : K) + held := by exact_mod_cast hwait
  calc leastBps * ((clockUs - cameUs : ℕ) : K)
      ≤ leastBps * (((freeUs - cameUs : ℕ) : K) + held) := mul_le_mul_of_nonneg_left hcast hpos.le
    _ = leastBps * ((freeUs - cameUs : ℕ) : K) + leastBps * held := mul_add _ _ _
    _ ≤ 8 * 10 ^ 9 + 8 * 10 ^ 6 * bytes := add_le_add hfirst hheld
    _ = 8 * 10 ^ 6 * (bytes + 1000) := by ring

/-- The sender is never slower than its send rate, either: a packet is taken out of the buffer, unless
it is discarded, within the time at the lowest rate of the bytes that were in the buffer before it
and of one more packet. -/
theorem run_waits_at_most {leastBps : K} (hleast : 1 ≤ leastBps) (hstart : Started start)
    (hbefore : run (step api) start before = .ok mid) {codec : Codec K} {rand : UInt64}
    (hdue : mid.due = some .enqueuePacket) {came waits : RmcatSender C K}
    (hcome : mid.step api (.runNext codec rand) = .ok came) (hafter : run (step api) came after = .ok waits)
    {event : SenderEvent K} (hstep : waits.step api event = .ok s) (hclock : s.clockUs < 2 ^ 62)
    (hrate : Along (step api) (AtSend (leastBps ≤ ·)) start (before ++ .runNext codec rand :: after))
    (hkeeps : ∀ other ∈ after, other.silences = false)
    (hwaits : (departures (observed (step api) pacedActions came after)).length ≤ mid.rateShapingBuf.length) :
    leastBps * ((s.clockUs - came.clockUs : ℕ) : K) ≤ 8 * 10 ^ 6 * ((mid.buffered : K) + 1000) := by
  have hpos : 0 < leastBps := zero_lt_one.trans_le hleast
  have hwaitsClock := clockUs_back hstep hclock
  have hcameClock := (clockUs_le_run hafter).trans_lt hwaitsClock
  have hmidClock := clockUs_back hcome hcameClock
  have hone {t : RmcatSender C K} {events : List (SenderEvent K)} (h : Along (step api) (AtSend (leastBps ≤ ·)) t events) :
      Along (step api) (AtSend (1 ≤ ·)) t events := along_mono (fun _ => hleast.trans) h
  -- The queue before and after the packet has come, and while it waits.
  obtain ⟨q, hreplay, hpaced, harmed⟩ :=
    paced_run (paced_started hstart) (armed_started hstart) (hone hrate.init) hbefore hmidClock
  obtain ⟨hcame, hpaused⟩ := hpaced.come harmed hdue hcameClock hcome
  have hrateAfter := (along_cons.mp (hrate.rest hbefore)).2 came hcome
  obtain ⟨q', hreplay', hpaced', harmed'⟩ := paced_run hcame (harmed.step hcome) (hone hrateAfter) hafter hwaitsClock
  have hlength : q.waiting.length = mid.rateShapingBuf.length := by
    rw [← hpaced.waiting, List.length_map]
  obtain ⟨helements, ⟨more, hmore⟩, hfree⟩ := PacedQueue.freeUs_le hcame.past
    (not_restart hafter (not_resumed hafter hkeeps hpaused)) (not_discard hafter hkeeps) hreplay' (by
      rw [List.length_append, hlength]
      exact hwaits.trans (Nat.le_add_right _ _))
  -- A packet that was in the buffer before it, or the packet itself, is at the front.
  obtain ⟨front, hfront, hsince⟩ := PacedQueue.exists_front hcame.past (by
    rw [List.length_append, hlength]
    exact Nat.lt_succ_of_le hwaits) hmore
  have hlater : s.clockUs ≤ max front.1 q'.freeUs := by
    obtain ⟨e, he, hat⟩ := hpaced'.exists_timer harmed' hfront
    exact hat ▸ Nat.div_le_div_right ((clock_step hstep).2 e he)
  have hrates : ∀ departure ∈ departures (observed (step api) pacedActions came after), ∃ rate : K,
      (1 ≤ rate ∧ leastBps ≤ rate) ∧ departure.holdUs = usAtRate rate departure.element := by
    intro departure hmem
    obtain ⟨-, -, rate, hle, hhold⟩ := departure_of_run hafter hmem hrateAfter
    exact ⟨rate, ⟨hleast.trans hle, hle⟩, hhold⟩
  have hbytes : bytesOf (departures (observed (step api) pacedActions came after)) ≤ mid.buffered := by
    refine bytesOf_le_buffered codec.size.toUInt32 ?_ hwaits
    rw [helements, List.map_take, List.map_append, hpaced.waiting]
    rfl
  have hheld := le_bytesOf hrates
  have hheld' := hheld.trans (mul_le_mul_of_nonneg_left (Nat.cast_le.mpr hbytes) (by positivity))
  have hfreeAt : leastBps * (q.freeUs : K) ≤ leastBps * came.clockUs + 8 * 10 ^ 9 := by
    have hmid : leastBps * (mid.clockUs : K) ≤ leastBps * came.clockUs := by
      refine mul_le_mul_of_nonneg_left (Nat.cast_le.mpr ?_) hpos.le
      exact Nat.div_le_div_right (clock_step hcome).1
    have hlast := freeUs_run hleast hbefore hrate.init hreplay
    linarith
  -- The packet waits for the last one that has left, and then for those before it.
  have hwait : s.clockUs - came.clockUs ≤ (q.freeUs - came.clockUs) +
      heldUs (departures (observed (step api) pacedActions came after)) := by
    dsimp only at hfree
    omega
  exact scaled_le hpos hfreeAt hheld' hwait

end Rates

theorem run_keeps_rate_threePackets : 0 ≤ 200000 ∧
    8 * 10 ^ 6 * (bytesOf [⟨0, 1000, 100000⟩, ⟨100000, 1000, 100000⟩] : ℚ) ≤
      80000 * ((200000 - 0 : ℕ) + (([⟨100000, 1000, 100000⟩] : List (Departure UInt32)).length + 1)) := by
  obtain ⟨start, s, hstart, hrun, hclock, hrate, hgone⟩ := run_threePackets
  refine run_keeps_rate hstart rfl hrun (by rw [hclock]; norm_num) (along_nil _ _) hrate ?_ hgone
  simp [threePackets, SenderEvent.resumes]

theorem run_waits_at_most_threePackets : ∃ mid came s : RmcatSender (DummyController ℚ) ℚ,
    mid.buffered = 1000 ∧ came.clockUs = 20000 ∧ s.clockUs = 200000 ∧
      80000 * ((s.clockUs - came.clockUs : ℕ) : ℚ) ≤ 8 * 10 ^ 6 * ((mid.buffered : ℚ) + 1000) := by
  have hfacts : (dummySender 80000 >>= fun start =>
      run (step dummyApi) start (List.replicate 4 (.runNext ⟨1000, 1 / 100, true⟩ 0)) >>= fun mid =>
      mid.step dummyApi (.runNext ⟨1000, 1, true⟩ 0) >>= fun came =>
      run (step dummyApi) came (List.replicate 2 (.runNext ⟨1000, 1, true⟩ 0)) >>= fun waits =>
      waits.step dummyApi (.runNext ⟨1000, 1, true⟩ 0) >>= fun s =>
      .ok (decide (mid.due = some .enqueuePacket ∧ mid.buffered = 1000 ∧ came.clockUs = 20000 ∧ s.clockUs = 200000 ∧
        (departures (observed (step dummyApi) pacedActions came
          (List.replicate 2 (.runNext ⟨1000, 1, true⟩ 0)))).length ≤ mid.rateShapingBuf.length ∧
        Along (step dummyApi) (AtSend (80000 ≤ ·)) start (List.replicate 4 (.runNext ⟨1000, 1 / 100, true⟩ 0) ++
          .runNext ⟨1000, 1, true⟩ 0 :: List.replicate 2 (.runNext ⟨1000, 1, true⟩ 0))))) = .ok true := by
    decide +kernel
  obtain ⟨start, hstart, hfacts⟩ := bind_eq_ok.mp hfacts
  obtain ⟨mid, hbefore, hfacts⟩ := bind_eq_ok.mp hfacts
  obtain ⟨came, hcome, hfacts⟩ := bind_eq_ok.mp hfacts
  obtain ⟨waits, hafter, hfacts⟩ := bind_eq_ok.mp hfacts
  obtain ⟨s, hstep, hfacts⟩ := bind_eq_ok.mp hfacts
  obtain ⟨hdue, hbuffered, hcame, hclock, hwaits, hrate⟩ := of_decide_eq_true (Except.ok.inj hfacts)
  refine ⟨mid, came, s, hbuffered, hcame, hclock, ?_⟩
  refine run_waits_at_most (by norm_num) (started_dummySender hstart) hbefore hdue hcome hafter hstep ?_ hrate ?_ hwaits
  · rw [hclock]
    norm_num
  · simp [SenderEvent.silences]

end RmcatSender

end Ns3Rmcat.Sender
