import DesktopCube.Audio.Flow

namespace DesktopCube.Audio
open Transition RingBuffer

/-- The packet of a call of `write_ringbuf`. -/
def SessionLabel.packet : SessionLabel → Option (List UInt8)
  | .call data => some data
  | .writeRingbuf | .btI2sTaskHandler _ => none

/-- The packets of the calls that begin in a run. -/
def calledPackets (labels : List SessionLabel) : List (List UInt8) := labels.filterMap SessionLabel.packet

/-- The last of the packets brings the ring of a waiting consumer to the prefetch level. -/
structure Refill (start : Session × History) (packets : List (List UInt8)) : Prop where
  reached : deliveryMachine.Reachable start
  idle : start.1.point = .idle
  parked : start.1.Parked
  prefetching : start.1.ringbufferMode = .prefetching
  nonempty : packets ≠ []
  low : ∀ fewer, fewer <+: packets → fewer ≠ [] → fewer ≠ packets →
    (start.1.ringbufI2s.waiting ++ fewer.flatten).length < ringbufPrefetchWaterLevel
  high : ringbufPrefetchWaterLevel ≤ (start.1.ringbufI2s.waiting ++ packets.flatten).length
  fits : (start.1.ringbufI2s.waiting ++ packets.flatten).length ≤ ringbufHighestWaterLevel

/-- The producer has begun the calls of fewer packets and stays on its way to the token. -/
def Refilling (waiting : List UInt8) (packets fewer : List (List UInt8)) (s : Session) : Prop :=
  match s.point with
  | .idle =>
      s.ringbufferMode = .prefetching ∧ s.ringbufI2s.waiting = waiting ++ fewer.flatten ∧ fewer ≠ packets
  | .testDropping | .send =>
      s.ringbufferMode = .prefetching ∧
        ∃ before, fewer = before ++ [s.data] ∧ s.ringbufI2s.waiting = waiting ++ before.flatten
  | .testPrefetching | .infoPrefetching =>
      s.ringbufferMode = .prefetching ∧ s.ringbufI2s.waiting = waiting ++ fewer.flatten ∧ fewer ≠ []
  | .leavePrefetching | .give => s.ringbufI2s.waiting = waiting ++ fewer.flatten ∧ fewer = packets
  | .infoDropping | .leaveDropping | .enterDropping | .giveFailed => False

/-- The consumer waits while the producer refills the ring. -/
structure Filling (start : Session × History) (packets : List (List UInt8)) (pair : Session × History) : Prop where
  reached : deliveryMachine.Reachable pair
  parked : pair.1.Parked
  written : pair.2.written = start.2.written
  calls : ∃ fewer, fewer <+: packets ∧ pair.2.issued = start.2.issued ++ fewer ∧
    Refilling start.1.ringbufI2s.waiting packets fewer pair.1

/-- The consumer has its token for all the packets. -/
structure Woken (start : Session × History) (packets : List (List UInt8)) (pair : Session × History) : Prop where
  issued : start.2.issued ++ packets <+: pair.2.issued
  working : Working (start.2.acceptedBytes ++ packets.flatten) pair

/-- The calls so far and the packets go on from each other. -/
def Agrees (start : Session × History) (packets : List (List UInt8)) (pair : Session × History) : Prop :=
  pair.2.issued <+: start.2.issued ++ packets ∨ start.2.issued ++ packets <+: pair.2.issued

/-- The history adds the packets of the calls. -/
theorem issued_step {pair after : Session × History} {label : SessionLabel}
    (taken : deliveryMachine.step pair label = some after) :
    after.2.issued = pair.2.issued ++ label.packet.toList := by
  rw [(Machine.recorded_step_iff.mp taken).2]
  cases label with
  | call data => rfl
  | writeRingbuf | btI2sTaskHandler => exact (List.append_nil _).symm

theorem issued_run {pair after : Session × History} {labels : List SessionLabel}
    (finished : deliveryMachine.run pair labels = some after) :
    after.2.issued = pair.2.issued ++ calledPackets labels := by
  induction labels generalizing pair with
  | nil =>
      cases finished
      exact (List.append_nil _).symm
  | cons label labels ih =>
      rw [Machine.run, Option.bind_eq_some_iff] at finished
      obtain ⟨middle, taken, finished⟩ := finished
      rw [ih finished, issued_step taken, List.append_assoc, calledPackets, calledPackets, List.filterMap_cons]
      cases label.packet <;> rfl

section Phases

variable {start pair after : Session × History} {packets : List (List UInt8)} {label : SessionLabel}

/-- Calls that leave the packets never agree with them again. -/
theorem Agrees.before (agrees : Agrees start packets after) (taken : deliveryMachine.step pair label = some after) :
    Agrees start packets pair := by
  have grows : pair.2.issued <+: after.2.issued := issued_step taken ▸ List.prefix_append _ _
  rcases agrees with ends | begins
  · exact .inl (grows.trans ends)
  · exact List.prefix_or_prefix_of_prefix grows begins

namespace Filling

/-- The bytes that wait follow the bytes that waited when the refill began. -/
theorem accepted (filling : Filling start packets pair) (refill : Refill start packets) {bytes : List UInt8}
    (waiting : pair.1.ringbufI2s.waiting = start.1.ringbufI2s.waiting ++ bytes) :
    pair.2.acceptedBytes = start.2.acceptedBytes ++ bytes := by
  have before : start.2.acceptedBytes = start.2.written ++ (start.1.held ++ start.1.ringbufI2s.waiting) :=
    Pipe.sent_eq (delivery_refines_pipe refill.reached)
  have now : pair.2.acceptedBytes = pair.2.written ++ (pair.1.held ++ pair.1.ringbufI2s.waiting) :=
    Pipe.sent_eq (delivery_refines_pipe filling.reached)
  rw [Session.held, if_neg (by simp [refill.parked.1]), List.nil_append] at before
  rw [Session.held, if_neg (by simp [filling.parked.1]), List.nil_append, filling.written, waiting,
    ← List.append_assoc, ← before] at now
  exact now

theorem begin (refill : Refill start packets) : Filling start packets start :=
  ⟨refill.reached, refill.parked, rfl, [], List.nil_prefix, (List.append_nil _).symm, by
    simp [Refilling, refill.idle, refill.prefetching, refill.nonempty.symm]⟩

/-- A call begins with the next of the packets. -/
theorem call {data : List UInt8} (filling : Filling start packets pair) (agrees : Agrees start packets after)
    (taken : deliveryMachine.step pair (.call data) = some after) : Filling start packets after := by
  obtain ⟨reached, parked, written, fewer, first, issued, refilling⟩ := filling
  have grown : after.2.issued = pair.2.issued ++ [data] := issued_step taken
  obtain ⟨moved, recorded⟩ := Machine.recorded_step_iff.mp taken
  change pair.1.call data = some after.1 at moved
  unfold Session.call at moved
  split at moved
  · rename_i idle
    simp only [Refilling, idle] at refilling
    obtain ⟨mode, waiting, proper⟩ := refilling
    rw [issued, List.append_assoc] at grown
    have shorter : fewer.length < packets.length :=
      Nat.lt_of_le_of_ne first.length_le fun same => proper (first.eq_of_length same)
    have next : fewer ++ [data] <+: packets := by
      unfold Agrees at agrees
      rw [grown, List.prefix_append_right_inj, List.prefix_append_right_inj] at agrees
      rcases agrees with ends | begins
      · exact ends
      · have whole : packets = fewer ++ [data] :=
          begins.eq_of_length_le (by rw [List.length_append]; exact shorter)
        exact whole ▸ List.prefix_rfl
    rw [Option.some.injEq] at moved
    refine ⟨.step reached (.call data) trivial taken, moved ▸ parked, ?_, fewer ++ [data], next, grown, ?_⟩
    · rw [recorded]
      exact written
    · rw [← moved]
      exact ⟨mode, fewer, rfl, waiting⟩
  · cases moved

/-- The packet of the call in progress fits behind the ones before it. -/
theorem room (filling : Filling start packets pair) (refill : Refill start packets) {before : List (List UInt8)}
    (first : before ++ [pair.1.data] <+: packets)
    (waiting : pair.1.ringbufI2s.waiting = start.1.ringbufI2s.waiting ++ before.flatten) :
    ∃ ring, pair.1.ringbufI2s.send pair.1.data = some ring ∧
      ring.waiting = start.1.ringbufI2s.waiting ++ (before ++ [pair.1.data]).flatten := by
  have returned : pair.1.ringbufI2s.taken = [] := (ItemInUse.reachable filling.reached).returned
    (by simp [filling.parked.1]) (by simp [filling.parked.1])
  have flat : start.1.ringbufI2s.waiting ++ (before ++ [pair.1.data]).flatten =
      pair.1.ringbufI2s.waiting ++ pair.1.data := by simp [waiting]
  have fits := refill.fits
  obtain ⟨rest, rfl⟩ := first
  rw [List.flatten_append, ← List.append_assoc, flat, List.length_append, List.length_append] at fits
  obtain ⟨ring, sent⟩ : ∃ ring, pair.1.ringbufI2s.send pair.1.data = some ring := by
    refine ⟨_, dif_pos ?_⟩
    rw [returned, List.length_nil]
    omega
  exact ⟨ring, sent, (Ringbuffer.send_some sent).1.trans flat.symm⟩

/-- The producer stores its packet and gives the token after the last of them. -/
theorem writeRingbuf (filling : Filling start packets pair) (refill : Refill start packets)
    (taken : deliveryMachine.step pair .writeRingbuf = some after) :
    Filling start packets after ∨ Woken start packets after := by
  have reached : deliveryMachine.Reachable after := .step filling.reached .writeRingbuf trivial taken
  have same : after.2.issued = pair.2.issued := (issued_step taken).trans (List.append_nil _)
  obtain ⟨moved, recorded⟩ := Machine.recorded_step_iff.mp taken
  have written : after.2.written = start.2.written := by
    rw [recorded]
    exact filling.written
  have ⟨fewer, first, issued, refilling⟩ := filling.calls
  have stays (parked : after.1.Parked) (onWay : Refilling start.1.ringbufI2s.waiting packets fewer after.1) :
      Filling start packets after := ⟨reached, parked, written, fewer, first, same.trans issued, onWay⟩
  change pair.1.writeRingbuf = some after.1 at moved
  unfold Session.writeRingbuf at moved
  cases point : pair.1.point with
  | idle => simp [point] at moved
  | infoDropping | leaveDropping | enterDropping | giveFailed => simp [Refilling, point] at refilling
  | testDropping =>
      simp only [Refilling, point] at refilling
      simp only [point, refilling.1, reduceCtorEq, if_false, Option.some.injEq] at moved
      exact .inl (stays (moved ▸ filling.parked) (moved ▸ ⟨rfl, refilling.2⟩))
  | send =>
      simp only [Refilling, point] at refilling
      obtain ⟨mode, before, rfl, waiting⟩ := refilling
      obtain ⟨ring, sent, stored⟩ := filling.room refill first waiting
      simp only [point, sent, Option.some.injEq] at moved
      exact .inl (stays (moved ▸ filling.parked) (moved ▸ ⟨mode, stored, by simp⟩))
  | testPrefetching =>
      simp only [Refilling, point] at refilling
      simp only [point, refilling.1, if_true, Option.some.injEq] at moved
      exact .inl (stays (moved ▸ filling.parked) (moved ▸ ⟨rfl, refilling.2⟩))
  | infoPrefetching =>
      simp only [Refilling, point] at refilling
      obtain ⟨mode, waiting, nonempty⟩ := refilling
      simp only [point, Ringbuffer.itemsWaiting, waiting] at moved
      split at moved
      · rename_i level
        have whole : fewer = packets := by
          by_contra proper
          exact Nat.not_le_of_lt (refill.low fewer first nonempty proper) level
        rw [Option.some.injEq] at moved
        exact .inl (stays (moved ▸ filling.parked) (moved ▸ ⟨waiting, whole⟩))
      · rename_i below
        have proper : fewer ≠ packets := fun whole => below (whole ▸ refill.high)
        rw [Option.some.injEq] at moved
        exact .inl (stays (moved ▸ filling.parked) (moved ▸ ⟨mode, waiting, proper⟩))
  | leavePrefetching =>
      simp only [Refilling, point] at refilling
      simp only [point, Option.some.injEq] at moved
      exact .inl (stays (moved ▸ filling.parked) (moved ▸ refilling))
  | give =>
      simp only [Refilling, point] at refilling
      obtain ⟨waiting, rfl⟩ := refilling
      simp only [point, filling.parked.2, Bool.false_eq_true, if_false, Option.some.injEq] at moved
      have accepted : start.2.acceptedBytes ++ fewer.flatten <+: after.2.acceptedBytes := by
        rw [recorded, ← filling.accepted refill waiting]
        exact (Session.record_grows _ _ _ _).1
      refine .inr ⟨same.trans issued ▸ List.prefix_rfl, reached, accepted, .inl (.inl ?_)⟩
      rw [← moved]
      rfl

/-- The waiting consumer takes no step. -/
theorem step (filling : Filling start packets pair) (refill : Refill start packets)
    (agrees : Agrees start packets after) (taken : deliveryMachine.step pair label = some after) :
    label.isConsumer = false ∧ (Filling start packets after ∨ Woken start packets after) := by
  cases label with
  | call data => exact ⟨rfl, .inl (filling.call agrees taken)⟩
  | writeRingbuf => exact ⟨rfl, filling.writeRingbuf refill taken⟩
  | btI2sTaskHandler contiguous =>
      have moved := (Machine.recorded_step_iff.mp taken).1
      simp [sessionMachine, Session.step, Session.btI2sTaskHandler, filling.parked.1, filling.parked.2] at moved

end Filling

theorem Woken.step (woken : Woken start packets pair) (taken : deliveryMachine.step pair label = some after) :
    Woken start packets after :=
  ⟨woken.issued.trans (issued_step taken ▸ List.prefix_append _ _), woken.working.kept taken⟩

namespace Refill

/-- Each byte takes three steps once the consumer is awake. -/
def potential (start : Session × History) (packets : List (List UInt8)) (pair : Session × History) : Nat :=
  if pair.1.Parked then 3 * (start.1.ringbufI2s.waiting ++ packets.flatten).length + 2
  else remaining (start.2.acceptedBytes ++ packets.flatten) pair

/-- The bytes that the consumer owes are the waiting ones and those of the packets. -/
theorem owed (refill : Refill start packets) :
    (start.2.acceptedBytes ++ packets.flatten).length - start.2.written.length =
      (start.1.ringbufI2s.waiting ++ packets.flatten).length := by
  have accepted : start.2.acceptedBytes = start.2.written ++ (start.1.held ++ start.1.ringbufI2s.waiting) :=
    Pipe.sent_eq (delivery_refines_pipe refill.reached)
  rw [Session.held, if_neg (by simp [refill.parked.1]), List.nil_append] at accepted
  rw [accepted, List.append_assoc, List.length_append, Nat.add_sub_cancel_left]

theorem potential_le (refill : Refill start packets) (written : pair.2.written = start.2.written) :
    potential start packets pair ≤ 3 * (start.1.ringbufI2s.waiting ++ packets.flatten).length + 2 := by
  unfold potential
  split
  · exact Nat.le_refl _
  · rw [← refill.owed, ← written]
    exact remaining_le _ _

theorem moves (refill : Refill start packets)
    (phase : Agrees start packets pair → Filling start packets pair ∨ Woken start packets pair)
    (taken : deliveryMachine.step pair label = some after) :
    (Agrees start packets after → start.2.acceptedBytes ++ packets.flatten <+: after.2.written) ∨
      potential start packets after + label.isConsumer.toNat ≤ potential start packets pair := by
  by_cases agrees : Agrees start packets after
  · rcases phase (agrees.before taken) with filling | woken
    · apply Or.inr
      obtain ⟨producer, next⟩ := filling.step refill agrees taken
      have written : after.2.written = start.2.written :=
        (Working.of_producer producer taken).2.trans filling.written
      have whole : potential start packets pair =
          3 * (start.1.ringbufI2s.waiting ++ packets.flatten).length + 2 := if_pos filling.parked
      rw [producer, Bool.toNat_false, Nat.add_zero, whole]
      exact refill.potential_le written
    · by_cases written : start.2.acceptedBytes ++ packets.flatten <+: after.2.written
      · exact .inl fun _ => written
      · have before := woken.working.running.resolve_right fun done => written (Working.stays done taken)
        have awake := (woken.step taken).working.running.resolve_right written
        apply Or.inr
        rw [potential, potential, if_neg before.not_parked, if_neg awake.not_parked]
        exact (woken.working.moves taken).resolve_left written
  · exact .inl fun now => absurd now agrees

theorem advances (refill : Refill start packets) : deliveryMachine.Advances
    (fun pair => Agrees start packets pair → Filling start packets pair ∨ Woken start packets pair)
    (fun pair => Agrees start packets pair → start.2.acceptedBytes ++ packets.flatten <+: pair.2.written)
    SessionLabel.isConsumer (potential start packets) where
  kept pair label after phase taken agrees := by
    rcases phase (agrees.before taken) with filling | woken
    · exact (filling.step refill agrees taken).2
    · exact .inr (woken.step taken)
  stays pair label after _ written taken agrees := Working.stays (written (agrees.before taken)) taken
  moves pair label after phase taken := refill.moves phase taken

end Refill

end Phases

/-- Packets that refill the ring to the prefetch level wake the consumer, which then writes all of them. -/
theorem refill_delivers {s later : Session} {h after : History} {packets : List (List UInt8)}
    {labels : List SessionLabel} (refill : Refill (s, h) packets)
    (finished : deliveryMachine.run (s, h) labels = some (later, after)) :
    (calledPackets labels <+: packets → calledPackets labels ≠ packets →
      later.Parked ∧
        (later.point = .idle → after.acceptedBytes = h.acceptedBytes ++ (calledPackets labels).flatten)) ∧
    (packets <+: calledPackets labels →
      calledPackets labels = packets ∧ later.point ≠ .idle ∧ later.Parked ∨
      h.acceptedBytes ++ packets.flatten <+: after.acceptedBytes ∧
        (3 * (s.ringbufI2s.waiting ++ packets.flatten).length ≤ labels.countP SessionLabel.isConsumer →
          h.acceptedBytes ++ packets.flatten <+: after.written) ∧
        (h.acceptedBytes ++ packets.flatten <+: after.written ∨
          ∀ contiguous, ∃ next, deliveryMachine.step (later, after) (.btI2sTaskHandler contiguous) = some next)) := by
  have issued : after.issued = h.issued ++ calledPackets labels := issued_run finished
  have phase := refill.advances.holds_run (fun _ => .inl (Filling.begin refill)) finished
  refine ⟨?_, ?_⟩
  · intro first proper
    rcases phase (.inl (issued ▸ (List.prefix_append_right_inj _).mpr first)) with filling | woken
    · refine ⟨filling.parked, fun idle => ?_⟩
      obtain ⟨begun, _, calls, refilling⟩ := filling.calls
      obtain rfl : calledPackets labels = begun := List.append_cancel_left (issued.symm.trans calls)
      simp only [Refilling, idle] at refilling
      exact filling.accepted refill refilling.2.1
    · have whole := woken.issued
      rw [issued, List.prefix_append_right_inj] at whole
      exact absurd (first.eq_of_length_le whole.length_le) proper
  · intro begins
    have agrees : Agrees (s, h) packets (later, after) :=
      .inr (issued ▸ (List.prefix_append_right_inj _).mpr begins)
    rcases phase agrees with filling | woken
    · obtain ⟨begun, first, calls, refilling⟩ := filling.calls
      obtain rfl : calledPackets labels = begun := List.append_cancel_left (issued.symm.trans calls)
      have whole := first.eq_of_length_le begins.length_le
      refine .inl ⟨whole, fun idle => ?_, filling.parked⟩
      simp only [Refilling, idle] at refilling
      exact refilling.2.2 whole
    · refine .inr ⟨woken.working.accepted, fun steps => ?_, ?_⟩
      · by_contra unwritten
        have awake := woken.working.running.resolve_right unwritten
        have used := (refill.advances.run (fun _ => .inl (Filling.begin refill)) finished).resolve_left
          fun written => unwritten (written agrees)
        have short : after.written.length < (h.acceptedBytes ++ packets.flatten).length := by
          by_contra enough
          exact unwritten (woken.working.written_of_length (Nat.le_of_not_lt enough))
        have rest : 3 * ((h.acceptedBytes ++ packets.flatten).length - after.written.length) ≤
            remaining (h.acceptedBytes ++ packets.flatten) (later, after) := Nat.le_add_right _ _
        rw [Refill.potential, Refill.potential, if_neg awake.not_parked, if_pos refill.parked] at used
        simp only at used
        omega
      · by_cases written : h.acceptedBytes ++ packets.flatten <+: after.written
        · exact .inl written
        · exact .inr (woken.working.enabled written)

/-- The steps of one call have one packet. -/
theorem calledPackets_call (packet : List UInt8) (count : Nat) (rest : List SessionLabel) :
    calledPackets (.call packet :: List.replicate count .writeRingbuf ++ rest) = packet :: calledPackets rest := by
  simp [calledPackets, SessionLabel.packet]

/-- Two packets start the session, the first alone does not, and the consumer writes both of them. -/
theorem refill_delivers_start : ∃ (packet : List UInt8) (first later : Session) (sent after : History),
    packet.length = 12288 ∧ first.Parked ∧ sent.acceptedBytes = packet ∧
      later.ringbufI2s.waiting = [] ∧ packet ++ packet <+: after.written := by
  obtain ⟨packet, size⟩ : ∃ packet : List UInt8, packet.length = 12288 :=
    ⟨List.replicate _ 0, List.length_replicate⟩
  have both : (btI2sTaskStartUp.ringbufI2s.waiting ++ [packet, packet].flatten).length = 24576 := by
    simp [btI2sTaskStartUp, size]
  have low (fewer : List (List UInt8)) (first : fewer <+: [packet, packet]) (nonempty : fewer ≠ [])
      (proper : fewer ≠ [packet, packet]) :
      (btI2sTaskStartUp.ringbufI2s.waiting ++ fewer.flatten).length < ringbufPrefetchWaterLevel := by
    have one : fewer = [packet] := by
      rcases List.prefix_cons_iff.mp first with rfl | ⟨rest, rfl, last⟩
      · exact absurd rfl nonempty
      · rcases List.prefix_cons_iff.mp last with rfl | ⟨none, rfl, nil⟩
        · rfl
        · rw [List.prefix_nil.mp nil] at proper
          exact absurd rfl proper
    rw [one, List.flatten_singleton, List.length_append, size]
    decide
  have refill : Refill (btI2sTaskStartUp, History.empty) [packet, packet] :=
    ⟨.refl, rfl, ⟨rfl, rfl⟩, rfl, by simp, low, by rw [both]; decide, by rw [both]; decide⟩
  obtain ⟨count, called⟩ := Session.run_wholeCall btI2sTaskStartUp packet rfl
  obtain ⟨more, again⟩ := Session.run_wholeCall (btI2sTaskStartUp.wholeCall packet) packet rfl
  rw [prefetched_calls packet size] at again
  let awake : Session := { prefetched packet size with i2sWriteSemaphore := false, task := .receive }
  obtain ⟨drains, consumer, length, drained⟩ := awake.run_drain rfl rfl
  have quiet : calledPackets drains = [] := by
    refine List.filterMap_eq_nil_iff.mpr fun label member => ?_
    cases label with
    | btI2sTaskHandler => rfl
    | call | writeRingbuf => cases consumer _ member
  -- the call of the first packet
  obtain ⟨sent, began⟩ := Machine.run_recorded called History.empty
  have waits := (refill_delivers refill began).1
  have alone : calledPackets (.call packet :: List.replicate count .writeRingbuf) = [packet] := by
    simpa [calledPackets] using calledPackets_call packet count []
  rw [alone] at waits
  obtain ⟨parked, accepted⟩ := waits ⟨[packet], rfl⟩ (by simp)
  -- both calls and the steps of the consumer
  have whole : sessionMachine.run btI2sTaskStartUp ((.call packet :: List.replicate count .writeRingbuf) ++
      ((.call packet :: List.replicate more .writeRingbuf) ++ .btI2sTaskHandler 0 :: drains)) =
      some { awake with ringbufI2s := Ringbuffer.empty } := by
    rw [Machine.run_append, called, Option.bind_some, Machine.run_append, again, Option.bind_some, ← drained]
    rfl
  obtain ⟨after, finished⟩ := Machine.run_recorded whole History.empty
  have delivers := (refill_delivers refill finished).2
  rw [calledPackets_call, calledPackets_call, calledPackets, List.filterMap_cons_none rfl, ← calledPackets, quiet,
    both] at delivers
  obtain ⟨_, written, _⟩ := (delivers List.prefix_rfl).resolve_left fun busy => busy.2.1 rfl
  have fresh : History.empty.acceptedBytes = [] := rfl
  have last : drains <:+ (.call packet :: List.replicate count .writeRingbuf) ++
      ((.call packet :: List.replicate more .writeRingbuf) ++ .btI2sTaskHandler 0 :: drains) :=
    (List.suffix_cons _ _).trans ((List.suffix_append _ _).trans (List.suffix_append _ _))
  have steps : 3 * 24576 = drains.countP SessionLabel.isConsumer := by
    rw [List.countP_eq_length.mpr consumer, length]
    show 3 * 24576 = 3 * (packet ++ packet).length
    rw [List.length_append, size]
  refine ⟨packet, btI2sTaskStartUp.wholeCall packet, { awake with ringbufI2s := Ringbuffer.empty }, sent, after,
    size, parked, ?_, rfl, ?_⟩
  · simpa [fresh] using accepted rfl
  · simpa [fresh] using written (steps ▸ last.sublist.countP_le)

/-- An unguarded write over PREFETCHING stalls the session at once. -/
theorem stalled_of_loses {s next : Session} (gate : PrefetchGate s) (loses : ¬ KeepsPrefetching s .writeRingbuf)
    (taken : s.writeRingbuf = some next) : Stalled next := by
  obtain ⟨at_, mode⟩ : (s.point = .leaveDropping ∨ s.point = .enterDropping) ∧
      s.ringbufferMode = .prefetching := by simpa [KeepsPrefetching] using loses
  have parked := gate.shut mode
  rcases at_ with point | point
  · simp only [Session.writeRingbuf, point, Option.some.injEq] at taken
    subst taken
    exact ⟨parked, RingbufferMode.noConfusion, rfl⟩
  · simp only [Session.writeRingbuf, point, Option.some.injEq] at taken
    subst taken
    exact ⟨parked, RingbufferMode.noConfusion, rfl⟩

/-- After the first unguarded write over PREFETCHING the session writes no further byte, whatever packets follow. -/
theorem lost_prefetching_silent {s next : Session} {h : History} {pair : Session × History}
    (reached : deliveryMachine.Reachable (s, h)) (loses : ¬ KeepsPrefetching s .writeRingbuf)
    (taken : s.writeRingbuf = some next)
    (after : deliveryMachine.Reaches (fun _ _ => True) (next, s.record .writeRingbuf next h) pair) :
    pair.2.written = h.written ∧
      ∀ contiguous, deliveryMachine.step pair (.btI2sTaskHandler contiguous) = none := by
  have blocked {state : Session} (stalled : Stalled state) (contiguous : Nat) :
      state.btI2sTaskHandler contiguous = none := by
    simp [Session.btI2sTaskHandler, stalled.parked.1, stalled.parked.2]
  obtain ⟨stalled, written⟩ : Stalled pair.1 ∧ pair.2.written = h.written := by
    apply after.recorded_invariant (fun state history => Stalled state ∧ history.written = h.written)
    · exact ⟨stalled_of_loses (PrefetchGate.delivered reached) loses taken, rfl⟩
    · rintro state label later history ⟨stalled, same⟩ _ moved
      refine ⟨stalled.step moved, Eq.trans ?_ same⟩
      cases label with
      | call data => rfl
      | writeRingbuf => rfl
      | btI2sTaskHandler contiguous =>
          change state.btI2sTaskHandler contiguous = some later at moved
          rw [blocked stalled] at moved
          cases moved
  refine ⟨written, fun contiguous => ?_⟩
  show (pair.1.btI2sTaskHandler contiguous).map _ = none
  rw [blocked stalled]
  rfl

/-- The producer has sampled the drained ring before the consumer entered PREFETCHING. -/
def raced (packet : List UInt8) : Session where
  ringbufferMode := .prefetching
  ringbufI2s := Ringbuffer.empty
  i2sWriteSemaphore := false
  point := .leaveDropping
  data := packet
  done := false
  result := 0
  task := .take

theorem raced_reachable (packet : List UInt8) (size : packet.length = 12288) :
    sessionMachine.Reachable (raced packet) := by
  have drained := (overflowed_reached packet size).trans ((overflowed packet size).drain rfl rfl fun _ _ => trivial)
  have path : sessionMachine.Reachable { overflowed packet size with ringbufI2s := Ringbuffer.empty } :=
    drained.mono fun _ _ _ => trivial
  have finished : sessionMachine.run { overflowed packet size with ringbufI2s := Ringbuffer.empty }
      [.call packet, .writeRingbuf, .writeRingbuf, .btI2sTaskHandler 0, .btI2sTaskHandler 0] =
      some (raced packet) := by
    simp [Machine.run, sessionMachine, Session.step, Session.call, Session.writeRingbuf, raced,
      Session.btI2sTaskHandler, overflowed, Ringbuffer.itemsWaiting, Ringbuffer.receiveUpTo, Ringbuffer.available]
  exact path.trans (Machine.run_reaches finished fun _ _ _ => trivial)

/-- The next packet after the race brings no sound. -/
theorem lost_prefetching_silent_race : ∃ (h : History) (pair : Session × History),
    pair.1.point = .testDropping ∧ pair.2.written = h.written := by
  obtain ⟨packet, size⟩ : ∃ packet : List UInt8, packet.length = 12288 :=
    ⟨List.replicate _ 0, List.length_replicate⟩
  obtain ⟨h, reached⟩ : ∃ h, deliveryMachine.Reachable (raced packet, h) :=
    (raced_reachable packet size).recorded History.empty
  have loses : ¬ KeepsPrefetching (raced packet) .writeRingbuf := fun keeps => keeps (.inl rfl) rfl
  have silent := lost_prefetching_silent reached loses rfl (.step .refl (.call packet) trivial rfl)
  exact ⟨h, _, rfl, silent.1⟩

end DesktopCube.Audio
