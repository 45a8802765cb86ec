import DesktopCube.Audio.Call
import DesktopCube.Audio.PrefetchGate

namespace DesktopCube.Audio
open Transition RingBuffer

/-- An idle producer finds a parked consumer only in PREFETCHING. -/
def NoStall (s : Session) : Prop :=
  s.point = .idle → s.Parked → s.ringbufferMode = .prefetching

/-- The packets leave room for one more packet below the prefetch level. -/
def SmallPackets (_ : Session) : SessionLabel → Prop
  | .call data => data.length ≤ ringbufHighestWaterLevel - ringbufPrefetchWaterLevel
  | _ => True

/-- The two unguarded writes of `write_ringbuf` overwrite no PREFETCHING. -/
def KeepsPrefetching (s : Session) : SessionLabel → Prop
  | .writeRingbuf => s.point = .leaveDropping ∨ s.point = .enterDropping →
      s.ringbufferMode ≠ .prefetching
  | _ => True

instance (s : Session) (label : SessionLabel) : Decidable (KeepsPrefetching s label) := by
  cases label <;> unfold KeepsPrefetching <;> infer_instance

/-- A parked consumer waits in PREFETCHING or the producer is about to give the token. -/
structure Lively (s : Session) : Prop where
  gate : PrefetchGate s
  parked : s.Parked → s.ringbufferMode = .prefetching ∨ s.point = .give

namespace Lively

variable {s next : Session}

theorem start : Lively btI2sTaskStartUp := ⟨PrefetchGate.start, fun _ => .inl rfl⟩

theorem noStall (lively : Lively s) : NoStall s := by
  intro point parked
  rcases lively.parked parked with mode | give
  · exact mode
  · simp [point] at give

/-- The producer leaves PREFETCHING only on its way to the give. -/
theorem writeRingbuf (lively : Lively s) (keeps : KeepsPrefetching s .writeRingbuf)
    (taken : s.writeRingbuf = some next) : Lively next := by
  refine ⟨lively.gate.writeRingbuf taken, ?_⟩
  unfold Session.writeRingbuf at taken
  have waits (parked : s.Parked) (notGive : s.point ≠ .give) : s.ringbufferMode = .prefetching :=
    (lively.parked parked).resolve_right notGive
  cases point : s.point with
  | idle => simp [point] at taken
  | testDropping | infoDropping | send | testPrefetching | infoPrefetching =>
      simp only [point] at taken
      split at taken <;> cases taken <;> exact fun parked => .inl (waits parked (by simp [point]))
  | leaveDropping =>
      simp only [point] at taken
      cases taken
      exact fun parked => absurd (waits parked (by simp [point])) (keeps (.inl point))
  | enterDropping =>
      simp only [point] at taken
      cases taken
      exact fun parked => absurd (waits parked (by simp [point])) (keeps (.inr point))
  | leavePrefetching =>
      simp only [point] at taken
      cases taken
      exact fun _ => .inr rfl
  | give =>
      have parked := lively.gate.opening (by rw [point]; rfl)
      simp only [point, parked.2, Bool.false_eq_true, if_false] at taken
      cases taken
      exact fun parked => absurd parked.2 Bool.true_eq_false.mp
  | giveFailed => exact absurd point lively.gate.neverFails

/-- The consumer parks only after its write of PREFETCHING. -/
theorem btI2sTaskHandler {contiguous : Nat} (lively : Lively s)
    (taken : s.btI2sTaskHandler contiguous = some next) : Lively next := by
  refine ⟨lively.gate.btI2sTaskHandler taken, ?_⟩
  unfold Session.btI2sTaskHandler at taken
  cases task : s.task with
  | take | receive =>
      simp only [task] at taken
      split at taken <;> cases taken <;> exact fun parked => nomatch parked.1
  | write | returnItem =>
      simp only [task] at taken
      cases taken
      exact fun parked => nomatch parked.1
  | underflow =>
      simp only [task] at taken
      cases taken
      exact fun _ => .inl rfl

theorem step {label : SessionLabel} (lively : Lively s) (keeps : KeepsPrefetching s label)
    (taken : s.step label = some next) : Lively next := by
  cases label with
  | call data =>
      refine ⟨lively.gate.call taken, ?_⟩
      simp only [Session.step, Session.call] at taken
      split at taken
      · rename_i idle
        cases taken
        exact fun parked => .inl (lively.noStall idle parked)
      · cases taken
  | writeRingbuf => exact lively.writeRingbuf keeps taken
  | btI2sTaskHandler contiguous => exact lively.btI2sTaskHandler taken

theorem reaches (reached : sessionMachine.Reaches KeepsPrefetching btI2sTaskStartUp s) : Lively s :=
  reached.invariant Lively start fun _ _ _ lively keeps taken => lively.step keeps taken

end Lively

/-- An unguarded write over PREFETCHING leaves a stall when the call returns. -/
theorem lost_prefetching_stalls {s : Session} (gate : PrefetchGate s)
    (loses : ¬ KeepsPrefetching s .writeRingbuf) :
    ∃ later, sessionMachine.Reaches (fun _ label => label = .writeRingbuf) s later ∧
      ¬ NoStall later := by
  obtain ⟨at_, mode⟩ : (s.point = .leaveDropping ∨ s.point = .enterDropping) ∧
      s.ringbufferMode = .prefetching := by simpa [KeepsPrefetching] using loses
  have parked := gate.shut mode
  rcases at_ with point | point
  · have taken : s.writeRingbuf = some ({ s with ringbufferMode := .processing }.finish 0) := by
      simp [Session.writeRingbuf, point]
    refine ⟨_, .step .refl .writeRingbuf rfl taken, fun noStall => ?_⟩
    cases noStall rfl parked
  · have entered : s.writeRingbuf =
        some { s with ringbufferMode := .dropping, point := .testPrefetching } := by
      simp [Session.writeRingbuf, point]
    have returned : ({ s with ringbufferMode := .dropping, point := .testPrefetching } : Session).writeRingbuf =
        some ({ s with ringbufferMode := .dropping, point := .testPrefetching } : Session).returnDone := by
      simp [Session.writeRingbuf]
    have entering : sessionMachine.Reaches (fun _ label => label = .writeRingbuf) s
        { s with ringbufferMode := .dropping, point := .testPrefetching } := .step .refl .writeRingbuf rfl entered
    refine ⟨_, .step entering .writeRingbuf rfl returned, fun noStall => ?_⟩
    cases noStall rfl parked

/-- The consumer sleeps and the producer has no way to the give. -/
structure Stalled (s : Session) : Prop where
  parked : s.Parked
  mode : s.ringbufferMode ≠ .prefetching
  closed : s.point.opening = false

/-- No step of either task ends a stall. -/
theorem Stalled.step {s next : Session} {label : SessionLabel} (stalled : Stalled s)
    (taken : s.step label = some next) : Stalled next := by
  obtain ⟨parked, mode, closed⟩ := stalled
  cases label with
  | call data =>
      simp only [Session.step, Session.call] at taken
      split at taken <;> cases taken
      exact ⟨parked, mode, rfl⟩
  | writeRingbuf =>
      simp only [Session.step, Session.writeRingbuf] at taken
      cases point : s.point with
      | idle => simp [point] at taken
      | testDropping | infoDropping | send =>
          simp only [point] at taken
          split at taken <;> cases taken <;> exact ⟨parked, mode, rfl⟩
      | leaveDropping | enterDropping =>
          simp only [point] at taken
          cases taken
          exact ⟨parked, RingbufferMode.noConfusion, rfl⟩
      | testPrefetching =>
          simp only [point, if_neg mode] at taken
          cases taken
          exact ⟨parked, mode, rfl⟩
      | infoPrefetching | leavePrefetching | give | giveFailed => simp [point, WritePoint.opening] at closed
  | btI2sTaskHandler contiguous =>
      simp [Session.step, Session.btI2sTaskHandler, parked.1, parked.2] at taken

/-- A stall lasts for the rest of the session. -/
theorem stalled_forever {s later : Session} (stalled : Stalled s)
    (reached : sessionMachine.Reaches (fun _ _ => True) s later) : Stalled later :=
  reached.invariant Stalled stalled fun _ _ _ stalled _ taken => stalled.step taken

/-- A session stalls only after an unguarded write over PREFETCHING, and then it always does. -/
theorem noStall_of_keepsPrefetching {s : Session}
    (reached : sessionMachine.Reaches KeepsPrefetching btI2sTaskStartUp s) :
    NoStall s ∧ (¬ KeepsPrefetching s .writeRingbuf →
      ∃ later, sessionMachine.Reaches (fun _ label => label = .writeRingbuf) s later ∧
        ¬ NoStall later) :=
  ⟨(Lively.reaches reached).noStall, lost_prefetching_stalls (Lively.reaches reached).gate⟩

/-- A packet of the prefetch level wakes the consumer and the next one overflows the ring. -/
theorem full_dropped {packet : List UInt8} (size : packet.length = ringbufPrefetchWaterLevel) :
    ∃ s, sessionMachine.Reaches KeepsPrefetching btI2sTaskStartUp s ∧ s.point = .idle ∧ s.task = .receive ∧
      s.ringbufferMode = .dropping ∧ s.ringbufI2s.taken = [] ∧ s.i2sWriteSemaphore = false := by
  have fits : packet.length ≤ ringbufHighestWaterLevel := by
    rw [size]
    decide
  have sent : (Ringbuffer.empty : Ringbuffer UInt8 ringbufHighestWaterLevel).send packet =
      some ⟨packet, [], by simpa using fits⟩ := dif_pos (by simpa using fits)
  have full : (⟨packet, [], by simpa using fits⟩ : Ringbuffer UInt8 ringbufHighestWaterLevel).send packet = none := by
    apply (Ringbuffer.send_eq_none_iff _ _).mpr
    show ringbufHighestWaterLevel < packet.length + 0 + packet.length
    rw [size]
    decide
  have finished : sessionMachine.checkedRun KeepsPrefetching btI2sTaskStartUp
      (.call packet :: List.replicate 6 .writeRingbuf ++ .btI2sTaskHandler 0 ::
        .call packet :: List.replicate 4 .writeRingbuf) =
      some { btI2sTaskStartUp with
        ringbufferMode := .dropping
        ringbufI2s := ⟨packet, [], by simpa using fits⟩
        data := packet
        task := .receive } := by
    simp [Machine.checkedRun, KeepsPrefetching, sessionMachine, Session.step, Session.call, Session.writeRingbuf,
      Session.btI2sTaskHandler, btI2sTaskStartUp, Session.returnDone, Session.finish, List.replicate, sent, full,
      Ringbuffer.itemsWaiting, size]
  exact ⟨_, Machine.checkedRun_reaches finished, rfl, rfl, rfl, rfl, rfl⟩

/-- The ring overflows and drains, the call after it ends the dropping and the consumer underflows. -/
theorem noStall_drained : ∃ s, s.point = .idle ∧ s.Parked ∧ s.ringbufI2s.waiting = [] ∧ NoStall s := by
  obtain ⟨packet, size⟩ : ∃ packet : List UInt8, packet.length = ringbufPrefetchWaterLevel :=
    ⟨List.replicate _ 0, List.length_replicate⟩
  obtain ⟨s, reached, idle, task, mode, returned, token⟩ := full_dropped size
  have drained := reached.trans (s.drain task returned fun _ _ => trivial)
  have finished : sessionMachine.checkedRun KeepsPrefetching { s with ringbufI2s := Ringbuffer.empty }
      [.call packet, .writeRingbuf, .writeRingbuf, .writeRingbuf, .btI2sTaskHandler 0, .btI2sTaskHandler 0] =
      some { s with
        ringbufferMode := .prefetching
        ringbufI2s := Ringbuffer.empty
        data := packet
        done := false
        result := 0
        task := .take } := by
    simp [Machine.checkedRun, KeepsPrefetching, sessionMachine, Session.step, Session.call, Session.writeRingbuf,
      Session.btI2sTaskHandler, Session.finish, Ringbuffer.itemsWaiting, Ringbuffer.receiveUpTo,
      Ringbuffer.available, idle, task, mode]
  exact ⟨{ s with
      ringbufferMode := .prefetching
      ringbufI2s := Ringbuffer.empty
      data := packet
      done := false
      result := 0
      task := .take }, idle, ⟨rfl, token⟩, rfl,
    (noStall_of_keepsPrefetching (drained.trans (Machine.checkedRun_reaches finished))).1⟩

section LostPrefetching

variable (packet : List UInt8) (size : packet.length = 12288)

/-- The ring after two packets of the greatest size. -/
def twoPackets : Ringbuffer UInt8 ringbufHighestWaterLevel :=
  ⟨packet ++ packet, [], by
    rw [List.length_append, size]
    decide⟩

/-- The first two packets open the gate. -/
def prefetched : Session where
  ringbufferMode := .processing
  ringbufI2s := twoPackets packet size
  i2sWriteSemaphore := true
  point := .idle
  data := packet
  done := true
  result := packet.length
  task := .take

/-- The third packet of the greatest size starts the dropping. -/
def overflowed : Session where
  ringbufferMode := .dropping
  ringbufI2s := twoPackets packet size
  i2sWriteSemaphore := false
  point := .idle
  data := packet
  done := false
  result := 0
  task := .receive

theorem prefetched_calls : (btI2sTaskStartUp.wholeCall packet).wholeCall packet = prefetched packet size := by
  have first : (Ringbuffer.empty : Ringbuffer UInt8 ringbufHighestWaterLevel).send packet =
      some ⟨packet, [], by rw [size]; decide⟩ := dif_pos (by rw [size]; decide)
  have second : Ringbuffer.send (⟨packet, [], by rw [size]; decide⟩ : Ringbuffer UInt8 ringbufHighestWaterLevel)
      packet = some (twoPackets packet size) := dif_pos (by simp only [size]; decide)
  have low : ¬ ringbufPrefetchWaterLevel ≤ packet.length := by
    rw [size]
    decide
  have high : ringbufPrefetchWaterLevel ≤ (twoPackets packet size).itemsWaiting := by
    rw [Ringbuffer.itemsWaiting, twoPackets, List.length_append, size]
    decide
  have waits : btI2sTaskStartUp.wholeCall packet = { btI2sTaskStartUp with
      ringbufI2s := ⟨packet, [], by rw [size]; decide⟩
      data := packet
      done := true
      result := packet.length } := by
    simp [Session.wholeCall, Session.sendOrDrop, Session.openGate, Session.returnDone, Session.finish,
      btI2sTaskStartUp, first, Ringbuffer.itemsWaiting, low]
  rw [waits]
  simp [Session.wholeCall, Session.sendOrDrop, Session.openGate, Session.returnDone, Session.finish,
    btI2sTaskStartUp, prefetched, second, high]

theorem overflowed_call :
    ({ prefetched packet size with i2sWriteSemaphore := false, task := .receive } : Session).wholeCall
      packet = overflowed packet size := by
  have third : (twoPackets packet size).send packet = none :=
    (Ringbuffer.send_eq_none_iff _ _).mpr (by simp only [twoPackets, List.length_append, size]; decide)
  simp [Session.wholeCall, Session.sendOrDrop, Session.openGate, Session.returnDone, Session.finish,
    prefetched, overflowed, third]

include size in
theorem smallPackets_call (before : Session) : SmallPackets before (.call packet) := by
  rw [SmallPackets, size]
  decide

/-- The consumer takes the token of the second packet. -/
theorem woken_reached : sessionMachine.Reaches SmallPackets btI2sTaskStartUp
    { prefetched packet size with i2sWriteSemaphore := false, task := .receive } := by
  have small := smallPackets_call packet size
  have first := Session.wholeCall_reaches btI2sTaskStartUp packet rfl small fun _ => trivial
  have second := Session.wholeCall_reaches (btI2sTaskStartUp.wholeCall packet) packet rfl small
    fun _ => trivial
  rw [prefetched_calls packet size] at second
  exact .step (first.trans second) (.btI2sTaskHandler 0) trivial rfl

theorem overflowed_reached :
    sessionMachine.Reaches SmallPackets btI2sTaskStartUp (overflowed packet size) := by
  have third := Session.wholeCall_reaches
    { prefetched packet size with i2sWriteSemaphore := false, task := .receive } packet rfl
    (smallPackets_call packet size) fun _ => trivial
  rw [overflowed_call packet size] at third
  exact (woken_reached packet size).trans third

include size in
/-- The producer samples the drained ring before the consumer writes PREFETCHING. -/
theorem overflowed_stalls : ∃ s, sessionMachine.Reaches SmallPackets btI2sTaskStartUp s ∧ Stalled s ∧
    s.point = .idle := by
  have drained : sessionMachine.Reaches SmallPackets _ _ :=
    (overflowed packet size).drain rfl rfl fun _ _ => trivial
  have finished : sessionMachine.run { overflowed packet size with ringbufI2s := Ringbuffer.empty }
      [.call packet, .writeRingbuf, .writeRingbuf, .btI2sTaskHandler 0, .btI2sTaskHandler 0,
        .writeRingbuf] =
      some { overflowed packet size with
        ringbufferMode := .processing
        ringbufI2s := Ringbuffer.empty
        task := .take } := by
    simp [Machine.run, sessionMachine, Session.step, Session.call, Session.writeRingbuf,
      Session.btI2sTaskHandler, Session.finish, overflowed, Ringbuffer.itemsWaiting, Ringbuffer.receiveUpTo,
      Ringbuffer.available]
  have raced : sessionMachine.Reaches SmallPackets _ _ := Machine.run_reaches finished (by
    simp [SmallPackets, size, ringbufHighestWaterLevel, ringbufPrefetchWaterLevel])
  exact ⟨_, ((overflowed_reached packet size).trans drained).trans raced,
    ⟨⟨rfl, rfl⟩, RingbufferMode.noConfusion, rfl⟩, rfl⟩

end LostPrefetching

/-- Two overlapping calls leave the consumer asleep in PROCESSING. -/
theorem not_noStall :
    ¬ ∀ s, sessionMachine.Reaches SmallPackets btI2sTaskStartUp s → NoStall s := by
  intro noStall
  obtain ⟨s, reached, stalled, idle⟩ := overflowed_stalls (List.replicate 12288 0) List.length_replicate
  exact stalled.mode (noStall s reached idle stalled.parked)

end DesktopCube.Audio
