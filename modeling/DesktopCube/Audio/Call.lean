import DesktopCube.Audio.Session

namespace DesktopCube.Audio
open Transition RingBuffer

namespace Session

/-- The result of `xRingbufferSend` and of the write that follows its failure. -/
def sendOrDrop (s : Session) : Session :=
  match s.ringbufI2s.send s.data with
  | some ring => { s with ringbufI2s := ring, done := true }
  | none => { s with ringbufferMode := .dropping, done := false }

/-- The branch of `write_ringbuf` that may end the prefetching. -/
def openGate (s : Session) : Session :=
  if s.ringbufferMode = .prefetching ∧ ringbufPrefetchWaterLevel ≤ s.ringbufI2s.itemsWaiting then
    { s with ringbufferMode := .processing, i2sWriteSemaphore := true }
  else s

/-- The branch of `write_ringbuf` that may end the dropping. -/
def leaveDropping (s : Session) : Session :=
  if s.ringbufI2s.itemsWaiting ≤ ringbufPrefetchWaterLevel then
    { s with ringbufferMode := .processing }
  else s

/-- A call of `write_ringbuf` that no other task interrupts. -/
def wholeCall (s : Session) (data : List UInt8) : Session :=
  let entered := { s with data := data, done := false }
  if s.ringbufferMode = .dropping then entered.leaveDropping.finish 0
  else entered.sendOrDrop.openGate.returnDone

theorem run_leaveDropping (s : Session) (point : s.point = .infoDropping) :
    ∃ count, sessionMachine.run s (List.replicate count .writeRingbuf) =
      some (s.leaveDropping.finish 0) := by
  unfold leaveDropping
  by_cases low : s.ringbufI2s.itemsWaiting ≤ ringbufPrefetchWaterLevel
  · refine ⟨2, ?_⟩
    simp [Machine.run, sessionMachine, step, writeRingbuf, List.replicate, point, low, finish]
  · refine ⟨1, ?_⟩
    simp [Machine.run, sessionMachine, step, writeRingbuf, List.replicate, point, low]

theorem run_openGate (s : Session) (point : s.point = .testPrefetching) :
    ∃ count, sessionMachine.run s (List.replicate count .writeRingbuf) =
      some s.openGate.returnDone := by
  unfold openGate
  by_cases mode : s.ringbufferMode = .prefetching
  · by_cases high : ringbufPrefetchWaterLevel ≤ s.ringbufI2s.itemsWaiting
    · cases token : s.i2sWriteSemaphore with
      | false =>
          refine ⟨4, ?_⟩
          simp [Machine.run, sessionMachine, step, writeRingbuf, List.replicate, point, mode, high,
            token, returnDone, finish]
      | true =>
          refine ⟨5, ?_⟩
          simp [Machine.run, sessionMachine, step, writeRingbuf, List.replicate, point, mode, high,
            token, returnDone, finish]
    · refine ⟨2, ?_⟩
      simp [Machine.run, sessionMachine, step, writeRingbuf, List.replicate, point, mode, high,
        returnDone, finish]
  · refine ⟨1, ?_⟩
    simp [Machine.run, sessionMachine, step, writeRingbuf, List.replicate, point, mode]

theorem run_sendOrDrop (s : Session) (point : s.point = .send) :
    ∃ count, sessionMachine.run s (List.replicate count .writeRingbuf) =
      some { s.sendOrDrop with point := .testPrefetching } := by
  unfold sendOrDrop
  cases sent : s.ringbufI2s.send s.data with
  | some ring =>
      refine ⟨1, ?_⟩
      simp [Machine.run, sessionMachine, step, writeRingbuf, List.replicate, point, sent]
  | none =>
      refine ⟨2, ?_⟩
      simp [Machine.run, sessionMachine, step, writeRingbuf, List.replicate, point, sent]

/-- The point of the producer does not change what a branch computes. -/
theorem leaveDropping_point (s : Session) (point : WritePoint) (result : Nat) :
    ({ s with point := point } : Session).leaveDropping.finish result =
      s.leaveDropping.finish result := by
  unfold leaveDropping
  by_cases low : s.ringbufI2s.itemsWaiting ≤ ringbufPrefetchWaterLevel
  · simp [low, finish]
  · simp [low, finish]

theorem openGate_point (s : Session) (point : WritePoint) :
    ({ s with point := point } : Session).openGate.returnDone = s.openGate.returnDone := by
  unfold openGate
  by_cases opens : s.ringbufferMode = .prefetching ∧
      ringbufPrefetchWaterLevel ≤ s.ringbufI2s.itemsWaiting
  · simp [opens, returnDone, finish]
  · simp [opens, returnDone, finish]

theorem sendOrDrop_point (s : Session) (point : WritePoint) :
    ({ s with point := point } : Session).sendOrDrop = { s.sendOrDrop with point := point } := by
  unfold sendOrDrop
  cases s.ringbufI2s.send s.data <;> rfl

/-- The steps of an uninterrupted call compute the whole call. -/
theorem run_wholeCall (s : Session) (data : List UInt8) (idle : s.point = .idle) :
    ∃ count, sessionMachine.run s (.call data :: List.replicate count .writeRingbuf) =
      some (s.wholeCall data) := by
  let entered : Session := { s with point := .testDropping, data := data, done := false }
  have called : sessionMachine.step s (.call data) = some entered := by
    simp [sessionMachine, step, call, idle, entered]
  unfold wholeCall
  by_cases dropping : s.ringbufferMode = .dropping
  · obtain ⟨count, finished⟩ := run_leaveDropping { entered with point := .infoDropping } rfl
    have tested : sessionMachine.step entered .writeRingbuf =
        some { entered with point := .infoDropping } := by
      simp [sessionMachine, step, writeRingbuf, entered, dropping]
    refine ⟨count + 1, ?_⟩
    rw [Machine.run, called, Option.bind_some, List.replicate_succ, Machine.run, tested,
      Option.bind_some, finished, if_pos dropping, leaveDropping_point]
    exact congrArg some (leaveDropping_point { s with data := data, done := false } .testDropping 0)
  · obtain ⟨first, sent⟩ := run_sendOrDrop { entered with point := .send } rfl
    obtain ⟨second, finished⟩ := run_openGate
      { ({ entered with point := .send } : Session).sendOrDrop with point := .testPrefetching } rfl
    have tested : sessionMachine.step entered .writeRingbuf =
        some { entered with point := .send } := by
      simp [sessionMachine, step, writeRingbuf, entered, dropping]
    refine ⟨first + second + 1, ?_⟩
    rw [Machine.run, called, Option.bind_some, List.replicate_succ, Machine.run, tested,
      Option.bind_some, List.replicate_add, Machine.run_append, sent, Option.bind_some, finished,
      if_neg dropping, openGate_point, sendOrDrop_point, openGate_point]
    have same := sendOrDrop_point { s with data := data, done := false } .testDropping
    change some (entered.sendOrDrop.openGate.returnDone) = _
    rw [same, openGate_point]

/-- A call within a condition on its label stays within the condition. -/
theorem wholeCall_reaches {allowed : Session → SessionLabel → Prop} (s : Session) (data : List UInt8)
    (idle : s.point = .idle) (called : ∀ before, allowed before (.call data))
    (writes : ∀ before, allowed before .writeRingbuf) :
    sessionMachine.Reaches allowed s (s.wholeCall data) := by
  obtain ⟨count, finished⟩ := run_wholeCall s data idle
  refine Machine.run_reaches finished fun before label member => ?_
  rcases List.mem_cons.mp member with rfl | member
  · exact called before
  · rw [List.eq_of_mem_replicate member]
    exact writes before

/-- Three steps of the consumer write each byte of the ring while the producer waits at any point. -/
theorem run_drain (s : Session) (task : s.task = .receive) (returned : s.ringbufI2s.taken = []) :
    ∃ labels : List SessionLabel, (∀ label ∈ labels, label.isConsumer = true) ∧
      labels.length = 3 * s.ringbufI2s.waiting.length ∧
      sessionMachine.run s labels = some { s with ringbufI2s := Ringbuffer.empty } := by
  induction filled : s.ringbufI2s.waiting.length generalizing s with
  | zero =>
      have same : s.ringbufI2s = Ringbuffer.empty :=
        Ringbuffer.ext (List.length_eq_zero_iff.mp filled) returned
      refine ⟨[], by simp, rfl, ?_⟩
      rw [← same]
      rfl
  | succ count ih =>
      have available : s.ringbufI2s.available = true := by
        refine (Ringbuffer.available_iff _).mpr ⟨returned, List.ne_nil_of_length_pos ?_⟩
        omega
      obtain ⟨ring, received⟩ := Ringbuffer.receiveUpTo_of_available itemSizeUpto 1 available
      have single : ring.waiting.length = count := by
        unfold Ringbuffer.receiveUpTo at received
        rw [if_pos available, Option.some.injEq] at received
        rw [← received, List.length_drop, Ringbuffer.itemSize]
        have limit : itemSizeUpto = 1440 := rfl
        omega
      obtain ⟨labels, consumer, length, finished⟩ :=
        ih { s with ringbufI2s := ring.returnItem } task rfl single
      refine ⟨.btI2sTaskHandler 1 :: .btI2sTaskHandler 0 :: .btI2sTaskHandler 0 :: labels, ?_, ?_, ?_⟩
      · simpa [SessionLabel.isConsumer] using consumer
      · simp only [List.length_cons, length]
        omega
      · have item : sessionMachine.run s [.btI2sTaskHandler 1, .btI2sTaskHandler 0, .btI2sTaskHandler 0] =
            some { s with ringbufI2s := ring.returnItem } := by
          simp [Machine.run, sessionMachine, step, btI2sTaskHandler, task, received]
        show sessionMachine.run s
          ([.btI2sTaskHandler 1, .btI2sTaskHandler 0, .btI2sTaskHandler 0] ++ labels) = _
        rw [Machine.run_append, item]
        exact finished

/-- The consumer can empty the ring while the producer waits at any point. -/
theorem drain {allowed : Session → SessionLabel → Prop} (s : Session) (task : s.task = .receive)
    (returned : s.ringbufI2s.taken = [])
    (consumes : ∀ before contiguous, allowed before (.btI2sTaskHandler contiguous)) :
    sessionMachine.Reaches allowed s { s with ringbufI2s := Ringbuffer.empty } := by
  obtain ⟨labels, consumer, _, finished⟩ := s.run_drain task returned
  refine Machine.run_reaches finished fun before label member => ?_
  cases label with
  | btI2sTaskHandler contiguous => exact consumes before contiguous
  | call | writeRingbuf => cases consumer _ member

end Session

end DesktopCube.Audio
