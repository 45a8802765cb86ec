import DesktopCube.Audio.Session

namespace DesktopCube.Audio
open Transition RingBuffer

/-- The producer has read PREFETCHING and has not yet returned. -/
def WritePoint.opening : WritePoint → Bool
  | .infoPrefetching | .leavePrefetching | .give | .giveFailed => true
  | _ => false

/-- The gate is shut while the mode is PREFETCHING and opens only above the prefetch level. -/
structure PrefetchGate (s : Session) : Prop where
  shut : s.ringbufferMode = .prefetching → s.Parked
  opening : s.point.opening = true → s.Parked
  sampled : s.point = .leavePrefetching ∨ s.point = .give →
    ringbufPrefetchWaterLevel ≤ s.ringbufI2s.itemsWaiting
  giving : s.point = .give → s.ringbufferMode = .processing
  given : s.i2sWriteSemaphore = true →
    s.task = .take ∧ ringbufPrefetchWaterLevel ≤ s.ringbufI2s.itemsWaiting
  neverFails : s.point ≠ .giveFailed

theorem WritePoint.closed {point : WritePoint} (closed : point.opening = false) :
    point ≠ .leavePrefetching ∧ point ≠ .give ∧ point ≠ .giveFailed := by
  cases point <;> simp_all [WritePoint.opening]

namespace PrefetchGate

variable {s next : Session}

/-- Outside the opening branch only the mode and the token matter. -/
theorem of_closed (closed : s.point.opening = false)
    (shut : s.ringbufferMode = .prefetching → s.Parked)
    (given : s.i2sWriteSemaphore = true →
      s.task = .take ∧ ringbufPrefetchWaterLevel ≤ s.ringbufI2s.itemsWaiting) : PrefetchGate s where
  shut := shut
  opening opened := by simp [closed] at opened
  sampled point := by
    obtain ⟨notLeave, notGive, _⟩ := WritePoint.closed closed
    exact absurd point (not_or.mpr ⟨notLeave, notGive⟩)
  giving point := absurd point (WritePoint.closed closed).2.1
  given := given
  neverFails := (WritePoint.closed closed).2.2

theorem start : PrefetchGate btI2sTaskStartUp :=
  of_closed rfl (fun _ => ⟨rfl, rfl⟩) nofun

/-- A producer step that ends outside the opening branch keeps the gate. -/
theorem outside (gate : PrefetchGate s)
    (shut : next.ringbufferMode = .prefetching → s.ringbufferMode = .prefetching)
    (task : next.task = s.task) (semaphore : next.i2sWriteSemaphore = s.i2sWriteSemaphore)
    (level : s.ringbufI2s.itemsWaiting ≤ next.ringbufI2s.itemsWaiting)
    (closed : next.point.opening = false) : PrefetchGate next := by
  refine of_closed closed (fun mode => ?_) (fun token => ?_)
  · rw [Session.Parked, task, semaphore]
    exact gate.shut (shut mode)
  · rw [semaphore] at token
    exact ⟨task ▸ (gate.given token).1, Nat.le_trans (gate.given token).2 level⟩

theorem call {data : List UInt8} (gate : PrefetchGate s) (taken : s.call data = some next) :
    PrefetchGate next := by
  unfold Session.call at taken
  split at taken
  · cases taken
    exact gate.outside id rfl rfl (Nat.le_refl _) rfl
  · cases taken

/-- The producer opens the gate only for a parked consumer. -/
theorem writeRingbuf (gate : PrefetchGate s) (taken : s.writeRingbuf = some next) :
    PrefetchGate next := by
  unfold Session.writeRingbuf at taken
  cases point : s.point with
  | idle => simp [point] at taken
  | testDropping | infoDropping =>
      simp only [point] at taken
      split at taken <;> cases taken <;> exact gate.outside id rfl rfl (Nat.le_refl _) rfl
  | leaveDropping | enterDropping =>
      simp only [point] at taken
      cases taken
      exact gate.outside nofun rfl rfl (Nat.le_refl _) rfl
  | send =>
      simp only [point] at taken
      split at taken
      · rename_i ring sent
        cases taken
        exact gate.outside id rfl rfl (Ringbuffer.itemsWaiting_le_send sent) rfl
      · cases taken
        exact gate.outside id rfl rfl (Nat.le_refl _) rfl
  | testPrefetching =>
      simp only [point] at taken
      split at taken
      · rename_i prefetching
        cases taken
        exact ⟨gate.shut, fun _ => gate.shut prefetching, by simp, by simp, gate.given, by simp⟩
      · cases taken
        exact gate.outside id rfl rfl (Nat.le_refl _) rfl
  | infoPrefetching =>
      have parked : s.Parked := gate.opening (by rw [point]; rfl)
      simp only [point] at taken
      split at taken
      · rename_i level
        cases taken
        exact ⟨gate.shut, fun _ => parked, fun _ => level, by simp, gate.given, by simp⟩
      · cases taken
        exact gate.outside id rfl rfl (Nat.le_refl _) rfl
  | leavePrefetching =>
      have parked : s.Parked := gate.opening (by rw [point]; rfl)
      have level := gate.sampled (.inl point)
      simp only [point] at taken
      cases taken
      exact ⟨nofun, fun _ => parked, fun _ => level, fun _ => rfl, gate.given, by simp⟩
  | give =>
      have parked : s.Parked := gate.opening (by rw [point]; rfl)
      have level := gate.sampled (.inr point)
      have processing := gate.giving point
      simp only [point, parked.2, Bool.false_eq_true, if_false] at taken
      cases taken
      refine ⟨?_, nofun, nofun, nofun, fun _ => ⟨parked.1, level⟩, nofun⟩
      intro prefetching
      cases processing.symm.trans prefetching
  | giveFailed => exact absurd point gate.neverFails

/-- Nothing is half open while the consumer is awake. -/
theorem awake (gate : PrefetchGate s) (awake : ¬ s.Parked) :
    s.ringbufferMode ≠ .prefetching ∧ s.point.opening = false :=
  ⟨fun mode => awake (gate.shut mode),
    Bool.eq_false_iff.mpr fun opened => awake (gate.opening opened)⟩

/-- The consumer shuts the gate only on its way back to the semaphore. -/
theorem btI2sTaskHandler {contiguous : Nat} (gate : PrefetchGate s)
    (taken : s.btI2sTaskHandler contiguous = some next) : PrefetchGate next := by
  unfold Session.btI2sTaskHandler at taken
  cases task : s.task with
  | take =>
      simp only [task] at taken
      split at taken
      · rename_i token
        obtain ⟨notPrefetching, closed⟩ := gate.awake fun parked => by simp [parked.2] at token
        cases taken
        exact of_closed closed (fun mode => absurd mode notPrefetching) nofun
      · cases taken
  | receive | write | returnItem =>
      have busy : s.task ≠ .take := by simp [task]
      obtain ⟨notPrefetching, closed⟩ := gate.awake fun parked => busy parked.1
      have empty (token : s.i2sWriteSemaphore = true) : False := busy (gate.given token).1
      simp only [task] at taken
      (try split at taken) <;> cases taken <;>
        exact of_closed closed (fun mode => absurd mode notPrefetching) fun token => (empty token).elim
  | underflow =>
      have busy : s.task ≠ .take := by simp [task]
      obtain ⟨_, closed⟩ := gate.awake fun parked => busy parked.1
      have empty : s.i2sWriteSemaphore = false :=
        Bool.eq_false_iff.mpr fun token => busy (gate.given token).1
      simp only [task] at taken
      cases taken
      exact of_closed closed (fun _ => ⟨rfl, empty⟩) fun token => by simp [empty] at token

theorem step {label : SessionLabel} (gate : PrefetchGate s) (taken : s.step label = some next) :
    PrefetchGate next := by
  cases label with
  | call data => exact gate.call taken
  | writeRingbuf => exact gate.writeRingbuf taken
  | btI2sTaskHandler contiguous => exact gate.btI2sTaskHandler taken

/-- Every interleaving keeps the gate. -/
theorem reachable (reached : sessionMachine.Reachable s) : PrefetchGate s :=
  reached.invariant PrefetchGate start fun _ _ _ gate _ taken => gate.step taken

end PrefetchGate

/-- The consumer wakes above the prefetch level and no give finds a token. -/
theorem take_prefetched {s : Session} (reached : sessionMachine.Reachable s) :
    (∀ contiguous next, s.task = .take → s.btI2sTaskHandler contiguous = some next →
      ringbufPrefetchWaterLevel ≤ s.ringbufI2s.itemsWaiting) ∧
      (s.point = .give → s.i2sWriteSemaphore = false) ∧ s.point ≠ .giveFailed := by
  have gate := PrefetchGate.reachable reached
  refine ⟨?_, ?_, gate.neverFails⟩
  · intro contiguous next task taken
    have token : s.i2sWriteSemaphore = true := by
      by_contra absent
      simp [Session.btI2sTaskHandler, task, absent] at taken
    exact (gate.given token).2
  · intro point
    exact (gate.opening (by rw [point]; rfl)).2

/-- A packet above the prefetch level gives the token in one call. -/
theorem first_packet_gives (data : List UInt8) (enough : ringbufPrefetchWaterLevel ≤ data.length)
    (fits : data.length ≤ ringbufHighestWaterLevel) :
    ∃ s, sessionMachine.run btI2sTaskStartUp (.call data :: List.replicate 6 .writeRingbuf) = some s ∧
      s.task = .take ∧ s.i2sWriteSemaphore = true ∧ s.ringbufI2s.waiting = data ∧
      s.ringbufI2s.taken = [] := by
  have sent : (Ringbuffer.empty : Ringbuffer UInt8 ringbufHighestWaterLevel).send data =
      some ⟨data, [], by simpa using fits⟩ := dif_pos (by simpa using fits)
  refine ⟨{ btI2sTaskStartUp with
    ringbufferMode := .processing
    ringbufI2s := ⟨data, [], by simpa using fits⟩
    i2sWriteSemaphore := true
    data := data
    done := true
    result := data.length }, ?_, rfl, rfl, rfl, rfl⟩
  simp [Machine.run, sessionMachine, Session.step, Session.call, Session.writeRingbuf, btI2sTaskStartUp,
    Session.returnDone, Session.finish, List.replicate, sent, Ringbuffer.itemsWaiting, enough]

theorem take_prefetched_first_packet : ∃ s next : Session, s.task = .take ∧ s.btI2sTaskHandler 1 = some next ∧
    ringbufPrefetchWaterLevel ≤ s.ringbufI2s.itemsWaiting := by
  obtain ⟨s, finished, task, token, _⟩ := first_packet_gives
    (List.replicate ringbufPrefetchWaterLevel 0) (by simp) (by simp; decide)
  have reached : sessionMachine.Reachable s := Machine.run_reaches finished fun _ _ _ => trivial
  have taken : s.btI2sTaskHandler 1 =
      some { s with i2sWriteSemaphore := false, task := .receive } := by
    simp [Session.btI2sTaskHandler, task, token]
  exact ⟨s, _, task, taken, (take_prefetched reached).1 1 _ task taken⟩

end DesktopCube.Audio
