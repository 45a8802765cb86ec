import DesktopCube.Library.Machine
import DesktopCube.Library.RingBuffer

namespace DesktopCube.Audio
open Transition RingBuffer

/-- `RINGBUF_HIGHEST_WATER_LEVEL` -/
def ringbufHighestWaterLevel : Nat := 32 * 1024

/-- `RINGBUF_PREFETCH_WATER_LEVEL` -/
def ringbufPrefetchWaterLevel : Nat := 20 * 1024

/-- The constant `item_size_upto` of the I2S task. -/
def itemSizeUpto : Nat := 240 * 6

inductive RingbufferMode where
  | processing
  | prefetching
  | dropping
  deriving DecidableEq, Repr

/-- Each point names the next access of `write_ringbuf` to shared state. -/
inductive WritePoint where
  | idle
  | testDropping
  | infoDropping
  | leaveDropping
  | send
  | enterDropping
  | testPrefetching
  | infoPrefetching
  | leavePrefetching
  | give
  | giveFailed
  deriving DecidableEq, Repr

/-- Each point names the next access of `bt_i2s_task_handler` to shared state. -/
inductive TaskPoint where
  | take
  | receive
  | write
  | returnItem
  | underflow
  deriving DecidableEq, Repr

/-- The two tasks share the mode, the ring and the semaphore. -/
structure Session where
  ringbufferMode : RingbufferMode
  ringbufI2s : Ringbuffer UInt8 ringbufHighestWaterLevel
  i2sWriteSemaphore : Bool
  point : WritePoint
  data : List UInt8
  done : Bool
  result : Nat
  task : TaskPoint

/-- A successful `bt_i2s_task_start_up` leaves this state. -/
def btI2sTaskStartUp : Session where
  ringbufferMode := .prefetching
  ringbufI2s := Ringbuffer.empty
  i2sWriteSemaphore := false
  point := .idle
  data := []
  done := false
  result := 0
  task := .take

namespace Session

/-- The call returns its result and leaves the producer idle. -/
def finish (s : Session) (result : Nat) : Session := { s with point := .idle, result := result }

/-- The last line of `write_ringbuf` returns the whole size or zero. -/
def returnDone (s : Session) : Session := s.finish (if s.done then s.data.length else 0)

/-- The data callback enters `write_ringbuf` when its last call has returned. -/
def call (s : Session) (data : List UInt8) : Option Session :=
  if s.point = .idle then
    some { s with point := .testDropping, data := data, done := false }
  else none

/-- One access of `write_ringbuf` moves the producer to its next point. -/
def writeRingbuf (s : Session) : Option Session :=
  match s.point with
  | .idle => none
  | .testDropping =>
      if s.ringbufferMode = .dropping then some { s with point := .infoDropping }
      else some { s with point := .send }
  | .infoDropping =>
      if s.ringbufI2s.itemsWaiting ≤ ringbufPrefetchWaterLevel then
        some { s with point := .leaveDropping }
      else some (s.finish 0)
  | .leaveDropping => some ({ s with ringbufferMode := .processing }.finish 0)
  | .send =>
      match s.ringbufI2s.send s.data with
      | some ring => some { s with ringbufI2s := ring, done := true, point := .testPrefetching }
      | none => some { s with done := false, point := .enterDropping }
  | .enterDropping => some { s with ringbufferMode := .dropping, point := .testPrefetching }
  | .testPrefetching =>
      if s.ringbufferMode = .prefetching then some { s with point := .infoPrefetching }
      else some s.returnDone
  | .infoPrefetching =>
      if ringbufPrefetchWaterLevel ≤ s.ringbufI2s.itemsWaiting then
        some { s with point := .leavePrefetching }
      else some s.returnDone
  | .leavePrefetching => some { s with ringbufferMode := .processing, point := .give }
  | .give =>
      if s.i2sWriteSemaphore then some { s with point := .giveFailed }
      else some { s with i2sWriteSemaphore := true }.returnDone
  | .giveFailed => some s.returnDone

/-- One access of `bt_i2s_task_handler` moves the consumer to its next point. -/
def btI2sTaskHandler (s : Session) (contiguous : Nat) : Option Session :=
  match s.task with
  | .take =>
      if s.i2sWriteSemaphore then some { s with i2sWriteSemaphore := false, task := .receive }
      else none
  | .receive =>
      match s.ringbufI2s.receiveUpTo itemSizeUpto contiguous with
      | some ring => some { s with ringbufI2s := ring, task := .write }
      | none => some { s with task := .underflow }
  | .write => some { s with task := .returnItem }
  | .returnItem => some { s with ringbufI2s := s.ringbufI2s.returnItem, task := .receive }
  | .underflow => some { s with ringbufferMode := .prefetching, task := .take }

/-- The consumer leaves the point of the producer. -/
theorem btI2sTaskHandler_point {s next : Session} {contiguous : Nat}
    (taken : s.btI2sTaskHandler contiguous = some next) : next.point = s.point := by
  unfold btI2sTaskHandler at taken
  cases task : s.task with
  | take | receive =>
      simp only [task] at taken
      split at taken <;> cases taken <;> rfl
  | write | returnItem | underflow =>
      simp only [task] at taken
      cases taken
      rfl

/-- The consumer is blocked on the semaphore and no token is available. -/
def Parked (s : Session) : Prop := s.task = .take ∧ s.i2sWriteSemaphore = false

instance (s : Session) : Decidable s.Parked := inferInstanceAs (Decidable (_ ∧ _))

/-- The bytes that the consumer holds between its receive and its I2S write. -/
def held (s : Session) : List UInt8 := if s.task = .write then s.ringbufI2s.taken else []

end Session

/-- A label chooses the task that takes the next step. -/
inductive SessionLabel where
  | call (data : List UInt8)
  | writeRingbuf
  | btI2sTaskHandler (contiguous : Nat)

def SessionLabel.isConsumer : SessionLabel → Bool
  | .btI2sTaskHandler _ => true
  | .call _ | .writeRingbuf => false

def Session.step (s : Session) : SessionLabel → Option Session
  | .call data => s.call data
  | .writeRingbuf => s.writeRingbuf
  | .btI2sTaskHandler contiguous => s.btI2sTaskHandler contiguous

/-- One I2S session starts after `bt_i2s_task_start_up`. -/
def sessionMachine : Machine Session SessionLabel := ⟨btI2sTaskStartUp, Session.step⟩

end DesktopCube.Audio
