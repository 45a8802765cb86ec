import DesktopCube.Library.Program
import Mathlib.Data.List.Basic

namespace DesktopCube.A2dp
open Program

/-- The variable `tx_chan` keeps its value when the channel is deleted. -/
inductive Channel where
  | absent
  | disabled
  | enabled
  | deleted
  deriving DecidableEq, Repr

def Channel.live : Channel → Bool
  | .disabled | .enabled => true
  | .absent | .deleted => false

/-- A global handle and all objects of its kind that exist. -/
structure Slot where
  handle : Option Nat
  live : List Nat
  next : Nat
  deriving DecidableEq, Repr

def Slot.empty : Slot := ⟨none, [], 0⟩

/-- The handle becomes NULL when the creation fails. -/
def Slot.create (slot : Slot) (succeeds : Bool) : Slot :=
  if succeeds then ⟨some slot.next, slot.next :: slot.live, slot.next + 1⟩
  else { slot with handle := none }

/-- The function `xTaskCreate` writes its handle only when it succeeds. -/
def Slot.createTask (slot : Slot) (succeeds : Bool) : Slot :=
  if succeeds then slot.create true else slot

/-- A deletion needs a handle and resets it. -/
def Slot.delete (slot : Slot) : Slot :=
  match slot.handle with
  | some object => { slot with handle := none, live := slot.live.erase object }
  | none => slot

/-- The handle names an object that exists. -/
def Slot.usable (slot : Slot) : Bool := slot.handle.any slot.live.contains

structure Resources where
  txChan : Channel
  semaphore : Slot
  ringbuf : Slot
  task : Slot
  deriving DecidableEq, Repr

def Resources.start : Resources := ⟨.absent, .empty, .empty, .empty⟩

/-- Each operation is one call of the branches of `bt_av_hdl_a2d_evt`. -/
inductive Op where
  | i2sNewChannel
  | i2sChannelInitStdMode
  | i2sChannelEnable
  | i2sChannelDisable
  | i2sDelChannel
  | prefetching
  | semaphoreCreate
  | ringbufferCreate
  | taskCreate
  | taskDelete
  | ringbufferDelete
  | semaphoreDelete
  deriving DecidableEq, Repr

/-- A failed check of the channel aborts and a failed creation leaves the function. -/
def execute (r : Resources) (op : Op) (succeeds : Bool) : Outcome Resources :=
  match op with
  | .i2sNewChannel => if r.txChan.live then .abort else .next { r with txChan := .disabled }
  | .i2sChannelInitStdMode => if r.txChan = .disabled then .next r else .abort
  | .i2sChannelEnable => if r.txChan = .disabled then .next { r with txChan := .enabled } else .abort
  | .i2sChannelDisable => if r.txChan = .enabled then .next { r with txChan := .disabled } else .abort
  | .i2sDelChannel => if r.txChan = .disabled then .next { r with txChan := .deleted } else .abort
  | .prefetching => .next r
  | .semaphoreCreate =>
      if succeeds then .next { r with semaphore := r.semaphore.create true }
      else .leave { r with semaphore := r.semaphore.create false }
  | .ringbufferCreate =>
      if succeeds then .next { r with ringbuf := r.ringbuf.create true }
      else .leave { r with ringbuf := r.ringbuf.create false }
  | .taskCreate => .next { r with task := r.task.createTask succeeds }
  | .taskDelete => .next { r with task := r.task.delete }
  | .ringbufferDelete => .next { r with ringbuf := r.ringbuf.delete }
  | .semaphoreDelete => .next { r with semaphore := r.semaphore.delete }

def btI2sDriverInstall : List Op := [.i2sNewChannel, .i2sChannelInitStdMode, .i2sChannelEnable]

def btI2sDriverUninstall : List Op := [.i2sChannelDisable, .i2sDelChannel]

def btI2sTaskStartUp : List Op := [.prefetching, .semaphoreCreate, .ringbufferCreate, .taskCreate]

def btI2sTaskShutDown : List Op := [.taskDelete, .ringbufferDelete, .semaphoreDelete]

/-- The connection states that the stack reports. -/
inductive ConnectionState where
  | disconnected
  | connecting
  | connected
  | disconnecting
  deriving DecidableEq, Repr

/-- The handler of `ESP_A2D_CONNECTION_STATE_EVT` runs these operations. -/
def btAvHdlA2dEvt : ConnectionState → List Op
  | .disconnected => btI2sDriverUninstall ++ btI2sTaskShutDown
  | .connected => btI2sTaskStartUp
  | .connecting => btI2sDriverInstall
  | .disconnecting => []

/-- The handle names the only object that exists. -/
def Slot.Single (slot : Slot) : Prop := slot.live = slot.handle.toList

/-- The next operation meets the objects that its handler leaves to it. -/
def Ordered (r : Resources) : List Op → Prop
  | .prefetching :: _ | .semaphoreCreate :: _ => r.semaphore.live = []
  | .ringbufferCreate :: _ => r.ringbuf.live = [] ∧ r.semaphore.live ≠ []
  | .taskCreate :: _ => r.task.live = [] ∧ r.ringbuf.live ≠ []
  | .taskDelete :: _ => r.txChan.live = false
  | .ringbufferDelete :: _ => r.txChan.live = false ∧ r.task.live = []
  | .semaphoreDelete :: _ => r.txChan.live = false ∧ r.ringbuf.live = []
  | _ => True

/-- The objects exist once and in the order of their creation. -/
structure Tidy (ops : List Op) (r : Resources) : Prop where
  semaphore : r.semaphore.Single
  ringbuf : r.ringbuf.Single
  task : r.task.Single
  ringbufOwned : r.ringbuf.live ≠ [] → r.semaphore.live ≠ []
  taskOwned : r.task.live ≠ [] → r.ringbuf.live ≠ []
  ordered : Ordered r ops

namespace Slot

variable {slot : Slot}

theorem Single.length_le (single : slot.Single) : slot.live.length ≤ 1 := by
  rw [single]
  cases slot.handle with
  | none => exact Nat.zero_le 1
  | some object => exact Nat.le_refl 1

theorem create_single (succeeds : Bool) (absent : slot.live = []) : (slot.create succeeds).Single := by
  cases succeeds with
  | true => exact congrArg (slot.next :: ·) absent
  | false => exact absent

theorem create_live : (slot.create true).live ≠ [] := List.cons_ne_nil _ _

/-- No creation ends an object that exists. -/
theorem create_keeps_live (succeeds : Bool) (live : slot.live ≠ []) : (slot.create succeeds).live ≠ [] := by
  cases succeeds with
  | true => exact create_live
  | false => exact live

theorem createTask_single (succeeds : Bool) (single : slot.Single) (absent : slot.live = []) :
    (slot.createTask succeeds).Single := by
  cases succeeds with
  | true => exact create_single true absent
  | false => exact single

theorem Single.delete_live (single : slot.Single) : slot.delete.live = [] := by
  unfold delete
  cases handle : slot.handle with
  | none => rw [single, handle]; rfl
  | some object =>
      have only : slot.live = [object] := by rw [single, handle]; rfl
      simp [only]

theorem Single.delete (single : slot.Single) : slot.delete.Single := by
  have empty := single.delete_live
  unfold Single
  rw [empty]
  unfold Slot.delete at empty ⊢
  cases handle : slot.handle with
  | none => simp only [handle]; rfl
  | some object => rfl

theorem live_of_usable (usable : slot.usable = true) : slot.live ≠ [] := by
  intro absent
  unfold Slot.usable at usable
  cases handle : slot.handle with
  | none => simp [handle] at usable
  | some object => simp [handle, absent] at usable

theorem Single.usable_iff (single : slot.Single) : slot.usable = true ↔ slot.live ≠ [] := by
  unfold usable
  rw [single]
  cases slot.handle with
  | none => simp
  | some object => simp

end Slot

end DesktopCube.A2dp
