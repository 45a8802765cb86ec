import DesktopCube.A2dp.InStep
import DesktopCube.Audio.Session

namespace DesktopCube.A2dp
open Transition BoundedQueue RingBuffer Program Audio

/-- The data callback and the I2S task run beside `BtAppTask`. -/
structure Device where
  connection : Connection
  session : Session
  sessions : Nat
  startUps : Nat
  callSession : Nat

def Device.start : Device :=
  ⟨Connection.start, { Audio.btI2sTaskStartUp with ringbufferMode := .processing }, 0, 0, 0⟩

/-- A new object replaces the contents of the old one. -/
def Session.renew (s : Session) (op : Op) (succeeds : Bool) : Session :=
  match op, succeeds with
  | .prefetching, _ => { s with ringbufferMode := .prefetching }
  | .semaphoreCreate, true => { s with i2sWriteSemaphore := false }
  | .ringbufferCreate, true => { s with ringbufI2s := Ringbuffer.empty }
  | .taskCreate, true => { s with task := .take }
  | _, _ => s

/-- Each start-up begins with its write of the mode. -/
def Device.renew (d : Device) (op : Op) (succeeds : Bool) : Device :=
  { d with
    session := Session.renew d.session op succeeds
    startUps := if op = .prefetching then d.startUps + 1 else d.startUps }

inductive DeviceLabel where
  | connection (label : ConnectionLabel)
  | call (data : List UInt8)
  | writeRingbuf
  | btI2sTaskHandler (contiguous : Nat)

/-- Each report of CONNECTED begins a session and each operation of `BtAppTask` acts on it. -/
def Device.renewed (d : Device) (label : ConnectionLabel) : Device :=
  match label, d.connection.ops with
  | .report .connected, _ => { d with sessions := d.sessions + 1 }
  | .execute succeeds, op :: _ => d.renew op succeeds
  | _, _ => d

/-- The stack delivers data from its report of CONNECTED to its report of DISCONNECTED. -/
def Device.call (d : Device) (data : List UInt8) : Option Device :=
  if d.connection.stack = .connected ∨ d.connection.stack = .disconnecting then
    (d.session.call data).map fun session =>
      { d with session := session, callSession := d.sessions }
  else none

/-- The I2S task runs while it exists. -/
def Device.btI2sTaskHandler (d : Device) (contiguous : Nat) : Option Device :=
  if d.connection.resources.task.live ≠ [] then
    (d.session.btI2sTaskHandler contiguous).map fun session => { d with session := session }
  else none

def Device.step (d : Device) : DeviceLabel → Option Device
  | .connection label =>
      (connectionMachine.step d.connection label).map fun connection =>
        { d.renewed label with connection := connection }
  | .call data => d.call data
  | .writeRingbuf => d.session.writeRingbuf.map fun session => { d with session := session }
  | .btI2sTaskHandler contiguous => d.btI2sTaskHandler contiguous

def deviceMachine : Machine Device DeviceLabel := ⟨Device.start, Device.step⟩

/-- The reports that `BtAppTask` receives form sessions. -/
def Device.Served (d : Device) : DeviceLabel → Prop
  | .connection label => A2dp.Served d.connection label
  | _ => True

instance (d : Device) (label : DeviceLabel) : Decidable (d.Served label) :=
  match label with
  | .connection label => inferInstanceAs (Decidable (A2dp.Served d.connection label))
  | .call _ | .writeRingbuf | .btI2sTaskHandler _ => isTrue trivial

/-- The queue refuses no report. -/
def Device.Delivered (d : Device) : DeviceLabel → Prop
  | .connection label => A2dp.Delivered d.connection label
  | _ => True

instance (d : Device) (label : DeviceLabel) : Decidable (d.Delivered label) :=
  match label with
  | .connection label => inferInstanceAs (Decidable (A2dp.Delivered d.connection label))
  | .call _ | .writeRingbuf | .btI2sTaskHandler _ => isTrue trivial

/-- The waiting reports lead to the state of the stack. -/
def Device.Leads (d : Device) : Prop :=
  A2dp.Leads d.connection.handled d.connection.stack d.connection.queue.items

namespace Device

variable {d next : Device} {label : DeviceLabel}

/-- A step of another task leaves the connection. -/
theorem step_connection (taken : deviceMachine.step d label = some next) :
    (∃ connectionLabel, label = .connection connectionLabel ∧
      connectionMachine.step d.connection connectionLabel = some next.connection) ∨
    next.connection = d.connection := by
  cases label with
  | connection connectionLabel =>
      obtain ⟨connection, step, rfl⟩ := Option.map_eq_some_iff.mp taken
      exact .inl ⟨connectionLabel, rfl, step⟩
  | call data =>
      change d.call data = some next at taken
      unfold call at taken
      split at taken
      · obtain ⟨session, _, rfl⟩ := Option.map_eq_some_iff.mp taken
        exact .inr rfl
      · cases taken
  | writeRingbuf =>
      obtain ⟨session, _, rfl⟩ := Option.map_eq_some_iff.mp taken
      exact .inr rfl
  | btI2sTaskHandler contiguous =>
      change d.btI2sTaskHandler contiguous = some next at taken
      unfold btI2sTaskHandler at taken
      split at taken
      · obtain ⟨session, _, rfl⟩ := Option.map_eq_some_iff.mp taken
        exact .inr rfl
      · cases taken

/-- The handlers keep in step with the sessions whatever the other tasks do. -/
theorem inStep_step (inStep : InStep d.connection) (served : d.Served label)
    (taken : deviceMachine.step d label = some next) : InStep next.connection := by
  rcases step_connection taken with ⟨connectionLabel, rfl, step⟩ | same
  · exact inStep.step served step
  · exact same ▸ inStep

theorem inStep (reached : deviceMachine.Reaches Device.Served Device.start d) : InStep d.connection :=
  reached.invariant (fun d => InStep d.connection) InStep.start
    fun _ _ _ inStep served taken => inStep_step inStep served taken

theorem Leads.served (leads : d.Leads) (label : DeviceLabel) : d.Served label := by
  cases label with
  | connection label => exact A2dp.Leads.served leads
  | call data | writeRingbuf | btI2sTaskHandler contiguous => exact trivial

theorem Leads.step (leads : d.Leads) (delivered : d.Delivered label)
    (taken : deviceMachine.step d label = some next) : next.Leads := by
  rcases step_connection taken with ⟨connectionLabel, rfl, step⟩ | same
  · exact A2dp.Leads.step leads delivered step
  · rw [Device.Leads, same]
    exact leads

/-- A run whose queue refuses no report serves sessions, whatever else its steps meet. -/
theorem served_of_delivered {meets : Device → DeviceLabel → Prop}
    (reached : deviceMachine.Reaches (fun d label => d.Delivered label ∧ meets d label) Device.start d) :
    deviceMachine.Reaches (fun d label => d.Served label ∧ meets d label) Device.start d ∧ d.Leads := by
  induction reached with
  | refl => exact ⟨.refl, rfl⟩
  | step _ label allowed taken ih =>
      exact ⟨ih.1.step label ⟨ih.2.served label, allowed.2⟩ taken, ih.2.step allowed.1 taken⟩

/-- A session runs on the device while its task exists and the stack is connected. -/
theorem session_reaches {allowed : Session → SessionLabel → Prop} {s : Session} (d : Device)
    (connected : d.connection.stack = .connected) (task : d.connection.resources.task.live ≠ [])
    (reached : sessionMachine.Reaches allowed d.session s) :
    ∃ callSession, deviceMachine.Reaches Device.Served d
      { d with session := s, callSession := callSession } := by
  induction reached with
  | refl => exact ⟨d.callSession, .refl⟩
  | @step before after path label _ taken ih =>
      obtain ⟨callSession, ih⟩ := ih
      cases label with
      | call data =>
          refine ⟨d.sessions, .step ih (.call data) trivial ?_⟩
          have called : before.call data = some after := taken
          change Device.call _ data = _
          rw [Device.call, if_pos (.inl connected), called]
          rfl
      | writeRingbuf =>
          refine ⟨callSession, .step ih .writeRingbuf trivial ?_⟩
          have written : before.writeRingbuf = some after := taken
          change (before.writeRingbuf.map _) = _
          rw [written]
          rfl
      | btI2sTaskHandler contiguous =>
          refine ⟨callSession, .step ih (.btI2sTaskHandler contiguous) trivial ?_⟩
          have handled : before.btI2sTaskHandler contiguous = some after := taken
          change Device.btI2sTaskHandler _ contiguous = _
          rw [Device.btI2sTaskHandler, if_pos task, handled]
          rfl

end Device

end DesktopCube.A2dp
