import DesktopCube.A2dp.Device
import DesktopCube.Audio.PrefetchGate

namespace DesktopCube.A2dp
open Transition BoundedQueue RingBuffer Program Audio

/-- The I2S task is about to start `i2s_channel_write`. -/
def Device.Writing (d : Device) : Prop :=
  d.connection.resources.task.live ≠ [] ∧ d.session.task = .write

/-- The task starts its write on a channel that is enabled or disabled. -/
def WritesLiveChannel (d : Device) : Prop :=
  d.Writing → d.connection.resources.txChan.live = true

/-- The writes use a live channel except between `i2s_del_channel` and `vTaskDelete`. -/
theorem writesLiveChannel_iff {d : Device}
    (reached : deviceMachine.Reaches Device.Served Device.start d) :
    WritesLiveChannel d ↔ ¬ (d.Writing ∧ d.connection.ops = btI2sTaskShutDown) := by
  have covered := (Device.inStep reached).keeps.now
  constructor
  · rintro live ⟨writing, deleting⟩
    have deleted : d.connection.resources.txChan.live = false := by
      have ordered := covered.tidy.ordered
      rw [deleting] at ordered
      exact ordered
    rw [live writing] at deleted
    cases deleted
  · intro apart writing
    rcases covered.covered writing.1 with live | deleting
    · exact live
    · exact absurd ⟨writing, deleting⟩ apart

/-- The connection after the handled CONNECTED of the first session. -/
def connectedConnection : Connection :=
  ⟨.connected, Queue.empty, .connected, [],
    ⟨.enabled, ⟨some 0, [0], 1⟩, ⟨some 0, [0], 1⟩, ⟨some 0, [0], 1⟩⟩, false⟩

theorem connected_reaches : deviceMachine.Reaches Device.Served Device.start
    ⟨connectedConnection, Audio.btI2sTaskStartUp, 1, 1, 0⟩ := by
  let labels : List ConnectionLabel := [.report .connecting, .receive] ++
    List.replicate 3 (.execute true) ++ [.report .connected, .receive] ++
    List.replicate 4 (.execute true)
  have finished : deviceMachine.checkedRun Device.Served Device.start
      (labels.map .connection) = some ⟨connectedConnection, Audio.btI2sTaskStartUp, 1, 1, 0⟩ := rfl
  exact Machine.checkedRun_reaches finished

/-- A packet above the prefetch level brings the task to its first write. -/
theorem writing_reaches (data : List UInt8) (enough : ringbufPrefetchWaterLevel ≤ data.length)
    (fits : data.length ≤ ringbufHighestWaterLevel) :
    ∃ s callSession, s.task = .write ∧ deviceMachine.Reaches Device.Served Device.start
      ⟨connectedConnection, s, 1, 1, callSession⟩ := by
  obtain ⟨s, finished, task, token, waiting, taken⟩ := first_packet_gives data enough fits
  have called : sessionMachine.Reaches (fun _ _ => True) Audio.btI2sTaskStartUp s :=
    Machine.run_reaches finished fun _ _ _ => trivial
  have woken : sessionMachine.Reaches (fun _ _ => True) Audio.btI2sTaskStartUp
      { s with i2sWriteSemaphore := false, task := .receive } := by
    refine .step called (.btI2sTaskHandler 0) trivial ?_
    simp [sessionMachine, Session.step, Session.btI2sTaskHandler, task, token]
  have positive : 0 < data.length := Nat.lt_of_lt_of_le (by decide) enough
  have available : s.ringbufI2s.available = true := by
    cases data with
    | nil => exact absurd positive (Nat.lt_irrefl 0)
    | cons byte rest => simp [Ringbuffer.available, taken, waiting]
  obtain ⟨ring, received⟩ : ∃ ring, s.ringbufI2s.receiveUpTo itemSizeUpto 0 = some ring :=
    ⟨_, if_pos available⟩
  have writing : sessionMachine.Reaches (fun _ _ => True) Audio.btI2sTaskStartUp
      { s with i2sWriteSemaphore := false, ringbufI2s := ring, task := .write } := by
    refine .step woken (.btI2sTaskHandler 0) trivial ?_
    simp [sessionMachine, Session.step, Session.btI2sTaskHandler, received]
  obtain ⟨callSession, played⟩ := Device.session_reaches
    ⟨connectedConnection, Audio.btI2sTaskStartUp, 1, 1, 0⟩ rfl (by decide) writing
  exact ⟨_, callSession, rfl, connected_reaches.trans played⟩

/-- The first write of a session finds its channel. -/
theorem writesLiveChannel_iff_first : ∃ d : Device, d.Writing ∧ WritesLiveChannel d := by
  obtain ⟨s, callSession, task, reached⟩ := writing_reaches
    (List.replicate ringbufPrefetchWaterLevel 0) (by simp) (by simp; decide)
  refine ⟨_, ⟨List.cons_ne_nil 0 [], task⟩, (writesLiveChannel_iff reached).mpr fun deleting => ?_⟩
  cases deleting.2

/-- The task starts a write after the teardown has deleted its channel. -/
theorem not_writesLiveChannel : ¬ ∀ d, deviceMachine.Reaches Device.Served Device.start d →
    WritesLiveChannel d := by
  intro writes
  obtain ⟨s, callSession, task, reached⟩ := writing_reaches
    (List.replicate ringbufPrefetchWaterLevel 0) (by simp) (by simp; decide)
  let labels : List ConnectionLabel :=
    [.report .disconnected, .receive, .execute true, .execute true]
  obtain ⟨d, finished⟩ : ∃ d, deviceMachine.checkedRun Device.Served
      ⟨connectedConnection, s, 1, 1, callSession⟩ (labels.map .connection) = some d := ⟨_, rfl⟩
  have torn := reached.trans (Machine.checkedRun_reaches finished)
  have writing : d.Writing := by
    cases finished
    exact ⟨List.cons_ne_nil 0 [], task⟩
  have deleted : d.connection.resources.txChan.live = false := by
    cases finished
    rfl
  rw [writes d torn writing] at deleted
  cases deleted

end DesktopCube.A2dp
