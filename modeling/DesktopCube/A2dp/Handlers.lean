import DesktopCube.A2dp.Resources

namespace DesktopCube.A2dp
open Program

namespace Tidy

variable {r : Resources} {ops rest : List Op}

/-- The channel does not touch the other objects. -/
theorem channel (tidy : Tidy ops r) (channel : Channel)
    (ordered : Ordered { r with txChan := channel } rest) : Tidy rest { r with txChan := channel } :=
  ⟨tidy.semaphore, tidy.ringbuf, tidy.task, tidy.ringbufOwned, tidy.taskOwned, ordered⟩

theorem reorder (tidy : Tidy ops r) (ordered : Ordered r rest) : Tidy rest r :=
  ⟨tidy.semaphore, tidy.ringbuf, tidy.task, tidy.ringbufOwned, tidy.taskOwned, ordered⟩

theorem ringbuf_live (tidy : Tidy ops r) (absent : r.semaphore.live = []) : r.ringbuf.live = [] := by
  by_contra live
  exact tidy.ringbufOwned live absent

theorem task_live (tidy : Tidy ops r) (absent : r.ringbuf.live = []) : r.task.live = [] := by
  by_contra live
  exact tidy.taskOwned live absent

end Tidy

/-- The installation enables a channel when none is live. -/
theorem btI2sDriverInstall_keeps {r : Resources} (tidy : Tidy [] r) (free : r.txChan.live = false) :
    Keeps execute
      (fun ops after => Tidy ops after ∧ after.task = r.task ∧ after.semaphore = r.semaphore)
      (fun after => after.txChan = .enabled) btI2sDriverInstall r := by
  refine ⟨⟨tidy.reorder trivial, rfl, rfl⟩, fun _ => ?_⟩
  simp only [execute, free, Bool.false_eq_true, if_false]
  refine ⟨⟨tidy.channel .disabled trivial, rfl, rfl⟩, fun _ => ?_⟩
  simp only [execute, if_true]
  refine ⟨⟨tidy.channel .disabled trivial, rfl, rfl⟩, fun _ => ?_⟩
  simp only [execute, if_true]
  exact ⟨⟨tidy.channel .enabled trivial, rfl, rfl⟩, rfl⟩

/-- The start-up creates at most one object of each kind when no semaphore is live. -/
theorem btI2sTaskStartUp_keeps {r : Resources} (tidy : Tidy [] r) (absent : r.semaphore.live = []) :
    Keeps execute (fun ops after => Tidy ops after ∧ after.txChan = r.txChan) (fun _ => True)
      btI2sTaskStartUp r := by
  have noRing := tidy.ringbuf_live absent
  have noTask := tidy.task_live noRing
  refine ⟨⟨tidy.reorder absent, rfl⟩, fun _ => ?_⟩
  simp only [execute]
  refine ⟨⟨tidy.reorder absent, rfl⟩, fun semaphoreCreated => ?_⟩
  cases semaphoreCreated with
  | false =>
      have failed : Tidy [] { r with semaphore := r.semaphore.create false } :=
        ⟨Slot.create_single false absent, tidy.ringbuf, tidy.task, fun live => absurd noRing live,
          tidy.taskOwned, trivial⟩
      simp only [execute, Bool.false_eq_true, if_false]
      exact ⟨⟨failed, trivial⟩, trivial⟩
  | true =>
      let first : Resources := { r with semaphore := r.semaphore.create true }
      have created : Tidy [.ringbufferCreate, .taskCreate] first :=
        ⟨Slot.create_single true absent, tidy.ringbuf, tidy.task, fun _ => Slot.create_live,
          tidy.taskOwned, ⟨noRing, Slot.create_live⟩⟩
      simp only [execute, if_true]
      refine ⟨⟨created, rfl⟩, fun ringbufCreated => ?_⟩
      cases ringbufCreated with
      | false =>
          have failed : Tidy [] { first with ringbuf := first.ringbuf.create false } :=
            ⟨created.semaphore, Slot.create_single false noRing, tidy.task, fun _ => Slot.create_live,
              fun live => absurd noTask live, trivial⟩
          simp only [execute, Bool.false_eq_true, if_false]
          exact ⟨⟨failed, trivial⟩, trivial⟩
      | true =>
          let second : Resources := { first with ringbuf := first.ringbuf.create true }
          have both : Tidy [.taskCreate] second :=
            ⟨created.semaphore, Slot.create_single true noRing, tidy.task, fun _ => Slot.create_live,
              fun _ => Slot.create_live, ⟨noTask, Slot.create_live⟩⟩
          simp only [execute, if_true]
          refine ⟨⟨both, rfl⟩, fun taskCreated => ?_⟩
          exact ⟨⟨⟨both.semaphore, both.ringbuf, Slot.createTask_single taskCreated both.task noTask,
            both.ringbufOwned, fun _ => Slot.create_live, trivial⟩, rfl⟩, trivial⟩

/-- The teardown leaves no object when the channel is enabled. -/
theorem btI2sDriverUninstall_keeps {r : Resources} (tidy : Tidy [] r) (enabled : r.txChan = .enabled) :
    Keeps execute
      (fun ops after => Tidy ops after ∧
        (after.task.live ≠ [] → after.txChan.live = true ∨ ops = btI2sTaskShutDown))
      (fun after => after.txChan = .deleted ∧ after.semaphore.live = [])
      (btAvHdlA2dEvt .disconnected) r := by
  have live : r.txChan.live = true := by rw [enabled]; rfl
  have noTask := tidy.task.delete_live
  have noRing := tidy.ringbuf.delete_live
  have noSemaphore := tidy.semaphore.delete_live
  refine ⟨⟨tidy.reorder trivial, fun _ => .inl live⟩, fun _ => ?_⟩
  simp only [execute, enabled, if_true]
  refine ⟨⟨tidy.channel .disabled trivial, fun _ => .inl rfl⟩, fun _ => ?_⟩
  simp only [execute, if_true]
  refine ⟨⟨tidy.channel .deleted rfl, fun _ => .inr rfl⟩, fun _ => ?_⟩
  simp only [execute]
  refine ⟨⟨⟨tidy.semaphore, tidy.ringbuf, tidy.task.delete, tidy.ringbufOwned,
    fun live => absurd noTask live, ⟨rfl, noTask⟩⟩, fun live => absurd noTask live⟩, fun _ => ?_⟩
  simp only [execute]
  refine ⟨⟨⟨tidy.semaphore, tidy.ringbuf.delete, tidy.task.delete, fun live => absurd noRing live,
    fun live => absurd noTask live, ⟨rfl, noRing⟩⟩, fun live => absurd noTask live⟩, fun _ => ?_⟩
  simp only [execute]
  exact ⟨⟨⟨tidy.semaphore.delete, tidy.ringbuf.delete, tidy.task.delete, fun live => absurd noRing live,
    fun live => absurd noTask live, trivial⟩, fun live => absurd noTask live⟩, rfl, noSemaphore⟩

end DesktopCube.A2dp
