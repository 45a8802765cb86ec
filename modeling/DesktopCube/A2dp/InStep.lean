import DesktopCube.A2dp.Connection
import DesktopCube.A2dp.Handlers

namespace DesktopCube.A2dp
open Transition BoundedQueue Program

/-- The queue takes every report of the stack. -/
def Delivered (c : Connection) : ConnectionLabel → Prop
  | .report _ => c.queue.HasRoom
  | _ => True

instance (c : Connection) (label : ConnectionLabel) : Decidable (Delivered c label) :=
  match label with
  | .report _ => inferInstanceAs (Decidable c.queue.HasRoom)
  | .other | .receive | .execute _ => isTrue trivial

/-- The waiting reports lead from the handled state to the state of the stack. -/
def Leads (handled : ConnectionState) (stack : ConnectionState) : List Message → Prop
  | [] => handled = stack
  | .other :: rest => Leads handled stack rest
  | .connectionState state :: rest => follows handled state = true ∧ Leads state stack rest

theorem Leads.other {handled stack : ConnectionState} {messages : List Message}
    (leads : Leads handled stack messages) : Leads handled stack (messages ++ [.other]) := by
  induction messages generalizing handled with
  | nil => exact leads
  | cons message rest ih =>
      cases message with
      | other => exact ih leads
      | connectionState state => exact ⟨leads.1, ih leads.2⟩

theorem Leads.report {handled stack state : ConnectionState} {messages : List Message}
    (leads : Leads handled stack messages) (next : follows stack state = true) :
    Leads handled state (messages ++ [.connectionState state]) := by
  induction messages generalizing handled with
  | nil => exact ⟨leads.symm ▸ next, rfl⟩
  | cons message rest ih =>
      cases message with
      | other => exact ih leads
      | connectionState state => exact ⟨leads.1, ih leads.2⟩

/-- The handled state tells which resources are live. -/
def Held (handled : ConnectionState) (r : Resources) : Prop :=
  match handled with
  | .disconnected => r.txChan.live = false ∧ r.semaphore.live = []
  | .connecting => r.txChan = .enabled ∧ r.semaphore.live = []
  | .connected | .disconnecting => r.txChan = .enabled

theorem Held.enabled {handled : ConnectionState} {r : Resources} (held : Held handled r)
    (connected : handled ≠ .disconnected) : r.txChan = .enabled := by
  cases handled with
  | disconnected => exact absurd rfl connected
  | connecting => exact held.1
  | connected | disconnecting => exact held

/-- The I2S task has its channel until the teardown has deleted the channel. -/
structure Covered (ops : List Op) (r : Resources) : Prop where
  tidy : Tidy ops r
  covered : r.task.live ≠ [] → r.txChan.live = true ∨ ops = btI2sTaskShutDown

/-- The first report in the queue continues the session that the task handles. -/
def Connection.continues (c : Connection) : Bool :=
  match c.queue.items with
  | .connectionState state :: _ => follows c.handled state
  | _ => true

/-- The reports that the task receives form sessions. -/
def Served (c : Connection) (label : ConnectionLabel) : Prop := label = .receive → c.continues = true

instance (c : Connection) (label : ConnectionLabel) : Decidable (Served c label) :=
  inferInstanceAs (Decidable (_ → _))

/-- A task that handles sessions keeps the resources in step with them. -/
abbrev InStep : Connection → Prop := Keeping Covered Held

/-- The handler of the next report of a session finds what it needs. -/
theorem btAvHdlA2dEvt_covered {handled state : ConnectionState} {r : Resources}
    (covered : Covered [] r) (held : Held handled r) (next : follows handled state = true) :
    Keeps execute Covered (Held state) (btAvHdlA2dEvt state) r := by
  cases state with
  | connecting =>
      have free : handled = .disconnected := by cases handled <;> first | rfl | cases next
      subst free
      have noTask := covered.tidy.task_live (covered.tidy.ringbuf_live held.2)
      apply (btI2sDriverInstall_keeps covered.tidy held.1).mono
      · rintro ops after ⟨tidy, task, _⟩
        exact ⟨tidy, fun live => absurd noTask (task ▸ live)⟩
      · rintro after ⟨_, _, semaphore⟩ enabled
        exact ⟨enabled, by rw [semaphore]; exact held.2⟩
  | connected =>
      have waiting : handled = .connecting := by cases handled <;> first | rfl | cases next
      subst waiting
      apply (btI2sTaskStartUp_keeps covered.tidy held.2).mono
      · rintro ops after ⟨tidy, channel⟩
        exact ⟨tidy, fun _ => .inl (by rw [channel, held.1]; rfl)⟩
      · rintro after ⟨_, channel⟩ _
        exact channel.trans held.1
  | disconnected =>
      have connected : handled ≠ .disconnected := by rintro rfl; cases next
      apply (btI2sDriverUninstall_keeps covered.tidy (held.enabled connected)).mono
      · exact fun ops after always => ⟨always.1, always.2⟩
      · rintro after _ ⟨deleted, absent⟩
        exact ⟨by rw [deleted]; rfl, absent⟩
  | disconnecting =>
      have connected : handled ≠ .disconnected := by rintro rfl; cases next
      exact ⟨covered, held.enabled connected⟩

namespace InStep

variable {c next : Connection} {label : ConnectionLabel}

theorem start : InStep Connection.start :=
  ⟨rfl, ⟨⟨rfl, rfl, rfl, fun live => absurd rfl live, fun live => absurd rfl live, trivial⟩,
    fun live => absurd rfl live⟩, rfl, rfl⟩

theorem step (inStep : InStep c) (served : Served c label)
    (taken : connectionMachine.step c label = some next) : InStep next := by
  apply Keeping.step inStep taken
  intro state received head covered held
  have continues := served received
  unfold Connection.continues at continues
  cases items : c.queue.items with
  | nil => simp [items] at head
  | cons message rest =>
      rw [items, List.head?_cons, Option.some.injEq] at head
      simp only [items, head] at continues
      exact btAvHdlA2dEvt_covered covered held continues

end InStep

namespace Leads

variable {c next : Connection} {label : ConnectionLabel}

/-- A queue that takes every report leads on to the state of the stack. -/
theorem step (leads : Leads c.handled c.stack c.queue.items) (delivered : Delivered c label)
    (taken : connectionMachine.step c label = some next) :
    Leads next.handled next.stack next.queue.items := by
  have running := Connection.running_of_step taken
  cases label with
  | report state =>
      rw [Connection.step_report running] at taken
      unfold Connection.report at taken
      split at taken
      · rename_i reported
        cases taken
        rw [Connection.dispatch_eq]
        rcases Connection.dispatch_items { c with stack := state } (.connectionState state) with sent | full
        · exact sent ▸ leads.report reported
        · exact absurd delivered full.2
      · cases taken
  | other =>
      rw [Connection.step_other running] at taken
      cases taken
      rw [Connection.dispatch_eq]
      rcases Connection.dispatch_items c .other with sent | full
      · exact sent ▸ leads.other
      · exact full.1 ▸ leads
  | receive =>
      rw [Connection.step_receive running] at taken
      rcases (Connection.receive_cases taken).2 with ⟨state, queue, items, rfl⟩ | ⟨queue, items, rfl⟩
      · rw [items] at leads
        exact leads.2
      · rw [items] at leads
        exact leads
  | execute succeeds =>
      rw [Connection.step_execute running] at taken
      obtain ⟨_, _, _, ⟨_, _, rfl⟩ | ⟨_, _, rfl⟩ | ⟨_, rfl⟩⟩ := Connection.execute_cases taken <;> exact leads

/-- The reports of a queue that refused none form sessions. -/
theorem served (leads : Leads c.handled c.stack c.queue.items) : Served c label := by
  intro _
  unfold Connection.continues
  split
  · rename_i items
    rw [items] at leads
    exact leads.1
  · rfl

/-- The reports of the stack form sessions, so a queue that refuses none serves sessions. -/
theorem served_of_delivered (reached : connectionMachine.Reaches Delivered Connection.start c) :
    connectionMachine.Reaches Served Connection.start c ∧ Leads c.handled c.stack c.queue.items := by
  induction reached with
  | refl => exact ⟨.refl, rfl⟩
  | step _ label delivered taken ih => exact ⟨.step ih.1 label ih.2.served taken, ih.2.step delivered taken⟩

end Leads

end DesktopCube.A2dp
