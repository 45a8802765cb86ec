import DesktopCube.A2dp.Resources
import DesktopCube.Library.BoundedQueue
import DesktopCube.Library.Machine

namespace DesktopCube.A2dp
open Transition BoundedQueue Program

/-- Messages of other callbacks take room in the queue and touch no audio resource. -/
inductive Message where
  | connectionState (state : ConnectionState)
  | other
  deriving DecidableEq, Repr

/-- The stack reports, `BtAppTask` handles. -/
structure Connection where
  stack : ConnectionState
  queue : Queue Message 10
  handled : ConnectionState
  ops : List Op
  resources : Resources
  aborted : Bool

def Connection.start : Connection :=
  ⟨.disconnected, Queue.empty, .disconnected, [], Resources.start, false⟩

/-- A session is CONNECTING, then perhaps CONNECTED and DISCONNECTING, then DISCONNECTED. -/
def follows : ConnectionState → ConnectionState → Bool
  | .disconnected, .connecting => true
  | .connecting, .connected => true
  | .connecting, .disconnected => true
  | .connected, .disconnecting => true
  | .connected, .disconnected => true
  | .disconnecting, .disconnected => true
  | _, _ => false

/-- The callbacks ignore that a full queue refuses their message. -/
def Connection.dispatch (c : Connection) (message : Message) : Connection :=
  match c.queue.send message with
  | some queue => { c with queue := queue }
  | none => c

/-- The stack calls `bt_app_a2d_cb`. -/
def Connection.report (c : Connection) (state : ConnectionState) : Option Connection :=
  if follows c.stack state then
    some ({ c with stack := state }.dispatch (.connectionState state))
  else none

/-- The task takes a message when its last handler has returned. -/
def Connection.receive (c : Connection) : Option Connection :=
  match c.ops, c.queue.receive with
  | [], some (.connectionState state, queue) =>
      some { c with queue := queue, handled := state, ops := btAvHdlA2dEvt state }
  | [], some (.other, queue) => some { c with queue := queue }
  | _, _ => none

/-- The task executes the next operation of its handler. -/
def Connection.execute (c : Connection) (succeeds : Bool) : Option Connection :=
  match c.ops with
  | [] => none
  | op :: rest =>
      match A2dp.execute c.resources op succeeds with
      | .next r => some { c with ops := rest, resources := r }
      | .leave r => some { c with ops := [], resources := r }
      | .abort => some { c with aborted := true }

inductive ConnectionLabel where
  | report (state : ConnectionState)
  | other
  | receive
  | execute (succeeds : Bool)
  deriving DecidableEq, Repr

/-- An abort ends the run. -/
def Connection.step (c : Connection) (label : ConnectionLabel) : Option Connection :=
  if c.aborted then none
  else
    match label with
    | .report state => c.report state
    | .other => some (c.dispatch .other)
    | .receive => c.receive
    | .execute succeeds => c.execute succeeds

def connectionMachine : Machine Connection ConnectionLabel := ⟨Connection.start, Connection.step⟩

namespace Connection

variable {c next : Connection}

/-- A dispatch changes nothing but the queue. -/
theorem dispatch_eq (c : Connection) (message : Message) :
    c.dispatch message = { c with queue := (c.dispatch message).queue } := by
  unfold dispatch
  split <;> rfl

theorem running_of_step {label : ConnectionLabel} (taken : connectionMachine.step c label = some next) :
    c.aborted = false := by
  cases aborted : c.aborted with
  | false => rfl
  | true =>
      change c.step label = _ at taken
      simp [step, aborted] at taken

theorem step_report (running : c.aborted = false) (state : ConnectionState) :
    connectionMachine.step c (.report state) = c.report state := by
  change c.step (.report state) = _
  rw [step, running]
  rfl

theorem step_other (running : c.aborted = false) :
    connectionMachine.step c .other = some (c.dispatch .other) := by
  change c.step .other = _
  rw [step, running]
  rfl

theorem step_execute (running : c.aborted = false) (succeeds : Bool) :
    connectionMachine.step c (.execute succeeds) = c.execute succeeds := by
  change c.step (.execute succeeds) = _
  rw [step, running]
  rfl

theorem step_receive (running : c.aborted = false) :
    connectionMachine.step c .receive = c.receive := by
  change c.step .receive = _
  rw [step, running]
  rfl

/-- The task receives a report or another message. -/
theorem receive_cases (taken : c.receive = some next) :
    c.ops = [] ∧ ((∃ state queue, c.queue.items = .connectionState state :: queue.items ∧
      next = { c with queue := queue, handled := state, ops := btAvHdlA2dEvt state }) ∨
      ∃ queue, c.queue.items = .other :: queue.items ∧ next = { c with queue := queue }) := by
  unfold receive at taken
  split at taken
  · rename_i idle received
    cases taken
    exact ⟨idle, .inl ⟨_, _, Queue.receive_some received, rfl⟩⟩
  · rename_i idle received
    cases taken
    exact ⟨idle, .inr ⟨_, Queue.receive_some received, rfl⟩⟩
  · cases taken

/-- An operation goes on with its handler, leaves it or aborts. -/
theorem execute_cases {succeeds : Bool} (taken : c.execute succeeds = some next) :
    ∃ op rest, c.ops = op :: rest ∧
      ((∃ r, A2dp.execute c.resources op succeeds = .next r ∧
          next = { c with ops := rest, resources := r }) ∨
        (∃ r, A2dp.execute c.resources op succeeds = .leave r ∧
          next = { c with ops := [], resources := r }) ∨
        A2dp.execute c.resources op succeeds = .abort ∧ next = { c with aborted := true }) := by
  unfold execute at taken
  cases ops : c.ops with
  | nil => simp [ops] at taken
  | cons op rest =>
      simp only [ops] at taken
      refine ⟨op, rest, rfl, ?_⟩
      cases executed : A2dp.execute c.resources op succeeds with
      | next r =>
          simp only [executed] at taken
          cases taken
          exact .inl ⟨r, rfl, rfl⟩
      | leave r =>
          simp only [executed] at taken
          cases taken
          exact .inr (.inl ⟨r, rfl, rfl⟩)
      | abort =>
          simp only [executed] at taken
          cases taken
          exact .inr (.inr ⟨rfl, rfl⟩)

/-- A dispatch appends its message or leaves the queue. -/
theorem dispatch_items (c : Connection) (message : Message) :
    (c.dispatch message).queue.items = c.queue.items ++ [message] ∨
      (c.dispatch message).queue.items = c.queue.items ∧ ¬ c.queue.HasRoom := by
  unfold dispatch
  by_cases room : c.queue.HasRoom
  · obtain ⟨queue, sent, items⟩ := Queue.send_of_room room message
    rw [sent]
    exact .inl items
  · rw [Queue.send_of_full room]
    exact .inr ⟨rfl, room⟩

end Connection

/-- Each handler keeps one predicate throughout and leaves another one to the next handler. -/
structure Keeping (always : List Op → Resources → Prop) (held : ConnectionState → Resources → Prop)
    (c : Connection) : Prop where
  running : c.aborted = false
  keeps : Keeps execute always (held c.handled) c.ops c.resources

namespace Keeping

variable {always : List Op → Resources → Prop} {held : ConnectionState → Resources → Prop}
  {c next : Connection} {label : ConnectionLabel}

theorem dispatch (keeping : Keeping always held c) (message : Message) :
    Keeping always held (c.dispatch message) := by
  rw [c.dispatch_eq message]
  exact ⟨keeping.running, keeping.keeps⟩

/-- An executed operation of a handler does not abort. -/
theorem executed {succeeds : Bool} (keeping : Keeping always held c)
    (taken : c.execute succeeds = some next) :
    ∃ op rest, c.ops = op :: rest ∧
      ((∃ r, A2dp.execute c.resources op succeeds = .next r ∧
          next = { c with ops := rest, resources := r }) ∨
        ∃ r, A2dp.execute c.resources op succeeds = .leave r ∧
          next = { c with ops := [], resources := r }) := by
  obtain ⟨op, rest, ops, result⟩ := Connection.execute_cases taken
  refine ⟨op, rest, ops, ?_⟩
  rcases result with went | left | ⟨aborted, _⟩
  · exact .inl went
  · exact .inr left
  · have keeps := keeping.keeps
    rw [ops] at keeps
    exact absurd aborted keeps.not_abort

theorem execute {succeeds : Bool} (keeping : Keeping always held c)
    (taken : c.execute succeeds = some next) : Keeping always held next := by
  obtain ⟨op, rest, ops, result⟩ := keeping.executed taken
  have keeps := keeping.keeps
  rw [ops] at keeps
  rcases result with ⟨r, executed, rfl⟩ | ⟨r, executed, rfl⟩
  · exact ⟨keeping.running, keeps.next executed⟩
  · exact ⟨keeping.running, keeps.leave executed⟩

/-- The task goes on keeping when the handler of each received report does. -/
theorem step (keeping : Keeping always held c) (taken : connectionMachine.step c label = some next)
    (handler : ∀ state, label = .receive → c.queue.items.head? = some (.connectionState state) →
      always [] c.resources → held c.handled c.resources →
      Keeps A2dp.execute always (held state) (btAvHdlA2dEvt state) c.resources) :
    Keeping always held next := by
  cases label with
  | report state =>
      rw [Connection.step_report keeping.running] at taken
      unfold Connection.report at taken
      split at taken
      · cases taken
        have reported : Keeping always held { c with stack := state } := ⟨keeping.running, keeping.keeps⟩
        exact reported.dispatch _
      · cases taken
  | other =>
      rw [Connection.step_other keeping.running] at taken
      cases taken
      exact keeping.dispatch .other
  | receive =>
      rw [Connection.step_receive keeping.running] at taken
      obtain ⟨idle, received⟩ := Connection.receive_cases taken
      have kept := keeping.keeps
      rw [idle] at kept
      rcases received with ⟨state, queue, items, rfl⟩ | ⟨queue, items, rfl⟩
      · exact ⟨keeping.running, handler state rfl (by rw [items]; rfl) kept.1 kept.2⟩
      · exact ⟨keeping.running, keeping.keeps⟩
  | execute succeeds =>
      rw [Connection.step_execute keeping.running] at taken
      exact keeping.execute taken

end Keeping

end DesktopCube.A2dp
